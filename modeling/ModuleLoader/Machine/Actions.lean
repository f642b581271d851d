import ModuleLoader.Machine.Fetchers

/-! What each action does at once, and which work it leaves to be done before it is concluded. -/
namespace ModuleLoader

def TokenAction.name : TokenAction → String
  | look => "tok_info"
  | define _ => "tok_define"
  | defineDerived _ => "tok_derived"
  | complete => "tok_complete"
  | abandon => "tok_drop"

/-- Actions that are logged by their names; the silent ones have names too. -/
def Action.name : Action → String
  | value a => a.name
  | query q => q.name
  | get .. => "get"
  | loadAsync .. => "async"
  | giveBack _ => "return"
  | giveBackDependency _ => "return_get"
  | useModules .. => "use"
  | load .. => "load"
  | compile .. => "compile"
  | define _ => "define"
  | defineDerived .. => "define_derived"
  | describe _ => "debug"
  | modify .. => "modify"
  | preload _ => "preload"
  | remove _ => "remove"
  | keep .. => "grab"
  | setExports .. => "set_exports"
  | addFile .. => "add_file"
  | complete _ => "complete"
  | completeNext => "complete_next"
  | completeAll => "complete_all"
  | token _ a => a.name
  | report .. => "report"
  | clearDiagnostics => "clear_diags"
  | unknown name => name

namespace World

/-- A callback's place names where it was passed on, and a tag. -/
def newCallback (w : World) (site : Site) (tag : String) (body : Script) : World × Callback :=
  ({ w with issued := w.issued + 1 }, ⟨w.issued, site.place ++ " > " ++ tag, body⟩)

def newPatch (w : World) (target : Locator) (body : Script) : World × Patch :=
  ({ w with issued := w.issued + 1 }, ⟨w.issued, target, body⟩)

/-- Asks for the interface of a dependency, as the module that a body belongs to. A dependency that
is compiling answers with its interface so far. -/
def getDependency (w : World) (c : Context) (id : String) : World × List Frame :=
  let answered (answer : Option Value) : World × List Frame := ({ w with answer }, [])
  match w.loader.resolve id (some (w.loader.record c.record).locator) with
  | none => answered none
  | some locator =>
    match w.loader.entry? locator with
    | none => answered none
    | some child =>
      match w.loader.status child with
      | .compiling | .compiled => answered (w.loader.record child).exports
      | _ => ({ w with loader := w.loader.setInitiator child c.record }, [.compile child])

/-- Patches a module at once if it is compiled, and later otherwise. -/
def modify (w : World) (id : String) (body : Script) : World × List Frame :=
  match w.loader.resolve id none with
  | none => ({ w with loader := w.loader.report (.unresolvable id) }, [])
  | some target =>
    let (w, patch) := w.newPatch target body
    let later := { w with loader := w.loader.queuePatch patch }
    match w.loader.entry? target with
    | some r =>
      if w.loader.status r = .compiled then (w, [.runPatch r patch, .replaceInterface r])
      else (later, [])
    | none => (later, [])

def tokenReply (t : FetchToken) : Reply := .many [.text t.resource.text, t.locator.reply]

/-- What is done with a retrieval in the hands of the host. -/
def actOnToken (w : World) (site : Site) (index : Nat) (action : TokenAction) :
    World × List Frame :=
  match w.token? index with
  | none => (w.write site.place action.name (some .absent), [])
  | some token =>
    let reply := tokenReply token
    match action with
    | .look => (w.write site.place action.name (some reply), [])
    | .define draft =>
      let (w, registration) := w.evalDraft site draft
      let w := { w with loader := w.loader.define registration }
      (w.write site.place action.name (some reply), [])
    | .defineDerived draft =>
      let (w, registration) := w.evalDraft site draft
      let w := { w with loader := w.loader.defineDerived registration (some token.locator) }
      (w.write site.place action.name (some reply), [])
    | .complete =>
      (w.dropToken index, [.retrieved token, .conclude site (.reply action.name reply)])
    | .abandon =>
      (((w.dropToken index).abandon token).write site.place action.name (some reply), [])

/-- An action, and the work that it leaves. -/
def act (w : World) (site : Site) (action : Action) : World × List Frame :=
  let logged (w : World) (reply : Reply) : World × List Frame :=
    (w.write site.place action.name (some reply), [])
  let returned (w : World) (frames : List Frame) : World × List Frame :=
    (w, frames ++ [.conclude site (.reply action.name (.text "returned"))])
  match action with
  | .value a =>
    let (w, reply) := w.actOnValues site a
    match reply with
    | some reply => logged w reply
    | none => (w, [])
  | .query q => logged w (w.ask site q)
  | .get id into key =>
    match site.context with
    | none => logged w (.text "no context")
    | some c =>
      let (w, frames) := w.getDependency c id
      (w, frames ++ [.conclude site (.got into key)])
  | .loadAsync ids tag body =>
    match site.context with
    | none => logged w (.text "no context")
    | some c =>
      let (w, callback) := w.newCallback site tag body
      returned w [.request (some (w.loader.record c.record).locator) ids (.host callback)]
  | .giveBack value =>
    let (w, value) := w.eval site value
    ({ w with answer := some value }, [])
  | .giveBackDependency id =>
    match site.context with
    | none => ({ w with answer := none }, [])
    | some c => w.getDependency c id
  | .useModules ids tag body =>
    let (w, callback) := w.newCallback site tag body
    returned w [.preload (.request ids (.host callback))]
  | .load locators tag body =>
    let (w, callback) := w.newCallback site tag body
    returned w [.load locators (.call callback)]
  | .compile ref into =>
    match w.find? site ref with
    | none => logged w .absent
    | some r => (w, [.compile r, .conclude site (.compiled into)])
  | .define draft =>
    let (w, registration) := w.evalDraft site draft
    ({ w with loader := w.loader.define registration }, [])
  | .defineDerived draft derived =>
    let (w, registration) := w.evalDraft site draft
    ({ w with loader := w.loader.defineDerived registration derived }, [])
  | .describe draft =>
    let (w, registration) := w.evalDraft site draft
    logged w (.text (registration.describeParts w.memory))
  | .modify id body =>
    let (w, frames) := w.modify id body
    returned w frames
  | .preload id => ({ w with loader := w.loader.addPreload id }, [])
  | .remove key =>
    let old := w.loader.entry? ⟨key⟩
    logged { w with loader := w.loader.remove ⟨key⟩ }
      (.ofOption (fun r => (w.loader.record r).locator.reply) old)
  | .keep ref into =>
    match w.find? site ref with
    | none => logged w .absent
    | some r => ({ w with kept := w.kept.insert into r }, [])
  | .setExports ref value =>
    match w.find? site ref with
    | none => logged w .absent
    | some r =>
      let (w, value) := w.eval site value
      ({ w with loader := w.loader.setExports r value }, [])
  | .addFile resource draft =>
    let (w, registration) := w.evalDraft site draft
    ({ w with fetcher.files := w.fetcher.files ++ [(resource, registration)] }, [])
  | .complete resource => w.completeTaken site action.name (w.takeQueued? resource)
  | .completeNext => w.completeTaken site action.name w.takeNext?
  | .completeAll =>
    if w.fetcher.policy = .queued then (w, [.completeRest site 0]) else logged w .nothing
  | .token index a => w.actOnToken site index a
  | .report severity message detail =>
    ({ w with loader := w.loader.emit (.free severity message detail) }, [])
  | .clearDiagnostics =>
    ({ w with loader := { w.loader with sink := w.loader.sink.clear } }, [])
  | .unknown _ => logged w (.text "unknown action")

/-- Does an action end the list that it stands in? -/
def endsScript : Action → Bool
  | .giveBack _ | .giveBackDependency _ => true
  | _ => false

/-- The next action of a list. A list that is used up answers nothing. -/
def runScript (w : World) (site : Site) : Script → World × List Frame
  | [] => ({ w with answer := none }, [])
  | action :: rest =>
    let (w, frames) := w.act site action
    if endsScript action then (w, frames) else (w, frames ++ [.script site rest])

/-- Logs an action whose calls have returned. -/
def conclude (w : World) (site : Site) : Conclusion → World
  | .got into key =>
    let value := w.answer.getD .null
    let w := w.store into value
    let memory := match key, site.context with
      | some key, some c => (w.memory.insert c.handed key value).1
      | _, _ => w.memory
    let w := { w with memory }
    w.write site.place "get" (some (w.displayOption w.answer))
  | .compiled into =>
    let w := w.store into (w.answer.getD .null)
    w.write site.place "compile" (some (w.displayOption w.answer))
  | .reply action reply => w.write site.place action (some reply)

end World

end ModuleLoader
