import ModuleLoader.Machine.Actions

/-! One step: the work of one frame, and the frames that it leaves in its place. -/
namespace ModuleLoader

namespace World

/-- The interfaces handed to a callback are session variables named by position. -/
def bindArguments (w : World) (interfaces : List (Option Value)) : World :=
  interfaces.zipIdx.foldl
    (fun w (value, i) => w.store (some ("arg" ++ toString i)) (value.getD .null)) w

/-- Calls the host back with the interfaces it asked for. -/
def callBack (w : World) (callback : Callback) (interfaces : List (Option Value)) :
    World × List Frame :=
  let w := w.write callback.place "callback" (some (.many (interfaces.map w.displayOption)))
  (w.bindArguments interfaces, [.script ⟨callback.place, none⟩ callback.body])

/-- Counts an entry at its barrier. -/
def arrive (w : World) (b : BarrierId) (loaded : Option RecordId) : World × List Frame :=
  let (loader, next) := w.loader.arrive b loaded
  ({ w with loader }, (next.map Frame.resume).toList)

/-- Loads what is not ready yet; if everything is, what comes next is started at once. -/
def load (w : World) (locators : List Locator) (onDone : Continuation) : World × List Frame :=
  let pending := locators.filter w.loader.needsLoading
  if pending.isEmpty then (w, [.resume onDone])
  else
    let (loader, b) := w.loader.newBarrier pending.length onDone
    ({ w with loader }, [.entries pending b])

/-- Starts with one entry of a load. -/
def enter (w : World) (locator : Locator) (b : BarrierId) : World × List Frame :=
  let (loader, r) := w.loader.ensure locator .fetching
  if .fetched ≤ loader.status r then ({ w with loader }, [.settled locator b])
  else
    let (loader, start) := loader.awaitResource ⟨locator, b⟩
    let w := { w with loader }
    match start with
    | .ready => (w, [.settled locator b])
    | .joined => (w, [])
    | .started token => w.retrieve token

/-- Goes on with an entry whose retrieval is over. -/
def settle (w : World) (locator : Locator) (b : BarrierId) : World × List Frame :=
  let (loader, entry) := w.loader.settledEntry locator
  let w := { w with loader }
  match entry with
  | .missing => w.arrive b none
  | .ready r => w.arrive b (some r)
  | .waits r dependencies => (w, [.load dependencies (.arrive b r)])

def resume (w : World) : Continuation → World × List Frame
  | .arrive b r => w.arrive b (some r)
  | .request ids receiver => (w, [.request none ids receiver])
  | .preload locators receiver => (w, [.preload (.gather locators receiver)])
  | .gather locators receiver => (w, [.gather locators [] receiver])
  | .call callback => w.callBack callback []

/-- Takes all that is queued to come first and requests it from the page. -/
def preload (w : World) (next : Continuation) : World × List Frame :=
  match w.loader.preloads with
  | [] => (w, [.resume next])
  | ids =>
    ({ w with loader := { w.loader with preloads := [] }.note (.preloading ids) },
      [.request none ids (.discard next)])

/-- Goes on to the next module of a request. -/
def gather (w : World) (interfaces : List (Option Value)) (receiver : Receiver) :
    List (Option Locator) → World × List Frame
  | [] => (w, [.deliver receiver interfaces])
  | locator :: rest =>
    match locator.bind w.loader.entry? with
    | some r => (w, [.compile r, .collect rest interfaces receiver])
    | none => (w, [.gather rest (interfaces ++ [none]) receiver])

/-- Compiles a module unless it is compiled or being compiled. -/
def compile (w : World) (r : RecordId) : World × List Frame :=
  match w.loader.status r with
  | .compiling | .compiled => ({ w with answer := (w.loader.record r).exports }, [])
  | _ =>
    if w.loader.canCompile r then
      let (memory, interface) := w.memory.newObject ∅
      let loader := w.loader.beginCompile r interface
      let w := { w with memory, loader }
      match (loader.record r).factory with
      | some (.function body _) =>
        ({ w with loader := loader.enterFactory r },
          [.runFactory r body, .replaceInterface r, .leaveFactory, .finishCompile r])
      | some (.value value) =>
        ({ w with loader := loader.setExports r value }, [.finishCompile r])
      | none => (w, [.finishCompile r])
    else ({ w with answer := none }, [])

/-- Enters a body with the module's interface, or with a new one if it has none. -/
def enterBody (w : World) (r : RecordId) (role : String) (body : Script) : World × List Frame :=
  let record := w.loader.record r
  let place := role ++ " " ++ record.locator.text
  let (memory, handed) := match record.exports with
    | some value => (w.memory, value)
    | none => w.memory.newObject ∅
  ({ w with memory }.write place "enter" none, [.script ⟨place, some ⟨r, handed⟩⟩ body])

/-- The queues of a module's patches are looked up by both of its locators. -/
def finishCompile (w : World) (r : RecordId) : World × List Frame :=
  let keys := (w.loader.record r).patchKeys
  ({ w with loader := w.loader.setStatus r .compiled },
    keys.map (Frame.applyPatches · r) ++ [.answerExports r])

def applyPatches (w : World) (key : Locator) (r : RecordId) : World × List Frame :=
  let (loader, patches) := w.loader.takePatches key
  ({ w with loader }, patches.flatMap fun patch => [.runPatch r patch, .replaceInterface r])

def finishFetch (w : World) (token : FetchToken) : World × List Frame :=
  let (loader, waiters) := w.loader.finishFetch token
  ({ w with loader }, waiters.map fun waiter => .settled waiter.locator waiter.barrier)

end World

/-- The work of one frame. -/
def Frame.exec (w : World) : Frame → World × List Frame
  | .script site actions => w.runScript site actions
  | .conclude site conclusion => (w.conclude site conclusion, [])
  | .load locators onDone => w.load locators onDone
  | .entries [] _ => (w, [])
  | .entries (locator :: rest) b =>
    let (w, frames) := w.enter locator b
    (w, frames ++ [.entries rest b])
  | .settled locator b => w.settle locator b
  | .resume continuation => w.resume continuation
  | .request referrer ids receiver =>
    let locators := ids.map (w.loader.resolve · referrer)
    (w, [.load (locators.filterMap id) (.preload locators receiver)])
  | .preload next => w.preload next
  | .gather locators interfaces receiver => w.gather interfaces receiver locators
  | .collect locators interfaces receiver =>
    (w, [.gather locators (interfaces ++ [w.answer]) receiver])
  | .deliver (.host callback) interfaces => w.callBack callback interfaces
  | .deliver (.discard next) _ => (w, [.resume next])
  | .retrieved token => w.finishFetch token
  | .compile r => w.compile r
  | .runFactory r body => w.enterBody r "factory" body
  | .runPatch r patch => w.enterBody r "patch" patch.body
  | .replaceInterface r =>
    match w.answer with
    | some value => ({ w with loader := w.loader.setExports r value }, [])
    | none => (w, [])
  | .leaveFactory => ({ w with loader := w.loader.leaveFactory }, [])
  | .finishCompile r => w.finishCompile r
  | .applyPatches key r => w.applyPatches key r
  | .answerExports r => ({ w with answer := (w.loader.record r).exports }, [])
  | .completeRest site done =>
    match w.takeNext? with
    | some (w, token) =>
      (w.evaluate token.resource, [.retrieved token, .completeRest site (done + 1)])
    | none => (w.write site.place "complete_all" (some (.number done)), [])

/-- A world with the work that is still to be done in it, next first. -/
structure Machine where
  world : World
  stack : List Frame

namespace Machine

/-- One step. A machine without work is at rest. -/
def step? (m : Machine) : Option Machine :=
  match m.stack with
  | [] => none
  | frame :: rest =>
    let (world, frames) := frame.exec m.world
    some ⟨world, frames ++ rest⟩

/-- At most `fuel` steps. -/
def run : Nat → Machine → Machine
  | 0, m => m
  | fuel + 1, m =>
    match m.step? with
    | some next => run fuel next
    | none => m

end Machine

end ModuleLoader
