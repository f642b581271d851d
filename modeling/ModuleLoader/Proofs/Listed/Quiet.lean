import ModuleLoader.Proofs.Listed.Registry
import Mathlib.Algebra.Ring.Nat

/-! What the work of bodies, compilations and host actions comes to in a session over a table. It may
move records on that are saved, hand a request to loading, or take a retrieval from the queue. -/
namespace ModuleLoader

open Loader (Sound Landed Kept Raised)

/-- A continuation stands on records that are there. -/
def Continuation.Backed (l : Loader) : Continuation → Prop
  | .arrive _ r => .saved ≤ l.status r
  | _ => True

/-- A frame stands on records that are far enough. -/
def Frame.Backed (l : Loader) : Frame → Prop
  | .finishCompile r => .compiling ≤ l.status r
  | .settled locator _ => Landed l locator
  | .load _ next | .resume next | .preload next => next.Backed l
  | _ => True

/-- The most steps that a frame without a part in loads leads to, as long as no record moves on. -/
def Frame.length : Frame → Nat
  | .script _ actions => 1 + 4 * actions.length
  | .runFactory _ body => 2 + 4 * body.length
  | .runPatch _ patch => 2 + 4 * patch.body.length
  | .finishCompile _ => 4
  | _ => 1

/-- Frames in which modules are compiled, or the bodies of modules run. -/
def Frame.compiles : Frame → Bool
  | .script site _ | .conclude site _ | .completeRest site _ => site.context.isSome
  | .compile _ | .runFactory .. | .runPatch .. | .replaceInterface _ | .leaveFactory | .finishCompile _
  | .applyPatches .. | .answerExports _ => true
  | _ => false

/-- The host's callback asks for nothing. -/
def Receiver.isIdle : Receiver → Bool
  | .host callback => callback.body.all Action.isLocal
  | .discard _ => true

def Continuation.isIdle : Continuation → Bool
  | .request _ receiver | .preload _ receiver | .gather _ receiver => receiver.isIdle
  | .arrive .. | .call _ => true

/-- Frames in which the page asks for nothing, and which lead to nothing that does. -/
def Frame.isIdle : Frame → Bool
  | .script _ actions => actions.all fun action => action.isLocal || action.completes
  | .load _ next | .resume next | .preload next => next.isIdle
  | .request _ _ receiver | .gather _ _ receiver | .collect _ _ receiver | .deliver receiver _ =>
    receiver.isIdle
  | _ => true

theorem Frame.isIdle_tail {site : Site} {action : Action} {rest : Script}
    (idle : isIdle (.script site (action :: rest)) = true) : isIdle (.script site rest) = true := by
  rw [isIdle, List.all_cons, Bool.and_eq_true] at idle
  exact idle.2

theorem Frame.isIdle_of_local (site : Site) {body : Script} (isLocal : body.all Action.isLocal = true) :
    isIdle (.script site body) = true := by
  refine List.all_eq_true.mpr fun action member => ?_
  rw [List.all_eq_true.mp isLocal action member, Bool.true_or]

/-- A frame that has no part in loads, left by another one in a session over a table. -/
structure Frame.Aside (f origin : Frame) (l : Loader) : Prop where
  isQuiet : f.isQuiet = true
  isPlain : f.isPlain = true
  backed : f.Backed l
  compiles : f.compiles = true → origin.compiles = true
  idle : origin.isIdle = true → f.isIdle = true

/-- The kinds of work that have no part in loads. -/
inductive QuietMove (setup : Setup) (w : World) (frame : Frame) : World → List Frame → Prop where
  | still {w' : World} {frames : List Frame} (kept : Kept w.loader w'.loader)
      (fetcher : w'.fetcher = w.fetcher) (aside : ∀ f ∈ frames, f.Aside frame w'.loader)
      (shorter : (frames.map Frame.length).sum < frame.length) : QuietMove setup w frame w' frames
  /-- A factory begins to run, or a value is exported. -/
  | compiling {w' : World} {frames : List Frame} (r : RecordId) (same : frame = .compile r)
      (saved : .saved ≤ w.loader.status r) (below : w.loader.status r < .compiling)
      (raised : Raised w.loader w'.loader)
      (only : ∀ x, w'.loader.status x = if x = r then .compiling else w.loader.status x)
      (fetcher : w'.fetcher = w.fetcher) (aside : ∀ f ∈ frames, f.Aside frame w'.loader) :
      QuietMove setup w frame w' frames
  | compiled {w' : World} {frames : List Frame} (r : RecordId) (same : frame = .finishCompile r)
      (raised : Raised w.loader w'.loader)
      (only : ∀ x, w'.loader.status x = if x = r then .compiled else w.loader.status x)
      (fetcher : w'.fetcher = w.fetcher) (aside : ∀ f ∈ frames, f.Aside frame w'.loader)
      (shorter : (frames.map Frame.length).sum < frame.length) : QuietMove setup w frame w' frames
  /-- The page asks for modules. -/
  | asked {w' : World} (site : Site) (ids : List String) (tag : String) (body rest : Script)
      (same : frame = .script site (.useModules ids tag body :: rest))
      (kept : w'.loader = w.loader) (fetcher : w'.fetcher = w.fetcher)
      (hosted : Action.allHosted Action.isLocal body = true) (conclusion : Conclusion)
      (after : Frame.isPlain (.script site rest) = true) :
      QuietMove setup w frame w'
        [.preload (.request ids (.host ⟨w.issued, site.place ++ " > " ++ tag, body⟩)),
          .conclude site conclusion, .script site rest]
  /-- A queued retrieval is answered. -/
  | taken {w' : World} {frames : List Frame} (token : FetchToken) (anonymous : Option Definition)
      (queued : token ∈ w.fetcher.queue) (awaited : setup.Awaited token.locator anonymous)
      (loader : w'.loader = { w.loader with anonymous })
      (queue : w'.fetcher = { w.fetcher with queue := w.fetcher.queue.erase token })
      (aside : ∀ f ∈ frames, f.Aside frame w'.loader) :
      QuietMove setup w frame w' (.retrieved token :: frames)

namespace Loader

theorem Kept.of_eq {l l' : Loader} (same : l' = l) : Kept l l' := by
  rw [same]
  exact .refl l

theorem Kept.of_update {f : Record → Record} (fixed : ∀ record, (f record).fixed = record.fixed)
    (status : ∀ record, (f record).status = record.status) (l : Loader) (r : RecordId) :
    Kept l (l.updateRecord r f) := by
  refine ⟨rfl, fun x => ?_, fun x => ?_⟩
  · obtain same | ⟨rfl, same⟩ := l.updateRecord_cases r f x <;> rw [same]
    exact fixed _
  · rw [Loader.status, Loader.status]
    obtain same | ⟨rfl, same⟩ := l.updateRecord_cases r f x <;> rw [same]
    exact status _

/-- A saved record moves on. -/
theorem Raised.of_update {l : Loader} {r : RecordId} {s : Status} {f : Record → Record}
    (fixed : ∀ record, (f record).fixed = record.fixed)
    (status : ∀ record, (f record).status = s) (saved : .saved ≤ l.status r)
    (rising : l.status r ≤ s) :
    Raised l (l.updateRecord r f) ∧
      ∀ x, (l.updateRecord r f).status x = if x = r then s else l.status x := by
  have inside := index_lt_of_known (Status.ne_unknown_of_le (a := .saved) (by decide) saved)
  have only (x : RecordId) : (l.updateRecord r f).status x = if x = r then s else l.status x := by
    rw [Loader.status, record_updateRecord_inside inside]
    split
    · exact status _
    · rfl
  refine ⟨⟨rfl, fun x => ?_, fun x => ?_⟩, only⟩
  · obtain same | ⟨rfl, same⟩ := l.updateRecord_cases r f x <;> rw [same]
    exact fixed _
  · rw [only]
    split
    · rename_i same
      exact .inr ⟨same ▸ saved, same ▸ rising⟩
    · exact .inl rfl

end Loader

namespace World

variable {setup : Setup} {w : World}

theorem getDependency_still (w : World) (c : Context) (id : String) :
    Kept w.loader (w.getDependency c id).1.loader ∧ (w.getDependency c id).1.fetcher = w.fetcher ∧
      ((w.getDependency c id).2 = [] ∨ ∃ r, (w.getDependency c id).2 = [.compile r]) := by
  unfold getDependency
  dsimp only
  split
  · exact ⟨.refl _, rfl, .inl rfl⟩
  · split
    · exact ⟨.refl _, rfl, .inl rfl⟩
    · split
      · exact ⟨.refl _, rfl, .inl rfl⟩
      · exact ⟨.refl _, rfl, .inl rfl⟩
      · exact ⟨.of_update (f := fun record => { record with initiator := some c.record })
          (fun _ => rfl) (fun _ => rfl) _ _, rfl, .inr ⟨_, rfl⟩⟩

/-- Actions of bodies leave loading alone, and may have a module compiled. -/
theorem act_still (w : World) (site : Site) {action : Action} (actions : Script)
    (isLocal : action.isLocal = true) :
    Kept w.loader (w.act site action).1.loader ∧ (w.act site action).1.fetcher = w.fetcher ∧
      (∀ l, ∀ f ∈ (w.act site action).2, f.Aside (.script site actions) l) ∧
      ((w.act site action).2.map Frame.length).sum ≤ 2 := by
  have none (l : Loader) : ∀ f ∈ ([] : List Frame), f.Aside (.script site actions) l :=
    List.forall_mem_nil _
  have compile {c : Context} (here : site.context = some c) (l : Loader) (r : RecordId) :
      Frame.Aside (.compile r) (.script site actions) l :=
    ⟨rfl, rfl, trivial, fun _ => Option.isSome_of_eq_some here, fun _ => rfl⟩
  have conclude (l : Loader) (conclusion : Conclusion) :
      Frame.Aside (.conclude site conclusion) (.script site actions) l :=
    ⟨rfl, rfl, trivial, id, fun _ => rfl⟩
  cases action with
  | value a =>
    obtain ⟨loader, fetcher, -⟩ := w.actOnValues_same site a
    simp only [act]
    generalize w.actOnValues site a = made at *
    obtain ⟨w', reply⟩ := made
    cases reply with
    | none => exact ⟨.of_eq loader, fetcher, none, Nat.zero_le _⟩
    | some reply => exact ⟨.of_eq loader, fetcher, none, Nat.zero_le _⟩
  | query | giveBack => exact ⟨.refl _, rfl, none, Nat.zero_le _⟩
  | get id into key =>
    simp only [act]
    split
    · exact ⟨.refl _, rfl, none, Nat.zero_le _⟩
    · rename_i c here
      obtain ⟨kept, fetcher, frames⟩ := w.getDependency_still c id
      refine ⟨kept, fetcher, ?_, ?_⟩
      · intro l f member
        obtain none | ⟨r, one⟩ := frames
        · rw [none, List.nil_append, List.mem_singleton] at member
          exact member ▸ conclude l _
        · rw [one, List.singleton_append, List.mem_cons, List.mem_singleton] at member
          rcases member with rfl | rfl
          · exact compile here l r
          · exact conclude l _
      · obtain none | ⟨r, one⟩ := frames
        · rw [none]
          exact Nat.le_succ _
        · rw [one]
          exact Nat.le_refl _
  | giveBackDependency id =>
    simp only [act]
    split
    · exact ⟨.refl _, rfl, none, Nat.zero_le _⟩
    · rename_i c here
      obtain ⟨kept, fetcher, none' | ⟨r, one⟩⟩ := w.getDependency_still c id
      · refine ⟨kept, fetcher, ?_, ?_⟩
        · rw [none']
          exact none
        · rw [none']
          exact Nat.zero_le _
      · refine ⟨kept, fetcher, ?_, ?_⟩
        · intro l f member
          rw [one, List.mem_singleton] at member
          exact member ▸ compile here l r
        · rw [one]
          exact Nat.le_succ _
  | _ => cases isLocal

/-- A retrieval that is taken from the queue. -/
theorem taken_move {w' : World} {token : FetchToken} {frame : Frame} {frames : List Frame}
    (unnamed : w.loader.anonymous = none) (offers : ∀ locator, w.fetcher.Offers setup locator)
    (resource : token.resource = .ofLocator token.locator) (queued : token ∈ w.fetcher.queue)
    (taken : w' = { w with fetcher.queue := w.fetcher.queue.erase token })
    (aside : ∀ l, ∀ f ∈ frames, f.Aside frame l) :
    QuietMove setup w frame (w'.evaluate token.resource) (.retrieved token :: frames) := by
  subst taken
  have offers' : Fetcher.Offers { w.fetcher with queue := w.fetcher.queue.erase token } setup
      token.locator := (offers token.locator).of_files rfl
  obtain ⟨anonymous, awaited, evaluated⟩ := evaluate_listed (w := { w with fetcher := _ }) offers' unnamed
  rw [resource, evaluated]
  exact .taken token anonymous queued awaited rfl rfl (aside _)

/-- What the table says about the queue's tokens. -/
def Resourced (w : World) : Prop :=
  ∀ token ∈ w.fetcher.queue, token.resource = .ofLocator token.locator

theorem takeQueued?_taken {resource : PhysicalId} {w' : World} {token : FetchToken}
    (taken : w.takeQueued? resource = some (w', token)) :
    token ∈ w.fetcher.queue ∧ w' = { w with fetcher.queue := w.fetcher.queue.erase token } := by
  unfold takeQueued? at taken
  split at taken
  · rename_i queued
    cases taken
    exact ⟨List.mem_of_find?_eq_some queued, rfl⟩
  · cases taken

theorem takeNext?_taken {w' : World} {token : FetchToken} (taken : w.takeNext? = some (w', token)) :
    token ∈ w.fetcher.queue ∧ w' = { w with fetcher.queue := w.fetcher.queue.erase token } := by
  unfold takeNext? at taken
  split at taken
  · rename_i queue
    cases taken
    rw [queue, List.erase_cons_head]
    exact ⟨List.mem_cons_self .., rfl⟩
  · cases taken

variable (unnamed : w.loader.anonymous = none) (offers : ∀ locator, w.fetcher.Offers setup locator)
  (resourced : w.Resourced)

include unnamed offers resourced

theorem completeTaken_move (site : Site) (name : String) (rest : Script)
    {action : Action} (plain : Action.allHosted Action.isLocal rest = true)
    (apart : (site.context.isNone || rest.all Action.isLocal) = true)
    (taken : Option (World × FetchToken))
    (spec : ∀ w' token, taken = some (w', token) →
      token ∈ w.fetcher.queue ∧ w' = { w with fetcher.queue := w.fetcher.queue.erase token }) :
    QuietMove setup w (.script site (action :: rest)) (w.completeTaken site name taken).1
      ((w.completeTaken site name taken).2 ++ [.script site rest]) := by
  have conclude (l : Loader) (conclusion : Conclusion) :
      ∀ f ∈ [Frame.conclude site conclusion] ++ [.script site rest],
        f.Aside (.script site (action :: rest)) l := by
    intro f member
    rcases List.mem_cons.mp member with rfl | member
    · exact ⟨rfl, rfl, trivial, id, fun _ => rfl⟩
    · rw [List.mem_singleton.mp member]
      exact ⟨rfl, by simp [Frame.isPlain, plain, apart], trivial, id, Frame.isIdle_tail⟩
  unfold completeTaken
  split
  · refine .still (.refl _) rfl (conclude _ _) ?_
    simp [Frame.length]
    omega
  · split
    · rename_i w' token
      obtain ⟨queued, same⟩ := spec w' token rfl
      exact taken_move unnamed offers (resourced token queued) queued same fun l => conclude l _
    · refine .still (.refl _) rfl (conclude _ _) ?_
      simp [Frame.length]
      omega

theorem script_move (site : Site) (actions : Script)
    (plain : Frame.isPlain (.script site actions) = true) :
    QuietMove setup w (.script site actions) (w.runScript site actions).1
      (w.runScript site actions).2 := by
  cases actions with
  | nil =>
    refine .still (.refl _) rfl (List.forall_mem_nil _) ?_
    simp [runScript, Frame.length]
  | cons action rest =>
    simp only [Frame.isPlain, Action.allHosted, List.all_cons, Bool.and_eq_true, Bool.or_eq_true] at plain
    obtain ⟨⟨plain, plains⟩, locals⟩ := plain
    have apart : (site.context.isNone || rest.all Action.isLocal) = true := by
      rcases locals with none | ⟨-, locals⟩
      · rw [none, Bool.true_or]
      · rw [locals, Bool.or_true]
    have next (l : Loader) : Frame.Aside (.script site rest) (.script site (action :: rest)) l :=
      ⟨rfl, by simp [Frame.isPlain, plains, apart], trivial, id, Frame.isIdle_tail⟩
    have behind {l : Loader} {frames : List Frame}
        (aside : ∀ f ∈ frames, f.Aside (.script site (action :: rest)) l) :
        ∀ f ∈ frames ++ [.script site rest], f.Aside (.script site (action :: rest)) l := by
      intro f member
      rcases List.mem_append.mp member with first | last
      · exact aside f first
      · obtain rfl := List.mem_singleton.mp last
        exact next l
    clear locals
    simp only [runScript]
    cases isLocal : action.isLocal with
    | true =>
      obtain ⟨kept, fetcher, aside, few⟩ := w.act_still site (action :: rest) isLocal
      split
      · refine .still kept fetcher (aside _) ?_
        simp only [Frame.length, List.length_cons]
        omega
      · refine .still kept fetcher (behind (aside _)) ?_
        simp only [List.map_append, List.map_cons, List.map_nil, List.sum_append, List.sum_cons,
          List.sum_nil, Frame.length, List.length_cons]
        omega
    | false =>
      cases action with
      | useModules ids tag body =>
        refine .asked site ids tag body rest rfl ?_ ?_ plain (.reply "use" (.text "returned"))
          (next w.loader).isPlain
        · rfl
        · rfl
      | complete resource =>
        exact completeTaken_move unnamed offers resourced site _ rest plains apart _
          fun _ _ taken => takeQueued?_taken taken
      | completeNext =>
        exact completeTaken_move unnamed offers resourced site _ rest plains apart _
          fun _ _ taken => takeNext?_taken taken
      | completeAll =>
        have started : ∀ l, ∀ f ∈ [Frame.completeRest site 0],
            f.Aside (.script site (.completeAll :: rest)) l := by
          intro l f member
          obtain rfl := List.mem_singleton.mp member
          exact ⟨rfl, rfl, trivial, id, fun _ => rfl⟩
        simp only [act, endsScript, Bool.false_eq_true, if_false]
        by_cases policy : w.fetcher.policy = .queued
        · simp only [if_pos policy]
          refine .still (.refl _) rfl (behind (started _)) ?_
          simp [Frame.length]
          omega
        · simp only [if_neg policy]
          refine .still (.refl _) rfl (behind (List.forall_mem_nil _)) ?_
          simp [Frame.length]
      | value | query | get | giveBack | giveBackDependency => cases isLocal
      | _ => cases plain

end World

namespace World

variable {setup : Setup} {w : World}

theorem compile_move (tabular : w.loader.Tabular setup) (r : RecordId) :
    QuietMove setup w (.compile r) (w.compile r).1 (w.compile r).2 := by
  have nothing (l : Loader) : ∀ f ∈ ([] : List Frame), f.Aside (.compile r) l :=
    List.forall_mem_nil _
  have unpatched : w.loader.hasPatches r = false := by
    rw [Loader.hasPatches, tabular.patches]
    exact List.any_eq_false.mpr fun key _ => Bool.false_ne_true
  unfold compile
  split
  · exact .still (.refl _) rfl (nothing _) (by simp [Frame.length])
  · exact .still (.refl _) rfl (nothing _) (by simp [Frame.length])
  · rename_i other other'
    split
    · rename_i can
      rw [Loader.canCompile, unpatched, Bool.or_false, decide_eq_true_eq] at can
      have below : w.loader.status r < .compiling := by
        revert other other'
        cases w.loader.status r <;> simp_all [Status.lt_iff, Status.code]
      obtain ⟨raised, only⟩ := Loader.Raised.of_update (l := w.loader) (r := r) (s := .compiling)
        (f := (·.beginCompile (w.memory.newObject ∅).2)) (fun _ => rfl) (fun _ => rfl) can
        (Nat.le_of_lt below)
      have backed : .compiling ≤ (w.loader.beginCompile r (w.memory.newObject ∅).2).status r := by
        rw [Loader.beginCompile, only, if_pos rfl]
        exact Status.le_refl _
      have factory (f : Factory)
          (made : ((w.loader.beginCompile r (w.memory.newObject ∅).2).record r).factory = some f) :
          f.isLocal = true :=
        tabular.factory ((congrArg Record.factory (raised.fixed r) :).symm.trans made)
      dsimp only
      split
      · rename_i body source made
        have entered : Loader.Kept (w.loader.beginCompile r (w.memory.newObject ∅).2)
            ((w.loader.beginCompile r (w.memory.newObject ∅).2).enterFactory r) := .of_base rfl rfl
        refine .compiling r rfl can below (raised.trans entered.raised) only rfl ?_
        intro f member
        simp only [List.mem_cons, List.not_mem_nil, or_false] at member
        rcases member with rfl | rfl | rfl | rfl
        · exact ⟨rfl, factory _ made, trivial, id, fun _ => rfl⟩
        · exact ⟨rfl, rfl, trivial, id, fun _ => rfl⟩
        · exact ⟨rfl, rfl, trivial, id, fun _ => rfl⟩
        · exact ⟨rfl, rfl, backed, id, fun _ => rfl⟩
      · rename_i value made
        have exported : Loader.Kept (w.loader.beginCompile r (w.memory.newObject ∅).2)
            ((w.loader.beginCompile r (w.memory.newObject ∅).2).setExports r value) :=
          .of_update (f := fun record => { record with exports := some value }) (fun _ => rfl)
            (fun _ => rfl) _ _
        refine .compiling r rfl can below (raised.trans exported.raised) ?_ rfl ?_
        · intro x
          rw [exported.status]
          exact only x
        · intro f member
          obtain rfl := List.mem_singleton.mp member
          exact ⟨rfl, rfl, Status.le_trans backed (exported.raised.rises r), id, fun _ => rfl⟩
      · refine .compiling r rfl can below raised only rfl ?_
        intro f member
        obtain rfl := List.mem_singleton.mp member
        exact ⟨rfl, rfl, backed, id, fun _ => rfl⟩
    · exact .still (.refl _) rfl (nothing _) (by simp [Frame.length])

theorem finishCompile_move (tabular : w.loader.Tabular setup) {r : RecordId}
    (backed : .compiling ≤ w.loader.status r) :
    QuietMove setup w (.finishCompile r) (w.finishCompile r).1 (w.finishCompile r).2 := by
  obtain ⟨raised, only⟩ := Loader.Raised.of_update (l := w.loader) (r := r) (s := .compiled)
    (f := fun record => { record with status := .compiled }) (fun _ => rfl) (fun _ => rfl)
    (Status.le_trans (by decide) backed) (Status.le_compiled _)
  have keys : (w.loader.record r).patchKeys = [(w.loader.record r).locator] := by
    rw [Record.patchKeys, tabular.alone]
    rfl
  simp only [finishCompile, keys]
  refine .compiled r rfl ⟨raised.base, raised.fixed, raised.status⟩ only rfl ?_ ?_
  · intro f member
    simp only [List.map_cons, List.map_nil, List.cons_append, List.nil_append, List.mem_cons,
      List.not_mem_nil, or_false] at member
    rcases member with rfl | rfl
    · exact ⟨rfl, rfl, trivial, id, fun _ => rfl⟩
    · exact ⟨rfl, rfl, trivial, id, fun _ => rfl⟩
  · simp [Frame.length]

/-- A frame that has no part in loads does one of the kinds of such work. -/
theorem quiet_move (tabular : w.loader.Tabular setup) (unnamed : w.loader.anonymous = none)
    (offers : ∀ locator, w.fetcher.Offers setup locator) (resourced : w.Resourced) {frame : Frame}
    (isQuiet : frame.isQuiet = true) (isPlain : frame.isPlain = true) (backed : frame.Backed w.loader) :
    QuietMove setup w frame (frame.exec w).1 (frame.exec w).2 := by
  have nothing (l : Loader) : ∀ f ∈ ([] : List Frame), f.Aside frame l :=
    List.forall_mem_nil _
  cases frame with
  | script site actions => exact script_move unnamed offers resourced site actions isPlain
  | conclude site conclusion =>
    obtain ⟨loader, fetcher, -⟩ := w.conclude_same site conclusion
    exact .still (.of_eq loader) fetcher (nothing _) (by simp [Frame.exec, Frame.length])
  | compile r => exact compile_move tabular r
  | runFactory r body =>
    have bodily : Action.allHosted Action.isLocal body = true := Action.all_hosted_of isPlain
    refine .still (.refl _) rfl ?_ ?_
    · intro f member
      obtain rfl := List.mem_singleton.mp member
      refine ⟨rfl, ?_, trivial, id, fun _ => Frame.isIdle_of_local _ isPlain⟩
      simp only [Frame.isPlain] at isPlain ⊢
      rw [bodily, isPlain, Bool.or_true, Bool.and_true]
    · simp [Frame.exec, enterBody, Frame.length]
  | runPatch r patch => cases isPlain
  | replaceInterface r =>
    simp only [Frame.exec]
    cases w.answer with
    | some value =>
      exact .still (.of_update (f := fun record => { record with exports := some value })
        (fun _ => rfl) (fun _ => rfl) _ _) rfl (nothing _) (by simp [Frame.length])
    | none => exact .still (.refl _) rfl (nothing _) (by simp [Frame.length])
  | leaveFactory =>
    exact .still (.of_base rfl rfl) rfl (nothing _) (by simp [Frame.exec, Frame.length])
  | finishCompile r => exact finishCompile_move tabular backed
  | applyPatches key r =>
    have none : (w.loader.patches.get? key).getD [] = [] := by
      rw [tabular.patches]
      rfl
    have still : w.loader.patches.erase key = w.loader.patches := by
      rw [tabular.patches]
      rfl
    have same : (w.applyPatches key r) = (w, []) := by
      simp only [applyPatches, Loader.takePatches, none, still, List.flatMap_nil]
    rw [show Frame.exec w (.applyPatches key r) = _ from same]
    exact .still (.refl _) rfl (nothing _) (by simp [Frame.length])
  | answerExports r => exact .still (.refl _) rfl (nothing _) (by simp [Frame.exec, Frame.length])
  | completeRest site done =>
    simp only [Frame.exec]
    cases taken : w.takeNext? with
    | some next =>
      obtain ⟨w', token⟩ := next
      obtain ⟨queued, same⟩ := takeNext?_taken taken
      apply taken_move unnamed offers (resourced token queued) queued same
      intro l f member
      obtain rfl := List.mem_singleton.mp member
      exact ⟨rfl, rfl, trivial, id, fun _ => rfl⟩
    | none => exact .still (.refl _) rfl (nothing _) (by simp [Frame.length])
  | _ => cases isQuiet

end World

end ModuleLoader
