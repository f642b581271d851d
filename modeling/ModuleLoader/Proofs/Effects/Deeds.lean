import ModuleLoader.Proofs.Effects.Entries
import ModuleLoader.Proofs.Effects.Founded

/-! What each frame does about registrations. Most leave them alone; the others are looked into here once,
and arguments about registrations and patches go by the kinds of deed. -/
namespace ModuleLoader

open Loader (Sound Rests Becomes Renamed)

/-- What a resource holds is read from the table alone. -/
theorem Fetcher.registrations_of_files {f f' : Fetcher} (files : f'.files = f.files)
    (resource : PhysicalId) : f'.registrations resource = f.registrations resource := by
  rw [Fetcher.registrations, files, Fetcher.registrations]

/-- What the next step of a list of actions is about. -/
def Machine.acting? (m : Machine) : Option Action :=
  match m.stack with
  | .script _ (action :: _) :: _ => some action
  | _ => none

/-- The actions that have been taken, latest first. -/
def acted (past : List Machine) : List Action := past.filterMap Machine.acting?

theorem acted_subset (m : Machine) (past : List Machine) : acted past ⊆ acted (m :: past) := by
  intro action member
  rw [acted, List.filterMap_cons]
  split
  · exact member
  · exact List.mem_cons_of_mem _ member

/-- An invariant may rely on the kind of actions that are taken. -/
theorem Run.invariant_acting {host : Action → Prop} {first m : Machine} {past : List Machine}
    {kind : Action → Prop} {P : List Machine → Machine → Prop} (run : Run host first past m)
    (taken : ∀ action ∈ acted past, kind action) (initial : P [] first)
    (worked : ∀ past w frame rest, Run host first past ⟨w, frame :: rest⟩ →
      (∀ action ∈ acted past, kind action) →
      (∀ site action later, frame = .script site (action :: later) → kind action) →
      P past ⟨w, frame :: rest⟩ →
      P (⟨w, frame :: rest⟩ :: past) ⟨(frame.exec w).1, (frame.exec w).2 ++ rest⟩)
    (acts : ∀ past w action, Run host first past ⟨w, []⟩ → host action → P past ⟨w, []⟩ →
      P (⟨w, []⟩ :: past) ⟨w, [.script .outer [action]]⟩) : P past m := by
  revert taken
  refine run.invariant (P := fun past m => (∀ action ∈ acted past, kind action) → P past m) ?_ ?_ ?_
  · exact fun _ => initial
  · intro past w frame rest run before taken
    have earlier : ∀ action ∈ acted past, kind action :=
      fun action member => taken action (acted_subset _ past member)
    refine worked past w frame rest run earlier ?_ (before earlier)
    rintro site action later rfl
    exact taken action (List.mem_cons_self ..)
  · intro past w action run allowed before taken
    exact acts past w action run allowed (before taken)

/-- Actions by which the host registers modules itself. -/
def Action.registers : Action → Bool
  | .define _ | .defineDerived .. | .token _ (.define _) | .token _ (.defineDerived _) => true
  | _ => false

/-- The end of a retrieval, and a queue of patches that is taken. -/
def Frame.settles : Frame → Bool
  | .retrieved _ | .applyPatches .. => true
  | _ => false

/-- A patch that is about to be run on a record. -/
def Frame.patch? : Frame → Option (RecordId × Patch)
  | .runPatch r patch => some (r, patch)
  | _ => none

/-- Frames that neither settle anything nor run a patch. -/
def Frame.isOrdinary (f : Frame) : Bool := !f.settles && f.patch?.isNone

/-- The queued retrieval that a frame takes, to answer it at once. -/
def World.taken? (w : World) : Frame → Option (World × FetchToken)
  | .script _ (.complete resource :: _) =>
    if w.fetcher.policy = .queued then w.takeQueued? resource else none
  | .script _ (.completeNext :: _) => if w.fetcher.policy = .queued then w.takeNext? else none
  | .completeRest .. => w.takeNext?
  | _ => none

namespace Loader

/-- Nothing has changed that registrations depend on, and only modules that can be compiled have
moved on. -/
structure Stays (l l' : Loader) : Prop extends Rests l l' where
  dependencies : ∀ r, (l'.record r).dependencies = (l.record r).dependencies
  config : l'.config = l.config
  resolver : l'.resolver = l.resolver
  ledger : l'.ledger = l.ledger
  patches : l'.patches = l.patches
  anonymous : l'.anonymous = l.anonymous
  firstNamed : l'.firstNamed = l.firstNamed
  moved : ∀ r, l'.status r = l.status r ∨ l.canCompile r = true

namespace Stays

variable {l l' : Loader}

theorem refl (l : Loader) : Stays l l :=
  ⟨.refl l, fun _ => rfl, rfl, rfl, rfl, rfl, rfl, rfl, fun _ => .inl rfl⟩

theorem of_eq (same : l' = l) : Stays l l' := same ▸ .refl l

theorem canCompile_of_moved (stays : Stays l l') {r : RecordId} (can : l'.canCompile r = true) :
    l.canCompile r = true := by
  obtain same | can := stays.moved r
  · simp only [canCompile, hasPatches, Record.patchKeys, same, stays.second, stays.toRests.locator,
      stays.patches] at can
    exact can
  · exact can

theorem trans {a b c : Loader} (ab : Stays a b) (bc : Stays b c) : Stays a c := by
  refine ⟨ab.toRests.trans bc.toRests, fun r => (bc.dependencies r).trans (ab.dependencies r),
    bc.config.trans ab.config, bc.resolver.trans ab.resolver, bc.ledger.trans ab.ledger,
    bc.patches.trans ab.patches, bc.anonymous.trans ab.anonymous, bc.firstNamed.trans ab.firstNamed,
    fun r => ?_⟩
  obtain same | can := bc.moved r
  · rw [same]
    exact ab.moved r
  · exact .inr (ab.canCompile_of_moved can)

theorem of_same (registry : l'.registry = l.registry) (records : l'.records = l.records)
    (config : l'.config = l.config) (resolver : l'.resolver = l.resolver) (ledger : l'.ledger = l.ledger)
    (patches : l'.patches = l.patches) (anonymous : l'.anonymous = l.anonymous)
    (firstNamed : l'.firstNamed = l.firstNamed) : Stays l l' := by
  refine ⟨.of_same registry records, fun r => ?_, config, resolver, ledger, patches, anonymous, firstNamed,
    fun r => .inl ?_⟩
  · rw [record, record, records]
  · rw [status, status, record, record, records]

/-- A record is changed, and its names stay. -/
theorem of_update (l : Loader) {r : RecordId} {f : Record → Record}
    (locator : (f (l.record r)).locator = (l.record r).locator)
    (second : (f (l.record r)).secondLocator = (l.record r).secondLocator)
    (dependencies : (f (l.record r)).dependencies = (l.record r).dependencies)
    (moved : (f (l.record r)).status = (l.record r).status ∨ l.canCompile r = true ∧
      (l.record r).status ≤ (f (l.record r)).status ∧ (f (l.record r)).status ≠ .fetching) :
    Stays l (l.updateRecord r f) := by
  refine ⟨.of_update l locator second ?_ ?_, fun x => ?_, rfl, rfl, rfl, rfl, rfl, rfl, fun x => ?_⟩
  · obtain same | ⟨-, rises, -⟩ := moved
    · exact same ▸ Status.le_refl _
    · exact rises
  · obtain same | ⟨-, -, settled⟩ := moved
    · exact fun now => same ▸ now
    · exact fun now => absurd now settled
  · obtain same | ⟨rfl, same⟩ := l.updateRecord_cases r f x <;> rw [same]
    exact dependencies
  · rw [status, status]
    obtain same | ⟨rfl, same⟩ := l.updateRecord_cases r f x <;> rw [same]
    · exact .inl rfl
    · exact moved.imp id And.left

theorem setStatus (l : Loader) {r : RecordId} {s : Status} (can : l.canCompile r = true)
    (rises : l.status r ≤ s) (settled : s ≠ .fetching) : Stays l (l.setStatus r s) :=
  .trans (b := l.updateRecord r fun record => { record with status := s })
    (of_update l rfl rfl rfl (.inr ⟨can, rises, settled⟩)) (of_same rfl rfl rfl rfl rfl rfl rfl rfl)

end Stays

theorem canCompile_of_saved {l : Loader} {r : RecordId} (saved : .saved ≤ l.status r) :
    l.canCompile r = true := by
  rw [canCompile, decide_eq_true saved, Bool.true_or]

theorem emit_stays (l : Loader) (d : Diagnostic) : Stays l (l.emit d) := by
  unfold emit
  split
  dsimp only
  split <;> exact .of_same rfl rfl rfl rfl rfl rfl rfl rfl

theorem reportAll_stays (l : Loader) (cs : List Condition) : Stays l (l.reportAll cs) :=
  reportAll_induction .refl .trans emit_stays l cs

theorem settledEntry_stays (l : Loader) (locator : Locator) : Stays l (l.settledEntry locator).1 := by
  unfold settledEntry
  split
  · exact .refl l
  · split
    · exact .refl l
    · exact l.reportAll_stays _

theorem arrive_stays {l : Loader} {loaded : Option RecordId}
    (saved : ∀ r, loaded = some r → .saved ≤ l.status r) (b : BarrierId) :
    Stays l (l.arrive b loaded).1 := by
  have counted (l : Loader) : Stays l (l.countDown b).1 := by
    unfold countDown
    dsimp only
    split <;> exact .of_same rfl rfl rfl rfl rfl rfl rfl rfl
  cases loaded with
  | none => exact counted l
  | some r =>
    refine .trans ?_ (counted (l.markReady r))
    unfold markReady
    split
    · rename_i below
      exact .setStatus l (canCompile_of_saved (saved r rfl)) (Nat.le_of_lt below) (by decide)
    · exact .refl l

end Loader

open Loader (Stays)

/-- What a frame does about registrations and patches. -/
inductive Deed (w : World) : Frame → World → List Frame → Prop where
  | aside {frame : Frame} {w' : World} {frames : List Frame} (outside : frame.settles = false)
      (stays : Stays w.loader w'.loader) (files : w'.fetcher.files = w.fetcher.files)
      (ordinary : ∀ f ∈ frames, f.isOrdinary = true) : Deed w frame w' frames
  /-- A patch is queued for a module that is not compiled. -/
  | queued (site : Site) (rest : Script) (id : String) (body : Script) (patch : Patch) {w' : World}
      {frames : List Frame}
      (waits : ∀ r, w.loader.entry? patch.target = some r → w.loader.status r ≠ .compiled)
      (loader : w'.loader = w.loader.queuePatch patch) (fetcher : w'.fetcher = w.fetcher)
      (ordinary : ∀ f ∈ frames, f.isOrdinary = true) :
      Deed w (.script site (.modify id body :: rest)) w' frames
  /-- A compiled module is patched at once. -/
  | patched (site : Site) (rest : Script) (id : String) (body : Script) (patch : Patch) (r : RecordId)
      {w' : World} {frames : List Frame} (held : w.loader.entry? patch.target = some r)
      (compiled : w.loader.status r = .compiled) (loader : w'.loader = w.loader)
      (fetcher : w'.fetcher = w.fetcher) (ordinary : ∀ f ∈ frames, f.isOrdinary = true) :
      Deed w (.script site (.modify id body :: rest)) w' (.runPatch r patch :: frames)
  | removed (site : Site) (rest : Script) (key : String) {w' : World} {frames : List Frame}
      (loader : w'.loader = w.loader.remove ⟨key⟩) (fetcher : w'.fetcher = w.fetcher)
      (ordinary : ∀ f ∈ frames, f.isOrdinary = true) :
      Deed w (.script site (.remove key :: rest)) w' frames
  /-- The host registers a module itself. -/
  | registered (site : Site) (action : Action) (rest : Script) (registration : Registration) {w' : World}
      {frames : List Frame} (registers : action.registers = true)
      (loader : w'.loader = w.loader.define registration ∨
        ∃ derived, w'.loader = w.loader.defineDerived registration derived)
      (fetcher : w'.fetcher = w.fetcher) (ordinary : ∀ f ∈ frames, f.isOrdinary = true) :
      Deed w (.script site (action :: rest)) w' frames
  | filed (site : Site) (rest : Script) (resource : PhysicalId) (draft : Draft) {w' : World}
      {frames : List Frame} (loader : w'.loader = w.loader)
      (ordinary : ∀ f ∈ frames, f.isOrdinary = true) :
      Deed w (.script site (.addFile resource draft :: rest)) w' frames
  /-- The host says that a retrieval in its hands is complete. -/
  | handed (site : Site) (rest : Script) (index : Nat) (token : FetchToken) {w' : World}
      {frames : List Frame} (held : w.token? index = some token) (loader : w'.loader = w.loader)
      (files : w'.fetcher.files = w.fetcher.files) (ordinary : ∀ f ∈ frames, f.isOrdinary = true) :
      Deed w (.script site (.token index .complete :: rest)) w' (.retrieved token :: frames)
  /-- A queued retrieval is answered. -/
  | answered {frame : Frame} (token : FetchToken) {taken : World} {frames : List Frame}
      (takes : w.taken? frame = some (taken, token)) (loader : taken.loader = w.loader)
      (files : taken.fetcher.files = w.fetcher.files) (ordinary : ∀ f ∈ frames, f.isOrdinary = true) :
      Deed w frame (taken.evaluate token.resource) (.retrieved token :: frames)
  | entered (locator : Locator) (rest : List Locator) (b : BarrierId) :
      Deed w (.entries (locator :: rest) b) (w.enter locator b).1
        ((w.enter locator b).2 ++ [.entries rest b])
  | finished (token : FetchToken) : Deed w (.retrieved token) (w.finishFetch token).1
      (w.finishFetch token).2
  | ended (r : RecordId) : Deed w (.finishCompile r) (w.finishCompile r).1 (w.finishCompile r).2
  | applied (key : Locator) (r : RecordId) :
      Deed w (.applyPatches key r) (w.applyPatches key r).1 (w.applyPatches key r).2

namespace Frame

theorem ordinary_nil : ∀ f ∈ ([] : List Frame), f.isOrdinary = true := List.forall_mem_nil _

theorem ordinary_one {f : Frame} (ordinary : f.isOrdinary = true) :
    ∀ g ∈ [f], g.isOrdinary = true :=
  List.forall_mem_singleton.mpr ordinary

theorem ordinary_append {frames : List Frame} {last : Frame} (outside : last.isOrdinary = true)
    (ordinary : ∀ f ∈ frames, f.isOrdinary = true) :
    ∀ f ∈ frames ++ [last], f.isOrdinary = true :=
  List.forall_mem_append.mpr ⟨ordinary, ordinary_one outside⟩

end Frame

open ModuleLoader.Frame (ordinary_nil ordinary_one ordinary_append)

/-- What is put under the frames of a list of actions is the rest of the list, or what it is to log. -/
theorem Deed.extend {w w' : World} {site : Site} {actions : Script} {frames : List Frame}
    {last : Frame} (deed : Deed w (.script site actions) w' frames) (outside : last.isOrdinary = true) :
    Deed w (.script site actions) w' (frames ++ [last]) := by
  cases deed with
  | aside settles stays files ordinary =>
    exact .aside settles stays files (ordinary_append outside ordinary)
  | queued _ rest id body patch waits loader fetcher ordinary =>
    exact .queued _ rest id body patch waits loader fetcher (ordinary_append outside ordinary)
  | patched _ rest id body patch r held compiled loader fetcher ordinary =>
    exact .patched _ rest id body patch r held compiled loader fetcher (ordinary_append outside ordinary)
  | removed _ rest key loader fetcher ordinary =>
    exact .removed _ rest key loader fetcher (ordinary_append outside ordinary)
  | registered _ action rest registration registers loader fetcher ordinary =>
    exact .registered _ action rest registration registers loader fetcher
      (ordinary_append outside ordinary)
  | filed _ rest resource draft loader ordinary =>
    exact .filed _ rest resource draft loader (ordinary_append outside ordinary)
  | handed _ rest index token held loader files ordinary =>
    exact .handed _ rest index token held loader files (ordinary_append outside ordinary)
  | answered token takes loader files ordinary =>
    exact .answered token takes loader files (ordinary_append outside ordinary)

namespace World

variable {w : World}

theorem getDependency_deed (w : World) (site : Site) (actions : Script) (c : Context) (id : String) :
    Deed w (.script site actions) (w.getDependency c id).1 (w.getDependency c id).2 := by
  unfold getDependency
  dsimp only
  split
  · exact .aside rfl (.refl _) rfl ordinary_nil
  · split
    · exact .aside rfl (.refl _) rfl ordinary_nil
    · split
      · exact .aside rfl (.refl _) rfl ordinary_nil
      · exact .aside rfl (.refl _) rfl ordinary_nil
      · exact .aside rfl (.of_update _ rfl rfl rfl (.inl rfl)) rfl (ordinary_one rfl)

theorem modify_deed (w : World) (site : Site) (rest : Script) (id : String) (body : Script) :
    Deed w (.script site (.modify id body :: rest)) (w.modify id body).1 (w.modify id body).2 := by
  unfold modify
  split
  · exact .aside rfl (Loader.emit_stays _ _) rfl ordinary_nil
  · rename_i target _
    dsimp only
    split
    · rename_i r held
      split
      · rename_i compiled
        exact .patched site rest id body ⟨w.issued, target, body⟩ r held compiled rfl rfl
          (ordinary_one rfl)
      · rename_i other
        refine .queued site rest id body ⟨w.issued, target, body⟩ (fun x there => ?_) rfl rfl ordinary_nil
        cases held.symm.trans there
        exact other
    · rename_i absent
      refine .queued site rest id body ⟨w.issued, target, body⟩ (fun x there => ?_) rfl rfl ordinary_nil
      cases absent.symm.trans there

theorem actOnToken_deed (w : World) (site : Site) (rest : Script) (index : Nat) (action : TokenAction) :
    Deed w (.script site (.token index action :: rest)) (w.actOnToken site index action).1
      (w.actOnToken site index action).2 := by
  unfold actOnToken
  split
  · exact .aside rfl (.refl _) rfl ordinary_nil
  · rename_i token held
    cases action with
    | look => exact .aside rfl (.refl _) rfl ordinary_nil
    | define draft =>
      exact .registered site _ rest _ rfl (.inl rfl) rfl ordinary_nil
    | defineDerived draft =>
      exact .registered site _ rest _ rfl (.inr ⟨some token.locator, rfl⟩) rfl ordinary_nil
    | complete => exact .handed site rest index token held rfl rfl (ordinary_one rfl)
    | abandon => exact .aside rfl (Loader.emit_stays _ _) rfl ordinary_nil

theorem completeTaken_deed {site : Site} {actions : Script} (action : String)
    {taken : Option (World × FetchToken)}
    (same : (if w.fetcher.policy = .queued then taken else none) = w.taken? (.script site actions))
    (spec : ∀ w' token, taken = some (w', token) →
      w'.loader = w.loader ∧ w'.fetcher.files = w.fetcher.files) :
    Deed w (.script site actions) (w.completeTaken site action taken).1
      (w.completeTaken site action taken).2 := by
  unfold completeTaken
  split
  · exact .aside rfl (.refl _) rfl (ordinary_one rfl)
  · rename_i queued
    rw [if_pos (not_not.mp queued)] at same
    split
    · rename_i w' token
      obtain ⟨loader, files⟩ := spec w' token rfl
      exact .answered token same.symm loader files (ordinary_one rfl)
    · exact .aside rfl (.refl _) rfl (ordinary_one rfl)

theorem takeQueued?_files {resource : PhysicalId} {w' : World} {token : FetchToken}
    (taken : w.takeQueued? resource = some (w', token)) :
    w'.loader = w.loader ∧ w'.fetcher.files = w.fetcher.files := by
  unfold takeQueued? at taken
  split at taken
  · cases taken
    exact ⟨rfl, rfl⟩
  · cases taken

theorem takeNext?_files {w' : World} {token : FetchToken} (taken : w.takeNext? = some (w', token)) :
    w'.loader = w.loader ∧ w'.fetcher.files = w.fetcher.files := by
  unfold takeNext? at taken
  split at taken
  · cases taken
    exact ⟨rfl, rfl⟩
  · cases taken

theorem act_deed (w : World) (site : Site) (action : Action) (rest : Script) :
    Deed w (.script site (action :: rest)) (w.act site action).1 (w.act site action).2 := by
  have still {w' : World} {frames : List Frame} (loader : w'.loader = w.loader)
      (fetcher : w'.fetcher = w.fetcher) (ordinary : ∀ f ∈ frames, f.isOrdinary = true) :
      Deed w (.script site (action :: rest)) w' frames :=
    .aside rfl (.of_eq loader) (congrArg Fetcher.files fetcher) ordinary
  cases action with
  | value a =>
    obtain ⟨loader, fetcher, -, -⟩ := w.actOnValues_same site a
    simp only [act]
    generalize w.actOnValues site a = made at *
    obtain ⟨w', reply⟩ := made
    cases reply <;> exact still loader fetcher ordinary_nil
  | query | describe | unknown | giveBack => exact still rfl rfl ordinary_nil
  | get id into key =>
    simp only [act]
    split
    · exact still rfl rfl ordinary_nil
    · exact (w.getDependency_deed site _ _ id).extend rfl
  | giveBackDependency id =>
    simp only [act]
    split
    · exact still rfl rfl ordinary_nil
    · exact w.getDependency_deed site _ _ id
  | loadAsync ids tag body =>
    simp only [act]
    split
    · exact still rfl rfl ordinary_nil
    · exact still rfl rfl (ordinary_append rfl (ordinary_one rfl))
  | useModules | load => exact still rfl rfl (ordinary_append rfl (ordinary_one rfl))
  | compile ref into =>
    simp only [act]
    split
    · exact still rfl rfl ordinary_nil
    · exact still rfl rfl (ordinary_append rfl (ordinary_one (f := .compile _) rfl))
  | define draft => exact .registered site _ rest _ rfl (.inl rfl) rfl ordinary_nil
  | defineDerived draft derived =>
    exact .registered site _ rest _ rfl (.inr ⟨derived, rfl⟩) rfl ordinary_nil
  | modify id body => exact (w.modify_deed site rest id body).extend rfl
  | preload | clearDiagnostics =>
    exact .aside rfl (.of_same rfl rfl rfl rfl rfl rfl rfl rfl) rfl ordinary_nil
  | remove key => exact .removed site rest key rfl rfl ordinary_nil
  | keep ref into =>
    simp only [act]
    split <;> exact still rfl rfl ordinary_nil
  | setExports ref value =>
    simp only [act]
    split
    · exact still rfl rfl ordinary_nil
    · exact .aside rfl (.of_update _ rfl rfl rfl (.inl rfl)) rfl ordinary_nil
  | addFile resource draft => exact .filed site rest resource draft rfl ordinary_nil
  | complete resource => exact completeTaken_deed _ rfl fun _ _ taken => takeQueued?_files taken
  | completeNext => exact completeTaken_deed _ rfl fun _ _ taken => takeNext?_files taken
  | completeAll =>
    simp only [act]
    split
    · exact still rfl rfl (ordinary_one rfl)
    · exact still rfl rfl ordinary_nil
  | token index a => exact w.actOnToken_deed site rest index a
  | report => exact .aside rfl (Loader.emit_stays _ _) rfl ordinary_nil

theorem runScript_deed (w : World) (site : Site) (actions : Script) :
    Deed w (.script site actions) (w.runScript site actions).1 (w.runScript site actions).2 := by
  cases actions with
  | nil => exact .aside rfl (.refl _) rfl ordinary_nil
  | cons action rest =>
    have deed := w.act_deed site action rest
    simp only [runScript]
    split
    · exact deed
    · exact deed.extend rfl

theorem arrive_ordinary (w : World) (b : BarrierId) (loaded : Option RecordId) :
    ∀ f ∈ (w.arrive b loaded).2, f.isOrdinary = true := by
  intro f member
  simp only [arrive, Option.mem_toList, Option.map_eq_some_iff] at member
  obtain ⟨next, -, rfl⟩ := member
  rfl

theorem settle_deed (w : World) (locator : Locator) (b : BarrierId) :
    Deed w (.settled locator b) (w.settle locator b).1 (w.settle locator b).2 := by
  have read := w.loader.settledEntry_stays locator
  have saved := w.loader.settledEntry_saved locator
  unfold settle
  generalize w.loader.settledEntry locator = entry at *
  obtain ⟨l, entry⟩ := entry
  dsimp only at *
  have arrived (loaded : Option RecordId) (saved : ∀ r, loaded = some r → .saved ≤ w.loader.status r) :
      Deed w (.settled locator b) (arrive { w with loader := l } b loaded).1
        (arrive { w with loader := l } b loaded).2 :=
    .aside rfl (read.trans (Loader.arrive_stays
      (fun r here => Status.le_trans (saved r here) (read.rises r)) b)) rfl (arrive_ordinary _ b loaded)
  cases entry with
  | missing => exact arrived none fun r here => by cases here
  | ready r => exact arrived (some r) fun x here => saved x (.inl (congrArg _ (Option.some.inj here)))
  | waits r dependencies => exact .aside rfl read rfl (ordinary_one rfl)

theorem compile_deed (w : World) (r : RecordId) :
    Deed w (.compile r) (w.compile r).1 (w.compile r).2 := by
  unfold compile
  split
  · exact .aside rfl (.refl _) rfl ordinary_nil
  · exact .aside rfl (.refl _) rfl ordinary_nil
  · rename_i below below'
    split
    · rename_i can
      have rising : w.loader.status r ≤ .compiling := by
        revert below below'
        cases w.loader.status r <;> simp_all [Status.le_iff, Status.code]
      have begun (interface : Value) : Stays w.loader (w.loader.beginCompile r interface) :=
        .of_update _ rfl rfl rfl (.inr ⟨can, rising, Status.noConfusion⟩)
      dsimp only
      split
      · refine .aside rfl ((begun _).trans (.of_same rfl rfl rfl rfl rfl rfl rfl rfl)) rfl ?_
        simp [Frame.isOrdinary, Frame.settles, Frame.patch?]
      · exact .aside rfl ((begun _).trans (.of_update _ rfl rfl rfl (.inl rfl))) rfl
          (ordinary_one rfl)
      · exact .aside rfl (begun _) rfl (ordinary_one rfl)
    · exact .aside rfl (.refl _) rfl ordinary_nil

end World

/-- Whatever the next frame is, its work is one of these deeds. -/
theorem Frame.deed {w : World} {frame : Frame} (bears : w.loader.Bears frame.relies) :
    Deed w frame (frame.exec w).1 (frame.exec w).2 := by
  have still {f : Frame} (outside : frame.settles = false) (plain : f.isOrdinary = true) :
      Deed w frame w [f] := .aside outside (.refl _) rfl (ordinary_one plain)
  cases frame with
  | script site actions => exact w.runScript_deed site actions
  | conclude site conclusion =>
    obtain ⟨loader, fetcher, -, -⟩ := w.conclude_same site conclusion
    exact .aside rfl (.of_eq loader) (congrArg Fetcher.files fetcher) ordinary_nil
  | load locators onDone =>
    simp only [exec, World.load]
    split
    · exact still rfl rfl
    · exact .aside rfl (.of_same rfl rfl rfl rfl rfl rfl rfl rfl) rfl (ordinary_one rfl)
  | entries locators b =>
    cases locators with
    | nil => exact .aside rfl (.refl _) rfl ordinary_nil
    | cons locator rest => exact .entered locator rest b
  | settled locator b => exact w.settle_deed locator b
  | resume continuation =>
    cases continuation with
    | arrive b r =>
      have loaded : ∀ x, some r = some x → .saved ≤ w.loader.status x := by
        rintro x ⟨⟩
        exact bears (r, .saved) (List.mem_singleton_self _)
      exact .aside rfl (Loader.arrive_stays loaded b) rfl (w.arrive_ordinary b (some r))
    | request | preload | gather => exact still rfl rfl
    | call callback =>
      obtain ⟨loader, fetcher, -, -⟩ := World.bindArguments_same
        (w.write callback.place "callback" (some (.many (([] : List (Option Value)).map w.displayOption)))) []
      exact .aside rfl (.of_eq loader) (congrArg Fetcher.files fetcher) (ordinary_one rfl)
  | request | collect => exact still rfl rfl
  | preload next =>
    simp only [exec, World.preload]
    split
    · exact still rfl rfl
    · exact .aside rfl (.of_same rfl rfl rfl rfl rfl rfl rfl rfl) rfl (ordinary_one rfl)
  | gather locators interfaces receiver =>
    cases locators with
    | nil => exact still rfl rfl
    | cons locator rest =>
      simp only [exec, World.gather]
      split
      · exact .aside rfl (.refl _) rfl
          (ordinary_append rfl (ordinary_one (f := .compile _) rfl))
      · exact still rfl rfl
  | deliver receiver interfaces =>
    cases receiver with
    | host callback =>
      obtain ⟨loader, fetcher, -, -⟩ := World.bindArguments_same
        (w.write callback.place "callback" (some (.many (interfaces.map w.displayOption)))) interfaces
      exact .aside rfl (.of_eq loader) (congrArg Fetcher.files fetcher) (ordinary_one rfl)
    | discard next => exact still rfl rfl
  | retrieved token => exact .finished token
  | compile r => exact w.compile_deed r
  | runFactory r body | runPatch r patch =>
    exact .aside rfl (.refl _) rfl (ordinary_one rfl)
  | replaceInterface r =>
    simp only [exec]
    split
    · exact .aside rfl (.of_update _ rfl rfl rfl (.inl rfl)) rfl ordinary_nil
    · exact .aside rfl (.refl _) rfl ordinary_nil
  | leaveFactory => exact .aside rfl (.of_same rfl rfl rfl rfl rfl rfl rfl rfl) rfl ordinary_nil
  | finishCompile r => exact .ended r
  | applyPatches key r => exact .applied key r
  | answerExports r => exact .aside rfl (.refl _) rfl ordinary_nil
  | completeRest site done =>
    simp only [exec]
    split
    · rename_i w' token taken
      obtain ⟨loader, files⟩ := World.takeNext?_files taken
      exact .answered token taken loader files (ordinary_one rfl)
    · exact .aside rfl (.refl _) rfl ordinary_nil

/-- Removing shows in the past, unless there is nothing to remove. -/
theorem World.removed_or_same (w : World) (site : Site) (key : String) (rest : Script) :
    (Frame.script site (.remove key :: rest)).occurrence w = .removed ⟨key⟩ ∨
      (w.loader.remove ⟨key⟩).registry = w.loader.registry := by
  by_cases there : w.loader.registry.contains ⟨key⟩ = true
  · exact .inl (if_pos there)
  · have absent : w.loader.entry? ⟨key⟩ = none :=
      Option.isNone_iff_eq_none.mp (Option.isSome_eq_false_iff.mp (Bool.not_eq_true _ ▸ there))
    exact .inr (Loader.remove_of_absent absent)

/-- A locator is removed, or the registry changes in the ways of loading and registering. -/
theorem Deed.renamed_or_removed {w w' : World} {frame : Frame} {frames : List Frame}
    (deed : Deed w frame w' frames) (sound : Sound w.loader) :
    Renamed w.loader w'.loader ∨
      ∃ locator, frame.occurrence w = .removed locator ∧ w'.loader = w.loader.remove locator := by
  have same (loader : w'.loader = w.loader) : Renamed w.loader w'.loader := .of_eq loader
  cases deed with
  | aside outside stays => exact .inl (.of_rests stays.toRests stays.firstNamed)
  | queued site rest id body patch waits loader =>
    rw [loader]
    exact .inl (.of_rests (.of_same rfl rfl) rfl)
  | patched site rest id body patch r held compiled loader => exact .inl (same loader)
  | removed site rest key loader =>
    obtain removed | unchanged := w.removed_or_same site key rest
    · exact .inr ⟨⟨key⟩, removed, loader⟩
    · rw [loader]
      exact .inl (.of_rests (.of_same unchanged rfl) rfl)
  | registered site action rest registration registers loader =>
    exact .inl (Loader.registered_becomes sound loader).renamed
  | filed site rest resource draft loader => exact .inl (same loader)
  | handed site rest index token held loader => exact .inl (same loader)
  | answered token takes loader =>
    have evaluated := (World.evaluate_becomes (loader ▸ sound) token.resource).renamed
    rw [loader] at evaluated
    exact .inl evaluated
  | entered locator rest b => exact .inl (World.enter_becomes sound locator b).renamed
  | finished token => exact .inl (Loader.finishFetch_becomes sound token).renamed
  | ended r => exact .inl (.of_rests (Loader.setStatus_rests _ (Status.le_compiled _) (by decide)) rfl)
  | applied key r => exact .inl (.of_rests (.of_same rfl rfl) rfl)

theorem Deed.renamed {w w' : World} {frame : Frame} {frames : List Frame} (deed : Deed w frame w' frames)
    (sound : Sound w.loader) (kept : ∀ locator, frame.occurrence w ≠ .removed locator) :
    Renamed w.loader w'.loader :=
  (deed.renamed_or_removed sound).resolve_right fun ⟨locator, gone, _⟩ => kept locator gone

theorem Deed.solitary {w w' : World} {frame : Frame} {frames : List Frame} (deed : Deed w frame w' frames)
    (sound : Sound w.loader) (solitary : w.loader.Solitary) : w'.loader.Solitary := by
  obtain renamed | ⟨locator, -, loader⟩ := deed.renamed_or_removed sound
  · exact renamed.solitary sound solitary
  · rw [loader]
    intro k r held fetching
    rw [Loader.entry_remove] at held
    split at held
    · cases held
    · exact solitary k r held fetching

section

variable {host : Action → Prop} {setup : Setup} {past : List Machine} {m : Machine}

theorem Run.deed {w : World} {frame : Frame} {rest : List Frame}
    (run : Run host (.fresh setup) past ⟨w, frame :: rest⟩) :
    Deed w frame (frame.exec w).1 (frame.exec w).2 :=
  Frame.deed ((founded_always run).stack frame (List.mem_cons_self ..))

theorem Run.turn {w : World} {frame : Frame} {rest : List Frame}
    (run : Run host (.fresh setup) past ⟨w, frame :: rest⟩) :
    Turn w frame (frame.exec w).1 (frame.exec w).2 :=
  Loader.Bears.turn run.sound ((founded_always run).stack frame (List.mem_cons_self ..))

/-- A record that is being retrieved never has another name than its own. -/
theorem solitary_always (run : Run host (.fresh setup) past m) : m.world.loader.Solitary := by
  refine run.invariant (P := fun _ m => m.world.loader.Solitary) ?_ ?_ ?_
  · rw [Machine.fresh, World.start_bare]
    intro locator r held
    cases held
  · intro past w frame rest run solitary
    exact run.deed.solitary run.sound solitary
  · intro past w action _ _ solitary
    exact solitary

end

end ModuleLoader
