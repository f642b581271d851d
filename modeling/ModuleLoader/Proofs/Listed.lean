import ModuleLoader.Proofs.Callbacks
import ModuleLoader.Proofs.Retrieval

/-! Sessions over a table of resources. Every resource holds at most one module, without a name and
with its dependencies listed, and bodies leave loading alone. -/
namespace ModuleLoader

/-- Actions that load nothing and register nothing. -/
def Action.isLocal : Action → Bool
  | .value _ | .query _ | .get .. | .giveBack _ | .giveBackDependency _ => true
  | _ => false

/-- Actions that complete retrievals and do nothing else. -/
def Action.completes : Action → Bool
  | .complete _ | .completeNext | .completeAll => true
  | _ => false

/-- What the host does besides: it requests modules and completes queued retrievals. -/
def Action.isPlain : Action → Bool
  | .useModules _ _ body => body.all Action.isLocal
  | .complete _ | .completeNext | .completeAll => true
  | action => action.isLocal

mutual

/-- What the host does when its callbacks may request modules too, beside actions of a kind that are
allowed anywhere. -/
def Action.isHosted (allowed : Action → Bool) : Action → Bool
  | .useModules _ _ body => Action.allHosted allowed body
  | .complete _ | .completeNext | .completeAll => true
  | action => allowed action

def Action.allHosted (allowed : Action → Bool) : List Action → Bool
  | [] => true
  | action :: rest => action.isHosted allowed && Action.allHosted allowed rest

end

namespace Action

variable {allowed : Action → Bool}

theorem all_hosted_of {body : List Action} (locals : body.all isLocal = true) :
    allHosted isLocal body = true := by
  induction body with
  | nil => rfl
  | cons action rest ih =>
    rw [List.all_cons, Bool.and_eq_true] at locals
    rw [allHosted, ih locals.2, Bool.and_true]
    cases action <;> first | exact locals.1 | cases locals.1

theorem hosted_of_plain {action : Action} (plain : action.isPlain = true) :
    action.isHosted isLocal = true := by
  cases action <;> first | exact all_hosted_of plain | exact plain

mutual

/-- What is allowed may be more. -/
theorem isHosted.mono {wider : Action → Bool}
    (wide : ∀ action, allowed action = true → wider action = true) :
    ∀ {action : Action}, action.isHosted allowed = true → action.isHosted wider = true
  | .useModules _ _ _, hosted => allHosted.mono wide hosted
  | .complete _, _ | .completeNext, _ | .completeAll, _ => rfl
  | .value _, hosted | .query _, hosted | .get .., hosted | .loadAsync .., hosted | .giveBack _, hosted
  | .giveBackDependency _, hosted | .load .., hosted | .compile .., hosted | .define _, hosted
  | .defineDerived .., hosted | .describe _, hosted | .modify .., hosted | .preload _, hosted
  | .remove _, hosted | .keep .., hosted | .setExports .., hosted | .addFile .., hosted | .token .., hosted
  | .report .., hosted | .clearDiagnostics, hosted | .unknown _, hosted => wide _ hosted

theorem allHosted.mono {wider : Action → Bool}
    (wide : ∀ action, allowed action = true → wider action = true) :
    ∀ {body : List Action}, allHosted allowed body = true → allHosted wider body = true
  | [], _ => rfl
  | action :: rest, hosted => by
    rw [allHosted, Bool.and_eq_true] at hosted ⊢
    exact ⟨isHosted.mono wide hosted.1, allHosted.mono wide hosted.2⟩

end

end Action

def Factory.isLocal : Factory → Bool
  | .function body _ => body.all Action.isLocal
  | .value _ => true

namespace Draft

def isListed : Draft → Bool
  | .mk none (some _) (.function body _) => body.all Action.isLocal
  | .mk none (some _) (.value _) => true
  | _ => false

def listed : Draft → List String
  | .mk _ dependencies _ => dependencies.getD []

end Draft

namespace Setup

structure Listed (setup : Setup) : Prop where
  drafts : ∀ file ∈ setup.files, file.2.isListed = true
  single : (setup.files.map Prod.fst).Nodup
  identity : ∀ locator, setup.resolver.physicalId locator = .ofLocator locator
  preloads : setup.config.preloads = []

variable (setup : Setup)

/-- The module that the table holds for a locator. -/
def draft? (locator : Locator) : Option Draft :=
  (setup.files.find? fun file => file.1 = .ofLocator locator).map Prod.snd

def dependenciesOf (locator : Locator) (draft : Draft) : List Locator :=
  draft.listed.filterMap fun id =>
    if (Text.trim id).isEmpty then none else setup.resolver.resolve (Text.trim id) (some locator)

/-- The dependencies that the table gives for a locator. -/
def dependencies (locator : Locator) : List Locator :=
  ((setup.draft? locator).map (setup.dependenciesOf locator)).getD []

/-- The locators that the page means by identifiers. -/
def wanted (ids : List String) : List Locator :=
  ids.filterMap (setup.resolver.resolve · (some setup.config.root))

/-- The locators that come in along the dependency lists. -/
inductive Reachable (wanted : List Locator) : Locator → Prop where
  | wanted {locator : Locator} (member : locator ∈ wanted) : Reachable wanted locator
  | dependency {locator d : Locator} (reachable : Reachable wanted locator)
      (member : d ∈ setup.dependencies locator) : Reachable wanted d

/-- A locator stands for a module that is ready at least, or it was retrieved and the table holds
nothing for it. -/
def Done (l : Loader) (locator : Locator) : Prop :=
  ∃ r, l.entry? locator = some r ∧
    (.ready ≤ l.status r ∨ (l.status r = .fetched ∧ setup.draft? locator = none))

/-- What need not be loaded is done. -/
theorem done_of_ready {l : Loader} {locator : Locator} (ready : l.needsLoading locator = false) :
    setup.Done l locator := by
  unfold Loader.needsLoading at ready
  split at ready
  · rename_i r held
    exact ⟨r, held, .inl (Nat.not_lt.mp (of_decide_eq_false ready))⟩
  · cases ready

end Setup

/-! Work in such sessions. -/

namespace Receiver

def isPlain : Receiver → Bool
  | .host callback => Action.allHosted Action.isLocal callback.body
  | .discard _ => false

end Receiver

namespace Continuation

def isPlain : Continuation → Bool
  | .arrive .. => true
  | .request _ receiver | .preload _ receiver | .gather _ receiver => receiver.isPlain
  | .call _ => false

end Continuation

namespace Frame

/-- Frames that have no part in loads. -/
def isQuiet : Frame → Bool
  | .script .. | .conclude .. | .compile _ | .runFactory .. | .runPatch .. | .replaceInterface _
  | .leaveFactory | .finishCompile _ | .applyPatches .. | .answerExports _ | .completeRest .. => true
  | _ => false

def isPlain : Frame → Bool
  | .script site actions =>
    Action.allHosted Action.isLocal actions && (site.context.isNone || actions.all Action.isLocal)
  | .load _ next | .resume next | .preload next => next.isPlain
  | .request referrer _ receiver => referrer.isNone && receiver.isPlain
  | .gather _ _ receiver | .collect _ _ receiver | .deliver receiver _ => receiver.isPlain
  | .runFactory _ body => body.all Action.isLocal
  | .runPatch .. => false
  | _ => true

end Frame

/-! The files of a session as its fetcher has them. -/

/-- What defines the module that the table holds for a locator, as it was read at the start. -/
def Setup.factory? (setup : Setup) (locator : Locator) : Option Factory :=
  ((World.start setup).fetcher.registrations (.ofLocator locator)).head?.map Registration.factory

/-- The table holds a module with this factory, whose body leaves loading alone. -/
def Setup.Defines (setup : Setup) (locator : Locator) (factory : Factory) : Prop :=
  setup.factory? locator = some factory ∧ factory.isLocal = true

/-- What the fetcher holds for a locator is what the table says. -/
def Fetcher.Offers (f : Fetcher) (setup : Setup) (locator : Locator) : Prop :=
  match setup.draft? locator with
  | none => f.registrations (.ofLocator locator) = []
  | some draft => ∃ factory : Factory, setup.Defines locator factory ∧
      f.registrations (.ofLocator locator) = [⟨none, some draft.listed, factory⟩]

theorem Fetcher.Offers.of_files {f f' : Fetcher} (files : f'.files = f.files) {setup : Setup}
    {locator : Locator} (offers : f.Offers setup locator) : f'.Offers setup locator := by
  have same : f'.registrations (.ofLocator locator) = f.registrations (.ofLocator locator) := by
    rw [registrations, registrations, files]
  unfold Offers at *
  rw [same]
  exact offers

/-- A listed draft is read as a registration without a name. -/
theorem World.evalDraft_listed (w : World) (site : Site) {draft : Draft}
    (listed : draft.isListed = true) :
    ∃ factory : Factory, factory.isLocal = true ∧
      (w.evalDraft site draft).2 = ⟨none, some draft.listed, factory⟩ := by
  obtain ⟨id, dependencies, factory⟩ := draft
  cases id with
  | some id => cases listed
  | none =>
    cases dependencies with
    | none => cases listed
    | some dependencies =>
      cases factory with
      | function body source => exact ⟨.function body source, listed, rfl⟩
      | value e => exact ⟨.value _, rfl, rfl⟩

/-- Files as they are read. -/
def ReadAs (file : PhysicalId × Draft) (entry : PhysicalId × Registration) : Prop :=
  entry.1 = file.1 ∧ ∃ factory : Factory, factory.isLocal = true ∧
    entry.2 = ⟨none, some file.2.listed, factory⟩

/-- Where files are read one by one, a resource has at most the registration of its own file. -/
theorem Fetcher.registrations_read {R : PhysicalId × Draft → PhysicalId × Registration → Prop}
    (keys : ∀ {file entry}, R file entry → entry.1 = file.1) {files : List (PhysicalId × Draft)}
    {entries : List (PhysicalId × Registration)} (read : List.Forall₂ R files entries)
    (single : (files.map Prod.fst).Nodup) (p : PhysicalId) :
    let registrations := entries.filterMap fun entry => if entry.1 = p then some entry.2 else none
    (files.find? (fun file => file.1 = p) = none ∧ registrations = []) ∨
      ∃ file entry, files.find? (fun file => file.1 = p) = some file ∧ R file entry ∧
        registrations = [entry.2] := by
  have same : entries.map Prod.fst = files.map Prod.fst := by
    clear single
    induction read with
    | nil => rfl
    | cons head rest ih => rw [List.map_cons, List.map_cons, keys head, ih]
  induction read with
  | nil => exact .inl ⟨rfl, rfl⟩
  | @cons file entry files entries head rest ih =>
    rw [List.map_cons, List.nodup_cons] at single
    simp only [List.map_cons, List.cons.injEq] at same
    by_cases here : file.1 = p
    · have others : entries.filterMap (fun entry => if entry.1 = p then some entry.2 else none) = [] := by
        refine List.filterMap_eq_nil_iff.mpr fun other member => if_neg fun again => single.1 ?_
        rw [here, ← again, ← same.2]
        exact List.mem_map_of_mem member
      refine .inr ⟨file, entry, ?_, head, ?_⟩
      · simp only [List.find?_cons, here, decide_true]
      · rw [List.filterMap_cons, if_pos (same.1.trans here), others]
    · have other : ¬ entry.1 = p := fun again => here (same.1.symm.trans again)
      have further := ih single.2 same.2
      simp only [List.find?_cons, here, decide_false, List.filterMap_cons, if_neg other]
      exact further

/-- What holds of each file as it is read holds of the entries that the fetcher is given. -/
theorem World.start_reads (setup : Setup) {R : PhysicalId × Draft → PhysicalId × Registration → Prop}
    (reads : ∀ file ∈ setup.files, ∀ w : World, R file (file.1, (w.evalDraft .outer file.2).2)) :
    List.Forall₂ R setup.files (World.start setup).fetcher.files := by
  have read (files : List (PhysicalId × Draft))
      (reads : ∀ file ∈ files, ∀ w : World, R file (file.1, (w.evalDraft .outer file.2).2)) (w : World) :
      ∃ entries, List.Forall₂ R files entries ∧
        (files.foldl readFile w).fetcher.files = w.fetcher.files ++ entries := by
    induction files generalizing w with
    | nil => exact ⟨[], .nil, (List.append_nil _).symm⟩
    | cons file files ih =>
      obtain ⟨entries, all, rest⟩ :=
        ih (fun file member => reads file (List.mem_cons_of_mem _ member)) (w.readFile file)
      refine ⟨(file.1, (w.evalDraft .outer file.2).2) :: entries,
        .cons (reads file (List.mem_cons_self ..) w) all, ?_⟩
      rw [List.foldl_cons, rest, readFile, List.append_assoc]
      rfl
  obtain ⟨entries, all, same⟩ := read setup.files reads _
  rw [start_eq, same]
  exact all

theorem World.start_files {setup : Setup} (listed : setup.Listed) :
    List.Forall₂ ReadAs setup.files (World.start setup).fetcher.files :=
  start_reads setup fun file member w => ⟨rfl, w.evalDraft_listed .outer (listed.drafts file member)⟩

theorem World.start_offers {setup : Setup} (listed : setup.Listed) (locator : Locator) :
    (World.start setup).fetcher.Offers setup locator := by
  obtain ⟨none, nothing⟩ | ⟨file, entry, found, ⟨-, factory, isLocal, registration⟩, one⟩ :=
    Fetcher.registrations_read (fun read : ReadAs _ _ => read.1) (World.start_files listed) listed.single
      (.ofLocator locator)
  · have absent : setup.draft? locator = .none := by rw [Setup.draft?, none, Option.map_none]
    rw [Fetcher.Offers, absent]
    exact nothing
  · have here : setup.draft? locator = some file.2 := by rw [Setup.draft?, found, Option.map_some]
    have registrations : (World.start setup).fetcher.registrations (.ofLocator locator) = [entry.2] := one
    rw [Fetcher.Offers, here]
    refine ⟨factory, ⟨?_, isLocal⟩, registrations.trans (congrArg (fun r => [r]) registration)⟩
    rw [Setup.factory?, registrations, registration]
    rfl

end ModuleLoader
