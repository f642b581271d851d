import ModuleLoader.Proofs.Listed

/-! The registry of a session over a table. Each locator stands for a record of its own, and a saved
record holds what the table says. -/
namespace ModuleLoader

open Loader (Sound Landed)

theorem PhysicalId.ofLocator_inj {a b : Locator} (same : PhysicalId.ofLocator a = .ofLocator b) :
    a = b := by
  cases a
  cases b
  cases same
  rfl

/-- A record without its status, and without what bodies can change. -/
def Record.fixed (r : Record) : Record :=
  { r with status := .unknown, exports := none, initiator := none }

namespace Loader

/-- A loader without its records and loads, and without what loading does not depend on. -/
def base (l : Loader) : Loader :=
  { l with sink := .silent, records := ∅, barriers := ∅, compiling := [], trace := #[] }

/-- Saved records may have moved on, and nothing else has changed that loading depends on. -/
structure Raised (l l' : Loader) : Prop where
  base : l'.base = l.base
  fixed : ∀ r, (l'.record r).fixed = (l.record r).fixed
  status : ∀ r, l'.status r = l.status r ∨ (.saved ≤ l.status r ∧ l.status r ≤ l'.status r)

/-- Nothing has changed that loading depends on. -/
structure Kept (l l' : Loader) : Prop where
  base : l'.base = l.base
  fixed : ∀ r, (l'.record r).fixed = (l.record r).fixed
  status : ∀ r, l'.status r = l.status r

/-- What the table says about the records of a loader. -/
structure Tabular (setup : Setup) (l : Loader) : Prop where
  config : l.config = setup.config
  resolver : l.resolver = setup.resolver
  own : ∀ {locator r}, l.entry? locator = some r → (l.record r).locator = locator
  entered : ∀ {r}, l.status r ≠ .unknown → l.entry? (l.record r).locator = some r
  alone : ∀ r, (l.record r).secondLocator = none
  bare : ∀ {r}, l.status r = .fetched → setup.draft? (l.record r).locator = none
  full : ∀ {r}, .saved ≤ l.status r → setup.draft? (l.record r).locator ≠ none ∧
    (l.record r).dependencies = setup.dependencies (l.record r).locator
  defined : ∀ {r}, .saved ≤ l.status r →
    (l.record r).factory = setup.factory? (l.record r).locator
  factory : ∀ {r f}, (l.record r).factory = some f → f.isLocal = true
  flying : ∀ {r}, l.status r = .fetching →
    (l.ledger.inFlight.get? (.ofLocator (l.record r).locator)).isSome = true
  grounded : ∀ {p waiters}, l.ledger.inFlight.get? p = some waiters → ∃ r, l.status r = .fetching ∧
    p = .ofLocator (l.record r).locator ∧ ∀ waiter ∈ waiters, waiter.locator = (l.record r).locator
  completed : ∀ {p locator}, l.ledger.completed.get? p = some locator → p = .ofLocator locator
  patches : l.patches = ∅
  preloads : l.preloads = []
  firstNamed : l.firstNamed = none

theorem Kept.raised {l l' : Loader} (kept : Kept l l') : Raised l l' :=
  ⟨kept.base, kept.fixed, fun r => .inl (kept.status r)⟩

theorem Kept.refl (l : Loader) : Kept l l := ⟨rfl, fun _ => rfl, fun _ => rfl⟩

theorem Kept.of_base {l l' : Loader} (base : l'.base = l.base) (records : l'.records = l.records) :
    Kept l l' := by
  have same (r : RecordId) : l'.record r = l.record r := congrArg (Table.get · r.index) records
  exact ⟨base, fun r => congrArg Record.fixed (same r), fun r => congrArg Record.status (same r)⟩

theorem Raised.trans {a b c : Loader} (ab : Raised a b) (bc : Raised b c) : Raised a c := by
  refine ⟨bc.base.trans ab.base, fun r => (bc.fixed r).trans (ab.fixed r), fun r => ?_⟩
  obtain same | ⟨saved, rising⟩ := ab.status r
  · rw [← same]
    exact bc.status r
  · obtain same | ⟨-, further⟩ := bc.status r
    · exact .inr ⟨saved, same ▸ rising⟩
    · exact .inr ⟨saved, Status.le_trans rising further⟩

namespace Raised

variable {l l' : Loader}

theorem rises (raised : Raised l l') (r : RecordId) : l.status r ≤ l'.status r := by
  obtain same | ⟨-, rising⟩ := raised.status r
  · rw [same]
    exact Status.le_refl _
  · exact rising

theorem entry (raised : Raised l l') (locator : Locator) : l'.entry? locator = l.entry? locator :=
  (congrArg (fun l : Loader => l.registry.get? locator) raised.base :)

theorem ledger (raised : Raised l l') : l'.ledger = l.ledger :=
  (congrArg Loader.ledger raised.base :)

theorem locator (raised : Raised l l') (r : RecordId) :
    (l'.record r).locator = (l.record r).locator := (congrArg Record.locator (raised.fixed r) :)

theorem dependencies (raised : Raised l l') (r : RecordId) :
    (l'.record r).dependencies = (l.record r).dependencies :=
  (congrArg Record.dependencies (raised.fixed r) :)

/-- A record that was not saved has the status that it had. -/
theorem below (raised : Raised l l') {r : RecordId} (below : ¬ .saved ≤ l'.status r) :
    l'.status r = l.status r := by
  obtain same | ⟨saved, rising⟩ := raised.status r
  · exact same
  · exact absurd (Status.le_trans saved rising) below

end Raised

/-- What the table says about a single record. -/
structure Fits (setup : Setup) (record : Record) : Prop where
  alone : record.secondLocator = none
  bare : record.status = .fetched → setup.draft? record.locator = none
  full : .saved ≤ record.status → setup.draft? record.locator ≠ none ∧
    record.dependencies = setup.dependencies record.locator
  defined : .saved ≤ record.status → record.factory = setup.factory? record.locator
  factory : ∀ {f}, record.factory = some f → f.isLocal = true

theorem Tabular.fits {setup : Setup} {l : Loader} (tabular : Tabular setup l) (r : RecordId) :
    Fits setup (l.record r) :=
  ⟨tabular.alone r, tabular.bare, tabular.full, tabular.defined, tabular.factory⟩

theorem Fits.raised {setup : Setup} {l l' : Loader} (raised : Raised l l') {r : RecordId}
    (fits : Fits setup (l.record r)) : Fits setup (l'.record r) := by
  obtain ⟨alone, bare, full, defined, factory⟩ := fits
  have same : (l'.record r).factory = (l.record r).factory :=
    (congrArg Record.factory (raised.fixed r) :)
  refine ⟨(congrArg Record.secondLocator (raised.fixed r) :).trans alone, ?_, ?_, ?_, ?_⟩
  · intro fetched
    have below : ¬ .saved ≤ l'.status r := by
      rw [Loader.status, fetched]
      decide
    rw [raised.locator]
    exact bare ((raised.below below).symm.trans fetched)
  · intro saved
    rw [raised.locator, raised.dependencies]
    obtain same | ⟨before, -⟩ := raised.status r
    · exact full (le_of_le_of_eq saved same)
    · exact full before
  · intro saved
    rw [same, raised.locator]
    obtain same | ⟨before, -⟩ := raised.status r
    · exact defined (le_of_le_of_eq saved same)
    · exact defined before
  · exact fun made => factory (same.symm.trans made)

namespace Tabular

variable {setup : Setup} {l l' : Loader}

theorem raised (tabular : Tabular setup l) (raised : Raised l l') : Tabular setup l' := by
  have fits (r : RecordId) : Fits setup (l'.record r) := (tabular.fits r).raised raised
  refine
    { config := (congrArg Loader.config raised.base :).trans tabular.config
      resolver := (congrArg Loader.resolver raised.base :).trans tabular.resolver
      own := ?_, entered := ?_, flying := ?_, grounded := ?_, completed := ?_
      alone := fun r => (fits r).alone
      bare := (fits _).bare
      full := (fits _).full
      defined := (fits _).defined
      factory := (fits _).factory
      patches := (congrArg Loader.patches raised.base :).trans tabular.patches
      preloads := (congrArg Loader.preloads raised.base :).trans tabular.preloads
      firstNamed := (congrArg Loader.firstNamed raised.base :).trans tabular.firstNamed }
  · intro locator r held
    rw [raised.locator]
    exact tabular.own ((raised.entry locator).symm.trans held)
  · intro r known
    rw [raised.locator, raised.entry]
    refine tabular.entered fun unknown => known ?_
    obtain same | ⟨saved, -⟩ := raised.status r
    · exact same.trans unknown
    · rw [unknown] at saved
      exact absurd saved (by decide)
  · intro r fetching
    have below : ¬ .saved ≤ l'.status r := by
      rw [fetching]
      decide
    rw [raised.ledger, raised.locator]
    exact tabular.flying ((raised.below below).symm.trans fetching)
  · intro p waiters flying
    rw [raised.ledger] at flying
    obtain ⟨r, fetching, here, waiting⟩ := tabular.grounded flying
    refine ⟨r, ?_, by rw [raised.locator]; exact here, by rw [raised.locator]; exact waiting⟩
    obtain same | ⟨saved, -⟩ := raised.status r
    · exact same.trans fetching
    · rw [fetching] at saved
      exact absurd saved (by decide)
  · intro p locator done
    rw [raised.ledger] at done
    exact tabular.completed done

end Tabular

/-- The page means the same by an identifier at any time. -/
theorem Tabular.wanted {setup : Setup} {l : Loader} (tabular : Tabular setup l) (ids : List String) :
    ids.filterMap (l.resolve · none) = setup.wanted ids := by
  rw [Setup.wanted, ← tabular.resolver, ← tabular.config]
  rfl

/-! Entering a load. -/

section

variable {setup : Setup} {l : Loader}

/-- A finished retrieval is of no use to another locator, since there is none. -/
theorem retrieved?_own
    (completed : ∀ {p locator}, l.ledger.completed.get? p = some locator → p = .ofLocator locator)
    (locator : Locator) : l.retrieved? (.ofLocator locator) locator = none := by
  cases done : l.ledger.completed.get? (.ofLocator locator) with
  | none => simp [retrieved?, done]
  | some first =>
    have same := PhysicalId.ofLocator_inj (completed done)
    subst same
    cases held : l.entry? locator with
    | none => simp [retrieved?, done, held]
    | some known => simp [retrieved?, done, held]

theorem Tabular.resource (tabular : Tabular setup l) (listed : setup.Listed) (locator : Locator) :
    l.resolver.physicalId locator = .ofLocator locator := by
  rw [tabular.resolver]
  exact listed.identity locator

/-- A locator that nobody has asked for yet is not being retrieved. -/
theorem Tabular.grounded_of_absent (tabular : Tabular setup l) {locator : Locator}
    (absent : l.entry? locator = none) : l.ledger.inFlight.get? (.ofLocator locator) = none := by
  cases flying : l.ledger.inFlight.get? (.ofLocator locator) with
  | none => rfl
  | some waiters =>
    obtain ⟨r, fetching, here, -⟩ := tabular.grounded flying
    have held := tabular.entered (r := r) (by rw [fetching]; decide)
    rw [← PhysicalId.ofLocator_inj here, absent] at held
    cases held

/-- The loader after someone has asked for a locator that is new to it. -/
def requested (l : Loader) (locator : Locator) (b : BarrierId) : Loader :=
  { l with
    records := l.records.push { locator, status := .fetching }
    registry := l.registry.insert locator ⟨l.records.size⟩
    ledger := ⟨l.ledger.inFlight.insert (.ofLocator locator) [⟨locator, b⟩],
      l.ledger.completed.erase (.ofLocator locator)⟩
    trace := l.trace.push (.fetch locator (.ofLocator locator)) }

/-- The loader after someone has joined a retrieval. -/
def joined (l : Loader) (locator : Locator) (b : BarrierId) (waiters : List Waiter) : Loader :=
  { l with
    ledger := ⟨l.ledger.inFlight.insert (.ofLocator locator) (waiters ++ [⟨locator, b⟩]),
      l.ledger.completed.erase (.ofLocator locator)⟩
    trace := l.trace.push (.joined locator (.ofLocator locator)) }

end

end Loader

namespace World

variable {setup : Setup} {w : World} {locator : Locator} {b : BarrierId}

theorem enter_over {r : RecordId} (held : w.loader.entry? locator = some r)
    (fetched : .fetched ≤ w.loader.status r) :
    w.enter locator b = (w, [.settled locator b]) := by
  simp only [enter, Loader.ensure, held, if_pos fetched]

theorem enter_flying (tabular : w.loader.Tabular setup) (listed : setup.Listed) {r : RecordId}
    (held : w.loader.entry? locator = some r) (fetching : w.loader.status r = .fetching) :
    ∃ waiters, w.loader.ledger.inFlight.get? (.ofLocator locator) = some waiters ∧
      w.enter locator b = ({ w with loader := w.loader.joined locator b waiters }, []) := by
  have flying := tabular.flying fetching
  rw [tabular.own held] at flying
  obtain ⟨waiters, flying⟩ := Option.isSome_iff_exists.mp flying
  refine ⟨waiters, flying, ?_⟩
  have below : ¬ Status.fetched ≤ w.loader.status r := by
    rw [fetching]
    decide
  simp only [enter, Loader.ensure, held, if_neg below, Loader.awaitResource,
    tabular.resource listed, Loader.retrieved?_own tabular.completed]
  simp only [Loader.forgetCompleted, flying, Loader.note, Loader.joined]

theorem enter_absent (tabular : w.loader.Tabular setup) (listed : setup.Listed)
    (absent : w.loader.entry? locator = none) :
    w.enter locator b = World.retrieve { w with loader := w.loader.requested locator b }
      ⟨.ofLocator locator, locator⟩ := by
  have grounded := tabular.grounded_of_absent absent
  have fresh : Loader.status ((w.loader.newRecord locator .fetching).1.point locator
      ⟨w.loader.records.size⟩) ⟨w.loader.records.size⟩ = .fetching :=
    (w.loader.status_newRecord locator .fetching ⟨w.loader.records.size⟩).trans (if_pos rfl)
  have useless := Loader.retrieved?_own
    (l := (w.loader.newRecord locator .fetching).1.point locator ⟨w.loader.records.size⟩)
    tabular.completed locator
  have resource : ((w.loader.newRecord locator .fetching).1.point locator
      ⟨w.loader.records.size⟩).resolver.physicalId locator = .ofLocator locator :=
    tabular.resource listed locator
  have below : ¬ Status.fetched ≤ Status.fetching := by decide
  obtain ⟨r, held, -⟩ | ⟨-, made⟩ := w.loader.ensure_cases locator .fetching
  · rw [absent] at held
    cases held
  · simp only [enter, made, fresh, if_neg below, Loader.awaitResource, resource, useless]
    simp only [Loader.forgetCompleted, Loader.point, Loader.newRecord, grounded, Loader.note,
      Loader.requested]

end World

/-! Finishing a retrieval. -/

/-- A registration that waits for its retrieval to name it is the one that the table holds. -/
def Setup.Awaited (setup : Setup) (locator : Locator) (anonymous : Option Definition) : Prop :=
  match setup.draft? locator with
  | none => anonymous = none
  | some draft => ∃ factory : Factory, setup.Defines locator factory ∧
      anonymous = some ⟨none, draft.listed, factory⟩

/-- What the fetcher registers waits for a name. -/
theorem World.evaluate_listed {setup : Setup} {w : World} {locator : Locator}
    (offers : w.fetcher.Offers setup locator) (unnamed : w.loader.anonymous = none) :
    ∃ anonymous, setup.Awaited locator anonymous ∧
      w.evaluate (.ofLocator locator) = { w with loader := { w.loader with anonymous } } := by
  unfold Fetcher.Offers at offers
  unfold evaluate Setup.Awaited
  cases here : setup.draft? locator with
  | none =>
    simp only [here] at offers ⊢
    rw [offers]
    exact ⟨none, rfl, by rw [← unnamed]; rfl⟩
  | some draft =>
    simp only [here] at offers ⊢
    obtain ⟨factory, defines, registrations⟩ := offers
    refine ⟨_, ⟨factory, defines, rfl⟩, ?_⟩
    simp [registrations, Loader.define, Loader.register, Loader.park, Registration.definition, unnamed]

namespace Loader

variable {setup : Setup} {l : Loader} {token : FetchToken} {r : RecordId}

/-- The record that a retrieval was for holds what the table says, and the rest is as it was. -/
structure Retrieved (setup : Setup) (l l' : Loader) (token : FetchToken) (r : RecordId) : Prop where
  base : { l'.base with anonymous := none, ledger := .empty } =
    { l.base with anonymous := none, ledger := .empty }
  unnamed : l'.anonymous = none
  ledger : l'.ledger = ⟨l.ledger.inFlight.erase token.resource,
    l.ledger.completed.insert token.resource token.locator⟩
  others : ∀ x, x ≠ r → l'.record x = l.record x
  locator : (l'.record r).locator = (l.record r).locator
  alone : (l'.record r).secondLocator = (l.record r).secondLocator
  outcome :
    (setup.draft? token.locator = none ∧ l'.status r = .fetched ∧
      (l'.record r).factory = (l.record r).factory) ∨
    (setup.draft? token.locator ≠ none ∧ l'.status r = .saved ∧
      (l'.record r).dependencies = setup.dependencies token.locator ∧
      ∃ factory : Factory, setup.Defines token.locator factory ∧ (l'.record r).factory = some factory)

theorem resolveDependencies_tabular (tabular : Tabular setup l) (locator : Locator) {draft : Draft}
    (here : setup.draft? locator = some draft) :
    l.resolveDependencies locator draft.listed = setup.dependencies locator := by
  rw [Setup.dependencies, here, Option.map_some, Option.getD_some, resolveDependencies,
    Setup.dependenciesOf]
  simp only [resolve, tabular.resolver, Option.getD_some]

/-- Where nobody waits for another locator, the record is all that is settled. -/
theorem settle_alone {l' : Loader} (held : l.entry? token.locator = some r) {waiters : List Waiter}
    (waiting : ∀ waiter ∈ waiters, waiter.locator = token.locator)
    (named : (l.endFetching r).nameAnonymous token.locator = l') (first : l'.firstNamed = none) :
    l.settle token waiters = l' := by
  have nobody : (waiters.map Waiter.locator).filter (· ≠ token.locator) = [] := by
    apply List.filter_eq_nil_iff.mpr
    rintro locator member
    obtain ⟨waiter, waits, rfl⟩ := List.mem_map.mp member
    simpa using waiting waiter waits
  simp only [settle, ensure, held, nobody, List.foldl_nil, named, takeFirstNamed, first]
  split <;> rfl

/-- A finished retrieval gives its record what the table says, or nothing. -/
theorem finishFetch_listed (tabular : Tabular setup l) (fetching : l.status r = .fetching)
    (held : l.entry? token.locator = some r)
    (awaited : setup.Awaited token.locator l.anonymous) {waiters : List Waiter}
    (flying : l.ledger.inFlight.get? token.resource = some waiters)
    (waiting : ∀ waiter ∈ waiters, waiter.locator = token.locator) :
    Retrieved setup l (l.finishFetch token).1 token r ∧ (l.finishFetch token).2 = waiters := by
  refine ⟨?_, by rw [finishFetch, flying, Option.getD_some]⟩
  let closed := (l.note (.fetched token.locator token.resource)).closeRetrieval token
  have ended : closed.endFetching r = closed.setStatus r .fetched := if_pos fetching
  have fetched (x : RecordId) : (closed.setStatus r .fetched).record x =
      if x = r then { l.record x with status := .fetched } else l.record x := by
    rw [← ended]
    exact record_endFetching (l := closed) fetching x
  simp only [finishFetch, flying, Option.getD_some]
  change Retrieved setup l (closed.settle token waiters) token r
  cases here : setup.draft? token.locator with
  | none =>
    have unnamed : l.anonymous = none := by simpa [Setup.Awaited, here] using awaited
    have named : (closed.endFetching r).nameAnonymous token.locator = closed.setStatus r .fetched := by
      rw [ended, nameAnonymous, show (closed.setStatus r .fetched).anonymous = none from unnamed]
    have here' := fetched r
    rw [if_pos rfl] at here'
    rw [settle_alone (l := closed) held waiting named tabular.firstNamed]
    refine ⟨rfl, unnamed, rfl, ?_, ?_, ?_, .inl ⟨here, ?_, ?_⟩⟩
    · intro x other
      rw [fetched, if_neg other]
    · rw [here']
    · rw [here']
    · rw [status, here']
    · rw [here']
  | some draft =>
    obtain ⟨factory, defines, awaits⟩ : ∃ factory : Factory, setup.Defines token.locator factory ∧
        l.anonymous = some ⟨none, draft.listed, factory⟩ := by
      simpa [Setup.Awaited, here] using awaited
    let unnamed : Loader := { closed.setStatus r .fetched with anonymous := none }
    have at_hand : unnamed.record r = { l.record r with status := .fetched } :=
      (fetched r).trans (if_pos rfl)
    have below : ¬ .saved ≤ unnamed.status r := by
      rw [status, at_hand]
      exact (by decide : ¬ Status.saved ≤ .fetched)
    have named : (closed.endFetching r).nameAnonymous token.locator =
        unnamed.updateRecord r (·.save ⟨none, draft.listed, factory⟩
          (unnamed.resolveDependencies token.locator draft.listed)) := by
      rw [ended, nameAnonymous, show (closed.setStatus r .fetched).anonymous = some _ from awaits]
      exact congrArg Prod.fst (save_held (l := unnamed) held below _)
    have dependencies : unnamed.resolveDependencies token.locator draft.listed =
        setup.dependencies token.locator := resolveDependencies_tabular tabular token.locator here
    have saved (x : RecordId) : (unnamed.updateRecord r (·.save ⟨none, draft.listed, factory⟩
        (unnamed.resolveDependencies token.locator draft.listed))).record x =
        if x = r then (unnamed.record x).save ⟨none, draft.listed, factory⟩
          (setup.dependencies token.locator) else unnamed.record x := by
      rw [dependencies]
      refine record_updateRecord_inside ?_ _ x
      exact index_lt_of_known (by rw [status, at_hand]; exact Status.noConfusion)
    rw [settle_alone (l := closed) held waiting named tabular.firstNamed]
    refine ⟨rfl, rfl, rfl, ?_, ?_, ?_, .inr ⟨by simp [here], ?_, ?_, factory, defines, ?_⟩⟩
    · intro x other
      rw [saved, if_neg other]
      exact (fetched x).trans (if_neg other)
    · rw [saved, if_pos rfl, at_hand]
      rfl
    · rw [saved, if_pos rfl, at_hand]
      rfl
    · rw [status, saved, if_pos rfl]
      rfl
    · rw [saved, if_pos rfl]
      rfl
    · rw [saved, if_pos rfl]
      rfl

/-! What the table says goes on to hold. -/

theorem Tabular.joined (tabular : Tabular setup l) {locator : Locator} (b : BarrierId)
    {waiters : List Waiter} (flying : l.ledger.inFlight.get? (.ofLocator locator) = some waiters) :
    Tabular setup (l.joined locator b waiters) := by
  refine { tabular with flying := ?_, grounded := ?_, completed := ?_ }
  · intro r fetching
    have before := tabular.flying (r := r) fetching
    change ((l.ledger.inFlight.insert _ _).get? _).isSome = true
    rw [OrderedMap.get?_insert]
    split
    · rfl
    · exact before
  · intro p others waiting
    change (l.ledger.inFlight.insert _ _).get? p = some others at waiting
    rw [OrderedMap.get?_insert] at waiting
    split at waiting
    · rename_i here
      cases waiting
      obtain ⟨r, fetching, resource, waiting⟩ := tabular.grounded flying
      refine ⟨r, fetching, here ▸ resource, ?_⟩
      intro waiter member
      rcases List.mem_append.mp member with earlier | new
      · exact waiting waiter earlier
      · rw [List.mem_singleton.mp new]
        exact PhysicalId.ofLocator_inj resource
    · exact tabular.grounded waiting
  · intro p x done
    exact tabular.completed (OrderedMap.get?_erase_eq_some.mp done).2

theorem record_requested (l : Loader) (locator : Locator) (b : BarrierId) (x : RecordId) :
    (l.requested locator b).record x =
      if x = ⟨l.records.size⟩ then { locator, status := .fetching } else l.record x := by
  obtain ⟨i⟩ := x
  apply (Table.get_push l.records _ i).trans
  simp only [RecordId.mk.injEq]
  rfl

theorem entry_requested (l : Loader) (locator x : Locator) (b : BarrierId) :
    entry? (l.requested locator b) x =
      if locator = x then some ⟨l.records.size⟩ else l.entry? x := OrderedMap.get?_insert _ _ _ _

theorem Fits.fetching (setup : Setup) (locator : Locator) :
    Fits setup { locator, status := .fetching } := by
  have early : ¬ Status.saved ≤ .fetching := by decide
  exact ⟨rfl, fun fetched => (by cases fetched), fun saved => absurd saved early,
    fun saved => absurd saved early, fun made => (by cases made)⟩

theorem Tabular.requested (tabular : Tabular setup l) (sound : Sound l) {locator : Locator}
    (absent : l.entry? locator = none) (b : BarrierId) : Tabular setup (l.requested locator b) := by
  have record := l.record_requested locator b
  have entry := fun x => l.entry_requested locator x b
  have fresh : l.status ⟨l.records.size⟩ = .unknown :=
    Decidable.byContradiction fun known => Nat.lt_irrefl _ (index_lt_of_known known)
  have old {x : Locator} {r : RecordId} (held : l.entry? x = some r) : r ≠ ⟨l.records.size⟩ := by
    rintro rfl
    exact sound.known held fresh
  have before {r : RecordId} (other : r ≠ ⟨l.records.size⟩) :
      (l.requested locator b).record r = l.record r := by
    rw [record, if_neg other]
  have here : (l.requested locator b).record ⟨l.records.size⟩ = { locator, status := .fetching } := by
    rw [record, if_pos rfl]
  have fits (r : RecordId) : Fits setup ((l.requested locator b).record r) := by
    by_cases new : r = ⟨l.records.size⟩
    · rw [new, here]
      exact .fetching setup locator
    · rw [before new]
      exact tabular.fits r
  refine { tabular with
    own := ?_, entered := ?_, flying := ?_, grounded := ?_, completed := ?_
    alone := fun r => (fits r).alone
    bare := (fits _).bare
    full := (fits _).full
    defined := (fits _).defined
    factory := (fits _).factory }
  · intro x r held
    rw [entry] at held
    split at held
    · rename_i same
      cases held
      rw [here, same]
    · rw [before (old held)]
      exact tabular.own held
  · intro r known
    by_cases new : r = ⟨l.records.size⟩
    · subst new
      rw [here, entry, if_pos rfl]
    · rw [status, before new] at known
      have held := tabular.entered known
      rw [before new, entry, if_neg]
      · exact held
      · intro same
        rw [← same, absent] at held
        cases held
  · intro r fetching
    change ((l.ledger.inFlight.insert _ _).get? _).isSome = true
    rw [OrderedMap.get?_insert]
    by_cases new : r = ⟨l.records.size⟩
    · rw [new, here, if_pos rfl]
      rfl
    · rw [status, before new] at fetching
      rw [before new]
      split
      · rfl
      · exact tabular.flying fetching
  · intro p waiters flying
    change (l.ledger.inFlight.insert _ _).get? p = some waiters at flying
    rw [OrderedMap.get?_insert] at flying
    split at flying
    · rename_i resource
      cases flying
      refine ⟨⟨l.records.size⟩, by rw [status, here], by rw [here, resource], ?_⟩
      intro waiter member
      rw [here, List.mem_singleton.mp member]
    · obtain ⟨r, fetching, resource, waiting⟩ := tabular.grounded flying
      have other : r ≠ ⟨l.records.size⟩ := by
        rintro rfl
        rw [fresh] at fetching
        cases fetching
      exact ⟨r, by rw [status, before other]; exact fetching, by rw [before other]; exact resource,
        by rw [before other]; exact waiting⟩
  · intro p x done
    exact tabular.completed (OrderedMap.get?_erase_eq_some.mp done).2

namespace Retrieved

variable {l' : Loader}

theorem entry (retrieved : Retrieved setup l l' token r) (x : Locator) :
    l'.entry? x = l.entry? x :=
  (congrArg (fun l : Loader => l.registry.get? x) retrieved.base :)

/-- The retrieval is over, whatever it held. -/
theorem fetched (retrieved : Retrieved setup l l' token r) : .fetched ≤ l'.status r := by
  obtain ⟨-, status, -⟩ | ⟨-, status, -⟩ := retrieved.outcome <;> rw [status] <;> decide

theorem same_locator (retrieved : Retrieved setup l l' token r) (x : RecordId) :
    (l'.record x).locator = (l.record x).locator := by
  by_cases same : x = r
  · rw [same, retrieved.locator]
  · rw [retrieved.others x same]

end Retrieved

theorem Fits.retrieved {l' : Loader} (fits : Fits setup (l.record r))
    (own : (l.record r).locator = token.locator) (retrieved : Retrieved setup l l' token r) :
    Fits setup (l'.record r) := by
  obtain ⟨alone, -, -, -, factory⟩ := fits
  have here : (l'.record r).locator = token.locator := retrieved.locator.trans own
  obtain ⟨bare, fetched, made⟩ | ⟨full, saved, dependencies, f, defines, made⟩ := retrieved.outcome
  · have unsaved : ¬ .saved ≤ (l'.record r).status := by
      rw [show (l'.record r).status = .fetched from fetched]
      decide
    exact ⟨retrieved.alone.trans alone, fun _ => here ▸ bare, fun saved => absurd saved unsaved,
      fun saved => absurd saved unsaved, fun some => factory (made.symm.trans some)⟩
  · refine ⟨retrieved.alone.trans alone, ?_, fun _ => here ▸ ⟨full, dependencies⟩, ?_, ?_⟩
    · intro fetched
      cases (show (l'.record r).status = .saved from saved).symm.trans fetched
    · intro _
      rw [made, here]
      exact defines.1.symm
    · intro g some
      cases made.symm.trans some
      exact defines.2

theorem Tabular.retrieved {l' : Loader} (tabular : Tabular setup l) (fetching : l.status r = .fetching)
    (resource : token.resource = .ofLocator token.locator)
    (held : l.entry? token.locator = some r) (retrieved : Retrieved setup l l' token r) :
    Tabular setup l' := by
  have own : (l.record r).locator = token.locator := tabular.own held
  have status {x : RecordId} (other : x ≠ r) : l'.status x = l.status x := by
    rw [Loader.status, retrieved.others x other, Loader.status]
  have base {α : Type} (f : Loader → α) :
      f { l'.base with anonymous := none, ledger := .empty } =
        f { l.base with anonymous := none, ledger := .empty } := congrArg f retrieved.base
  have fits (x : RecordId) : Fits setup (l'.record x) := by
    by_cases same : x = r
    · rw [same]
      exact (tabular.fits r).retrieved own retrieved
    · rw [retrieved.others x same]
      exact tabular.fits x
  refine
    { config := (base Loader.config).trans tabular.config
      resolver := (base Loader.resolver).trans tabular.resolver
      own := ?_, entered := ?_, flying := ?_, grounded := ?_, completed := ?_
      alone := fun x => (fits x).alone
      bare := (fits _).bare
      full := (fits _).full
      defined := (fits _).defined
      factory := (fits _).factory
      patches := (base Loader.patches).trans tabular.patches
      preloads := (base Loader.preloads).trans tabular.preloads
      firstNamed := (base Loader.firstNamed).trans tabular.firstNamed }
  · intro x y there
    rw [retrieved.entry] at there
    rw [retrieved.same_locator]
    exact tabular.own there
  · intro x known
    rw [retrieved.same_locator, retrieved.entry]
    by_cases same : x = r
    · rw [same, own, held]
    · exact tabular.entered (status same ▸ known)
  · intro x still
    have other : x ≠ r := by
      rintro rfl
      have ended := retrieved.fetched
      rw [still] at ended
      exact absurd ended (by decide)
    rw [status other] at still
    rw [retrieved.same_locator, retrieved.ledger, OrderedMap.get?_erase, if_neg]
    · exact tabular.flying still
    · intro same
      have there := tabular.entered (r := x) (by rw [still]; exact Status.noConfusion)
      rw [← PhysicalId.ofLocator_inj (resource.symm.trans same), held] at there
      exact other (Option.some.inj there).symm
  · intro p waiters flying
    rw [retrieved.ledger] at flying
    obtain ⟨elsewhere, flying⟩ := OrderedMap.get?_erase_eq_some.mp flying
    obtain ⟨x, still, here, waiting⟩ := tabular.grounded flying
    have other : x ≠ r := by
      rintro rfl
      exact elsewhere (resource.trans (own ▸ here.symm))
    refine ⟨x, (status other).trans still, ?_, ?_⟩
    · rw [retrieved.same_locator]
      exact here
    · rw [retrieved.same_locator]
      exact waiting
  · intro p x done
    rw [retrieved.ledger, OrderedMap.get?_insert] at done
    split at done
    · rename_i here
      cases done
      rw [← here, resource]
    · exact tabular.completed done

end Loader

end ModuleLoader
