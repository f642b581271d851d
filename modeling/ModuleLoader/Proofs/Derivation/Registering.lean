import ModuleLoader.Proofs.Effects.Settling

/-! Two ways to register what a resource holds. A host that knows for which locator the resource is being
retrieved hands the locator over with each registration; otherwise two places of the loader keep what
concerns the locator until the retrieval ends. Beside the locator both ways do the same. -/
namespace ModuleLoader

/-- What a record gives to those who use it. -/
def Record.gist (r : Record) : Locator × List Locator × Option Factory :=
  (r.locator, r.dependencies, r.factory)

namespace Loader

/-- What a locator stands for. -/
def gist? (l : Loader) (k : Locator) : Option (Locator × List Locator × Option Factory) :=
  (l.entry? k).map fun r => (l.record r).gist

/-- What can be told of a record while modules are registered. -/
def look (l : Loader) (r : RecordId) : (Locator × List Locator × Option Factory) × Status :=
  ((l.record r).gist, l.status r)

/-- The locator that a registration is for, if it is made on behalf of a locator. -/
def aim (l : Loader) (locator : Locator) (registration : Registration) : Locator :=
  (l.named? registration).getD locator

theorem Quiet.symm {l l' : Loader} (quiet : Quiet l l') : Quiet l' l :=
  ⟨quiet.config.symm, quiet.resolver.symm, quiet.ledger.symm, quiet.barriers.symm⟩

theorem Quiet.aim {l l' : Loader} (quiet : Quiet l l') (locator : Locator) (registration : Registration) :
    l'.aim locator registration = l.aim locator registration := by
  rw [Loader.aim, quiet.named, Loader.aim]

/-- What a registration gives under a locator. -/
def offer (l : Loader) (locator : Locator) (definition : Definition) :
    Locator × List Locator × Option Factory :=
  (locator, l.resolveDependencies locator definition.dependencies, some definition.factory)

theorem Quiet.offer {l l' : Loader} (quiet : Quiet l l') (locator : Locator) (definition : Definition) :
    l'.offer locator definition = l.offer locator definition := by
  simp only [Loader.offer, resolveDependencies, resolve, quiet.resolver, quiet.config]

theorem look_of_record {l l' : Loader} {r : RecordId} (same : l'.record r = l.record r) :
    l'.look r = l.look r := by
  rw [look, status, same, look, status]

theorem saved_of_look {l : Loader} {r : RecordId} {gist : Locator × List Locator × Option Factory}
    (look : l.look r = (gist, .saved)) : .saved ≤ l.status r := by
  have same : l.status r = .saved := congrArg Prod.snd look
  rw [same]
  exact Status.le_refl _

theorem look_setSecondLocator (l : Loader) (r : RecordId) (locator : Locator) (x : RecordId) :
    (l.setSecondLocator r locator).look x = l.look x := by
  have record : (l.setSecondLocator r locator).record x = _ := l.record_updateRecord r x _
  rw [look, status, record]
  split <;> rfl

/-! Saving. -/

/-- What it comes to that a module is saved under a locator. -/
structure Stores (l : Loader) (k : Locator) (definition : Definition) (l' : Loader) (r : RecordId) :
    Prop where
  entry : ∀ j, l'.entry? j = if k = j then some r else l.entry? j
  found : ∀ x, l.entry? k = some x → x = r
  fresh : l.entry? k = none → ∀ x, l.status x ≠ .unknown → x ≠ r
  others : ∀ x, l.status x ≠ .unknown → x ≠ r → l'.record x = l.record x
  ignored : .saved ≤ l.status r → l'.record r = l.record r
  saved : ¬ .saved ≤ l.status r → l'.look r =
    ((((l.entry? k).map fun x => (l.record x).locator).getD k,
      l.resolveDependencies k definition.dependencies, some definition.factory), .saved)

theorem save_stores {l : Loader} (sound : Sound l) (k : Locator) (definition : Definition) :
    Stores l k definition (l.save k definition).1 (l.save k definition).2 := by
  have saves := l.save_saves k definition (Clears.refl sound k).inside
  cases held : l.entry? k with
  | some x =>
    have known := sound.known held
    have here := save_at held definition
    have own := save_own held known definition
    have record (y : RecordId) (other : y ≠ x) : (l.save k definition).1.record y = l.record y := by
      rw [save, ensure, held]
      dsimp only
      split
      · rfl
      · rw [record_updateRecord_inside (index_lt_of_known known), if_neg other]
    refine ⟨saves.entry, fun y there => ?_, fun absent => ?_, fun y _ other => ?_, fun saved => ?_,
      fun below => ?_⟩
    · rw [here, Option.some.inj (held.symm.trans there)]
    · cases held.symm.trans absent
    · exact record y (here ▸ other)
    · rw [here] at saved ⊢
      rw [own, if_pos saved]
    · rw [here] at below ⊢
      rw [look, status, own, if_neg below, held]
      rfl
  | none =>
    have here := save_new held definition
    have outside : l.status ⟨l.records.size⟩ = .unknown := by
      by_contra known
      exact absurd (index_lt_of_known known) (Nat.lt_irrefl _)
    have fresh : Loader.status ((l.newRecord k .unknown).1.point k ⟨l.records.size⟩) ⟨l.records.size⟩ =
        .unknown := by rw [status, l.record_made, if_pos rfl]
    have made : (l.save k definition).1 = ((l.newRecord k .unknown).1.point k ⟨l.records.size⟩).updateRecord
        ⟨l.records.size⟩ (·.save definition (l.resolveDependencies k definition.dependencies)) := by
      simp only [save, ensure, held, newRecord]
      rw [if_neg]
      · rfl
      · change ¬ Status.saved ≤ Loader.status ((l.newRecord k .unknown).1.point k ⟨l.records.size⟩) _
        rw [fresh]
        decide
    have size : ((l.newRecord k .unknown).1.point k ⟨l.records.size⟩).records.size = l.records.size + 1 :=
      Array.size_push _
    have inside : l.records.size < ((l.newRecord k .unknown).1.point k ⟨l.records.size⟩).records.size := by
      rw [size]
      exact Nat.lt_succ_self _
    have record (y : RecordId) := record_updateRecord_inside (r := ⟨l.records.size⟩) inside
      (·.save definition (l.resolveDependencies k definition.dependencies)) y
    refine ⟨saves.entry, fun y there => ?_, fun _ y known => ?_, fun y known other => ?_, fun saved => ?_,
      fun _ => ?_⟩
    · cases held.symm.trans there
    · rw [here]
      exact Renames.not_new (index_lt_of_known known)
    · rw [here] at other
      rw [made, record, if_neg other, l.record_made, if_neg other]
    · rw [here, outside] at saved
      exact absurd saved (by decide)
    · rw [here, made, look, status, record, if_pos rfl, l.record_made, if_pos rfl, held]
      rfl

namespace Stores

variable {l l' : Loader} {k : Locator} {definition : Definition} {r : RecordId}

/-- The record that it is saved in is new unless the locator stood for it. -/
theorem stands (stores : Stores l k definition l' r) (known : l.status r ≠ .unknown) : l.entry? k = some r := by
  cases held : l.entry? k with
  | some x => rw [stores.found x held]
  | none => exact absurd rfl (stores.fresh held r known)

/-- Whatever stands for a record goes on to do so. -/
theorem keeps (stores : Stores l k definition l' r) {j : Locator} {x : RecordId} (held : l.entry? j = some x) :
    l'.entry? j = some x := by
  rw [stores.entry]
  split
  · rename_i here
    subst here
    rw [stores.found x held]
  · exact held

end Stores

/-! Loaders that agree beside a locator. -/

/-- Beside a locator the same locators stand for records that look the same, and share them alike. -/
structure Alike (locator : Locator) (a b : Loader) : Prop where
  looks : ∀ k, k ≠ locator → (b.entry? k).map b.look = (a.entry? k).map a.look
  split : ∀ j k, j ≠ locator → k ≠ locator → (b.entry? j = b.entry? k ↔ a.entry? j = a.entry? k)

/-- Nothing has happened that can be told beside a locator. -/
structure Spares (locator : Locator) (l l' : Loader) : Prop where
  entry : ∀ k, k ≠ locator → l'.entry? k = l.entry? k
  look : ∀ k r, k ≠ locator → l.entry? k = some r → l'.look r = l.look r

namespace Spares

variable {locator : Locator} {l l' : Loader}

theorem refl (l : Loader) : Spares locator l l := ⟨fun _ _ => rfl, fun _ _ _ _ => rfl⟩

theorem trans {a b c : Loader} (ab : Spares locator a b) (bc : Spares locator b c) : Spares locator a c := by
  refine ⟨fun k other => (bc.entry k other).trans (ab.entry k other), fun k r other held => ?_⟩
  exact (bc.look k r other ((ab.entry k other).trans held)).trans (ab.look k r other held)

theorem of_same (registry : l'.registry = l.registry) (records : l'.records = l.records) :
    Spares locator l l' := by
  refine ⟨fun k _ => congrArg (OrderedMap.get? · k) registry, fun k r _ _ => look_of_record ?_⟩
  rw [record, records, record]

end Spares

theorem Alike.spared {locator : Locator} {a a' b b' : Loader} (alike : Alike locator a b)
    (left : Spares locator a a') (right : Spares locator b b') : Alike locator a' b' := by
  have looks {l l' : Loader} (spares : Spares locator l l') (k : Locator) (other : k ≠ locator) :
      (l'.entry? k).map l'.look = (l.entry? k).map l.look := by
    rw [spares.entry k other]
    cases held : l.entry? k with
    | none => rfl
    | some r => exact congrArg some (spares.look k r other held)
  refine ⟨fun k other => ?_, fun j k first second => ?_⟩
  · rw [looks right k other, looks left k other]
    exact alike.looks k other
  · rw [right.entry j first, right.entry k second, left.entry j first, left.entry k second]
    exact alike.split j k first second

theorem Alike.refl (locator : Locator) (l : Loader) : Alike locator l l :=
  ⟨fun _ _ => rfl, fun _ _ _ _ => .rfl⟩

/-- Another locator stands for nothing on either side, or for two records that look the same. -/
theorem Alike.counterpart {locator k : Locator} {a b : Loader} (alike : Alike locator a b) (other : k ≠ locator) :
    (a.entry? k = none ∧ b.entry? k = none) ∨
      ∃ r s, a.entry? k = some r ∧ b.entry? k = some s ∧ b.look s = a.look r := by
  have looks := alike.looks k other
  cases held : a.entry? k with
  | none =>
    rw [held, Option.map_none, Option.map_eq_none_iff] at looks
    exact .inl ⟨rfl, looks⟩
  | some r =>
    rw [held, Option.map_some] at looks
    obtain ⟨s, there, look⟩ := Option.map_eq_some_iff.mp looks
    exact .inr ⟨r, s, rfl, there, look⟩

section

variable {locator k : Locator} {definition : Definition} {a a' b b' : Loader} {x y : RecordId}

/-- A locator stands for the record that is saved on the one side when it does on the other. -/
theorem Alike.stands_iff (alike : Alike locator a b) (left : Sound a) (right : Sound b) (other : k ≠ locator)
    (inA : Stores a k definition a' x) (inB : Stores b k definition b' y) {j : Locator} (apart : j ≠ locator) :
    b.entry? j = some y ↔ a.entry? j = some x := by
  obtain ⟨heldA, heldB⟩ | ⟨r, s, heldA, heldB, -⟩ := alike.counterpart other
  · exact ⟨fun there => (inB.fresh heldB y (right.known there) rfl).elim,
      fun there => (inA.fresh heldA x (left.known there) rfl).elim⟩
  · obtain rfl := inA.found r heldA
    obtain rfl := inB.found s heldB
    rw [← heldA, ← heldB]
    exact alike.split j k apart other

theorem Alike.stored (alike : Alike locator a b) (quiet : Quiet a b) (other : k ≠ locator)
    (inA : Stores a k definition a' x) (inB : Stores b k definition b' y) : b'.look y = a'.look x := by
  have lists := congrArg (fun offer => offer.2.1) (quiet.offer k definition)
  simp only [offer] at lists
  obtain ⟨heldA, heldB⟩ | ⟨r, s, heldA, heldB, looks⟩ := alike.counterpart other
  · have below {l : Loader} {r : RecordId} (fresh : ∀ z, l.status z ≠ .unknown → z ≠ r) :
        ¬ .saved ≤ l.status r := fun saved =>
      fresh r (Status.ne_unknown_of_le (a := .saved) (by decide) saved) rfl
    rw [inB.saved (below (inB.fresh heldB)), inA.saved (below (inA.fresh heldA)), heldA, heldB, lists]
    rfl
  · obtain rfl := inA.found r heldA
    obtain rfl := inB.found s heldB
    have status : b.status s = a.status r := congrArg Prod.snd looks
    have own : (b.record s).locator = (a.record r).locator := congrArg (fun look => look.1.1) looks
    by_cases saved : .saved ≤ a.status r
    · rw [look_of_record (inA.ignored saved), look_of_record (inB.ignored (status ▸ saved)), looks]
    · rw [inA.saved saved, inB.saved (status ▸ saved), heldA, heldB, lists, Option.map_some,
        Option.map_some, own]

end

/-- Saving under another locator comes to the same. -/
theorem Alike.save {locator k : Locator} {a b : Loader} (alike : Alike locator a b) (left : Sound a)
    (right : Sound b) (quiet : Quiet a b) (other : k ≠ locator) (definition : Definition) :
    Alike locator (a.save k definition).1 (b.save k definition).1 := by
  have inA := save_stores left k definition
  have inB := save_stores right k definition
  have hits {j : Locator} (apart : j ≠ locator) := alike.stands_iff left right other inA inB apart
  have same := alike.stored quiet other inA inB
  generalize (a.save k definition).1 = a', (a.save k definition).2 = x at *
  generalize (b.save k definition).1 = b', (b.save k definition).2 = y at *
  refine ⟨fun j apart => ?_, fun i j first second => ?_⟩
  · rw [inA.entry, inB.entry]
    by_cases there : k = j
    · rw [if_pos there, if_pos there, Option.map_some, Option.map_some, same]
    rw [if_neg there, if_neg there]
    obtain ⟨heldA, heldB⟩ | ⟨r, s, heldA, heldB, looks⟩ := alike.counterpart apart
    · rw [heldA, heldB]
      rfl
    · rw [heldA, heldB, Option.map_some, Option.map_some]
      have hit := hits apart
      rw [heldA, heldB, Option.some.injEq, Option.some.injEq] at hit
      by_cases this : r = x
      · rw [this, hit.mpr this, same]
      · rw [look_of_record (inA.others r (left.known heldA) this),
          look_of_record (inB.others s (right.known heldB) (mt hit.mp this)), looks]
  · rw [inA.entry, inA.entry, inB.entry, inB.entry]
    by_cases one : k = i <;> by_cases two : k = j
    · rw [if_pos one, if_pos one, if_pos two, if_pos two]
      exact iff_of_true rfl rfl
    · rw [if_pos one, if_pos one, if_neg two, if_neg two, eq_comm, @eq_comm _ (some x)]
      exact hits second
    · rw [if_neg one, if_neg one, if_pos two, if_pos two]
      exact hits first
    · rw [if_neg one, if_neg one, if_neg two, if_neg two]
      exact alike.split i j first second

/-! What concerns the locator alone. -/

section

variable {l : Loader} {locator : Locator} {r x : RecordId} {registration : Registration}

theorem point_spares (l : Loader) (locator : Locator) (r : RecordId) :
    Spares locator l ((l.point locator r).setSecondLocator r locator) := by
  refine ⟨fun k other => ?_, fun k x _ _ => look_setSecondLocator ..⟩
  exact (entry_point _ _ _ _).trans (if_neg (Ne.symm other))

theorem takePlaceholder_spares (l : Loader) (locator : Locator) (r : RecordId) :
    Spares locator l (l.takePlaceholder locator r) := by
  unfold takePlaceholder
  split
  · split
    · exact l.point_spares locator r
    · exact .refl l
  · exact .refl l

theorem takeFirstNamed_spares (l : Loader) (locator : Locator) (r : RecordId) :
    Spares locator l (l.takeFirstNamed locator r) := by
  unfold takeFirstNamed
  split
  · rename_i first _
    have taken : Spares locator l { l with firstNamed := none } := .of_same rfl rfl
    dsimp only
    split
    · exact taken.trans (Loader.point_spares { l with firstNamed := none } locator first)
    · exact taken
  · exact .refl l

theorem dropTakeover_spares (sound : Sound l) (locator : Locator) :
    Spares locator l (l.dropTakeover locator) := by
  unfold dropTakeover
  split
  · split
    · refine ⟨fun k other => (entry_point _ _ _ _).trans (if_neg (Ne.symm other)), fun k x _ held => ?_⟩
      refine look_of_record ((l.record_made locator .unknown x).trans (if_neg ?_))
      exact Renames.not_new (index_lt_of_known (sound.known held))
    · exact .refl l
  · exact .refl l

/-- A record that no other locator stands for can be saved, and one that has been saved is left alone. -/
theorem save_spares (held : l.entry? locator = some r)
    (alone : .saved ≤ l.status r ∨ ∀ k, l.entry? k = some r → k = locator) (definition : Definition) :
    Spares locator l (l.save locator definition).1 := by
  refine ⟨fun k _ => save_entry held definition k, fun k x other there => look_of_record ?_⟩
  by_cases saved : .saved ≤ l.status r
  · simp only [save, ensure, held, if_pos saved]
    rfl
  · have apart : x ≠ r := by
      rintro rfl
      exact other (alone.resolve_left saved k there)
    rw [save_held held saved, record_updateRecord, if_neg fun here => apart here.1.symm]

theorem endFetching_spares (alone : ∀ k, l.entry? k = some r → k = locator) :
    Spares locator l (l.endFetching r) := by
  refine ⟨fun k _ => (l.endFetching_rests r).entry k, fun k x other held => look_of_record ?_⟩
  by_cases fetching : l.status r = .fetching
  · rw [record_endFetching fetching, if_neg]
    rintro rfl
    exact other (alone k held)
  · rw [endFetching, if_neg fetching]

theorem nameAnonymous_spares (held : l.entry? locator = some r)
    (alone : ∀ k, l.entry? k = some r → k = locator) : Spares locator l (l.nameAnonymous locator) := by
  unfold nameAnonymous
  split
  · rename_i definition _
    have taken : Spares locator l { l with anonymous := none } := .of_same rfl rfl
    exact taken.trans (save_spares (l := { l with anonymous := none }) held (.inr alone) definition)
  · exact .refl l

/-! Registering with the locator. -/

theorem takePlaceholder_kept (settled : ∀ x, l.entry? locator = some x → l.status x ≠ .fetching ∨ x = r) :
    l.takePlaceholder locator r = l := by
  unfold takePlaceholder
  split
  · rename_i current held
    rw [if_neg]
    rintro ⟨fetching, apart⟩
    exact (settled current held).elim (· fetching) apart
  · rfl

theorem derive_other (other : l.aim locator registration ≠ locator) :
    l.defineDerived registration (some locator) =
      (l.save (l.aim locator registration) registration.definition).1.takePlaceholder locator
        (l.save (l.aim locator registration) registration.definition).2 := by
  have named : (registration.definition.id.bind (l.resolve · none)).or (some locator) =
      some (l.aim locator registration) := by
    rw [aim, named?]
    change (registration.id.bind (l.resolve · none)).or (some locator) = _
    cases registration.id.bind (l.resolve · none) <;> rfl
  have apart : some locator ≠ some (l.aim locator registration) := fun same =>
    other (Option.some.inj same).symm
  simp only [defineDerived, Option.isNone_some, Bool.false_and, Bool.false_eq_true, if_false, register, named,
    if_neg apart]

theorem derive_own (own : l.aim locator registration = locator) :
    l.defineDerived registration (some locator) =
      ((l.dropTakeover locator).save locator registration.definition).1.takePlaceholder locator
        ((l.dropTakeover locator).save locator registration.definition).2 := by
  have named : (registration.definition.id.bind (l.resolve · none)).or (some locator) = some locator := by
    rw [aim, named?] at own
    change (registration.id.bind (l.resolve · none)).or (some locator) = _
    cases here : registration.id.bind (l.resolve · none) with
    | none => rfl
    | some k =>
      rw [here, Option.getD_some] at own
      rw [own]
      rfl
  simp only [defineDerived, Option.isNone_some, Bool.false_and, Bool.false_eq_true, if_false, register, named,
    if_true]

/-- The first module that is registered under another locator takes the place of what is being retrieved. It
has been ready before, or it is only saved. -/
theorem derive_first (sound : Sound l) (held : l.entry? locator = some r) (fetching : l.status r = .fetching)
    (alone : ∀ k, l.entry? k = some r → k = locator) (other : l.aim locator registration ≠ locator) :
    let l' := l.defineDerived registration (some locator)
    ∃ x, l'.entry? locator = some x ∧ l'.entry? (l.aim locator registration) = some x ∧
      (l'.record x).secondLocator.isSome = true ∧ .saved ≤ l'.status x ∧
      (l.entry? (l.aim locator registration) = some x ∧ .ready ≤ l.status x ∧ l'.look x = l.look x ∨
        l'.status x = .saved ∧
          ∀ y, l.entry? (l.aim locator registration) = some y → ¬ .ready ≤ l.status y) := by
  rw [derive_other other]
  have stores := save_stores sound (l.aim locator registration) registration.definition
  have saved := (l.save_saves (l.aim locator registration) registration.definition
    (Clears.refl sound _).inside).saved
  generalize l.aim locator registration = k at *
  generalize (l.save k registration.definition).1 = mid, (l.save k registration.definition).2 = x at *
  have apart : r ≠ x := by
    rintro rfl
    exact other (alone k (stores.stands (sound.known held)))
  have there : mid.entry? locator = some r := by rw [stores.entry, if_neg other, held]
  have waits : mid.status r = .fetching := by
    rw [status, stores.others r (sound.known held) apart]
    exact fetching
  have taken : mid.takePlaceholder locator x = (mid.point locator x).setSecondLocator x locator := by
    simp only [takePlaceholder, there]
    exact if_pos ⟨waits, apart⟩
  have look := look_setSecondLocator (mid.point locator x) x locator x
  have statuses : ((mid.point locator x).setSecondLocator x locator).status x = mid.status x :=
    congrArg Prod.snd look
  rw [taken]
  refine ⟨x, (entry_point ..).trans (if_pos rfl), (entry_point ..).trans ?_, ?_, statuses ▸ saved, ?_⟩
  · rw [if_neg (Ne.symm other), stores.entry, if_pos rfl]
  · have known := Status.ne_unknown_of_le (a := .saved) (by decide) saved
    have record := record_updateRecord_inside (l := mid.point locator x)
      (index_lt_of_known (l := mid) known) (fun record => { record with secondLocator := some locator }) x
    rw [if_pos rfl] at record
    rw [setSecondLocator, record]
    rfl
  · by_cases before : .saved ≤ l.status x
    · have same := stores.ignored before
      have here := stores.stands (Status.ne_unknown_of_le (a := .saved) (by decide) before)
      by_cases ready : .ready ≤ l.status x
      · exact .inl ⟨here, ready, look.trans (look_of_record same)⟩
      · refine .inr ⟨?_, fun y held => Option.some.inj (here.symm.trans held) ▸ ready⟩
        rw [statuses, status, same]
        change l.status x = .saved
        revert before ready
        cases l.status x <;> simp [Status.le_iff, Status.code]
    · refine .inr ⟨statuses.trans (congrArg Prod.snd (stores.saved before)), fun y held ready => before ?_⟩
      cases stores.found y held
      exact Status.le_trans (by decide) ready

/-- What has been saved for the locator stays while others are registered. -/
theorem derive_next (sound : Sound l) (held : l.entry? locator = some x) (saved : .saved ≤ l.status x)
    (other : l.aim locator registration ≠ locator) :
    let l' := l.defineDerived registration (some locator)
    l'.entry? locator = some x ∧ l'.record x = l.record x ∧
      ∀ k y, k ≠ locator → l.entry? k = some y → l'.entry? k = some y := by
  rw [derive_other other]
  have stores := save_stores sound (l.aim locator registration) registration.definition
  generalize l.aim locator registration = k at *
  generalize (l.save k registration.definition).1 = mid, (l.save k registration.definition).2 = y at *
  have there : mid.entry? locator = some x := by rw [stores.entry, if_neg other, held]
  have same : mid.record x = l.record x := by
    by_cases here : x = y
    · subst here
      exact stores.ignored saved
    · exact stores.others x (sound.known held) here
  have kept : mid.takePlaceholder locator y = mid := takePlaceholder_kept fun z found => by
    obtain rfl := Option.some.inj (there.symm.trans found)
    refine .inl ?_
    rw [status, same]
    exact Status.ne_fetching (by decide) saved
  rw [kept]
  exact ⟨there, same, fun j z _ found => stores.keeps found⟩

/-- A module of the locator's own is saved in the record that has been waiting for it. -/
theorem derive_waiting (sound : Sound l) (held : l.entry? locator = some r)
    (fetching : l.status r = .fetching) (here : (l.record r).locator = locator)
    (own : l.aim locator registration = locator) :
    let l' := l.defineDerived registration (some locator)
    l'.entry? locator = some r ∧ l'.look r = (l.offer locator registration.definition, .saved) := by
  have below : ¬ .saved ≤ l.status r := by
    rw [fetching]
    decide
  have undropped : l.dropTakeover locator = l := by
    simp only [dropTakeover, held]
    refine if_neg fun taken => ?_
    cases fetching.symm.trans taken.2
  rw [derive_own own, undropped]
  have stores := save_stores sound locator registration.definition
  have look := stores.saved
  obtain same := stores.found r held
  rw [← same] at look
  have there : Loader.entry? (l.save locator registration.definition).1 locator = some r := by
    rw [stores.entry, if_pos rfl, same]
  rw [takePlaceholder_kept fun z found => ?_]
  · refine ⟨there, (look below).trans ?_⟩
    rw [held, Option.map_some, Option.getD_some, here]
    rfl
  · rw [← same]
    exact .inr (Option.some.inj (found.symm.trans there))

/-- The locator goes back to a module of its own if the one that has taken it over is not ready. -/
theorem derive_back (held : l.entry? locator = some x)
    (second : (l.record x).secondLocator.isSome = true) (saved : l.status x = .saved)
    (own : l.aim locator registration = locator) :
    let l' := l.defineDerived registration (some locator)
    l'.entry? locator = some ⟨l.records.size⟩ ∧
      l'.look ⟨l.records.size⟩ = (l.offer locator registration.definition, .saved) := by
  have dropped : l.dropTakeover locator =
      (l.newRecord locator .unknown).1.point locator ⟨l.records.size⟩ := by
    simp only [dropTakeover, held]
    exact if_pos ⟨second, saved⟩
  have fresh : (l.dropTakeover locator).record ⟨l.records.size⟩ = { locator, status := .unknown } := by
    rw [dropped, l.record_made, if_pos rfl]
  have there : Loader.entry? (l.dropTakeover locator) locator = some ⟨l.records.size⟩ := by
    rw [dropped]
    exact (entry_point ..).trans (if_pos rfl)
  have inside : l.records.size < (l.dropTakeover locator).records.size := by
    rw [dropped, show ((l.newRecord locator .unknown).1.point locator ⟨l.records.size⟩).records.size =
      l.records.size + 1 from Array.size_push _]
    exact Nat.lt_succ_self _
  have quiet : Quiet l (l.dropTakeover locator) := by
    rw [dropped]
    exact ⟨rfl, rfl, rfl, rfl⟩
  have offer := quiet.offer locator registration.definition
  rw [derive_own own]
  clear dropped quiet
  generalize l.dropTakeover locator = d at *
  have below : ¬ .saved ≤ d.status ⟨l.records.size⟩ := by
    rw [status, fresh]
    exact Status.not_le.mpr (show Status.unknown < .saved by decide)
  have record := record_updateRecord_inside (r := ⟨l.records.size⟩) inside
    (·.save registration.definition (d.resolveDependencies locator registration.definition.dependencies))
    ⟨l.records.size⟩
  rw [if_pos rfl, fresh] at record
  rw [save_held there below registration.definition]
  generalize here : d.updateRecord ⟨l.records.size⟩ _ = after at *
  have same : after.entry? locator = some ⟨l.records.size⟩ := by
    rw [← here]
    exact there
  have kept : after.takePlaceholder locator ⟨l.records.size⟩ = after :=
    takePlaceholder_kept fun z found => .inr (Option.some.inj (found.symm.trans same))
  dsimp only
  rw [kept]
  refine ⟨same, ?_⟩
  rw [look, status, record, ← offer]
  rfl

/-- What has been saved keeps the locator, unless it has taken it over and is not ready. -/
theorem derive_late (held : l.entry? locator = some x) (saved : .saved ≤ l.status x)
    (late : ¬ ((l.record x).secondLocator.isSome = true ∧ l.status x = .saved))
    (own : l.aim locator registration = locator) :
    let l' := l.defineDerived registration (some locator)
    l'.registry = l.registry ∧ l'.records = l.records := by
  have undropped : l.dropTakeover locator = l := by
    simp only [dropTakeover, held]
    exact if_neg late
  have saving : l.save locator registration.definition = (l.note (.ignored locator), x) := by
    simp only [save, ensure, held]
    exact if_pos saved
  rw [derive_own own, undropped, saving, takePlaceholder_kept fun z found => .inl ?_]
  · exact ⟨rfl, rfl⟩
  · obtain rfl := Option.some.inj (held.symm.trans found)
    exact Status.ne_fetching (by decide) saved

/-! All registrations of a resource. -/

/-- A locator stands for something saved, or for a record of its own that is being retrieved. -/
def Guards (l : Loader) (locator : Locator) : Prop :=
  ∃ x, l.entry? locator = some x ∧
    (.saved ≤ l.status x ∨ l.status x = .fetching ∧ (l.record x).locator = locator ∧
      ∀ k, l.entry? k = some x → k = locator)

theorem Guards.derive (guards : l.Guards locator) (sound : Sound l) (registration : Registration) :
    Loader.Guards (l.defineDerived registration (some locator)) locator := by
  obtain ⟨x, held, saved | ⟨fetching, here, alone⟩⟩ := guards
  · by_cases own : l.aim locator registration = locator
    · by_cases taken : (l.record x).secondLocator.isSome = true ∧ l.status x = .saved
      · obtain ⟨there, look⟩ := derive_back held taken.1 taken.2 own
        exact ⟨_, there, .inl (saved_of_look look)⟩
      · obtain ⟨registry, records⟩ := derive_late held saved taken own
        refine ⟨x, (congrArg (OrderedMap.get? · locator) registry).trans held, .inl ?_⟩
        rw [status, record, records]
        exact saved
    · obtain ⟨there, same, -⟩ := derive_next sound held saved own
      refine ⟨x, there, .inl ?_⟩
      rw [status, same]
      exact saved
  · by_cases own : l.aim locator registration = locator
    · obtain ⟨there, look⟩ := derive_waiting sound held fetching here own
      exact ⟨x, there, .inl (saved_of_look look)⟩
    · obtain ⟨y, there, -, -, saved, -⟩ := derive_first sound held fetching alone own
      exact ⟨y, there, .inl saved⟩

theorem park_spares (l : Loader) (locator : Locator) (definition : Definition) :
    Spares locator l (l.park definition) := by
  have parked : Spares locator l { l with anonymous := some definition } := .of_same rfl rfl
  unfold park
  dsimp only
  split
  · unfold report emit
    dsimp only
    split <;> exact parked.trans (.of_same rfl rfl)
  · exact parked

theorem rememberFirst_spares (l : Loader) (locator : Locator) (r : RecordId) :
    Spares locator l (l.rememberFirst r) := by
  unfold rememberFirst
  split <;> exact .of_same rfl rfl

/-- A registration on behalf of the locator that is the locator's own shows nowhere else. -/
theorem Guards.spares (guards : l.Guards locator) (sound : Sound l)
    (own : l.aim locator registration = locator) :
    Spares locator l (l.defineDerived registration (some locator)) := by
  obtain ⟨x, held, state⟩ := guards
  have dropping := dropTakeover_spares sound locator
  rw [derive_own own]
  refine Spares.trans (dropping.trans ?_) (takePlaceholder_spares _ locator _)
  by_cases taken : (l.record x).secondLocator.isSome = true ∧ l.status x = .saved
  · have dropped : l.dropTakeover locator =
        (l.newRecord locator .unknown).1.point locator ⟨l.records.size⟩ := by
      simp only [dropTakeover, held]
      exact if_pos taken
    have there : Loader.entry? (l.dropTakeover locator) locator = some ⟨l.records.size⟩ := by
      rw [dropped]
      exact (entry_point ..).trans (if_pos rfl)
    refine save_spares there (.inr fun k new => ?_) _
    by_contra other
    rw [dropping.entry k other] at new
    exact Renames.not_new (index_lt_of_known (sound.known new)) rfl
  · have undropped : l.dropTakeover locator = l := by
      simp only [dropTakeover, held]
      exact if_neg taken
    rw [undropped]
    exact save_spares held (state.imp id fun fetching => fetching.2.2) _

/-- Both ways to register do the same beside the locator. -/
theorem Alike.define {a b : Loader} (alike : Alike locator a b) (left : Sound a) (right : Sound b)
    (quiet : Quiet a b) (guards : a.Guards locator) (held : b.entry? locator = some r)
    (alone : ∀ k, b.entry? k = some r → k = locator) (registration : Registration) :
    Alike locator (a.defineDerived registration (some locator)) (b.define registration) := by
  have named := quiet.named registration
  by_cases own : a.aim locator registration = locator
  · refine alike.spared (guards.spares left own) ?_
    cases meant : b.named? registration with
    | none =>
      rw [define_unnamed meant]
      exact b.park_spares locator _
    | some k =>
      rw [aim, ← named, meant, Option.getD_some] at own
      subst own
      rw [define_named meant]
      exact (save_spares held (.inr alone) _).trans (rememberFirst_spares _ _ _)
  · cases meant : b.named? registration with
    | none =>
      rw [aim, ← named, meant, Option.getD_none] at own
      exact absurd rfl own
    | some k =>
      have here : a.aim locator registration = k := by rw [aim, ← named, meant, Option.getD_some]
      rw [derive_other own, define_named meant]
      rw [here] at own ⊢
      exact (alike.save left right quiet own _).spared (takePlaceholder_spares _ _ _)
        (rememberFirst_spares _ _ _)

end

end Loader

end ModuleLoader
