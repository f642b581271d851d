import ModuleLoader.Loader.Compiling
import ModuleLoader.Loader.Loading

/-! What the operations of a loader leave as it was. Loads in progress are touched by loading alone, a
status only rises, and what a locator stands for is exchanged for nothing less far on. -/
namespace ModuleLoader.Loader

/-- Loads in progress, and the ground they stand on, are as they were. -/
structure Quiet (l l' : Loader) : Prop where
  config : l'.config = l.config
  resolver : l'.resolver = l.resolver
  ledger : l'.ledger = l.ledger
  barriers : l'.barriers = l.barriers

theorem Quiet.refl (l : Loader) : Quiet l l := ⟨rfl, rfl, rfl, rfl⟩

theorem Quiet.trans {a b c : Loader} (ab : Quiet a b) (bc : Quiet b c) : Quiet a c :=
  ⟨bc.config.trans ab.config, bc.resolver.trans ab.resolver, bc.ledger.trans ab.ledger,
    bc.barriers.trans ab.barriers⟩

/-- Every locator stands for a record that has been requested or saved, and so does the place for the
first module of a package. -/
structure Sound (l : Loader) : Prop where
  known : ∀ {locator r}, l.entry? locator = some r → l.status r ≠ .unknown
  named : ∀ {r}, l.firstNamed = some r → .saved ≤ l.status r

/-- No record falls back, and no locator is given up or sent back to a retrieval that is over. -/
structure Grows (l l' : Loader) : Prop where
  rises : ∀ r, l.status r ≤ l'.status r
  keeps : ∀ {locator r}, l.entry? locator = some r →
    ∃ r', l'.entry? locator = some r' ∧ (.fetched ≤ l.status r → .fetched ≤ l'.status r')

theorem Grows.refl (l : Loader) : Grows l l := ⟨fun _ => Status.le_refl _, fun {_ r} h => ⟨r, h, id⟩⟩

theorem Grows.trans {a b c : Loader} (ab : Grows a b) (bc : Grows b c) : Grows a c := by
  refine ⟨fun r => Status.le_trans (ab.rises r) (bc.rises r), ?_⟩
  intro locator r entry
  obtain ⟨middle, held, first⟩ := ab.keeps entry
  obtain ⟨last, kept, second⟩ := bc.keeps held
  exact ⟨last, kept, second ∘ first⟩

/-- From a sound state to a sound state, and forwards. -/
def Orderly (l l' : Loader) : Prop := Sound l → Sound l' ∧ Grows l l'

theorem Orderly.refl (l : Loader) : Orderly l l := fun sound => ⟨sound, .refl l⟩

theorem Orderly.trans {a b c : Loader} (ab : Orderly a b) (bc : Orderly b c) : Orderly a c := by
  intro sound
  obtain ⟨sound, grown⟩ := ab sound
  obtain ⟨sound, further⟩ := bc sound
  exact ⟨sound, grown.trans further⟩

/-- Where the registry stays, rising statuses are all there is to show. -/
theorem Orderly.of_rising {l l' : Loader} (registry : l'.registry = l.registry)
    (rises : ∀ r, l.status r ≤ l'.status r)
    (named : ∀ r, l'.firstNamed = some r → l.firstNamed = some r) : Orderly l l' := by
  intro sound
  have entry : ∀ locator, l'.entry? locator = l.entry? locator := by
    intro locator
    exact congrArg (OrderedMap.get? · locator) registry
  refine ⟨⟨?_, ?_⟩, rises, ?_⟩
  · intro locator r held
    exact Status.ne_unknown_of_le (sound.known ((entry locator).symm.trans held)) (rises r)
  · intro r first
    exact Status.le_trans (sound.named (named r first)) (rises r)
  · intro locator r held
    exact ⟨r, (entry locator).trans held, fun fetched => Status.le_trans fetched (rises r)⟩

theorem Orderly.of_same {l l' : Loader} (registry : l'.registry = l.registry)
    (records : l'.records = l.records) (named : l'.firstNamed = l.firstNamed) : Orderly l l' := by
  refine .of_rising registry ?_ ?_
  · intro r
    simp only [status, record, records]
    exact Status.le_refl _
  · intro r first
    exact named ▸ first

theorem foldl_orderly {α : Type} {f : Loader → α → Loader} (each : ∀ l a, Orderly l (f l a))
    (l : Loader) (as : List α) : Orderly l (as.foldl f l) := by
  induction as generalizing l with
  | nil => exact .refl l
  | cons a as ih => exact (each l a).trans (ih (f l a))

/-! Records. -/

theorem record_updateRecord (l : Loader) (r x : RecordId) (f : Record → Record) :
    (l.updateRecord r f).record x =
      if r = x ∧ x.index < l.records.size then f (l.record x) else l.record x := by
  obtain ⟨i⟩ := r
  obtain ⟨j⟩ := x
  simp only [record, updateRecord, Table.get_modify, RecordId.mk.injEq]

/-- A change is made to one record. -/
theorem updateRecord_cases (l : Loader) (r : RecordId) (f : Record → Record) (x : RecordId) :
    (l.updateRecord r f).record x = l.record x ∨
      x = r ∧ (l.updateRecord r f).record x = f (l.record r) := by
  rw [record_updateRecord]
  split
  · rename_i here
    obtain ⟨rfl, -⟩ := here
    exact .inr ⟨rfl, rfl⟩
  · exact .inl rfl

theorem record_outside {l : Loader} {r : RecordId} (outside : l.records.size ≤ r.index) :
    l.record r = default := by
  simp only [record, Table.get, Array.getD_eq_getD_getElem?]
  rw [Array.getElem?_eq_none outside]
  rfl

/-- A record is made where there was none. -/
theorem newRecord_cases (l : Loader) (locator : Locator) (s : Status) (x : RecordId) :
    (l.newRecord locator s).1.record x = l.record x ∨
      l.record x = default ∧ (l.newRecord locator s).1.record x = { locator, status := s } := by
  have pushed : (l.newRecord locator s).1.record x =
      if x.index = l.records.size then { locator, status := s } else l.record x := Table.get_push ..
  rw [pushed]
  split
  · rename_i new
    exact .inr ⟨record_outside (Nat.le_of_eq new.symm), rfl⟩
  · exact .inl rfl

theorem index_lt_of_known {l : Loader} {r : RecordId} (known : l.status r ≠ .unknown) :
    r.index < l.records.size := by
  rcases Nat.lt_or_ge r.index l.records.size with inside | outside
  · exact inside
  · refine absurd ?_ known
    rw [status, record_outside outside]
    rfl

theorem record_updateRecord_inside {l : Loader} {r : RecordId} (inside : r.index < l.records.size)
    (f : Record → Record) (x : RecordId) :
    (l.updateRecord r f).record x = if x = r then f (l.record x) else l.record x := by
  rw [record_updateRecord]
  by_cases same : x = r
  · subst same
    rw [if_pos ⟨rfl, inside⟩, if_pos rfl]
  · rw [if_neg (Ne.symm same ·.1), if_neg same]

theorem status_updateRecord (l : Loader) (r x : RecordId) (f : Record → Record) :
    (l.updateRecord r f).status x =
      if r = x ∧ x.index < l.records.size then (f (l.record x)).status else l.status x := by
  rw [status, record_updateRecord]
  split <;> rfl

theorem status_newRecord (l : Loader) (locator : Locator) (s : Status) (x : RecordId) :
    (l.newRecord locator s).1.status x = if x = (l.newRecord locator s).2 then s else l.status x := by
  obtain ⟨i⟩ := x
  simp only [newRecord, status, record, Table.get_push, RecordId.mk.injEq]
  split <;> rfl

theorem updateRecord_rises (l : Loader) {r : RecordId} {f : Record → Record}
    (rising : (l.record r).status ≤ (f (l.record r)).status) (x : RecordId) :
    l.status x ≤ (l.updateRecord r f).status x := by
  rw [status, status]
  obtain same | ⟨rfl, same⟩ := l.updateRecord_cases r f x <;> rw [same]
  · exact Status.le_refl _
  · exact rising

theorem updateRecord_orderly (l : Loader) {r : RecordId} {f : Record → Record}
    (rising : (l.record r).status ≤ (f (l.record r)).status) : Orderly l (l.updateRecord r f) :=
  .of_rising rfl (l.updateRecord_rises rising) fun _ => id

theorem updateRecord_quiet (l : Loader) (r : RecordId) (f : Record → Record) :
    Quiet l (l.updateRecord r f) := ⟨rfl, rfl, rfl, rfl⟩

theorem note_orderly (l : Loader) (e : Event) : Orderly l (l.note e) := .of_same rfl rfl rfl

theorem note_quiet (l : Loader) (e : Event) : Quiet l (l.note e) := ⟨rfl, rfl, rfl, rfl⟩

theorem setStatus_orderly (l : Loader) {r : RecordId} {s : Status} (rising : l.status r ≤ s) :
    Orderly l (l.setStatus r s) :=
  (l.updateRecord_orderly (f := fun record => { record with status := s }) rising).trans
    (note_orderly _ _)

theorem setStatus_quiet (l : Loader) (r : RecordId) (s : Status) : Quiet l (l.setStatus r s) :=
  ⟨rfl, rfl, rfl, rfl⟩

theorem record_setStatus (l : Loader) (r x : RecordId) (s : Status) :
    (l.setStatus r s).record x =
      if r = x ∧ x.index < l.records.size then { l.record x with status := s } else l.record x :=
  l.record_updateRecord r x _

theorem status_setStatus (l : Loader) (r x : RecordId) (s : Status) :
    (l.setStatus r s).status x = if r = x ∧ x.index < l.records.size then s else l.status x :=
  l.status_updateRecord r x _

theorem setExports_orderly (l : Loader) (r : RecordId) (value : Value) :
    Orderly l (l.setExports r value) :=
  l.updateRecord_orderly (f := fun record => { record with exports := some value })
    (Status.le_refl _)

theorem setSecondLocator_orderly (l : Loader) (r : RecordId) (locator : Locator) :
    Orderly l (l.setSecondLocator r locator) :=
  l.updateRecord_orderly (f := fun record => { record with secondLocator := some locator })
    (Status.le_refl _)

theorem setInitiator_orderly (l : Loader) (r initiator : RecordId) :
    Orderly l (l.setInitiator r initiator) :=
  l.updateRecord_orderly (f := fun record => { record with initiator := some initiator })
    (Status.le_refl _)

theorem beginCompile_orderly (l : Loader) {r : RecordId} (interface : Value)
    (rising : l.status r ≤ .compiling) : Orderly l (l.beginCompile r interface) :=
  l.updateRecord_orderly (f := (·.beginCompile interface)) rising

/-! Reports. -/

theorem emit_quiet (l : Loader) (d : Diagnostic) : Quiet l (l.emit d) := by
  unfold emit
  split
  dsimp only
  split <;> exact ⟨rfl, rfl, rfl, rfl⟩

theorem emit_same (l : Loader) (d : Diagnostic) :
    (l.emit d).registry = l.registry ∧ (l.emit d).records = l.records ∧
      (l.emit d).firstNamed = l.firstNamed := by
  unfold emit
  split
  dsimp only
  split <;> exact ⟨rfl, rfl, rfl⟩

theorem emit_orderly (l : Loader) (d : Diagnostic) : Orderly l (l.emit d) :=
  .of_same (l.emit_same d).1 (l.emit_same d).2.1 (l.emit_same d).2.2

theorem reportAll_induction {P : Loader → Loader → Prop} (refl : ∀ l, P l l)
    (trans : ∀ {a b c}, P a b → P b c → P a c) (emitted : ∀ l d, P l (l.emit d))
    (l : Loader) (cs : List Condition) : P l (l.reportAll cs) := by
  induction cs generalizing l with
  | nil => exact refl l
  | cons c cs ih => exact trans (emitted l c.diagnostic) (ih (l.report c))

theorem reportAll_quiet (l : Loader) (cs : List Condition) : Quiet l (l.reportAll cs) :=
  reportAll_induction .refl .trans emit_quiet l cs

theorem reportAll_orderly (l : Loader) (cs : List Condition) : Orderly l (l.reportAll cs) :=
  reportAll_induction .refl .trans emit_orderly l cs

/-! What a locator stands for. -/

theorem entry_point (l : Loader) (locator x : Locator) (r : RecordId) :
    entry? (l.point locator r) x = if locator = x then some r else l.entry? x :=
  OrderedMap.get?_insert _ _ _ _

theorem point_orderly (l : Loader) {locator : Locator} {r : RecordId}
    (fetched : .fetched ≤ l.status r) : Orderly l (l.point locator r) := by
  intro sound
  have known : l.status r ≠ .unknown := Status.ne_unknown_of_le (a := .fetched) (by decide) fetched
  refine ⟨⟨?_, sound.named⟩, fun r => Status.le_refl _, ?_⟩
  · intro x y entry
    rw [entry_point] at entry
    split at entry
    · cases entry
      exact known
    · exact sound.known entry
  · intro x y entry
    rw [entry_point]
    split
    · exact ⟨r, rfl, fun _ => fetched⟩
    · exact ⟨y, entry, id⟩

theorem entry_remove (l : Loader) (locator x : Locator) :
    entry? (l.remove locator) x = if locator = x then none else l.entry? x :=
  OrderedMap.get?_erase _ _ _

theorem remove_sound {l : Loader} (sound : Sound l) (locator : Locator) : Sound (l.remove locator) := by
  refine ⟨?_, sound.named⟩
  intro x r entry
  rw [entry_remove] at entry
  split at entry
  · cases entry
  · exact sound.known entry

/-- There is nothing to forget. -/
theorem remove_absent {l : Loader} {locator : Locator} (absent : l.registry.contains locator = false) :
    Orderly l (l.remove locator) := by
  have none : l.entry? locator = none :=
    Option.isNone_iff_eq_none.mp (Option.isSome_eq_false_iff.mp absent)
  intro sound
  refine ⟨remove_sound sound locator, fun _ => Status.le_refl _, ?_⟩
  intro x r held
  refine ⟨r, ?_, id⟩
  rw [entry_remove, if_neg, held]
  rintro rfl
  rw [none] at held
  cases held

/-- What making sure of a locator amounts to. -/
theorem ensure_cases (l : Loader) (locator : Locator) (s : Status) :
    (∃ r, l.entry? locator = some r ∧ l.ensure locator s = (l, r)) ∨
    (l.entry? locator = none ∧ l.ensure locator s =
      ((l.newRecord locator s).1.point locator ⟨l.records.size⟩, ⟨l.records.size⟩)) := by
  unfold ensure
  split
  · rename_i r held
    exact .inl ⟨r, held, rfl⟩
  · rename_i absent
    exact .inr ⟨absent, rfl⟩

theorem ensure_quiet (l : Loader) (locator : Locator) (s : Status) :
    Quiet l (l.ensure locator s).1 := by
  obtain ⟨r, -, same⟩ | ⟨-, same⟩ := l.ensure_cases locator s
  · rw [same]
    exact .refl l
  · rw [same]
    exact ⟨rfl, rfl, rfl, rfl⟩

theorem ensure_named (l : Loader) (locator : Locator) (s : Status) :
    (l.ensure locator s).1.firstNamed = l.firstNamed := by
  obtain ⟨r, -, same⟩ | ⟨-, same⟩ := l.ensure_cases locator s <;> exact congrArg (·.1.firstNamed) same

theorem entry_ensure (l : Loader) (locator x : Locator) (s : Status) :
    entry? (l.ensure locator s).1 x =
      if locator = x then some (l.ensure locator s).2 else l.entry? x := by
  obtain ⟨r, held, same⟩ | ⟨-, same⟩ := l.ensure_cases locator s
  · rw [same]
    split
    · rename_i here
      rw [← here, held]
    · rfl
  · rw [same, entry_point]
    rfl

/-- The record was there before, or it is new and has the given status. -/
theorem ensure_status (l : Loader) (locator : Locator) (s : Status) (x : RecordId) :
    (l.ensure locator s).1.status x = l.status x ∨
      l.entry? locator = none ∧ x = (l.ensure locator s).2 ∧ l.status x = .unknown ∧
        (l.ensure locator s).1.status x = s := by
  obtain ⟨r, -, same⟩ | ⟨absent, same⟩ := l.ensure_cases locator s
  · rw [same]
    exact .inl rfl
  · rw [same]
    have status : ((l.newRecord locator s).1.point locator ⟨l.records.size⟩).status x =
        if x = ⟨l.records.size⟩ then s else l.status x := l.status_newRecord locator s x
    rw [status]
    split
    · rename_i new
      subst new
      exact .inr ⟨absent, rfl, Decidable.byContradiction fun known =>
        Nat.lt_irrefl _ (index_lt_of_known known), rfl⟩
    · exact .inl rfl

theorem ensure_rises (l : Loader) (locator : Locator) (s : Status) (x : RecordId) :
    l.status x ≤ (l.ensure locator s).1.status x := by
  obtain same | ⟨-, -, unknown, -⟩ := l.ensure_status locator s x
  · rw [same]
    exact Status.le_refl _
  · rw [unknown]
    exact Nat.zero_le _

theorem ensure_inside (l : Loader) (sound : Sound l) (locator : Locator) (s : Status) :
    (l.ensure locator s).2.index < (l.ensure locator s).1.records.size := by
  obtain ⟨r, held, same⟩ | ⟨-, same⟩ := l.ensure_cases locator s
  · rw [same]
    exact index_lt_of_known (sound.known held)
  · rw [same]
    simp [point, newRecord]

end ModuleLoader.Loader
