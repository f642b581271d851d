import ModuleLoader.Proofs.Effects.Edits

/-! What registering changes. A registration saves one record and leaves every load alone, whatever
its locator stood for before. -/
namespace ModuleLoader.Loader

/-- A locator stands for a saved record, and nothing else has changed for the worse. -/
structure Saves (l : Loader) (locator : Locator) (l' : Loader) (r : RecordId) : Prop where
  quiet : Quiet l l'
  entry : ∀ x, l'.entry? x = if locator = x then some r else l.entry? x
  saved : .saved ≤ l'.status r
  rises : ∀ x, l.status x ≤ l'.status x
  named : l'.firstNamed = l.firstNamed

theorem save_saves (l : Loader) (locator : Locator) (definition : Definition)
    (inside : (l.ensure locator .unknown).2.index < (l.ensure locator .unknown).1.records.size) :
    Saves l locator (l.save locator definition).1 (l.save locator definition).2 := by
  have quiet := l.ensure_quiet locator .unknown
  have named := l.ensure_named locator .unknown
  have entry := fun x => l.entry_ensure locator x .unknown
  have rises := l.ensure_rises locator .unknown
  unfold save
  generalize l.ensure locator .unknown = made at *
  obtain ⟨l₁, r⟩ := made
  dsimp only at *
  split
  · rename_i saved
    exact ⟨quiet.trans (l₁.note_quiet _), entry, saved, rises, named⟩
  · rename_i below
    have saving : (l₁.record r).status ≤
        ((l₁.record r).save definition (l₁.resolveDependencies locator definition.dependencies)).status :=
      Nat.le_of_lt (Status.not_le.mp below)
    refine ⟨quiet.trans (l₁.updateRecord_quiet r _), entry, ?_, ?_, named⟩
    · rw [status_updateRecord, if_pos ⟨rfl, inside⟩]
      exact Status.le_refl _
    · intro x
      exact Status.le_trans (rises x) (l₁.updateRecord_rises saving x)

theorem save_held {l : Loader} {locator : Locator} {r : RecordId} (held : l.entry? locator = some r)
    (below : ¬ .saved ≤ l.status r) (definition : Definition) :
    l.save locator definition =
      (l.updateRecord r (·.save definition (l.resolveDependencies locator definition.dependencies)), r) := by
  simp only [save, ensure, held, if_neg below]

/-- A record can be saved under a locator whose entry may have been cleared just before. -/
structure Clears (l : Loader) (locator : Locator) (l' : Loader) : Prop where
  quiet : Quiet l l'
  entry : ∀ x, locator ≠ x → l'.entry? x = l.entry? x
  inside : (l'.ensure locator .unknown).2.index < (l'.ensure locator .unknown).1.records.size
  rises : ∀ x, l.status x ≤ l'.status x
  named : l'.firstNamed = l.firstNamed

theorem Clears.refl {l : Loader} (sound : Sound l) (locator : Locator) : Clears l locator l :=
  ⟨.refl l, fun _ _ => rfl, l.ensure_inside sound locator .unknown, fun _ => Status.le_refl _, rfl⟩

theorem dropTakeover_clears {l : Loader} (sound : Sound l) (locator : Locator) :
    Clears l locator (l.dropTakeover locator) := by
  unfold dropTakeover
  split
  · split
    · have fresh : ((l.newRecord locator .unknown).1.point locator ⟨l.records.size⟩).ensure
          locator .unknown =
          ((l.newRecord locator .unknown).1.point locator ⟨l.records.size⟩, ⟨l.records.size⟩) := by
        rw [ensure, entry_point, if_pos rfl]
      refine ⟨⟨rfl, rfl, rfl, rfl⟩, ?_, ?_, ?_, rfl⟩
      · intro x other
        exact (entry_point _ _ _ _).trans (if_neg other)
      · change (Loader.ensure ((l.newRecord locator .unknown).1.point locator ⟨l.records.size⟩)
          locator .unknown).2.index < _
        simp only [newRecord] at fresh ⊢
        rw [fresh]
        simp [point]
      · intro x
        have status : (Loader.point (l.newRecord locator .unknown).1 locator
            (l.newRecord locator .unknown).2).status x = _ := l.status_newRecord locator .unknown x
        refine Status.le_trans ?_ (Nat.le_of_eq (congrArg Status.code status.symm))
        split
        · rename_i new
          subst new
          refine Nat.le_of_eq (congrArg Status.code (Decidable.byContradiction fun known => ?_))
          exact Nat.lt_irrefl _ (index_lt_of_known known)
        · exact Status.le_refl _
    · exact .refl sound locator
  · exact .refl sound locator

/-- Saved under a locator, a record takes the place of whatever was there. -/
theorem Clears.orderly {l cleared l' : Loader} {locator : Locator} {r : RecordId}
    (clears : Clears l locator cleared) (saves : Saves cleared locator l' r) : Orderly l l' := by
  intro sound
  have rises : ∀ x, l.status x ≤ l'.status x :=
    fun x => Status.le_trans (clears.rises x) (saves.rises x)
  refine ⟨⟨?_, ?_⟩, rises, ?_⟩
  · intro x y entry
    rw [saves.entry] at entry
    split at entry
    · cases entry
      exact Status.ne_unknown_of_le (a := .saved) (by decide) saves.saved
    · rename_i other
      rw [clears.entry x other] at entry
      exact Status.ne_unknown_of_le (sound.known entry) (rises y)
  · intro x first
    rw [saves.named, clears.named] at first
    exact Status.le_trans (sound.named first) (rises x)
  · intro x y entry
    rw [saves.entry]
    split
    · exact ⟨r, rfl, fun _ => Status.le_trans (by decide) saves.saved⟩
    · rename_i other
      rw [clears.entry x other]
      exact ⟨y, entry, fun fetched => Status.le_trans fetched (rises y)⟩

theorem save_orderly (l : Loader) (locator : Locator) (definition : Definition) :
    Orderly l (l.save locator definition).1 := by
  intro sound
  have clears := Clears.refl sound locator
  exact clears.orderly (l.save_saves locator definition clears.inside) sound

theorem takePlaceholder_orderly {l : Loader} {r : RecordId} (saved : .saved ≤ l.status r)
    (locator : Locator) : Orderly l (l.takePlaceholder locator r) := by
  unfold takePlaceholder
  split
  · split
    · exact (l.point_orderly (Status.le_trans (by decide) saved)).trans
        (setSecondLocator_orderly _ r locator)
    · exact .refl l
  · exact .refl l

theorem rememberFirst_orderly {l : Loader} {r : RecordId} (saved : .saved ≤ l.status r) :
    Orderly l (l.rememberFirst r) := by
  unfold rememberFirst
  split
  · intro sound
    refine ⟨⟨sound.known, ?_⟩, fun _ => Status.le_refl _, fun {_ y} held => ⟨y, held, id⟩⟩
    intro x first
    cases first
    exact saved
  · exact .refl l

theorem park_orderly (l : Loader) (definition : Definition) : Orderly l (l.park definition) := by
  have parked : Orderly l { l with anonymous := some definition } := .of_same rfl rfl rfl
  unfold park
  dsimp only
  split
  · exact parked.trans (emit_orderly _ _)
  · exact parked

/-- The state in which a registration is saved. -/
theorem cleared_clears {l : Loader} (sound : Sound l) (locator : Locator) (derived : Option Locator) :
    Clears l locator (if derived = some locator then l.dropTakeover locator else l) := by
  split
  · exact dropTakeover_clears sound locator
  · exact .refl sound locator

theorem register_orderly (l : Loader) (registration : Registration) (derived : Option Locator) :
    Orderly l (l.register registration derived) := by
  intro sound
  unfold register
  dsimp only
  split
  · exact l.park_orderly _ sound
  · rename_i locator _
    have clears := cleared_clears sound locator derived
    have saves := save_saves _ locator registration.definition clears.inside
    have orderly := clears.orderly saves
    cases derived with
    | some derived => exact orderly.trans (takePlaceholder_orderly saves.saved _) sound
    | none => exact orderly.trans (rememberFirst_orderly saves.saved) sound

theorem defineDerived_orderly (l : Loader) (registration : Registration) (derived : Option Locator) :
    Orderly l (l.defineDerived registration derived) := by
  unfold defineDerived
  dsimp only
  split
  · exact (l.emit_orderly _).trans (register_orderly _ _ _)
  · exact l.register_orderly _ _

end ModuleLoader.Loader
