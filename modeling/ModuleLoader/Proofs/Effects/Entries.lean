import ModuleLoader.Proofs.Effects.Naming
import ModuleLoader.Proofs.Effects.Compiling

/-! How each operation changes the registry, up to all that one frame can do to it. -/
namespace ModuleLoader

open Loader (Sound Rests Becomes)

namespace Loader

/-! Operations that leave the registry alone. -/

/-- There is nothing to remove. -/
theorem remove_of_absent {l : Loader} {locator : Locator} (absent : l.entry? locator = none) :
    (l.remove locator).registry = l.registry := by
  have same := OrderedMap.erase_of_absent absent
  rw [remove]
  generalize l.registry = registry at *
  obtain ⟨entries, nodup⟩ := registry
  exact (OrderedMap.mk.injEq ..).mpr same

theorem note_rests (l : Loader) (e : Event) : Rests l (l.note e) := .of_same rfl rfl

theorem emit_becomes (l : Loader) (d : Diagnostic) : Becomes l (l.emit d) := by
  unfold emit
  split
  dsimp only
  split <;> exact .of_rests (.of_same rfl rfl) rfl rfl

theorem setStatus_rests (l : Loader) {r : RecordId} {s : Status} (rises : l.status r ≤ s)
    (settled : s ≠ .fetching) : Rests l (l.setStatus r s) :=
  .trans (b := l.updateRecord r fun record => { record with status := s })
    (.of_update l rfl rfl rises fun now => absurd now settled) (note_rests _ _)

theorem endFetching_rests (l : Loader) (r : RecordId) : Rests l (l.endFetching r) := by
  unfold endFetching
  split
  · rename_i fetching
    exact l.setStatus_rests (by rw [fetching]; decide) (by decide)
  · exact .refl l

/-! Operations that put records into the registry. -/

theorem record_made (l : Loader) (locator : Locator) (s : Status) (x : RecordId) :
    ((l.newRecord locator s).1.point locator ⟨l.records.size⟩).record x =
      if x = ⟨l.records.size⟩ then { locator, status := s } else l.record x := by
  obtain ⟨i⟩ := x
  apply (Table.get_push l.records _ i).trans
  simp only [RecordId.mk.injEq]
  rfl

theorem made_adds (l : Loader) (locator : Locator) {s : Status} (known : s ≠ .unknown) :
    Adds l locator ((l.newRecord locator s).1.point locator ⟨l.records.size⟩) := by
  have record := l.record_made locator s
  have here := (record ⟨l.records.size⟩).trans (if_pos rfl)
  refine ⟨fun x => entry_point _ _ _ _, Array.size_push _, ?_, ?_, ?_, ?_, rfl⟩
  · rw [here]
  · rw [here]
  · rw [status, here]
    exact known
  · intro x other
    rw [record, if_neg other]

/-- A new record is saved at once. -/
theorem made_saved_adds (l : Loader) (locator : Locator) (definition : Definition)
    (dependencies : List Locator) :
    let made := (l.newRecord locator .unknown).1.point locator ⟨l.records.size⟩
    let saved := made.updateRecord ⟨l.records.size⟩ (·.save definition dependencies)
    Adds l locator saved ∧ saved.status ⟨l.records.size⟩ = .saved := by
  intro made saved
  have inside : l.records.size < made.records.size := by
    rw [show made.records.size = l.records.size + 1 from Array.size_push _]
    exact Nat.lt_succ_self _
  have record := record_updateRecord_inside (l := made) (r := ⟨l.records.size⟩) inside
    (·.save definition dependencies)
  have here : saved.record ⟨l.records.size⟩ =
      Record.save { locator, status := .unknown } definition dependencies := by
    rw [record, if_pos rfl, l.record_made, if_pos rfl]
  refine ⟨⟨fun x => entry_point _ _ _ _, ?_, ?_, ?_, ?_, ?_, rfl⟩, ?_⟩
  · exact Array.size_modify.trans (Array.size_push _)
  · rw [here]
    rfl
  · rw [here]
    rfl
  · rw [status, here]
    exact Status.noConfusion
  · intro x other
    rw [record, if_neg other, l.record_made, if_neg other]
  · rw [status, here]
    rfl

theorem ensure_becomes (l : Loader) (locator : Locator) : Becomes l (l.ensure locator .fetching).1 := by
  obtain ⟨r, -, same⟩ | ⟨absent, same⟩ := l.ensure_cases locator .fetching
  · rw [same]
    exact .refl l
  · rw [same]
    refine .single (.added locator (l.made_adds locator (by decide)) fun x held => ?_) rfl
    cases absent.symm.trans held

/-- What is saved under a locator is in the record that the locator stands for, or in a new one. -/
theorem save_becomes (l : Loader) (locator : Locator) (definition : Definition) :
    Becomes l (l.save locator definition).1 := by
  obtain ⟨r, -, same⟩ | ⟨absent, same⟩ := l.ensure_cases locator .unknown
  · simp only [save, same]
    split
    · exact .of_rests (l.note_rests _) rfl rfl
    · rename_i below
      refine .of_rests (.of_update l (f := (·.save definition _)) rfl rfl ?_ fun now => by cases now)
        rfl rfl
      exact Nat.le_of_lt (Status.not_le.mp below)
  · have fresh : Loader.status ((l.newRecord locator .unknown).1.point locator ⟨l.records.size⟩)
        ⟨l.records.size⟩ = .unknown := by rw [status, l.record_made, if_pos rfl]
    simp only [save, same, fresh]
    rw [if_neg (by decide)]
    obtain ⟨adds, saved⟩ := l.made_saved_adds locator definition _
    refine .single (.added locator adds fun x held => ?_) rfl
    cases absent.symm.trans held

/-- A module that is registered anew under a locator takes the place of one that is not ready. -/
theorem dropTakeover_save_becomes (l : Loader) (locator : Locator) (definition : Definition) :
    Becomes l ((l.dropTakeover locator).save locator definition).1 := by
  unfold dropTakeover
  split
  · rename_i r held
    split
    · rename_i taken
      have fresh : Loader.status ((l.newRecord locator .unknown).1.point locator ⟨l.records.size⟩)
          ⟨l.records.size⟩ = .unknown := by rw [status, l.record_made, if_pos rfl]
      have below : ¬ Status.saved ≤ Loader.status
          ((l.newRecord locator .unknown).1.point locator ⟨l.records.size⟩) ⟨l.records.size⟩ := by
        rw [fresh]
        decide
      have entry : Loader.entry? ((l.newRecord locator .unknown).1.point locator ⟨l.records.size⟩)
          locator = some ⟨l.records.size⟩ := (entry_point _ _ _ _).trans (if_pos rfl)
      change Becomes l (Loader.save ((l.newRecord locator .unknown).1.point locator ⟨l.records.size⟩)
        locator definition).1
      simp only [save, ensure, entry, if_neg below]
      obtain ⟨adds, saved⟩ := l.made_saved_adds locator definition _
      refine .single (.added locator adds fun x there => ?_) rfl
      cases held.symm.trans there
      exact ⟨taken.2, Nat.le_of_eq (congrArg Status.code saved.symm)⟩
    · exact l.save_becomes locator definition
  · exact l.save_becomes locator definition

/-! Operations that hand locators on. -/

/-- A locator is pointed at a record that is at hand, and it may be noted with the record. -/
theorem point_gives (l : Loader) (locator : Locator) (r : RecordId) :
    Gives l locator r (l.point locator r) ∧
      Gives l locator r ((l.point locator r).setSecondLocator r locator) := by
  have noted := fun x => (l.point locator r).record_updateRecord r x
    fun record => { record with secondLocator := some locator }
  refine ⟨⟨fun x => entry_point _ _ _ _, rfl, fun _ => rfl, fun _ => .inl rfl, fun _ => rfl, fun _ => id⟩,
    ⟨fun x => entry_point _ _ _ _, Array.size_modify, fun x => ?_, fun x => ?_, fun x => ?_, fun _ => id⟩⟩
  · rw [setSecondLocator, noted]
    split <;> rfl
  · rw [setSecondLocator, noted]
    split
    · rename_i here
      exact .inr ⟨here.1.symm, rfl⟩
    · exact .inl rfl
  · rw [status, setSecondLocator, noted]
    split <;> rfl

/-- A locator that is free is pointed at the record, and nothing happens to any other. -/
theorem share_gives (l : Loader) (locator : Locator) (target : RecordId) :
    l.share locator target = l ∨
      l.isFreeFor locator target = true ∧ Gives l locator target (l.share locator target) := by
  obtain ⟨pointed, seconded⟩ :=
    (l.note (.shared locator (l.record target).locator)).point_gives locator target
  unfold share
  dsimp only
  split
  · rename_i free
    refine .inr ⟨free, ?_⟩
    split
    · exact ⟨seconded.entry, seconded.size, seconded.own, seconded.second, seconded.status, seconded.named⟩
    · exact ⟨pointed.entry, pointed.size, pointed.own, pointed.second, pointed.status, pointed.named⟩
  · exact .inl rfl

theorem share_patches (l : Loader) (locator : Locator) (target : RecordId) :
    (l.share locator target).patches = l.patches := by
  unfold share
  dsimp only
  split
  · split <;> rfl
  · rfl

theorem share_becomes {l : Loader} {target : RecordId} {locator : Locator}
    (fetched : .fetched ≤ l.status target) (source : ∃ k, l.entry? k = some target)
    (waiting : ∀ x, l.entry? locator = some x → .saved ≤ l.status target ∨ l.status x = .fetching) :
    Becomes l (l.share locator target) := by
  obtain same | ⟨free, gives⟩ := l.share_gives locator target
  · rw [same]
    exact .refl l
  · refine .single (.given locator target gives fetched (.inr source) fun x held => ?_)
      (l.share_patches locator target)
    simp only [isFreeFor, held, Bool.and_eq_true, decide_eq_true_eq] at free
    exact ⟨free.1, free.2, waiting x held⟩

/-- A locator that is being retrieved is handed to a module that has just been saved. -/
theorem takePlaceholder_becomes {l : Loader} {r : RecordId} (saved : .saved ≤ l.status r)
    (source : ∃ k, l.entry? k = some r) (locator : Locator) :
    Becomes l (l.takePlaceholder locator r) := by
  unfold takePlaceholder
  split
  · rename_i current held
    split
    · rename_i waits
      refine .single (.given locator r (l.point_gives locator r).2 (Status.le_trans (by decide) saved)
        (.inr source) fun x there => ?_) rfl
      cases held.symm.trans there
      refine ⟨waits.2, ?_, .inl saved⟩
      rw [waits.1]
      decide
    · exact .refl l
  · exact .refl l

theorem rememberFirst_becomes {l : Loader} {r : RecordId} (saved : .saved ≤ l.status r)
    (source : ∃ k, l.entry? k = some r) : Becomes l (l.rememberFirst r) := by
  unfold rememberFirst
  split
  · refine .single (.rests (.of_same rfl rfl) fun x first => ?_) rfl
    cases first
    exact .inr ⟨saved, source⟩
  · exact .refl l

theorem takeFirstNamed_becomes {l : Loader} (sound : Sound l) (locator : Locator) {r : RecordId}
    (below : l.status r = .fetched → ∀ x, l.entry? locator = some x → x = r) :
    Becomes l (l.takeFirstNamed locator r) := by
  unfold takeFirstNamed
  split
  · rename_i first named
    dsimp only
    split
    · rename_i takes
      have gives := (Loader.point_gives { l with firstNamed := none } locator first).2
      have saved := sound.named named
      refine .single (.given locator first
        ⟨gives.entry, gives.size, gives.own, gives.second, gives.status, fun _ none => by cases none⟩
        (Status.le_trans (by decide) saved) (.inl named) fun x held => ?_) rfl
      cases below takes.1 x held
      refine ⟨Ne.symm takes.2, ?_, .inl saved⟩
      rw [show l.status r = .fetched from takes.1]
      decide
    · exact .single (Rests.renames (.of_same rfl rfl) fun _ none => by cases none) rfl
  · exact .refl l

/-! Registering. -/

theorem park_becomes (l : Loader) (definition : Definition) : Becomes l (l.park definition) := by
  have parked : Becomes l { l with anonymous := some definition } := .of_rests (.of_same rfl rfl) rfl rfl
  unfold park
  dsimp only
  split
  · exact parked.trans (emit_becomes _ _)
  · exact parked

theorem register_becomes {l : Loader} (sound : Sound l) (registration : Registration)
    (derived : Option Locator) : Becomes l (l.register registration derived) := by
  unfold register
  dsimp only
  split
  · exact l.park_becomes _
  · rename_i locator _
    have clears := cleared_clears sound locator derived
    have saves := save_saves _ locator registration.definition clears.inside
    have source : ∃ k, Loader.entry? (Loader.save (if derived = some locator then
        l.dropTakeover locator else l) locator registration.definition).1 k = some _ :=
      ⟨locator, (saves.entry locator).trans (if_pos rfl)⟩
    have saved : Becomes l (Loader.save (if derived = some locator then l.dropTakeover locator else l)
        locator registration.definition).1 := by
      split
      · exact l.dropTakeover_save_becomes locator _
      · exact l.save_becomes locator _
    cases derived with
    | some derived => exact saved.trans (takePlaceholder_becomes saves.saved source derived)
    | none => exact saved.trans (rememberFirst_becomes saves.saved source)

theorem defineDerived_becomes {l : Loader} (sound : Sound l) (registration : Registration)
    (derived : Option Locator) : Becomes l (l.defineDerived registration derived) := by
  unfold defineDerived
  dsimp only
  split
  · have reported : Becomes l (l.report (.derivationFailed registration.factory.source?)) :=
      emit_becomes _ _
    exact reported.trans (register_becomes (reported.sound sound) _ _)
  · exact register_becomes sound _ _

/-- Whichever way the host registers a module itself. -/
theorem registered_becomes {l l' : Loader} (sound : Sound l) {registration : Registration}
    (registered : l' = l.define registration ∨ ∃ derived, l' = l.defineDerived registration derived) :
    Becomes l l' := by
  obtain rfl | ⟨derived, rfl⟩ := registered
  · exact register_becomes sound registration none
  · exact defineDerived_becomes sound registration derived

/-! Finishing a retrieval. -/

theorem nameAnonymous_becomes (l : Loader) (locator : Locator) :
    Becomes l (l.nameAnonymous locator) := by
  unfold nameAnonymous
  split
  · rename_i definition _
    have taken : Becomes l { l with anonymous := none } := .of_rests (.of_same rfl rfl) rfl rfl
    exact taken.trans (save_becomes _ locator definition)
  · exact .refl l

theorem endFetching_becomes (l : Loader) (r : RecordId) : Becomes l (l.endFetching r) := by
  refine .of_rests (l.endFetching_rests r) ?_ ?_ <;> unfold endFetching <;> split <;> rfl

theorem settleJoined_becomes {l : Loader} {target : RecordId} (source : ∃ k, l.entry? k = some target)
    (locator : Locator) : Becomes l (l.settleJoined target locator) := by
  unfold settleJoined
  split
  · rename_i saved
    exact share_becomes (Status.le_trans (by decide) saved) source fun _ _ => .inl saved
  · split
    · exact l.endFetching_becomes _
    · exact .refl l

/-- Whoever shares the result of a retrieval takes it from nobody. -/
theorem settleJoined_entry (l : Loader) (target : RecordId) {locator k : Locator}
    (held : l.entry? k = some target) : Loader.entry? (l.settleJoined target locator) k = some target := by
  have pointed (l : Loader) (held : l.entry? k = some target) :
      Loader.entry? (l.point locator target) k = some target := by
    rw [entry_point]
    split
    · rfl
    · exact held
  unfold settleJoined share
  dsimp only
  split
  · split
    · split <;> exact pointed (l.note _) held
    · exact held
  · split
    · exact ((l.endFetching_rests _).entry k).trans held
    · exact held

theorem foldl_settleJoined_becomes {l : Loader} {target : RecordId} {k : Locator}
    (held : l.entry? k = some target) (locators : List Locator) :
    Becomes l (locators.foldl (settleJoined · target) l) := by
  induction locators generalizing l with
  | nil => exact .refl l
  | cons locator locators ih =>
    exact (settleJoined_becomes ⟨k, held⟩ locator).trans (ih (l.settleJoined_entry target held))

theorem save_entry {l : Loader} {locator : Locator} {r : RecordId} (held : l.entry? locator = some r)
    (definition : Definition) (k : Locator) : Loader.entry? (l.save locator definition).1 k = l.entry? k := by
  simp only [save, ensure, held]
  split <;> rfl

theorem nameAnonymous_entry {l : Loader} {locator : Locator} {r : RecordId}
    (held : l.entry? locator = some r) (k : Locator) :
    Loader.entry? (l.nameAnonymous locator) k = l.entry? k := by
  unfold nameAnonymous
  split
  · exact save_entry (l := { l with anonymous := none }) held _ k
  · rfl

theorem settle_becomes {l : Loader} (sound : Sound l) (token : FetchToken) (waiters : List Waiter) :
    Becomes l (l.settle token waiters) := by
  have made := l.ensure_becomes token.locator
  have entry := l.entry_ensure token.locator token.locator .fetching
  rw [if_pos rfl] at entry
  unfold settle
  generalize l.ensure token.locator .fetching = start at *
  obtain ⟨l₁, r⟩ := start
  dsimp only at *
  have ended := l₁.endFetching_becomes r
  have held := ((l₁.endFetching_rests r).entry token.locator).trans entry
  have named := (l₁.endFetching r).nameAnonymous_becomes token.locator
  have before := (made.trans ended).trans named
  have taken := takeFirstNamed_becomes (before.sound sound) token.locator (r := r)
    fun _ x there => Option.some.inj (there.symm.trans ((nameAnonymous_entry held _).trans held))
  have settled := before.trans taken
  split
  · rename_i target found
    exact settled.trans (foldl_settleJoined_becomes found _)
  · exact settled

theorem finishFetch_becomes {l : Loader} (sound : Sound l) (token : FetchToken) :
    Becomes l (l.finishFetch token).1 := by
  have closed : Becomes l ((l.note (.fetched token.locator token.resource)).closeRetrieval token) :=
    .of_rests (.of_same rfl rfl) rfl rfl
  exact closed.trans (settle_becomes (closed.sound sound) token _)

/-! Waiting. -/

theorem retrieved?_held {l : Loader} {resource : PhysicalId} {locator : Locator} {r : RecordId}
    (known : l.retrieved? resource locator = some r) :
    ∃ first, l.ledger.completed.get? resource = some first ∧ l.entry? first = some r ∧
      .fetched ≤ l.status r ∧ l.entry? locator ≠ some r := by
  simp only [retrieved?, bind, Option.bind_eq_some_iff] at known
  obtain ⟨first, completed, r', held, chosen⟩ := known
  split at chosen
  · rename_i usable
    cases chosen
    exact ⟨first, completed, held, usable⟩
  · cases chosen

theorem awaitResource_becomes {l : Loader} (waiter : Waiter) {r : RecordId}
    (held : l.entry? waiter.locator = some r) (fetching : l.status r = .fetching) :
    Becomes l (l.awaitResource waiter).1 := by
  unfold awaitResource
  dsimp only
  split
  · rename_i known retrieved
    obtain ⟨first, -, source, fetched, -⟩ := retrieved?_held retrieved
    refine share_becomes fetched ⟨first, source⟩ fun x there => ?_
    cases held.symm.trans there
    exact .inr fetching
  · split <;> exact .of_rests (.of_same rfl rfl) rfl rfl

end Loader

namespace World

variable {w : World}

theorem evaluate_becomes (sound : Sound w.loader) (resource : PhysicalId) :
    Becomes w.loader (w.evaluate resource).loader :=
  Becomes.foldl (fun _ registration sound => Loader.register_becomes sound registration none) sound _

theorem evaluateDerived_becomes (sound : Sound w.loader) (token : FetchToken) :
    Becomes w.loader (w.evaluateDerived token).loader :=
  Becomes.foldl (fun _ registration sound => Loader.defineDerived_becomes sound registration _) sound _

theorem retrieve_becomes (sound : Sound w.loader) (token : FetchToken) :
    Becomes w.loader (w.retrieve token).1.loader := by
  unfold retrieve
  dsimp only
  split
  · exact evaluate_becomes sound _
  · exact .refl _
  · exact .refl _
  · exact evaluateDerived_becomes sound _
  · exact .refl _
  · exact Loader.emit_becomes _ _

theorem enter_becomes (sound : Sound w.loader) (locator : Locator) (b : BarrierId) :
    Becomes w.loader (w.enter locator b).1.loader := by
  have made := w.loader.ensure_becomes locator
  have entry := w.loader.entry_ensure locator locator .fetching
  rw [if_pos rfl] at entry
  unfold enter
  generalize w.loader.ensure locator .fetching = ensured at *
  obtain ⟨l, r⟩ := ensured
  dsimp only at *
  split
  · exact made
  · rename_i below
    have fetching : l.status r = .fetching := by
      have known := (made.sound sound).known entry
      revert known below
      cases l.status r <;> simp_all [Status.le_iff, Status.code]
    have awaited := made.trans
      (Loader.awaitResource_becomes ⟨locator, b⟩ entry fetching)
    generalize l.awaitResource ⟨locator, b⟩ = waits at *
    obtain ⟨l', start⟩ := waits
    cases start with
    | ready | joined => exact awaited
    | started token =>
      exact awaited.trans (retrieve_becomes (w := { w with loader := l' }) (awaited.sound sound) token)

/-- An entry goes on, or its retrieval is over at once. -/
theorem enter_frames (w : World) (locator : Locator) (b : BarrierId) :
    ∀ f ∈ (w.enter locator b).2, f = .settled locator b ∨ ∃ token, f = .retrieved token := by
  have retrieved (w : World) (token : FetchToken) :
      ∀ f ∈ (w.retrieve token).2, f = .settled locator b ∨ ∃ token, f = .retrieved token := by
    unfold retrieve
    dsimp only
    split <;> simp
  unfold enter
  dsimp only
  split
  · exact List.forall_mem_singleton.mpr (.inl rfl)
  · split
    · exact List.forall_mem_singleton.mpr (.inl rfl)
    · exact List.forall_mem_nil _
    · exact retrieved _ _

end World

end ModuleLoader
