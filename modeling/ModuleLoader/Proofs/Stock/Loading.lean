import ModuleLoader.Proofs.Effects.Edits
import ModuleLoader.Proofs.Stock

/-! Nothing that the loader does by itself adds to what is to be executed: a body is registered, named and
compiled, a patch is queued and taken, and what goes on after a load is kept until the load is done. -/
namespace ModuleLoader

namespace Scale

variable (σ : Scale)

/-! Tables and queues. -/

theorem record_default : σ.record default = 0 := by
  rw [record]
  split <;> rfl

/-- A record that has no body to run yet. -/
theorem record_bare {r : Record} (bare : r.factory = none) : σ.record r = 0 := by
  rw [record, bare]
  split <;> rfl

/-- A record that rises has no more to run. -/
theorem record_rises {r r' : Record} (factory : r'.factory = r.factory) (rises : r.status ≤ r'.status) :
    σ.record r' ≤ σ.record r := by
  rw [record, record, factory]
  split
  · rename_i early
    have early : r.status < .compiling := Nat.lt_of_le_of_lt rises early
    rw [if_pos early]
  · exact Nat.zero_le _

theorem sum_modify {α : Type} [Inhabited α] (weigh : α → Nat) (zero : weigh default = 0) (t : Table α)
    (i : Nat) (f : α → α) :
    ((t.modify i f).cells.toList.map weigh).sum + weigh (t.get i) ≤
      (t.cells.toList.map weigh).sum + weigh (f (t.get i)) := by
  by_cases inside : i < t.size
  · obtain ⟨before, after, split, changed⟩ := Table.split_of_lt inside
    rw [changed, split]
    simp only [List.map_append, List.map_cons, List.sum_append, List.sum_cons]
    omega
  · have outside : t.get i = default := by
      rw [Table.get, Array.getD_eq_getD_getElem?, Array.getElem?_eq_none (Nat.not_lt.mp inside)]
      rfl
    have same : (t.modify i f).cells.toList = t.cells.toList := by
      rw [Table.modify, Array.toList_modify]
      exact List.modify_eq_self (Nat.not_lt.mp inside)
    rw [same, outside, zero]
    exact Nat.le_add_right _ _

theorem sum_push {α : Type} {weigh : α → Nat} (t : Table α) (a : α) :
    ((t.push a).cells.toList.map weigh).sum = (t.cells.toList.map weigh).sum + weigh a := by
  rw [Table.push, Array.toList_push, List.map_append, List.sum_append, List.map_singleton, List.sum_singleton]

theorem queues_insert (m : OrderedMap Locator (List Patch)) (key : Locator) (queue : List Patch) :
    σ.queues (m.insert key queue) + σ.patches ((m.get? key).getD []) = σ.queues m + σ.patches queue := by
  cases found : m.get? key with
  | none =>
    rw [queues, OrderedMap.entries_insert_of_absent found, List.map_append, List.sum_append]
    rfl
  | some old =>
    obtain ⟨before, after, split, inserted, -⟩ := OrderedMap.entries_split found
    rw [queues, queues, inserted, split]
    simp only [List.map_append, List.map_cons, List.sum_append, List.sum_cons, Option.getD_some]
    omega

theorem queues_erase (m : OrderedMap Locator (List Patch)) (key : Locator) :
    σ.queues (m.erase key) + σ.patches ((m.get? key).getD []) = σ.queues m := by
  cases found : m.get? key with
  | none =>
    rw [queues, OrderedMap.erase_of_absent found]
    rfl
  | some old =>
    obtain ⟨before, after, split, -, erased⟩ := OrderedMap.entries_split found
    rw [queues, queues, erased, split]
    simp only [List.map_append, List.map_cons, List.sum_append, List.sum_cons, Option.getD_some]
    omega

/-! Records. -/

variable (l : Loader)

theorem loader_update {r : RecordId} {f : Record → Record} {n : Nat}
    (bounded : σ.record (f (l.record r)) ≤ σ.record (l.record r) + n) :
    σ.loader (l.updateRecord r f) ≤ σ.loader l + n := by
  have changed := sum_modify σ.record σ.record_default l.records r.index f
  simp only [loader, Loader.updateRecord, records, Loader.record] at *
  omega

theorem loader_rises {r : RecordId} {f : Record → Record}
    (factory : (f (l.record r)).factory = (l.record r).factory)
    (rises : (l.record r).status ≤ (f (l.record r)).status) :
    σ.loader (l.updateRecord r f) ≤ σ.loader l := σ.loader_update l (n := 0) (σ.record_rises factory rises)

theorem loader_setStatus {r : RecordId} {s : Status} (rises : l.status r ≤ s) :
    σ.loader (l.setStatus r s) ≤ σ.loader l := σ.loader_rises l rfl rises

theorem loader_setSecondLocator (r : RecordId) (locator : Locator) :
    σ.loader (l.setSecondLocator r locator) ≤ σ.loader l := σ.loader_rises l rfl (Status.le_refl _)

theorem loader_setExports (r : RecordId) (value : Value) :
    σ.loader (l.setExports r value) ≤ σ.loader l := σ.loader_rises l rfl (Status.le_refl _)

theorem loader_setInitiator (r initiator : RecordId) :
    σ.loader (l.setInitiator r initiator) ≤ σ.loader l := σ.loader_rises l rfl (Status.le_refl _)

/-- What a module has to run goes over to whoever compiles it. -/
theorem loader_beginCompile {r : RecordId} (interface : Value) :
    σ.loader (l.beginCompile r interface) + σ.record (l.record r) ≤ σ.loader l := by
  have changed := sum_modify σ.record σ.record_default l.records r.index (·.beginCompile interface)
  have nothing : σ.record ((l.record r).beginCompile interface) = 0 := by
    rw [record, if_neg]
    exact Nat.lt_irrefl _
  simp only [loader, Loader.beginCompile, Loader.updateRecord, records, Loader.record] at *
  omega

theorem loader_newRecord (locator : Locator) (s : Status) :
    σ.loader (l.newRecord locator s).1 = σ.loader l := by
  have pushed : σ.records (l.records.push { locator, status := s }) = σ.records l.records := by
    rw [records, sum_push, σ.record_bare rfl]
    rfl
  simp only [loader, Loader.newRecord, pushed]

/-! Reports. -/

@[simp] theorem loader_emit (d : Diagnostic) : σ.loader (l.emit d) = σ.loader l := by
  unfold Loader.emit
  dsimp only
  split <;> rfl

@[simp] theorem loader_report (c : Condition) : σ.loader (l.report c) = σ.loader l := σ.loader_emit l _

/-! Edits. -/

theorem loader_anonymous (anonymous : Option Definition) :
    σ.loader { l with anonymous } + (l.anonymous.map σ.definition).getD 0 =
      σ.loader l + (anonymous.map σ.definition).getD 0 := by
  simp only [loader]
  omega

/-- What no definition is saved by adds nothing. -/
theorem loader_edits {permit : Loader.Permit} {l l' : Loader} (edits : Loader.Edits permit l l')
    (unsaved : ∀ definition, ¬ permit.saves definition) : σ.loader l' ≤ σ.loader l := by
  refine edits.lift (R := fun l l' => σ.loader l' ≤ σ.loader l) (fun _ => Nat.le_refl _)
    (fun first later => Nat.le_trans later first) fun {l _} edit => ?_
  cases edit with
  | noted e | pointed locator r | remembered first | booked ledger => exact Nat.le_refl _
  | reported d => exact Nat.le_of_eq (σ.loader_emit l d)
  | made locator => exact Nat.le_of_eq (σ.loader_newRecord l locator _)
  | fetched fetching => exact σ.loader_setStatus l (fetching ▸ by decide)
  | saved dependencies below may => exact absurd may (unsaved _)
  | seconded r locator => exact σ.loader_setSecondLocator l r locator
  | parked waits may =>
    cases waits with
    | none => exact Nat.le_trans (Nat.le_add_right _ _) (Nat.le_of_eq (σ.loader_anonymous l none))
    | some definition => exact absurd (may definition rfl) (unsaved definition)

/-! Registering. -/

theorem loader_save (locator : Locator) (definition : Definition) :
    σ.loader (l.save locator definition).1 ≤ σ.loader l + σ.factory definition.factory := by
  have ensured := σ.loader_edits (l.ensure_edits locator (s := .unknown) (by decide)) fun _ => id
  unfold Loader.save
  generalize l.ensure locator .unknown = made at *
  obtain ⟨l', r⟩ := made
  dsimp only at *
  split
  · exact Nat.le_trans ensured (Nat.le_add_right _ _)
  · exact Nat.le_trans (σ.loader_update l' (Nat.le_add_left (σ.factory definition.factory) _))
      (Nat.add_le_add_right ensured _)

theorem loader_park (definition : Definition) :
    σ.loader (l.park definition) ≤ σ.loader l + σ.definition definition := by
  have parked := σ.loader_anonymous l (some definition)
  have reported : σ.loader (l.park definition) = σ.loader { l with anonymous := some definition } := by
    unfold Loader.park
    dsimp only
    split
    · exact σ.loader_report _ _
    · rfl
  rw [reported]
  exact Nat.le_trans (Nat.le_add_right _ _) (Nat.le_of_eq parked)

/-- Registering a module takes its body over. -/
theorem loader_register (registration : Registration) (derived : Option Locator) :
    σ.loader (l.register registration derived) + σ.unit ≤ σ.loader l + σ.registration registration := by
  have cost : σ.registration registration = σ.unit + σ.definition registration.definition := by
    rw [Scale.registration, Scale.definition, Nat.two_mul, Nat.add_assoc]
    rfl
  unfold Loader.register
  dsimp only
  split
  · have parked := σ.loader_park l registration.definition
    omega
  · rename_i locator _
    have dropped : σ.loader (if derived = some locator then l.dropTakeover locator else l) ≤ σ.loader l := by
      split
      · exact σ.loader_edits (l.dropTakeover_edits locator) fun _ => id
      · exact Nat.le_refl _
    generalize (if derived = some locator then l.dropTakeover locator else l) = l₁ at *
    have saves : σ.loader (l₁.save locator registration.definition).1 + σ.unit ≤
        σ.loader l + σ.registration registration := by
      have save := σ.loader_save l₁ locator registration.definition
      rw [cost, Scale.definition]
      omega
    cases derived with
    | some derived =>
      exact Nat.le_trans (Nat.add_le_add_right
        (σ.loader_edits (Loader.takePlaceholder_edits _ derived _) fun _ => id) _) saves
    | none =>
      exact Nat.le_trans (Nat.add_le_add_right (σ.loader_edits (Loader.rememberFirst_edits _ _) fun _ => id) _)
        saves

theorem loader_defineDerived (registration : Registration) (derived : Option Locator) :
    σ.loader (l.defineDerived registration derived) + σ.unit ≤ σ.loader l + σ.registration registration := by
  unfold Loader.defineDerived
  dsimp only
  refine Nat.le_trans (σ.loader_register _ registration derived) (Nat.le_of_eq ?_)
  split
  · rw [σ.loader_report]
  · rfl

/-- Each of the registrations of a resource takes its body over. -/
theorem loader_foldl {register : Loader → Registration → Loader}
    (each : ∀ l registration, σ.loader (register l registration) + σ.unit ≤
      σ.loader l + σ.registration registration) (rs : List Registration) :
    σ.loader (rs.foldl register l) + σ.unit * rs.length ≤ σ.loader l + (rs.map σ.registration).sum := by
  induction rs generalizing l with
  | nil => exact Nat.le_refl _
  | cons registration rs ih =>
    have first := each l registration
    have others := ih (register l registration)
    simp only [List.foldl_cons, List.length_cons, List.map_cons, List.sum_cons, Nat.mul_succ]
    omega

/-! Retrieving. -/

/-- A registration that gets its name waits for one no longer. -/
theorem loader_nameAnonymous (locator : Locator) :
    σ.loader (l.nameAnonymous locator) + (if l.anonymous.isSome then σ.unit else 0) ≤ σ.loader l := by
  unfold Loader.nameAnonymous
  split
  · rename_i definition waits
    have cleared := σ.loader_anonymous l none
    have saved := σ.loader_save { l with anonymous := none } locator definition
    rw [waits, Option.map_some, Option.getD_some, Scale.definition] at cleared
    rw [waits, Option.isSome_some, if_pos rfl]
    change _ = _ + 0 at cleared
    omega
  · rename_i none
    rw [none]
    exact Nat.le_refl _

theorem loader_finishFetch (token : FetchToken) :
    σ.loader (l.finishFetch token).1 + (if l.anonymous.isSome then σ.unit else 0) ≤ σ.loader l := by
  unfold Loader.finishFetch Loader.settle
  dsimp only
  have closed : σ.loader ((l.note (.fetched token.locator token.resource)).closeRetrieval token) =
      σ.loader l := rfl
  have waits : ((l.note (.fetched token.locator token.resource)).closeRetrieval token).anonymous =
      l.anonymous := rfl
  generalize (l.note (.fetched token.locator token.resource)).closeRetrieval token = l₁ at *
  have made := l₁.ensure_edits token.locator (s := .fetching) (by decide)
  have still := l₁.ensure_anonymous token.locator .fetching
  generalize l₁.ensure token.locator .fetching = ensured at *
  obtain ⟨l₂, r⟩ := ensured
  have ended := σ.loader_edits (made.trans (l₂.endFetching_edits r)) fun _ => id
  have named := σ.loader_nameAnonymous (l₂.endFetching r) token.locator
  rw [l₂.endFetching_anonymous, still, waits] at named
  have bounded := Nat.le_trans named (Nat.le_trans ended (Nat.le_of_eq closed))
  -- What comes after the naming has nothing left to save.
  have taken := Loader.takeFirstNamed_edits ((l₂.endFetching r).nameAnonymous token.locator) token.locator r
  split
  · rename_i target _
    refine Nat.le_trans (Nat.add_le_add_right (σ.loader_edits (taken.trans ?_) fun _ => id) _) bounded
    exact .foldl (fun l locator _ => l.settleJoined_edits target locator) _
  · exact Nat.le_trans (Nat.add_le_add_right (σ.loader_edits taken fun _ => id) _) bounded

/-! Waiting. -/

theorem loader_newBarrier (entries : Nat) (onDone : Continuation) :
    σ.loader (l.newBarrier entries onDone).1 = σ.loader l + σ.continuation onDone := by
  have pushed : σ.barriers (l.barriers.push ⟨entries, some onDone⟩) =
      σ.barriers l.barriers + σ.continuation onDone := sum_push _ _
  simp only [loader, Loader.newBarrier, pushed]
  omega

/-- What goes on after a load is kept until the load is done. -/
theorem loader_countDown (b : BarrierId) :
    σ.loader (l.countDown b).1 + ((l.countDown b).2.map σ.continuation).getD 0 ≤ σ.loader l := by
  have changed (f : Barrier → Barrier) :
      σ.loader { l with barriers := l.barriers.modify b.index f } + σ.barrier (l.barrier b) ≤
        σ.loader l + σ.barrier (f (l.barrier b)) := by
    have modified := sum_modify σ.barrier rfl l.barriers b.index f
    simp only [loader, barriers, Loader.barrier] at *
    omega
  unfold Loader.countDown
  dsimp only
  split
  · exact changed fun _ => ⟨(l.barrier b).remaining - 1, none⟩
  · have kept := changed ({ · with remaining := (l.barrier b).remaining - 1 })
    change _ ≤ _ + σ.barrier (l.barrier b) at kept
    exact Nat.le_of_add_le_add_right kept

theorem loader_markReady (r : RecordId) : σ.loader (l.markReady r) ≤ σ.loader l := by
  unfold Loader.markReady
  split
  · rename_i below
    exact σ.loader_setStatus l (Nat.le_of_lt below)
  · exact Nat.le_refl _

theorem loader_arrive (b : BarrierId) (loaded : Option RecordId) :
    σ.loader (l.arrive b loaded).1 + ((l.arrive b loaded).2.map σ.continuation).getD 0 ≤ σ.loader l := by
  cases loaded with
  | none => exact σ.loader_countDown l b
  | some r => exact Nat.le_trans (σ.loader_countDown (l.markReady r) b) (σ.loader_markReady l r)

/-! Patching. -/

theorem loader_queuePatch (patch : Patch) :
    σ.loader (l.queuePatch patch) = σ.loader l + σ.patch patch := by
  have queued := σ.queues_insert l.patches patch.target ((l.patches.get? patch.target).getD [] ++ [patch])
  have appended (queue : List Patch) : σ.patches (queue ++ [patch]) = σ.patches queue + σ.patch patch := by
    rw [patches, List.map_append, List.sum_append]
    rfl
  rw [appended] at queued
  simp only [loader, Loader.queuePatch, Loader.note]
  omega

theorem loader_takePatches (locator : Locator) :
    σ.loader (l.takePatches locator).1 + σ.patches (l.takePatches locator).2 = σ.loader l := by
  have taken := σ.queues_erase l.patches locator
  simp only [loader, Loader.takePatches]
  omega

theorem loader_addPreload (id : String) : σ.loader (l.addPreload id) = σ.loader l + 3 * σ.unit := by
  simp only [loader, Loader.addPreload, List.length_append, List.length_singleton, Nat.mul_succ]
  omega

end Scale

end ModuleLoader
