import ModuleLoader.Proofs.Effects.Fetching
import Mathlib.Logic.Relation

/-! What loading and registering do to single records. There are few ways in which a record changes, and
a record that has begun to be compiled is left alone but for its second locator. -/
namespace ModuleLoader

open Relation (ReflTransGen)

theorem Status.ne_fetching {a b : Status} (late : ¬ a ≤ .fetching) (le : a ≤ b) : b ≠ .fetching := by
  rintro rfl
  exact late le

/-- A change that loading or registering makes to a record. Before it is made it reads as the default. -/
inductive Record.Loads : Record → Record → Prop where
  | made (locator : Locator) {status : Status} (early : status ≤ .fetching) :
      Loads default { locator, status }
  | fetched {r : Record} (fetching : r.status = .fetching) : Loads r { r with status := .fetched }
  | saved {r : Record} (definition : Definition) (dependencies : List Locator)
      (below : r.status < .saved) : Loads r (r.save definition dependencies)
  | readied {r : Record} (saved : r.status = .saved) : Loads r { r with status := .ready }
  | seconded {r : Record} (locator : Locator) : Loads r { r with secondLocator := some locator }

namespace Record.Loads

variable {r r' : Record}

theorem rises (change : Loads r r') : r.status ≤ r'.status := by
  cases change with
  | made => exact Nat.zero_le _
  | fetched fetching => exact fetching ▸ (by decide : Status.fetching ≤ .fetched)
  | saved definition dependencies below => exact Nat.le_of_lt below
  | readied saved => exact saved ▸ (by decide : Status.saved ≤ .ready)
  | seconded => exact Status.le_refl _

/-- Loading does not take a record to being compiled. -/
theorem late (change : Loads r r') (late : .compiling ≤ r'.status) : r'.status = r.status := by
  cases change with
  | made locator early => exact absurd (Status.le_trans late early) (by decide)
  | fetched => exact absurd late (by decide : ¬ Status.compiling ≤ .fetched)
  | saved => exact absurd late (by decide : ¬ Status.compiling ≤ .saved)
  | readied => exact absurd late (by decide : ¬ Status.compiling ≤ .ready)
  | seconded => rfl

end Record.Loads

namespace Loader

/-- A locator stands for a record whose retrieval is under way. -/
def Fetches (l : Loader) (locator : Locator) : Prop :=
  ∃ r, l.entry? locator = some r ∧ l.status r = .fetching

/-- Records have changed by loading and registering alone. -/
structure Shifts (l l' : Loader) : Prop where
  records : ∀ r, ReflTransGen Record.Loads (l.record r) (l'.record r)
  compiling : l'.compiling = l.compiling

/-- Moreover, no retrieval has been begun. -/
structure Loads (l l' : Loader) : Prop extends Shifts l l' where
  steady : ∀ locator, l'.Fetches locator → l.Fetches locator

theorem Shifts.refl (l : Loader) : Shifts l l := ⟨fun _ => .refl, rfl⟩

theorem Shifts.trans {a b c : Loader} (ab : Shifts a b) (bc : Shifts b c) : Shifts a c :=
  ⟨fun r => (ab.records r).trans (bc.records r), bc.compiling.trans ab.compiling⟩

theorem Shifts.rises {l l' : Loader} (shifts : Shifts l l') (r : RecordId) :
    l.status r ≤ l'.status r := by
  have steps := shifts.records r
  simp only [status]
  generalize l'.record r = after at *
  induction steps with
  | refl => exact Status.le_refl _
  | tail _ change ih => exact Status.le_trans ih change.rises

theorem Shifts.of_records {l l' : Loader} (records : l'.records = l.records)
    (compiling : l'.compiling = l.compiling) : Shifts l l' :=
  ⟨fun r => (show l'.record r = l.record r from congrArg (Table.get · r.index) records) ▸ .refl, compiling⟩

theorem Shifts.of_eq {l l' : Loader} (same : l' = l) : Shifts l l' := same ▸ .refl l

/-- A record that has begun to be compiled keeps its interface. -/
theorem Shifts.late {l l' : Loader} (shifts : Shifts l l') {r : RecordId} (late : .compiling ≤ l'.status r) :
    l'.status r = l.status r ∧ (l'.record r).locator = (l.record r).locator ∧
      (l'.record r).exports = (l.record r).exports := by
  have steps := shifts.records r
  simp only [status] at *
  generalize l'.record r = after at *
  induction steps with
  | refl => exact ⟨rfl, rfl, rfl⟩
  | tail _ change ih =>
    have same := change.late late
    obtain ⟨status, locator, exports⟩ := ih (same ▸ late)
    cases change with
    | made locator early => exact absurd (Status.le_trans late early) (by decide)
    | _ => exact ⟨same.trans status, locator, exports⟩

theorem Loads.refl (l : Loader) : Loads l l := ⟨.refl l, fun _ => id⟩

theorem Loads.trans {a b c : Loader} (ab : Loads a b) (bc : Loads b c) : Loads a c :=
  ⟨ab.toShifts.trans bc.toShifts, fun locator => ab.steady locator ∘ bc.steady locator⟩

theorem Loads.of_same {l l' : Loader} (registry : l'.registry = l.registry)
    (records : l'.records = l.records) (compiling : l'.compiling = l.compiling) : Loads l l' := by
  have record (r : RecordId) : l'.record r = l.record r := by rw [Loader.record, Loader.record, records]
  refine ⟨.of_records records compiling, ?_⟩
  rintro locator ⟨r, held, fetching⟩
  refine ⟨r, (congrArg (OrderedMap.get? · locator) registry).symm.trans held, ?_⟩
  rw [status, ← record]
  exact fetching

theorem updateRecord_steady (l : Loader) {r : RecordId} {f : Record → Record}
    (steady : (f (l.record r)).status = .fetching → (l.record r).status = .fetching) (locator : Locator)
    (fetches : (l.updateRecord r f).Fetches locator) : l.Fetches locator := by
  obtain ⟨x, held, fetching⟩ := fetches
  refine ⟨x, held, ?_⟩
  rw [status] at fetching ⊢
  obtain same | ⟨rfl, same⟩ := l.updateRecord_cases r f x <;> rw [same] at fetching
  · exact fetching
  · exact steady fetching

theorem Loads.of_update (l : Loader) {r : RecordId} {f : Record → Record}
    (change : Record.Loads (l.record r) (f (l.record r)))
    (steady : (f (l.record r)).status = .fetching → (l.record r).status = .fetching) :
    Loads l (l.updateRecord r f) := by
  refine ⟨⟨fun x => ?_, rfl⟩, l.updateRecord_steady steady⟩
  obtain same | ⟨rfl, same⟩ := l.updateRecord_cases r f x <;> rw [same]
  exact .single change

theorem foldl_loads {α : Type} {f : Loader → α → Loader} (each : ∀ l a, Loads l (f l a)) (l : Loader)
    (as : List α) : Loads l (as.foldl f l) := by
  induction as generalizing l with
  | nil => exact .refl l
  | cons a as ih => exact (each l a).trans (ih (f l a))

theorem foldl_loads_of_sound {α : Type} {f : Loader → α → Loader}
    (each : ∀ l a, Sound l → Loads l (f l a)) (orderly : ∀ l a, Orderly l (f l a)) {l : Loader}
    (sound : Sound l) (as : List α) : Loads l (as.foldl f l) := by
  induction as generalizing l with
  | nil => exact .refl l
  | cons a as ih => exact (each l a sound).trans (ih (orderly l a sound).1)

theorem note_loads (l : Loader) (e : Event) : Loads l (l.note e) := .of_same rfl rfl rfl

theorem emit_loads (l : Loader) (d : Diagnostic) : Loads l (l.emit d) := by
  unfold emit
  split
  dsimp only
  split <;> exact .of_same rfl rfl rfl

theorem reportAll_loads (l : Loader) (cs : List Condition) : Loads l (l.reportAll cs) :=
  reportAll_induction .refl .trans emit_loads l cs

theorem point_loads (l : Loader) (locator : Locator) {r : RecordId} (settled : l.status r ≠ .fetching) :
    Loads l (l.point locator r) := by
  refine ⟨⟨fun _ => .refl, rfl⟩, ?_⟩
  rintro x ⟨y, held, fetching⟩
  rw [entry_point] at held
  split at held
  · cases held
    exact absurd fetching settled
  · exact ⟨y, held, fetching⟩

theorem setSecondLocator_loads (l : Loader) (r : RecordId) (locator : Locator) :
    Loads l (l.setSecondLocator r locator) := .of_update l (.seconded locator) id

theorem newRecord_shifts (l : Loader) (locator : Locator) {s : Status} (early : s ≤ .fetching) :
    Shifts l (l.newRecord locator s).1 := by
  refine ⟨fun x => ?_, rfl⟩
  obtain same | ⟨nothing, made⟩ := l.newRecord_cases locator s x
  · rw [same]
  · rw [nothing, made]
    exact .single (.made locator early)

/-- A new record that is not being retrieved, in the place of whatever was there. -/
theorem newRecord_loads (l : Loader) (locator : Locator) :
    Loads l ((l.newRecord locator .unknown).1.point locator (l.newRecord locator .unknown).2) := by
  have status (x : RecordId) := l.status_newRecord locator .unknown x
  refine .trans (b := (l.newRecord locator .unknown).1) ⟨l.newRecord_shifts locator (by decide), ?_⟩
    (point_loads _ locator ?_)
  · rintro x ⟨r, held, fetching⟩
    refine ⟨r, held, ?_⟩
    rw [status] at fetching
    split at fetching
    · cases fetching
    · exact fetching
  · rw [status, if_pos rfl]
    decide

theorem ensure_loads (l : Loader) (locator : Locator) : Loads l (l.ensure locator .unknown).1 := by
  unfold ensure
  split
  · exact .refl l
  · exact l.newRecord_loads locator

theorem ensure_shifts (l : Loader) (locator : Locator) : Shifts l (l.ensure locator .fetching).1 := by
  unfold ensure
  split
  · exact .refl l
  · exact (l.newRecord_shifts locator (by decide)).trans ⟨fun _ => .refl, rfl⟩

/-- Only the locator asked for may be retrieved anew. -/
theorem ensure_fetches {l : Loader} (sound : Sound l) (locator x : Locator)
    (fetches : (l.ensure locator .fetching).1.Fetches x) : l.Fetches x ∨ x = locator := by
  by_cases here : locator = x
  · exact .inr here.symm
  · obtain ⟨r, held, fetching⟩ := fetches
    rw [entry_ensure, if_neg here] at held
    obtain same | ⟨-, -, unknown, -⟩ := l.ensure_status locator .fetching r
    · exact .inl ⟨r, held, same ▸ fetching⟩
    · exact absurd unknown (sound.known held)

/-! Registering. -/

theorem save_loads (l : Loader) (locator : Locator) (definition : Definition) :
    Loads l (l.save locator definition).1 := by
  have made := l.ensure_loads locator
  unfold save
  dsimp only
  split
  · exact made.trans (note_loads _ _)
  · rename_i below
    exact made.trans (.of_update _ (.saved definition _ (Status.not_le.mp below)) fun now => by cases now)

theorem park_loads (l : Loader) (definition : Definition) : Loads l (l.park definition) := by
  have parked : Loads l { l with anonymous := some definition } := .of_same rfl rfl rfl
  unfold park
  dsimp only
  split
  · exact parked.trans (emit_loads _ _)
  · exact parked

theorem dropTakeover_loads (l : Loader) (locator : Locator) : Loads l (l.dropTakeover locator) := by
  unfold dropTakeover
  split
  · split
    · exact l.newRecord_loads locator
    · exact .refl l
  · exact .refl l

theorem takePlaceholder_loads {l : Loader} {r : RecordId} (settled : l.status r ≠ .fetching)
    (locator : Locator) : Loads l (l.takePlaceholder locator r) := by
  unfold takePlaceholder
  split
  · split
    · exact (l.point_loads locator settled).trans (setSecondLocator_loads _ r locator)
    · exact .refl l
  · exact .refl l

theorem rememberFirst_loads (l : Loader) (r : RecordId) : Loads l (l.rememberFirst r) := by
  unfold rememberFirst
  split <;> exact .of_same rfl rfl rfl

theorem register_loads {l : Loader} (sound : Sound l) (registration : Registration)
    (derived : Option Locator) : Loads l (l.register registration derived) := by
  unfold register
  dsimp only
  split
  · exact l.park_loads _
  · rename_i locator _
    have clears := cleared_clears sound locator derived
    have saves := save_saves _ locator registration.definition clears.inside
    have cleared : Loads l (if derived = some locator then l.dropTakeover locator else l) := by
      split
      · exact l.dropTakeover_loads locator
      · exact .refl l
    have saved := cleared.trans (save_loads _ locator registration.definition)
    cases derived with
    | some derived => exact saved.trans (takePlaceholder_loads (Status.ne_fetching (by decide) saves.saved) _)
    | none => exact saved.trans (rememberFirst_loads _ _)

theorem defineDerived_loads {l : Loader} (sound : Sound l) (registration : Registration)
    (derived : Option Locator) : Loads l (l.defineDerived registration derived) := by
  unfold defineDerived
  dsimp only
  split
  · exact (l.emit_loads _).trans (register_loads (l.emit_orderly _ sound).1 _ _)
  · exact register_loads sound _ _

/-! Finishing a retrieval. -/

theorem share_loads {l : Loader} {target : RecordId} (settled : l.status target ≠ .fetching)
    (locator : Locator) : Loads l (l.share locator target) := by
  have pointed : Loads l ((l.note (.shared locator (l.record target).locator)).point locator target) :=
    (l.note_loads _).trans (point_loads _ _ settled)
  unfold share
  dsimp only
  split
  · split
    · exact pointed.trans (setSecondLocator_loads _ _ _)
    · exact pointed
  · exact .refl l

theorem endFetching_loads (l : Loader) (r : RecordId) : Loads l (l.endFetching r) := by
  unfold endFetching
  split
  · rename_i fetching
    exact (Loads.of_update l (f := fun record => { record with status := .fetched })
      (.fetched fetching) fun _ => fetching).trans (note_loads _ _)
  · exact .refl l

theorem nameAnonymous_loads (l : Loader) (locator : Locator) : Loads l (l.nameAnonymous locator) := by
  unfold nameAnonymous
  split
  · have taken : Loads l { l with anonymous := none } := .of_same rfl rfl rfl
    exact taken.trans (save_loads _ locator _)
  · exact .refl l

theorem takeFirstNamed_loads {l : Loader} (sound : Sound l) (locator : Locator) (r : RecordId) :
    Loads l (l.takeFirstNamed locator r) := by
  unfold takeFirstNamed
  split
  · rename_i first named
    have taken : Loads l { l with firstNamed := none } := .of_same rfl rfl rfl
    have settled : Loader.status { l with firstNamed := none } first ≠ .fetching :=
      Status.ne_fetching (by decide) (sound.named named)
    dsimp only
    split
    · exact (taken.trans (point_loads _ locator settled)).trans (setSecondLocator_loads _ first locator)
    · exact taken
  · exact .refl l

theorem settleJoined_loads (l : Loader) (target : RecordId) (locator : Locator) :
    Loads l (l.settleJoined target locator) := by
  unfold settleJoined
  split
  · rename_i saved
    exact share_loads (Status.ne_fetching (by decide) saved) locator
  · split
    · exact l.endFetching_loads _
    · exact .refl l

/-- The locator that a retrieval was started for is looked up again, or it gets a new record. -/
theorem ensure_endFetching_loads {l : Loader} (sound : Sound l) (locator : Locator) :
    Loads l ((l.ensure locator .fetching).1.endFetching (l.ensure locator .fetching).2) := by
  have shifts := l.ensure_shifts locator
  have made := l.ensure_orderly locator (s := .fetching) (by decide) sound
  have entry := l.entry_ensure locator locator .fetching
  rw [if_pos rfl] at entry
  have anew := ensure_fetches sound locator
  generalize l.ensure locator .fetching = start at *
  obtain ⟨l₁, r⟩ := start
  dsimp only at *
  refine ⟨shifts.trans (l₁.endFetching_loads r).toShifts, fun x fetches => ?_⟩
  refine (anew x ((l₁.endFetching_loads r).steady x fetches)).resolve_right ?_
  rintro rfl
  obtain ⟨y, held, fetching⟩ := fetches
  have here : entry? (l₁.endFetching r) x = some r := by
    unfold endFetching
    split <;> exact entry
  cases held.symm.trans here
  exact Status.ne_fetching (by decide) (endFetching_fetched (made.1.known entry)) fetching

theorem settle_loads {l : Loader} (sound : Sound l) (token : FetchToken) (waiters : List Waiter) :
    Loads l (l.settle token waiters) := by
  have ended := ensure_endFetching_loads sound token.locator
  have made := l.ensure_orderly token.locator (s := .fetching) (by decide) sound
  unfold settle
  generalize l.ensure token.locator .fetching = start at *
  obtain ⟨l₁, r⟩ := start
  dsimp only at *
  have named := (nameAnonymous_orderly _ token.locator (l₁.endFetching_orderly r made.1).1).1
  have settled := (ended.trans (nameAnonymous_loads _ _)).trans (takeFirstNamed_loads named token.locator r)
  split
  · rename_i target _
    exact settled.trans (foldl_loads (fun l locator => l.settleJoined_loads target locator) _ _)
  · exact settled

theorem finishFetch_loads {l : Loader} (sound : Sound l) (token : FetchToken) :
    Loads l (l.finishFetch token).1 := by
  have closed : Loads l ((l.note (.fetched token.locator token.resource)).closeRetrieval token) :=
    .of_same rfl rfl rfl
  exact closed.trans
    (settle_loads ((l.note_orderly _).trans (closeRetrieval_orderly _ token) sound).1 token _)

theorem share_ends {l : Loader} {target : RecordId} (fetched : .fetched ≤ l.status target)
    (locator : Locator) : ¬ (l.share locator target).Fetches locator := by
  have settled := Status.ne_fetching (by decide) fetched
  rintro ⟨r, held, fetching⟩
  by_cases free : l.isFreeFor locator target = true
  · have entry : Loader.entry? (l.share locator target) locator = some target := by
      unfold share
      dsimp only
      rw [if_pos free]
      split <;> exact (entry_point _ _ _ _).trans (if_pos rfl)
    cases held.symm.trans entry
    have rises := (share_loads settled locator).toShifts.rises target
    exact Status.ne_fetching (by decide) (Status.le_trans fetched rises) fetching
  · rw [share, if_neg free] at held fetching
    refine free ?_
    rw [isFreeFor, held]
    have other : r ≠ target := by
      rintro rfl
      exact settled fetching
    simp [other, fetching, Status.lt_iff, Status.code]

/-- Whoever joined a retrieval shares its result, or is told that there is none. -/
theorem settleJoined_ends (l : Loader) (target : RecordId) (locator : Locator) :
    ¬ (l.settleJoined target locator).Fetches locator := by
  by_cases saved : .saved ≤ l.status target
  · rw [settleJoined, if_pos saved]
    exact share_ends (Status.le_trans (by decide) saved) locator
  · rw [settleJoined, if_neg saved]
    cases here : l.entry? locator with
    | none =>
      rintro ⟨r, held, -⟩
      cases here.symm.trans held
    | some x =>
      rintro ⟨r, held, fetching⟩
      have entry : entry? (l.endFetching x) locator = some x := by
        unfold endFetching
        split <;> exact here
      cases held.symm.trans entry
      by_cases before : l.status x = .fetching
      · exact Status.ne_fetching (by decide) (endFetching_fetched (by rw [before]; decide)) fetching
      · simp only [endFetching, if_neg before] at fetching
        exact before fetching

theorem foldl_settleJoined_ends (target : RecordId) {locators : List Locator} {locator : Locator}
    (member : locator ∈ locators) (l : Loader) :
    ¬ (locators.foldl (settleJoined · target) l).Fetches locator := by
  induction locators generalizing l with
  | nil => cases member
  | cons first rest ih =>
    rcases List.mem_cons.mp member with rfl | later
    · have later := foldl_loads (fun l locator => l.settleJoined_loads target locator)
        (l.settleJoined target locator) rest
      exact fun fetches => l.settleJoined_ends target locator (later.steady locator fetches)
    · exact ih later _

/-- No locator that has waited for a retrieval is left waiting. -/
theorem finishFetch_ends {l : Loader} (sound : Sound l) (token : FetchToken) {waiter : Waiter}
    (waited : waiter ∈ (l.finishFetch token).2) :
    ¬ (l.finishFetch token).1.Fetches waiter.locator := by
  by_cases here : waiter.locator = token.locator
  · rintro ⟨r, held, fetching⟩
    obtain ⟨x, landed, fetched⟩ := finishFetch_landed sound token
    rw [here] at held
    cases held.symm.trans landed
    exact Status.ne_fetching (by decide) fetched fetching
  · have closed := ((l.note_orderly (.fetched token.locator token.resource)).trans
      (closeRetrieval_orderly _ token) sound).1
    obtain ⟨before, target, -, -, -, -, same⟩ :=
      settle_split closed token (l.finishFetch token).2
    have settled : (l.finishFetch token).1 = _ := same
    rw [settled]
    refine foldl_settleJoined_ends target (List.mem_filter.mpr ⟨List.mem_map_of_mem waited, ?_⟩) before
    simpa using here

/-! Waiting. -/

theorem awaitResource_loads (l : Loader) (waiter : Waiter) : Loads l (l.awaitResource waiter).1 := by
  unfold awaitResource
  dsimp only
  split
  · rename_i known retrieved
    exact share_loads (Status.ne_fetching (by decide) (retrieved?_fetched retrieved)) waiter.locator
  · split <;> exact .of_same rfl rfl rfl

theorem settledEntry_loads (l : Loader) (locator : Locator) : Loads l (l.settledEntry locator).1 := by
  unfold settledEntry
  split
  · exact .refl l
  · split
    · exact .refl l
    · exact l.reportAll_loads _

theorem settledEntry_saved (l : Loader) (locator : Locator) (r : RecordId)
    (found : (l.settledEntry locator).2 = .ready r ∨
      ∃ dependencies, (l.settledEntry locator).2 = .waits r dependencies) : .saved ≤ l.status r := by
  cases held : l.entry? locator with
  | none => simp [settledEntry, held] at found
  | some x =>
    obtain ⟨-, missing⟩ | ⟨saved, ⟨-, ready⟩ | ⟨-, waits⟩⟩ := l.settledEntry_cases held
    · simp [missing] at found
    · simp only [ready, Settled.ready.injEq, reduceCtorEq, exists_false, or_false] at found
      exact found ▸ saved
    · simp only [waits, Settled.waits.injEq, reduceCtorEq, exists_and_left, exists_eq', and_true,
        false_or] at found
      exact found ▸ saved

/-- Only a saved record is ever told that it is ready. -/
theorem arrive_loads {l : Loader} {loaded : Option RecordId}
    (saved : ∀ r, loaded = some r → .saved ≤ l.status r) (b : BarrierId) :
    Loads l (l.arrive b loaded).1 := by
  have counted (l : Loader) : Loads l (l.countDown b).1 := by
    unfold countDown
    dsimp only
    split <;> exact .of_same rfl rfl rfl
  cases loaded with
  | none => exact counted l
  | some r =>
    refine Loads.trans ?_ (counted (l.markReady r))
    unfold markReady
    split
    · rename_i below
      have status : (l.record r).status = .saved := by
        have above := saved r rfl
        simp only [Loader.status] at above below
        revert above below
        cases (l.record r).status <;> simp [Status.le_iff, Status.lt_iff, Status.code]
      exact (Loads.of_update l (f := fun record => { record with status := .ready })
        (.readied status) fun now => by cases now).trans (note_loads _ _)
    · exact .refl l

end Loader

end ModuleLoader
