import ModuleLoader.Proofs.Effects.Registering

/-! What the end of a retrieval changes besides the ledger. The locator that it was started for stands
for a record that is no longer being retrieved, and keeps doing so. -/
namespace ModuleLoader.Loader

theorem share_orderly {l : Loader} {target : RecordId} (fetched : .fetched ≤ l.status target)
    (locator : Locator) : Orderly l (l.share locator target) := by
  have pointed : Orderly l ((l.note (.shared locator (l.record target).locator)).point locator target) :=
    (l.note_orderly _).trans (point_orderly _ fetched)
  unfold share
  dsimp only
  split
  · split
    · exact pointed.trans (setSecondLocator_orderly _ _ _)
    · exact pointed
  · exact .refl l

theorem endFetching_orderly (l : Loader) (r : RecordId) : Orderly l (l.endFetching r) := by
  unfold endFetching
  split
  · rename_i fetching
    exact l.setStatus_orderly (by rw [fetching]; decide)
  · exact .refl l

theorem endFetching_fetched {l : Loader} {r : RecordId} (known : l.status r ≠ .unknown) :
    .fetched ≤ (l.endFetching r).status r := by
  unfold endFetching
  split
  · rw [status_setStatus, if_pos ⟨rfl, index_lt_of_known known⟩]
    exact Status.le_refl _
  · rename_i other
    revert known other
    cases l.status r <;> decide

theorem record_endFetching {l : Loader} {r : RecordId} (fetching : l.status r = .fetching) (x : RecordId) :
    (l.endFetching r).record x =
      if x = r then { l.record x with status := .fetched } else l.record x := by
  rw [endFetching, if_pos fetching]
  exact record_updateRecord_inside (index_lt_of_known (by rw [fetching]; decide)) _ x

theorem nameAnonymous_orderly (l : Loader) (locator : Locator) :
    Orderly l (l.nameAnonymous locator) := by
  unfold nameAnonymous
  split
  · rename_i definition _
    have taken : Orderly l { l with anonymous := none } := .of_same rfl rfl rfl
    exact taken.trans (save_orderly _ locator definition)
  · exact .refl l

theorem takeFirstNamed_orderly (l : Loader) (locator : Locator) (r : RecordId) :
    Orderly l (l.takeFirstNamed locator r) := by
  unfold takeFirstNamed
  split
  · rename_i first named
    have taken : Orderly l { l with firstNamed := none } :=
      .of_rising rfl (fun _ => Status.le_refl _) (fun _ none => by cases none)
    dsimp only
    split
    · intro sound
      have saved : .saved ≤ Loader.status { l with firstNamed := none } first := sound.named named
      exact (taken.trans ((point_orderly _ (Status.le_trans (by decide) saved)).trans
        (setSecondLocator_orderly _ first locator))) sound
    · exact taken
  · exact .refl l

theorem settleJoined_orderly (l : Loader) (target : RecordId) (locator : Locator) :
    Orderly l (l.settleJoined target locator) := by
  unfold settleJoined
  split
  · rename_i saved
    exact share_orderly (Status.le_trans (by decide) saved) locator
  · split
    · exact l.endFetching_orderly _
    · exact .refl l

/-- Making sure that a locator stands for a record on its way. -/
theorem ensure_orderly (l : Loader) (locator : Locator) {s : Status} (known : s ≠ .unknown) :
    Orderly l (l.ensure locator s).1 := by
  intro sound
  refine ⟨⟨?_, ?_⟩, l.ensure_rises locator s, ?_⟩
  · intro x r held
    rw [entry_ensure] at held
    obtain same | ⟨-, -, -, status⟩ := l.ensure_status locator s r
    · split at held
      · cases held
        obtain ⟨r, there, made⟩ | ⟨-, made⟩ := l.ensure_cases locator s
        · rw [same, made]
          exact sound.known there
        · have status := (l.status_newRecord locator s ⟨l.records.size⟩).trans (if_pos rfl)
          rw [made]
          exact fun unknown => known (status.symm.trans unknown)
      · rw [same]
        exact sound.known held
    · rw [status]
      exact known
  · intro r first
    rw [ensure_named] at first
    exact Status.le_trans (sound.named first) (l.ensure_rises locator s r)
  · intro x r held
    rw [entry_ensure]
    split
    · rename_i here
      subst here
      obtain ⟨r', there, made⟩ | ⟨absent, -⟩ := l.ensure_cases locator s
      · cases held.symm.trans there
        exact ⟨r, by rw [made], fun fetched => Status.le_trans fetched (l.ensure_rises locator s r)⟩
      · rw [absent] at held
        cases held
    · exact ⟨r, held, fun fetched => Status.le_trans fetched (l.ensure_rises locator s r)⟩

/-- A locator stands for a record that is no longer being retrieved. -/
def Landed (l : Loader) (locator : Locator) : Prop :=
  ∃ r, l.entry? locator = some r ∧ .fetched ≤ l.status r

theorem Grows.landed {l l' : Loader} (grown : Grows l l') {locator : Locator}
    (landed : Landed l locator) : Landed l' locator := by
  obtain ⟨r, held, fetched⟩ := landed
  obtain ⟨r', held, kept⟩ := grown.keeps held
  exact ⟨r', held, kept fetched⟩

/-- First the locator that was asked for is settled, then those who joined its retrieval. -/
theorem settle_split {l : Loader} (sound : Sound l) (token : FetchToken) (waiters : List Waiter) :
    ∃ before target, Sound before ∧ Grows l before ∧
      before.entry? token.locator = some target ∧ .fetched ≤ before.status target ∧
      l.settle token waiters =
        ((waiters.map Waiter.locator).filter (· ≠ token.locator)).foldl (settleJoined · target)
          before := by
  have made := l.ensure_orderly token.locator (s := .fetching) (by decide) sound
  have entry := l.entry_ensure token.locator token.locator .fetching
  rw [if_pos rfl] at entry
  unfold settle
  generalize l.ensure token.locator .fetching = start at *
  obtain ⟨l₁, r⟩ := start
  dsimp only at *
  have ended := l₁.endFetching_orderly r made.1
  have held : entry? (l₁.endFetching r) token.locator = some r := by
    unfold endFetching
    split <;> exact entry
  have named := (nameAnonymous_orderly _ token.locator) ended.1
  have taken := (takeFirstNamed_orderly _ token.locator r) named.1
  obtain ⟨target, found, fetched⟩ := (named.2.trans taken.2).landed
    ⟨r, held, endFetching_fetched (made.1.known entry)⟩
  refine ⟨_, target, taken.1, made.2.trans (ended.2.trans (named.2.trans taken.2)), found, fetched, ?_⟩
  rw [found]

theorem settle_orderly (l : Loader) (token : FetchToken) (waiters : List Waiter) :
    Orderly l (l.settle token waiters) := by
  intro sound
  obtain ⟨before, target, sound, grown, -, -, same⟩ := settle_split sound token waiters
  rw [same]
  have joined := foldl_orderly (fun l locator => l.settleJoined_orderly target locator) before
    ((waiters.map Waiter.locator).filter (· ≠ token.locator)) sound
  exact ⟨joined.1, grown.trans joined.2⟩

theorem settle_landed {l : Loader} (sound : Sound l) (token : FetchToken) (waiters : List Waiter) :
    Landed (l.settle token waiters) token.locator := by
  obtain ⟨before, target, sound, -, found, fetched, same⟩ := settle_split sound token waiters
  rw [same]
  exact (foldl_orderly (fun l locator => l.settleJoined_orderly target locator) before _ sound).2.landed
    ⟨target, found, fetched⟩

/-! The ledger. -/

theorem closeRetrieval_orderly (l : Loader) (token : FetchToken) :
    Orderly l (l.closeRetrieval token) := .of_same rfl rfl rfl

theorem finishFetch_orderly (l : Loader) (token : FetchToken) :
    Orderly l (l.finishFetch token).1 :=
  (l.note_orderly _).trans ((closeRetrieval_orderly _ token).trans (settle_orderly _ token _))

/-- Finishing a retrieval moves it in the ledger, and all else that concerns loads stays. -/
theorem finishFetch_quiet (l : Loader) (token : FetchToken) :
    Quiet (l.closeRetrieval token) (l.finishFetch token).1 :=
  Quiet.trans (b := (l.note (.fetched token.locator token.resource)).closeRetrieval token)
    ⟨rfl, rfl, rfl, rfl⟩ ((settle_edits _ token _).quiet id)

theorem finishFetch_landed {l : Loader} (sound : Sound l) (token : FetchToken) :
    Landed (l.finishFetch token).1 token.locator :=
  settle_landed ((l.note_orderly _).trans (closeRetrieval_orderly _ token) sound).1 token _

theorem retrieved?_fetched {l : Loader} {resource : PhysicalId} {locator : Locator} {r : RecordId}
    (known : l.retrieved? resource locator = some r) : .fetched ≤ l.status r := by
  simp only [retrieved?, bind, Option.bind_eq_some_iff] at known
  obtain ⟨first, -, r', -, chosen⟩ := known
  split at chosen
  · rename_i usable
    cases chosen
    exact usable.1
  · cases chosen

/-- What entering someone into the ledger amounts to. -/
theorem awaitResource_cases (l : Loader) (waiter : Waiter) :
    let resource := l.resolver.physicalId waiter.locator
    (∃ known, l.retrieved? resource waiter.locator = some known ∧
      l.awaitResource waiter = (l.share waiter.locator known, .ready)) ∨
    (∃ waiters, l.retrieved? resource waiter.locator = none ∧
      l.ledger.inFlight.get? resource = some waiters ∧
      (l.awaitResource waiter).2 = .joined ∧
      (l.awaitResource waiter).1.ledger =
        ⟨l.ledger.inFlight.insert resource (waiters ++ [waiter]), l.ledger.completed.erase resource⟩) ∨
    (l.retrieved? resource waiter.locator = none ∧ l.ledger.inFlight.get? resource = none ∧
      (l.awaitResource waiter).2 = .started ⟨resource, waiter.locator⟩ ∧
      (l.awaitResource waiter).1.ledger =
        ⟨l.ledger.inFlight.insert resource [waiter], l.ledger.completed.erase resource⟩) := by
  intro resource
  unfold awaitResource
  dsimp only
  split
  · rename_i known found
    exact .inl ⟨known, found, rfl⟩
  · rename_i missing
    split
    · rename_i waiters flying
      exact .inr (.inl ⟨waiters, missing, flying, rfl, rfl⟩)
    · rename_i grounded
      exact .inr (.inr ⟨missing, grounded, rfl, rfl⟩)

/-- The ledger aside, entering someone at most shares a record. -/
theorem awaitResource_orderly (l : Loader) (waiter : Waiter) :
    Orderly l (l.awaitResource waiter).1 := by
  unfold awaitResource
  dsimp only
  split
  · rename_i known found
    exact share_orderly (retrieved?_fetched found) waiter.locator
  · split <;> exact .of_same rfl rfl rfl

theorem awaitResource_base (l : Loader) (waiter : Waiter) :
    (l.awaitResource waiter).1.config = l.config ∧ (l.awaitResource waiter).1.resolver = l.resolver ∧
      (l.awaitResource waiter).1.barriers = l.barriers := by
  unfold awaitResource
  dsimp only
  split
  · have quiet := (l.share_edits waiter.locator ‹_›).quiet id
    exact ⟨quiet.config, quiet.resolver, quiet.barriers⟩
  · split <;> exact ⟨rfl, rfl, rfl⟩

/-! Reading an entry again. -/

/-- What an entry whose record is at hand has to wait for. -/
theorem settledEntry_cases (l : Loader) {locator : Locator} {r : RecordId}
    (held : l.entry? locator = some r) :
    (l.status r < .saved ∧ (l.settledEntry locator).2 = .missing) ∨
    (.saved ≤ l.status r ∧
      (((l.pureDependencies r).1 = [] ∧ (l.settledEntry locator).2 = .ready r) ∨
        ((l.pureDependencies r).1 ≠ [] ∧
          (l.settledEntry locator).2 = .waits r (l.pureDependencies r).1))) := by
  simp only [settledEntry, held]
  by_cases below : l.status r < .saved
  · rw [if_pos below]
    exact .inl ⟨below, rfl⟩
  · rw [if_neg below]
    refine .inr ⟨Nat.not_lt.mp below, ?_⟩
    cases bare : (l.pureDependencies r).1 with
    | nil => exact .inl ⟨rfl, rfl⟩
    | cons d rest => exact .inr ⟨List.cons_ne_nil _ _, rfl⟩

theorem settledEntry_orderly (l : Loader) (locator : Locator) :
    Orderly l (l.settledEntry locator).1 := by
  unfold settledEntry
  split
  · exact .refl l
  · split
    · exact .refl l
    · exact l.reportAll_orderly _

end ModuleLoader.Loader
