import ModuleLoader.Proofs.Pruning

/-! The walk that looks for circles, without a bound on how far it goes. Where locators stand for records
that were made for them, it ends with just what the bounded walk finds, and it fails only where there is
nothing to be found. -/
namespace ModuleLoader.Loader

variable {l : Loader}

/-- A locator stands for a saved module, and the module depends on another locator. -/
def Waits (l : Loader) (d e : Locator) : Prop :=
  ∃ r, l.entry? d = some r ∧ l.status r = .saved ∧ e ∈ (l.record r).dependencies

/-- With a path that has been walked so far, latest first, the search that goes on from a locator ends, and
this is its answer. -/
inductive Search (l : Loader) : List Locator → Locator → Option (List Locator) → Prop where
  | absent {path : List Locator} {d : Locator} (unregistered : l.entry? d = none) : Search l path d none
  | idle {path : List Locator} {d : Locator} {r : RecordId} (held : l.entry? d = some r)
      (other : l.status r ≠ .saved) : Search l path d none
  /-- A dependency has been passed on the way. -/
  | closed {path : List Locator} {d e : Locator} {r : RecordId} (held : l.entry? d = some r)
      (saved : l.status r = .saved) (member : e ∈ (l.record r).dependencies)
      (passed : e ∈ (l.record r).locator :: path) : Search l path d (some ((l.record r).locator :: path))
  /-- The first dependency from which something is found is the one that counts. -/
  | further {path found before after : List Locator} {d e : Locator} {r : RecordId}
      (held : l.entry? d = some r) (saved : l.status r = .saved)
      (apart : ∀ x ∈ (l.record r).dependencies, x ∉ (l.record r).locator :: path)
      (split : (l.record r).dependencies = before ++ e :: after)
      (failed : ∀ x ∈ before, Search l ((l.record r).locator :: path) x none)
      (succeeded : Search l ((l.record r).locator :: path) e (some found)) : Search l path d (some found)
  | exhausted {path : List Locator} {d : Locator} {r : RecordId} (held : l.entry? d = some r)
      (saved : l.status r = .saved)
      (apart : ∀ x ∈ (l.record r).dependencies, x ∉ (l.record r).locator :: path)
      (failed : ∀ x ∈ (l.record r).dependencies, Search l ((l.record r).locator :: path) x none) :
      Search l path d none

/-! The bounded walk. -/

theorem waitingPath?_absent {fuel : Nat} {path : List Locator} {d : Locator} (absent : l.entry? d = none) :
    l.waitingPath? fuel path d = none := by
  cases fuel with
  | zero => rfl
  | succ fuel => simp [waitingPath?, absent]

theorem waitingPath?_idle {fuel : Nat} {path : List Locator} {d : Locator} {r : RecordId}
    (held : l.entry? d = some r) (other : l.status r ≠ .saved) : l.waitingPath? fuel path d = none := by
  cases fuel with
  | zero => rfl
  | succ fuel => simp [waitingPath?, held, show (l.record r).status ≠ .saved from other]

theorem any_passed_iff {path dependencies : List Locator} :
    dependencies.any (path.contains ·) = true ↔ ∃ e ∈ dependencies, e ∈ path := by
  simp only [List.any_eq_true, List.contains_iff_mem]

/-- Is there fuel for all that a walk has not passed through, if it goes on at all? -/
def Suffices (l : Loader) (fuel : Nat) (path : List Locator) (d : Locator) : Prop :=
  ∀ r, l.entry? d = some r → (l.unvisited (d :: path)).length < fuel

/-- What has not been passed through takes less fuel to go on from. -/
theorem Suffices.next (proper : l.Proper) {fuel : Nat} {path : List Locator} {d e : Locator} {r : RecordId}
    (held : l.entry? d = some r) (enough : l.Suffices (fuel + 1) path d)
    (apart : e ∉ (l.record r).locator :: path) : l.Suffices fuel ((l.record r).locator :: path) e := by
  intro x there
  have fewer := unvisited_cons_lt there apart
  have room := enough r held
  rw [proper held] at fewer ⊢
  omega

/-- The bounded walk is a search that ends. -/
theorem search_waitingPath? (proper : l.Proper) {fuel : Nat} {path : List Locator} {d : Locator}
    (enough : l.Suffices fuel path d) : Search l path d (l.waitingPath? fuel path d) := by
  induction fuel generalizing path d with
  | zero =>
    cases held : l.entry? d with
    | none => exact .absent held
    | some r => exact absurd (enough r held) (Nat.not_lt_zero _)
  | succ fuel ih =>
    cases held : l.entry? d with
    | none =>
      rw [waitingPath?_absent held]
      exact .absent held
    | some r =>
      by_cases saved : l.status r = .saved
      · rw [waitingPath?_step held saved]
        split
        · rename_i meets
          obtain ⟨e, member, passed⟩ := any_passed_iff.mp meets
          exact .closed held saved member passed
        · rename_i misses
          have apart : ∀ x ∈ (l.record r).dependencies, x ∉ (l.record r).locator :: path :=
            fun x member passed => misses (any_passed_iff.mpr ⟨x, member, passed⟩)
          have each : ∀ x ∈ (l.record r).dependencies, Search l ((l.record r).locator :: path) x
              (l.waitingPath? fuel ((l.record r).locator :: path) x) :=
            fun x member => ih (enough.next proper held (apart x member))
          cases answer : (l.record r).dependencies.findSome?
              (l.waitingPath? fuel ((l.record r).locator :: path)) with
          | none =>
            refine .exhausted held saved apart fun x member => ?_
            rw [← List.findSome?_eq_none_iff.mp answer x member]
            exact each x member
          | some found =>
            obtain ⟨before, e, after, split, succeeded, failed⟩ := List.findSome?_eq_some_iff.mp answer
            refine .further held saved apart split (fun x member => ?_) ?_
            · rw [← failed x member]
              exact each x (split ▸ List.mem_append_left _ member)
            · rw [← succeeded]
              exact each e (split ▸ List.mem_append_right _ (List.mem_cons_self ..))
      · rw [waitingPath?_idle held saved]
        exact .idle held saved

/-- A search has no other answer than the one that the bounded walk gives. -/
theorem Search.eq_waitingPath? (proper : l.Proper) {path : List Locator} {d : Locator}
    {answer : Option (List Locator)} (search : Search l path d answer) {fuel : Nat}
    (enough : l.Suffices fuel path d) : answer = l.waitingPath? fuel path d := by
  induction search generalizing fuel with
  | absent unregistered => rw [waitingPath?_absent unregistered]
  | idle held other => rw [waitingPath?_idle held other]
  | @closed path d e r held saved member passed =>
    obtain ⟨fuel, rfl⟩ := Nat.exists_eq_succ_of_ne_zero (Nat.ne_zero_of_lt (enough r held))
    rw [waitingPath?_step held saved, if_pos (any_passed_iff.mpr ⟨e, member, passed⟩)]
  | @further path found before after d e r held saved apart split failed succeeded failedIH succeededIH =>
    obtain ⟨fuel, rfl⟩ := Nat.exists_eq_succ_of_ne_zero (Nat.ne_zero_of_lt (enough r held))
    have next {x : Locator} (member : x ∈ (l.record r).dependencies) :=
      enough.next proper held (apart x member)
    rw [waitingPath?_step held saved, if_neg, eq_comm, List.findSome?_eq_some_iff]
    · refine ⟨before, e, after, split, ?_, fun x member => ?_⟩
      · exact (succeededIH (next (split ▸ List.mem_append_right _ (List.mem_cons_self ..)))).symm
      · exact (failedIH x member (next (split ▸ List.mem_append_left _ member))).symm
    · intro meets
      obtain ⟨x, member, passed⟩ := any_passed_iff.mp meets
      exact apart x member passed
  | @exhausted path d r held saved apart failed ih =>
    obtain ⟨fuel, rfl⟩ := Nat.exists_eq_succ_of_ne_zero (Nat.ne_zero_of_lt (enough r held))
    rw [waitingPath?_step held saved, if_neg, eq_comm, List.findSome?_eq_none_iff]
    · exact fun x member => (ih x member (enough.next proper held (apart x member))).symm
    · intro meets
      obtain ⟨x, member, passed⟩ := any_passed_iff.mp meets
      exact apart x member passed

theorem suffices_pathBound (path : List Locator) (d : Locator) : l.Suffices l.pathBound path d := by
  intro r _
  have all : (l.unvisited (d :: path)).length ≤ l.registry.size := by
    rw [OrderedMap.size, ← List.length_map Prod.fst]
    exact List.length_filter_le ..
  have bound : l.registry.size + 1 ≤ l.pathBound := by
    rw [pathBound]
    exact Nat.le_mul_of_pos_right _ (Nat.succ_pos _)
  omega

/-- Every search ends, and its answer is the one that is found within the bound. -/
theorem search_iff (proper : l.Proper) {path : List Locator} {d : Locator} {answer : Option (List Locator)} :
    Search l path d answer ↔ answer = l.waitingPath? l.pathBound path d := by
  constructor
  · exact fun search => search.eq_waitingPath? proper (suffices_pathBound path d)
  · rintro rfl
    exact search_waitingPath? proper (suffices_pathBound path d)

/-! What there is to be found. -/

/-- Waiting modules, each a dependency of the one before; the last one depends on one of them, or on what had
been passed before them. -/
structure Circling (l : Loader) (passed walk : List Locator) : Prop where
  steps : walk.IsChain l.Waits
  closed : ∃ last ∈ walk.getLast?, ∃ e ∈ passed ++ walk, l.Waits last e

theorem circling_singleton {passed : List Locator} {d : Locator} :
    l.Circling passed [d] ↔ ∃ e ∈ d :: passed, l.Waits d e := by
  constructor
  · rintro ⟨-, last, here, e, member, waits⟩
    cases here
    exact ⟨e, by simpa [or_comm] using member, waits⟩
  · rintro ⟨e, member, waits⟩
    exact ⟨.singleton d, d, rfl, e, by simpa [or_comm] using member, waits⟩

theorem circling_cons_cons {passed walk : List Locator} {d x : Locator} :
    l.Circling passed (d :: x :: walk) ↔ l.Waits d x ∧ l.Circling (d :: passed) (x :: walk) := by
  have same (e : Locator) : e ∈ passed ++ d :: x :: walk ↔ e ∈ d :: passed ++ x :: walk := by
    simp only [List.mem_append, List.mem_cons]
    tauto
  constructor
  · rintro ⟨steps, last, here, e, member, waits⟩
    obtain ⟨first, rest⟩ := List.isChain_cons_cons.mp steps
    exact ⟨first, rest, last, here, e, (same e).mp member, waits⟩
  · rintro ⟨first, rest, last, here, e, member, waits⟩
    exact ⟨List.isChain_cons_cons.mpr ⟨first, rest⟩, last, here, e, (same e).mpr member, waits⟩

/-- A search that fails at a waiting module has gone through all that the module depends on. -/
theorem Search.exhausted_of_saved {path : List Locator} {d : Locator} {r : RecordId}
    (search : Search l path d none) (held : l.entry? d = some r) (saved : l.status r = .saved) :
    ∀ x ∈ (l.record r).dependencies, x ∉ (l.record r).locator :: path ∧
      Search l ((l.record r).locator :: path) x none := by
  cases search with
  | absent unregistered => cases held.symm.trans unregistered
  | idle there other =>
    cases held.symm.trans there
    exact absurd saved other
  | exhausted there _ apart failed =>
    cases held.symm.trans there
    exact fun x member => ⟨apart x member, failed x member⟩

/-- Where a search fails there is no circle. -/
theorem Search.not_circling (proper : l.Proper) {path walk : List Locator} {d : Locator}
    (search : Search l path d none) : ¬ l.Circling path (d :: walk) := by
  intro circling
  induction walk generalizing path d with
  | nil =>
    obtain ⟨e, passed, r, held, saved, member⟩ := circling_singleton.mp circling
    exact (search.exhausted_of_saved held saved e member).1 (proper held ▸ passed)
  | cons x walk ih =>
    obtain ⟨⟨r, held, saved, member⟩, rest⟩ := circling_cons_cons.mp circling
    exact ih (proper held ▸ (search.exhausted_of_saved held saved x member).2) rest

/-- What a search finds is a circle, on which no module is passed twice. -/
theorem Search.circling (proper : l.Proper) {path found : List Locator} {d : Locator}
    (search : Search l path d (some found)) :
    ∃ walk, found = (d :: walk).reverse ++ path ∧ l.Circling path (d :: walk) ∧ (d :: walk).Nodup ∧
      ∀ x ∈ walk, x ∉ path := by
  generalize same : some found = answer at search
  induction search generalizing found with
  | absent | idle | exhausted => cases same
  | @closed path d e r held saved member passed =>
    cases same
    rw [proper held] at passed ⊢
    exact ⟨[], rfl, circling_singleton.mpr ⟨e, passed, r, held, saved, member⟩, List.nodup_singleton d,
      List.forall_mem_nil _⟩
  | @further path found' before after d e r held saved apart split failed succeeded _ ih =>
    cases same
    have member : e ∈ (l.record r).dependencies := split ▸ List.mem_append_right _ (List.mem_cons_self ..)
    obtain ⟨walk, rfl, circling, distinct, fresh⟩ := ih rfl
    have here := apart e member
    rw [proper held] at circling fresh here ⊢
    refine ⟨e :: walk, by simp, circling_cons_cons.mpr ⟨⟨r, held, saved, member⟩, circling⟩, ?_, ?_⟩
    · refine List.nodup_cons.mpr ⟨?_, distinct⟩
      rintro (_ | ⟨_, again⟩)
      · exact here (List.mem_cons_self ..)
      · exact fresh d again (List.mem_cons_self ..)
    · rintro x (_ | ⟨_, later⟩)
      · exact List.not_mem_of_not_mem_cons here
      · exact List.not_mem_of_not_mem_cons (fresh x later)

end ModuleLoader.Loader
