import ModuleLoader.Loader.Loading
import Mathlib.Algebra.Ring.Nat
import Mathlib.Data.Finite.Prod

/-! Circles of waiting are found. What modules go on to wait for, after circles have been cut, does not
lead back to them, unless they know each other by names that are not their own. -/
namespace ModuleLoader.Loader

variable {l : Loader}

/-- Waiting modules lead from a locator back to the target, and not through what is avoided. -/
inductive Closes (l : Loader) (target : Locator) (avoided : List Locator) : Locator → Prop where
  | closed {d : Locator} {r : RecordId} (fresh : d ∉ avoided) (held : l.entry? d = some r)
      (saved : l.status r = .saved) (member : target ∈ (l.record r).dependencies) : Closes l target avoided d
  | further {d e : Locator} {r : RecordId} (fresh : d ∉ avoided) (held : l.entry? d = some r)
      (saved : l.status r = .saved) (member : e ∈ (l.record r).dependencies)
      (rest : Closes l target avoided e) : Closes l target avoided d

theorem Closes.fresh {target d : Locator} {avoided : List Locator} (closes : Closes l target avoided d) :
    d ∉ avoided := by
  cases closes with
  | closed fresh => exact fresh
  | further fresh => exact fresh

theorem Closes.held {target d : Locator} {avoided : List Locator} (closes : Closes l target avoided d) :
    ∃ r, l.entry? d = some r := by
  cases closes with
  | closed _ held => exact ⟨_, held⟩
  | further _ held => exact ⟨_, held⟩

/-- What closes a circle at all does so without coming back to where it starts. -/
theorem Closes.next {target d : Locator} {avoided : List Locator} (closes : Closes l target avoided d) :
    ∃ r, l.entry? d = some r ∧ l.status r = .saved ∧
      (target ∈ (l.record r).dependencies ∨
        ∃ e ∈ (l.record r).dependencies, Closes l target (d :: avoided) e) := by
  -- The walk passes through `d` for the last time, or not at all.
  have last : ∀ x, Closes l target avoided x → Closes l target (d :: avoided) x ∨
      ∃ r, l.entry? d = some r ∧ l.status r = .saved ∧
        (target ∈ (l.record r).dependencies ∨
          ∃ e ∈ (l.record r).dependencies, Closes l target (d :: avoided) e) := by
    intro x closes
    induction closes with
    | @closed x r fresh held saved member =>
      by_cases here : x = d
      · exact .inr ⟨r, here ▸ held, saved, .inl member⟩
      · exact .inl (.closed (List.not_mem_cons_of_ne_of_not_mem here fresh) held saved member)
    | @further x e r fresh held saved member rest ih =>
      obtain later | found := ih
      · by_cases here : x = d
        · exact .inr ⟨r, here ▸ held, saved, .inr ⟨e, member, later⟩⟩
        · exact .inl (.further (List.not_mem_cons_of_ne_of_not_mem here fresh) held saved member later)
      · exact .inr found
  exact (last d closes).resolve_left fun again => again.fresh (List.mem_cons_self ..)

/-- The registered locators that a walk has not passed through. -/
def unvisited (l : Loader) (passed : List Locator) : List Locator :=
  l.registry.keys.filter fun d => !passed.contains d

theorem unvisited_cons_lt {passed : List Locator} {d : Locator} {r : RecordId}
    (held : l.entry? d = some r) (fresh : d ∉ passed) :
    (l.unvisited (d :: passed)).length < (l.unvisited passed).length := by
  have member : d ∈ l.unvisited passed := by
    refine List.mem_filter.mpr ⟨?_, by simpa using fresh⟩
    exact (OrderedMap.mem_keys_iff ..).mpr (Option.isSome_iff_exists.mpr ⟨r, held⟩)
  have narrower : l.unvisited (d :: passed) = (l.unvisited passed).filter (· ≠ d) := by
    rw [unvisited, unvisited, List.filter_filter]
    congr 1
    funext e
    simp [Bool.not_or]
  rw [narrower]
  exact List.length_filter_lt_length_iff_exists.mpr ⟨d, member, by simp⟩

theorem waitingPath?_step {fuel : Nat} {path : List Locator} {d : Locator} {r : RecordId}
    (held : l.entry? d = some r) (saved : l.status r = .saved) :
    l.waitingPath? (fuel + 1) path d =
      if (l.record r).dependencies.any (((l.record r).locator :: path).contains ·) then
        some ((l.record r).locator :: path)
      else (l.record r).dependencies.findSome? (l.waitingPath? fuel ((l.record r).locator :: path)) := by
  have status : (l.record r).status = .saved := saved
  simp only [waitingPath?, held, Option.bind_eq_bind, Option.bind_some, status, if_true]

/-- A walk that closes is found, as long as there is fuel for all that it has not passed through. -/
theorem waitingPath?_isSome {target : Locator} {fuel : Nat} {path passed : List Locator}
    {d : Locator} (closes : Closes l target passed d) (member : target ∈ path)
    (enough : (l.unvisited (d :: passed)).length ≤ fuel) :
    (l.waitingPath? (fuel + 1) path d).isSome = true := by
  induction fuel generalizing path passed d with
  | zero =>
    obtain ⟨r, held, saved, closed | ⟨e, -, rest⟩⟩ := closes.next
    · have here : (l.record r).dependencies.any (((l.record r).locator :: path).contains ·) = true :=
        List.any_eq_true.mpr ⟨target, closed, List.contains_iff_mem.mpr (List.mem_cons_of_mem _ member)⟩
      rw [waitingPath?_step held saved, if_pos here]
      rfl
    · obtain ⟨x, there⟩ := rest.held
      have fewer := unvisited_cons_lt there rest.fresh
      omega
  | succ fuel ih =>
    obtain ⟨r, held, saved, next⟩ := closes.next
    rw [waitingPath?_step held saved]
    split
    · rfl
    · rename_i open'
      obtain closed | ⟨e, needed, rest⟩ := next
      · refine absurd (List.any_eq_true.mpr ⟨target, closed, ?_⟩) open'
        exact List.contains_iff_mem.mpr (List.mem_cons_of_mem _ member)
      · obtain ⟨x, there⟩ := rest.held
        have fewer := unvisited_cons_lt there rest.fresh
        rw [List.findSome?_isSome_iff]
        exact ⟨e, needed, ih rest (List.mem_cons_of_mem _ member) (by omega)⟩

/-- A dependency from which waiting modules lead back is not waited for. -/
theorem circle?_isSome {module d : Locator} (closes : Closes l module [] d) :
    (l.circle? module d).isSome = true := by
  have bound : 1 + l.registry.size ≤ l.pathBound := by
    rw [pathBound, Nat.add_comm]
    exact Nat.le_mul_of_pos_right _ (Nat.succ_pos _)
  obtain ⟨spare, bound⟩ := Nat.exists_eq_add_of_le bound
  rw [circle?, Option.isSome_map, bound, Nat.add_assoc, Nat.add_comm]
  refine waitingPath?_isSome closes (List.mem_singleton_self _) ?_
  have all : (l.unvisited [d]).length ≤ l.registry.size := by
    rw [OrderedMap.size, ← List.length_map Prod.fst]
    exact List.length_filter_le ..
  omega

/-! Names that are not a module's own. -/

/-- Locators stand for records that were made for them. -/
def Proper (l : Loader) : Prop := ∀ {d r}, l.entry? d = some r → (l.record r).locator = d

/-- A waiting module depends on another one by a name that is not the other's own. -/
structure Strays (l : Loader) (r s : RecordId) : Prop where
  waits : l.status r = .saved
  saved : l.status s = .saved
  astray : ∃ d ∈ (l.record r).dependencies, l.entry? d = some s ∧ (l.record s).locator ≠ d

/-- Waiting modules depend on each other in a circle, each on the next by a name that is not its own. -/
def AliasCircle (l : Loader) : Prop := ∃ r, Relation.TransGen l.Strays r r

theorem Proper.clear (proper : l.Proper) : ¬ l.AliasCircle := by
  rintro ⟨r, circle⟩
  obtain ⟨s, strays, -⟩ := Relation.TransGen.head'_iff.mp circle
  obtain ⟨d, -, held, other⟩ := strays.astray
  exact other (proper held)

/-! What is left to wait for. -/

/-- The locators that a module goes on to load when its retrieval is over. -/
def onward (l : Loader) (d : Locator) : List Locator :=
  match l.entry? d with
  | some r => if .saved ≤ l.status r then (l.pureDependencies r).1.filter l.needsLoading else []
  | none => []

theorem onward_of_saved {d : Locator} {r : RecordId} (held : l.entry? d = some r)
    (saved : .saved ≤ l.status r) : l.onward d = (l.pureDependencies r).1.filter l.needsLoading := by
  simp only [onward, held, if_pos saved]

theorem mem_onward {d e : Locator} (member : e ∈ l.onward d) :
    ∃ r, l.entry? d = some r ∧ .saved ≤ l.status r ∧ e ∈ (l.record r).dependencies ∧
      l.circle? (l.record r).locator e = none ∧ l.needsLoading e = true := by
  unfold onward at member
  split at member
  · rename_i r held
    split at member
    · rename_i saved
      obtain ⟨pure, needs⟩ := List.mem_filter.mp member
      obtain ⟨listed, uncut⟩ := mem_pureDependencies.mp pure
      exact ⟨r, held, saved, listed, uncut, needs⟩
    · cases member
  · cases member

/-- What leads onward and is itself to be loaded is a waiting module. -/
theorem saved_of_onward {d e : Locator} (member : e ∈ l.onward d) (needs : l.needsLoading d = true) :
    ∃ r, l.entry? d = some r ∧ l.status r = .saved ∧ e ∈ (l.record r).dependencies := by
  obtain ⟨r, held, saved, listed, -⟩ := mem_onward member
  refine ⟨r, held, ?_, listed⟩
  simp only [needsLoading, held, decide_eq_true_eq] at needs
  revert saved needs
  cases l.status r <;> simp [Status.le_iff, Status.lt_iff, Status.code]

/-- Where locators that are to be loaded lead onward to a waiting module, what this one waits for closes a
circle. -/
theorem closes_of_onward {x y z : Locator} (leads : Relation.ReflTransGen (fun d e => e ∈ l.onward d) z x)
    (next : y ∈ l.onward x) (needs : l.needsLoading z = true) : Closes l y [] z := by
  induction leads using Relation.ReflTransGen.head_induction_on with
  | refl =>
    obtain ⟨r, held, saved, listed⟩ := saved_of_onward next needs
    exact .closed List.not_mem_nil held saved listed
  | @head z e step _ ih =>
    obtain ⟨r, held, saved, listed⟩ := saved_of_onward step needs
    obtain ⟨-, -, -, -, -, waits⟩ := mem_onward step
    exact .further List.not_mem_nil held saved listed (ih waits)

/-- On a way onward that leads back, each module is known to the one before by a name that is not its own. -/
theorem strays_of_onward {x y : Locator} (step : y ∈ l.onward x)
    (back : Relation.TransGen (fun d e => e ∈ l.onward d) y x) :
    ∃ r s, l.entry? x = some r ∧ l.entry? y = some s ∧ l.Strays r s := by
  obtain ⟨last, -, before⟩ := Relation.TransGen.tail'_iff.mp back
  obtain ⟨z, after, leads⟩ := Relation.TransGen.head'_iff.mp back
  obtain ⟨-, -, -, -, -, asked⟩ := mem_onward before
  obtain ⟨-, -, -, -, -, needs⟩ := mem_onward step
  obtain ⟨r, there, waits, listed⟩ := saved_of_onward step asked
  obtain ⟨s, here, saved, -⟩ := saved_of_onward after needs
  refine ⟨r, s, there, here, waits, saved, y, listed, here, fun own => ?_⟩
  obtain ⟨s', here', -, -, uncut, further⟩ := mem_onward after
  obtain rfl := Option.some.inj (here.symm.trans here')
  have found := circle?_isSome (closes_of_onward leads step further)
  rw [own] at uncut
  rw [uncut] at found
  cases found

/-- Going onward does not lead back. -/
theorem onward_irrefl (clear : ¬ l.AliasCircle) (d : Locator) :
    ¬ Relation.TransGen (fun e d => e ∈ l.onward d) d d := by
  intro circle
  have circle : Relation.TransGen (fun d e => e ∈ l.onward d) d d := Relation.transGen_swap.mp circle
  have along : ∀ e, Relation.TransGen (fun d e => e ∈ l.onward d) d e →
      Relation.TransGen (fun d e => e ∈ l.onward d) e d →
      ∃ r s, l.entry? d = some r ∧ l.entry? e = some s ∧ Relation.TransGen l.Strays r s := by
    intro e there
    induction there with
    | single step =>
      intro back
      obtain ⟨r, s, held, next, strays⟩ := strays_of_onward step back
      exact ⟨r, s, held, next, .single strays⟩
    | tail earlier step ih =>
      intro back
      obtain ⟨r, s, held, middle, strays⟩ := ih (.head step back)
      obtain ⟨s', t, middle', next, last⟩ := strays_of_onward step (back.trans earlier)
      obtain rfl := Option.some.inj (middle.symm.trans middle')
      exact ⟨r, t, held, next, strays.tail last⟩
  obtain ⟨r, s, held, same, strays⟩ := along d circle circle
  obtain rfl := Option.some.inj (held.symm.trans same)
  exact clear ⟨r, strays⟩

/-- A relation along finitely many lists does not go on for ever if it does not lead back. -/
theorem wellFounded_of_lists {next : Locator → List Locator} (sources : List Locator)
    (inside : ∀ {e d}, e ∈ next d → d ∈ sources)
    (irrefl : ∀ d, ¬ Relation.TransGen (fun e d => e ∈ next d) d d) :
    WellFounded fun e d => e ∈ next d := by
  let known := { d : Locator // d ∈ sources }
  let steps : known → known → Prop := Relation.TransGen fun e d => e.1 ∈ next d.1
  have irrefl : Std.Irrefl steps := ⟨fun d circle =>
    irrefl d.1 (circle.lift Subtype.val fun _ _ => id)⟩
  have wf : WellFounded steps := Finite.wellFounded_of_trans_of_irrefl steps
  have stops {d : Locator} (unknown : d ∉ sources) : Acc (fun e d => e ∈ next d) d :=
    ⟨_, fun _ step => absurd (inside step) unknown⟩
  have acc : ∀ d : known, Acc (fun e d => e ∈ next d) d.1 := by
    intro d
    induction d using wf.induction with
    | _ d ih =>
      refine ⟨_, fun e step => ?_⟩
      by_cases there : e ∈ sources
      · exact ih ⟨e, there⟩ (.single step)
      · exact stops there
  refine ⟨fun d => ?_⟩
  by_cases there : d ∈ sources
  · exact acc ⟨d, there⟩
  · exact stops there

theorem onward_wf (clear : ¬ l.AliasCircle) : WellFounded fun e d => e ∈ l.onward d := by
  refine wellFounded_of_lists l.registry.keys (fun {e d} step => ?_) (onward_irrefl clear)
  obtain ⟨r, held, -⟩ := mem_onward step
  exact (OrderedMap.mem_keys_iff ..).mpr (Option.isSome_iff_exists.mpr ⟨r, held⟩)

/-- The work that settling each locator leads to, as long as no record moves on. -/
def Toll (l : Loader) (toll : Locator → Nat) : Prop :=
  ∀ d, toll d = 5 + ((l.onward d).map fun e => 1 + toll e).sum

/-- The work of settling those of some locators that are not ready. -/
def tolls (needs : Locator → Bool) (toll : Locator → Nat) (locators : List Locator) : Nat :=
  ((locators.filter needs).map fun d => 1 + toll d).sum

theorem exists_toll (clear : ¬ l.AliasCircle) : ∃ toll, Toll l toll := by
  have wf := onward_wf clear
  refine ⟨wf.fix fun d rest => 5 + ((l.onward d).attach.map fun e => 1 + rest e.1 e.2).sum, ?_⟩
  intro d
  rw [wf.fix_eq]
  exact congrArg (5 + List.sum ·) (List.attach_map_val (f := fun e => 1 + wf.fix _ e))

/-- The tolls, unless modules lead back to each other. -/
noncomputable def price (l : Loader) : Locator → Nat := Classical.epsilon (Toll l)

theorem toll_price (clear : ¬ l.AliasCircle) : Toll l l.price := Classical.epsilon_spec (exists_toll clear)

/-! What waiting depends on. -/

/-- Nothing has changed that waiting depends on. -/
structure Still (l l' : Loader) : Prop where
  registry : l'.registry = l.registry
  status : ∀ r, l'.status r = l.status r
  locator : ∀ r, (l'.record r).locator = (l.record r).locator
  dependencies : ∀ r, (l'.record r).dependencies = (l.record r).dependencies

namespace Still

variable {l' : Loader}

theorem entry (still : Still l l') (d : Locator) : l'.entry? d = l.entry? d :=
  congrArg (OrderedMap.get? · d) still.registry

theorem needsLoading (still : Still l l') : l'.needsLoading = l.needsLoading := by
  funext d
  simp only [Loader.needsLoading, still.entry, still.status]

theorem waitingPath? (still : Still l l') (fuel : Nat) (path : List Locator) (d : Locator) :
    l'.waitingPath? fuel path d = l.waitingPath? fuel path d := by
  induction fuel generalizing path d with
  | zero => rfl
  | succ fuel ih =>
    have status (r : RecordId) : (l'.record r).status = (l.record r).status := still.status r
    have further (path : List Locator) : l'.waitingPath? fuel path = l.waitingPath? fuel path :=
      funext (ih path)
    simp only [Loader.waitingPath?, still.entry, status, still.locator, still.dependencies, further]

theorem pureDependencies (still : Still l l') (r : RecordId) :
    l'.pureDependencies r = l.pureDependencies r := by
  simp only [Loader.pureDependencies, circle?, pathBound, still.registry, still.waitingPath?,
    still.locator, still.dependencies]

theorem onward (still : Still l l') (d : Locator) : l'.onward d = l.onward d := by
  simp only [Loader.onward, still.entry, still.status, still.pureDependencies, still.needsLoading]

theorem toll (still : Still l l') {toll : Locator → Nat} (paid : Toll l toll) : Toll l' toll := by
  intro d
  rw [still.onward]
  exact paid d

theorem price (still : Still l l') : l'.price = l.price := by
  have same : Toll l' = Toll l := by
    funext toll
    simp only [Toll, still.onward]
  rw [Loader.price, same, Loader.price]

end Still

end ModuleLoader.Loader
