import ModuleLoader.Proofs.Equality

/-! Equality of values is a partial equivalence, at whatever depth objects are no longer opened; and only a NaN that
lists lead to makes a value differ from itself. -/
namespace ModuleLoader

namespace Value

variable {m : Memory} {budget : Nat}

theorem Alike.symm {a b : Value} (alike : a.Alike b) : b.Alike a := by
  cases a with
  | float x =>
    cases b with
    | float y => exact (y.equals_comm x).trans alike
    | _ => cases alike
  | _ => cases b <;> first | trivial | exact Eq.symm alike

theorem Alike.trans {a b c : Value} (first : a.Alike b) (second : b.Alike c) : a.Alike c := by
  cases a with
  | float x =>
    cases b with
    | float y =>
      cases c with
      | float z => exact Binary64.equals_trans first second
      | _ => cases second
    | _ => cases first
  | _ => cases b <;> cases c <;> first | trivial | exact Eq.trans first second

theorem equalWithin_symm {a b : Value} (equal : a.equalWithin m budget b = true) :
    b.equalWithin m budget a = true := by
  refine equalWithin_induction ?shared ?opened equal
  case shared =>
    intro budget id
    exact equalWithin_shared id
  case opened =>
    intro budget a b alike levels parts
    refine equalWithin_iff.mpr (.inr ⟨alike.symm, fun object => levels (alike.isObject ▸ object), ?_⟩)
    intro place
    exact rel_symm (parts place) fun x y turned => turned.2

theorem equalWithin_trans {a b c : Value} (first : a.equalWithin m budget b = true)
    (second : b.equalWithin m budget c = true) : a.equalWithin m budget c = true := by
  suffices all : ∀ c, b.equalWithin m budget c = true → a.equalWithin m budget c = true from all c second
  -- The induction is on the first comparison. If it stops at a shared object, the second one is all that is left.
  refine equalWithin_induction ?shared ?opened first
  case shared =>
    intro budget id c second
    exact second
  case opened =>
    intro budget a b alike levels parts c second
    rcases equalWithin_iff.mp second with ⟨-, rfl⟩ | ⟨alike', -, parts'⟩
    · refine equalWithin_iff.mpr (.inr ⟨alike, levels, fun place => ?_⟩)
      exact rel_imp (parts place) fun x y _ _ equal => equal.1
    · refine equalWithin_iff.mpr (.inr ⟨alike.trans alike', levels, fun place => ?_⟩)
      exact rel_trans (parts place) (parts' place) fun x y z first second => first.2 z second

/-! A value and itself. -/

theorem number_of_equalWithin_self {a : Value} (equal : a.equalWithin m budget a = true) {indices : List Nat}
    {x : Binary64} (found : m.read a (indices.map .item) = some (float x)) : x.isNaN = false := by
  induction indices generalizing a budget with
  | nil =>
    obtain rfl : a = float x := Option.some.inj found
    have same : x.equals x = true := (equalWithin_of_isPlain rfl).mp equal
    rwa [Binary64.equals_self, Bool.not_eq_true'] at same
  | cons i indices ih =>
    obtain ⟨part, here, below⟩ := Option.bind_eq_some_iff.mp found
    cases a with
    | list made items =>
      have parts := equalWithin_list.mp equal (.item i)
      rw [here] at parts
      cases parts with
      | some equal => exact ih equal below
    | _ => cases here

/-- By recursion through the lists; an object is not opened. -/
theorem equalWithin_self {a : Value} {budget : Nat}
    (number : ∀ (indices : List Nat) x, m.read a (indices.map .item) = some (float x) → x.isNaN = false) :
    a.equalWithin m budget a = true := by
  cases a with
  | object id => exact equalWithin_shared id
  | list made items =>
    refine equalWithin_list.mpr fun place => rel_self fun x found => ?_
    cases place with
    | member key => cases found
    | item i =>
      have smaller : sizeOf x < sizeOf (list made items) := sizeOf_item found
      exact equalWithin_self fun indices y below => number (i :: indices) y ((Memory.read_cons found _).trans below)
  | _ => exact (equalWithin_of_isPlain rfl).mpr (alike_self fun x same => number [] x (congrArg some same))
termination_by sizeOf a

end Value

/-- Equality is symmetric and transitive on the values of any memory, also where the depth limit or an object that both
sides share has decided. A value is equal to itself just if no NaN is reached from it through lists alone: what its
objects hold does not matter. -/
theorem equal_partial_equivalence (m : Memory) :
    (∀ a b : Value, a.equal m b = true → b.equal m a = true) ∧
    (∀ a b c : Value, a.equal m b = true → b.equal m c = true → a.equal m c = true) ∧
    ∀ a : Value, a.equal m a = true ↔
      ∀ (indices : List Nat) x, m.read a (indices.map .item) = some (.float x) → x.isNaN = false := by
  refine ⟨fun a b => Value.equalWithin_symm, fun a b c => Value.equalWithin_trans, fun a => ⟨?_, Value.equalWithin_self⟩⟩
  intro equal indices x found
  exact Value.number_of_equalWithin_self equal found

/-- The one member `next`, another object. -/
def linked (index : Nat) : Members := ⟨[("next", .object ⟨index⟩)], by simp⟩

/-- An object that refers to itself, two that lead to it, another one that refers to itself, and one that holds a
NaN. -/
def looped : Memory where
  objects := ⟨#[linked 0, linked 0, linked 1, linked 3, ⟨[("ratio", .float ⟨0x7ff8000000000000⟩)], by simp⟩]⟩
  made := 0

/-- Shared objects decide that the first three are equal, and the depth limit that the fourth is not equal to them. -/
theorem equal_partial_equivalence_looped :
    let o (i : Nat) : Value := .object ⟨i⟩
    let nan : Value := .float ⟨0x7ff8000000000000⟩
    ((o 0).equal looped (o 1) = true ∧ (o 1).equal looped (o 2) = true ∧ (o 2).equal looped (o 0) = true) ∧
    ((o 3).equal looped (o 0) = false ∧ (o 3).equal looped (o 2) = false) ∧
    (Value.list 0 [o 4]).equal looped (.list 0 [o 4]) = true ∧
    (Value.list 0 [nan]).equal looped (.list 0 [nan]) = false := by
  intro o nan
  obtain ⟨symm, trans, self⟩ := equal_partial_equivalence looped
  have compared : (o 0).equal looped (o 1) = true ∧ (o 1).equal looped (o 2) = true ∧
      (o 3).equal looped (o 0) = false := by
    simp [o, Value.equal, depthLimit, Value.equalWithin, membersEqual, Memory.members, looped, linked, Table.get,
      OrderedMap.size, OrderedMap.get?, OrderedMap.lookup]
  obtain ⟨first, second, apart⟩ := compared
  have third := symm _ _ (trans _ _ _ first second)
  refine ⟨⟨first, second, third⟩, ⟨apart, ?_⟩, (self _).mpr fun indices x found => ?_, ?_⟩
  · refine Bool.eq_false_iff.mpr fun same => ?_
    rw [trans _ _ _ same third] at apart
    cases apart
  · rcases indices with - | ⟨- | i, - | ⟨j, indices⟩⟩ <;> cases found
  · refine Bool.eq_false_iff.mpr fun same => ?_
    exact absurd ((self _).mp same [0] ⟨0x7ff8000000000000⟩ rfl) (by decide)

end ModuleLoader
