import ModuleLoader.Value

/-! Equality of values. Interfaces of mutually dependent modules contain each other, so objects are
compared only down to a fixed depth; below it two objects are equal only if they are one and the
same. -/
namespace ModuleLoader

/-- How many levels of members and items are looked into. -/
def depthLimit : Nat := 8

mutual

/-- Equality with `budget` levels left. Lists are always compared to the end, but their items count
as one level deeper. -/
def Value.equalWithin (m : Memory) (budget : Nat) (a b : Value) : Bool :=
  match a, b with
  | .null, .null => true
  | .bool x, .bool y => x == y
  | .int x, .int y => x == y
  | .float x, .float y => x.equals y
  | .text _ x, .text _ y => x == y
  | .list _ xs, .list _ ys => itemsEqual m (budget - 1) xs ys
  | .object x, .object y =>
    x == y ||
      match budget with
      | 0 => false
      | rest + 1 =>
        (m.members x).size == (m.members y).size &&
          membersEqual m rest (m.members x).entries (m.members y)
  | _, _ => false
termination_by (budget, sizeOf a)
decreasing_by
  · simp only [Prod.lex_def, Value.list.sizeOf_spec]; omega
  · simp only [Prod.lex_def]; omega

def itemsEqual (m : Memory) (budget : Nat) (xs ys : List Value) : Bool :=
  match xs, ys with
  | [], [] => true
  | x :: xs, y :: ys => x.equalWithin m budget y && itemsEqual m budget xs ys
  | _, _ => false
termination_by (budget, sizeOf xs)
decreasing_by
  · apply Prod.Lex.right; simp only [List.cons.sizeOf_spec]; omega
  · apply Prod.Lex.right; simp only [List.cons.sizeOf_spec]; omega

/-- Every listed member occurs in the other object with an equal value. -/
def membersEqual (m : Memory) (budget : Nat) (entries : List (String × Value)) (other : Members) :
    Bool :=
  match entries with
  | [] => true
  | (key, x) :: rest =>
    (match other.get? key with
      | some y => x.equalWithin m budget y
      | none => false) && membersEqual m budget rest other
termination_by (budget, sizeOf entries)
decreasing_by
  · apply Prod.Lex.right; simp only [List.cons.sizeOf_spec, Prod.mk.sizeOf_spec]; omega
  · apply Prod.Lex.right; simp only [List.cons.sizeOf_spec]; omega

end

def Value.equal (m : Memory) (a b : Value) : Bool := a.equalWithin m depthLimit b

/-- Identity: the same evaluation for texts and lists, the same object, equality for the rest. -/
def Value.identical (m : Memory) (a b : Value) : Bool :=
  match a, b with
  | .text x _, .text y _ => x == y
  | .list x _, .list y _ => x == y
  | .object x, .object y => x == y
  | _, _ => a.equal m b

end ModuleLoader
