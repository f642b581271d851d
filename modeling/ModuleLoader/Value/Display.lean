import ModuleLoader.Binary64.Display
import ModuleLoader.Text.Quoted
import ModuleLoader.Value.Equality

/-! The text of a value. Objects deeper than the depth limit are left out. -/
namespace ModuleLoader

mutual

/-- The text with `budget` levels left; member names are written as they are. -/
def Value.displayWithin (m : Memory) (budget : Nat) (a : Value) : String :=
  match a with
  | .null => "null"
  | .bool b => if b then "true" else "false"
  | .int n => toString n
  | .float x => x.display
  | .text _ s => Text.quoted s
  | .list _ xs => "[" ++ ", ".intercalate (itemTexts m (budget - 1) xs) ++ "]"
  | .object x =>
    match budget with
    | 0 => "\x7b..\x7d"
    | rest + 1 =>
      "\x7b" ++ ", ".intercalate (memberTexts m rest (m.members x).entries) ++ "\x7d"
termination_by (budget, sizeOf a)
decreasing_by
  · simp only [Prod.lex_def, Value.list.sizeOf_spec]; omega
  · simp only [Prod.lex_def]; omega

def itemTexts (m : Memory) (budget : Nat) (xs : List Value) : List String :=
  match xs with
  | [] => []
  | x :: xs => x.displayWithin m budget :: itemTexts m budget xs
termination_by (budget, sizeOf xs)
decreasing_by
  · apply Prod.Lex.right; simp only [List.cons.sizeOf_spec]; omega
  · apply Prod.Lex.right; simp only [List.cons.sizeOf_spec]; omega

def memberTexts (m : Memory) (budget : Nat) (entries : List (String × Value)) : List String :=
  match entries with
  | [] => []
  | (key, x) :: rest => (key ++ ": " ++ x.displayWithin m budget) :: memberTexts m budget rest
termination_by (budget, sizeOf entries)
decreasing_by
  · apply Prod.Lex.right; simp only [List.cons.sizeOf_spec, Prod.mk.sizeOf_spec]; omega
  · apply Prod.Lex.right; simp only [List.cons.sizeOf_spec]; omega

end

def Value.display (m : Memory) (a : Value) : String := a.displayWithin m depthLimit

end ModuleLoader
