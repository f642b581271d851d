import ModuleLoader.Pattern.Shape

/-! Patterns over texts. A pattern matches a text if it describes some part of it; anchors tie the
part to the ends of the text. All parts are followed at once: a set of positions goes through the
shape from left to right. -/
namespace ModuleLoader

structure Pattern where
  shape : Shape Text.CharSet
deriving DecidableEq

/-- Sets of positions in a text, as binary numerals: bit `i` stands for position `i`. -/
abbrev Positions := Nat

namespace Positions

/-- The positions from `0` to `last`. -/
def upTo (last : Nat) : Positions := 1 <<< (last + 1) - 1

/-- Of `2 ^ depth` positions from `start` on, those in front of a character that satisfies the
condition, counted from `start`. The halves are settled by themselves and put together. -/
def beforeFrom (p : Char → Bool) (text : Array Char) : Nat → Nat → Positions
  | 0, start => (text[start]?.any p).toNat
  | depth + 1, start =>
    let half := 1 <<< depth
    beforeFrom p text depth start ||| beforeFrom p text depth (start + half) <<< half

/-- The positions in front of a character that satisfies the condition. -/
def before (p : Char → Bool) (text : Array Char) : Positions :=
  beforeFrom p text (text.size.log2 + 1) 0

/-- Bit `i` is for position `start + i`. -/
theorem testBit_beforeFrom (p : Char → Bool) (text : Array Char) (depth start i : Nat) :
    (beforeFrom p text depth start).testBit i =
      (decide (i < 1 <<< depth) && text[start + i]?.any p) := by
  rw [Nat.one_shiftLeft]
  induction depth generalizing start i with
  | zero =>
    cases i with
    | zero => cases h : text[start]?.any p <;> simp [beforeFrom, h]
    | succ i => cases h : text[start]?.any p <;> simp [beforeFrom, h, Nat.testBit_succ]
  | succ depth ih =>
    simp only [beforeFrom, Nat.one_shiftLeft, Nat.testBit_or, Nat.testBit_shiftLeft, ih]
    by_cases h : i < 2 ^ depth
    · have size : i < 2 ^ (depth + 1) := by rw [Nat.pow_succ]; omega
      have outside : ¬ 2 ^ depth ≤ i := by omega
      simp [h, size, outside]
    · have half : start + 2 ^ depth + (i - 2 ^ depth) = start + i := by omega
      have size : i - 2 ^ depth < 2 ^ depth ↔ i < 2 ^ (depth + 1) := by
        rw [Nat.pow_succ]; omega
      simp [h, half, size, Nat.le_of_not_lt h]

theorem testBit_before (p : Char → Bool) (text : Array Char) (i : Nat) :
    (before p text).testBit i = text[i]?.any p := by
  rw [before, testBit_beforeFrom, Nat.zero_add, Nat.one_shiftLeft]
  by_cases h : i < 2 ^ (text.size.log2 + 1)
  · simp [h]
  · have : text.size < 2 ^ (text.size.log2 + 1) := Nat.lt_log2_self
    simp [h, Array.getElem?_eq_none (by omega : text.size ≤ i)]

/-- Takes a step `n` times. A step that changes nothing need not be taken again. -/
def exactly (step : Positions → Positions) : Nat → Positions → Positions
  | 0, s => s
  | n + 1, s =>
    let next := step s
    if next = s then s else exactly step n next

/-- Takes a step up to `n` times and keeps what was reached on the way. -/
def atMost (step : Positions → Positions) : Nat → Positions → Positions :=
  exactly fun s => s ||| step s

theorem repeat_fixed {step : Positions → Positions} {s : Positions} (h : step s = s) (n : Nat) :
    Nat.repeat step n s = s := by
  induction n with
  | zero => rfl
  | succ n ih => simp [Nat.repeat, ih, h]

theorem repeat_step (step : Positions → Positions) (n : Nat) (s : Positions) :
    Nat.repeat step n (step s) = Nat.repeat step (n + 1) s := by
  induction n with
  | zero => rfl
  | succ n ih => simpa only [Nat.repeat] using congrArg step ih

/-- Stopping early loses nothing. -/
theorem exactly_eq_repeat (step : Positions → Positions) (n : Nat) (s : Positions) :
    exactly step n s = Nat.repeat step n s := by
  induction n generalizing s with
  | zero => rfl
  | succ n ih =>
    simp only [exactly]
    split
    · next h => exact (repeat_fixed h (n + 1)).symm
    · rw [ih, repeat_step]

end Positions

namespace Shape

open Positions

/-- The ends of the parts that start at one of the given positions, for a shape over the positions
at which a character is right. Position `last` is the end of the text. Without a bound, as many
repetitions as there are positions reach all there is to reach. -/
def ends (last : Nat) : Shape Positions → Positions → Positions
  | empty, s => s
  | one right, s => (s &&& right) <<< 1
  | textStart, s => s &&& 1
  | textEnd, s => s &&& 1 <<< last
  | seq a b, s => ends last b (ends last a s)
  | either a b, s => ends last a s ||| ends last b s
  | repeated _ a least more, s =>
    atMost (ends last a) (more.getD (last + 1)) (exactly (ends last a) least s)
  | group _ a, s => ends last a s

end Shape

/-- Some part of the text has the shape. Each set of characters is looked for in the text once. -/
def Pattern.occursIn (p : Pattern) (text : String) : Bool :=
  let text := text.toList.toArray
  let found := p.shape.leaves.eraseDups.map fun set => (set, Positions.before set.contains text)
  let shape := p.shape.map fun set => (found.lookup set).getD 0
  shape.ends text.size (.upTo text.size) != 0

end ModuleLoader
