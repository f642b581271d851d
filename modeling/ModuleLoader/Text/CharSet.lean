import ModuleLoader.Text.CaseFold
import ModuleLoader.Text.CodeRange
import ModuleLoader.Text.Digit

/-! Sets of characters, given by ranges of code points. A set has one form: its ranges are in order,
and none touches the next. -/
namespace ModuleLoader.Text

structure CharSet where
  ranges : List (Nat × Nat)
deriving DecidableEq

namespace CharSet

/-- A range in front of ranges that start no earlier. It swallows those that it touches. -/
def attach (range : Nat × Nat) : List (Nat × Nat) → List (Nat × Nat)
  | [] => [range]
  | next :: rest =>
    if next.1 ≤ range.2 + 1 then attach (range.1, max range.2 next.2) rest
    else range :: next :: rest

def ofRanges (ranges : List (Nat × Nat)) : CharSet :=
  ⟨(ranges.mergeSort fun a b => a.1 ≤ b.1).foldr attach []⟩

def singleton (c : Char) : CharSet := ⟨[(c.toNat, c.toNat)]⟩

def contains (s : CharSet) (c : Char) : Bool := inRanges s.ranges c.toNat

/-- The code point of the next character. Surrogates are passed over. -/
def codeAfter (code : Nat) : Nat := if code = 0xd7ff then 0xe000 else code + 1

/-- The code point of the character before. -/
def codeBefore (code : Nat) : Nat := if code = 0xe000 then 0xd7ff else code - 1

/-- The ranges of code points from `start` on that the given ranges leave open. Between two ranges
with only surrogates between them lie the two characters that face each other. -/
def gaps (start : Nat) : List (Nat × Nat) → List (Nat × Nat)
  | [] => if start ≤ 0x10ffff then [(start, 0x10ffff)] else []
  | (first, last) :: rest =>
    if first = 0 then gaps (codeAfter last) rest
    else
      let stop := codeBefore first
      (min start stop, max start stop) :: gaps (codeAfter last) rest

def complement (s : CharSet) : CharSet := ⟨gaps 0 s.ranges⟩

def union (sets : List CharSet) : CharSet := ofRanges (sets.flatMap ranges)

/-- The decimal digits of every script. -/
def digits : CharSet := ⟨digitRanges⟩

/-- The code point of the only member, if there is only one. -/
def only? (s : CharSet) : Option Nat :=
  match s.ranges with
  | [(first, last)] => if first = last then some first else none
  | _ => none

/-- What the members fold to. -/
def images (s : CharSet) : List (Nat × Nat) :=
  let runs := foldRuns.filter fun run => s.ranges.any fun (a, b) => run.foldsWithin a b
  (runs.flatMap FoldRun.pairs).filterMap fun (code, image) =>
    if inRanges s.ranges code then some (image, image) else none

/-- What folds to a member. -/
def sources (s : CharSet) : List (Nat × Nat) :=
  let runs := foldRuns.filter fun run => s.ranges.any fun (a, b) => run.reachesInto a b
  (runs.flatMap FoldRun.pairs).filterMap fun (code, image) =>
    if inRanges s.ranges image then some (code, code) else none

/-- The set with all cases of its members. -/
def closeCases (s : CharSet) : CharSet :=
  let folded := ofRanges (s.ranges ++ s.images)
  ofRanges (folded.ranges ++ folded.sources)

end CharSet

end ModuleLoader.Text
