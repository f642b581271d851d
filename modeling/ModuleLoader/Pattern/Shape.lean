import ModuleLoader.Text.CharSet

/-! What a pattern describes. Shapes are put together by `concat`, `alternation` and `times`, which
leave out what adds nothing and share what alternatives have in common. -/
namespace ModuleLoader

open Text (CharSet)

/-- Shapes over a type of conditions on one character. -/
inductive Shape (χ : Type) where
  | empty
  | one (chars : χ)
  | textStart
  | textEnd
  | seq (first second : Shape χ)
  | either (first second : Shape χ)
  /-- At least `least` times, at most `least + more` times if there is a bound. Whether few times
  are tried first makes shapes differ, but not what they describe. -/
  | repeated (fewFirst : Bool) (shape : Shape χ) (least : Nat) (more : Option Nat)
  /-- A part of which the extent could be told. No two marked parts of a pattern have one place. -/
  | group (place : Nat) (shape : Shape χ)
deriving DecidableEq

namespace Shape

variable {χ : Type}

instance : Inhabited (Shape χ) := ⟨empty⟩

def map {ψ : Type} (f : χ → ψ) : Shape χ → Shape ψ
  | empty => empty
  | one chars => one (f chars)
  | textStart => textStart
  | textEnd => textEnd
  | seq a b => seq (a.map f) (b.map f)
  | either a b => either (a.map f) (b.map f)
  | repeated fewFirst a least more => repeated fewFirst (a.map f) least more
  | group place a => group place (a.map f)

/-- The conditions on single characters, from left to right. -/
def leaves : Shape χ → List χ
  | empty | textStart | textEnd => []
  | one chars => [chars]
  | seq a b | either a b => a.leaves ++ b.leaves
  | repeated _ a _ _ | group _ a => a.leaves

/-- Does it describe the empty part only? -/
def isWidthless : Shape χ → Bool
  | empty | textStart | textEnd => true
  | one _ => false
  | seq a b | either a b => a.isWidthless && b.isWidthless
  | repeated _ a _ _ | group _ a => a.isWidthless

/-- Does it describe longer parts than the empty one only? -/
def hasWidth : Shape χ → Bool
  | empty | textStart | textEnd => false
  | one _ => true
  | seq a b => a.hasWidth || b.hasWidth
  | either a b => a.hasWidth && b.hasWidth
  | repeated _ a least _ => least != 0 && a.hasWidth
  | group _ a => a.hasWidth

/-- The shapes that stand in a row at the top of a shape. -/
def parts : Shape χ → List (Shape χ)
  | empty => []
  | seq a b => a.parts ++ b.parts
  | a => [a]

/-- The first shape, then the later ones. -/
def row : List (Shape χ) → Shape χ
  | [] => empty
  | [a] => a
  | a :: rest => seq a (row rest)

/-- A row stands as it was put together, without what is empty. -/
theorem parts_row (shapes : List (Shape χ)) : (row shapes).parts = shapes.flatMap parts := by
  induction shapes with
  | nil => rfl
  | cons a rest ih =>
    cases rest with
    | nil => simp [row]
    | cons b rest => simp only [row, parts, ih, List.flatMap_cons]

/-- One shape after the other. -/
def concat (shapes : List (Shape χ)) : Shape χ := row (shapes.flatMap parts)

/-- The alternatives at the top of a shape. -/
def alternatives : Shape χ → List (Shape χ)
  | either a b => a.alternatives ++ b.alternatives
  | a => [a]

/-- The first alternative, or else the later ones. -/
def choice : List (Shape χ) → Shape χ
  | [] => empty
  | [a] => a
  | a :: rest => either a (choice rest)

/-- Repetition. What describes the empty part only is the same once as many times. -/
def times (fewFirst : Bool) (a : Shape χ) (least : Nat) (more : Option Nat) : Shape χ :=
  let (least, more) :=
    if a.isWidthless then (min least 1, if least = 0 && more != some 0 then some 1 else some 0)
    else (least, more)
  match least, more with
  | 0, some 0 => empty
  | 1, some 0 => a
  | _, _ => repeated fewFirst a least more

/-- Does it describe one certain character? -/
def isLetter : Shape CharSet → Bool
  | one chars => chars.only?.isSome
  | _ => false

/-- The parts of a shape, with letters that follow each other taken together. -/
def units (a : Shape CharSet) : List (List (Shape CharSet)) :=
  a.parts.splitBy fun b c => b.isLetter && c.isLetter

/-- The characters that the shapes describe, if each describes exactly one character. -/
def chars? : List (Shape CharSet) → Option (List CharSet)
  | [] => some []
  | one chars :: rest => (chars? rest).map (chars :: ·)
  | _ :: _ => none

/-- Any one of the shapes. Alternatives of alternatives are alternatives themselves; letters on the
one hand and classes of letters on the other are drawn together. -/
def gather (shapes : List (Shape CharSet)) : Shape CharSet :=
  let shapes := shapes.flatMap alternatives
  match chars? shapes with
  | some sets =>
    if sets.all (·.only?.isSome) || sets.all (·.only?.isNone) then one (.union sets)
    else choice shapes
  | none => choice shapes

/-- What both lists begin with. -/
def sharedStart {α : Type} [DecidableEq α] : List α → List α → List α
  | a :: as, b :: bs => if a = b then a :: sharedStart as bs else []
  | _, _ => []

theorem sharedStart_prefix_left {α : Type} [DecidableEq α] (as bs : List α) :
    sharedStart as bs <+: as := by
  induction as generalizing bs with
  | nil => simp [sharedStart]
  | cons a as ih =>
    cases bs with
    | nil => simp [sharedStart]
    | cons b bs =>
      simp only [sharedStart]
      split
      · exact List.cons_prefix_cons.mpr ⟨rfl, ih bs⟩
      · exact List.nil_prefix

theorem sharedStart_prefix_right {α : Type} [DecidableEq α] (as bs : List α) :
    sharedStart as bs <+: bs := by
  induction as generalizing bs with
  | nil => simp [sharedStart]
  | cons a as ih =>
    cases bs with
    | nil => simp [sharedStart]
    | cons b bs =>
      simp only [sharedStart]
      split
      · next h => exact List.cons_prefix_cons.mpr ⟨h, ih bs⟩
      · exact List.nil_prefix

/-- Any one of the shapes. If each has several units and all begin with the same ones, these stand
in front, and there is a choice between the remainders only. -/
def alternation (shapes : List (Shape CharSet)) : Shape CharSet :=
  let rows := (shapes.flatMap alternatives).map units
  match rows with
  | first :: others =>
    let start := others.foldl sharedStart first
    if start.isEmpty || rows.any (·.length < 2) then gather shapes
    else
      let remainders := rows.map fun units => row (units.drop start.length).flatten
      concat (start.flatten ++ [gather remainders])
  | [] => empty

end Shape

end ModuleLoader
