import ModuleLoader.Pattern.Automaton.Chars
import ModuleLoader.Pattern.Automaton.Words
import ModuleLoader.Pattern.Shape

/-! The automata for a pattern, with every repetition written out: one reads a text from the front,
one from the back, and both must fit. -/
namespace ModuleLoader

open Text (CharSet)

namespace Layout

/-- How a shape is laid out. -/
structure Plan where
  /-- The bytes that it describes, if there is nothing but letters. -/
  word : Option (List Nat)
  lay : Automaton → Automaton

/-- One after the other. -/
def Plan.followedBy (direction : Direction) (a b : Plan) : Plan :=
  { word := do some ((← a.word) ++ (← b.word))
    lay := match direction with
      | .forward => b.lay ∘ a.lay
      | .backward => a.lay ∘ b.lay }

/-- Alternatives. The state from which they start comes behind the first two. -/
def Plan.choice (direction : Direction) : List Plan → Plan
  | [] => ⟨none, id⟩
  | [a] => a
  | a :: b :: rest =>
    let lay := match (a :: b :: rest).mapM Plan.word, direction with
      | some words, .forward => Automaton.addWords words
      | some words, .backward => Automaton.addWords (words.map List.reverse)
      | none, _ => fun m =>
        let m := ((b.lay (a.lay m)).add (2 * Automaton.fork)).add 0
        rest.foldl (fun m c => c.lay (m.widen Automaton.fork)) m
    ⟨none, lay⟩

/-- Repetition. If a copy may read nothing, a loop has two states to tell whether it did. -/
def repetition (part : Automaton → Automaton) (reads : Bool) (least : Nat) (more : Option Nat) :
    Automaton → Automaton :=
  let split (m : Automaton) : Automaton := m.add (2 * Automaton.fork)
  match least, more with
  | 0, none => fun m => if reads then part (split m) else (split (split (part m))).add 0
  | least, none => fun m => split (Automaton.copies part least m)
  | 0, some 1 => fun m => (part (split m)).add 0
  | 0, some more => fun m => Automaton.copies (part ∘ split) more ((m.add 0).add 0)
  | least, some 0 => Automaton.copies part least
  | least, some more => fun m =>
    Automaton.copies (part ∘ split) more ((Automaton.copies part least m).add 0)

/-- Does each part that it describes have some length? A set without members leaves that open. -/
def alwaysReads (a : Shape CharSet) : Bool :=
  a.hasWidth && a.leaves.all fun set => !set.ranges.isEmpty

/-- The alternatives at the top of a shape. Groups are marked only where a text is read forward. -/
def plans (direction : Direction) : Shape CharSet → List Plan
  | .empty | .textStart | .textEnd => [⟨none, (·.add 0)⟩]
  | .one set => [⟨set.only?.map Automaton.bytes, Automaton.addChars direction set⟩]
  | .seq a b =>
    [.followedBy direction (.choice direction (plans direction a))
      (.choice direction (plans direction b))]
  | .either a b => plans direction a ++ plans direction b
  | .repeated _ a least more =>
    [⟨none, repetition (Plan.choice direction (plans direction a)).lay (alwaysReads a) least more⟩]
  | .group _ a =>
    let part := (Plan.choice direction (plans direction a)).lay
    match direction with
    | .forward => [⟨none, fun m => (part (m.add 0)).add 0⟩]
    | .backward => [⟨none, part⟩]

/-- Does every part that it describes lie at that end of the text which is read first? -/
def isAnchored (direction : Direction) : Shape CharSet → Bool
  | .empty | .one _ => false
  | .textStart => direction = .forward
  | .textEnd => direction = .backward
  | .seq a b =>
    match direction with
    | .forward => isAnchored direction a || a.isWidthless && isAnchored direction b
    | .backward => isAnchored direction b || b.isWidthless && isAnchored direction a
  | .either a b => isAnchored direction a && isAnchored direction b
  | .repeated _ a least _ => least != 0 && isAnchored direction a
  | .group _ a => isAnchored direction a

/-- The automaton for a whole pattern. Unless it is anchored, it first skips any number of bytes. -/
def automaton (direction : Direction) (a : Shape CharSet) : Automaton :=
  let start :=
    if isAnchored direction a then Automaton.empty.add 0
    else ((Automaton.empty.add (2 * Automaton.fork)).add 0).add Automaton.branch
  let whole := Plan.choice direction (plans direction (.group 0 a))
  (whole.lay start).add 0

def fits (a : Shape CharSet) : Bool :=
  (automaton .forward a).fits && (automaton .backward a).fits

end Layout

end ModuleLoader
