import ModuleLoader.Pattern.Automaton
import ModuleLoader.Text.ByteSpan
import ModuleLoader.Text.CharSet
import Std.Data.HashMap

/-! Sets of characters in an automaton. A state that would be the same as one that is remembered is
not added again. A memory has a fixed number of places, and a place holds what came there last. -/
namespace ModuleLoader.Automaton

open Text (ByteSpan CharSet byteSpans)

/-- States that were added, by what tells them apart. -/
structure Memory where
  places : Nat
  held : Std.HashMap Nat (List Nat × Nat)

namespace Memory

def ofPlaces (places : Nat) : Memory := ⟨places, ∅⟩

/-- The FNV-1a hash, of numbers instead of bytes. -/
def hash (numbers : List Nat) : UInt64 :=
  numbers.foldl (fun h n => (h ^^^ n.toUInt64) * 1099511628211) 14695981039346656037

/-- Where a memory holds what has the given marks. -/
def place (memory : Memory) (marks : List Nat) : Nat := (hash marks).toNat % memory.places

end Memory

/-- An automaton with a memory of its latest states. -/
abbrev Remembering := Memory × Automaton

/-- The number of the state with the given marks, which is added unless it is remembered. -/
def share (marks : List Nat) (ways : Nat) : Remembering → Nat × Remembering
  | (memory, m) =>
    let place := memory.place marks
    let held := memory.held.insert place (marks, m.states)
    let new := (m.states, { memory with held }, m.add ways)
    match memory.held[place]? with
    | some (old, number) => if old = marks then (number, memory, m) else new
    | none => new

/-- The state in front of spans, all of which end at the given state. The states behind a first byte
are there before the state in front of it. A state is told by its ways. -/
def spansForward (target : Nat) : Nat → List ByteSpan → Remembering → Nat × Remembering
  | 0, _, r => (target, r)
  | depth + 1, spans, r =>
    let heads := spans.splitBy fun a b => a.head? = b.head?
    let (ways, r) := heads.foldl (fun (ways, r) spans =>
      match spans with
      | ((first, last) :: _) :: _ =>
        let (next, r) := spansForward target depth (spans.map List.tail) r
        (ways ++ [[first, last, next]], r)
      | _ => (ways, r)) ([], r)
    if ways.isEmpty then (target, r) else share ways.flatten (branch * ways.length) r

/-- The states of a span from its first byte to its last, which is read first. A state is told by
its byte range and by the state behind it. -/
def spanBackward (target : Nat) (span : ByteSpan) (r : Remembering) : Remembering :=
  (span.foldl (fun (next, r) (first, last) => share [next, first, last] 0 r) (target, r)).2

/-- A set of characters beyond ASCII, by its spans. -/
def addSpans (direction : Direction) (spans : List ByteSpan) (m : Automaton) : Automaton :=
  match direction with
  | .forward => (spansForward m.states 4 spans (.ofPlaces 10000, m.add 0)).2.2
  | .backward =>
    let m := m.add (fork * spans.length)
    (spans.foldl (fun r span => spanBackward m.states span r) (.ofPlaces 1000, m.add 0)).2

/-- The bytes of a character. -/
def bytes (code : Nat) : List Nat := (byteSpans (code, code)).flatten.map Prod.fst

/-- Lays out a set of characters. -/
def addChars (direction : Direction) (set : CharSet) : Automaton → Automaton :=
  match set.only? with
  | some code =>
    let length := (bytes code).length
    fun m => m.addLine length
  | none =>
    if set.ranges.all (·.2 < 0x80) then fun m => (m.add 0).add (branch * set.ranges.length)
    else
      let spans := set.ranges.flatMap byteSpans
      fun m => m.addSpans direction spans

end ModuleLoader.Automaton
