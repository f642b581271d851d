/-! How large an automaton grows. An automaton reads the bytes of a text; its states are numbered in
the order in which they are added. Of the ways out of the states only the space is kept. -/
namespace ModuleLoader

/-- From which end a text is read. -/
inductive Direction where
  | forward
  | backward
deriving DecidableEq

structure Automaton where
  states : Nat
  /-- Bytes for the ways out of the states. A single way takes none. -/
  ways : Nat
deriving DecidableEq

namespace Automaton

/-- Bytes for a state. -/
def state : Nat := 32

/-- Bytes for a way out of a state that is taken on certain bytes. -/
def branch : Nat := 8

/-- Bytes for a way out of a state that is taken on no byte. -/
def fork : Nat := 4

/-- The most that an automaton may take: ten mebibytes. -/
def limit : Nat := 10 * 1024 * 1024

def empty : Automaton := ⟨0, 0⟩

def size (m : Automaton) : Nat := state * m.states + m.ways

def fits (m : Automaton) : Bool := m.size ≤ limit

/-- A new state of which the ways out take so many bytes. Its number is `m.states`. -/
def add (m : Automaton) (ways : Nat) : Automaton := ⟨m.states + 1, m.ways + ways⟩

/-- Further ways out of a state that is there already. -/
def widen (m : Automaton) (ways : Nat) : Automaton := { m with ways := m.ways + ways }

/-- So many states with one way out each. -/
def addLine (m : Automaton) (length : Nat) : Automaton := { m with states := m.states + length }

/-- Lays out the same thing `n` times. What no longer fits need not be completed. -/
def copies (lay : Automaton → Automaton) : Nat → Automaton → Automaton
  | 0, m => m
  | n + 1, m => if m.fits then copies lay n (lay m) else m

theorem size_add (m : Automaton) (ways : Nat) : (m.add ways).size = m.size + state + ways := by
  simp only [size, add, Nat.mul_add]
  omega

/-- Stopping early does not change whether the copies fit. -/
theorem fits_copies {lay : Automaton → Automaton} (grows : ∀ m, m.size ≤ (lay m).size) (n : Nat)
    (m : Automaton) : (copies lay n m).fits = (Nat.repeat lay n m).fits := by
  have inside (n : Nat) (m : Automaton) : Nat.repeat lay n (lay m) = Nat.repeat lay (n + 1) m := by
    induction n with
    | zero => rfl
    | succ n ih => simpa only [Nat.repeat] using congrArg lay ih
  have larger (n : Nat) (m : Automaton) : m.size ≤ (Nat.repeat lay n m).size := by
    induction n with
    | zero => exact Nat.le_refl _
    | succ n ih => exact Nat.le_trans ih (grows _)
  induction n generalizing m with
  | zero => rfl
  | succ n ih =>
    simp only [copies]
    split
    · rw [ih, inside]
    · next h =>
      have := larger (n + 1) m
      simp only [fits, decide_eq_true_eq] at h
      simp only [fits, decide_eq_decide]
      omega

end Automaton

end ModuleLoader
