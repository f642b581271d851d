/-! The stages of a module's life, in the order in which they are passed through. -/
namespace ModuleLoader

inductive Status where
  /-- Neither registered nor requested. -/
  | unknown
  /-- Its resource is being retrieved. -/
  | fetching
  /-- The retrieval finished, whatever it held. -/
  | fetched
  /-- Dependencies and factory are known. -/
  | saved
  /-- Every dependency worth waiting for is ready. -/
  | ready
  /-- The factory is running. -/
  | compiling
  /-- The factory has run. -/
  | compiled
deriving DecidableEq, Inhabited

namespace Status

def code : Status → Nat
  | unknown => 0
  | fetching => 1
  | fetched => 2
  | saved => 3
  | ready => 4
  | compiling => 5
  | compiled => 6

theorem code_injective {a b : Status} (h : a.code = b.code) : a = b := by
  revert h; cases a <;> cases b <;> decide

/-- Stages are compared by their codes. -/
instance : LE Status := ⟨fun a b => a.code ≤ b.code⟩

instance : LT Status := ⟨fun a b => a.code < b.code⟩

instance (a b : Status) : Decidable (a ≤ b) := inferInstanceAs (Decidable (a.code ≤ b.code))

instance (a b : Status) : Decidable (a < b) := inferInstanceAs (Decidable (a.code < b.code))

instance : Ord Status := ⟨fun a b => compare a.code b.code⟩

theorem le_iff (a b : Status) : a ≤ b ↔ a.code ≤ b.code := Iff.rfl

theorem lt_iff (a b : Status) : a < b ↔ a.code < b.code := Iff.rfl

protected theorem le_refl (a : Status) : a ≤ a := Nat.le_refl _

protected theorem le_trans {a b c : Status} (ab : a ≤ b) (bc : b ≤ c) : a ≤ c := Nat.le_trans ab bc

protected theorem not_le {a b : Status} : ¬ a ≤ b ↔ b < a := Nat.not_le

theorem le_compiled (a : Status) : a ≤ compiled := by cases a <;> decide

theorem eq_compiled {a : Status} (le : compiled ≤ a) : a = compiled :=
  code_injective (Nat.le_antisymm (le_compiled a) le)

theorem ne_unknown_of_le {a b : Status} (known : a ≠ unknown) (le : a ≤ b) : b ≠ unknown := by
  rintro rfl
  exact known (code_injective (Nat.le_zero.mp le))

/-- A module starts out unknown. -/
def initial : Status := unknown

/-- The stage with this code, if there is one. -/
def ofCode? : Nat → Option Status
  | 0 => some unknown
  | 1 => some fetching
  | 2 => some fetched
  | 3 => some saved
  | 4 => some ready
  | 5 => some compiling
  | 6 => some compiled
  | _ => none

theorem ofCode?_code (a : Status) : ofCode? a.code = some a := by cases a <;> rfl

def name : Status → String
  | unknown => "UNKNOWN"
  | fetching => "FETCHING"
  | fetched => "FETCHED"
  | saved => "SAVED"
  | ready => "READY"
  | compiling => "COMPILING"
  | compiled => "COMPILED"

def describe : Status → String
  | unknown => "Unknown"
  | fetching => "Fetching"
  | fetched => "Fetched"
  | saved => "Saved"
  | ready => "Ready"
  | compiling => "Compiling"
  | compiled => "Compiled"

end Status

end ModuleLoader
