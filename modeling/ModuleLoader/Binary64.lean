/-! Double-precision numbers given by their sixty-four bits. Comparison follows IEEE 754: a NaN
differs from everything and the two zeros are equal. -/
namespace ModuleLoader

structure Binary64 where
  bits : UInt64
deriving DecidableEq, Inhabited

namespace Binary64

def isNegative (x : Binary64) : Bool := 1 <<< 63 ≤ x.bits.toNat

/-- The eleven exponent bits. -/
def biasedExponent (x : Binary64) : Nat := x.bits.toNat / 1 <<< 52 % 1 <<< 11

/-- The fifty-two fraction bits. -/
def fraction (x : Binary64) : Nat := x.bits.toNat % 1 <<< 52

def isNaN (x : Binary64) : Bool := x.biasedExponent == 2047 && x.fraction != 0

def isInfinite (x : Binary64) : Bool := x.biasedExponent == 2047 && x.fraction == 0

def isZero (x : Binary64) : Bool := x.biasedExponent == 0 && x.fraction == 0

/-- IEEE equality. -/
def equals (x y : Binary64) : Bool :=
  !x.isNaN && !y.isNaN && (x == y || (x.isZero && y.isZero))

/-- The integer `m` in `m * 2 ^ e`, with the hidden bit of a normal number. -/
def significand (x : Binary64) : Nat :=
  if x.biasedExponent = 0 then x.fraction else 1 <<< 52 + x.fraction

/-- The exponent `e` in `m * 2 ^ e`; subnormal numbers share the least one. -/
def exponent (x : Binary64) : Int :=
  if x.biasedExponent = 0 then -1074 else (x.biasedExponent : Int) - 1075

theorem equals_comm (x y : Binary64) : x.equals y = y.equals x := by
  rw [Bool.eq_iff_iff]
  simp only [equals, Bool.and_eq_true, Bool.or_eq_true, Bool.not_eq_true', beq_iff_eq]
  grind

theorem equals_self (x : Binary64) : x.equals x = !x.isNaN := by simp [equals]

theorem equals_trans {x y z : Binary64} (h : x.equals y = true) (h' : y.equals z = true) :
    x.equals z = true := by
  simp only [equals, Bool.and_eq_true, Bool.or_eq_true, Bool.not_eq_true', beq_iff_eq] at *
  grind

end Binary64

end ModuleLoader
