import ModuleLoader.Binary64

/-! The shortest decimal that reads back as a given positive number `m * 2 ^ e`. Decimal grids are
tried from coarse to fine; on each, only the two neighbours of the number can read back. -/
namespace ModuleLoader.Binary64.Shortest

/-- A number and the ends of the interval that rounds to it, as fractions over one denominator. -/
structure Interval where
  low : Nat
  value : Nat
  high : Nat
  denominator : Nat
  /-- The ends belong to the interval iff the significand is even. -/
  closed : Bool

/-- Half-way points to the neighbours of `m * 2 ^ e`. Below a power of two the lower neighbour is
only half as far away, unless the number is among the smallest. -/
def interval (m : Nat) (e : Int) : Interval :=
  let below := if m = 1 <<< 52 ∧ e ≠ -1074 then 1 else 2
  let scale := 1 <<< (e - 2).toNat
  { low := (4 * m - below) * scale
    value := 4 * m * scale
    high := (4 * m + 2) * scale
    denominator := 1 <<< (2 - e).toNat
    closed := m % 2 == 0 }

/-- The interval in units of `10 ^ k`. -/
def Interval.inUnits (i : Interval) (k : Int) : Interval :=
  let up := Nat.pow 10 (-k).toNat
  { i with
    low := i.low * up
    value := i.value * up
    high := i.high * up
    denominator := i.denominator * Nat.pow 10 k.toNat }

def Interval.admits (i : Interval) (n : Nat) : Bool :=
  let scaled := n * i.denominator
  if i.closed then i.low ≤ scaled && scaled ≤ i.high else i.low < scaled && scaled < i.high

/-- The admitted neighbour of the value on the grid of whole units; of two the nearer one, and the
upper one when both are equally near. -/
def Interval.neighbour? (i : Interval) : Option Nat :=
  let n := i.value / i.denominator
  if i.admits n then
    if i.admits (n + 1) && (2 * n + 1) * i.denominator ≤ 2 * i.value then some (n + 1) else some n
  else if i.admits (n + 1) then some (n + 1) else none

/-- The power of ten of the first digit of `num / den`, both positive. -/
def leadingPower (num den : Nat) : Int :=
  let guess : Int := (Nat.toDigits 10 num).length - (Nat.toDigits 10 den).length
  if den * Nat.pow 10 guess.toNat ≤ num * Nat.pow 10 (-guess).toNat then guess else guess - 1

/-- The first hit on the grids with `tried + 1`, `tried + 2`, … digits. -/
def search (i : Interval) (lead : Int) : Nat → Nat → Nat × Int
  | 0, tried =>
    let k := lead - tried
    ((i.inUnits k).value / (i.inUnits k).denominator, k)
  | more + 1, tried =>
    let k := lead - tried
    match (i.inUnits k).neighbour? with
    | some n => (n, k)
    | none => search i lead more (tried + 1)

/-- Digits without zeros at the end, with the power of ten of the last one. -/
def strip : Nat → Nat × Int → Nat × Int
  | 0, d => d
  | fuel + 1, (n, k) => if n % 10 = 0 then strip fuel (n / 10, k + 1) else (n, k)

/-- The shortest decimal `n * 10 ^ k` that reads back as the number. Seventeen digits always do. -/
def decimal (m : Nat) (e : Int) : Nat × Int :=
  let i := interval m e
  strip 17 (search i (leadingPower i.value i.denominator) 17 0)

end ModuleLoader.Binary64.Shortest
