import ModuleLoader.Binary64.Shortest

/-! The text of a double: the fewest digits that read back, with at least one digit after the
point, and in scientific form when very large or very small. -/
namespace ModuleLoader.Binary64

/-- Powers of ten of the first digit that are written positionally. -/
def isPositional (lead : Int) : Bool := -4 ≤ lead && lead < 16

/-- Digits around a point that stands after the digit of power zero. -/
def positional (digits : List Char) (lead : Int) : List Char :=
  if lead < 0 then
    '0' :: '.' :: (List.replicate (-lead - 1).toNat '0' ++ digits)
  else
    let whole := lead.toNat + 1
    let padded := digits ++ List.replicate (whole - digits.length) '0'
    let rest := padded.drop whole
    padded.take whole ++ '.' :: (if rest.isEmpty then ['0'] else rest)

/-- One digit before the point; no point after a single digit. -/
def scientific (digits : List Char) (lead : Int) : List Char :=
  let rest := digits.drop 1
  digits.take 1 ++ (if rest.isEmpty then [] else '.' :: rest) ++ 'e' :: (toString lead).toList

/-- The text of a positive finite number. -/
def displayMagnitude (m : Nat) (e : Int) : List Char :=
  let (n, k) := Shortest.decimal m e
  let digits := Nat.toDigits 10 n
  let lead := k + digits.length - 1
  if isPositional lead then positional digits lead else scientific digits lead

def display (x : Binary64) : String :=
  if x.isNaN then "NaN"
  else
    let sign := if x.isNegative then ['-'] else []
    let body :=
      if x.isInfinite then ['i', 'n', 'f']
      else if x.isZero then ['0', '.', '0']
      else displayMagnitude x.significand x.exponent
    String.ofList (sign ++ body)

end ModuleLoader.Binary64
