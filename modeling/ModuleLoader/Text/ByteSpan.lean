/-! The UTF-8 form of ranges of characters: a range is cut into spans, each of which allows a range
of bytes at every place. -/
namespace ModuleLoader.Text

/-- For each byte, the first and the last that is allowed. -/
abbrev ByteSpan := List (Nat × Nat)

/-- The spans of the numbers from `first` to `last`, written with a leading byte above `base` and
`rest` more bytes of six bits each. Where the numbers fill all that the later bytes can say, one
span has a range of leading bytes. -/
def spansOf (base : Nat) : Nat → Nat → Nat → List ByteSpan
  | 0, first, last => [[(base + first, base + last)]]
  | rest + 1, first, last =>
    let unit := 64 ^ (rest + 1)
    let leading (low high : Nat) (spans : List ByteSpan) : List ByteSpan :=
      spans.map ((base + low, base + high) :: ·)
    let (low, high) := (first / unit, last / unit)
    if low = high then leading low low (spansOf 0x80 rest (first % unit) (last % unit))
    else
      let cutLow := first % unit != 0
      let cutHigh := last % unit != unit - 1
      let (start, stop) := (if cutLow then low + 1 else low, if cutHigh then high else high + 1)
      (if cutLow then leading low low (spansOf 0x80 rest (first % unit) (unit - 1)) else []) ++
        (if start < stop then leading start (stop - 1) (spansOf 0x80 rest 0 (unit - 1)) else []) ++
        (if cutHigh then leading high high (spansOf 0x80 rest 0 (last % unit)) else [])

/-- The code points by the length of their form: the first, the last, what is above the leading
byte, and the number of bytes behind it. Surrogates have no form. -/
def utf8Blocks : List (Nat × Nat × Nat × Nat) :=
  [ (0, 0x7f, 0, 0), (0x80, 0x7ff, 0xc0, 1), (0x800, 0xd7ff, 0xe0, 2), (0xe000, 0xffff, 0xe0, 2),
    (0x10000, 0x10ffff, 0xf0, 3) ]

/-- The spans of a range of code points, in order. -/
def byteSpans (range : Nat × Nat) : List ByteSpan :=
  utf8Blocks.flatMap fun (first, last, base, rest) =>
    let (first, last) := (max first range.1, min last range.2)
    if first ≤ last then spansOf base rest first last else []

end ModuleLoader.Text
