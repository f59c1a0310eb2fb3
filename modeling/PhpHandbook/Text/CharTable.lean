/-!
# Tables of code points

A property of characters is written down as an array of strides: the code points
`lo, lo + step, …, hi`.  Alternating capital and small letters are one row with step two,
so the case tables stay short.  `Stride.contains` is the only reading of a row; a table is
the union of its rows.
-/

namespace PhpHandbook.Text

/-- The code points `lo, lo + step, …` up to and including `hi`, as a triple `(lo, hi, step)`. -/
abbrev Stride := Nat × Nat × Nat

/-- Whether a code point lies on the stride. -/
def Stride.contains (row : Stride) (point : Nat) : Bool :=
  row.1 ≤ point && point ≤ row.2.1 && (point - row.1) % row.2.2 == 0

/-- Whether some row of a table holds the character. -/
def inTable (table : Array Stride) (c : Char) : Bool :=
  table.any (Stride.contains · c.toNat)

end PhpHandbook.Text
