/-!
# Line numbers

The offsets at which lines start, in ascending order, and the line that holds an offset.  This is
the line lookup of a source.  Offsets and line numbers have 32 bits: what does not fit is cut off
where the table is built, and one more than the greatest number overflows.

## Main definitions

* `LineIndex.ofText`: the table of a text.
* `LineIndex.search`: where an offset stands in the table, or where it would stand.
* `LineIndex.line?`: the line of an offset, unless its number overflows.
-/

namespace PhpHandbook.Source

/-- The offsets just past each newline, where `offset` is that of the first character. -/
def lineStartsFrom (offset : Nat) : List Char → List Nat
  | [] => []
  | c :: cs =>
    let next := offset + c.utf8Size
    if c = '\n' then next :: lineStartsFrom next cs else lineStartsFrom next cs

/-- One more than a number, unless that has more than 32 bits. -/
def succ? (n : UInt32) : Option UInt32 :=
  if n.toNat + 1 < UInt32.size then some (n + 1) else none

/-- Where the lines of a text start. -/
structure LineIndex where
  /-- The offset of the first byte of each line, in ascending order. -/
  starts : Array UInt32

namespace LineIndex

/-- The index of a text: a first line at offset zero, then one line after every newline. -/
def ofText (text : List Char) : LineIndex :=
  ⟨(0 :: (lineStartsFrom 0 text).map UInt32.ofNat).toArray⟩

/-- The number of lines, the last one counted even when it is empty. -/
def lineCount (index : LineIndex) : Nat :=
  index.starts.size

/-- **Searches an offset** between the places `lo` and `hi` of a table by halving: `ok` is the place
at which it stands, `error` the place at which it would have to be put in. -/
def search (starts : Array UInt32) (offset : UInt32) (lo hi : Nat) : Except Nat Nat :=
  if lo < hi then
    let mid := (lo + hi) / 2
    let start := starts.getD mid 0
    if start = offset then .ok mid
    else if start < offset then search starts offset (mid + 1) hi
    else search starts offset lo mid
  else .error lo
termination_by hi - lo

/-- **The line** that holds an offset, counted from one.  An offset at which a line starts has that
line, any other one the line that starts in front of it. -/
def line? (index : LineIndex) (offset : UInt32) : Option UInt32 :=
  match search index.starts offset 0 index.starts.size with
  | .ok place => succ? (UInt32.ofNat place)
  | .error place => some (UInt32.ofNat place)

/-- The line that holds an offset, where arithmetic goes on from zero behind the greatest number. -/
def line (index : LineIndex) (offset : Nat) : Nat :=
  (index.line? (UInt32.ofNat offset)).elim 0 UInt32.toNat

end LineIndex

end PhpHandbook.Source
