/-!
# Runs of characters, digits and numbers

The length of the run of characters of one class at the front of a text, and the number that a
run of digits writes.
-/

namespace PhpHandbook.Text

/-- The length of the longest run at the front whose characters all satisfy `p`. -/
def run (p : Char → Bool) (cs : List Char) : Nat :=
  (cs.takeWhile p).length

theorem take_run (p : Char → Bool) (cs : List Char) : cs.take (run p cs) = cs.takeWhile p :=
  (List.prefix_iff_eq_take.1 (List.takeWhile_prefix p)).symm

theorem drop_run (p : Char → Bool) (cs : List Char) : cs.drop (run p cs) = cs.dropWhile p := by
  rw [← List.append_cancel_left_eq (cs.takeWhile p), List.takeWhile_append_dropWhile,
    ← take_run, List.take_append_drop]

/-- Digits of base sixteen. -/
def isHexDigit (c : Char) : Bool :=
  c.isDigit || ('a' ≤ c && c ≤ 'f') || ('A' ≤ c && c ≤ 'F')

/-- Digits of base two. -/
def isBinaryDigit (c : Char) : Bool :=
  c == '0' || c == '1'

/-- The value of a digit of base sixteen. -/
def hexValue (c : Char) : Nat :=
  if c.isDigit then c.toNat - 48 else c.toLower.toNat - 87

/-- The number that digits of a base write. -/
def numberOf (base : Nat) (digits : List Char) : Nat :=
  digits.foldl (fun n c => base * n + hexValue c) 0

end PhpHandbook.Text
