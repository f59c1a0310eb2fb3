/-!
# Natural order

Names are listed in the order a reader expects: `item2` stands before `item10`.  Two texts are
walked side by side; where both show a digit, the two runs of digits are compared by value, and
elsewhere characters are compared by code point.  Texts that agree up to leading zeros are told
apart by plain comparison, so different texts never tie.

It is the comparison by which the generator sorts the members of a class.
-/

namespace PhpHandbook.Text

/-- Compares two runs of digits by value: leading zeros do not count, more digits is more. -/
def compareNumerals (l r : List Char) : Ordering :=
  let l := l.dropWhile (· == '0')
  let r := r.dropWhile (· == '0')
  (compare l.length r.length).then (compare l r)

theorem length_dropWhile_le {α : Type} (p : α → Bool) (l : List α) :
    (l.dropWhile p).length ≤ l.length := by
  induction l with
  | nil => simp
  | cons a l ih =>
    simp only [List.dropWhile_cons]
    split
    · simp only [List.length_cons]; omega
    · exact Nat.le_refl _

/-- Walks two texts side by side; `eq` means that they agree up to leading zeros of numerals. -/
def compareWalk : List Char → List Char → Ordering
  | [], [] => .eq
  | [], _ :: _ => .lt
  | _ :: _, [] => .gt
  | l :: ls, r :: rs =>
    if l.isDigit && r.isDigit then
      (compareNumerals (l :: ls.takeWhile Char.isDigit) (r :: rs.takeWhile Char.isDigit)).then
        (compareWalk (ls.dropWhile Char.isDigit) (rs.dropWhile Char.isDigit))
    else if l = r then compareWalk ls rs
    else compare l r
termination_by l => l.length
decreasing_by
  all_goals simp_wf
  · have := length_dropWhile_le Char.isDigit ls; omega

/-- **Natural order** of two texts. -/
def compareNatural (a b : String) : Ordering :=
  (compareWalk a.toList b.toList).then (compare a.toList b.toList)

/-- Whether `a` does not stand after `b` in natural order. -/
def naturalLE (a b : String) : Bool :=
  (compareNatural a b).isLE

/-- The items in natural order of their labels; items with equal labels keep their order. -/
def sortNaturalBy {α : Type} (label : α → String) (items : List α) : List α :=
  items.mergeSort fun a b => naturalLE (label a) (label b)

end PhpHandbook.Text
