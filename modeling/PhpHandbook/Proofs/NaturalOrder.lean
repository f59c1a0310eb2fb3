import Mathlib.Data.List.Sort
import PhpHandbook.Text.Natural

/-!
# Natural order is an order

Two texts are compared by walking both side by side.  The same comparison can be made in two steps:
each text alone is cut into pieces, which are runs of digits and single characters, and the two
lists of pieces are compared by their first difference.  For this a run of digits takes the place of
the digit `0` among the characters, since every other character lies on the same side of all digits.

So natural order is a linear order of texts, and sorting by it sorts.

## Main definitions

* `Piece`, `pieces`: a text cut into runs of digits and single characters.
* `comparePieces`: the order of lists of pieces.

## Main statements

* `compareWalk_eq`: walking two texts side by side compares their pieces.
* `compareNatural_eq_eq_iff`, `naturalLE_trans`, `naturalLE_total`: a linear order of texts.
* `pairwise_sortNaturalBy`: items are in natural order after sorting.
-/

namespace PhpHandbook.Text

open Std (TransCmp OrientedCmp LawfulEqCmp)

/-! ### Pieces -/

/-- **A piece of a text**: its place among the characters and, for a run of digits, the number of
digits that count and these digits. -/
abbrev Piece : Type :=
  Char × Nat × List Char

/-- The piece of a run of digits, which stands where the digit `0` stands. -/
def Piece.numeral (digits : List Char) : Piece :=
  ('0', (digits.dropWhile (· == '0')).length, digits.dropWhile (· == '0'))

/-- The piece of a single character. -/
def Piece.single (c : Char) : Piece :=
  (c, 0, [])

/-- The order of pieces. -/
def comparePiece : Piece → Piece → Ordering :=
  compareLex (compareOn (·.1)) (compareLex (compareOn (·.2.1)) (compareOn (·.2.2)))

/-- The order of lists of pieces by their first difference. -/
def comparePieces : List Piece → List Piece → Ordering :=
  List.compareLex comparePiece

instance : TransCmp comparePiece := by
  unfold comparePiece
  infer_instance

instance : TransCmp comparePieces := by
  unfold comparePieces
  infer_instance

/-- **A text in pieces.** -/
def pieces : List Char → List Piece
  | [] => []
  | c :: cs =>
    if c.isDigit then .numeral (c :: cs.takeWhile Char.isDigit) ::
      pieces (cs.dropWhile Char.isDigit)
    else .single c :: pieces cs
termination_by cs => cs.length
decreasing_by
  all_goals simp_wf
  have := length_dropWhile_le Char.isDigit cs; omega

/-! ### Pieces in order -/

theorem comparePiece_numeral (l r : List Char) :
    comparePiece (.numeral l) (.numeral r) = compareNumerals l r :=
  rfl

theorem comparePiece_self (p : Piece) : comparePiece p p = .eq :=
  Std.ReflCmp.compare_self

/-- Pieces with different characters compare like these. -/
theorem comparePiece_of_ne {p q : Piece} (h : p.1 ≠ q.1) :
    comparePiece p q = compare p.1 q.1 := by
  have hne : compare p.1 q.1 ≠ .eq := fun heq => h (LawfulEqCmp.eq_of_compare heq)
  show (compare p.1 q.1).then _ = _
  cases hcompare : compare p.1 q.1 with
  | lt => rfl
  | gt => rfl
  | eq => exact absurd hcompare hne

theorem isDigit_iff {c : Char} :
    c.isDigit = true ↔ 48 ≤ c.val.toNat ∧ c.val.toNat ≤ 57 := by
  rw [Char.isDigit, Bool.and_eq_true, decide_eq_true_iff, decide_eq_true_iff, ge_iff_le,
    UInt32.le_iff_toNat_le, UInt32.le_iff_toNat_le]
  rfl

/-- **Every other character lies on the same side of all digits.** -/
theorem compare_digit {d c : Char} (hd : d.isDigit = true) (hc : c.isDigit = false) :
    compare d c = compare '0' c ∧ compare c d = compare c '0' := by
  have hc' : ¬(48 ≤ c.val.toNat ∧ c.val.toNat ≤ 57) := by
    rw [← isDigit_iff, hc]
    exact Bool.false_ne_true
  have hd' := isDigit_iff.1 hd
  have hzero : ('0' : Char).val.toNat = 48 := rfl
  have hne : d ≠ c := by
    rintro rfl
    exact hc' hd'
  have hne' : '0' ≠ c := by
    rintro rfl
    exact hc' (by decide)
  have hlt : d < c ↔ '0' < c := by
    rw [Char.lt_def, Char.lt_def, UInt32.lt_iff_toNat_lt, UInt32.lt_iff_toNat_lt]
    omega
  have hgt : c < d ↔ c < '0' := by
    rw [Char.lt_def, Char.lt_def, UInt32.lt_iff_toNat_lt, UInt32.lt_iff_toNat_lt]
    omega
  constructor
  · show (if d < c then _ else if d = c then _ else _)
      = if '0' < c then _ else if '0' = c then _ else _
    simp only [hlt, hne, hne', if_false]
  · show (if c < d then _ else if c = d then _ else _)
      = if c < '0' then _ else if c = '0' then _ else _
    simp only [hgt, hne.symm, hne'.symm, if_false]

theorem pieces_of_isDigit {c : Char} (h : c.isDigit = true) (cs : List Char) :
    pieces (c :: cs)
      = .numeral (c :: cs.takeWhile Char.isDigit) :: pieces (cs.dropWhile Char.isDigit) := by
  rw [pieces, if_pos h]

theorem pieces_of_not_isDigit {c : Char} (h : c.isDigit = false) (cs : List Char) :
    pieces (c :: cs) = .single c :: pieces cs := by
  rw [pieces, if_neg (by rw [h]; exact Bool.false_ne_true)]

/-- The first piece of a text whose first character is known. -/
theorem exists_pieces_cons (c : Char) (cs : List Char) :
    ∃ p ps, pieces (c :: cs) = p :: ps ∧ p.1 = if c.isDigit then '0' else c := by
  cases h : c.isDigit with
  | true => exact ⟨_, _, pieces_of_isDigit h cs, rfl⟩
  | false => exact ⟨_, _, pieces_of_not_isDigit h cs, rfl⟩

/-- Different characters, not both of them digits, decide about the texts that they begin. -/
theorem comparePieces_of_ne {l r : Char} (hne : l ≠ r)
    (hdigits : (l.isDigit && r.isDigit) = false) (ls rs : List Char) :
    comparePieces (pieces (l :: ls)) (pieces (r :: rs)) = compare l r := by
  have hplace : compare l r
      = compare (if l.isDigit then '0' else l) (if r.isDigit then '0' else r) := by
    cases hl : l.isDigit with
    | false =>
      cases hr : r.isDigit with
      | false => rfl
      | true => exact (compare_digit hr hl).2
    | true =>
      rw [hl, Bool.true_and] at hdigits
      rw [hdigits]
      exact (compare_digit hl hdigits).1
  have hdiffer : compare l r ≠ .eq := fun heq => hne (LawfulEqCmp.eq_of_compare heq)
  obtain ⟨p, ps, hp, hpchar⟩ := exists_pieces_cons l ls
  obtain ⟨q, qs, hq, hqchar⟩ := exists_pieces_cons r rs
  rw [hplace, ← hpchar, ← hqchar] at hdiffer ⊢
  have hfirst : comparePiece p q = compare p.1 q.1 := by
    refine comparePiece_of_ne fun heq => hdiffer ?_
    rw [heq]
    exact LawfulEqCmp.compare_eq_iff_eq.2 rfl
  rw [hp, hq, comparePieces, List.compareLex_cons_cons, hfirst]
  cases hcompare : compare p.1 q.1 with
  | lt => rfl
  | gt => rfl
  | eq => exact absurd hcompare hdiffer

/-- **Walking two texts side by side** compares their pieces. -/
theorem compareWalk_eq (l r : List Char) :
    compareWalk l r = comparePieces (pieces l) (pieces r) := by
  fun_induction compareWalk l r with
  | case1 => rw [pieces]; rfl
  | case2 r rs =>
    obtain ⟨q, qs, hq, -⟩ := exists_pieces_cons r rs
    rw [hq, pieces]
    rfl
  | case3 l ls =>
    obtain ⟨p, ps, hp, -⟩ := exists_pieces_cons l ls
    rw [hp, pieces]
    rfl
  | case4 l ls r rs hdigits ih =>
    rw [Bool.and_eq_true] at hdigits
    rw [pieces_of_isDigit hdigits.1, pieces_of_isDigit hdigits.2, comparePieces,
      List.compareLex_cons_cons, comparePiece_numeral, ih]
    rfl
  | case5 ls c rs hdigits ih =>
    have hc : c.isDigit = false := by simpa using hdigits
    rw [pieces_of_not_isDigit hc, pieces_of_not_isDigit hc, comparePieces,
      List.compareLex_cons_cons, ih, comparePiece_self]
    rfl
  | case6 l ls r rs hdigits hne =>
    exact (comparePieces_of_ne hne (by simpa using hdigits) ls rs).symm

/-! ### The order of texts -/

theorem compareNatural_eq : compareNatural
    = compareLex (fun a b => comparePieces (pieces a.toList) (pieces b.toList))
      (compareOn String.toList) := by
  funext a b
  rw [compareNatural, compareWalk_eq]
  rfl

instance : TransCmp compareNatural := by
  have hpieces : TransCmp fun a b : String => comparePieces (pieces a.toList) (pieces b.toList) :=
    { eq_swap := OrientedCmp.eq_swap
      isLE_trans := TransCmp.isLE_trans }
  rw [compareNatural_eq]
  infer_instance

/-- **Different texts never tie.** -/
theorem compareNatural_eq_eq_iff {a b : String} : compareNatural a b = .eq ↔ a = b := by
  constructor
  · intro h
    rw [compareNatural, Ordering.then_eq_eq] at h
    exact String.toList_injective (LawfulEqCmp.eq_of_compare h.2)
  · rintro rfl
    exact Std.ReflCmp.compare_self

theorem compareNatural_swap (a b : String) : compareNatural b a = (compareNatural a b).swap :=
  OrientedCmp.eq_swap

theorem naturalLE_trans {a b c : String} (hab : naturalLE a b = true) (hbc : naturalLE b c = true) :
    naturalLE a c = true := by
  unfold naturalLE at hab hbc ⊢
  exact TransCmp.isLE_trans hab hbc

theorem naturalLE_total (a b : String) : (naturalLE a b || naturalLE b a) = true := by
  rw [naturalLE, naturalLE, compareNatural_swap a b]
  cases compareNatural a b <;> rfl

/-- **Sorting in natural order** puts items in natural order. -/
theorem pairwise_sortNaturalBy {α : Type} (label : α → String) (items : List α) :
    (sortNaturalBy label items).Pairwise fun a b => naturalLE (label a) (label b) = true :=
  @List.pairwise_mergeSort α (fun a b => naturalLE (label a) (label b))
    (fun _ _ _ hab hbc => naturalLE_trans hab hbc)
    (fun a b => naturalLE_total (label a) (label b)) items

theorem sortNaturalBy_perm {α : Type} (label : α → String) (items : List α) :
    (sortNaturalBy label items).Perm items :=
  List.mergeSort_perm items _

end PhpHandbook.Text
