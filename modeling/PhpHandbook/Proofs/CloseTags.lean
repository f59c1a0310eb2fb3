import Mathlib.Data.List.TakeWhile
import PhpHandbook.Proofs.Lossless

/-!
# Tags that close

Inside the tags a closing tag competes with the operators: both are made of the same characters, and
the longer token wins.  So a question mark with a right angle bracket behind it is the closing tag
only where no character of an operator follows; otherwise the operator goes on, and the text behind
it is still read as PHP.

## Main definitions

* `Stands`: where the walk over a text is, with the tokens behind it.

## Main statements

* `munch_closeTag`: what the longest token is at a closing tag.
* `closeTag_closes_iff`: a closing tag closes if and only if no operator goes on behind it.
-/

namespace PhpHandbook.Source

open Text (run)

/-! ### Where the walk stands -/

/-- **The walk over `passed ++ rest` stands** in front of `rest`, in a mode, when it has made the
tokens `before`. -/
structure Stands (mode : Mode) (passed rest : List Char) (before : List Token) : Prop where
  /-- The tokens lead to the mode. -/
  mode_eq : Mode.html.afterAll before = mode
  /-- All other tokens come from what is left. -/
  tokens_eq : (tokenize (passed ++ rest)).tokens
    = before ++ (walk mode (byteLength passed) rest).map (·.1)

/-- **One step of the walk inside the tags**: it passes over a gap, makes the token of its piece,
and stands behind it. -/
theorem Stands.next {passed gap cs : List Char} {c : Char} {before : List Token}
    (h : Stands .php passed (gap ++ c :: cs) before) (hgap : ∀ d ∈ gap, isGap d)
    (hc : isGap c = false) {p : Piece} (hp : phpPiece c cs = p) :
    Stands p.mode (passed ++ gap ++ (c :: cs.take p.tail ++ (cs.drop p.tail).take p.skipped))
      (cs.drop (p.tail + p.skipped))
      (before ++ [tokenAt p.kind (byteLength (passed ++ gap)) (c :: cs.take p.tail)]) := by
  subst hp
  have htext : passed ++ (gap ++ c :: cs) = passed ++ gap ++ (c :: cs.take (phpPiece c cs).tail
      ++ (cs.drop (phpPiece c cs).tail).take (phpPiece c cs).skipped)
      ++ cs.drop ((phpPiece c cs).tail + (phpPiece c cs).skipped) := by
    simp only [List.append_assoc, List.cons_append]
    rw [← List.append_assoc (cs.take _), take_append_drop_append_drop]
  refine ⟨?_, ?_⟩
  · rw [(phpPiece_fits c cs).mode_eq, ← h.mode_eq]
    exact List.foldl_append
  · have hnot : ¬(Mode.php = Mode.php ∧ isGap c = true) := by simp [hc]
    rw [← htext, h.tokens_eq, walk_gap hgap, walk, if_neg hnot, ← byteLength_append,
      byteLength_append (passed ++ gap), byteLength_append (c :: _), List.append_assoc before,
      ← Nat.add_assoc]
    rfl

/-! ### Closing tags -/

/-- Three characters that begin like a closing tag are no mark. -/
theorem operatorMark?_of_longer (c : Char) (cs : List Char) :
    operatorMark? ('?' :: '>' :: c :: cs) = none := by
  unfold operatorMark?
  split
  case h_9 => rfl
  all_goals
    next hword =>
    have := congrArg String.toList hword
    simp at this

theorem run_eq_zero_iff {p : Char → Bool} {cs : List Char} :
    run p cs = 0 ↔ ∀ c ∈ cs.head?, p c = false := by
  cases cs with
  | nil => simp [run]
  | cons c cs =>
    rw [run, List.takeWhile_cons]
    cases hc : p c <;> simp [hc]

/-- **The longest token at a closing tag**: the tag where no character of an operator follows, and
otherwise an operator that goes on with these characters. -/
theorem munch_closeTag (behind : List Char) :
    munch '?' ('>' :: behind) = .token
      (if run isOperatorChar behind = 0 then .closeTag else .operator)
      (1 + run isOperatorChar behind) := by
  have hrun : run isOperatorChar ('>' :: behind) = 1 + run isOperatorChar behind := by
    rw [run, List.takeWhile_cons_of_pos (by decide), List.length_cons, Nat.add_comm]
    rfl
  show Munched.token (operatorToken '?' ('>' :: behind)).1 (operatorToken '?' ('>' :: behind)).2 = _
  rw [operatorToken, hrun, Nat.add_comm 1, List.take_succ_cons]
  split
  · next hzero => rw [hzero]; rfl
  · next hpos =>
    obtain ⟨c, cs, rfl⟩ : ∃ c cs, behind = c :: cs :=
      List.exists_cons_of_ne_nil (by rintro rfl; exact hpos rfl)
    obtain ⟨n, hn⟩ := Nat.exists_eq_succ_of_ne_zero hpos
    rw [hn, List.take_succ_cons, operatorMark?_of_longer]
    rfl

/-- What the walk passes over behind a closing tag: one newline. -/
def behindCloseTag : List Char → List Char × List Char
  | '\n' :: rest => (['\n'], rest)
  | rest => ([], rest)

theorem phpPiece_closeTag_of_free {behind : List Char} (h : run isOperatorChar behind = 0) :
    phpPiece '?' ('>' :: behind) =
      { kind := .closeTag, tail := 1, skipped := (behindCloseTag behind).1.length,
        mode := .html } := by
  have hmunch := munch_closeTag behind
  rw [if_pos h, h] at hmunch
  rw [phpPiece, hmunch]
  cases behind with
  | nil => rfl
  | cons c rest =>
    by_cases hc : c = '\n'
    · subst hc
      rfl
    · simp [behindCloseTag, hc]

theorem phpPiece_closeTag_of_operator {behind : List Char} (h : run isOperatorChar behind ≠ 0) :
    phpPiece '?' ('>' :: behind) =
      { kind := .operator, tail := 1 + run isOperatorChar behind, mode := .php } := by
  have hmunch := munch_closeTag behind
  rw [if_neg h] at hmunch
  rw [phpPiece, hmunch]

/-- **A tag closes**: behind `passed` and the tokens `before` comes the closing tag, and the walk
goes on outside the tags. -/
def Closes (passed behind : List Char) (before : List Token) : Prop :=
  Stands .html (passed ++ '?' :: '>' :: (behindCloseTag behind).1) (behindCloseTag behind).2
    (before ++ [tokenAt .closeTag (byteLength passed) ['?', '>']])

theorem behindCloseTag_append (behind : List Char) :
    (behindCloseTag behind).1 ++ (behindCloseTag behind).2 = behind := by
  unfold behindCloseTag
  split <;> rfl

variable {passed gap behind : List Char} {before : List Token}

theorem closes_of_free (h : Stands .php passed (gap ++ '?' :: '>' :: behind) before)
    (hgap : ∀ c ∈ gap, isGap c) (hfree : run isOperatorChar behind = 0) :
    Closes (passed ++ gap) behind before := by
  unfold Closes
  have hnext := h.next hgap (by decide) (phpPiece_closeTag_of_free hfree)
  have htake := @List.take_left _ (behindCloseTag behind).1 (behindCloseTag behind).2
  have hdrop := @List.drop_left _ (behindCloseTag behind).1 (behindCloseTag behind).2
  rw [behindCloseTag_append] at htake hdrop
  simpa only [List.take_succ_cons, List.take_zero, List.drop_succ_cons, List.drop_zero, htake,
    Nat.add_comm 1, hdrop, List.cons_append, List.nil_append] using hnext

theorem operator_of_not_free (h : Stands .php passed (gap ++ '?' :: '>' :: behind) before)
    (hgap : ∀ c ∈ gap, isGap c) (hfree : run isOperatorChar behind ≠ 0) :
    Stands .php (passed ++ gap ++ '?' :: '>' :: behind.takeWhile isOperatorChar)
      (behind.dropWhile isOperatorChar)
      (before ++ [tokenAt .operator (byteLength (passed ++ gap))
        ('?' :: '>' :: behind.takeWhile isOperatorChar)]) := by
  have hnext := h.next hgap (by decide) (phpPiece_closeTag_of_operator hfree)
  simpa only [Nat.add_comm 1, List.take_succ_cons, List.take_zero, List.drop_succ_cons,
    Text.take_run, Nat.add_zero, Text.drop_run, List.append_nil] using hnext

/-- **A closing tag closes if and only if no operator goes on behind it.**  Otherwise it is the
front of an operator, and the text behind that is still read as PHP. -/
theorem closeTag_closes_iff (h : Stands .php passed (gap ++ '?' :: '>' :: behind) before)
    (hgap : ∀ c ∈ gap, isGap c) :
    (Closes (passed ++ gap) behind before ↔ ∀ c ∈ behind.head?, isOperatorChar c = false) ∧
      ((∃ c ∈ behind.head?, isOperatorChar c = true) →
        Stands .php (passed ++ gap ++ '?' :: '>' :: behind.takeWhile isOperatorChar)
          (behind.dropWhile isOperatorChar)
          (before ++ [tokenAt .operator (byteLength (passed ++ gap))
            ('?' :: '>' :: behind.takeWhile isOperatorChar)])) := by
  refine ⟨⟨fun hcloses => ?_, fun hfree => closes_of_free h hgap (run_eq_zero_iff.2 hfree)⟩,
    ?_⟩
  · by_contra hnot
    have hoperator := operator_of_not_free h hgap (mt run_eq_zero_iff.1 hnot)
    have htokens := hcloses.tokens_eq
    -- both are ways to read one text, so they agree on the token behind the ones that were made
    have htext :
        passed ++ gap ++ '?' :: '>' :: (behindCloseTag behind).1 ++ (behindCloseTag behind).2
        = passed ++ gap ++ '?' :: '>' :: behind.takeWhile isOperatorChar
          ++ behind.dropWhile isOperatorChar := by
      simp only [List.append_assoc, List.cons_append, List.takeWhile_append_dropWhile,
        behindCloseTag_append]
    rw [htext, hoperator.tokens_eq, List.append_assoc before, List.append_assoc before] at htokens
    cases List.append_cancel_left htokens
  · rintro ⟨c, hc, hoperator⟩
    refine operator_of_not_free h hgap fun hzero => ?_
    rw [run_eq_zero_iff.1 hzero c hc] at hoperator
    cases hoperator

/-- A newline is no operator, and the closing tag in front of it takes it along. -/
theorem closes_before_newline :
    Stands .php "<?php ".toList "?>\n<b>".toList [tokenAt .openTag 0 "<?php ".toList] ∧
      Closes "<?php ".toList "\n<b>".toList [tokenAt .openTag 0 "<?php ".toList] := by
  have hstands : Stands .php "<?php ".toList ([] ++ '?' :: '>' :: "\n<b>".toList)
      [tokenAt .openTag 0 "<?php ".toList] := ⟨rfl, by decide +kernel⟩
  refine ⟨hstands, (closeTag_closes_iff hstands nofun).1.2 ?_⟩
  rintro c ⟨⟩
  rfl

/-- **Not every closing tag closes**: the markup behind it makes an operator of it. -/
theorem not_closes_before_markup :
    ¬∀ (passed gap behind : List Char) (before : List Token),
      Stands .php passed (gap ++ '?' :: '>' :: behind) before → (∀ c ∈ gap, isGap c) →
        Closes (passed ++ gap) behind before := by
  intro h
  have hcloses := h "<?php ".toList [] "<b>".toList [tokenAt .openTag 0 "<?php ".toList]
    ⟨rfl, by decide +kernel⟩ nofun
  exact absurd hcloses.tokens_eq (by decide +kernel)

end PhpHandbook.Source
