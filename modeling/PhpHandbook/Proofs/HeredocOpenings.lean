import Mathlib.Data.List.TakeWhile
import PhpHandbook.Source.Lexer

/-!
# Openings of heredocs

A heredoc opens with three angle brackets and a label.  Blanks may stand in front of the label, and
quotes around it.  The scanner takes as much as it can, so the opening ends with the label or with
its closing quote, and the label is what is written there.

## Main definitions

* `IsLabel`: the texts that may be labels.
* `IsOpening`: the texts that open a heredoc with a label.
* `Opens`: a text that is read as the opening of a heredoc, in front of another text.

## Main statements

* `heredocOpening_cases`: what is read behind the angle brackets.
* `Opens.isOpening`: the opening that is read carries the label that is written in it.
-/

namespace PhpHandbook.Source

open Text (run take_run drop_run)

/-! ### Labels -/

/-- Letters of a label behind its first one. -/
def isLabelPart (c : Char) : Bool :=
  isLabelStart c || c.isDigit

/-- **The label of a heredoc**: a letter or an underscore, and letters, underscores and digits
behind it. -/
def IsLabel : List Char → Prop
  | [] => False
  | l :: ls => isLabelStart l ∧ ∀ c ∈ ls, isLabelPart c

theorem IsLabel.forall_mem {label : List Char} (h : IsLabel label) :
    ∀ c ∈ label, isLabelPart c := by
  cases label with
  | nil => exact h.elim
  | cons l ls => exact List.forall_mem_cons.2 ⟨by simp [isLabelPart, h.1], h.2⟩

theorem isLabel_cons_takeWhile {l : Char} (h : isLabelStart l) (cs : List Char) :
    IsLabel (l :: cs.takeWhile isLabelPart) :=
  ⟨h, fun _ hc => List.mem_takeWhile_imp hc⟩

/-! ### Openings -/

/-- **The opening of a heredoc** with a label: three angle brackets, blanks, and the label, bare or
in quotes of one kind. -/
inductive IsOpening (label : List Char) : List Char → Prop where
  | bare {blanks : List Char} (hblanks : ∀ c ∈ blanks, c = ' ' ∨ c = '\t') :
      IsOpening label ('<' :: '<' :: '<' :: (blanks ++ label))
  | quoted {blanks : List Char} {quote : Char} (hblanks : ∀ c ∈ blanks, c = ' ' ∨ c = '\t')
      (hquote : quote = '"' ∨ quote = '\'') :
      IsOpening label ('<' :: '<' :: '<' :: (blanks ++ quote :: (label ++ [quote])))

/-- Blanks that may stand in front of a label. -/
def isBlankInLine (c : Char) : Bool :=
  c == ' ' || c == '\t'

/-- **What is read behind the angle brackets** is an opening with its label. -/
theorem heredocOpening_cases {cs label : List Char} {n : Nat}
    (h : heredocOpening cs = .opens label n) :
    IsLabel label ∧ ∃ opening rest, cs = opening ++ rest ∧ n = opening.length ∧
      IsOpening label ('<' :: '<' :: '<' :: opening) := by
  have hblanks : ∀ c ∈ cs.takeWhile isBlankInLine, c = ' ' ∨ c = '\t' := fun c hc => by
    simpa [isBlankInLine] using List.mem_takeWhile_imp hc
  have hcs := List.takeWhile_append_dropWhile (p := isBlankInLine) (l := cs)
  obtain ⟨blanks, hrun⟩ : ∃ blanks, cs.takeWhile isBlankInLine = blanks := ⟨_, rfl⟩
  have hlength : run isBlankInLine cs = blanks.length := congrArg List.length hrun
  have hpart (ds : List Char) : ∃ part behind, ds.takeWhile isLabelPart = part ∧
      ds.dropWhile isLabelPart = behind ∧ ds = part ++ behind :=
    ⟨_, _, rfl, rfl, List.takeWhile_append_dropWhile.symm⟩
  rw [hrun] at hcs hblanks
  have hletters : (fun d => isLabelStart d || d.isDigit) = isLabelPart := rfl
  have hgaps : (fun c => c == ' ' || c == '\t') = isBlankInLine := rfl
  simp only [heredocOpening, hletters, hgaps, take_run, drop_run] at h
  split at h
  case h_2 => split at h <;> cases h
  next c rest hdrop =>
  rw [hdrop] at hcs
  split at h
  · -- a label without quotes
    next hc =>
    cases h
    have hlabel := isLabel_cons_takeWhile hc rest
    obtain ⟨part, behind, hpart, -, rfl⟩ := hpart rest
    rw [hpart] at hlabel ⊢
    refine ⟨hlabel, _, behind, ?_, ?_, .bare hblanks⟩
    · rw [← hcs, List.append_assoc, List.cons_append]
    · rw [hlength, run, hpart, List.length_append, List.length_cons]
      omega
  split at h
  case isFalse => split at h <;> cases h
  next hquote =>
  split at h
  case h_2 => split at h <;> cases h
  next l more =>
  split at h
  case isFalse => split at h <;> cases h
  next hl =>
  split at h
  case isFalse => cases h
  next hclose =>
  cases h
  have hlabel := isLabel_cons_takeWhile hl more
  obtain ⟨part, behind, hpart, hbehind, rfl⟩ := hpart more
  rw [hbehind, beq_iff_eq, List.head?_eq_some_iff] at hclose
  obtain ⟨behind, rfl⟩ := hclose
  rw [hpart] at hlabel ⊢
  have hquote' : c = '"' ∨ c = '\'' := by simpa using hquote
  refine ⟨hlabel, _, behind, ?_, ?_, .quoted hblanks hquote'⟩
  · rw [← hcs]
    simp only [List.append_assoc, List.cons_append, List.nil_append]
  · rw [hlength, run, hpart]
    simp only [List.length_append, List.length_cons, List.length_nil]
    omega

/-- What is read as a heredoc begins with three angle brackets. -/
theorem munch_eq_heredoc {c : Char} {cs label : List Char} {n : Nat}
    (h : munch c cs = .heredoc label n) :
    ∃ rest k, c = '<' ∧ cs = '<' :: '<' :: rest ∧ heredocOpening rest = .opens label k ∧
      n = 2 + k := by
  have hangle : c = '<' ∧ munchAngle cs = .heredoc label n := by
    unfold munch at h
    split at h
    · unfold munchWord at h
      dsimp only at h
      repeat' split at h
      all_goals cases h
    split at h
    · cases h
    split at h
    case h_15 => exact ⟨rfl, h⟩
    case h_14 =>
      unfold munchSlash at h
      dsimp only at h
      repeat' split at h
      all_goals cases h
    all_goals
      (try dsimp only at h)
      repeat' split at h
      all_goals cases h
  obtain ⟨rfl, hangle⟩ := hangle
  unfold munchAngle at hangle
  dsimp only at hangle
  split at hangle
  · next rest =>
    split at hangle
    · split at hangle
      · next k hopens =>
        cases hangle
        exact ⟨rest, k, rfl, rfl, hopens, rfl⟩
      · cases hangle
      · cases hangle
    · cases hangle
  · cases hangle

/-- **A heredoc opens** in front of a text: the longest token there is the opening, and it is read
with the label. -/
def Opens (label opening rest : List Char) : Prop :=
  ∃ c cs, opening = c :: cs ∧ munch c (cs ++ rest) = .heredoc label cs.length

/-- **The opening that is read** carries the label that is written in it. -/
theorem Opens.isOpening {label opening rest : List Char} (h : Opens label opening rest) :
    IsLabel label ∧ IsOpening label opening := by
  obtain ⟨c, cs, rfl, hmunch⟩ := h
  obtain ⟨behind, k, rfl, hcs, hopens, hk⟩ := munch_eq_heredoc hmunch
  obtain ⟨hlabel, opening, more, rfl, rfl, hopening⟩ := heredocOpening_cases hopens
  have hlength : cs.length = ('<' :: '<' :: opening).length := by
    rw [hk, List.length_cons, List.length_cons]
    omega
  obtain rfl : cs = '<' :: '<' :: opening := (List.append_inj hcs hlength).1
  exact ⟨hlabel, hopening⟩

end PhpHandbook.Source
