import PhpHandbook.Proofs.LexemeLengths

/-!
# Lexemes that are read back

The lexemes of a text that are written out again, one behind the other, are read back as they were
if none of them can go on into the next: a word or a number needs a character behind it that belongs
to neither, and all other lexemes end by themselves.

## Main definitions

* `IsLexeme`: a text that is one lexeme of a given kind.
* `spell`: the text of a list of lexemes.
* `Fits`: each lexeme of a list ends where the next one begins.

## Main statements

* `munch_take_append`: what is munched is munched again in front of a text that stands apart.
* `isLexeme_of_mem_lexemesFrom`: the words, numbers and quoted texts of a text are lexemes by
  themselves.
* `lexemes_spell`: lexemes that fit are read back.
-/

namespace PhpHandbook.DocBlock

open Source (isNameStart isNamePart isDigitPart)
open Text (run)

/-! ### Lexemes -/

/-- The kinds of lexemes that are written in many ways. -/
def LexemeKind.isWritten : LexemeKind → Bool
  | .this | .variableName | .identifier | .integer | .decimal | .quoted => true
  | _ => false

theorem munch_variable {d : Char} (hd : isNameStart d = true) (ds : List Char) :
    munch '$' (d :: ds)
      = (if d :: ds.take (run isNamePart ds) == "this".toList then .this else .variableName,
        run isNamePart ds + 1) := by
  simp [munch, hd]

theorem munch_name {c : Char} (hc : isNameStart c = true) (cs : List Char) :
    munch c cs = (.identifier, identifierTail cs) := by
  have hdollar : c ≠ '$' := by
    rintro rfl
    cases hc
  simp [munch.eq_def, hdollar, hc]

theorem munch_rooted {d : Char} (hd : isNameStart d = true) (ds : List Char) :
    munch '\\' (d :: ds) = (.identifier, 1 + identifierTail ds) := by
  have hroot : isNameStart '\\' = false := rfl
  simp [munch, hd, hroot]

theorem munch_quote {c : Char} (hc : c = '\'' ∨ c = '"') (cs : List Char) :
    munch c cs = (if (quotedTail c 0 cs).2 then .quoted else .other, (quotedTail c 0 cs).1) := by
  rcases hc with rfl | rfl
  · rw [munch.eq_def]
    rfl
  · rw [munch.eq_def]
    rfl

/-- The characters that a number begins with. -/
def startsNumber (c : Char) : Bool :=
  c.isDigit || c == '-' || c == '.'

theorem isNameStart_of_isDigit {c : Char} (hc : c.isDigit = true) : isNameStart c = false := by
  simp only [Char.isDigit, ge_iff_le, Bool.and_eq_true, decide_eq_true_eq,
    UInt32.le_iff_toNat_le] at hc
  have hcode : c.toNat = c.val.toNat := rfl
  have hnine : '9'.val.toNat = 57 := rfl
  have hupper : ¬ 'A'.val ≤ c.val := by
    have hcapital : 'A'.val.toNat = 65 := rfl
    rw [UInt32.le_iff_toNat_le]
    omega
  have hlower : ¬ 'a'.val ≤ c.val := by
    have hsmall : 'a'.val.toNat = 97 := rfl
    rw [UInt32.le_iff_toNat_le]
    omega
  have halpha : c.isAlpha = false := by
    have hnot : c.isLower = false := Bool.and_eq_false_iff.2 (.inl (decide_eq_false hlower))
    exact Bool.or_eq_false_iff.2 ⟨decide_eq_false fun h => hupper h.1, hnot⟩
  have hunderscore : c ≠ '_' := by
    rintro rfl
    exact absurd hc.2 (by decide)
  simp only [isNameStart, halpha, Bool.or_eq_false_iff, decide_eq_false_iff_not,
    beq_eq_false_iff_ne]
  refine ⟨⟨trivial, hunderscore⟩, ?_⟩
  omega

theorem munch_number {c : Char} {cs : List Char} (hc : startsNumber c = true)
    (hdots : (c == '.' && cs.take 2 == ['.', '.']) = false) :
    munch c cs = (number? c cs).getD (.other, 0) := by
  have hname : isNameStart c = false := by
    simp only [startsNumber, Bool.or_eq_true, beq_iff_eq] at hc
    rcases hc with (hc | rfl) | rfl
    · exact isNameStart_of_isDigit hc
    · rfl
    · rfl
  have hne : ∀ {d : Char}, startsNumber d = false → c ≠ d := by
    rintro d hd rfl
    rw [hd] at hc
    cases hc
  rw [munch.eq_def]
  simp only [hne (d := '$') rfl, hne (d := '\\') rfl, hne (d := '\'') rfl, hne (d := '"') rfl,
    hne (d := ':') rfl, hname, hdots, beq_iff_eq, Bool.or_eq_true, Bool.and_eq_true, false_and,
    or_self, if_false, Bool.false_eq_true]
  rw [if_pos]
  simpa [startsNumber] using hc

theorem number?_ne_quoted {c : Char} {cs : List Char} {kind : LexemeKind} {n : Nat}
    (h : number? c cs = some (kind, n)) : kind ≠ .quoted := by
  unfold number? at h
  simp only at h
  split_ifs at h <;> cases h <;> simp

/-- Two points are not the beginning of a number. -/
theorem number?_points (cs : List Char) : number? '.' ('.' :: cs) = none :=
  rfl

/-- **How words, numbers and quoted texts begin.** -/
theorem munch_cases {c : Char} {cs : List Char} (h : (munch c cs).1.isWritten = true) :
    (∃ d ds, c = '$' ∧ cs = d :: ds ∧ isNameStart d = true) ∨
      isNameStart c = true ∨
      (∃ d ds, c = '\\' ∧ cs = d :: ds ∧ isNameStart d = true) ∨
      ((c = '\'' ∨ c = '"') ∧ ∃ n, quotedTail c 0 cs = (n, true)) ∨
      (startsNumber c = true ∧
        ∃ kind n, number? c cs = some (kind, n) ∧ munch c cs = (kind, n)) := by
  by_cases hdollar : c = '$'
  · subst hdollar
    cases cs with
    | nil => cases h
    | cons d ds =>
      by_cases hd : isNameStart d = true
      · exact .inl ⟨d, ds, rfl, rfl, hd⟩
      · simp [munch, hd, LexemeKind.isWritten] at h
  by_cases hname : isNameStart c = true
  · exact .inr (.inl hname)
  by_cases hroot : c = '\\'
  · subst hroot
    cases cs with
    | nil => cases h
    | cons d ds =>
      by_cases hd : isNameStart d = true
      · exact .inr (.inr (.inl ⟨d, ds, rfl, rfl, hd⟩))
      · simp [munch, hd, hname, LexemeKind.isWritten] at h
  by_cases hquote : c = '\'' ∨ c = '"'
  · rw [munch_quote hquote] at h
    cases hclosed : quotedTail c 0 cs with
    | mk n closed =>
      cases closed with
      | false => simp [hclosed, LexemeKind.isWritten] at h
      | true => exact .inr (.inr (.inr (.inl ⟨hquote, n, rfl⟩)))
  by_cases hnumber : startsNumber c = true
  · by_cases hdots : (c == '.' && cs.take 2 == ['.', '.']) = true
    · simp only [Bool.and_eq_true, beq_iff_eq] at hdots
      obtain ⟨rfl, htake⟩ := hdots
      simp [munch.eq_def, hname, htake, LexemeKind.isWritten] at h
    · have hmunch := munch_number hnumber (by simpa using hdots)
      rw [hmunch] at h
      cases hfound : number? c cs with
      | none => simp [hfound, LexemeKind.isWritten] at h
      | some found =>
        rw [hfound] at hmunch
        exact .inr (.inr (.inr (.inr ⟨hnumber, found.1, found.2, rfl, hmunch⟩)))
  · have hmark : ((markKind? c).getD .other).isWritten = false := by
      unfold markKind?
      split <;> rfl
    have hpoint : c ≠ '.' := by
      rintro rfl
      exact hnumber rfl
    rw [not_or] at hquote
    rw [startsNumber] at hnumber
    simp only [munch.eq_def, hdollar, hname, hroot, hquote, hpoint, beq_iff_eq, or_self, false_and,
      Bool.or_eq_true, Bool.and_eq_true, if_false, Bool.false_eq_true] at h
    split_ifs at h with hcolon hdigit
    · cases h
    · exact absurd (by simpa [hpoint] using hdigit) hnumber
    · rw [hmark] at h
      cases h

/-- **What is munched is munched again** in front of a text that stands apart; a quoted text, in
front of any text. -/
theorem munch_take_append {c : Char} {cs : List Char} {kind : LexemeKind} {n : Nat}
    (hmunch : munch c cs = (kind, n)) (hkind : kind.isWritten = true) :
    n ≤ cs.length ∧
      ∀ rest, kind = .quoted ∨ Apart rest → munch c (cs.take n ++ rest) = (kind, n) := by
  have hcases := munch_cases (by rw [hmunch]; exact hkind)
  rcases hcases with ⟨d, ds, rfl, rfl, hd⟩ | hc | ⟨d, ds, rfl, rfl, hd⟩ | ⟨hc, m, hm⟩ |
    ⟨hc, kind, m, hm, hmunch'⟩
  · rw [munch_variable hd] at hmunch
    have hle := run_le isNamePart ds
    obtain ⟨hthis, rfl⟩ := Prod.mk.inj hmunch
    refine ⟨by simpa using hle, fun rest h => ?_⟩
    have hne : kind ≠ .quoted := by
      rw [← hthis]
      split_ifs <;> simp
    have h : Apart rest := h.resolve_left hne
    have hlength : (ds.take (run isNamePart ds)).length = run isNamePart ds :=
      List.length_take_of_le hle
    rw [List.take_succ_cons, List.cons_append, munch_variable hd,
      run_append (h.head extendsWord_of_isNamePart), run_take, List.take_left' hlength, hthis]
  · rw [munch_name hc] at hmunch
    cases hmunch
    refine ⟨identifierTail_le cs, fun rest h => ?_⟩
    have h : Apart rest := h.resolve_left (by simp)
    rw [munch_name hc, identifierTail_append h, identifierTail_take]
  · rw [munch_rooted hd] at hmunch
    cases hmunch
    have hle := identifierTail_le ds
    refine ⟨by rw [List.length_cons]; omega, fun rest h => ?_⟩
    have h : Apart rest := h.resolve_left (by simp)
    rw [Nat.add_comm, List.take_succ_cons, List.cons_append, munch_rooted hd,
      identifierTail_append h, identifierTail_take, Nat.add_comm]
  · rw [munch_quote hc, hm] at hmunch
    cases hmunch
    obtain ⟨m', hm', hle, htake⟩ := quotedTail_take hm
    obtain rfl : m = m' := by omega
    refine ⟨hle, fun rest _ => ?_⟩
    rw [munch_quote hc, quotedTail_append htake]
  · cases hmunch'.symm.trans hmunch
    obtain ⟨hle, hagain⟩ := number?_spec hm
    refine ⟨hle, fun rest h => ?_⟩
    have hnumber : kind ≠ .quoted := number?_ne_quoted hm
    have hfound := hagain rest (h.resolve_left hnumber)
    have hdots : (c == '.' && (cs.take n ++ rest).take 2 == ['.', '.']) = false := by
      by_contra hdots
      simp only [Bool.not_eq_false, Bool.and_eq_true, beq_iff_eq] at hdots
      obtain ⟨rfl, htake⟩ := hdots
      cases hagain' : cs.take n ++ rest with
      | nil => simp [hagain'] at htake
      | cons d ds =>
        rw [hagain', List.take_succ_cons] at htake
        rw [hagain', (List.cons.inj htake).1, number?_points] at hfound
        cases hfound
    rw [munch_number hc hdots, hfound]
    rfl

/-- A text is **one lexeme** of the given kind in front of another text. -/
def Munches (kind : LexemeKind) (cs rest : List Char) : Prop :=
  ∃ c ds, cs = c :: ds ∧ isGap c = false ∧ munch c (ds ++ rest) = (kind, ds.length)

/-- A text is **one lexeme** of the given kind by itself. -/
def IsLexeme (kind : LexemeKind) (cs : List Char) : Prop :=
  Munches kind cs []

theorem IsLexeme.munches {kind : LexemeKind} {cs rest : List Char} (h : IsLexeme kind cs)
    (hkind : kind.isWritten = true) (hrest : kind = .quoted ∨ Apart rest) :
    Munches kind cs rest := by
  obtain ⟨c, ds, rfl, hc, hmunch⟩ := h
  rw [List.append_nil] at hmunch
  have hagain := (munch_take_append hmunch hkind).2 rest hrest
  rw [List.take_length] at hagain
  exact ⟨c, ds, rfl, hc, hagain⟩

/-- **The words, numbers and quoted texts** of a text are lexemes by themselves. -/
theorem isLexeme_of_mem_lexemesFrom {gap text : List Char} {l : Lexeme}
    (hl : l ∈ lexemesFrom gap text) (hkind : l.kind.isWritten = true) :
    IsLexeme l.kind l.chars := by
  induction gap, text using lexemesFrom.induct with
  | case1 gap => simp [lexemesFrom] at hl
  | case2 gap c cs hc ih =>
    rw [lexemesFrom, if_pos hc] at hl
    exact ih hl
  | case3 gap c cs hc kind n hmunch ih =>
    rw [lexemesFrom, if_neg hc, hmunch] at hl
    rcases List.mem_cons.1 hl with rfl | hl
    · obtain ⟨hle, hagain⟩ := munch_take_append hmunch hkind
      refine ⟨c, cs.take n, rfl, by simpa using hc, ?_⟩
      rw [hagain [] (.inr apart_nil), List.length_take_of_le hle]
    · exact ih hl

/-! ### Spelling -/

/-- **The text** of a list of lexemes. -/
def spell (ls : List Lexeme) : List Char :=
  ls.flatMap fun l => l.gap ++ l.chars

@[simp]
theorem spell_nil : spell [] = [] :=
  rfl

@[simp]
theorem spell_cons (l : Lexeme) (ls : List Lexeme) :
    spell (l :: ls) = l.gap ++ l.chars ++ spell ls :=
  List.flatMap_cons

@[simp]
theorem spell_append (ls ms : List Lexeme) : spell (ls ++ ms) = spell ls ++ spell ms :=
  List.flatMap_append

/-- **Lexemes that fit**: each one ends where the text of the next ones begins. -/
def Fits : List Lexeme → Prop
  | [] => True
  | l :: ls => (∀ c ∈ l.gap, isGap c = true) ∧ Munches l.kind l.chars (spell ls) ∧ Fits ls

theorem lexemesFrom_gap {gap : List Char} (hgap : ∀ c ∈ gap, isGap c = true)
    (before text : List Char) :
    lexemesFrom before (gap ++ text) = lexemesFrom (before ++ gap) text := by
  induction gap generalizing before with
  | nil => simp
  | cons c gap ih =>
    have htail := ih (fun d hd => hgap d (List.mem_cons_of_mem c hd)) (before ++ [c])
    rw [List.cons_append, lexemesFrom, if_pos (hgap c List.mem_cons_self), htail, List.append_assoc]
    rfl

/-- **Lexemes that fit are read back.** -/
theorem lexemes_spell {ls : List Lexeme} (h : Fits ls) : lexemes (spell ls) = ls := by
  unfold lexemes
  induction ls with
  | nil => simp [lexemesFrom]
  | cons l ls ih =>
    obtain ⟨hgap, ⟨c, ds, hchars, hc, hmunch⟩, hrest⟩ := h
    rw [spell_cons, hchars, List.append_assoc, lexemesFrom_gap hgap, List.cons_append, lexemesFrom,
      hc, hmunch]
    simp only [Bool.false_eq_true, if_false, List.nil_append, List.take_left, List.drop_left]
    rw [ih hrest, ← hchars]

end PhpHandbook.DocBlock
