import PhpHandbook.Proofs.TypePrinting

/-!
# Texts that are written behind another one

A text that stands apart changes nothing about the lexemes of a text in front of it, if that one
ends with a lexeme: not in a gap, and not in what is waiting for its end, as a quoted text without
its last quote is.  The text of a type does not end in a gap, so what is printed behind a type can
be read without the type.

## Main definitions

* `EndsTightly`: a text that does not end in a gap.

## Main statements

* `munch_append`: what is munched does not depend on a text that stands apart.
* `lexemes_append`: the lexemes of two texts that are written one behind the other.
* `TypeExpr.endsTightly_text`: no printed type ends in a gap.
-/

namespace PhpHandbook.DocBlock

open Source (isNameStart isNamePart)
open Text (run)

/-! ### What is munched -/

theorem extendsWord_of_isGap {c : Char} (hc : isGap c = true) : extendsWord c = false := by
  simp only [isGap, Bool.or_eq_true, beq_iff_eq] at hc
  rcases hc with ((rfl | rfl) | rfl) | rfl <;> rfl

theorem ne_colon_of_isGap {c : Char} (hc : isGap c = true) : [c].head? ≠ some ':' := by
  rintro hcolon
  obtain rfl := Option.some.inj hcolon
  cases hc

section Munching

variable {c : Char} {cs rest : List Char}

theorem unsigned?_append (hrest : Apart rest) (body : List Char) :
    unsigned? (body ++ rest) = unsigned? body := by
  rw [unsigned?, unsigned?, integerLength_append hrest, decimalLength_append hrest]

theorem number?_append (hrest : Apart rest) (c : Char) (cs : List Char) :
    number? c (cs ++ rest) = number? c cs := by
  by_cases hc : c = '-'
  · subst hc
    rw [number?_minus, number?_minus, unsigned?_append hrest]
  · have happend := unsigned?_append hrest (c :: cs)
    rw [List.cons_append] at happend
    rw [number?_of_ne hc, number?_of_ne hc, happend]

/-- What is not the beginning of a word, a number or a quoted text is a mark. -/
theorem munch_mark {c : Char} (hdollar : c ≠ '$') (hname : isNameStart c = false)
    (hroot : c ≠ '\\') (hquote : ¬(c = '\'' ∨ c = '"')) (hnumber : startsNumber c = false)
    (cs : List Char) :
    munch c cs = if c = ':' ∧ cs.head? = some ':' then (.doubleColon, 1)
      else ((markKind? c).getD .other, 0) := by
  have hpoint : c ≠ '.' := by
    rintro rfl
    cases hnumber
  rw [startsNumber] at hnumber
  simp only [munch.eq_def, hdollar, hname, hroot, hquote, hpoint, hnumber, beq_iff_eq,
    Bool.or_eq_true, Bool.and_eq_true, false_and, Bool.false_eq_true, if_false]

theorem munch_points {cs : List Char} (hcs : cs.take 2 = ['.', '.']) :
    munch '.' cs = (.ellipsis, 2) := by
  have hname : isNameStart '.' = false := rfl
  simp [munch.eq_def, hname, hcs]

theorem take_points_append (hrest : Apart rest) (cs : List Char) :
    (cs ++ rest).take 2 = ['.', '.'] ↔ cs.take 2 = ['.', '.'] := by
  have hpoint : rest.head? ≠ some '.' := fun hhead => absurd (hrest '.' hhead) (by decide)
  match cs, rest with
  | [], [] => rfl
  | [], d :: ds => simp_all
  | [c], [] => rfl
  | [c], d :: ds => simp_all
  | c :: d :: ds, rest => rfl

/-- A sign of a variable or of the root, with nothing behind it, is a lexeme of its own. -/
theorem munch_nil_append (hc : c = '$' ∨ c = '\\') (hrest : Apart rest) :
    munch c ([] ++ rest) = munch c [] := by
  match rest, hrest with
  | [], _ => rfl
  | d :: ds, hrest =>
    have hd : isNameStart d = false := by
      have hextends := extendsWord_of_isNamePart d
      rw [hrest d rfl, isNamePart] at hextends
      by_contra hd
      simp [hd] at hextends
    have hroot : isNameStart '\\' = false := rfl
    rcases hc with rfl | rfl
    · simp [munch.eq_def, hd]
    · simp [munch.eq_def, hd, hroot]

/-- **What is munched** is part of the text, and does not depend on a text behind it that stands
apart. -/
theorem munch_append (c : Char) (cs : List Char) (hrest : Apart rest)
    (hcolon : rest.head? ≠ some ':')
    (hquoted : c = '\'' ∨ c = '"' → (munch c cs).1 ≠ .other) :
    (munch c cs).2 ≤ cs.length ∧ munch c (cs ++ rest) = munch c cs := by
  by_cases hdollar : c = '$'
  · subst hdollar
    cases cs with
    | nil => exact ⟨Nat.le_refl 0, munch_nil_append (.inl rfl) hrest⟩
    | cons d ds =>
      by_cases hd : isNameStart d = true
      · have hle := run_le isNamePart ds
        rw [List.cons_append, munch_variable hd, munch_variable hd,
          run_append (hrest.head extendsWord_of_isNamePart), List.take_append_of_le_length hle]
        exact ⟨Nat.succ_le_succ hle, rfl⟩
      · simp [munch, hd]
  by_cases hname : isNameStart c = true
  · rw [munch_name hname, munch_name hname, identifierTail_append hrest]
    exact ⟨identifierTail_le cs, rfl⟩
  rw [Bool.not_eq_true] at hname
  by_cases hroot : c = '\\'
  · subst hroot
    cases cs with
    | nil => exact ⟨Nat.le_refl 0, munch_nil_append (.inr rfl) hrest⟩
    | cons d ds =>
      by_cases hd : isNameStart d = true
      · have hle := identifierTail_le ds
        rw [List.cons_append, munch_rooted hd, munch_rooted hd, identifierTail_append hrest]
        exact ⟨by rw [List.length_cons]; omega, rfl⟩
      · simp [munch, hd, hname]
  by_cases hquote : c = '\'' ∨ c = '"'
  · have hkind := hquoted hquote
    rw [munch_quote hquote] at hkind
    rw [munch_quote hquote, munch_quote hquote]
    cases hclosed : quotedTail c 0 cs with
    | mk n closed =>
      cases closed with
      | false => exact absurd (by rw [hclosed]; rfl) hkind
      | true =>
        obtain ⟨m, hm, hle, -⟩ := quotedTail_take hclosed
        rw [quotedTail_append hclosed]
        exact ⟨by show n ≤ _; omega, rfl⟩
  by_cases hnumber : startsNumber c = true
  · by_cases hpoints : c = '.' ∧ cs.take 2 = ['.', '.']
    · obtain ⟨rfl, hpoints⟩ := hpoints
      have hle : 2 ≤ cs.length := by
        have hlength := congrArg List.length hpoints
        rw [List.length_take, List.length_cons, List.length_singleton] at hlength
        omega
      rw [munch_points hpoints, munch_points (by rwa [List.take_append_of_le_length hle])]
      exact ⟨hle, rfl⟩
    · have hpoints' : ¬(c = '.' ∧ (cs ++ rest).take 2 = ['.', '.']) := by
        rwa [take_points_append hrest]
      rw [munch_number hnumber (by simpa using hpoints),
        munch_number hnumber (by simpa using hpoints'), number?_append hrest]
      cases hfound : number? c cs with
      | none => exact ⟨Nat.zero_le _, rfl⟩
      | some found => exact ⟨(number?_spec hfound).1, rfl⟩
  rw [Bool.not_eq_true] at hnumber
  rw [munch_mark hdollar hname hroot hquote hnumber, munch_mark hdollar hname hroot hquote hnumber]
  cases cs with
  | nil => simp [hcolon]
  | cons d ds =>
    rw [List.cons_append, List.head?_cons, List.head?_cons]
    split
    · exact ⟨by simp, rfl⟩
    · exact ⟨by simp, rfl⟩

theorem number?_isWritten {c : Char} {cs : List Char} {found : LexemeKind × Nat}
    (h : number? c cs = some found) : found.1.isWritten = true := by
  unfold number? at h
  simp only at h
  split_ifs at h <;> cases h <;> rfl

/-- Only a closing parenthesis is munched as one. -/
theorem munch_eq_parenClose {c : Char} {cs : List Char} {n : Nat}
    (h : munch c cs = (.parenClose, n)) :
    c = ')' ∧ n = 0 := by
  unfold munch at h
  split_ifs at h with hdollar hname hroot hquote hcolon hpoints hnumber
  · split at h
    · split_ifs at h
      · obtain ⟨h, -⟩ := Prod.mk.inj h
        split_ifs at h
      · cases h
    · cases h
  · cases h
  · split at h
    · split_ifs at h <;> cases h
    · cases h
  · simp only at h
    split at h <;> cases h
  · cases h
  · cases h
  · cases hfound : number? c cs with
    | none => simp [hfound] at h
    | some found =>
      have hwritten := number?_isWritten hfound
      rw [hfound] at h
      obtain rfl : found = _ := h
      cases hwritten
  · obtain ⟨hmark, rfl⟩ := Prod.mk.inj h
    refine ⟨?_, rfl⟩
    unfold markKind? at hmark
    split at hmark <;> first
      | rfl
      | cases hmark
end Munching

/-! ### Lexemes of adjoined texts -/

/-- **A text that does not end in a gap**, nor is empty. -/
def EndsTightly (cs : List Char) : Prop :=
  ∃ before c, cs = before ++ [c] ∧ isGap c = false

theorem EndsTightly.append_left {cs : List Char} (h : EndsTightly cs) (before : List Char) :
    EndsTightly (before ++ cs) := by
  obtain ⟨before', c, rfl, hc⟩ := h
  exact ⟨before ++ before', c, (List.append_assoc _ _ _).symm, hc⟩

/-- What is left of such a text behind a part of it is such a text, or empty. -/
theorem EndsTightly.drop {cs : List Char} (h : EndsTightly cs) {n : Nat} (hn : n < cs.length) :
    EndsTightly (cs.drop n) := by
  obtain ⟨before, c, rfl, hc⟩ := h
  rw [List.length_append, List.length_singleton] at hn
  exact ⟨before.drop n, c, List.drop_append_of_le_length (Nat.le_of_lt_succ hn), hc⟩

/-- Behind a gap at the front there is more. -/
theorem EndsTightly.length_tail {c : Char} {cs : List Char} (h : EndsTightly (c :: cs))
    (hc : isGap c = true) : 1 < (c :: cs).length := by
  obtain ⟨before, d, hcons, hd⟩ := h
  cases before with
  | nil =>
    rw [(List.cons.inj hcons).1, hd] at hc
    cases hc
  | cons e before => simp [(List.cons.inj hcons).2]

/-- A name or a number does not end in a gap. -/
theorem IsLexeme.endsTightly {kind : LexemeKind} {cs : List Char} (h : IsLexeme kind cs)
    (hkind : kind ≠ .other) (hquoted : kind ≠ .quoted) : EndsTightly cs := by
  obtain ⟨c, ds, rfl, hc, hmunch⟩ := h
  rw [List.append_nil] at hmunch
  rcases List.eq_nil_or_concat ds with rfl | ⟨es, e, rfl⟩
  · exact ⟨[], c, rfl, hc⟩
  rw [List.concat_eq_append] at hmunch ⊢
  refine ⟨c :: es, e, rfl, ?_⟩
  by_contra hgap
  rw [Bool.not_eq_false] at hgap
  have hopen : ¬(c = '\'' ∨ c = '"') := by
    intro hquote
    rw [munch_quote hquote] at hmunch
    obtain ⟨rfl, -⟩ := Prod.mk.inj hmunch
    split_ifs at hkind hquoted
    · exact hquoted rfl
    · exact hkind rfl
  -- the gap stands apart, so what is in front of it is munched without it
  obtain ⟨hle, hagain⟩ := munch_append c es (apart_cons (extendsWord_of_isGap hgap) [])
    (ne_colon_of_isGap hgap) fun hquote => absurd hquote hopen
  rw [hagain] at hmunch
  rw [hmunch, List.length_append] at hle
  exact absurd hle (Nat.not_succ_le_self _)

theorem lexemesFrom_append_of {gap text rest : List Char} (hrest : Apart rest)
    (hcolon : rest.head? ≠ some ':') (htext : EndsTightly text ∨ text = [] ∧ gap = [])
    (hknown : ∀ l ∈ lexemesFrom gap text, l.kind ≠ .other) :
    lexemesFrom gap (text ++ rest) = lexemesFrom gap text ++ lexemesFrom [] rest := by
  induction gap, text using lexemesFrom.induct with
  | case1 gap =>
    obtain ⟨before, c, hnil, -⟩ | ⟨-, rfl⟩ := htext
    · simp at hnil
    · rw [lexemesFrom, List.nil_append, List.nil_append]
  | case2 gap c cs hc ih =>
    have htight := htext.resolve_right fun h => List.cons_ne_nil _ _ h.1
    have hcs := htight.length_tail hc
    rw [lexemesFrom, if_pos hc] at hknown
    rw [List.cons_append, lexemesFrom, if_pos hc, lexemesFrom, if_pos hc]
    exact ih (.inl (htight.drop hcs)) hknown
  | case3 gap c cs hc kind n hmunch ih =>
    have htight := htext.resolve_right fun h => List.cons_ne_nil _ _ h.1
    rw [lexemesFrom, if_neg hc, hmunch] at hknown
    have hkind : kind ≠ .other := hknown _ List.mem_cons_self
    obtain ⟨hle, hagain⟩ := munch_append c cs hrest hcolon fun _ => by rwa [hmunch]
    rw [hmunch] at hle hagain
    have htail := ih ?_ fun l hl => hknown l (List.mem_cons_of_mem _ hl)
    · rw [List.cons_append, lexemesFrom, if_neg hc, hagain, lexemesFrom, if_neg hc, hmunch]
      simp only [List.cons_append]
      rw [List.take_append_of_le_length hle, List.drop_append_of_le_length hle, htail]
    · by_cases hn : n < cs.length
      · exact .inl (htight.drop (n := n + 1) (Nat.succ_lt_succ hn))
      · exact .inr ⟨List.drop_eq_nil_of_le (Nat.le_of_not_lt hn), rfl⟩

/-- **The lexemes of two texts** that are written one behind the other. -/
theorem lexemes_append {text rest : List Char} (hrest : Apart rest)
    (hcolon : rest.head? ≠ some ':') (htext : EndsTightly text)
    (hknown : ∀ l ∈ lexemes text, l.kind ≠ .other) :
    lexemes (text ++ rest) = lexemes text ++ lexemes rest :=
  lexemesFrom_append_of hrest hcolon (.inl htext) hknown

/-- A mark of one character in front of a text. -/
theorem lexemes_mark {c : Char} {kind : LexemeKind} {rest : List Char} (hc : isGap c = false)
    (hmunch : munch c rest = (kind, 0)) :
    lexemes (c :: rest) = ⟨[], kind, [c]⟩ :: lexemes rest := by
  rw [lexemes, lexemesFrom, hc, hmunch]
  rfl

/-- A word in front of a text that stands apart. -/
theorem lexemes_word {kind : LexemeKind} {word : String} {rest : List Char}
    (hword : IsLexeme kind word.toList) (hkind : kind.isWritten = true) (hrest : Apart rest) :
    lexemes (word.toList ++ rest) = .ofWord [] word :: lexemes rest := by
  have hof := wordKind_of_isLexeme hword
  obtain ⟨c, cs, hcs, hc, hmunch⟩ := hword.munches hkind (.inr hrest)
  rw [Lexeme.ofWord, hof, hcs, List.cons_append, lexemes, lexemesFrom, hc, hmunch]
  simp only [Bool.false_eq_true, if_false, List.take_left, List.drop_left, lexemes]

/-- **The last lexeme** ends where the text ends. -/
theorem exists_last_lexeme (gap : List Char) {text : List Char} (h : EndsTightly text) :
    ∃ (ls : List Lexeme) (l : Lexeme),
      lexemesFrom gap text = ls ++ [l] ∧ l.chars.getLast? = text.getLast? := by
  induction gap, text using lexemesFrom.induct with
  | case1 gap =>
    obtain ⟨before, c, hnil, -⟩ := h
    simp at hnil
  | case2 gap c cs hc ih =>
    have hcs := h.length_tail hc
    obtain ⟨ls, l, hls, hl⟩ := ih (h.drop (n := 1) hcs)
    rw [lexemesFrom, if_pos hc]
    refine ⟨ls, l, hls, hl.trans ?_⟩
    cases cs with
    | nil => simp at hcs
    | cons d ds => simp
  | case3 gap c cs hc kind n hmunch ih =>
    rw [lexemesFrom, if_neg hc, hmunch]
    by_cases hn : n < cs.length
    · obtain ⟨ls, l, hls, hl⟩ := ih (h.drop (n := n + 1) (Nat.succ_lt_succ hn))
      refine ⟨⟨gap, kind, c :: cs.take n⟩ :: ls, l,
        by simp only [hls, List.cons_append], hl.trans ?_⟩
      rw [List.getLast?_drop, if_neg (Nat.not_le.2 hn), List.getLast?_cons]
      cases hlast : cs.getLast? with
      | none => simp [List.getLast?_eq_none_iff.1 hlast] at hn
      | some d => rfl
    · have hle := Nat.le_of_not_lt hn
      refine ⟨[], ⟨gap, kind, c :: cs.take n⟩, ?_, ?_⟩
      · simp only [List.drop_eq_nil_of_le hle, lexemesFrom, List.nil_append]
      · rw [List.take_of_length_le hle]

/-! ### How printed types end -/

theorem endsTightly_append (before : String) {text : String} (h : EndsTightly text.toList) :
    EndsTightly (before ++ text).toList := by
  rw [String.toList_append]
  exact h.append_left _

theorem endsTightly_intercalate (between : List Char) {texts : List (List Char)}
    (hne : texts ≠ []) (h : ∀ text ∈ texts, EndsTightly text) :
    EndsTightly (between.intercalate texts) := by
  induction texts with
  | nil => exact absurd rfl hne
  | cons text texts ih =>
    cases texts with
    | nil => simpa using h text List.mem_cons_self
    | cons next texts =>
      rw [List.intercalate_cons_cons]
      exact (ih (List.cons_ne_nil _ _) fun u hu => h u (List.mem_cons_of_mem _ hu)).append_left _

theorem Literal.endsTightly_text {value : Literal} (h : value.Spelled) :
    EndsTightly value.text.toList := by
  cases value with
  | integer text => exact IsLexeme.endsTightly h nofun nofun
  | decimal text => exact IsLexeme.endsTightly h nofun nofun
  | string text => exact endsTightly_append _ ⟨[], '\'', rfl, rfl⟩
  | classConstant className name =>
    refine endsTightly_append _ ?_
    obtain rfl | ⟨word, hword, rfl | rfl⟩ := h.2
    · exact ⟨[], '*', rfl, rfl⟩
    · exact IsLexeme.endsTightly hword nofun nofun
    · exact endsTightly_append _ ⟨[], '*', rfl, rfl⟩

namespace TypeExpr

theorem endsTightly_parenthesize {text : String} (h : EndsTightly text.toList) (wrap : Bool) :
    EndsTightly (parenthesize wrap text).toList := by
  cases wrap with
  | false => exact h
  | true => exact endsTightly_append _ ⟨[], ')', rfl, rfl⟩

theorem endsTightly_operands {between : String} {members : List TypeExpr}
    (hlength : 2 ≤ members.length) (h : ∀ t ∈ members, EndsTightly t.text.toList) :
    EndsTightly (between.intercalate (operands members)).toList := by
  rw [String.toList_intercalate, operands_eq_map, List.map_map]
  refine endsTightly_intercalate _ ?_ (List.forall_mem_map.2 fun t ht => ?_)
  · rintro hnil
    rw [List.map_eq_nil_iff] at hnil
    simp [hnil] at hlength
  · exact endsTightly_parenthesize (h t ht) _

/-- **No printed type ends in a gap.** -/
theorem endsTightly_text {t : TypeExpr} (h : t.WellSpelled) : EndsTightly t.text.toList := by
  induction h with
  | @intro t here within ih =>
    cases t with
    | identifier name => exact IsLexeme.endsTightly here nofun nofun
    | generic base args => exact endsTightly_append _ ⟨[], '>', rfl, rfl⟩
    | union members => exact endsTightly_operands here ih
    | intersection members => exact endsTightly_operands here ih
    | nullable inner =>
      exact endsTightly_append _ (endsTightly_parenthesize (ih inner (List.mem_singleton_self _)) _)
    | array inner => exact endsTightly_append _ ⟨['['], ']', rfl, rfl⟩
    | offset base key => exact endsTightly_append _ ⟨[], ']', rfl, rfl⟩
    | arrayShape kind items isSealed => exact endsTightly_append _ ⟨[], '}', rfl, rfl⟩
    | objectShape items => exact endsTightly_append _ ⟨[], '}', rfl, rfl⟩
    | literal value => exact Literal.endsTightly_text here
    | this => exact ⟨['$', 't', 'h', 'i'], 's', by decide, rfl⟩
    | conditional subject negated target yes no =>
      exact endsTightly_append _ ⟨[], ')', rfl, rfl⟩
    | callable name params returns =>
      have hreturns := ih returns (List.mem_append_right _ (List.mem_singleton_self _))
      exact endsTightly_append _ (endsTightly_parenthesize hreturns _)

end TypeExpr

end PhpHandbook.DocBlock
