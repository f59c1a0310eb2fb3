import PhpHandbook.Proofs.BodyEdits
import PhpHandbook.Proofs.EqualsSigns

/-!
# Gaps behind equals signs

White space between an equals sign and the value behind it does not matter, as long as no operator
character follows the sign.  The tokens in front of the sign are the same whatever gap stands behind
it, and the tokens behind the gap are the same at another offset; so the items of both texts stand
side by side but for the equals sign, and where this gives a value to a name that the file declares,
both texts declare the same.

The longest token wins, so an equals sign with an operator character behind it is no sign of its
own.

## Main definitions

* `SourceFile.AssignsAt`: an equals sign that gives a value to a declared name.

## Main statements

* `walk_regapped`, `tokenize_regapped`: the tokens of both texts.
* `parse_of_gap_edited`: both texts declare the same.
* `parse_of_merged_sign`: without a gap, a sign behind the equals sign spoils the declaration.
-/

namespace PhpHandbook.Source

open Text (run)
open DocBlock (run_le)

/-! ### The walk -/

section Walk

variable {gap₁ gap₂ behind : List Char}

/-- A step of the walk that stops in front of the equals sign. -/
theorem walk_before {mode : Mode} {c : Char} (hc : ¬(mode = .php ∧ isGap c = true))
    (w b : List Char) {p : Piece} (hp : piece mode c (w ++ '=' :: b) = p)
    (hle : p.tail + p.skipped ≤ w.length) (offset : Nat) :
    walk mode offset (c :: w ++ '=' :: b) = (tokenAt p.kind offset (c :: w.take p.tail), p.fault) ::
      walk p.mode (offset + byteLength (c :: w.take (p.tail + p.skipped)))
        (w.drop (p.tail + p.skipped) ++ '=' :: b) := by
  have htail : p.tail ≤ w.length := by omega
  have hskipped : p.skipped ≤ (w.drop p.tail).length := by
    rw [List.length_drop]
    omega
  rw [List.cons_append, walk, if_neg hc, hp]
  dsimp only
  rw [drop_before w hle, drop_before w htail, List.take_append_of_le_length htail,
    List.take_append_of_le_length hskipped, Nat.add_assoc, ← byteLength_append, List.cons_append,
    ← List.take_add]
  rfl

/-- No step goes beyond the equals sign if the walk stops in front of it. -/
theorem le_of_mem_walk {mode : Mode} {c : Char} (hc : ¬(mode = .php ∧ isGap c = true))
    {w b : List Char} {offset : Nat} {item t : Token × Option LexFault}
    {items : List (Token × Option LexFault)}
    (h : walk mode offset (c :: w ++ '=' :: b) = item :: items) (ht : t ∈ items)
    (hstart : t.1.span.start = offset + byteLength (c :: w)) :
    (piece mode c (w ++ '=' :: b)).tail + (piece mode c (w ++ '=' :: b)).skipped ≤ w.length := by
  by_contra hlt
  rw [List.cons_append, walk, if_neg hc] at h
  obtain ⟨-, rfl⟩ := List.cons.inj h
  have hle := le_start_of_mem_walk ht
  rw [Nat.add_assoc, ← byteLength_append, List.cons_append, ← List.take_add, hstart] at hle
  have htake : (w ++ '=' :: b).take
      ((piece mode c (w ++ '=' :: b)).tail + (piece mode c (w ++ '=' :: b)).skipped)
      = w ++ ('=' :: b).take ((piece mode c (w ++ '=' :: b)).tail
        + (piece mode c (w ++ '=' :: b)).skipped - w.length) := by
    rw [List.take_append, List.take_of_length_le (by omega)]
  have hpos : 0 < byteLength (('=' :: b).take ((piece mode c (w ++ '=' :: b)).tail
      + (piece mode c (w ++ '=' :: b)).skipped - w.length)) := by
    refine byteLength_pos fun hnil => ?_
    rcases List.take_eq_nil_iff.1 hnil with hzero | hnil
    · omega
    · cases hnil
  rw [htake, byteLength, byteLength, byteLength_append] at hle
  omega

theorem operatorMark?_equals {word : List Char} (h : operatorMark? word = some (.mark .equals)) :
    word = ['='] := by
  unfold operatorMark? at h
  split at h
  case h_4 hword => exact String.ofList_injective hword
  all_goals cases h

theorem walk_equals {mode : Mode} {offset : Nat} {b : List Char} {t : Token × Option LexFault}
    {items : List (Token × Option LexFault)} (h : walk mode offset ('=' :: b) = t :: items)
    (hkind : t.1.kind = .mark .equals) :
    mode = .php ∧ t = (tokenAt (.mark .equals) offset ['='], none) ∧
      items = walk .php (offset + 1) b := by
  have hnot : ¬(mode = .php ∧ isGap '=' = true) := fun h => absurd h.2 (by decide)
  rw [walk, if_neg hnot] at h
  obtain ⟨rfl, rfl⟩ := List.cons.inj h
  have hkind : (piece mode '=' b).kind = .mark .equals := hkind
  cases mode with
  | html =>
    have hhtml := (piece_fits .html '=' b).html_iff.1 rfl
    rw [hkind] at hhtml
    exact absurd hhtml (by simp)
  | php =>
    have hmunch : munch '=' b = .token (operatorToken '=' b).1 (operatorToken '=' b).2 := rfl
    have hequals : (operatorToken '=' b).1 = .mark .equals := by
      have hpiece : (phpPiece '=' b).kind = (operatorToken '=' b).1 := by
        rw [phpPiece, hmunch]
        cases (operatorToken '=' b).1 <;> rfl
      exact hpiece.symm.trans hkind
    have hzero : (operatorToken '=' b).2 = 0 := by
      have hword : operatorMark? ('=' :: b.take (run isOperatorChar b)) = some (.mark .equals) := by
        have hget : (operatorMark? ('=' :: b.take (run isOperatorChar b))).getD .operator
          = .mark .equals := hequals
        cases hmark : operatorMark? ('=' :: b.take (run isOperatorChar b)) with
        | none => rw [hmark] at hget; cases hget
        | some kind => rw [hmark] at hget; exact congrArg some hget
      have hnil := (List.cons.inj (operatorMark?_equals hword)).2
      have hlength := congrArg List.length hnil
      rw [List.length_take_of_le (run_le _ _)] at hlength
      exact hlength
    rw [hequals, hzero] at hmunch
    have hpiece : piece .php '=' b = { kind := .mark .equals, tail := 0, mode := .php } :=
      phpPiece_of_munch hmunch (by decide)
    rw [hpiece]
    exact ⟨rfl, rfl, rfl⟩

/-- The first token of the walk, and no other, starts where the walk does. -/
theorem start_eq_iff_of_walk {mode : Mode} {offset : Nat} {c : Char} {cs : List Char}
    (hc : ¬(mode = .php ∧ isGap c = true)) {items items' : List (Token × Option LexFault)}
    {t : Token × Option LexFault} (h : walk mode offset (c :: cs) = items ++ t :: items') :
    t.1.span.start = offset ↔ items = [] := by
  rw [walk, if_neg hc] at h
  cases items with
  | nil =>
    obtain ⟨rfl, -⟩ := List.cons.inj h
    exact ⟨fun _ => rfl, fun _ => rfl⟩
  | cons item items =>
    obtain ⟨-, hrest⟩ := List.cons.inj h
    have ht : t ∈ items.append (t :: items') := List.mem_append_right items List.mem_cons_self
    rw [← hrest] at ht
    have hle := le_start_of_mem_walk ht
    have hpos := byteLength_pos (List.cons_ne_nil c (cs.take (piece mode c cs).tail))
    constructor
    · intro hstart
      omega
    · intro hnil
      cases hnil

theorem walk_equals_gap {gap : List Char} (hgap : ∀ c ∈ gap, isGap c = true)
    (hends : EndsOperator (gap ++ behind)) (offset : Nat) :
    walk .php offset ('=' :: (gap ++ behind)) = (tokenAt (.mark .equals) offset ['='], none) ::
      walk .php (offset + byteLength ('=' :: gap)) behind := by
  have hapart : ∀ d, (gap ++ behind).head? = some d →
      TokenKind.goesOn (.mark .equals) d = false := by
    intro d hd
    obtain ⟨e, es, hhead, he⟩ := hends
    rw [hhead] at hd
    cases hd
    exact he
  have hequals : Mark.equals.isShort = true := rfl
  refine (walk_scans (scans_mark hequals) hapart offset).trans ?_
  rw [walk_gap hgap, Nat.add_assoc, ← byteLength_append]
  rfl

/-- **The walk in front of an equals sign** does not depend on the gap behind it. -/
theorem walk_regapped (hgap₁ : ∀ c ∈ gap₁, isGap c = true)
    (hgap₂ : ∀ c ∈ gap₂, isGap c = true) (hends : EndsOperator (gap₂ ++ behind))
    {mode : Mode} {offset : Nat} (front : List Char)
    {items items' : List (Token × Option LexFault)} {t : Token × Option LexFault}
    (h : walk mode offset (front ++ '=' :: (gap₁ ++ behind)) = items ++ t :: items')
    (hkind : t.1.kind = .mark .equals) (hstart : t.1.span.start = offset + byteLength front) :
    items' = walk .php (offset + byteLength (front ++ '=' :: gap₁)) behind ∧
      walk mode offset (front ++ '=' :: (gap₂ ++ behind)) = items ++ t ::
        walk .php (offset + byteLength (front ++ '=' :: gap₂)) behind := by
  match front with
  | [] =>
    have hnot : ¬(mode = .php ∧ isGap '=' = true) := fun h => nomatch h.2
    obtain rfl := (start_eq_iff_of_walk hnot h).1 hstart
    obtain ⟨rfl, rfl, rfl⟩ := walk_equals h hkind
    refine ⟨?_, walk_equals_gap hgap₂ hends offset⟩
    rw [walk_gap hgap₁, Nat.add_assoc]
    rfl
  | c :: w =>
    by_cases hc : mode = .php ∧ isGap c = true
    · have hgap (b : List Char) :
          walk mode offset (c :: w ++ b) = walk mode (offset + c.utf8Size) (w ++ b) := by
        rw [List.cons_append, walk, if_pos hc]
      have hbytes (x : List Char) :
          offset + byteLength (c :: x) = offset + c.utf8Size + byteLength x := by
        rw [byteLength, Nat.add_assoc]
      rw [hgap] at h ⊢
      rw [hbytes] at hstart
      rw [List.cons_append, List.cons_append, hbytes, hbytes]
      exact walk_regapped hgap₁ hgap₂ hends w h hkind hstart
    · cases items with
      | nil =>
        have hpos := byteLength_pos (List.cons_ne_nil c w)
        have hfirst := (start_eq_iff_of_walk hc h).2 rfl
        omega
      | cons item items =>
        have hle := le_of_mem_walk hc h (List.mem_append_right items List.mem_cons_self) hstart
        have hpiece := piece_keeps w behind mode c hgap₁ hgap₂ hends (by omega)
        generalize hp : piece mode c (w ++ '=' :: (gap₁ ++ behind)) = p at hle hpiece
        rw [walk_before hc w _ hp hle] at h
        obtain ⟨rfl, hrest⟩ := List.cons.inj h
        have hsplit (x : List Char) : offset + byteLength (c :: w ++ x)
            = offset + byteLength (c :: w.take (p.tail + p.skipped))
              + byteLength (w.drop (p.tail + p.skipped) ++ x) := by
          rw [Nat.add_assoc, ← byteLength_append, List.cons_append, List.cons_append,
            ← List.append_assoc, List.take_append_drop]
        have hfront := hsplit []
        rw [List.append_nil, List.append_nil] at hfront
        rw [hfront] at hstart
        obtain ⟨hitems', hrec⟩ :=
          walk_regapped hgap₁ hgap₂ hends (w.drop (p.tail + p.skipped)) hrest
          hkind hstart
        rw [walk_before hc w _ hpiece hle, hrec, hsplit, hsplit]
        exact ⟨hitems', rfl⟩
termination_by front.length

/-- **The tokens of a text in front of an equals sign** do not depend on the gap behind it. -/
theorem tokenize_regapped (hgap₁ : ∀ c ∈ gap₁, isGap c = true)
    (hgap₂ : ∀ c ∈ gap₂, isGap c = true) (hends : EndsOperator (gap₂ ++ behind))
    {front : List Char} {before after : List Token} {t : Token}
    (h : (tokenize (front ++ '=' :: (gap₁ ++ behind))).tokens = before ++ t :: after)
    (hkind : t.kind = .mark .equals) (hstart : t.span.start = byteLength front) :
    after = (walk .php (byteLength (front ++ '=' :: gap₁)) behind).map (·.1) ∧
      (tokenize (front ++ '=' :: (gap₂ ++ behind))).tokens = before ++ t ::
        (walk .php (byteLength (front ++ '=' :: gap₂)) behind).map (·.1) := by
  obtain ⟨items, fault, items', hwalk, rfl, rfl⟩ := exists_walk_of_tokens h
  have hstart : t.span.start = 0 + byteLength front := by rw [hstart, Nat.zero_add]
  obtain ⟨rfl, hregapped⟩ := walk_regapped hgap₁ hgap₂ hends front hwalk hkind hstart
  rw [Nat.zero_add] at hregapped ⊢
  refine ⟨rfl, ?_⟩
  rw [tokenize, hregapped, List.map_append, List.map_cons]

end Walk

end PhpHandbook.Source

namespace PhpHandbook.Declaration

open Source (Span Token TokenKind byteLength tokenAt isGap tokenize)

/-- **The equals sign at an offset gives a value to a name** that the file declares: it stands
behind the name, with comments at most in between. -/
def SourceFile.AssignsAt (f : SourceFile) (text : List Char) (offset : Nat) : Prop :=
  ∃ before name comments equals after,
    (tokenize text).tokens = before ++ name :: (comments ++ equals :: after) ∧
    (name.kind = .name ∨ name.kind.isKeyword = true ∨ name.kind = .variableName) ∧
    (∃ i ∈ f.assigned, i.span = name.span) ∧ (∀ t ∈ comments, t.kind.isTrivia = true) ∧
    equals.kind = .mark .equals ∧ equals.span.start = offset

section Gaps

variable {front gap₁ gap₂ behind : List Char}

theorem exists_aligned_of_gap (hgap₁ : ∀ c ∈ gap₁, isGap c = true)
    (hgap₂ : ∀ c ∈ gap₂, isGap c = true) (hends : Source.EndsOperator (gap₂ ++ behind))
    {before comments after : List Token} {name equals : Token}
    (htokens : (tokenize (front ++ '=' :: (gap₁ ++ behind))).tokens
      = before ++ name :: (comments ++ equals :: after))
    (hname : name.kind = .name ∨ name.kind.isKeyword = true ∨ name.kind = .variableName)
    (hcomments : ∀ t ∈ comments, t.kind.isTrivia = true) (hequals : equals.kind = .mark .equals)
    (hstart : equals.span.start = byteLength front) :
    ∃ eof₁ eof₂ us₁ us₂ last₁ last₂,
      attachComments [] (tokenize (front ++ '=' :: (gap₁ ++ behind))).tokens
        = us₁ ++ [⟨last₁, eof₁⟩] ∧
      attachComments [] (tokenize (front ++ '=' :: (gap₂ ++ behind))).tokens
        = us₂ ++ [⟨last₂, eof₂⟩] ∧
      Aligned ⟨front ++ '=' :: (gap₁ ++ behind), eof₁⟩
        ⟨front ++ '=' :: (gap₂ ++ behind), eof₂⟩
        [name.span.stop] us₁ us₂ := by
  have hsplit : (tokenize (front ++ '=' :: (gap₁ ++ behind))).tokens
      = (before ++ name :: comments) ++ equals :: after := by
    rw [htokens, List.append_assoc, List.cons_append]
  obtain ⟨rfl, htokens₂⟩ :=
    Source.tokenize_regapped hgap₁ hgap₂ hends hsplit hequals hstart
  -- the text in front of the name, the name, and what stands between it and the equals sign
  obtain ⟨items, fault, items', hwalk, rfl, hitems'⟩ := Source.exists_walk_of_tokens htokens
  obtain ⟨passed, rest, mode, htext, hrest, hbeside⟩ :=
    exists_beside_append hwalk (List.cons_ne_nil _ _)
  obtain ⟨gap, rest, rfl, -, -, hitem⟩ := Source.walk_eq_cons hrest.symm
  rcases hitem with ⟨-, heof, -⟩ | ⟨kind, lexeme, skipped, more, _, mode', -, rfl, hitem, -⟩
  · obtain ⟨rfl, -⟩ := Prod.mk.inj heof
    simp [tokenAt, TokenKind.isKeyword] at hname
  obtain ⟨rfl, -⟩ := Prod.mk.inj hitem
  have hle : byteLength (passed ++ gap ++ lexeme) ≤ byteLength front := by
    have hordered := Source.tokens_ordered htokens
      (List.mem_append_right comments (List.mem_cons_self (a := equals)))
    have hstop : 0 + byteLength passed + byteLength gap + byteLength lexeme ≤ equals.span.start :=
      hordered
    rw [Source.byteLength_append, Source.byteLength_append]
    omega
  obtain ⟨mid, rfl, -⟩ := Source.exists_append_of_byteLength_le
    (show passed ++ gap ++ lexeme ++ (skipped ++ more) = front ++ '=' :: (gap₁ ++ behind) by
      rw [htext]
      simp only [List.append_assoc]) hle
  have hbehind (g : List Char) : byteLength (passed ++ gap ++ lexeme ++ mid ++ '=' :: g)
      = 0 + byteLength passed + byteLength gap + byteLength (lexeme ++ (mid ++ '=' :: g)) := by
    simp only [Source.byteLength_append, Nat.zero_add, Nat.add_assoc]
  have hsame := beside_walk .php (byteLength (passed ++ gap ++ lexeme ++ mid ++ '=' :: gap₁))
    (byteLength (passed ++ gap ++ lexeme ++ mid ++ '=' :: gap₂)) behind
  rw [hbehind, hbehind] at hsame
  have hkind : kind = .name ∨ kind.isKeyword = true ∨ kind = .variableName := hname
  have hfront := hbeside _ _ _ _ _ _ _ ((hsame.assigned hkind hcomments hequals).gap gap)
  refine ⟨tokenAt .eof (0 + byteLength passed + byteLength gap
      + byteLength (lexeme ++ (mid ++ '=' :: gap₁)) + byteLength behind) [],
    tokenAt .eof (0 + byteLength passed + byteLength gap
      + byteLength (lexeme ++ (mid ++ '=' :: gap₂)) + byteLength behind) [],
    Beside.exists_aligned ?_⟩
  show Beside [0 + byteLength passed + byteLength gap + byteLength lexeme] _ _ _ _
  rw [hsplit, htokens₂, hbehind, hbehind]
  simpa only [List.append_assoc, List.cons_append] using hfront

/-- **The gap behind an equals sign does not matter.** -/
theorem parse_of_gap_edited (hgap₁ : ∀ c ∈ gap₁, isGap c = true)
    (hgap₂ : ∀ c ∈ gap₂, isGap c = true) (hends : Source.EndsOperator (gap₂ ++ behind))
    {f₁ : SourceFile} (hparse : (parse (front ++ '=' :: (gap₁ ++ behind))).outcome = .ok f₁)
    (hassigns : f₁.AssignsAt (front ++ '=' :: (gap₁ ++ behind)) (byteLength front)) :
    ∃ f₂, (parse (front ++ '=' :: (gap₂ ++ behind))).outcome = .ok f₂ ∧
      Spanned.withoutSpans f₁ = Spanned.withoutSpans f₂ := by
  obtain ⟨before, name, comments, equals, after, htokens, hname, ⟨i, hi, hspan⟩,
    hcomments, hequals, hstart⟩ := hassigns
  obtain ⟨eof₁, eof₂, us₁, us₂, last₁, last₂, hitems₁, hitems₂, haligned⟩ :=
    exists_aligned_of_gap hgap₁ hgap₂ hends htokens hname hcomments hequals hstart
  refine parse_of_aligned hitems₁ hitems₂ haligned hparse fun e he => ?_
  obtain rfl := List.mem_singleton.1 he
  obtain ⟨c, hc, hic⟩ := List.mem_flatMap.1 hi
  exact ⟨c, hc, List.mem_append_left _ (List.mem_map.2 ⟨i, hic, congrArg Span.stop hspan⟩)⟩

end Gaps

/-- Whether a text declares a file with names that have a value at these places, and no others. -/
def Parsed.assigns (p : Parsed) (spans : List Span) : Bool :=
  match p.outcome with
  | .ok f => f.assigned.map (·.span) == spans
  | .error _ => false

theorem Parsed.exists_of_assigns {p : Parsed} {spans : List Span} (h : p.assigns spans = true) :
    ∃ f, p.outcome = .ok f ∧ f.assigned.map (·.span) = spans := by
  rw [assigns] at h
  split at h
  · next f hf => exact ⟨f, hf, beq_iff_eq.1 h⟩
  · cases h

/-- A constant with a type, and a comment behind its name: the gap in
`<?php class A { const int B /* C */ = 1; }` goes. -/
theorem parse_of_gap_removed : ∃ f₁ f₂,
    (parse ("<?php class A \x7b const int B /* C */ ".toList ++ '=' ::
      ([' '] ++ "1; \x7d".toList))).outcome
      = .ok f₁ ∧
    (parse ("<?php class A \x7b const int B /* C */ ".toList ++ '=' ::
      ([] ++ "1; \x7d".toList))).outcome
      = .ok f₂ ∧
    Spanned.withoutSpans f₁ = Spanned.withoutSpans f₂ := by
  have hassigns : (parse ("<?php class A \x7b const int B /* C */ ".toList
      ++ '=' :: ([' '] ++ "1; \x7d".toList))).assigns [⟨26, 27⟩] = true := by decide +kernel
  obtain ⟨f₁, hf₁, hspans⟩ := Parsed.exists_of_assigns hassigns
  have hname : ∃ i ∈ f₁.assigned, i.span = ⟨26, 27⟩ := by
    have hmem : (⟨26, 27⟩ : Span) ∈ f₁.assigned.map (·.span) := by
      rw [hspans]
      exact List.mem_singleton.2 rfl
    simpa only [List.mem_map] using hmem
  have hends : Source.EndsOperator ([] ++ "1; \x7d".toList) :=
    ⟨'1', "; \x7d".toList, by decide, by decide⟩
  obtain ⟨f₂, hf₂, hsame⟩ :=
    parse_of_gap_edited (List.forall_mem_singleton.2 rfl) (List.forall_mem_nil _)
    hends hf₁
    ⟨[tokenAt .openTag 0 "<?php ".toList, tokenAt (.keyword .kwClass) 6 "class".toList,
        tokenAt .name 12 ['A'], tokenAt (.mark .braceOpen) 14 ['\x7b'],
        tokenAt (.keyword .kwConst) 16 "const".toList, tokenAt .name 22 "int".toList],
      tokenAt .name 26 ['B'], [tokenAt .blockComment 28 "/* C */".toList],
      tokenAt (.mark .equals) 36 ['='],
      [tokenAt .number 38 ['1'], tokenAt (.mark .semicolon) 39 [';'],
        tokenAt (.mark .braceClose) 41 ['\x7d'], tokenAt .eof 42 []],
      by decide +kernel, .inl rfl, hname, by decide, rfl, rfl⟩
  exact ⟨f₁, f₂, hf₁, hf₂, hsame⟩

/-- **A sign behind the equals sign needs the gap**: the two make an operator, and a constant has to
be assigned to. -/
theorem parse_of_merged_sign :
    (∃ f₁, (parse "<?php class A \x7b const B = -1; \x7d".toList).outcome = .ok f₁) ∧
    ¬∃ f₂, (parse "<?php class A \x7b const B =-1; \x7d".toList).outcome = .ok f₂ := by
  have hspaced :
      (parse "<?php class A \x7b const B = -1; \x7d".toList).assigns [⟨22, 23⟩] = true := by
    decide +kernel
  have hmerged : (parse "<?php class A \x7b const B =-1; \x7d".toList).outcome.isOk = false := by
    decide +kernel
  obtain ⟨f₁, hf₁, -⟩ := Parsed.exists_of_assigns hspaced
  refine ⟨⟨f₁, hf₁⟩, ?_⟩
  rintro ⟨f₂, hf₂⟩
  rw [hf₂] at hmerged
  cases hmerged

end PhpHandbook.Declaration
