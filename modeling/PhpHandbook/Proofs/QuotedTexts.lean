import PhpHandbook.DocBlock.TypeReader
import PhpHandbook.Proofs.Relexing

/-!
# Quoted texts that are printed

A string is printed between single quotes, and each single quote in it gets a backslash.  A quoted
text is read to the first quote that no backslash takes along, and the backslash in front of a quote
of either kind is dropped.  Backslashes themselves are printed as they are.  So it depends on the
backslashes in a string where its printed form ends and which value it has.

## Main definitions

* `pairsBackslashes`: whether the backslashes in front of each quote stand in pairs.
* `ClosesLast`: a text behind a quote that is closed by its last character.

## Main statements

* `closesLast_printed_iff`, `isLexeme_string_iff`: where a printed string ends.
* `unquote_text_eq_iff`: the value of a printed string.
-/

namespace PhpHandbook.DocBlock

/-! ### Values -/

theorem length_unescape_le (quote : Char) (cs : List Char) :
    (unescape quote cs).length ≤ cs.length := by
  induction cs using unescape.induct quote with
  | case1 => simp [unescape]
  | case2 c => simp [unescape]
  | case3 c d cs h ih =>
    rw [unescape, if_pos h, List.length_cons, List.length_cons, List.length_cons]
    omega
  | case4 c d cs h ih =>
    rw [unescape, if_neg h, List.length_cons, List.length_cons]
    omega

/-- Nothing changes just where no backslash stands in front of the quote. -/
theorem unescape_eq_self_iff (quote : Char) (cs : List Char) :
    unescape quote cs = cs ↔ ¬ ['\\', quote] <:+: cs := by
  induction cs using unescape.induct quote with
  | case1 => simp [unescape]
  | case2 c => simp [unescape, List.infix_cons_iff]
  | case3 c d cs h ih =>
    have hlength := length_unescape_le quote cs
    obtain ⟨rfl, rfl⟩ := h
    rw [unescape, if_pos ⟨rfl, rfl⟩]
    refine ⟨fun heq => ?_, fun hnot => absurd ⟨[], cs, rfl⟩ hnot⟩
    have hsame := congrArg List.length heq
    simp only [List.length_cons] at hsame
    omega
  | case4 c d cs h ih =>
    have hfront : ¬ ['\\', quote] <+: c :: d :: cs := by
      rw [List.cons_prefix_cons, List.cons_prefix_cons]
      exact fun hc => h ⟨hc.1.symm, hc.2.1.symm⟩
    rw [unescape, if_neg h, List.infix_cons_iff, or_iff_right hfront, ← ih, List.cons.injEq,
      and_iff_right rfl]

theorem quoteChar_of_ne {c : Char} (hc : c ≠ '\'') : Literal.quoteChar c = [c] :=
  if_neg hc

/-- Removing the backslash in front of each quote undoes writing it. -/
theorem unescape_quoteChar (cs : List Char) :
    unescape '\'' (cs.flatMap Literal.quoteChar) = cs := by
  induction cs with
  | nil => rfl
  | cons c cs ih =>
    have hquote : Literal.quoteChar '\'' = ['\\', '\''] := rfl
    rw [List.flatMap_cons]
    by_cases hc : c = '\''
    · subst hc
      rw [hquote, List.cons_append, List.singleton_append, unescape, if_pos ⟨rfl, rfl⟩, ih]
    rw [quoteChar_of_ne hc, List.singleton_append]
    -- the reader looks one character ahead, and no character is printed with a quote in front
    cases cs with
    | nil => rfl
    | cons d ds =>
      rw [List.flatMap_cons] at ih ⊢
      by_cases hd : d = '\''
      · subst hd
        rw [hquote, List.cons_append] at ih ⊢
        rw [unescape, if_neg (by simp), ih]
      · rw [quoteChar_of_ne hd, List.singleton_append] at ih ⊢
        rw [unescape, if_neg (fun h => hd h.2), ih]

theorem toList_text_string (value : String) : (Literal.string value).text.toList
    = '\'' :: (value.toList.flatMap Literal.quoteChar ++ ['\'']) := by
  simp [Literal.text]

/-- What is read from a printed string. -/
theorem unquote_text (value : String) :
    unquote (Literal.string value).text.toList = String.ofList (unescape '"' value.toList) := by
  rw [unquote, toList_text_string, if_pos (by simp), List.drop_one, List.tail_cons,
    List.dropLast_concat, unescape_quoteChar]

/-- **The value of a printed string** is the string if no backslash stands in front of a double
quote. -/
theorem unquote_text_eq_iff (value : String) :
    unquote (Literal.string value).text.toList = value ↔ ¬ ['\\', '"'] <:+: value.toList := by
  rw [unquote_text, ← unescape_eq_self_iff, ← String.toList_inj, String.toList_ofList]

/-! ### Where a printed string ends -/

/-- Whether **backslashes stand in pairs** in front of each single quote, each line end and the end
of the text.  One more backslash stands in front of the text if `odd` is set. -/
def pairsBackslashes (odd : Bool) : List Char → Bool
  | [] => !odd
  | c :: cs =>
    if c = '\\' then pairsBackslashes (!odd) cs
    else if c = '\'' ∨ c = '\n' then !odd && pairsBackslashes false cs
    else pairsBackslashes false cs

/-- A text behind a single quote that **is closed by its last character**. -/
def ClosesLast (seen : Nat) (cs : List Char) : Prop :=
  quotedTail '\'' seen cs = (seen + cs.length, true)

section Closing

variable {seen : Nat} {c d : Char} {cs : List Char}

theorem not_closesLast_nil : ¬ ClosesLast seen [] := by
  simp [ClosesLast, quotedTail]

theorem closesLast_quote_iff : ClosesLast seen ('\'' :: cs) ↔ cs = [] := by
  simp [ClosesLast, quotedTail.eq_def]

theorem closesLast_cons_iff (hquote : c ≠ '\'') (hslash : c ≠ '\\') :
    ClosesLast seen (c :: cs) ↔ ClosesLast (seen + 1) cs := by
  rw [ClosesLast, ClosesLast, quotedTail.eq_def, List.length_cons, Nat.add_right_comm,
    Nat.add_assoc]
  simp only [hquote, hslash, if_false]

theorem closesLast_slash_iff :
    ClosesLast seen ('\\' :: d :: cs) ↔ d ≠ '\n' ∧ ClosesLast (seen + 2) cs := by
  have hlength : seen + ('\\' :: d :: cs).length = seen + 2 + cs.length := by
    simp only [List.length_cons]
    omega
  rw [ClosesLast, ClosesLast, hlength, quotedTail.eq_def]
  by_cases hd : d = '\n'
  · simp [hd]
  · simp [hd]

/-- The backslash that is left over from an odd number of them. -/
def oddSlash (odd : Bool) : List Char :=
  if odd then ['\\'] else []

/-- **A printed string ends at its last quote** just where its backslashes stand in pairs. -/
theorem closesLast_printed_iff (odd : Bool) (cs : List Char) (seen : Nat) :
    ClosesLast seen (oddSlash odd ++ (cs.flatMap Literal.quoteChar ++ ['\'']))
      ↔ pairsBackslashes odd cs = true := by
  -- a pair is passed at once: what was read so far only matters for its number of backslashes
  induction cs generalizing odd seen with
  | nil =>
    cases odd with
    | false => exact iff_of_true (closesLast_quote_iff.2 rfl) rfl
    | true =>
      refine iff_of_false (fun h => ?_) (by simp [pairsBackslashes])
      exact not_closesLast_nil (closesLast_slash_iff.1 h).2
  | cons c cs ih =>
    have hpair {d : Char} (hd : d ≠ '\n') :
        ClosesLast seen ('\\' :: d :: (cs.flatMap Literal.quoteChar ++ ['\'']))
        ↔ pairsBackslashes false cs = true :=
      (closesLast_slash_iff.trans (and_iff_right hd)).trans (ih false (seen + 2))
    rw [List.flatMap_cons]
    by_cases hslash : c = '\\'
    · subst hslash
      rw [pairsBackslashes, if_pos rfl, quoteChar_of_ne (by decide)]
      cases odd with
      | false => exact ih true seen
      | true => exact hpair (by decide)
    by_cases hquote : c = '\''
    · subst hquote
      have hquote : Literal.quoteChar '\'' = ['\\', '\''] := rfl
      rw [pairsBackslashes, if_neg hslash, if_pos (.inl rfl), hquote]
      cases odd with
      | false => exact hpair (by decide)
      | true =>
        refine iff_of_false (fun h => ?_) (by simp)
        -- the two backslashes are a pair, so the quote behind them closes the text
        have hempty := closesLast_quote_iff.1 (closesLast_slash_iff.1 h).2
        simp at hempty
    rw [pairsBackslashes, if_neg hslash, quoteChar_of_ne hquote]
    cases odd with
    | false =>
      refine ((closesLast_cons_iff hquote hslash).trans (ih false (seen + 1))).trans ?_
      simp
    | true =>
      by_cases hline : c = '\n'
      · refine iff_of_false (fun h => (closesLast_slash_iff.1 h).1 hline) (by simp [hline])
      · refine (hpair hline).trans ?_
        simp [hline, hquote]

end Closing

theorem isLexeme_quote_iff {ds : List Char} :
    IsLexeme .quoted ('\'' :: ds) ↔ ClosesLast 0 ds := by
  have hmunch := munch_quote (c := '\'') (.inl rfl) ds
  rw [ClosesLast, Nat.zero_add]
  constructor
  · rintro ⟨c, cs, hcs, -, hself⟩
    obtain ⟨rfl, rfl⟩ := List.cons.inj hcs
    rw [List.append_nil, hmunch, Prod.mk.injEq] at hself
    refine Prod.ext hself.2 ?_
    by_contra hopen
    simp [hopen] at hself
  · intro hclosed
    refine ⟨'\'', ds, rfl, rfl, ?_⟩
    rw [List.append_nil, hmunch, hclosed]
    rfl

/-- **A printed string is one lexeme** just where its backslashes stand in pairs. -/
theorem isLexeme_string_iff (value : String) :
    IsLexeme .quoted (Literal.string value).text.toList ↔
      pairsBackslashes false value.toList = true := by
  rw [toList_text_string, isLexeme_quote_iff]
  exact closesLast_printed_iff false value.toList 0

/-- Without backslashes there is nothing to pair. -/
theorem pairsBackslashes_of_not_mem {cs : List Char} (h : '\\' ∉ cs) :
    pairsBackslashes false cs = true := by
  induction cs with
  | nil => rfl
  | cons c cs ih =>
    rw [List.mem_cons, not_or] at h
    rw [pairsBackslashes, if_neg (Ne.symm h.1), ih h.2]
    simp

theorem isLexeme_string {value : String} (h : '\\' ∉ value.toList) :
    IsLexeme .quoted (Literal.string value).text.toList :=
  (isLexeme_string_iff value).2 (pairsBackslashes_of_not_mem h)

end PhpHandbook.DocBlock
