import PhpHandbook.Proofs.TypeEnds
import PhpHandbook.Proofs.TypeSteps

/-!
# String literals that are read back

A string is read back from its printed form if that ends at its last quote and loses only the
backslashes that were printed.  Both depend on the backslashes in the string.

## Main statements

* `readType_literal_cases`: a type that is a single value was read as an atom.
* `unread_ne_empty`: text that is not read is not lost.
* `string_text_iff`: which strings are read back from their printed form.
* `string_text_of_escaped_quote`: a string that was read, but is not read back.
-/

namespace PhpHandbook.DocBlock

open Reading

/-! ### Types that are single values -/

/-- **A single value** is read as an atom, with nothing joined to it. -/
theorem readType_literal_cases {ts rest : List Lexeme} {value : Literal}
    (h : (readType ts).Reads (.literal value) rest) :
    (readAtom ts).Reads (.literal value) rest := by
  obtain ⟨question, us, inner, -, -, hinner, -⟩ | ⟨first, us, hfirst, h⟩ :=
    readType_plain_cases h nofun
  · cases hinner
  · obtain ⟨rfl, rfl, -, -⟩ | ⟨more, hmore, -⟩ | ⟨more, hmore, -⟩ := readJoined_cases h
    · rw [readOperand] at hfirst
      obtain ⟨atom, us, -, hatom, h⟩ := hfirst.steps
      obtain ⟨-, -, ⟨rfl, rfl⟩ | ⟨hsuffixed, -⟩⟩ := readSuffixes_cases h
      · exact hatom
      · simp at hsuffixed
    · cases hmore
    · cases hmore

theorem readType_quoted (gap cs : List Char) :
    (readType [⟨gap, .quoted, cs⟩]).Reads (.literal (.string (unquote cs))) [] := by
  have hatom : (readAtom [⟨gap, .quoted, cs⟩]).Reads (.literal (.string (unquote cs))) [] := by
    rw [readAtom]
    exact (reads_done _).behind _
  exact readType_of_operand
    (readOperand_of_atom hatom (readSuffixes_of_ends closes_nil.toEnds _)) closes_nil

/-! ### Text that is not read -/

/-- Each character but those between lexemes belongs to a lexeme. -/
theorem exists_mem_lexemesFrom {c : Char} (hgap : isGap c = false) {before text : List Char}
    (hc : c ∈ text) : ∃ l ∈ lexemesFrom before text, c ∈ l.chars := by
  induction before, text using lexemesFrom.induct with
  | case1 before => cases hc
  | case2 before d ds hd ih =>
    rw [lexemesFrom, if_pos hd]
    rcases List.mem_cons.1 hc with rfl | hc
    · rw [hgap] at hd
      cases hd
    · exact ih hc
  | case3 before d ds hd kind n hmunch ih =>
    rw [lexemesFrom, if_neg hd, hmunch]
    rw [← List.take_append_drop n ds, ← List.cons_append, List.mem_append] at hc
    rcases hc with hc | hc
    · exact ⟨_, List.mem_cons_self, hc⟩
    · obtain ⟨l, hl, hcl⟩ := ih hc
      exact ⟨l, List.mem_cons_of_mem _ hl, hcl⟩

/-- **Text that is not read is not lost**, unless it is blank. -/
theorem unread_ne_empty {c : Char} (hblank : Text.isBlank c = false) {l : Lexeme} {ls : List Lexeme}
    (hl : l ∈ ls) (hc : c ∈ l.chars) : unread ls ≠ "" := by
  intro hempty
  cases ls with
  | nil => cases hl
  | cons t ts =>
    have hmem : c ∈ t.chars ++ ts.flatMap fun u => u.gap ++ u.chars := by
      rw [List.mem_append]
      rcases List.mem_cons.1 hl with rfl | hl
      · exact .inl hc
      · exact .inr (List.mem_flatMap.2 ⟨l, hl, List.mem_append_right _ hc⟩)
    have hblanks := Text.stripBlank_eq_nil_iff.1 (String.ofList_eq_empty_iff.1 hempty) c
      (by rwa [String.toList_ofList])
    rw [hblank] at hblanks
    cases hblanks

/-! ### Strings -/

/-- **A text between single quotes** that is read as a single value, to the end, is one lexeme. -/
theorem isLexeme_of_readType {cs : List Char} {value : Literal}
    (hvalue : (readType (lexemes ('\'' :: (cs ++ ['\''])))).outcome = .ok (.literal value))
    (hrest : unread (readType (lexemes ('\'' :: (cs ++ ['\''])))).rest = "") :
    IsLexeme .quoted ('\'' :: (cs ++ ['\''])) ∧
      value = .string (unquote ('\'' :: (cs ++ ['\'']))) := by
  have hlast : (cs ++ ['\'']).getLast? = some '\'' := List.getLast?_concat
  generalize cs ++ ['\''] = text at hvalue hrest hlast ⊢
  have hmunch := munch_quote (c := '\'') (.inl rfl) text
  have hlexemes : lexemes ('\'' :: text)
      = ⟨[], (munch '\'' text).1, '\'' :: text.take (munch '\'' text).2⟩
        :: lexemesFrom [] (text.drop (munch '\'' text).2) := by
    rw [lexemes, lexemesFrom]
    rfl
  rw [hlexemes, hmunch] at hvalue hrest
  have hatom := readType_literal_cases ⟨hvalue, rfl⟩
  rw [readAtom] at hatom
  cases htail : quotedTail '\'' 0 text with
  | mk n closed =>
    rw [htail] at hatom hrest
    cases closed with
    | false => exact absurd hatom (not_reads_fail _)
    | true =>
      obtain ⟨hstring, hleft⟩ := reads_done_iff.1 hatom
      -- the quote at the end of the text is not among what is left, so nothing is
      have hdrop : text.drop n = [] := by
        by_contra hne
        have hmem : '\'' ∈ text.drop n := by
          refine List.mem_of_getLast? ?_
          rw [List.getLast?_drop, if_neg (fun hle => hne (List.drop_eq_nil_of_le hle)), hlast]
        have hquote : ∃ l ∈ lexemesFrom [] (text.drop n), '\'' ∈ l.chars :=
          exists_mem_lexemesFrom rfl hmem
        obtain ⟨l, hl, hchar⟩ := hquote
        rw [← hleft] at hrest
        exact unread_ne_empty (by decide +kernel) hl hchar hrest
      obtain ⟨m, hm, hle, -⟩ := quotedTail_take htail
      have hn : n = text.length := by
        have := List.drop_eq_nil_iff.1 hdrop
        omega
      subst hn
      refine ⟨isLexeme_quote_iff.2 (by rw [ClosesLast, htail, Nat.zero_add]), ?_⟩
      rw [List.take_length] at hstring
      exact (TypeExpr.literal.inj hstring).symm

/-- **Which strings are read back**: a string is read back from its printed form, to the end of it,
just if its backslashes stand in pairs in front of each single quote, each line end and the end, and
none stands in front of a double quote. -/
theorem string_text_iff (value : String) :
    ((readType (lexemes (Literal.string value).text.toList)).outcome
      = .ok (.literal (.string value)) ∧
        unread (readType (lexemes (Literal.string value).text.toList)).rest = "")
      ↔ pairsBackslashes false value.toList = true ∧ ¬ ['\\', '"'] <:+: value.toList := by
  rw [← unquote_text_eq_iff, ← isLexeme_string_iff]
  constructor
  · rintro ⟨hvalue, hrest⟩
    rw [toList_text_string] at hvalue hrest ⊢
    obtain ⟨hlexeme, hstring⟩ := isLexeme_of_readType hvalue hrest
    exact ⟨hlexeme, (Literal.string.inj hstring).symm⟩
  · rintro ⟨hlexeme, hvalue⟩
    generalize (Literal.string value).text.toList = text at hlexeme hvalue ⊢
    have hlexemes : lexemes text = [⟨[], .quoted, text⟩] := by
      have hfits : Fits [⟨[], .quoted, text⟩] := ⟨List.forall_mem_nil _, hlexeme, trivial⟩
      have hspell := lexemes_spell hfits
      rwa [spell_cons, List.nil_append, spell_nil, List.append_nil] at hspell
    obtain ⟨houtcome, hrest⟩ := readType_quoted [] text
    rw [hlexemes, houtcome, hrest, hvalue]
    exact ⟨rfl, rfl⟩

/-- **A string that is not read back**: two backslashes in front of a single quote are read as one,
and that one is printed with one more, which takes it along. -/
theorem string_text_of_escaped_quote :
    (readType (lexemes ['"', '\\', '\\', '\'', '"'])).outcome = .ok (.literal (.string "\\'")) ∧
      (Literal.string "\\'").text.toList = ['\'', '\\', '\\', '\'', '\''] ∧
      (readType (lexemes ['\'', '\\', '\\', '\'', '\''])).outcome
        = .ok (.literal (.string "\\\\")) ∧
      unread (readType (lexemes ['\'', '\\', '\\', '\'', '\''])).rest = "'" := by
  refine ⟨by with_unfolding_all rfl, by decide, by with_unfolding_all rfl,
    by with_unfolding_all rfl⟩

end PhpHandbook.DocBlock
