import Mathlib.Data.List.TakeWhile
import PhpHandbook.Registry.Basic

/-!
# The characters of words

A name, a keyword or a variable is made of letters, digits, underscores, and what lies beyond ASCII.
So nothing that has a meaning of its own in a text comes with a word.  A name with separators inside
has a letter behind the first of them; without its first part it still begins like a name.

## Main definitions

* `IsWord`: a text is made of characters for names.
* `Token.Spelled`: the text of a token is what its kind tells.

## Main statements

* `munch_word`: where words come from.
* `tokenize_spelled`: every token of a text is spelled as its kind tells.
-/

namespace PhpHandbook

namespace Source

open Text (run)

/-- A text of which every character may belong to a name. -/
def IsWord (s : String) : Prop :=
  ∀ c ∈ s.toList, isNamePart c = true

/-! ### Tokens -/

/-- A keyword, a variable or a name. -/
def TokenKind.isWord : TokenKind → Bool
  | .keyword _ | .name | .qualifiedName | .rootedName | .variableName => true
  | _ => false

/-- What the text of a word is made of. -/
structure Token.Spelled (t : Token) : Prop where
  /-- Names without separators, and keywords. -/
  word : t.kind = .name ∨ t.kind.isKeyword → IsWord t.lexeme
  /-- Variables, behind the dollar sign. -/
  behindDollar : t.kind = .variableName →
    IsWord (String.ofList (t.lexeme.toList.dropWhile (· == '$')))
  /-- There is one dollar sign. -/
  dollar : t.kind = .variableName → t.lexeme.toList = '$' :: t.lexeme.toList.dropWhile (· == '$')
  /-- Names with separators inside. -/
  qualified : t.kind = .qualifiedName →
    ∃ rest, (Registry.splitFirst t.lexeme).2 = some rest ∧ beginsName rest

theorem isNamePart_of_isNameStart {c : Char} (hc : isNameStart c = true) : isNamePart c = true := by
  rw [isNamePart, hc, Bool.true_or]

theorem isNamePart_of_mem_take_run {cs : List Char} {c : Char}
    (hc : c ∈ cs.take (run isNamePart cs)) : isNamePart c = true := by
  rw [Text.take_run] at hc
  exact List.mem_takeWhile_imp hc

/-- The separator does not belong to a word. -/
theorem ne_separator_of_isNamePart {c : Char} (hc : isNamePart c = true) : (c != '\\') = true := by
  rw [bne_iff_ne]
  rintro rfl
  exact absurd hc (by decide)

theorem operatorToken_kind_isWord (c : Char) (cs : List Char) :
    (operatorToken c cs).1.isWord = false := by
  unfold operatorToken operatorMark?
  simp only
  split <;> rfl

theorem munchSlash_isWord {cs : List Char} {kind : TokenKind} {n : Nat}
    (h : munchSlash cs = .token kind n) : kind.isWord = false := by
  have hop := operatorToken_kind_isWord '/' cs
  unfold munchSlash at h
  split at h
  · cases h
    rfl
  · simp only at h
    split at h
    · split at h <;> cases h
      · exact hop
      · rfl
    · split at h <;> cases h
      exact hop
  · cases h
    exact hop

theorem munchAngle_isWord {cs : List Char} {kind : TokenKind} {n : Nat}
    (h : munchAngle cs = .token kind n) : kind.isWord = false := by
  have hop := operatorToken_kind_isWord '<' cs
  unfold munchAngle at h
  simp only at h
  split at h
  · split at h
    · split at h <;> cases h
      exact hop
    · cases h
      exact hop
  · cases h
    exact hop

/-- **Where words come from**: from a letter, from a dollar sign with a letter behind it, or from a
separator. -/
theorem munch_word {c : Char} {cs : List Char} {kind : TokenKind} {n : Nat}
    (h : munch c cs = .token kind n) (hword : kind.isWord) :
    (isNameStart c ∧ munchWord c cs = .token kind n) ∨ kind = .rootedName ∨
      (kind = .variableName ∧ c = '$' ∧
        ∃ d ds, cs = d :: ds ∧ isNameStart d ∧ n = 1 + run isNamePart ds) := by
  unfold munch at h
  split at h
  · next hc => exact .inl ⟨hc, h⟩
  · right
    split at h
    · cases h
      cases hword
    · split at h
      case h_10 =>
        simp only at h
        split at h
        · cases h
          cases hword
        · cases h
          exact .inl rfl
      case h_11 =>
        split at h
        · next d ds =>
          split at h
          · next hd =>
            cases h
            exact .inr ⟨rfl, rfl, d, ds, rfl, hd, rfl⟩
          · cases h
            cases hword
        · cases h
          cases hword
      case h_14 => rw [munchSlash_isWord h] at hword; cases hword
      case h_15 => rw [munchAngle_isWord h] at hword; cases hword
      case h_19 =>
        split at h
        · have hop := operatorToken_kind_isWord c cs
          cases h
          cases hop.symm.trans hword
        · cases h
      case h_12 =>
        simp only at h
        repeat' split at h
        all_goals
          cases h
          cases hword
      all_goals
        repeat' split at h
        all_goals cases h <;> cases hword

/-- A letter starts a name with separators, or a word as long as possible. -/
theorem munchWord_cases {c : Char} {cs : List Char} {kind : TokenKind} {n : Nat}
    (h : munchWord c cs = .token kind n) :
    (kind = .qualifiedName ∧ n = run isNamePart cs + segments (cs.drop (run isNamePart cs)) ∧
        0 < segments (cs.drop (run isNamePart cs))) ∨
      ((kind = .name ∨ kind.isKeyword) ∧ n = run isNamePart cs) := by
  unfold munchWord at h
  simp only at h
  split at h
  · next hmore =>
    cases h
    exact .inl ⟨rfl, rfl, hmore⟩
  · right
    split at h
    · cases h
      exact ⟨.inl rfl, rfl⟩
    · split at h <;> cases h
      · exact ⟨.inr rfl, rfl⟩
      · exact ⟨.inl rfl, rfl⟩

theorem htmlPiece_isWord (c : Char) (cs : List Char) : (htmlPiece c cs).kind.isWord = false := by
  unfold htmlPiece
  split
  · rfl
  · split <;> rfl

/-- A piece that is a word is exactly what `munch` found. -/
theorem munch_of_piece_isWord {mode : Mode} {c : Char} {cs : List Char}
    (h : (piece mode c cs).kind.isWord) :
    munch c cs = .token (piece mode c cs).kind (piece mode c cs).tail := by
  cases mode with
  | html =>
    rw [piece, htmlPiece_isWord] at h
    cases h
  | php =>
    rw [piece] at h ⊢
    unfold phpPiece at h ⊢
    cases found : munch c cs with
    | nothing => simp [found, TokenKind.isWord] at h
    | heredoc label n =>
      simp only [found] at h
      split at h <;> cases h
    | token kind n =>
      cases kind with
      | closeTag => simp [found, TokenKind.isWord] at h
      | _ => rfl

/-- Behind the first part of a name with separators something begins that is a name again. -/
theorem splitFirst_qualified {c : Char} {cs : List Char} (hc : isNameStart c)
    (hmore : 0 < segments (cs.drop (run isNamePart cs))) :
    ∃ rest, (Registry.splitFirst (String.ofList
      (c :: cs.take (run isNamePart cs + segments (cs.drop (run isNamePart cs)))))).2
        = some rest ∧ beginsName rest := by
  have hfirst : ∀ x ∈ c :: cs.take (run isNamePart cs), (x != '\\') = true := by
    intro x hx
    rcases List.mem_cons.1 hx with rfl | hx
    · exact ne_separator_of_isNamePart (isNamePart_of_isNameStart hc)
    · exact ne_separator_of_isNamePart (isNamePart_of_mem_take_run hx)
  rw [List.take_add, ← List.cons_append]
  generalize cs.drop (run isNamePart cs) = after at hmore
  -- the rest of the name starts with a separator and a letter
  cases after with
  | nil => simp [segments] at hmore
  | cons s after =>
    by_cases hs : s = '\\'
    · subst hs
      obtain ⟨hlength, hhead⟩ := segments_pos (Nat.ne_of_gt hmore)
      obtain ⟨k, hk⟩ := Nat.exists_eq_add_of_le hlength
      cases after with
      | nil => cases hhead
      | cons d ds =>
        refine ⟨String.ofList (d :: ds.take k), ?_, by simpa [beginsName] using hhead⟩
        have hk' : segments ('\\' :: d :: ds) = k + 1 + 1 := by omega
        rw [Registry.splitFirst, String.toList_ofList, List.dropWhile_append_of_pos hfirst, hk']
        rfl
    · rw [segments] at hmore
      · cases hmore
      · intro d ds hcons
        exact hs (List.cons.inj hcons).1

/-- A piece that is a variable: a dollar sign, a letter, and what belongs to a name. -/
theorem piece_variable {mode : Mode} {c : Char} {cs : List Char}
    (h : (piece mode c cs).kind = .variableName) :
    c = '$' ∧ ∃ d ds, cs = d :: ds ∧ isNameStart d ∧
      String.ofList (c :: cs.take (piece mode c cs).tail)
        = String.ofList ('$' :: d :: ds.take (run isNamePart ds)) := by
  have hword : (piece mode c cs).kind.isWord := by rw [h]; rfl
  rcases munch_word (munch_of_piece_isWord hword) hword with ⟨-, hmunch⟩ | hrooted |
    ⟨-, rfl, d, ds, rfl, hd, htail⟩
  · rcases munchWord_cases hmunch with ⟨hqualified, -⟩ | ⟨hname, -⟩
    · simp [hqualified] at h
    · simp [h, TokenKind.isKeyword] at hname
  · simp [hrooted] at h
  · exact ⟨rfl, d, ds, rfl, hd, by rw [htail, Nat.add_comm, List.take_succ_cons]⟩

/-- One dollar sign stands in front of a variable. -/
theorem dropWhile_dollar {d : Char} (hd : isNameStart d) (ds : List Char) :
    ('$' :: d :: ds).dropWhile (· == '$') = d :: ds := by
  have hne : (d == '$') = false := by
    rw [beq_eq_false_iff_ne]
    rintro rfl
    exact absurd hd (by decide)
  rw [List.dropWhile_cons, if_pos (beq_self_eq_true '$'), List.dropWhile_cons, hne]
  rfl

/-- The token of one step of the walk is spelled as its kind tells. -/
theorem piece_spelled (mode : Mode) (c : Char) (cs : List Char) (span : Span) :
    Token.Spelled ⟨(piece mode c cs).kind, span,
      String.ofList (c :: cs.take (piece mode c cs).tail)⟩ := by
  constructor
  · intro hkind x hx
    simp only at hkind
    have hword : (piece mode c cs).kind.isWord := by
      revert hkind
      cases (piece mode c cs).kind <;> simp [TokenKind.isKeyword, TokenKind.isWord]
    rw [String.toList_ofList] at hx
    rcases munch_word (munch_of_piece_isWord hword) hword with
      ⟨hc, hmunch⟩ | hrooted | ⟨hvar, -⟩
    · rcases munchWord_cases hmunch with ⟨hqualified, -⟩ | ⟨-, htail⟩
      · simp [hqualified, TokenKind.isKeyword] at hkind
      · rw [htail] at hx
        rcases List.mem_cons.1 hx with rfl | hx
        · exact isNamePart_of_isNameStart hc
        · exact isNamePart_of_mem_take_run hx
    · simp [hrooted, TokenKind.isKeyword] at hkind
    · simp [hvar, TokenKind.isKeyword] at hkind
  · intro hkind x hx
    obtain ⟨rfl, d, ds, rfl, hd, hlexeme⟩ := piece_variable hkind
    simp only [hlexeme] at hx
    rw [String.toList_ofList, String.toList_ofList, dropWhile_dollar hd] at hx
    rcases List.mem_cons.1 hx with rfl | hx
    · exact isNamePart_of_isNameStart hd
    · exact isNamePart_of_mem_take_run hx
  · intro hkind
    obtain ⟨rfl, d, ds, rfl, hd, hlexeme⟩ := piece_variable hkind
    simp only [hlexeme]
    rw [String.toList_ofList, dropWhile_dollar hd]
  · intro hkind
    simp only at hkind
    have hword : (piece mode c cs).kind.isWord := by rw [hkind]; rfl
    rcases munch_word (munch_of_piece_isWord hword) hword with
      ⟨hc, hmunch⟩ | hrooted | ⟨hvar, -⟩
    · rcases munchWord_cases hmunch with ⟨-, htail, hmore⟩ | ⟨hname, -⟩
      · rw [htail]
        exact splitFirst_qualified hc hmore
      · simp [hkind, TokenKind.isKeyword] at hname
    · simp [hrooted] at hkind
    · simp [hvar] at hkind

/-- Every token of a text is spelled as its kind tells. -/
theorem tokenize_spelled : ∀ text : List Char, ∀ t ∈ (tokenize text).tokens, t.Spelled :=
  forall_mem_tokenize (fun _ => ⟨by simp [TokenKind.isKeyword], by simp, by simp, by simp⟩)
    piece_spelled

end Source

end PhpHandbook
