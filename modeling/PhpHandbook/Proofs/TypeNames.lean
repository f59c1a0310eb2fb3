import PhpHandbook.Proofs.WrittenTokens

/-!
# Names of types are read again

A name that was read as the name of a type is read as the same name from any other text, as long as
no character of a name follows it.  There is one exception: a keyword with a lone separator behind
it is read as a name, but is no name anywhere else.  The separator is the next token then.

## Main definitions

* `nameKind`: the kind of token that a name or a keyword is.
* `ReadsAgain`: a text that is read as a type name wherever it stands.
* `TokensReadAgain`, `ItemsReadAgain`: type names read again, or stand in front of a separator.

## Main statements

* `munch_typeName`: a type name reads again, or a lone separator follows.
* `itemsReadAgain_tokenize`: so it is with the items of a text.
-/

namespace PhpHandbook

namespace Source

open Text (run)
open DocBlock (run_append run_take run_le)

/-- Whether a token can be the name of a type. -/
def TokenKind.namesType (kind : TokenKind) : Bool :=
  kind.isName || kind == .keyword .kwStatic

/-- **The kind of token** that a name or a keyword is. -/
def nameKind (lexeme : List Char) : TokenKind :=
  if lexeme.head? = some '\\' then .rootedName
  else if '\\' ∈ lexeme then .qualifiedName
  else wordKind lexeme

/-- **A text that is read as the name of a type** wherever it stands. -/
structure ReadsAgain (lexeme : List Char) : Prop where
  kind : (nameKind lexeme).namesType
  scans : Scans (nameKind lexeme) lexeme
  head : ∀ c, lexeme.head? = some c → isNameStart c ∨ c = '\\'

theorem segments_le (cs : List Char) : segments cs ≤ cs.length := by
  induction cs using segments.induct with
  | case1 c cs hc n ih =>
    have hrun := run_le isNamePart cs
    have hsegments : segments (cs.drop (run isNamePart cs)) ≤ _ := ih
    rw [List.length_drop] at hsegments
    rw [segments, if_pos hc, List.length_cons, List.length_cons]
    dsimp only
    omega
  | case2 c cs hc => simp [segments, hc]
  | case3 cs hcs => simp [segments.eq_2 cs hcs]

/-- The first segment that follows begins with a separator. -/
theorem separator_mem_take_segments {cs : List Char} (h : 0 < segments cs) :
    '\\' ∈ cs.take (segments cs) := by
  have hpos := h
  unfold segments at h
  split at h
  · obtain ⟨n, hn⟩ := Nat.exists_eq_succ_of_ne_zero (Nat.ne_of_gt hpos)
    rw [hn, List.take_succ_cons]
    exact List.mem_cons_self
  · exact absurd h (Nat.lt_irrefl 0)

theorem separator_notMem_of_isNamePart {cs : List Char} (h : ∀ c ∈ cs, isNamePart c = true) :
    '\\' ∉ cs :=
  fun hmem => absurd (h '\\' hmem) (by decide)

theorem head?_ne_separator {c : Char} (hc : isNameStart c = true) (cs : List Char) :
    (c :: cs).head? ≠ some '\\' := by
  rw [List.head?_cons]
  intro h
  rw [Option.some.inj h] at hc
  exact absurd hc (by decide)

theorem nameKind_word {c : Char} {cs : List Char} (hc : isNameStart c = true)
    (hcs : ∀ d ∈ cs, isNamePart d = true) : nameKind (c :: cs) = wordKind (c :: cs) := by
  have hmem : '\\' ∉ c :: cs :=
    separator_notMem_of_isNamePart (List.forall_mem_cons.2 ⟨isNamePart_of_isNameStart hc, hcs⟩)
  rw [nameKind, if_neg (head?_ne_separator hc cs), if_neg hmem]

/-- A name with separators inside reads again. -/
theorem readsAgain_qualified {c : Char} {cs : List Char} (hc : isNameStart c = true)
    (hmore : 0 < segments (cs.drop (run isNamePart cs))) :
    ReadsAgain (c :: cs.take (run isNamePart cs + segments (cs.drop (run isNamePart cs)))) := by
  have hsegments := segments_le (cs.drop (run isNamePart cs))
  rw [List.length_drop] at hsegments
  have hkind : nameKind (c :: cs.take (run isNamePart cs + segments (cs.drop (run isNamePart cs))))
      = .qualifiedName := by
    rw [nameKind, if_neg (head?_ne_separator hc _), if_pos]
    rw [List.take_add]
    exact List.mem_cons_of_mem c (List.mem_append_right _ (separator_mem_take_segments hmore))
  refine ⟨by rw [hkind]; rfl, ?_, fun d hd => .inl (Option.some.inj hd ▸ hc)⟩
  rw [hkind]
  refine ⟨c, _, rfl, isGap_of_isNameStart hc, nofun, nofun, fun behind hbehind => ?_⟩
  have hends : EndsName behind := endsName_of_goesOn hbehind
  have hlength : (cs.take (run isNamePart cs)).length = run isNamePart cs :=
    List.length_take_of_le (run_le isNamePart cs)
  have hrun : run isNamePart (cs.take (run isNamePart cs)
      ++ ((cs.drop (run isNamePart cs)).take (segments (cs.drop (run isNamePart cs))) ++ behind))
      = run isNamePart cs := by
    rw [run_append (head?_take_segments _ _ hends), run_take]
  unfold munch
  rw [if_pos hc, munchWord, List.take_add, List.append_assoc, hrun, List.drop_left' hlength,
    segments_take _ hends, if_pos hmore, ← List.take_add, List.length_take_of_le (by omega)]

/-- A name with a separator in front reads again. -/
theorem readsAgain_rooted {cs : List Char} (h : segments ('\\' :: cs) ≠ 0) :
    ReadsAgain ('\\' :: cs.take (segments ('\\' :: cs) - 1)) := by
  have hle := segments_le ('\\' :: cs)
  obtain ⟨n, hn⟩ := Nat.exists_eq_succ_of_ne_zero h
  rw [List.length_cons] at hle
  rw [hn, Nat.succ_sub_one]
  refine ⟨rfl, ⟨'\\', cs.take n, rfl, by decide, nofun, nofun, fun behind hbehind => ?_⟩,
    fun d hd => .inr (Option.some.inj hd).symm⟩
  have htake := segments_take ('\\' :: cs) (endsName_of_goesOn hbehind)
  rw [hn, List.take_succ_cons, List.cons_append] at htake
  show (if segments ('\\' :: (cs.take n ++ behind)) = 0 then Munched.token (.mark .backslash) 0
    else .token .rootedName (segments ('\\' :: (cs.take n ++ behind)) - 1)) = _
  rw [htake, if_neg (Nat.succ_ne_zero n), List.length_take_of_le (by omega)]
  rfl

/-- **A type name reads again**, or it is a word with a lone separator behind it. -/
theorem munch_typeName {c : Char} {cs : List Char} {kind : TokenKind} {n : Nat}
    (h : munch c cs = .token kind n) (hkind : kind.namesType) :
    ReadsAgain (c :: cs.take n) ∨
      ∃ rest, cs.drop n = '\\' :: rest ∧ munch '\\' rest = .token (.mark .backslash) 0 := by
  have hword : kind.isWord := by
    cases kind <;> first | rfl | cases hkind
  rcases munch_word h hword with ⟨hc, hmunch⟩ | rfl | ⟨rfl, -⟩
  · unfold munchWord at hmunch
    simp only at hmunch
    split at hmunch
    · next hmore =>
      cases hmunch
      exact .inl (readsAgain_qualified hc hmore)
    · next hnone =>
      split at hmunch
      · next hhead =>
        cases hmunch
        rw [beq_iff_eq, List.head?_eq_some_iff] at hhead
        obtain ⟨rest, hrest⟩ := hhead
        refine .inr ⟨rest, hrest, ?_⟩
        rw [hrest] at hnone
        exact if_pos (Nat.eq_zero_of_not_pos hnone)
      · left
        have hcs : ∀ d ∈ cs.take (run isNamePart cs), isNamePart d = true :=
          fun d hd => isNamePart_of_mem_take_run hd
        have hfound : kind = wordKind (c :: cs.take (run isNamePart cs)) ∧
            n = run isNamePart cs := by
          rw [wordKind]
          cases hkeyword : Keyword.ofText? (c :: cs.take (run isNamePart cs)) <;>
            · rw [hkeyword] at hmunch
              cases hmunch
              exact ⟨rfl, rfl⟩
        obtain ⟨rfl, rfl⟩ := hfound
        have hnameKind := nameKind_word hc hcs
        refine ⟨hnameKind ▸ hkind, hnameKind ▸ scans_word hc hcs, ?_⟩
        exact fun d hd => .inl (Option.some.inj hd ▸ hc)
  · rcases munch_named h rfl with ⟨-, hne⟩ | ⟨-, rfl, hpos, -⟩
    · exact absurd rfl hne
    · left
      have hmunch : (if segments ('\\' :: cs) = 0 then Munched.token (.mark .backslash) 0
        else .token .rootedName (segments ('\\' :: cs) - 1)) = .token .rootedName n := h
      split at hmunch
      · cases hmunch
      · next hne =>
        cases hmunch
        exact readsAgain_rooted hne
  · cases hkind

/-- A word is exactly what `munch` found, and the walk goes on behind it. -/
theorem exists_munch_of_isWord {mode : Mode} {c : Char} {cs : List Char}
    (h : (piece mode c cs).kind.isWord) :
    ∃ n, munch c cs = .token (piece mode c cs).kind n ∧
      piece mode c cs = { kind := (piece mode c cs).kind, tail := n, mode := .php } := by
  have hmunch := munch_of_piece_isWord h
  refine ⟨_, hmunch, ?_⟩
  cases mode with
  | html =>
    rw [piece, htmlPiece_isWord] at h
    cases h
  | php =>
    refine phpPiece_of_munch hmunch fun hclose => ?_
    rw [hclose] at h
    cases h

/-- Type names among tokens **read again, or stand in front of a separator**. -/
def TokensReadAgain : List Token → Prop
  | [] => True
  | t :: ts => (t.kind.namesType → ReadsAgain t.lexeme.toList ∨
      ∃ u us, ts = u :: us ∧ u.kind = .mark .backslash) ∧ TokensReadAgain ts

theorem walk_readAgain (mode : Mode) (offset : Nat) (cs : List Char) :
    TokensReadAgain ((walk mode offset cs).map (·.1)) := by
  induction mode, offset, cs using walk.induct with
  | case1 mode offset =>
    rw [walk]
    exact ⟨fun hkind => absurd hkind Bool.false_ne_true, trivial⟩
  | case2 mode offset c cs hgap ih =>
    rw [walk, if_pos hgap]
    exact ih
  | case3 mode offset c cs hgap p lexeme stop skipped ih =>
    rw [walk, if_neg hgap]
    refine ⟨fun hkind => ?_, ih⟩
    have hword : p.kind.isWord := by
      revert hkind
      show p.kind.namesType = true → _
      cases p.kind <;> first
        | exact fun _ => rfl
        | exact fun hkind => absurd hkind Bool.false_ne_true
    obtain ⟨n, hmunch, hpiece⟩ := exists_munch_of_isWord hword
    rcases munch_typeName hmunch hkind with hagain | ⟨rest, hrest, hseparator⟩
    · left
      show ReadsAgain (String.ofList (c :: cs.take (piece mode c cs).tail)).toList
      rw [String.toList_ofList, hpiece]
      exact hagain
    · -- the walk goes on inside the tags, at the separator
      right
      have hgoesOn : phpPiece '\\' rest = { kind := .mark .backslash, tail := 0, mode := .php } :=
        phpPiece_of_munch hseparator (by decide)
      have hnot : ¬(Mode.php = Mode.php ∧ isGap '\\' = true) := by decide
      rw [hpiece]
      dsimp only
      rw [Nat.add_zero, hrest, walk, if_neg hnot, piece, hgoesOn]
      exact ⟨_, _, rfl, rfl⟩

theorem tokenize_readAgain (text : List Char) : TokensReadAgain (tokenize text).tokens :=
  walk_readAgain .html 0 text

end Source

namespace Declaration

open Source (ReadsAgain TokensReadAgain Token tokenize)

/-- Type names among items **read again, or stand in front of a separator**. -/
def ItemsReadAgain : List Item → Prop
  | [] => True
  | i :: is =>
    (isTypeName i → ReadsAgain i.token.lexeme.toList ∨ next (isMark .backslash) is) ∧
      ItemsReadAgain is

theorem ItemsReadAgain.suffix {ts us : List Item} (h : ItemsReadAgain ts) (hus : us <:+ ts) :
    ItemsReadAgain us := by
  induction ts with
  | nil =>
    obtain rfl := List.suffix_nil.1 hus
    exact h
  | cons t ts ih =>
    rcases List.suffix_cons_iff.1 hus with rfl | hus
    · exact h
    · exact ih h.2 hus

/-- No comment stands between a type name and the separator behind it. -/
theorem itemsReadAgain_attachComments {tokens : List Token} (h : TokensReadAgain tokens)
    (pending : List Comment) : ItemsReadAgain (attachComments pending tokens) := by
  induction tokens generalizing pending with
  | nil => trivial
  | cons t ts ih =>
    by_cases htrivia : t.kind.isTrivia = true
    · rw [attachComments_comment pending htrivia]
      exact ih h.2 _
    · rw [attachComments_cons pending htrivia]
      refine ⟨fun hname => (h.1 hname).imp_right ?_, ih h.2 []⟩
      rintro ⟨u, us, rfl, hu⟩
      have hsignificant : ¬u.kind.isTrivia = true := by
        rw [hu]
        exact Bool.false_ne_true
      rw [attachComments_cons [] hsignificant, next, List.head?_cons]
      simp [isMark, Item.kind, hu]

/-- In front of the end of the file type names do not stand. -/
theorem ItemsReadAgain.dropLast {is : List Item} {last : Item} (h : ItemsReadAgain (is ++ [last]))
    (hlast : isMark .backslash last = false) : ItemsReadAgain is := by
  induction is with
  | nil => trivial
  | cons i is ih =>
    refine ⟨fun hname => (h.1 hname).imp_right fun hnext => ?_, ih h.2⟩
    cases is with
    | nil => simp [next, hlast] at hnext
    | cons j js => exact hnext

/-- **The items of a text** read again. -/
theorem itemsReadAgain_tokenize {source : List Char} {ts : List Item} {comments : List Comment}
    {eof : Token} (h : attachComments [] (tokenize source).tokens = ts ++ [⟨comments, eof⟩]) :
    ItemsReadAgain ts := by
  obtain ⟨init, htokens, -⟩ := Source.tokens_eof source
  have hsignificant : ¬Source.TokenKind.eof.isTrivia = true := Bool.false_ne_true
  obtain ⟨us, comments', hus⟩ :=
    @exists_attachComments_concat [] init ⟨.eof, _, _⟩ hsignificant
  have hitems := itemsReadAgain_attachComments (Source.tokenize_readAgain source) []
  rw [htokens, hus] at h
  have heof := congrArg Item.token (List.singleton_inj.1 (List.append_inj_right' h rfl))
  rw [htokens, hus, h] at hitems
  refine hitems.dropLast ?_
  rw [isMark, Item.kind, ← heof]
  rfl

end Declaration

end PhpHandbook
