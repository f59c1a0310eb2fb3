import PhpHandbook.Proofs.AdjoinedTexts
import PhpHandbook.Proofs.TakenLexemes
import PhpHandbook.Proofs.TypesInFront

/-!
# Operands that keep their grouping

An operand is put in parentheses by what it is, not by what it is an operand of: unions,
intersections and conditionals are, and nothing else.  So what is put behind the text of another
type is read as part of it, where its reader goes on.  Behind a `?` all of a suffix is read, and a
suffix behind a callable goes to the type that it returns; a `?` is not read at all where an operand
is asked for.

Here a type that is read back from its own text is used as an operand.  The readers are followed
from the text of the type to that of the use: what they read from the text alone is read again with
brackets, a further member or a parenthesis behind it.

## Main definitions

* `TypeExpr.IsReadBack`: a type that is read back from its text.

## Main statements

* `readOperand_operandText`: the text of an operand is read as the operand, whatever adjoins it.
* `not_outcome_array_callable`: a suffix behind a callable is not its own.
* `operand_isReadBack_iff`: which operands keep their grouping.
* `array_of_nullable_text`: an array that loses its grouping.
-/

namespace PhpHandbook.DocBlock

open Reading

/-! ### Types that are read back -/

/-- A type that **is read back** from its text, to the end of it. -/
def TypeExpr.IsReadBack (t : TypeExpr) : Prop :=
  (readType (lexemes t.text.toList)).Reads t []

/-- A type is read back **just if** a condition holds: its text gives it again and leaves nothing,
or does not give it. -/
structure TypeExpr.ReadBackIff (t : TypeExpr) (p : Prop) : Prop where
  isReadBack : p → t.IsReadBack
  of_outcome : (readType (lexemes t.text.toList)).outcome = .ok t → p

section Back

variable {t : TypeExpr}

theorem TypeExpr.IsReadBack.wellSpelled (h : t.IsReadBack) : t.WellSpelled :=
  readType_spelled _ (genuine_lexemes _) t h.1

theorem TypeExpr.IsReadBack.endsTightly (h : t.IsReadBack) : EndsTightly t.text.toList :=
  TypeExpr.endsTightly_text h.wellSpelled

/-- **What is put behind the text** of a type does not change its lexemes. -/
theorem TypeExpr.IsReadBack.lexemes_append (h : t.IsReadBack) (rest : List Char)
    (hrest : Apart rest) (hcolon : rest.head? ≠ some ':') :
    lexemes (t.text.toList ++ rest) = lexemes t.text.toList ++ lexemes rest := by
  refine DocBlock.lexemes_append hrest hcolon h.endsTightly ?_
  obtain ⟨taken, htaken, hknown⟩ := readType_takes _ t [] h
  rw [htaken, List.append_nil]
  exact hknown

/-- How a type that is no union, intersection or conditional was read, if not behind a `?`. -/
theorem readOperand_of_readType {ts rest : List Lexeme} (h : (readType ts).Reads t rest)
    (hnullable : t.isNullable = false) (hcompound : t.isCompound = false) :
    (readOperand ts).Reads t rest := by
  obtain ⟨_, _, _, -, -, rfl, -⟩ | ⟨first, us, hfirst, hjoined⟩ :=
    readType_plain_cases h (by
    rintro _ _ _ _ _ rfl
    cases hcompound)
  · cases hnullable
  · obtain ⟨rfl, rfl, -, -⟩ | ⟨more, rfl, -⟩ | ⟨more, rfl, -⟩ :=
      readJoined_cases hjoined
    · exact hfirst
    · cases hcompound
    · cases hcompound

end Back

/-- **The text of an operand** of a type. -/
abbrev TypeExpr.operandText (t : TypeExpr) : String :=
  parenthesize t.isCompound t.text

/-- **An operand is read** from its text in front of further lexemes, with the suffixes among
them. -/
theorem readOperand_operandText {t u : TypeExpr} (h : t.IsReadBack)
    (hnullable : t.isNullable = false) (rest : List Char) (hrest : Apart rest)
    (hcolon : rest.head? ≠ some ':') {ws : List Lexeme} (hr : Adjoins (lexemes rest))
    (hsquare : Unsuffixed (lexemes rest) t [])
    (hmore : (readSuffixes t (lexemes rest)).Reads u ws) :
    (readOperand (lexemes (t.operandText.toList ++ rest))).Reads u ws := by
  cases hcompound : t.isCompound with
  | false =>
    have hoperand :=
      readOperand_append hr (readOperand_of_readType h hnullable hcompound) hsquare hmore
    rwa [TypeExpr.operandText, hcompound, TypeExpr.parenthesize, if_neg Bool.false_ne_true,
      h.lexemes_append rest hrest hcolon]
  | true =>
    have hclose : lexemes (')' :: rest) = .ofMark [] .parenClose :: lexemes rest :=
      lexemes_mark rfl rfl
    have hadjoins : Adjoins (lexemes (')' :: rest)) := by
      rw [hclose]
      exact adjoins_cons rfl _
    have htype := readType_append hadjoins h (.nil fun l hl => by
      rw [hclose] at hl
      obtain rfl := Option.some.inj hl
      rfl)
    have htext : t.operandText.toList ++ rest = '(' :: (t.text.toList ++ ')' :: rest) := by
      simp [TypeExpr.operandText, hcompound, TypeExpr.parenthesize]
    have hopen : lexemes ('(' :: (t.text.toList ++ ')' :: rest))
        = .ofMark [] .parenOpen :: lexemes (t.text.toList ++ ')' :: rest) := lexemes_mark rfl rfl
    rw [htext, hopen, h.lexemes_append _ (apart_cons rfl _) (by simp)]
    rw [hclose] at htype ⊢
    exact readOperand_of_atom (readAtom_paren htype []) hmore

/-! ### Uses of an operand -/

section Uses

variable {t : TypeExpr}

theorem toList_text_array : (TypeExpr.array t).text.toList = t.operandText.toList ++ ['[', ']'] :=
  String.toList_append

theorem lexemes_brackets :
    lexemes ['[', ']'] = [.ofMark [] .squareOpen, .ofMark [] .squareClose] := by
  with_unfolding_all rfl

theorem adjoins_brackets : Adjoins (lexemes ['[', ']']) := by
  rw [lexemes_brackets]
  exact adjoins_cons rfl _

theorem isReadBack_array (h : t.IsReadBack) (hnullable : t.isNullable = false)
    (hcallable : t.isCallable = false) : (TypeExpr.array t).IsReadBack := by
  have hsuffix : (readSuffixes t (lexemes ['[', ']'])).Reads (.array t) [] := by
    rw [lexemes_brackets]
    exact readSuffixes_array (readSuffixes_of_ends closes_nil.toEnds (.array t))
  have hoperand := readOperand_operandText h hnullable ['[', ']']
    (apart_cons rfl _) (by simp) adjoins_brackets
    (fun _ h => by rw [hcallable] at h; cases h) hsuffix
  rw [TypeExpr.IsReadBack, toList_text_array]
  exact readType_of_operand hoperand closes_nil

/-- Alone, an operand is read as what it is. -/
theorem readOperand_alone (h : t.IsReadBack) (hnullable : t.isNullable = false) :
    (readOperand (lexemes t.operandText.toList)).Reads t [] := by
  have hnil : lexemes [] = [] := by with_unfolding_all rfl
  have hoperand := readOperand_operandText h hnullable [] apart_nil nofun
    (by rw [hnil]; exact nofun) (fun _ _ => by rw [hnil]; rfl)
    (by rw [hnil]; exact readSuffixes_of_ends closes_nil.toEnds t)
  rwa [List.append_nil] at hoperand

theorem toList_text_nullable : (TypeExpr.nullable t).text.toList = '?' :: t.operandText.toList :=
  String.toList_append

theorem lexemes_question (cs : List Char) :
    lexemes ('?' :: cs) = .ofMark [] .question :: lexemes cs :=
  lexemes_mark rfl rfl

theorem isReadBack_nullable (h : t.IsReadBack) (hnullable : t.isNullable = false) :
    (TypeExpr.nullable t).IsReadBack := by
  rw [TypeExpr.IsReadBack, toList_text_nullable, lexemes_question]
  exact readType_nullable rfl (readOperand_alone h hnullable)

theorem isIdentifier_int : IsIdentifier "int" :=
  isIdentifier_of_parts rfl rfl rfl

theorem readOperand_int {rest : List Lexeme} (hrest : Ends rest) :
    (readOperand (.ofWord [] "int" :: rest)).Reads (.identifier "int") rest :=
  readOperand_of_atom (readAtom_named isIdentifier_int (readNamed_of_stops hrest.stops "int") [])
    (readSuffixes_of_ends hrest _)

/-- One more member ends a union. -/
theorem readUnion_last {ts : List Lexeme} (h : (readOperand ts).Reads t []) :
    (readUnion (.ofMark [] .pipe :: ts)).Reads [t] [] := by
  rw [readUnion]
  refine reads_onNext rfl (h.andThen fun _ => Reads.map ?_ rfl)
  rw [readUnion]
  exact reads_onNext_no rfl (reads_done [])

theorem toList_text_union_left : (TypeExpr.union [t, .identifier "int"]).text.toList
    = t.operandText.toList ++ "|int".toList := by
  simp [TypeExpr.text, TypeExpr.operands, TypeExpr.operandText, TypeExpr.parenthesize,
    TypeExpr.isCompound]

theorem isReadBack_union_left (h : t.IsReadBack) (hnullable : t.isNullable = false) :
    (TypeExpr.union [t, .identifier "int"]).IsReadBack := by
  have hpipe : lexemes "|int".toList = [.ofMark [] .pipe, .ofWord [] "int"] := by
    with_unfolding_all rfl
  have hoperand := readOperand_operandText h hnullable "|int".toList
    (apart_cons rfl _) (by simp) (by rw [hpipe]; exact adjoins_cons rfl _)
    (fun _ _ => by rw [hpipe]; rfl)
    (by rw [hpipe]; exact readSuffixes_of_ends (ends_pipe [.ofWord [] "int"]) t)
  rw [TypeExpr.IsReadBack, toList_text_union_left]
  exact readType_joined hoperand rfl
    (readJoined_union (readUnion_last (readOperand_int closes_nil.toEnds)) t)

theorem lexemes_union_right : lexemes (TypeExpr.union [.identifier "int", t]).text.toList
    = .ofWord [] "int" :: .ofMark [] .pipe :: lexemes t.operandText.toList := by
  have htext : (TypeExpr.union [.identifier "int", t]).text.toList
      = "int".toList ++ '|' :: t.operandText.toList := by
    simp [TypeExpr.text, TypeExpr.operands, TypeExpr.operandText, TypeExpr.parenthesize,
      TypeExpr.isCompound]
  rw [htext, lexemes_word isIdentifier_int rfl (apart_cons rfl _)]
  exact congrArg _ (lexemes_mark rfl rfl)

theorem isReadBack_union_right (h : t.IsReadBack) (hnullable : t.isNullable = false) :
    (TypeExpr.union [.identifier "int", t]).IsReadBack := by
  rw [TypeExpr.IsReadBack, lexemes_union_right]
  exact readType_joined (readOperand_int (ends_pipe _)) rfl
    (readJoined_union (readUnion_last (readOperand_alone h hnullable)) _)

/-! ### Operands that lose their grouping -/

/-- What begins with a `?` is nullable. -/
theorem isNullable_of_question {ts rest : List Lexeme} {u : TypeExpr}
    (h : (readType (.ofMark [] .question :: ts)).Reads u rest) :
    ∃ inner, u = .nullable inner ∧ (readOperand ts).Reads inner rest := by
  obtain ⟨name, us, -, hus, hstarts, -⟩ | ⟨question, us, inner, -, hus, -, rfl, hinner⟩ |
    ⟨first, us, -, hfirst, -⟩ | ⟨first, us, -, hfirst, -⟩ := readType_cases h
  · cases isKind_of_startsParameterConditional hstarts
  · obtain ⟨-, rfl⟩ := List.cons.inj hus
    exact ⟨inner, rfl, hinner⟩
  · cases (front_of_readOperand hfirst).2
  · cases (front_of_readOperand hfirst).2

theorem not_readOperand_question {ts rest : List Lexeme} {u : TypeExpr} :
    ¬ (readOperand (.ofMark [] .question :: ts)).Reads u rest :=
  fun h => absurd (front_of_readOperand h).2 nofun

/-- What is written with `?` gets no parentheses as an operand. -/
theorem lexemes_nullable (hnullable : t.isNullable = true) (rest : List Char) :
    ∃ ls, lexemes (t.operandText.toList ++ rest) = .ofMark [] .question :: ls := by
  cases t with
  | nullable inner =>
    have htext : (TypeExpr.nullable inner).operandText.toList = '?' :: inner.operandText.toList :=
      toList_text_nullable
    rw [htext]
    exact ⟨_, lexemes_question _⟩
  | _ => cases hnullable

theorem lexemes_nullable_alone (hnullable : t.isNullable = true) :
    ∃ ls, lexemes t.operandText.toList = .ofMark [] .question :: ls := by
  have h := lexemes_nullable hnullable []
  rwa [List.append_nil] at h

/-- So whatever is put behind it belongs to what the `?` stands in front of. -/
theorem isNullable_of_front {rest : List Char} {u : TypeExpr} (hnullable : t.isNullable = true)
    (h : (readType (lexemes (t.operandText.toList ++ rest))).outcome = .ok u) :
    u.isNullable = true := by
  obtain ⟨ls, hls⟩ := lexemes_nullable hnullable rest
  rw [hls] at h
  obtain ⟨_, rfl, -⟩ := isNullable_of_question ⟨h, rfl⟩
  rfl

theorem not_outcome_nullable (hnullable : t.isNullable = true) (u : TypeExpr) :
    (readType (lexemes (TypeExpr.nullable t).text.toList)).outcome ≠ .ok u := by
  intro h
  obtain ⟨ls, hls⟩ := lexemes_nullable_alone hnullable
  rw [toList_text_nullable, lexemes_question, hls] at h
  obtain ⟨inner, -, hinner⟩ := isNullable_of_question ⟨h, rfl⟩
  exact not_readOperand_question hinner

theorem not_outcome_union_right (hnullable : t.isNullable = true) :
    (readType (lexemes (TypeExpr.union [.identifier "int", t]).text.toList)).outcome
      ≠ .ok (.union [.identifier "int", t]) := by
  intro h
  obtain ⟨ls, hls⟩ := lexemes_nullable_alone hnullable
  rw [lexemes_union_right, hls] at h
  have hint := readOperand_int (ends_pipe (.ofMark [] .question :: ls))
  obtain ⟨_, _, _, -, -, hunion, -⟩ | ⟨first, us, hfirst, hjoined⟩ :=
    readType_plain_cases ⟨h, rfl⟩ nofun
  · cases hunion
  obtain ⟨rfl, rfl⟩ := hint.unique hfirst
  obtain ⟨hunion, -⟩ | ⟨more, -, hmore⟩ | ⟨more, hunion, -⟩ := readJoined_cases hjoined
  · cases hunion
  · rw [readUnion] at hmore
    obtain ⟨bar, us, -, hus, -, hmore⟩ | ⟨hno, -⟩ := hmore.branches
    · obtain ⟨-, rfl⟩ := List.cons.inj hus
      obtain ⟨member, vs, -, hmember, -⟩ := hmore.steps
      exact not_readOperand_question hmember
    · cases hno
  · cases hunion

end Uses

/-! ### Suffixes behind callables -/

section Callables

variable {ts rest : List Lexeme} {t : TypeExpr} {name : String}
  {params : List (CallableParam TypeExpr)} {returns : TypeExpr}

/-- **How a callable was read** behind its name. -/
structure CallableParts (params : List (CallableParam TypeExpr)) (returns : TypeExpr)
    (us us₁ us₂ rest : List Lexeme) (closing : Lexeme) : Prop where
  params : (readParams us).Reads params us₁
  closing : (expectKind .parenClose ")" us₁).Reads closing us₂
  returns : (readReturns us₂).Reads returns rest

/-- A name gives a callable with its parts, or a type of another kind without suffixes. -/
theorem readNamed_cases (h : (readNamed name ts).Reads t rest) :
    (t.base = t ∧ t.isCallable = false) ∨
      ∃ bracket us us₁ us₂ closing params returns, ts = bracket :: us ∧
      t = .callable name params returns ∧
        CallableParts params returns us us₁ us₂ rest closing := by
  rw [readNamed] at h
  obtain ⟨_, us, -, -, -, h⟩ | ⟨-, h⟩ := h.branches
  · obtain ⟨constant, -, rfl⟩ := reads_map_iff.1 h
    exact .inl ⟨rfl, rfl⟩
  obtain ⟨_, us, -, -, -, h⟩ | ⟨-, h⟩ := h.branches
  · obtain ⟨args, us₁, -, -, h⟩ := h.steps
    split_ifs at h
    · exact absurd h (not_reads_fail _)
    · obtain ⟨rfl, -⟩ := reads_done_iff.1 h
      exact .inl ⟨rfl, rfl⟩
  obtain ⟨_, us, -, -, -, h⟩ | ⟨-, h⟩ := h.branches
  · obtain ⟨items, -, rfl⟩ := reads_map_iff.1 h
    simp only
    split_ifs
    · exact .inl ⟨rfl, rfl⟩
    · exact .inl ⟨rfl, rfl⟩
  obtain ⟨bracket, us, -, rfl, -, h⟩ | ⟨-, h⟩ := h.branches
  · obtain ⟨params, us₁, -, hparams, h⟩ := h.steps
    obtain ⟨closing, us₂, -, hclosing, h⟩ := h.steps
    obtain ⟨returns, hreturns, rfl⟩ := reads_map_iff.1 h
    exact .inr ⟨bracket, us, us₁, us₂, closing, params, returns, rfl, rfl, hparams,
      hclosing, hreturns⟩
  · obtain ⟨rfl, -⟩ := reads_done_iff.1 h
    exact .inl ⟨rfl, rfl⟩

/-- An operand that is built on a callable, and begins with a name, was read from the parts of the
callable. -/
theorem readOperand_callable_cases {word : String} (hword : IsIdentifier word)
    (h : (readOperand (.ofWord [] word :: ts)).Reads t rest)
    (hbase : t.base = .callable name params returns) :
    ∃ bracket us us₁ us₂ ws closing, ts = bracket :: us ∧
      CallableParts params returns us us₁ us₂ ws closing ∧
      (readSuffixes (.callable name params returns) ws).Reads t rest := by
  rw [readOperand] at h
  obtain ⟨atom, ws, -, hatom, hsuffixes⟩ := h.steps
  rw [readAtom] at hatom
  simp only [kind_ofWord hword []] at hatom
  have hsame := (readSuffixes_cases hsuffixes).2.1.symm.trans hbase
  obtain ⟨hatombase, hatomcallable⟩ |
      ⟨bracket, us, us₁, us₂, closing, params', returns', rfl, rfl, hparts⟩ :=
    readNamed_cases hatom.of_behind
  · rw [hatombase] at hsame
    rw [hsame] at hatomcallable
    cases hatomcallable
  · obtain ⟨-, rfl, rfl⟩ := TypeExpr.callable.inj hsame
    exact ⟨bracket, us, us₁, us₂, ws, closing, rfl, hparts, hsame ▸ hsuffixes⟩

/-- What a callable returns is `mixed` if it is left out, and takes all suffixes if it is not. -/
theorem readReturns_cases (h : (readReturns ts).Reads t rest) :
    (t = .identifier "mixed" ∧ rest = ts ∧ ts.head?.any (isKind .colon) = false) ∨
      (ts.head?.any (isKind .colon) = true ∧ rest.head?.any (isTight .squareOpen) = false) := by
  rw [readReturns] at h
  obtain ⟨colon, us, -, rfl, hcolon, h⟩ | ⟨hno, h⟩ := h.branches
  · refine .inr ⟨hcolon, ?_⟩
    obtain ⟨question, vs, -, -, -, h⟩ | ⟨-, h⟩ := h.branches
    · obtain ⟨inner, hinner, -⟩ := reads_map_iff.1 h
      exact not_square_of_readOperand hinner
    · exact not_square_of_readOperand h
  · obtain ⟨rfl, rfl⟩ := reads_done_iff.1 h
    exact .inl ⟨rfl, rfl, hno⟩

/-- The text of a callable does not end with the parenthesis behind its parameters. -/
theorem not_parenClose_last (ls : List Lexeme) {closing : Lexeme} (h : t.IsReadBack)
    (ht : t = .callable name params (.identifier "mixed"))
    (hlast : lexemes t.text.toList = ls ++ [closing])
    (hclosing : isKind .parenClose closing = true) :
    False := by
  obtain ⟨ls', l, hls, hl⟩ := exists_last_lexeme [] h.endsTightly
  obtain rfl : closing = l := by
    have hsame := hlast.symm.trans hls
    exact List.singleton_inj.1 (List.append_inj_right' hsame rfl)
  have hmem : closing ∈ lexemesFrom [] t.text.toList := by
    rw [hls]
    exact List.mem_append_right _ (List.mem_singleton_self _)
  obtain ⟨c, cs, n, -, hmunch, hchars, -⟩ := exists_munch_of_mem_lexemesFrom hmem
  rw [kind_of_isKind hclosing] at hmunch
  obtain ⟨rfl, rfl⟩ := munch_eq_parenClose hmunch
  have htext : t.text.toList.getLast? = some 'd' := by
    have hmixed : (TypeExpr.identifier "mixed").operandText.toList = ['m', 'i', 'x', 'e', 'd'] := by
      simp [TypeExpr.operandText, TypeExpr.parenthesize, TypeExpr.isCompound, TypeExpr.text]
    rw [ht, TypeExpr.text, String.toList_append, hmixed]
    exact List.getLast?_append_of_ne_nil _ (List.cons_ne_nil _ _)
  rw [htext, hchars] at hl
  cases hl

theorem lexemes_callable (hname : IsIdentifier name) (params : List (CallableParam TypeExpr))
    (returns : TypeExpr) : ∃ ls,
    lexemes (TypeExpr.callable name params returns).text.toList = .ofWord [] name :: ls := by
  have htext : ∃ tail, (TypeExpr.callable name params returns).text.toList
      = name.toList ++ '(' :: tail := by
    simp [TypeExpr.text]
  obtain ⟨tail, htext⟩ := htext
  exact ⟨_, by rw [htext]; exact lexemes_word hname rfl (apart_cons rfl _)⟩

/-- **A suffix behind a callable belongs to what it returns**: the callable is not read as what has
the suffix. -/
theorem not_outcome_array_callable (h : t.IsReadBack) (hcallable : t.isCallable = true) :
    (readType (lexemes (TypeExpr.array t).text.toList)).outcome ≠ .ok (.array t) := by
  obtain ⟨name, params, returns, rfl⟩ :
      ∃ name params returns, t = .callable name params returns := by
    cases t with
    | callable name params returns => exact ⟨name, params, returns, rfl⟩
    | _ => cases hcallable
  intro harray
  have hname : IsIdentifier name := by
    cases h.wellSpelled with
    | intro here within => exact here.1
  -- the callable is read from its text alone, and would be read in front of the brackets
  obtain ⟨ls, hls⟩ := lexemes_callable hname params returns
  have halone := h
  rw [TypeExpr.IsReadBack, hls] at halone
  obtain ⟨bracket, us, us₁, us₂, ws, closing, rfl, hparts, hsuffixes⟩ :=
    readOperand_callable_cases hname (readOperand_of_readType halone rfl rfl) rfl
  obtain rfl : ws = [] := by
    obtain ⟨-, -, ⟨-, hws⟩ | ⟨hsuffixed, -⟩⟩ := readSuffixes_cases hsuffixes
    · exact hws.symm
    · exact absurd rfl hsuffixed
  have hfront : lexemes (TypeExpr.array (.callable name params returns)).text.toList
      = .ofWord [] name :: bracket :: (us ++ lexemes ['[', ']']) := by
    have happend := h.lexemes_append ['[', ']'] (apart_cons rfl _) (by simp)
    rw [hls] at happend
    exact (congrArg lexemes toList_text_array).trans happend
  rw [hfront] at harray
  obtain ⟨bracket', us', us₁', us₂', ws', closing', hus, hparts', hsuffixes'⟩ :=
    readOperand_callable_cases hname (readOperand_of_readType ⟨harray, rfl⟩ rfl rfl)
      (rfl : (TypeExpr.array (.callable name params returns)).base = .callable name params returns)
  obtain ⟨rfl, rfl⟩ := List.cons.inj hus
  -- the parameters and their parenthesis are those of the callable alone
  have hparams :=
    readParams_append adjoins_brackets hparts.params (next_of_expectKind hparts.closing)
  obtain ⟨-, rfl⟩ := hparams.unique hparts'.params
  obtain ⟨-, rfl⟩ := (hparts.closing.expect_append (lexemes ['[', ']'])).unique hparts'.closing
  have hsquare := ((readSuffixes_cases hsuffixes').2.2.resolve_left nofun).2
  obtain ⟨rfl, rfl, -⟩ | ⟨hcolon, -⟩ := readReturns_cases hparts.returns
  · obtain ⟨closing, us₂, -, rfl, hclosing, hdone⟩ | ⟨-, hfail⟩ :=
      hparts.closing.branches
    · obtain ⟨rfl, rfl⟩ := reads_done_iff.1 hdone
      obtain ⟨before, rfl⟩ := hparts.params.suffix
      exact not_parenClose_last (.ofWord [] name :: bracket :: before) h rfl hls hclosing
    · exact not_reads_fail _ hfail
  · obtain ⟨-, -, hno⟩ | ⟨-, hno⟩ := readReturns_cases hparts'.returns
    · rw [next_append hcolon] at hno
      cases hno
    · rw [hsquare] at hno
      cases hno

end Callables

/-! ### All operands -/

/-- **Which operands keep their grouping**: a type that is read back from its own text is read back
as an operand of a `?`, and as a member of a union on either side, just if it is not written with
`?` itself; and as what is in front of a `[]`, just if it is no callable either. -/
theorem operand_isReadBack_iff (t : TypeExpr) (h : t.IsReadBack) :
    (TypeExpr.array t).ReadBackIff (t.isNullable = false ∧ t.isCallable = false) ∧
      (TypeExpr.nullable t).ReadBackIff (t.isNullable = false) ∧
      (TypeExpr.union [t, .identifier "int"]).ReadBackIff (t.isNullable = false) ∧
      (TypeExpr.union [.identifier "int", t]).ReadBackIff (t.isNullable = false) := by
  refine ⟨⟨fun hp => isReadBack_array h hp.1 hp.2, fun hread => ⟨?nullable, ?callable⟩⟩,
    ⟨isReadBack_nullable h, fun hread => ?twice⟩,
    ⟨isReadBack_union_left h, fun hread => ?left⟩,
    ⟨isReadBack_union_right h, fun hread => ?right⟩⟩
  all_goals
    rw [← Bool.not_eq_true]
    intro hp
  case nullable =>
    rw [toList_text_array] at hread
    cases isNullable_of_front hp hread
  case callable => exact not_outcome_array_callable h hp hread
  case twice => exact not_outcome_nullable hp _ hread
  case left =>
    rw [toList_text_union_left] at hread
    cases isNullable_of_front hp hread
  case right => exact not_outcome_union_right hp hread

/-- A union with a callable in it keeps its grouping everywhere, by its parentheses. -/
theorem operand_isReadBack_of_union :
    (TypeExpr.union
        [.callable "callable" [] (.identifier "int"), .identifier "null"]).IsReadBack ∧
      (readType (lexemes "(callable(): int|null)[]".toList)).Reads
        (.array (.union [.callable "callable" [] (.identifier "int"), .identifier "null"])) [] := by
  have hunion :
      (TypeExpr.union [.callable "callable" [] (.identifier "int"),
        .identifier "null"]).IsReadBack := by
    rw [TypeExpr.IsReadBack, show TypeExpr.text _ = "callable(): int|null" by decide +kernel]
    exact ⟨by with_unfolding_all rfl, by with_unfolding_all rfl⟩
  have harray := (operand_isReadBack_iff _ hunion).1.isReadBack ⟨rfl, rfl⟩
  rw [TypeExpr.IsReadBack,
    show TypeExpr.text _ = "(callable(): int|null)[]" by decide +kernel] at harray
  exact ⟨hunion, harray⟩

/-- **An array that loses its grouping**: the text of an array of what is nullable is that of
something nullable, an array. -/
theorem array_of_nullable_text :
    (readType (lexemes "?int".toList)).outcome = .ok (.nullable (.identifier "int")) ∧
      (TypeExpr.array (.nullable (.identifier "int"))).text = "?int[]" ∧
      (readType (lexemes "?int[]".toList)).outcome
        = .ok (.nullable (.array (.identifier "int"))) := by
  refine ⟨by with_unfolding_all rfl, by decide +kernel, by with_unfolding_all rfl⟩

end PhpHandbook.DocBlock
