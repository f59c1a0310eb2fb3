import PhpHandbook.Proofs.TypeFronts

/-!
# The readers of types, step by step

What each reader of types reads from a list of lexemes, given what the readers that it calls read
from the parts of that list.  These are the rules that a printed type is read back by: each one says
which marks stand where, and which of them must not stand there.

## Main statements

* `readNamed_of_stops`, `readNamed_generic`, `readNamed_arrayShape`, `readNamed_callable`: what is
  read behind a name.
* `readType_joined`, `readType_abandoned`, `readType_conditional`, `readType_parameter`: what is
  read as a whole type.
-/

namespace PhpHandbook.DocBlock

open Reading

/-! ### Readers of one type -/

section Readers

variable {ts rest rest' : List Lexeme} {t u : TypeExpr} {gap : List Char} {name : String}

theorem readSuffixes_of_ends (h : Ends rest) (t : TypeExpr) :
    (readSuffixes t rest).Reads t rest := by
  rw [readSuffixes]
  exact reads_onNext_no h.square (reads_done t)

theorem readSuffixes_array (h : (readSuffixes (.array t) rest).Reads u rest') :
    (readSuffixes t (.ofMark [] .squareOpen :: .ofMark [] .squareClose :: rest)).Reads u rest' := by
  rw [readSuffixes]
  exact reads_onNext rfl (reads_onNext rfl h)

theorem readSuffixes_offset {key : TypeExpr} (hts : ts.head?.any (isKind .squareClose) = false)
    (hkey : (readType ts).Reads key (.ofMark [] .squareClose :: rest))
    (h : (readSuffixes (.offset t key) rest).Reads u rest') :
    (readSuffixes t (.ofMark [] .squareOpen :: ts)).Reads u rest' := by
  rw [readSuffixes]
  refine reads_onNext rfl (reads_onNext_no hts (hkey.andThen fun _ => ?_))
  exact (reads_expect rfl _ rest).andThen fun _ => h

theorem readOperand_of_atom (hatom : (readAtom ts).Reads t rest)
    (h : (readSuffixes t rest).Reads u rest') : (readOperand ts).Reads u rest' := by
  rw [readOperand]
  exact hatom.andThen fun _ => h

theorem readAtom_paren (h : (readType ts).Reads t (.ofMark [] .parenClose :: rest))
    (gap : List Char) :
    (readAtom (.ofMark gap .parenOpen :: ts)).Reads t rest := by
  rw [readAtom]
  exact (h.andThen fun _ => (reads_expect rfl _ rest).map rfl).behind _

theorem readAtom_named (hname : IsIdentifier name) (h : (readNamed name ts).Reads t rest)
    (gap : List Char) : (readAtom (.ofWord gap name :: ts)).Reads t rest := by
  rw [readAtom]
  simp only [kind_ofWord hname gap, Lexeme.text_ofWord]
  exact h.behind _

theorem readAtom_this (gap : List Char) (rest : List Lexeme) :
    (readAtom (.ofWord gap "$this" :: rest)).Reads .this rest := by
  rw [readAtom]
  simp only [kind_ofWord TypeExpr.isLexeme_this gap]
  exact (reads_done _).behind _

theorem readAtom_integer (h : IsLexeme .integer name.toList) (gap : List Char)
    (rest : List Lexeme) :
    (readAtom (.ofWord gap name :: rest)).Reads (.literal (.integer name)) rest := by
  rw [readAtom]
  simp only [kind_ofWord h gap, Lexeme.text_ofWord]
  exact (reads_done _).behind _

theorem readAtom_decimal (h : IsLexeme .decimal name.toList) (gap : List Char)
    (rest : List Lexeme) :
    (readAtom (.ofWord gap name :: rest)).Reads (.literal (.decimal name)) rest := by
  rw [readAtom]
  simp only [kind_ofWord h gap, Lexeme.text_ofWord]
  exact (reads_done _).behind _

theorem readAtom_string {value : String} (h : '\\' ∉ value.toList) (gap : List Char)
    (rest : List Lexeme) :
    (readAtom (.ofWord gap (Literal.string value).text :: rest)).Reads
    (.literal (.string value)) rest := by
  rw [readAtom]
  have hvalue : unquote (Literal.string value).text.toList = value :=
    (unquote_text_eq_iff value).2 fun hslash => h (hslash.subset List.mem_cons_self)
  simp only [kind_ofWord (isLexeme_string h) gap, Lexeme.chars_ofWord, hvalue]
  exact (reads_done _).behind _

/-! ### Readers behind a name -/

theorem readNamed_of_stops (h : Stops rest) (name : String) :
    (readNamed name rest).Reads (.identifier name) rest := by
  have hcurly : ∀ {b : Bool} (l : Lexeme), (isTight .curlyOpen l && b) = true →
      goesOn l = true :=
    fun l hl => goesOn_of_isTight rfl l (Bool.and_eq_true _ _ ▸ hl : _ ∧ _).1
  have hparen : ∀ {b : Bool} (l : Lexeme), (isTight .parenOpen l && b) = true →
      goesOn l = true :=
    fun l hl => goesOn_of_isTight rfl l (Bool.and_eq_true _ _ ▸ hl : _ ∧ _).1
  rw [readNamed]
  -- a name goes on with a constant, arguments, entries or parameters: none of them stands here
  refine reads_onNext_no (h.head (goesOn_of_isTight rfl)) ?_
  refine reads_onNext_no (h.head (goesOn_of_isTight rfl)) ?_
  refine reads_onNext_no (h.head hcurly) ?_
  exact reads_onNext_no (h.head hparen) (reads_done _)

theorem constantName_of_isConstant (h : IsConstant name) (hrest : Stops rest) :
    (constantName (lexemes name.toList ++ rest)).Reads name rest := by
  rcases spells_of_isConstant h with ⟨rfl, hspells⟩ |
    ⟨word, hword, ⟨rfl, hspells⟩ | ⟨rfl, hspells⟩⟩
  · rw [hspells.lexemes_eq]
    exact reads_onNext rfl (reads_done _)
  · rw [hspells.lexemes_eq]
    have hkind := kind_ofWord hword []
    refine reads_onNext_no ?_ (reads_onNext ?_ ?_)
    · simp [isKind, hkind]
    · simp [isKind, hkind]
    · exact (reads_skip_no (hrest.head (goesOn_of_isTight rfl))).map (Lexeme.text_ofWord [] name)
  · rw [hspells.lexemes_eq]
    have hkind := kind_ofWord hword []
    refine reads_onNext_no ?_ (reads_onNext ?_ ?_)
    · simp [isKind, hkind]
    · simp [isKind, hkind]
    · exact (reads_skip rfl rest).map (by simp)

theorem readNamed_constant {constant : String} (h : IsConstant constant) (hrest : Stops rest)
    (name : String) :
    (readNamed name (.ofMark [] .doubleColon :: (lexemes constant.toList ++ rest))).Reads
      (.literal (.classConstant name constant)) rest := by
  rw [readNamed]
  exact reads_onNext rfl ((constantName_of_isConstant h hrest).map rfl)

theorem readNamed_generic {args : List TypeExpr} (hargs : args ≠ [])
    (h : (readArgs ts).Reads args rest) (name : String) :
    (readNamed name (.ofMark [] .angleOpen :: ts)).Reads (.generic name args) rest := by
  rw [readNamed]
  refine reads_onNext_no rfl (reads_onNext rfl (h.andThen fun _ => ?_))
  rw [if_neg (by simpa using hargs)]
  exact reads_done _

theorem readNamed_arrayShape {items : List (ShapeItem TypeExpr)} {isSealed : Bool}
    (hname : isShapeName (name.map Char.toLower) = true)
    (h : (readItems ts).Reads (items, isSealed) rest) :
    (readNamed name (.ofMark [] .curlyOpen :: ts)).Reads
    (.arrayShape name items isSealed) rest := by
  have hobject : name.map Char.toLower ≠ "object" := by
    intro hobject
    rw [hobject] at hname
    exact absurd hname (by decide)
  rw [readNamed]
  refine reads_onNext_no rfl (reads_onNext_no rfl (reads_onNext ?_ (h.map ?_)))
  · rw [hname, Bool.or_true, Bool.and_true]
    rfl
  · simp [hobject]

theorem readNamed_objectShape {items : List (ShapeItem TypeExpr)} {isSealed : Bool}
    (h : (readItems ts).Reads (items, isSealed) rest) :
    (readNamed "object" (.ofMark [] .curlyOpen :: ts)).Reads (.objectShape items) rest := by
  have hobject : "object".map Char.toLower = "object" := by decide +kernel
  rw [readNamed, hobject]
  exact reads_onNext_no rfl (reads_onNext_no rfl (reads_onNext rfl (h.map rfl)))

theorem readNamed_callable {params : List (CallableParam TypeExpr)} {returns : TypeExpr}
    (hname : isCallableName (name.map Char.toLower) = true) {us : List Lexeme}
    (hparams : (readParams ts).Reads params (.ofMark [] .parenClose :: us))
    (hreturns : (readReturns us).Reads returns rest) :
    (readNamed name (.ofMark [] .parenOpen :: ts)).Reads (.callable name params returns) rest := by
  rw [readNamed]
  refine reads_onNext_no rfl (reads_onNext_no rfl (reads_onNext_no rfl (reads_onNext ?_ ?_)))
  · rw [hname, Bool.and_true]
    rfl
  · exact hparams.andThen fun _ => (reads_expect rfl _ us).andThen fun _ => hreturns.map rfl

/-! ### Readers of a whole type -/

/-- An operand begins neither with a `?` nor with a parameter that a conditional asks about. -/
theorem front_of_readOperand (h : (readOperand ts).Reads t rest) :
    startsParameterConditional ts = false ∧ ts.head?.any (isKind .question) = false := by
  rw [readOperand] at h
  obtain ⟨atom, us, -, hatom, -⟩ := h.steps
  cases ts with
  | nil => exact ⟨rfl, rfl⟩
  | cons l ls =>
    rw [readAtom] at hatom
    have hkind : l.kind ≠ .variableName ∧ l.kind ≠ .question := by
      constructor <;> intro hkind <;> simp only [hkind] at hatom <;> exact not_reads_fail _ hatom
    refine ⟨?_, by simpa [isKind] using hkind.2⟩
    cases ls with
    | nil => rfl
    | cons m ms => simp [startsParameterConditional, isKind, hkind.1]

theorem readType_nullable {l : Lexeme} (hl : isKind .question l = true)
    (h : (readOperand ts).Reads t rest) :
    (readType (l :: ts)).Reads (.nullable t) rest := by
  have hstarts : startsParameterConditional (l :: ts) = false := by
    rw [isKind, beq_iff_eq] at hl
    cases ts with
    | nil => rfl
    | cons u us => simp [startsParameterConditional, isKind, hl]
  rw [readType, hstarts, if_neg Bool.false_ne_true]
  exact reads_onNext hl (h.map rfl)

theorem not_readConditional {subject : Subject TypeExpr}
    (hword : ts.head?.any (Lexeme.isWord "is") = false) (u : TypeExpr) (rest : List Lexeme) :
    ¬ (readConditional subject ts).Reads u rest := by
  intro h
  rw [readConditional] at h
  obtain ⟨l, us, -, rfl, hl, -⟩ | ⟨-, h⟩ := h.branches
  · exact absurd (hl.symm.trans hword) (by decide)
  · exact not_reads_fail _ h

/-- An attempt at a conditional that comes to nothing leaves no trace: what is joined to the operand
is read from where the operand ended. -/
theorem readType_abandoned {us : List Lexeme} (hoperand : (readOperand ts).Reads t us)
    (hno : ∀ c vs, ¬ (readConditional (.type t) us).Reads c vs)
    (h : (readJoined t us).Reads u rest) :
    (readType ts).Reads u rest := by
  obtain ⟨hparameter, hquestion⟩ := front_of_readOperand hoperand
  have herror : (readConditional (.type t) us).outcome.isOk = false := by
    cases houtcome : (readConditional (.type t) us).outcome with
    | error e => rfl
    | ok c => exact absurd ⟨houtcome, rfl⟩ (hno c _)
  rw [readType, hparameter]
  refine reads_onNext_no hquestion (hoperand.andThen fun _ => ?_)
  cases us.head?.any (Lexeme.isWord "is") with
  | false => exact h
  | true =>
    simp only [if_true, Option.filter_some, herror, Bool.false_eq_true, if_false]
    exact h

theorem readType_joined {us : List Lexeme} (hoperand : (readOperand ts).Reads t us)
    (hword : us.head?.any (Lexeme.isWord "is") = false) (h : (readJoined t us).Reads u rest) :
    (readType ts).Reads u rest :=
  readType_abandoned hoperand (not_readConditional hword) h

theorem readType_conditional {us : List Lexeme} (hoperand : (readOperand ts).Reads t us)
    (hword : us.head?.any (Lexeme.isWord "is") = true)
    (h : (readConditional (.type t) us).Reads u rest) :
    (readType ts).Reads u rest := by
  obtain ⟨hparameter, hquestion⟩ := front_of_readOperand hoperand
  rw [readType, hparameter]
  refine reads_onNext_no hquestion (hoperand.andThen fun _ => ?_)
  -- the attempt at a conditional is kept, as it succeeds
  have hok : (readConditional (.type t) us).outcome.isOk = true := by
    rw [h.1]
    rfl
  simp only [hword, if_true, Option.filter_some, hok]
  exact h

theorem readType_parameter {l : Lexeme} (hstarts : startsParameterConditional (l :: ts) = true)
    (h : (readConditional (.parameter l.text) ts).Reads u rest) :
    (readType (l :: ts)).Reads u rest := by
  rw [readType, hstarts, if_pos rfl]
  exact reads_onNext rfl h

/-- A parameter in front of `is` is asked about. -/
theorem startsParameterConditional_ofWord (hname : IsLexeme .variableName name.toList)
    (hword : ts.head?.any (Lexeme.isWord "is") = true) (gap : List Char) :
    startsParameterConditional (.ofWord gap name :: ts) = true := by
  cases ts with
  | nil => cases hword
  | cons v vs =>
    have hkind := kind_ofWord hname gap
    simpa [startsParameterConditional, isKind, hkind] using hword

theorem readJoined_of_closes (h : Closes rest) (t : TypeExpr) :
    (readJoined t rest).Reads t rest := by
  rw [readJoined, h.pipe, h.ampersand]
  exact reads_done t

theorem readJoined_union {more : List TypeExpr}
    (h : (readUnion (.ofMark [] .pipe :: ts)).Reads more rest) (t : TypeExpr) :
    (readJoined t (.ofMark [] .pipe :: ts)).Reads (.union (t :: more)) rest := by
  rw [readJoined]
  exact h.map rfl

theorem readJoined_intersection {more : List TypeExpr}
    (hjoins : joinsTypes (.ofMark [] .ampersand :: ts) = true)
    (h : (readIntersection (.ofMark [] .ampersand :: ts)).Reads more rest) (t : TypeExpr) :
    (readJoined t (.ofMark [] .ampersand :: ts)).Reads (.intersection (t :: more)) rest := by
  rw [readJoined, hjoins]
  exact h.map rfl

/-- A type that is an operand is read as a type. -/
theorem readType_of_operand (hoperand : (readOperand ts).Reads t rest) (hrest : Closes rest) :
    (readType ts).Reads t rest :=
  readType_joined hoperand hrest.word (readJoined_of_closes hrest t)

end Readers

end PhpHandbook.DocBlock
