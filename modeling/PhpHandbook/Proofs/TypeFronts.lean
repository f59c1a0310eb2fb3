import PhpHandbook.Proofs.TypePrinting

/-!
# How printed types begin, and what stands behind them

The readers of types look at the next one or two lexemes to decide how to go on.  So reading back a
printed type rests on how its parts begin, and on what stands behind them.

A printed type begins with a word, a number, a quoted text, `$this`, an opening parenthesis or a
`?`.  Behind it stands a mark or a word that it cannot go on with: at least none that opens a list
or a constant (`Stops`), or also no bracket of a suffix (`Ends`), or also nothing that joins types
(`Closes`).

## Main definitions

* `Begins`: how a printed type begins.
* `Unkeyed`: lexemes that do not begin with a key.
* `Stops`, `Ends`, `Closes`: what may stand behind a name, an operand and a type.

## Main statements

* `TypeExpr.beginsWith_printed`, `TypeExpr.unkeyed_printed`: how a printed type begins.
-/

namespace PhpHandbook.DocBlock

open Reading

/-! ### What stands behind -/

/-- Whether a name can go on with a lexeme: with arguments, entries, parameters or a constant. -/
def goesOn (t : Lexeme) : Bool :=
  t.isAdjacent &&
    [LexemeKind.doubleColon, .angleOpen, .curlyOpen, .parenOpen, .star].contains t.kind

/-- No **name** goes on with these lexemes. -/
def Stops (rest : List Lexeme) : Prop :=
  rest.head?.any goesOn = false

/-- No **operand** goes on with these lexemes. -/
structure Ends (rest : List Lexeme) : Prop where
  stops : Stops rest
  square : rest.head?.any (isTight .squareOpen) = false

/-- No **type** goes on with these lexemes. -/
structure Closes (rest : List Lexeme) : Prop extends Ends rest where
  pipe : rest.head?.any (isKind .pipe) = false
  ampersand : joinsTypes rest = false
  word : rest.head?.any (Lexeme.isWord "is") = false

theorem Stops.head {rest : List Lexeme} (h : Stops rest) {p : Lexeme → Bool}
    (hp : ∀ t, p t = true → goesOn t = true) : rest.head?.any p = false := by
  cases rest with
  | nil => rfl
  | cons t us =>
    by_contra hany
    have ht : goesOn t = true := hp t (by simpa using hany)
    rw [Stops, List.head?_cons, Option.any_some, ht] at h
    cases h

theorem goesOn_of_isTight {kind : LexemeKind}
    (hkind :
      [LexemeKind.doubleColon, .angleOpen, .curlyOpen, .parenOpen, .star].contains kind = true)
    (t : Lexeme) (ht : isTight kind t = true) : goesOn t = true := by
  rw [isTight, Bool.and_eq_true, beq_iff_eq] at ht
  rw [goesOn, ht.1, ht.2, Bool.true_and]
  exact hkind

/-- Marks that no type goes on with. -/
def LexemeKind.closesType (kind : LexemeKind) : Bool :=
  [LexemeKind.angleClose, .parenClose, .squareClose, .curlyClose, .comma, .question,
    .colon, .equals,
    .ellipsis].contains kind

theorem joinsTypes_cons {t : Lexeme} (ht : isKind .ampersand t = false) (us : List Lexeme) :
    joinsTypes (t :: us) = false := by
  cases us with
  | nil => rfl
  | cons u us => rw [joinsTypes, ht, Bool.false_and]

theorem closes_nil : Closes [] :=
  ⟨⟨rfl, rfl⟩, rfl, rfl, rfl⟩

theorem closes_ofMark {kind : LexemeKind} (hkind : kind.closesType = true) (gap : List Char)
    (rest : List Lexeme) : Closes (.ofMark gap kind :: rest) := by
  have hfree : ∀ {p : Lexeme → Bool}, p (.ofMark gap kind) = false →
      (Lexeme.ofMark gap kind :: rest).head?.any p = false :=
    fun hp => by simpa using hp
  cases kind <;> first
    | exact absurd hkind Bool.false_ne_true
    | exact ⟨⟨hfree (Bool.and_false _), hfree rfl⟩, hfree rfl, joinsTypes_cons rfl rest,
        hfree rfl⟩

theorem ends_pipe (rest : List Lexeme) : Ends (.ofMark [] .pipe :: rest) :=
  ⟨rfl, rfl⟩

theorem ends_ampersand (rest : List Lexeme) : Ends (.ofMark [] .ampersand :: rest) :=
  ⟨rfl, rfl⟩

/-! ### Words -/

@[simp]
theorem Lexeme.kind_ofMark (gap : List Char) (kind : LexemeKind) :
    (Lexeme.ofMark gap kind).kind = kind :=
  rfl

@[simp]
theorem Lexeme.chars_ofWord (gap : List Char) (word : String) :
    (Lexeme.ofWord gap word).chars = word.toList :=
  rfl

@[simp]
theorem Lexeme.text_ofWord (gap : List Char) (word : String) :
    (Lexeme.ofWord gap word).text = word :=
  String.ofList_toList

theorem kind_ofWord {kind : LexemeKind} {word : String} (h : IsLexeme kind word.toList)
    (gap : List Char) : (Lexeme.ofWord gap word).kind = kind :=
  wordKind_of_isLexeme h

/-- A word is none of the marks. -/
theorem not_isKind_ofWord {kind mark : LexemeKind} {word : String}
    (hword : IsLexeme kind word.toList) (hkind : kind.isWritten = true)
    (hmark : mark.isWritten = false) (gap : List Char) :
    isKind mark (.ofWord gap word) = false := by
  rw [isKind, kind_ofWord hword gap, beq_eq_false_iff_ne]
  rintro rfl
  rw [hkind] at hmark
  cases hmark

/-- A word ends an operand. -/
theorem ends_ofWord {kind : LexemeKind} {word : String} (hword : IsLexeme kind word.toList)
    (hkind : kind.isWritten = true) (gap : List Char) (rest : List Lexeme) :
    Ends (.ofWord gap word :: rest) := by
  have hof := kind_ofWord hword gap
  constructor
  · rw [Stops, List.head?_cons, Option.any_some, goesOn, hof]
    cases kind <;> first
      | exact absurd hkind Bool.false_ne_true
      | exact Bool.and_false _
  · rw [List.head?_cons, Option.any_some, isTight, hof]
    cases kind <;> first
      | exact absurd hkind Bool.false_ne_true
      | rfl

theorem isWord_of_kind {l : Lexeme} (hl : l.kind ≠ .identifier) (word : String) :
    l.isWord word = false := by
  simp [Lexeme.isWord, hl]

/-- A variable ends a type. -/
theorem closes_variable {word : String} (hword : IsVariable word) (gap : List Char)
    (rest : List Lexeme) : Closes (.ofWord gap word :: rest) := by
  have hclose : ∀ {kind : LexemeKind}, IsLexeme kind word.toList → kind.isWritten = true →
      kind ≠ .identifier → Closes (.ofWord gap word :: rest) := by
    intro kind hlexeme hkind hname
    have hmark : ∀ {mark : LexemeKind}, mark.isWritten = false →
        isKind mark (.ofWord gap word) = false :=
      fun hmark => not_isKind_ofWord hlexeme hkind hmark gap
    have hother : (Lexeme.ofWord gap word).kind ≠ .identifier := by rwa [kind_ofWord hlexeme gap]
    exact ⟨ends_ofWord hlexeme hkind gap rest, hmark rfl, joinsTypes_cons (hmark rfl) rest,
      isWord_of_kind hother "is"⟩
  rcases hword with hword | hword
  · exact hclose hword rfl (by decide)
  · exact hclose hword rfl (by decide)

/-- A word is another one only up to capital and small letters. -/
theorem map_toLower_of_isWord {gap : List Char} {name word : String}
    (h : (Lexeme.ofWord gap name).isWord word = true) :
    name.map Char.toLower = word.map Char.toLower := by
  simp only [Lexeme.isWord, Lexeme.ofWord, Bool.and_eq_true, beq_iff_eq] at h
  rw [← String.toList_inj, String.toList_map, String.toList_map, h.2]

theorem isWord_of_not_isReserved {name word : String} (hname : isReserved name = false)
    (hword : isReserved word = true) (gap : List Char) :
    (Lexeme.ofWord gap name).isWord word = false := by
  by_contra h
  have hsame := map_toLower_of_isWord (by simpa using h)
  rw [isReserved, hsame] at hname
  rw [isReserved, hname] at hword
  cases hword

theorem not_isReserved_of_isShapeName {name : String}
    (h : isShapeName (name.map Char.toLower) = true) : isReserved name = false := by
  simp only [isShapeName, List.contains_eq_mem, decide_eq_true_eq, List.mem_cons, List.not_mem_nil,
    or_false] at h
  rw [isReserved]
  rcases h with h | h | h | h <;> rw [h] <;> decide

theorem not_isReserved_of_isCallableName {name : String}
    (h : isCallableName (name.map Char.toLower) = true) : isReserved name = false := by
  by_contra hreserved
  simp only [isReserved, Bool.not_eq_false, List.contains_eq_mem, decide_eq_true_eq, List.mem_cons,
    List.not_mem_nil, or_false] at hreserved
  rcases hreserved with hname | hname | hname <;> rw [hname] at h <;> exact absurd h (by decide)

/-! ### How types begin -/

/-- The kinds of lexemes that a printed type begins with. -/
def LexemeKind.isFront (kind : LexemeKind) : Bool :=
  [LexemeKind.identifier, .integer, .decimal, .quoted, .this, .parenOpen, .question].contains kind

/-- **How a printed type begins**: with a `?` only if it is nullable, with `$this` only if it is
built on it, and never with a word that is read as part of what stands around it. -/
structure Begins (isNullable isOnThis : Bool) (l : Lexeme) : Prop where
  kind : l.kind.isFront = true
  question : l.kind = .question → isNullable = true
  this : l.kind = .this → isOnThis = true
  word : ∀ word, isReserved word = true → l.isWord word = false

/-- A list of lexemes whose first one begins a type. -/
def BeginsWith (isNullable isOnThis : Bool) (ls : List Lexeme) : Prop :=
  ∃ l rest, ls = l :: rest ∧ Begins isNullable isOnThis l

section Begins

variable {isNullable isOnThis : Bool} {ls : List Lexeme} {gap : List Char} {word : String}

theorem BeginsWith.append (h : BeginsWith isNullable isOnThis ls) (rest : List Lexeme) :
    BeginsWith isNullable isOnThis (ls ++ rest) := by
  obtain ⟨l, more, rfl, hl⟩ := h
  exact ⟨l, more ++ rest, rfl, hl⟩

theorem BeginsWith.of_this (h : BeginsWith isNullable isOnThis ls) :
    BeginsWith isNullable true ls := by
  obtain ⟨l, more, rfl, hl⟩ := h
  exact ⟨l, more, rfl, hl.kind, hl.question, fun _ => rfl, hl.word⟩

/-- What follows from how a type begins for the first of some lexemes. -/
theorem BeginsWith.head? (h : BeginsWith isNullable isOnThis ls) {p : Lexeme → Bool}
    (hp : ∀ l, Begins isNullable isOnThis l → p l = false) : ls.head?.any p = false := by
  obtain ⟨l, more, rfl, hl⟩ := h
  exact hp l hl

/-- A type does not begin with one of the other marks. -/
theorem BeginsWith.not_isKind (h : BeginsWith isNullable isOnThis ls) (kind : LexemeKind)
    (hkind : kind.isFront = false) : ls.head?.any (isKind kind) = false := by
  refine h.head? fun l hl => ?_
  by_contra hl'
  have hsame : l.kind = kind := by simpa [isKind] using hl'
  rw [← hsame, hl.kind] at hkind
  cases hkind

theorem BeginsWith.not_question (h : BeginsWith false isOnThis ls) :
    ls.head?.any (isKind .question) = false := by
  refine h.head? fun l hl => ?_
  by_contra hl'
  cases hl.question (by simpa [isKind] using hl')

/-- An `&` joins types in front of what begins like a type, other than `$this`. -/
theorem BeginsWith.joinsTypes (h : BeginsWith isNullable false ls) (gap : List Char) :
    joinsTypes (.ofMark gap .ampersand :: ls) = true := by
  obtain ⟨l, more, rfl, hl⟩ := h
  -- of all that a type begins with, only `$this` is a variable
  have hthis : l.kind ≠ .this := fun h => by cases hl.this h
  have hfront := hl.kind
  have hother : (l.isVariable || isKind .ellipsis l) = false := by
    rw [Lexeme.isVariable, isKind]
    cases hkind : l.kind <;> rw [hkind] at hfront hthis <;> first
      | rfl
      | exact absurd rfl hthis
      | exact absurd hfront Bool.false_ne_true
  rw [DocBlock.joinsTypes, hother]
  rfl

theorem beginsWith_identifier (hname : IsIdentifier word) (hreserved : isReserved word = false)
    (rest : List Lexeme) : BeginsWith isNullable isOnThis (.ofWord gap word :: rest) := by
  have hkind := kind_ofWord hname gap
  refine ⟨_, rest, rfl, by rw [hkind]; rfl, fun h => ?_, fun h => ?_, fun other hother => ?_⟩
  · cases hkind.symm.trans h
  · cases hkind.symm.trans h
  · exact isWord_of_not_isReserved hreserved hother gap

theorem beginsWith_value {kind : LexemeKind} (hword : IsLexeme kind word.toList)
    (hkind : kind = .integer ∨ kind = .decimal ∨ kind = .quoted) (rest : List Lexeme) :
    BeginsWith isNullable isOnThis (.ofWord gap word :: rest) := by
  have hof := kind_ofWord hword gap
  refine ⟨_, rest, rfl, ?_, fun h => ?_, fun h => ?_,
    fun other hother => isWord_of_kind ?_ other⟩
  · rcases hkind with rfl | rfl | rfl <;> rw [hof] <;> rfl
  · rcases hkind with rfl | rfl | rfl <;> cases hof.symm.trans h
  · rcases hkind with rfl | rfl | rfl <;> cases hof.symm.trans h
  · rcases hkind with rfl | rfl | rfl <;> rw [hof] <;> decide

theorem beginsWith_this (rest : List Lexeme) :
    BeginsWith isNullable true (.ofWord gap "$this" :: rest) := by
  have hof := kind_ofWord TypeExpr.isLexeme_this gap
  refine ⟨_, rest, rfl, by rw [hof]; rfl, fun h => ?_, fun _ => rfl, fun other hother => ?_⟩
  · cases hof.symm.trans h
  · exact isWord_of_kind (by rw [hof]; decide) other

theorem beginsWith_parenOpen (rest : List Lexeme) :
    BeginsWith isNullable isOnThis (.ofMark gap .parenOpen :: rest) :=
  ⟨_, rest, rfl, rfl, fun h => (by cases h), fun h => (by cases h), fun _ _ => rfl⟩

theorem beginsWith_question (rest : List Lexeme) :
    BeginsWith true isOnThis (.ofMark gap .question :: rest) :=
  ⟨_, rest, rfl, rfl, fun _ => rfl, fun h => (by cases h), fun _ _ => rfl⟩

end Begins

namespace TypeExpr

/-- An operand begins like the type, or with a parenthesis. -/
theorem beginsWith_wrapped {t : TypeExpr}
    (h : ∀ gap, BeginsWith t.isNullable (t.isCompound || t.isOnThis) (t.printed gap))
    (gap : List Char) :
    BeginsWith t.isNullable t.isOnThis (wrapped t.isCompound t.printed gap) := by
  have hbegins := h gap
  unfold wrapped
  cases hcompound : t.isCompound with
  | true => exact beginsWith_parenOpen _
  | false =>
    rw [hcompound, Bool.false_or] at hbegins
    exact hbegins

/-- Operands with marks between them begin like the first of them. -/
theorem beginsWith_separated {mark : LexemeKind} {ts : List TypeExpr} (hlength : 2 ≤ ts.length)
    (h : ∀ t ∈ ts, t.isNullable = false ∧
      ∀ gap, BeginsWith t.isNullable (t.isCompound || t.isOnThis) (t.printed gap))
    (gap : List Char) :
    BeginsWith false true (separated mark [] (printedOperands ts) gap) := by
  match ts, hlength with
  | t :: u :: us, _ =>
    obtain ⟨hnullable, ht⟩ := h t List.mem_cons_self
    have hfirst := (beginsWith_wrapped ht gap).of_this
    rw [hnullable] at hfirst
    exact hfirst.append _

/-- **How a printed type begins.** -/
theorem beginsWith_printed {t : TypeExpr} (h : t.Readable)
    (gap : List Char) : BeginsWith t.isNullable (t.isCompound || t.isOnThis) (t.printed gap) := by
  induction h generalizing gap with
  | @intro t here within ih =>
    obtain ⟨hspelled, hclear⟩ := here
    cases t with
    | identifier name =>
      exact beginsWith_identifier hspelled (hclear.name name (List.mem_singleton_self _)) _
    | generic base args =>
      exact beginsWith_identifier hspelled.1 (hclear.name base (List.mem_singleton_self _)) _
    | union members =>
      exact beginsWith_separated hspelled (fun u hu => ⟨hclear.nullable u hu, ih u hu⟩) gap
    | intersection members =>
      exact beginsWith_separated hspelled (fun u hu => ⟨hclear.nullable u hu, ih u hu⟩) gap
    | nullable inner => exact beginsWith_question _
    | array inner =>
      have hinner := beginsWith_wrapped (ih inner (List.mem_singleton_self _)) gap
      rw [hclear.nullable inner (List.mem_singleton_self _)] at hinner
      exact hinner.append _
    | offset base key =>
      have hbase := beginsWith_wrapped (ih base List.mem_cons_self) gap
      rw [hclear.nullable base (List.mem_singleton_self _)] at hbase
      exact hbase.append _
    | arrayShape kind items isSealed =>
      exact beginsWith_identifier hspelled.1 (not_isReserved_of_isShapeName hspelled.2.1) _
    | objectShape items => exact beginsWith_identifier isIdentifier_object (by decide +kernel) _
    | literal value =>
      cases value with
      | integer text => exact beginsWith_value hspelled (.inl rfl) _
      | decimal text => exact beginsWith_value hspelled (.inr (.inl rfl)) _
      | string text =>
        exact beginsWith_value (isLexeme_string (hclear.string text rfl)) (.inr (.inr rfl)) _
      | classConstant className name =>
        exact beginsWith_identifier hspelled.1 (hclear.name className (List.mem_singleton_self _)) _
    | this => exact beginsWith_this _
    | conditional subject negated target yes no => exact beginsWith_parenOpen _
    | callable name params returns =>
      exact beginsWith_identifier hspelled.1 (not_isReserved_of_isCallableName hspelled.2.1) _

end TypeExpr

/-! ### Keys -/

/-- Whether a lexeme belongs to a key in front of it. -/
def isKeyMark (t : Lexeme) : Bool :=
  isKind .colon t || isKind .question t

/-- Lexemes **that do not begin with a key**. -/
def Unkeyed : List Lexeme → Prop
  | [] => True
  | t :: us =>
    (isKind .identifier t || isKind .integer t || isKind .quoted t) = false ∨
      us.head?.any isKeyMark = false

theorem shapeKey_of_unkeyed {ts : List Lexeme} (h : Unkeyed ts) :
    (shapeKey ts).Reads (none, false) ts := by
  unfold shapeKey
  split
  · next t us =>
    split
    · next hkind =>
      have hmark : us.head?.any isKeyMark = false := h.resolve_left (by simp [hkind])
      split
      · next u vs =>
        have hu : isKind .colon u = false ∧ isKind .question u = false := by
          simpa [isKeyMark] using hmark
        simp only [hu, Bool.false_and, Bool.false_eq_true, if_false]
        split
        · exact reads_done _
        · exact reads_done _
      · exact reads_done _
    · exact reads_done _
  · exact reads_done _

namespace TypeExpr

variable {t : TypeExpr}

theorem unkeyed_wrapped
    (h : ∀ gap rest, rest.head?.any isKeyMark = false → Unkeyed (t.printed gap ++ rest))
    (gap : List Char) {rest : List Lexeme} (hrest : rest.head?.any isKeyMark = false) :
    Unkeyed (wrapped t.isCompound t.printed gap ++ rest) := by
  unfold wrapped
  cases t.isCompound with
  | true => exact .inl rfl
  | false => exact h gap rest hrest

theorem unkeyed_separated {mark : LexemeKind} (hmark : isKeyMark (.ofMark [] mark) = false)
    {ts : List TypeExpr} (hlength : 2 ≤ ts.length)
    (h : ∀ t ∈ ts, ∀ gap rest, rest.head?.any isKeyMark = false →
      Unkeyed (t.printed gap ++ rest))
    (gap : List Char) (rest : List Lexeme) :
    Unkeyed (separated mark [] (printedOperands ts) gap ++ rest) := by
  match ts, hlength with
  | t :: u :: us, _ =>
    rw [printedOperands, printedOperands, separated, List.append_assoc]
    exact unkeyed_wrapped (h t List.mem_cons_self) gap hmark

/-- **A printed type does not begin with a key**, if no mark of a key stands behind it. -/
theorem unkeyed_printed (h : t.Readable) (gap : List Char)
    (rest : List Lexeme) (hrest : rest.head?.any isKeyMark = false) :
    Unkeyed (t.printed gap ++ rest) := by
  induction h generalizing gap rest with
  | @intro t here within ih =>
    obtain ⟨hspelled, hclear⟩ := here
    cases t with
    | identifier name => exact .inr hrest
    | generic base args => exact .inr rfl
    | union members => exact unkeyed_separated rfl hspelled ih gap rest
    | intersection members => exact unkeyed_separated rfl hspelled ih gap rest
    | nullable inner => exact .inl rfl
    | array inner =>
      rw [printed, List.append_assoc]
      exact unkeyed_wrapped (ih inner (List.mem_singleton_self _)) gap rfl
    | offset base key =>
      rw [printed, List.append_assoc]
      exact unkeyed_wrapped (ih base List.mem_cons_self) gap rfl
    | arrayShape kind items isSealed => exact .inr rfl
    | objectShape items => exact .inr rfl
    | literal value =>
      cases value with
      | integer text => exact .inr hrest
      | decimal text => exact .inr hrest
      | string text => exact .inr hrest
      | classConstant className name => exact .inr rfl
    | this => exact .inr hrest
    | conditional subject negated target yes no => exact .inl rfl
    | callable name params returns => exact .inr rfl

end TypeExpr

end PhpHandbook.DocBlock
