import Mathlib.Data.List.Forall2
import PhpHandbook.Proofs.QuotedTexts
import PhpHandbook.Proofs.TypeSpelling

/-!
# The lexemes of a printed type

A type is printed as a text.  Here it is printed a second time, as the lexemes that this text
consists of: reading the text gives these lexemes back, so whatever is read from the text is read
from them.

The first lexeme of a type may stand behind a gap, which depends on where the type stands.  So a
type is printed to a function of that gap.

## Main definitions

* `TypeExpr.Unambiguous`: what keeps the printed form of a type apart from that of other types.
* `TypeExpr.printed`: the lexemes of a printed type.
* `Prints`: lexemes that make up a text and fit in front of what stands apart.

## Main statements

* `TypeExpr.prints_text`: the lexemes of a printed type make up its text.
* `TypeExpr.lexemes_text`: the text is read back as these lexemes.
-/

namespace PhpHandbook.DocBlock

/-! ### Types that can be told apart -/

/-- Words that are read as part of what stands around a type. -/
def isReserved (name : String) : Bool :=
  ["covariant", "contravariant", "not"].contains (name.map Char.toLower)

namespace TypeExpr

@[simp]
def isNullable : TypeExpr → Bool
  | .nullable _ => true
  | _ => false

@[simp]
def isCallable : TypeExpr → Bool
  | .callable _ _ _ => true
  | _ => false

/-- Whether the type is a union or an intersection. -/
@[simp]
def isJoined : TypeExpr → Bool
  | .union _ | .intersection _ => true
  | _ => false

/-- Whether the type is `$this`, or an array or offset type built on it. -/
def isOnThis : TypeExpr → Bool
  | .this => true
  | .array inner => inner.isOnThis
  | .offset base _ => base.isOnThis
  | _ => false

/-- The type in front of a `[]` or `[K]`. -/
@[simp]
def suffixed : TypeExpr → List TypeExpr
  | .array inner => [inner]
  | .offset base _ => [base]
  | _ => []

/-- The type that a conditional asks about. -/
@[simp]
def subjects : TypeExpr → List TypeExpr
  | .conditional subject _ _ _ _ => subject.types
  | _ => []

/-- The parts of a type where none is read with a `?` in front: members, what is nullable itself,
what has a suffix, and what a conditional asks about. -/
@[simp]
def operandParts : TypeExpr → List TypeExpr
  | .union members | .intersection members => members
  | .nullable inner => [inner]
  | t => t.suffixed ++ t.subjects

/-- The members of an intersection behind an `&`. -/
@[simp]
def joined : TypeExpr → List TypeExpr
  | .intersection members => members.tail
  | _ => []

/-- The names at the front of a type that are not fixed by the grammar. -/
@[simp]
def names : TypeExpr → List String
  | .identifier name => [name]
  | .generic base _ => [base]
  | .literal (.classConstant className _) => [className]
  | _ => []

/-- **What keeps the printed form of a type apart** from that of other types, at one place of it. -/
structure Unambiguous (t : TypeExpr) : Prop where
  /-- No `?` where none is read. -/
  nullable : ∀ u ∈ t.operandParts, u.isNullable = false
  /-- A suffix behind a callable would go to what it returns. -/
  callable : ∀ u ∈ t.suffixed, u.isCallable = false
  /-- Only the last member would be asked about. -/
  subject : ∀ u ∈ t.subjects, u.isJoined = false
  /-- An `&` in front of a variable marks a parameter. -/
  joined : ∀ u ∈ t.joined, u.isOnThis = false
  /-- Backslashes are not escaped. -/
  string : ∀ value, t = .literal (.string value) → '\\' ∉ value.toList
  /-- Some words are read as part of what stands around a type. -/
  name : ∀ name ∈ t.names, isReserved name = false
  /-- An `&` without a parameter behind it joins types. -/
  param : ∀ name params returns, t = .callable name params returns →
    ∀ p ∈ params, p.byRef = true → p.variadic = true ∨ p.name.isSome = true

/-- A type that is spelled with lexemes and kept apart from others everywhere. -/
abbrev Readable (t : TypeExpr) : Prop :=
  t.Everywhere fun u => u.Spelled ∧ u.Unambiguous

end TypeExpr

/-! ### Printing lexemes -/

/-- The text of a mark. -/
def LexemeKind.mark : LexemeKind → List Char
  | .angleOpen => ['<'] | .angleClose => ['>'] | .parenOpen => ['('] | .parenClose => [')']
  | .squareOpen => ['['] | .squareClose => [']'] | .curlyOpen => ['{'] | .curlyClose => ['}']
  | .comma => [','] | .pipe => ['|'] | .ampersand => ['&'] | .question => ['?']
  | .doubleColon => [':', ':'] | .colon => [':'] | .equals => ['='] | .ellipsis => ['.', '.', '.']
  | .star => ['*'] | .bang => ['!']
  | .this | .variableName | .identifier | .integer | .decimal | .quoted | .other => []

/-- Marks that end by themselves: a colon could go on. -/
def LexemeKind.isClosed (kind : LexemeKind) : Bool :=
  kind != .colon && !kind.mark.isEmpty

/-- Marks that end by themselves and end the word in front of them. -/
def LexemeKind.isBracket (kind : LexemeKind) : Bool :=
  kind.isClosed && kind.mark.head?.all fun c => !extendsWord c

/-- The kind of the lexeme at the front of a text. -/
def wordKind : List Char → LexemeKind
  | [] => .other
  | c :: cs => (munch c cs).1

namespace Lexeme

/-- A mark behind a gap. -/
def ofMark (gap : List Char) (kind : LexemeKind) : Lexeme :=
  ⟨gap, kind, kind.mark⟩

/-- A word, a number or a quoted text behind a gap. -/
def ofWord (gap : List Char) (text : String) : Lexeme :=
  ⟨gap, wordKind text.toList, text.toList⟩

end Lexeme

/-- What is printed behind a gap. -/
abbrev Printer : Type :=
  List Char → List Lexeme

/-- Several printers with marks between them; the later ones stand behind the gap `later`. -/
def separated (mark : LexemeKind) (later : List Char) : List Printer → Printer
  | [] => fun _ => []
  | [part] => part
  | part :: next :: parts => fun gap =>
    part gap ++ .ofMark [] mark :: separated mark later (next :: parts) later

theorem separated_append (mark : LexemeKind) (later gap : List Char) (part next : Printer)
    (parts : List Printer) (rest : List Lexeme) :
    separated mark later (part :: next :: parts) gap ++ rest
      = part gap ++ .ofMark [] mark :: (separated mark later (next :: parts) later ++ rest) := by
  rw [separated, List.append_assoc, List.cons_append]

/-- A printer in parentheses, if asked for. -/
def wrapped (wrap : Bool) (inner : Printer) : Printer := fun gap =>
  if wrap then .ofMark gap .parenOpen :: (inner [] ++ [.ofMark [] .parenClose]) else inner gap

/-- The lexemes of a literal. -/
def Literal.printed : Literal → Printer
  | .integer text | .decimal text => fun gap => [.ofWord gap text]
  | .string value => fun gap => [.ofWord gap (Literal.string value).text]
  | .classConstant className name => fun gap =>
    .ofWord gap className :: .ofMark [] .doubleColon :: lexemes name.toList

namespace TypeExpr

/-- The lexemes behind the type of a parameter; a blank stands in front of the first of `&`, `...`
and the name. -/
def printedTail (byRef variadic : Bool) (name : Option String) (isOptional : Bool) : List Lexeme :=
  (if byRef then [.ofMark [' '] .ampersand] else [])
    ++ ((if variadic then [.ofMark (if byRef then [] else [' ']) .ellipsis] else [])
      ++ (name.toList.map (.ofWord (if byRef || variadic then [] else [' ']))
        ++ if isOptional then [.ofMark [] .equals] else []))

/-- A value behind its key. -/
def printedEntry (key : Option String) (isOptional : Bool) (value : Printer) : Printer :=
  match key with
  | none => value
  | some key => fun gap =>
    .ofWord gap key :: ((if isOptional then [.ofMark [] .question] else [])
      ++ .ofMark [] .colon :: value [' '])

/-- The mark behind the entries of a shape that is not sealed. -/
def printedDots (isSealed : Bool) : List Printer :=
  if isSealed then [] else [fun gap => [.ofMark gap .ellipsis]]

mutual

/-- **The lexemes of a printed type.** -/
def printed : TypeExpr → Printer
  | .identifier name => fun gap => [.ofWord gap name]
  | .generic base args => fun gap =>
    .ofWord gap base :: .ofMark [] .angleOpen
      :: (separated .comma [' '] (printedAll args) [] ++ [.ofMark [] .angleClose])
  | .union members => separated .pipe [] (printedOperands members)
  | .intersection members => separated .ampersand [] (printedOperands members)
  | .nullable inner => fun gap => .ofMark gap .question :: wrapped inner.isCompound inner.printed []
  | .array inner => fun gap =>
    wrapped inner.isCompound inner.printed gap ++ [.ofMark [] .squareOpen, .ofMark [] .squareClose]
  | .offset base key => fun gap =>
    wrapped base.isCompound base.printed gap
      ++ .ofMark [] .squareOpen :: (key.printed [] ++ [.ofMark [] .squareClose])
  | .arrayShape kind items isSealed => fun gap =>
    .ofWord gap kind :: .ofMark [] .curlyOpen
      :: (separated .comma [' '] (printedItems items ++ printedDots isSealed) []
        ++ [.ofMark [] .curlyClose])
  | .objectShape items => fun gap =>
    .ofWord gap "object" :: .ofMark [] .curlyOpen
      :: (separated .comma [' '] (printedItems items) [] ++ [.ofMark [] .curlyClose])
  | .literal value => value.printed
  | .this => fun gap => [.ofWord gap "$this"]
  | .conditional subject negated target yes no => fun gap =>
    .ofMark gap .parenOpen :: (printedSubject subject [] ++ .ofWord [' '] "is"
      :: ((if negated then [.ofWord [' '] "not"] else [])
        ++ (target.printed [' '] ++ .ofMark [' '] .question
          :: (yes.printed [' '] ++ .ofMark [' '] .colon
            :: (no.printed [' '] ++ [.ofMark [] .parenClose])))))
  | .callable name params returns => fun gap =>
    .ofWord gap name :: .ofMark [] .parenOpen
      :: (separated .comma [' '] (printedParams params) [] ++ .ofMark [] .parenClose
        :: .ofMark [] .colon :: wrapped returns.isCompound returns.printed [' '])

def printedAll : List TypeExpr → List Printer
  | [] => []
  | t :: ts => t.printed :: printedAll ts

def printedOperands : List TypeExpr → List Printer
  | [] => []
  | t :: ts => wrapped t.isCompound t.printed :: printedOperands ts

def printedItems : List (ShapeItem TypeExpr) → List Printer
  | [] => []
  | ⟨key, isOptional, value⟩ :: items =>
    printedEntry key isOptional value.printed :: printedItems items

def printedParams : List (CallableParam TypeExpr) → List Printer
  | [] => []
  | ⟨type, byRef, variadic, name, isOptional⟩ :: params =>
    (fun gap => type.printed gap ++ printedTail byRef variadic name isOptional) ::
      printedParams params

def printedSubject : Subject TypeExpr → Printer
  | .parameter name => fun gap => [.ofWord gap name]
  | .type type => type.printed

end

/-! ### Lists -/

theorem printedAll_eq (ts : List TypeExpr) : printedAll ts = ts.map printed := by
  induction ts with
  | nil => rfl
  | cons t ts ih => rw [printedAll, ih, List.map_cons]

theorem printedOperands_eq (ts : List TypeExpr) :
    printedOperands ts = ts.map fun t => wrapped t.isCompound t.printed := by
  induction ts with
  | nil => rfl
  | cons t ts ih => rw [printedOperands, ih, List.map_cons]

theorem printedItems_eq (items : List (ShapeItem TypeExpr)) :
    printedItems items
      = items.map fun item => printedEntry item.key item.isOptional item.value.printed := by
  induction items with
  | nil => rfl
  | cons item items ih => rw [printedItems, ih, List.map_cons]

theorem printedParams_eq (params : List (CallableParam TypeExpr)) :
    printedParams params = params.map fun param gap =>
      param.type.printed gap
        ++ printedTail param.byRef param.variadic param.name param.isOptional := by
  induction params with
  | nil => rfl
  | cons param params ih => rw [printedParams, ih, List.map_cons]

theorem texts_eq_map (ts : List TypeExpr) : texts ts = ts.map text := by
  induction ts with
  | nil => rfl
  | cons t ts ih => rw [texts, ih, List.map_cons]

theorem operands_eq_map (ts : List TypeExpr) :
    operands ts = ts.map fun t => parenthesize t.isCompound t.text := by
  induction ts with
  | nil => rfl
  | cons t ts ih => rw [operands, ih, List.map_cons]

theorem itemTexts_eq_map (items : List (ShapeItem TypeExpr)) :
    itemTexts items = items.map itemText := by
  induction items with
  | nil => rfl
  | cons item items ih => rw [itemTexts, ih, List.map_cons, itemText]

theorem paramTexts_eq_map (params : List (CallableParam TypeExpr)) :
    paramTexts params = params.map paramText := by
  induction params with
  | nil => rfl
  | cons param params ih => rw [paramTexts, ih, List.map_cons, paramText]

end TypeExpr

/-! ### Lexemes that make up a text -/

theorem Apart.append {cs ds : List Char} (hcs : Apart cs) (hds : Apart ds) : Apart (cs ++ ds) := by
  cases cs with
  | nil => exact hds
  | cons c cs => exact apart_cons (hcs c rfl) _

/-- A blank, or nothing. -/
def Blank (gap : List Char) : Prop :=
  ∀ c ∈ gap, isGap c = true

theorem blank_nil : Blank [] :=
  List.forall_mem_nil _

theorem blank_space : Blank [' '] := by
  intro c hc
  rw [List.mem_singleton.1 hc]
  rfl

theorem blank_if (present : Bool) : Blank (if present then [] else [' ']) := by
  cases present with
  | false => exact blank_space
  | true => exact blank_nil

/-- Lexemes **make up a text**, and fit in front of what stands apart. -/
def Spells (ls : List Lexeme) (text : List Char) : Prop :=
  spell ls = text ∧ ∀ rest, Fits rest → Apart (spell rest) → Fits (ls ++ rest)

/-- What is printed behind a gap **makes up a text** behind that gap. -/
def Prints (p : Printer) (text : List Char) : Prop :=
  ∀ gap, Blank gap → Spells (p gap) (gap ++ text)

theorem spells_nil : Spells [] [] :=
  ⟨rfl, fun _ hrest _ => hrest⟩

/-- Lexemes that make up a text are read back from it. -/
theorem Spells.lexemes_eq {ls : List Lexeme} {text : List Char} (h : Spells ls text) :
    lexemes text = ls := by
  have hfits := h.2 [] trivial apart_nil
  rw [List.append_nil] at hfits
  rw [← h.1, lexemes_spell hfits]

section Spells

variable {ls ms : List Lexeme} {gap text more : List Char}

theorem Spells.append (h : Spells ls text) (hmore : Spells ms more) (hapart : Apart more) :
    Spells (ls ++ ms) (text ++ more) := by
  refine ⟨by rw [spell_append, h.1, hmore.1], fun rest hrest happart => ?_⟩
  rw [List.append_assoc]
  refine h.2 _ (hmore.2 rest hrest happart) ?_
  rw [spell_append, hmore.1]
  exact hapart.append happart

theorem isClosed_of_isBracket {kind : LexemeKind} (h : kind.isBracket = true) :
    kind.isClosed = true := by
  rw [LexemeKind.isBracket, Bool.and_eq_true] at h
  exact h.1

theorem apart_mark {kind : LexemeKind} (h : kind.isBracket = true) (cs : List Char) :
    Apart (kind.mark ++ cs) := by
  simp only [LexemeKind.isBracket, LexemeKind.isClosed, Bool.and_eq_true] at h
  cases hmark : kind.mark with
  | nil => simp [hmark] at h
  | cons c ds =>
    rw [hmark] at h
    exact apart_cons (by simpa using h.2) _

/-- A closed mark ends by itself. -/
theorem Spells.mark (h : Spells ls text) (kind : LexemeKind) (hkind : kind.isClosed = true)
    (hgap : Blank gap) : Spells (.ofMark gap kind :: ls) (gap ++ kind.mark ++ text) := by
  refine ⟨by rw [spell_cons, h.1]; rfl,
    fun rest hrest happart => ⟨hgap, ?_, h.2 rest hrest happart⟩⟩
  cases kind <;> first
    | exact absurd hkind Bool.false_ne_true
    | exact ⟨_, _, rfl, rfl, by rw [munch.eq_def]; rfl⟩

/-- What may be left out in front of other lexemes. -/
theorem Spells.optional (h : Spells ls text) (hgap : Blank gap) (kind : LexemeKind)
    (hkind : kind.isClosed = true) (present : Bool) :
    Spells ((if present then [Lexeme.ofMark gap kind] else []) ++ ls)
      ((if present then gap ++ kind.mark else []) ++ text) := by
  cases present with
  | false => exact h
  | true => exact h.mark kind hkind hgap

/-- A colon ends in front of a blank. -/
theorem Spells.colon (h : Spells ls (' ' :: text)) (hgap : Blank gap) :
    Spells (.ofMark gap .colon :: ls) (gap ++ ':' :: ' ' :: text) := by
  refine ⟨by rw [spell_cons, h.1]; simp [Lexeme.ofMark, LexemeKind.mark],
    fun rest hrest happart => ?_⟩
  rw [List.cons_append]
  -- only a second colon could belong to the first
  refine ⟨hgap, ⟨':', [], rfl, rfl, ?_⟩, h.2 rest hrest happart⟩
  rw [spell_append, h.1]
  rfl

theorem wordKind_of_isLexeme {kind : LexemeKind} {cs : List Char} (h : IsLexeme kind cs) :
    wordKind cs = kind := by
  obtain ⟨c, ds, rfl, -, hmunch⟩ := h
  rw [List.append_nil] at hmunch
  rw [wordKind, hmunch]

/-- A word or a number ends in front of what stands apart. -/
theorem Spells.word (h : Spells ls text) {kind : LexemeKind} {word : String}
    (hword : IsLexeme kind word.toList) (hkind : kind.isWritten = true) (hgap : Blank gap)
    (hapart : Apart text) : Spells (.ofWord gap word :: ls) (gap ++ word.toList ++ text) := by
  refine ⟨by rw [spell_cons, h.1]; rfl, fun rest hrest happart => ?_⟩
  rw [List.cons_append]
  refine ⟨hgap, ?_, h.2 rest hrest happart⟩
  rw [Lexeme.ofWord, wordKind_of_isLexeme hword]
  refine hword.munches hkind (.inr ?_)
  rw [spell_append, h.1]
  exact hapart.append happart

theorem prints_ofWord {kind : LexemeKind} {word : String} (hword : IsLexeme kind word.toList)
    (hkind : kind.isWritten = true) : Prints (fun gap => [.ofWord gap word]) word.toList := by
  intro gap hgap
  simpa using spells_nil.word hword hkind hgap apart_nil

theorem Prints.wrapped {p : Printer} {text : String} (h : Prints p text.toList) (wrap : Bool) :
    Prints (wrapped wrap p) (TypeExpr.parenthesize wrap text).toList := by
  intro gap hgap
  cases wrap with
  | false => exact h gap hgap
  | true =>
    have hclose := spells_nil.mark .parenClose rfl blank_nil
    have hinner := (h [] blank_nil).append hclose (apart_cons rfl _)
    have hall := hinner.mark .parenOpen rfl hgap
    simpa [DocBlock.wrapped, TypeExpr.parenthesize, LexemeKind.mark] using hall

/-- Printers with a mark between them print the texts with the mark between them. -/
theorem prints_separated (mark : LexemeKind) (hmark : mark.isBracket = true) {later : List Char}
    (hlater : Blank later) {parts : List Printer} {texts : List (List Char)}
    (h : List.Forall₂ Prints parts texts) (hne : parts ≠ []) :
    Prints (separated mark later parts) ((mark.mark ++ later).intercalate texts) := by
  induction h with
  | nil => exact absurd rfl hne
  | @cons part text parts texts hpart hparts ih =>
    cases hparts with
    | nil => simpa [separated] using hpart
    | @cons next text' parts texts hnext hparts =>
      intro gap hgap
      have hmore := (ih (List.cons_ne_nil _ _) later hlater).mark mark (isClosed_of_isBracket hmark)
        blank_nil
      have hall := (hpart gap hgap).append hmore (apart_mark hmark _)
      rw [separated, List.intercalate_cons_cons]
      simpa using hall

/-- Printers with commas between them, right behind a mark. -/
theorem spells_listed {parts : List Printer} {texts : List String}
    (h : List.Forall₂ (fun part text => Prints part text.toList) parts texts) :
    Spells (separated .comma [' '] parts []) (", ".intercalate texts).toList := by
  cases h with
  | nil => exact spells_nil
  | cons hpart hparts =>
    have hall : List.Forall₂ Prints _ _ :=
      List.forall₂_map_right_iff.2 (List.Forall₂.cons hpart hparts)
    have hprints := prints_separated .comma rfl blank_space hall (List.cons_ne_nil _ _)
    rw [String.toList_intercalate]
    exact hprints [] blank_nil

end Spells

/-! ### Literals -/

/-- **The lexemes of a constant** behind `::`. -/
theorem spells_of_isConstant {name : String} (h : IsConstant name) :
    (name = "*" ∧ Spells [.ofMark [] .star] name.toList) ∨
      ∃ word, IsIdentifier word ∧
        ((name = word ∧ Spells [.ofWord [] word] name.toList) ∨
          (name = word ++ "*" ∧ Spells [.ofWord [] word, .ofMark [] .star] name.toList)) := by
  have hstar : Spells [.ofMark [] .star] ['*'] := spells_nil.mark .star rfl blank_nil
  rcases h with rfl | ⟨word, hword, rfl | rfl⟩
  · exact .inl ⟨rfl, hstar⟩
  · refine .inr ⟨name, hword, .inl ⟨rfl, ?_⟩⟩
    simpa using spells_nil.word hword rfl blank_nil apart_nil
  · refine .inr ⟨word, hword, .inr ⟨rfl, ?_⟩⟩
    simpa using hstar.word hword rfl blank_nil (apart_cons rfl _)

theorem spells_constant {name : String} (h : IsConstant name) :
    Spells (lexemes name.toList) name.toList := by
  rcases spells_of_isConstant h with ⟨-, hspells⟩ |
    ⟨word, -, ⟨-, hspells⟩ | ⟨-, hspells⟩⟩
  · rwa [hspells.lexemes_eq]
  · rwa [hspells.lexemes_eq]
  · rwa [hspells.lexemes_eq]

theorem Literal.prints_text {value : Literal} (h : value.Spelled)
    (hstring : ∀ text, value = .string text → '\\' ∉ text.toList) :
    Prints value.printed value.text.toList := by
  cases value with
  | integer text => exact prints_ofWord h rfl
  | decimal text => exact prints_ofWord h rfl
  | string text => exact prints_ofWord (isLexeme_string (hstring text rfl)) rfl
  | classConstant className name =>
    intro gap hgap
    have hconstant := (spells_constant h.2).mark .doubleColon rfl blank_nil
    have hall := hconstant.word h.1 rfl hgap (apart_cons rfl _)
    simpa [Literal.printed, Literal.text, LexemeKind.mark] using hall

/-! ### Types -/

theorem IsKey.exists_kind {key : String} (h : IsKey key) :
    ∃ kind : LexemeKind, kind.isWritten = true ∧ IsLexeme kind key.toList := by
  rcases h with h | h | h
  · exact ⟨_, rfl, h⟩
  · exact ⟨_, rfl, h⟩
  · exact ⟨_, rfl, h⟩

theorem IsVariable.exists_kind {name : String} (h : IsVariable name) :
    ∃ kind : LexemeKind, kind.isWritten = true ∧ IsLexeme kind name.toList := by
  rcases h with h | h
  · exact ⟨_, rfl, h⟩
  · exact ⟨_, rfl, h⟩

namespace TypeExpr

theorem prints_entry {key : Option String} {isOptional : Bool} {value : Printer} {text : String}
    (hkey : ∀ k, key = some k → IsKey k) (h : Prints value text.toList) :
    Prints (printedEntry key isOptional value) (keyText key isOptional ++ text).toList := by
  cases key with
  | none => simpa [printedEntry, keyText] using h
  | some key =>
    intro gap hgap
    obtain ⟨kind, hkind, hlexeme⟩ := (hkey key rfl).exists_kind
    have hcolon : Spells (.ofMark [] .colon :: value [' ']) (':' :: ' ' :: text.toList) :=
      (h [' '] blank_space).colon blank_nil
    cases isOptional with
    | false =>
      have hall := hcolon.word hlexeme hkind hgap (apart_cons rfl _)
      simpa [printedEntry, keyText] using hall
    | true =>
      have hoptional := hcolon.mark .question rfl blank_nil
      have hall := hoptional.word hlexeme hkind hgap (apart_cons rfl _)
      simpa [printedEntry, keyText, LexemeKind.mark] using hall

theorem toList_paramTail (byRef variadic : Bool) (name : Option String) (isOptional : Bool) :
    (paramTail byRef variadic name isOptional).toList =
      (if byRef then [' ', '&'] else [])
        ++ ((if variadic then (if byRef then [] else [' ']) ++ ['.', '.', '.'] else [])
          ++ ((name.elim [] fun n => (if byRef || variadic then [] else [' ']) ++ n.toList)
            ++ if isOptional then ['='] else [])) := by
  cases byRef <;> cases variadic <;> cases name <;> cases isOptional <;> simp [paramTail]

theorem spells_tail {byRef variadic : Bool} {name : Option String} {isOptional : Bool}
    (hname : ∀ n, name = some n → IsVariable n) :
    Spells (printedTail byRef variadic name isOptional)
      (paramTail byRef variadic name isOptional).toList := by
  -- from the end on, as each part may be left out in front of the others
  have hend := spells_nil.optional blank_nil .equals rfl isOptional
  have hapart : Apart ((if isOptional then [] ++ LexemeKind.equals.mark else []) ++ []) := by
    cases isOptional with
    | false => exact apart_nil
    | true => exact apart_cons rfl _
  have hnamed : ∀ {gap : List Char}, Blank gap →
      Spells (name.toList.map (.ofWord gap) ++ if isOptional then
        [Lexeme.ofMark [] .equals] else [])
        ((name.elim [] fun n => gap ++ n.toList) ++ if isOptional then ['='] else []) := by
    intro gap hgap
    cases name with
    | none => simpa [LexemeKind.mark] using hend
    | some name =>
      obtain ⟨kind, hkind, hlexeme⟩ := (hname name rfl).exists_kind
      simpa [LexemeKind.mark] using hend.word hlexeme hkind hgap hapart
  have hdots :=
    (hnamed (blank_if (byRef || variadic))).optional (blank_if byRef) .ellipsis rfl variadic
  have hall := hdots.optional blank_space .ampersand rfl byRef
  rw [toList_paramTail]
  exact hall

theorem apart_tail (byRef variadic : Bool) (name : Option String) (isOptional : Bool) :
    Apart (paramTail byRef variadic name isOptional).toList := by
  have hblank : extendsWord ' ' = false := rfl
  have hequals : extendsWord '=' = false := rfl
  intro c hc
  cases byRef <;> cases variadic <;> cases name <;> cases isOptional <;>
    simp [paramTail] at hc <;> simp [← hc, hblank, hequals]

/-- A name with a list in brackets behind it. -/
theorem prints_enclosed (opening closing : LexemeKind) (hopening : opening.isBracket = true)
    (hclosing : closing.isBracket = true) {name : String} (hname : IsIdentifier name)
    {parts : List Printer} {texts : List String}
    (h : List.Forall₂ (fun part text => Prints part text.toList) parts texts) :
    Prints (fun gap => .ofWord gap name :: .ofMark [] opening
        :: (separated .comma [' '] parts [] ++ [Lexeme.ofMark [] closing]))
      (name.toList ++ opening.mark ++ (", ".intercalate texts).toList ++ closing.mark) := by
  intro gap hgap
  have hclose := spells_nil.mark closing (isClosed_of_isBracket hclosing) blank_nil
  have hlist := (spells_listed h).append hclose (apart_mark hclosing _)
  have hopen := hlist.mark opening (isClosed_of_isBracket hopening) blank_nil
  have hall := hopen.word hname rfl hgap (apart_mark hopening _)
  simpa using hall

section Types

variable {t : TypeExpr} {ts : List TypeExpr}

theorem prints_all (h : ∀ u ∈ ts, Prints u.printed u.text.toList) :
    List.Forall₂ (fun part text => Prints part (String.toList text)) (printedAll ts)
      (texts ts) := by
  rw [printedAll_eq, texts_eq_map, List.forall₂_map_left_iff, List.forall₂_map_right_iff,
    List.forall₂_same]
  exact h

/-- Operands with a mark between them. -/
theorem prints_operands (mark : LexemeKind) (hmark : mark.isBracket = true)
    (h : ∀ u ∈ ts, Prints u.printed u.text.toList) (hlength : 2 ≤ ts.length) :
    Prints (separated mark [] (printedOperands ts))
      ((String.ofList mark.mark).intercalate (operands ts)).toList := by
  have hall : List.Forall₂ Prints (printedOperands ts) ((operands ts).map String.toList) := by
    rw [printedOperands_eq, operands_eq_map, List.map_map, List.forall₂_map_left_iff,
      List.forall₂_map_right_iff, List.forall₂_same]
    exact fun u hu => (h u hu).wrapped u.isCompound
  have hne : printedOperands ts ≠ [] := by
    rw [printedOperands_eq]
    rintro hnil
    rw [List.map_eq_nil_iff.1 hnil] at hlength
    simp at hlength
  rw [String.toList_intercalate, String.toList_ofList]
  simpa using prints_separated mark hmark blank_nil hall hne

theorem prints_items {items : List (ShapeItem TypeExpr)} (hitems : ∀ item ∈ items, item.Spelled)
    (h : ∀ item ∈ items, Prints item.value.printed item.value.text.toList) :
    List.Forall₂ (fun part text => Prints part (String.toList text)) (printedItems items)
      (itemTexts items) := by
  rw [printedItems_eq, itemTexts_eq_map, List.forall₂_map_left_iff, List.forall₂_map_right_iff,
    List.forall₂_same]
  exact fun item hitem => prints_entry (hitems item hitem).key (h item hitem)

theorem prints_dots (isSealed : Bool) :
    List.Forall₂ (fun part text => Prints part (String.toList text)) (printedDots isSealed)
      (if isSealed then [] else ["..."]) := by
  cases isSealed with
  | true => exact .nil
  | false =>
    refine .cons (fun gap hgap => ?_) .nil
    simpa [LexemeKind.mark] using spells_nil.mark .ellipsis rfl hgap

theorem prints_params {params : List (CallableParam TypeExpr)}
    (hparams : ∀ param ∈ params, param.Spelled)
    (h : ∀ param ∈ params, Prints param.type.printed param.type.text.toList) :
    List.Forall₂ (fun part text => Prints part (String.toList text)) (printedParams params)
      (paramTexts params) := by
  rw [printedParams_eq, paramTexts_eq_map, List.forall₂_map_left_iff,
    List.forall₂_map_right_iff, List.forall₂_same]
  intro param hparam gap hgap
  rw [paramText, String.toList_append, ← List.append_assoc]
  exact (h param hparam gap hgap).append (spells_tail (hparams param hparam)) (apart_tail _ _ _ _)

theorem prints_subject {subject : Subject TypeExpr} (hsubject : subject.Spelled)
    (h : ∀ u ∈ subject.types, Prints u.printed u.text.toList) :
    Prints (printedSubject subject) (subjectText subject).toList := by
  cases subject with
  | parameter name => exact prints_ofWord hsubject rfl
  | type t => exact h t (List.mem_singleton_self t)

theorem isIdentifier_is : IsIdentifier "is" :=
  isIdentifier_of_parts rfl rfl rfl

theorem isIdentifier_not : IsIdentifier "not" :=
  isIdentifier_of_parts rfl rfl rfl

theorem isIdentifier_object : IsIdentifier "object" :=
  isIdentifier_of_parts rfl rfl rfl

theorem isLexeme_this : IsLexeme .this "$this".toList :=
  ⟨'$', "this".toList, rfl, rfl, by decide +kernel⟩

theorem prints_conditional {subject : Subject TypeExpr} {negated : Bool} {target yes no : TypeExpr}
    (hsubject : Prints (printedSubject subject) (subjectText subject).toList)
    (htarget : Prints target.printed target.text.toList) (hyes : Prints yes.printed yes.text.toList)
    (hno : Prints no.printed no.text.toList) :
    Prints (conditional subject negated target yes no).printed
      (conditional subject negated target yes no).text.toList := by
  intro gap hgap
  have hclose := spells_nil.mark .parenClose rfl blank_nil
  have hno := ((hno [' '] blank_space).append hclose (apart_cons rfl _)).colon blank_space
  have hyes :=
    ((hyes [' '] blank_space).append hno (apart_cons rfl _)).mark .question rfl blank_space
  have htarget := (htarget [' '] blank_space).append hyes (apart_cons rfl _)
  have hsubject := hsubject [] blank_nil
  cases negated with
  | false =>
    have his := htarget.word isIdentifier_is rfl blank_space (apart_cons rfl _)
    have hall := (hsubject.append his (apart_cons rfl _)).mark .parenOpen rfl hgap
    simpa [printed, text, LexemeKind.mark] using hall
  | true =>
    have hnot := htarget.word isIdentifier_not rfl blank_space (apart_cons rfl _)
    have his := hnot.word isIdentifier_is rfl blank_space (apart_cons rfl _)
    have hall := (hsubject.append his (apart_cons rfl _)).mark .parenOpen rfl hgap
    simpa [printed, text, LexemeKind.mark] using hall

theorem prints_callable {name : String} (hname : IsIdentifier name)
    {params : List (CallableParam TypeExpr)} {returns : TypeExpr}
    (hparams : List.Forall₂ (fun part text => Prints part (String.toList text))
      (printedParams params) (paramTexts params))
    (hreturns : Prints returns.printed returns.text.toList) :
    Prints (callable name params returns).printed (callable name params returns).text.toList := by
  intro gap hgap
  have hreturns := hreturns.wrapped returns.isCompound [' '] blank_space
  have hclose := (hreturns.colon blank_nil).mark .parenClose rfl blank_nil
  have hlist :=
    ((spells_listed hparams).append hclose (apart_cons rfl _)).mark .parenOpen rfl blank_nil
  have hall := hlist.word hname rfl hgap (apart_cons rfl _)
  simpa [printed, text, LexemeKind.mark] using hall

/-- **The lexemes of a printed type make up its text.** -/
theorem prints_text {t : TypeExpr} (h : t.Readable) :
    Prints t.printed t.text.toList := by
  induction h with
  | @intro t here within ih =>
    obtain ⟨hspelled, hclear⟩ := here
    cases t with
    | identifier name => exact prints_ofWord hspelled rfl
    | generic base args =>
      have hall := prints_enclosed .angleOpen .angleClose rfl rfl hspelled.1 (prints_all ih)
      simpa [printed, text, LexemeKind.mark, parts] using hall
    | union members => exact prints_operands .pipe rfl ih hspelled
    | intersection members => exact prints_operands .ampersand rfl ih hspelled
    | nullable inner =>
      intro gap hgap
      have hinner := (ih inner (List.mem_singleton_self _)).wrapped inner.isCompound [] blank_nil
      have hall := hinner.mark .question rfl hgap
      simpa [printed, text, LexemeKind.mark] using hall
    | array inner =>
      intro gap hgap
      have hinner := (ih inner (List.mem_singleton_self _)).wrapped inner.isCompound gap hgap
      have hclose := (spells_nil.mark .squareClose rfl blank_nil).mark .squareOpen rfl blank_nil
      have hall := hinner.append hclose (apart_cons rfl _)
      simpa [printed, text, LexemeKind.mark] using hall
    | offset base key =>
      intro gap hgap
      have hbase := (ih base List.mem_cons_self).wrapped base.isCompound gap hgap
      have hkey := ih key (List.mem_cons_of_mem _ (List.mem_singleton_self _)) [] blank_nil
      have hclose := hkey.append (spells_nil.mark .squareClose rfl blank_nil) (apart_cons rfl _)
      have hall := hbase.append (hclose.mark .squareOpen rfl blank_nil) (apart_cons rfl _)
      simpa [printed, text, LexemeKind.mark] using hall
    | arrayShape kind items isSealed =>
      have hitems := prints_items hspelled.2.2 (List.forall_mem_map.1 ih)
      have hall := prints_enclosed .curlyOpen .curlyClose rfl rfl hspelled.1
        (List.rel_append hitems (prints_dots isSealed))
      simpa [printed, text, LexemeKind.mark] using hall
    | objectShape items =>
      have hitems := prints_items hspelled (List.forall_mem_map.1 ih)
      have hall := prints_enclosed .curlyOpen .curlyClose rfl rfl isIdentifier_object hitems
      simpa [printed, text, LexemeKind.mark] using hall
    | literal value =>
      exact Literal.prints_text hspelled fun text htext => hclear.string text (by rw [htext])
    | this => exact prints_ofWord isLexeme_this rfl
    | conditional subject negated target yes no =>
      simp only [parts, List.forall_mem_append, List.forall_mem_cons] at ih
      exact prints_conditional (prints_subject hspelled ih.1) ih.2.1 ih.2.2.1 ih.2.2.2.1
    | callable name params returns =>
      simp only [parts, List.forall_mem_append, List.forall_mem_map] at ih
      exact prints_callable hspelled.1 (prints_params hspelled.2.2 ih.1)
        (ih.2 returns (List.mem_singleton_self _))

/-- **The text of a type is read back** as the lexemes of the printed type. -/
theorem lexemes_text {t : TypeExpr} (h : t.Readable) :
    lexemes t.text.toList = t.printed [] :=
  (prints_text h [] blank_nil).lexemes_eq

end Types

end TypeExpr

end PhpHandbook.DocBlock
