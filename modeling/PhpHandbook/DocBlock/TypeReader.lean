import PhpHandbook.DocBlock.Lexeme
import PhpHandbook.DocBlock.TypeExpr
import PhpHandbook.Reading
import PhpHandbook.Text.Blank

/-!
# Reading type expressions

A recursive descent over the lexemes of a tag body.  Generic arguments, shapes, parameter lists
and `[]` follow their base without a gap, so that `array [optional]` is a plain `array` with a
description behind it.

The word `is` behind a type is tried as the start of a conditional; if none can be read there,
the word is description text and the cursor stands in front of it.

Each function leaves a suffix of the lexemes.  The measure of the recursion is eight times their
number plus the rank of the function: a call either sees fewer lexemes or has a lower rank.

This is the parser of the type grammar of comments: `readType` parses one type, and each other
reader one production of the grammar; `unread` is the text behind the type.
-/

namespace PhpHandbook.DocBlock

/-- What the grammar asks for at some place. -/
inductive Expected where
  | type
  | genericType
  | genericArgument
  | constantName
  | templateName
  | parameterName
  /-- A fixed text. -/
  | written (text : String)
deriving DecidableEq, Repr

/-- What is asked for, in words. -/
def Expected.describe : Expected → String
  | .type => "type"
  | .genericType => "generic type"
  | .genericArgument => "generic argument"
  | .constantName => "constant name"
  | .templateName => "template name"
  | .parameterName => "parameter name"
  | .written text => "\x60" ++ text ++ "\x60"

/-- Why a tag body cannot be read. -/
inductive TypeError where
  /-- Something else stands there. -/
  | unexpected (expected : Expected) (found : String)
  /-- The body is over. -/
  | unexpectedEnd (expected : Expected)
deriving DecidableEq, Repr

/-- The reason in words. -/
def TypeError.message : TypeError → String
  | .unexpected expected found =>
    "expected " ++ expected.describe ++ ", found \x60" ++ found ++ "\x60"
  | .unexpectedEnd expected => "expected " ++ expected.describe ++ ", found end of tag"

/-- What a reader of lexemes gives. -/
abbrev Read (α : Type) (ts : List Lexeme) : Type :=
  Reading Lexeme TypeError α ts

/-- The error at the front of the lexemes. -/
def expected (e : Expected) : List Lexeme → TypeError
  | t :: _ => .unexpected e t.text
  | [] => .unexpectedEnd e

/-- Whether a lexeme is of the given kind. -/
def isKind (kind : LexemeKind) (t : Lexeme) : Bool :=
  t.kind == kind

/-- Whether a lexeme is of the given kind and follows the one before without a gap. -/
def isTight (kind : LexemeKind) (t : Lexeme) : Bool :=
  t.kind == kind && t.isAdjacent

/-- The kind of the lexeme at a place. -/
def kindAt? (n : Nat) (ts : List Lexeme) : Option LexemeKind :=
  ts[n]?.map (·.kind)

/-- Takes a lexeme of the given kind, which is written as `text`. -/
def expectKind (kind : LexemeKind) (text : String) (ts : List Lexeme) : Read Lexeme ts :=
  Reading.expect (isKind kind) (expected (.written text)) ts

/-- Takes a lexeme of the given kind if it is next. -/
def skipKind (kind : LexemeKind) (ts : List Lexeme) : Read Bool ts :=
  Reading.skip (isKind kind) ts

/-- Takes the given word if it is next. -/
def skipWord (word : String) (ts : List Lexeme) : Read Bool ts :=
  Reading.skip (Lexeme.isWord word) ts

/-- Takes a variable if it is next, with its dollar sign. -/
def takeVariable (ts : List Lexeme) : Read (Option String) ts :=
  (Reading.take? Lexeme.isVariable ts).map (Option.map Lexeme.text)

/-- Takes an identifier if it is next. -/
def takeIdentifier (ts : List Lexeme) : Read (Option String) ts :=
  (Reading.take? (isKind .identifier) ts).map (Option.map Lexeme.text)

/-- The text that is not read yet, without blanks around it. -/
def unread : List Lexeme → String
  | [] => ""
  | t :: ts => Text.trim (String.ofList (t.chars ++ ts.flatMap fun u => u.gap ++ u.chars))

/-- Whether a variable is next, possibly behind `&` and `...`. -/
def atParameter (ts : List Lexeme) : Bool :=
  let ts := if kindAt? 0 ts == some .ampersand then ts.drop 1 else ts
  let ts := if kindAt? 0 ts == some .ellipsis then ts.drop 1 else ts
  ts.head?.any Lexeme.isVariable

/-- Whether a type can go on behind an `&` here: an `&` in front of a variable marks a parameter
that is passed by reference. -/
def joinsTypes : List Lexeme → Bool
  | t :: u :: _ =>
    isKind .ampersand t && !(u.isVariable || isKind .ellipsis u)
  | _ => false

/-- Whether a parameter is the subject of a conditional here. -/
def startsParameterConditional : List Lexeme → Bool
  | t :: u :: _ => isKind .variableName t && u.isWord "is"
  | _ => false

/-- Replaces an escaped quote by the quote. -/
def unescape (quote : Char) : List Char → List Char
  | [] => []
  | [c] => [c]
  | c :: d :: cs =>
    if c = '\\' ∧ d = quote then quote :: unescape quote cs else c :: unescape quote (d :: cs)

/-- The value of a quoted text: its quotes go, and escaped quotes lose their backslash. -/
def unquote (cs : List Char) : String :=
  let inner := if 2 ≤ cs.length then (cs.drop 1).dropLast else cs
  String.ofList (unescape '"' (unescape '\'' inner))

/-- Names that open an array shape. -/
def isShapeName (lower : String) : Bool :=
  ["array", "list", "non-empty-array", "non-empty-list"].contains lower

/-- Names that open a callable type. -/
def isCallableName (lower : String) : Bool :=
  ["callable", "closure", "pure-callable", "pure-closure"].contains
    (String.ofList (lower.toList.dropWhile (· == '\\')))

/-- The key of an entry of a shape, and whether the entry may be missing. -/
def shapeKey (ts : List Lexeme) : Read (Option String × Bool) ts :=
  match ts with
  | t :: us =>
    if isKind .identifier t || isKind .integer t || isKind .quoted t then
      match us with
      | u :: vs =>
        if isKind .colon u then
          ⟨.ok (some t.text, false), vs, ⟨[t, u], rfl⟩⟩
        else
          match vs with
          | v :: ws =>
            if isKind .question u && isKind .colon v then
              ⟨.ok (some t.text, true), ws, ⟨[t, u, v], rfl⟩⟩
            else .done (none, false)
          | [] => .done (none, false)
      | [] => .done (none, false)
    else .done (none, false)
  | [] => .done (none, false)

/-- The constant behind `::`. -/
def constantName (ts : List Lexeme) : Read String ts :=
  Reading.onNext (isKind .star) ts (fun _ _ _ => .done "*")
    (Reading.onNext (isKind .identifier) ts
      (fun t us _ => (Reading.skip (isTight .star) us).map fun wild =>
        if wild then t.text ++ "*" else t.text)
      (.fail (expected .constantName ts)))

/-- Whether a variance is written in front of a generic argument: it is, unless the word is the
argument itself. -/
def isVariance : List Lexeme → Bool
  | t :: u :: _ =>
    (t.isWord "covariant" || t.isWord "contravariant")
      && !(isKind .comma u || isKind .angleClose u)
  | _ => false

mutual

/-- **Reads a type**: a union, an intersection, a conditional or an operand. -/
def readType (ts : List Lexeme) : Read TypeExpr ts :=
  if startsParameterConditional ts then
    Reading.onNext (fun _ => true) ts
      (fun t us _ => readConditional (.parameter t.text) us)
      (.fail (expected .type ts))
  else
    Reading.onNext (isKind .question) ts
      (fun _ us _ => (readOperand us).map .nullable)
      ((readOperand ts).andThen fun first us _ =>
        let attempt :=
          if us.head?.any (Lexeme.isWord "is") then
            some (readConditional (.type first) us) else none
        match attempt.filter (·.outcome.isOk) with
        | some conditional => conditional
        | none => readJoined first us)
termination_by 8 * ts.length + 3

/-- Reads what is joined to a first operand. -/
def readJoined (first : TypeExpr) (ts : List Lexeme) : Read TypeExpr ts :=
  if ts.head?.any (isKind .pipe) then
    (readUnion ts).map fun more => .union (first :: more)
  else if joinsTypes ts then
    (readIntersection ts).map fun more => .intersection (first :: more)
  else .done first
termination_by 8 * ts.length + 2

/-- Reads further members of a union, each behind a `|`. -/
def readUnion (ts : List Lexeme) : Read (List TypeExpr) ts :=
  Reading.onNext (isKind .pipe) ts
    (fun _ us _ => (readOperand us).andThen fun t vs _ => (readUnion vs).map (t :: ·))
    (.done [])
termination_by 8 * ts.length + 1

/-- Reads further members of an intersection, each behind an `&`. -/
def readIntersection (ts : List Lexeme) : Read (List TypeExpr) ts :=
  if joinsTypes ts then
    Reading.onNext (isKind .ampersand) ts
      (fun _ us _ => (readOperand us).andThen fun t vs _ => (readIntersection vs).map (t :: ·))
      (.done [])
  else .done []
termination_by 8 * ts.length + 1

/-- Reads a conditional from its `is` on. -/
def readConditional (subject : Subject TypeExpr) (ts : List Lexeme) : Read TypeExpr ts :=
  Reading.onNext (Lexeme.isWord "is") ts
    (fun _ us _ =>
      (skipWord "not" us).andThen fun negated us _ =>
      (readType us).andThen fun target us _ =>
      (expectKind .question "?" us).andThen fun _ us _ =>
      (readType us).andThen fun yes us _ =>
      (expectKind .colon ":" us).andThen fun _ us _ =>
      (readType us).map fun no => .conditional subject negated target yes no)
    (.fail (expected (.written "is") ts))
termination_by 8 * ts.length + 1

/-- Reads an atom with its `[]` and `[K]`. -/
def readOperand (ts : List Lexeme) : Read TypeExpr ts :=
  (readAtom ts).andThen fun t us _ => readSuffixes t us
termination_by 8 * ts.length + 1

/-- Reads the `[]` and `[K]` behind a type. -/
def readSuffixes (type : TypeExpr) (ts : List Lexeme) : Read TypeExpr ts :=
  Reading.onNext (isTight .squareOpen) ts
    (fun _ us _ =>
      Reading.onNext (isKind .squareClose) us
        (fun _ vs _ => readSuffixes (.array type) vs)
        ((readType us).andThen fun key vs _ =>
          (expectKind .squareClose "]" vs).andThen fun _ ws _ =>
            readSuffixes (.offset type key) ws))
    (.done type)
termination_by 8 * ts.length

/-- Reads a single type without suffixes. -/
def readAtom (ts : List Lexeme) : Read TypeExpr ts :=
  match ts with
  | [] => .fail (expected .type [])
  | t :: us =>
    match t.kind with
    | .parenOpen =>
      .behind t ((readType us).andThen fun inner vs _ =>
        (expectKind .parenClose ")" vs).map fun _ => inner)
    | .this => .behind t (.done .this)
    | .integer => .behind t (.done (.literal (.integer t.text)))
    | .decimal => .behind t (.done (.literal (.decimal t.text)))
    | .quoted => .behind t (.done (.literal (.string (unquote t.chars))))
    | .identifier => .behind t (readNamed t.text us)
    | _ => .fail (expected .type (t :: us))
termination_by 8 * ts.length

/-- Reads what belongs to a name: a constant, arguments, a shape or parameters. -/
def readNamed (name : String) (ts : List Lexeme) : Read TypeExpr ts :=
  let lower := name.map Char.toLower
  Reading.onNext (isTight .doubleColon) ts
    (fun _ us _ => (constantName us).map fun constant => .literal (.classConstant name constant))
    (Reading.onNext (isTight .angleOpen) ts
      (fun _ us _ => (readArgs us).andThen fun args vs _ =>
        if args.isEmpty then .fail (expected .genericArgument vs) else .done (.generic name args))
      (Reading.onNext (fun t => isTight .curlyOpen t && (lower == "object" || isShapeName lower)) ts
        (fun _ us _ => (readItems us).map fun (items, isSealed) =>
          if lower == "object" then .objectShape items else .arrayShape name items isSealed)
        (Reading.onNext (fun t => isTight .parenOpen t && isCallableName lower) ts
          (fun _ us _ =>
            (readParams us).andThen fun params vs _ =>
            (expectKind .parenClose ")" vs).andThen fun _ ws _ =>
            (readReturns ws).map fun returns => .callable name params returns)
          (.done (.identifier name)))))
termination_by 8 * ts.length + 3

/-- Reads generic arguments up to and including the closing `>`. -/
def readArgs (ts : List Lexeme) : Read (List TypeExpr) ts :=
  Reading.onNext (isKind .angleClose) ts (fun _ _ _ => .done [])
    (Reading.onNext (isKind .star) ts
      (fun _ us _ => (readMoreArgs us).map (.identifier "mixed" :: ·))
      (if isVariance ts then
        Reading.onNext (fun _ => true) ts
          (fun _ us _ => (readType us).andThen fun t vs _ => (readMoreArgs vs).map (t :: ·))
          (.fail (expected .type ts))
      else (readType ts).andThen fun t us _ => (readMoreArgs us).map (t :: ·)))
termination_by 8 * ts.length + 4

/-- Reads the generic arguments behind one of them. -/
def readMoreArgs (ts : List Lexeme) : Read (List TypeExpr) ts :=
  Reading.onNext (isKind .comma) ts (fun _ us _ => readArgs us)
    ((expectKind .angleClose ">" ts).map fun _ => [])
termination_by 8 * ts.length

/-- Reads the entries of a shape up to and including the closing brace, and whether it is
sealed. -/
def readItems (ts : List Lexeme) : Read (List (ShapeItem TypeExpr) × Bool) ts :=
  Reading.onNext (isKind .curlyClose) ts (fun _ _ _ => .done ([], true))
    (Reading.onNext (isKind .ellipsis) ts
      (fun _ us _ =>
        (Reading.onNext (isTight .angleOpen) us
          (fun _ vs _ => (readArgs vs).andThen fun args ws _ =>
            if args.isEmpty then .fail (expected .genericArgument ws) else .done ())
          (.done ())).andThen fun _ us _ =>
        (skipKind .comma us).andThen fun _ us _ =>
        (expectKind .curlyClose "\x7d" us).map fun _ => ([], false))
      ((shapeKey ts).andThen fun (key, isOptional) us _ =>
        (readType us).andThen fun value vs _ =>
        (readMoreItems vs).map fun (items, isSealed) =>
          (⟨key, isOptional, value⟩ :: items, isSealed)))
termination_by 8 * ts.length + 4

/-- Reads the entries of a shape behind one of them. -/
def readMoreItems (ts : List Lexeme) : Read (List (ShapeItem TypeExpr) × Bool) ts :=
  Reading.onNext (isKind .comma) ts (fun _ us _ => readItems us)
    ((expectKind .curlyClose "\x7d" ts).map fun _ => ([], true))
termination_by 8 * ts.length

/-- Reads the parameters of a callable, up to the closing parenthesis. -/
def readParams (ts : List Lexeme) : Read (List (CallableParam TypeExpr)) ts :=
  if ts.head?.any (isKind .parenClose) then .done []
  else
    (readType ts).andThen fun type us _ =>
    (skipKind .ampersand us).andThen fun byRef us _ =>
    (skipKind .ellipsis us).andThen fun variadic us _ =>
    (takeVariable us).andThen fun name us _ =>
    (skipKind .equals us).andThen fun isOptional us _ =>
    Reading.onNext (isKind .comma) us
      (fun _ vs _ => (readParams vs).map (⟨type, byRef, variadic, name, isOptional⟩ :: ·))
      (.done [⟨type, byRef, variadic, name, isOptional⟩])
termination_by 8 * ts.length + 4

/-- Reads the type that a callable returns; without one it is `mixed`. -/
def readReturns (ts : List Lexeme) : Read TypeExpr ts :=
  Reading.onNext (isKind .colon) ts
    (fun _ us _ =>
      Reading.onNext (isKind .question) us
        (fun _ vs _ => (readOperand vs).map .nullable)
        (readOperand us))
    (.done (.identifier "mixed"))
termination_by 8 * ts.length

end

end PhpHandbook.DocBlock
