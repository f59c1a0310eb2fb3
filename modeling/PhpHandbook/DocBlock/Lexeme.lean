import PhpHandbook.Source.Munch

/-!
# Lexemes of a tag body

The body of a tag is cut into lexemes.  Each lexeme keeps the gap in front of it, so the body is
the concatenation of gaps and lexemes (up to the blanks at its end), and the text that a cursor
has not read yet can be put together again.

Every character starts some lexeme: what the type grammar has no use for is description text and
becomes a lexeme of kind `other`.

This is the lexer of the type grammar of comments: `LexemeKind` are its kinds of tokens, `munch`
cuts one token, and `lexemes` a whole body.
-/

namespace PhpHandbook.DocBlock

open Source (isNameStart isNamePart isDigitPart)
open Text (run isHexDigit isBinaryDigit)

/-- What a lexeme is. -/
inductive LexemeKind where
  /-- The variable `$this`. -/
  | this
  /-- Any other variable. -/
  | variableName
  /-- A name, with separators and hyphens inside: `Foo\Bar`, `class-string`. -/
  | identifier
  /-- A whole number. -/
  | integer
  /-- A decimal number. -/
  | decimal
  /-- A quoted text. -/
  | quoted
  | angleOpen | angleClose | parenOpen | parenClose | squareOpen | squareClose
  | curlyOpen | curlyClose | comma | pipe | ampersand | question | doubleColon | colon
  | equals | ellipsis | star | bang
  /-- Text outside the grammar. -/
  | other
deriving DecidableEq, Repr

/-- A lexeme with the gap in front of it. -/
structure Lexeme where
  /-- The blanks between the lexeme before and this one. -/
  gap : List Char
  /-- What it is. -/
  kind : LexemeKind
  /-- The text it covers. -/
  chars : List Char
deriving DecidableEq, Repr

namespace Lexeme

/-- The text of the lexeme. -/
def text (l : Lexeme) : String :=
  String.ofList l.chars

/-- Whether the lexeme follows the one before without a gap. -/
def isAdjacent (l : Lexeme) : Bool :=
  l.gap.isEmpty

/-- Whether the lexeme is the given word, in capital or small letters. -/
def isWord (word : String) (l : Lexeme) : Bool :=
  l.kind == .identifier && l.chars.map Char.toLower == word.toList.map Char.toLower

/-- Whether the lexeme is a variable. -/
def isVariable (l : Lexeme) : Bool :=
  l.kind == .variableName || l.kind == .this

end Lexeme

/-- The characters between lexemes. -/
def isGap (c : Char) : Bool :=
  c == ' ' || c == '\t' || c == '\r' || c == '\n'

/-- Characters that may continue a segment of an identifier. -/
def isIdentifierPart (c : Char) : Bool :=
  isNamePart c || c == '-'

/-- The length of the further segments of an identifier. -/
def identifierSegments : List Char → Nat
  | '\\' :: c :: cs =>
    if isNameStart c then
      let n := run isIdentifierPart cs
      2 + n + identifierSegments (cs.drop n)
    else 0
  | _ => 0
termination_by cs => cs.length
decreasing_by simp_wf; omega

/-- The length of an identifier after its first character. -/
def identifierTail (cs : List Char) : Nat :=
  let n := run isIdentifierPart cs
  n + identifierSegments (cs.drop n)

/-- The length of an exponent with its mark, or zero. -/
def exponent : List Char → Nat
  | e :: cs =>
    if e == 'e' || e == 'E' then
      let sign := if cs.head? == some '+' || cs.head? == some '-' then 1 else 0
      let digits := run Char.isDigit (cs.drop sign)
      if digits == 0 then 0 else 1 + sign + digits
    else 0
  | [] => 0

/-- The length of a whole number in decimal, hexadecimal or binary notation, or zero. -/
def integerLength : List Char → Nat
  | '0' :: b :: cs =>
    let digits (p : Char → Bool) : Nat :=
      if cs.head?.any p then 2 + run (fun c => p c || c == '_') cs else 1
    if b == 'x' || b == 'X' then digits isHexDigit
    else if b == 'b' || b == 'B' then digits isBinaryDigit
    else 1 + run isDigitPart (b :: cs)
  | c :: cs => if c.isDigit then 1 + run isDigitPart cs else 0
  | [] => 0

/-- The length of a decimal number, or zero: digits with a point before the last of them, or
digits with an exponent. -/
def decimalLength (cs : List Char) : Nat :=
  let whole := run Char.isDigit cs
  let fraction := match cs.drop whole with
    | '.' :: rest =>
      let digits := run Char.isDigit rest
      if digits == 0 then 0 else whole + 1 + digits + exponent (rest.drop digits)
    | _ => 0
  let grouped := if whole == 0 then 0 else run isDigitPart cs
  let power := exponent (cs.drop grouped)
  let scientific := if grouped == 0 || power == 0 then 0 else grouped + power
  max fraction scientific

/-- The length of a quoted text behind its opening quote, and whether the quote is closed.  A
backslash takes the next character along, unless that is a newline. -/
def quotedTail (quote : Char) (seen : Nat) : List Char → Nat × Bool
  | [] => (seen, false)
  | c :: cs =>
    if c = quote then (seen + 1, true)
    else if c = '\\' then
      match cs with
      | [] => (seen, false)
      | d :: ds => if d = '\n' then (seen, false) else quotedTail quote (seen + 2) ds
    else quotedTail quote (seen + 1) cs

/-- The kind of the one-character marks. -/
def markKind? : Char → Option LexemeKind
  | '<' => some .angleOpen | '>' => some .angleClose
  | '(' => some .parenOpen | ')' => some .parenClose
  | '[' => some .squareOpen | ']' => some .squareClose
  | '{' => some .curlyOpen | '}' => some .curlyClose
  | ',' => some .comma | '|' => some .pipe | '&' => some .ampersand | '?' => some .question
  | ':' => some .colon | '=' => some .equals | '*' => some .star | '!' => some .bang
  | _ => none

/-- The longest number that starts with the given character, if there is one. -/
def number? (c : Char) (cs : List Char) : Option (LexemeKind × Nat) :=
  let sign := if c == '-' then 1 else 0
  let body := (c :: cs).drop sign
  let whole := integerLength body
  let decimal := decimalLength body
  if whole == 0 && decimal == 0 then none
  else if whole < decimal then some (.decimal, sign + decimal - 1)
  else some (.integer, sign + whole - 1)

/-- **The longest lexeme** that starts with the character `c`: its kind and the number of
characters after `c` that belong to it. -/
def munch (c : Char) (cs : List Char) : LexemeKind × Nat :=
  if c == '$' then
    match cs with
    | d :: ds =>
      if isNameStart d then
        let n := run isNamePart ds
        (if d :: ds.take n == "this".toList then .this else .variableName, n + 1)
      else (.other, 0)
    | [] => (.other, 0)
  else if isNameStart c then (.identifier, identifierTail cs)
  else if c == '\\' then
    match cs with
    | d :: ds => if isNameStart d then (.identifier, 1 + identifierTail ds) else (.other, 0)
    | [] => (.other, 0)
  else if c == '\'' || c == '"' then
    let (n, closed) := quotedTail c 0 cs
    (if closed then .quoted else .other, n)
  else if c == ':' && cs.head? == some ':' then (.doubleColon, 1)
  else if c == '.' && cs.take 2 == ['.', '.'] then (.ellipsis, 2)
  else if c.isDigit || c == '-' || c == '.' then (number? c cs).getD (.other, 0)
  else ((markKind? c).getD .other, 0)

/-- The lexemes of a text that follows the given gap. -/
def lexemesFrom (gap : List Char) : List Char → List Lexeme
  | [] => []
  | c :: cs =>
    if isGap c then lexemesFrom (gap ++ [c]) cs
    else
      let (kind, n) := munch c cs
      ⟨gap, kind, c :: cs.take n⟩ :: lexemesFrom [] (cs.drop n)
termination_by cs => cs.length
decreasing_by all_goals simp only [List.length_cons, List.length_drop]; omega

/-- **The lexemes** of a tag body. -/
def lexemes (text : List Char) : List Lexeme :=
  lexemesFrom [] text

end PhpHandbook.DocBlock
