import PhpHandbook.Source.Token
import PhpHandbook.Text.Digit

/-!
# The longest token

Inside the tags a token is the longest one that the text allows; of two that are equally long,
marks, keywords and comments win over names and operators.  Every function here counts the
characters that follow the first one, so a token is never empty and the text it covers is cut
out, never rebuilt.

Three openings look far ahead and do not fall back to a shorter token when what they opened
does not follow: a block comment that is never closed, a heredoc whose label is missing, and a
keyword with a lone separator after it.

These are the rules of the lexer of sources inside the tags: `munch` is the choice of the longest
token, and each function named after a character the choice among the tokens that begin with it.
-/

namespace PhpHandbook.Source

open Text (run isHexDigit isBinaryDigit)

/-- Characters that separate tokens. -/
def isGap (c : Char) : Bool :=
  c == ' ' || c == '\t' || c == '\r' || c == '\n' || c == '\x0c'

/-- Characters that may start a name: letters, the underscore, and everything beyond ASCII. -/
def isNameStart (c : Char) : Bool :=
  c.isAlpha || c == '_' || 0x80 ≤ c.toNat

/-- Characters that may continue a name. -/
def isNamePart (c : Char) : Bool :=
  isNameStart c || c.isDigit

/-- Digits, and the underscore between them. -/
def isDigitPart (c : Char) : Bool :=
  c.isDigit || c == '_'

/-- Characters that make up operators. -/
def isOperatorChar (c : Char) : Bool :=
  "+-*/%<>!~^=@|&?".toList.contains c

/-- The length of the further segments of a name: separators, each with a name behind it. -/
def segments : List Char → Nat
  | '\\' :: c :: cs =>
    if isNameStart c then
      let n := run isNamePart cs
      2 + n + segments (cs.drop n)
    else 0
  | _ => 0
termination_by cs => cs.length
decreasing_by simp_wf; omega

/-- The length of an exponent: `e`, an optional sign and at least one digit. -/
def exponent : List Char → Nat
  | e :: cs =>
    if e == 'e' || e == 'E' then
      match cs with
      | s :: ds =>
        if s == '+' || s == '-' then
          let n := run Char.isDigit ds
          if n = 0 then 0 else 2 + n
        else
          let n := run Char.isDigit cs
          if n = 0 then 0 else 1 + n
      | [] => 0
    else 0
  | [] => 0

/-- The length of a fraction with its exponent: a point, a digit, and what follows. -/
def fraction : List Char → Nat
  | '.' :: d :: cs =>
    if d.isDigit then
      let n := run isDigitPart cs
      2 + n + exponent (cs.drop n)
    else 0
  | _ => 0

/-- The length of the digits of another base, behind a letter that names the base. -/
def basedDigits (marker : Char) (isDigit : Char → Bool) : List Char → Nat
  | x :: d :: cs =>
    if x.toLower == marker && isDigit d then 2 + run (fun c => isDigit c || c == '_') cs else 0
  | _ => 0

/-- The length of a number behind its first digit `c`. -/
def numberTail (c : Char) (cs : List Char) : Nat :=
  let n := run isDigitPart cs
  let after := cs.drop n
  let decimal := n + max (fraction after) (exponent after)
  if c == '0' then
    max decimal (max (basedDigits 'x' isHexDigit cs) (basedDigits 'b' isBinaryDigit cs))
  else decimal

/-- The length up to and including the closing quote; a backslash takes the next character with
it.  `seen` counts the characters passed. -/
def quotedTail (quote : Char) (seen : Nat) : List Char → Option Nat
  | [] => none
  | ['\\'] => none
  | '\\' :: _ :: cs => quotedTail quote (seen + 2) cs
  | c :: cs => if c = quote then some (seen + 1) else quotedTail quote (seen + 1) cs

/-- The length up to and including the next backtick. -/
def backtickTail (seen : Nat) : List Char → Option Nat
  | [] => none
  | c :: cs => if c = '\x60' then some (seen + 1) else backtickTail (seen + 1) cs

/-- The length up to and including the next star with a slash behind it. -/
def commentTail (seen : Nat) : List Char → Option Nat
  | [] => none
  | '*' :: '/' :: _ => some (seen + 2)
  | _ :: cs => commentTail (seen + 1) cs

/-- A mark that is spelled with operator characters only. -/
def operatorMark? (word : List Char) : Option TokenKind :=
  match String.ofList word with
  | "?" => some (.mark .question)
  | "&" => some (.mark .ampersand)
  | "|" => some (.mark .pipe)
  | "=" => some (.mark .equals)
  | "->" => some (.mark .arrow)
  | "?->" => some (.mark .nullsafeArrow)
  | "=>" => some (.mark .doubleArrow)
  | "?>" => some .closeTag
  | _ => none

/-- The run of operator characters that starts with `c`. -/
def operatorToken (c : Char) (cs : List Char) : TokenKind × Nat :=
  let n := run isOperatorChar cs
  ((operatorMark? (c :: cs.take n)).getD .operator, n)

/-- Letters of a heredoc label. -/
def isLabelStart (c : Char) : Bool :=
  c.isAlpha || c == '_'

/-- What follows `<<<`: the label of a heredoc with the length of the opening, or whether the
text looks like an opening whose label is missing. -/
inductive HeredocOpening where
  | opens (label : List Char) (length : Nat)
  | broken
  | absent

/-- Reads the opening of a heredoc behind its three angle brackets: blanks, then a label, bare or
in quotes. -/
def heredocOpening (cs : List Char) : HeredocOpening :=
  let blanks := run (fun c => c == ' ' || c == '\t') cs
  let otherwise : HeredocOpening := if blanks = 0 then .absent else .broken
  match cs.drop blanks with
  | c :: rest =>
    if isLabelStart c then
      let n := run (fun d => isLabelStart d || d.isDigit) rest
      .opens (c :: rest.take n) (blanks + 1 + n)
    else if c == '"' || c == '\'' then
      match rest with
      | l :: more =>
        if isLabelStart l then
          let n := run (fun d => isLabelStart d || d.isDigit) more
          if (more.drop n).head? == some c then .opens (l :: more.take n) (blanks + 3 + n)
          else .broken
        else otherwise
      | [] => otherwise
    else otherwise
  | [] => otherwise

/-- What the longest token at a place turns out to be. -/
inductive Munched where
  /-- A token of this kind with so many characters after its first one. -/
  | token (kind : TokenKind) (tail : Nat)
  /-- The opening of a heredoc with its label, and its length after the first character. -/
  | heredoc (label : List Char) (tail : Nat)
  /-- No token starts here. -/
  | nothing

/-- The token that starts with a slash. -/
def munchSlash (cs : List Char) : Munched :=
  match cs with
  | '/' :: rest => .token .lineComment (1 + run (· != '\n') rest)
  | '*' :: rest =>
    let (kind, ops) := operatorToken '/' cs
    match commentTail 1 rest with
    | some n => if n < ops then .token kind ops else .token .blockComment n
    | none => if ops = cs.length then .token kind ops else .nothing
  | _ =>
    let (kind, ops) := operatorToken '/' cs
    .token kind ops

/-- The token that starts with a left angle bracket. -/
def munchAngle (cs : List Char) : Munched :=
  let (kind, ops) := operatorToken '<' cs
  match cs with
  | '<' :: '<' :: rest =>
    if ops = 2 then
      match heredocOpening rest with
      | .opens label n => .heredoc label (2 + n)
      | .broken => .nothing
      | .absent => .token kind ops
    else .token kind ops
  | _ => .token kind ops

/-- The token that starts with the letter `c`: a name with or without segments, or a keyword. -/
def munchWord (c : Char) (cs : List Char) : Munched :=
  let n := run isNamePart cs
  let after := cs.drop n
  let more := segments after
  if 0 < more then .token .qualifiedName (n + more)
  else if after.head? == some '\\' then .token .name n
  else
    match Keyword.ofText? (c :: cs.take n) with
    | some k => .token (.keyword k) n
    | none => .token .name n

/-- **The longest token** that starts with `c`, where `cs` follows. -/
def munch (c : Char) (cs : List Char) : Munched :=
  if isNameStart c then munchWord c cs
  else if c.isDigit then .token .number (numberTail c cs)
  else
    match c with
    | '{' => .token (.mark .braceOpen) 0
    | '}' => .token (.mark .braceClose) 0
    | '(' => .token (.mark .parenOpen) 0
    | ')' => .token (.mark .parenClose) 0
    | '[' => .token (.mark .bracketOpen) 0
    | ']' => .token (.mark .bracketClose) 0
    | ';' => .token (.mark .semicolon) 0
    | ',' => .token (.mark .comma) 0
    | ':' => if cs.head? == some ':' then .token (.mark .doubleColon) 1 else .token (.mark .colon) 0
    | '\\' =>
      let n := segments (c :: cs)
      if n = 0 then .token (.mark .backslash) 0 else .token .rootedName (n - 1)
    | '$' =>
      match cs with
      | d :: rest =>
        if isNameStart d then .token .variableName (1 + run isNamePart rest)
        else .token (.mark .dollar) 0
      | [] => .token (.mark .dollar) 0
    | '.' =>
      let n := fraction (c :: cs)
      if 0 < n then .token .number (n - 1)
      else
        match cs with
        | '.' :: '.' :: _ => .token (.mark .ellipsis) 2
        | _ => .token (.mark .dot) 0
    | '#' =>
      if cs.head? == some '[' then .token (.mark .attributeOpen) 1
      else .token .lineComment (run (· != '\n') cs)
    | '/' => munchSlash cs
    | '<' => munchAngle cs
    | '\'' | '"' =>
      match quotedTail c 0 cs with
      | some n => .token .quoted n
      | none => .nothing
    | '\x60' =>
      match backtickTail 0 cs with
      | some n => .token .quoted n
      | none => .nothing
    | _ =>
      if isOperatorChar c then
        let (kind, n) := operatorToken c cs
        .token kind n
      else .nothing

end PhpHandbook.Source
