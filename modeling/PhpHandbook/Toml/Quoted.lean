import PhpHandbook.Text.Digit

/-!
# Quoted texts of a settings document

A text is written in one of four ways: between `"` with escapes, between `'` as it stands, and
both also between threefold quotes, where it may run over several lines.  A reader here gives the
text and the number of characters it covers; a writer chooses the plainest of the four ways that
can hold the text.
-/

namespace PhpHandbook.Toml

open Text (run isHexDigit numberOf)

/-! ### Reading -/

/-- Blanks inside a line. -/
def isSpace (c : Char) : Bool :=
  c == ' ' || c == '\t'

/-- Characters that may stand for themselves: all but control characters, of which the tab is
allowed. -/
def isPlainChar (c : Char) : Bool :=
  c == '\t' || (' ' ≤ c && c != '\x7f')

/-- The number of characters of the line end that starts here, or zero. -/
def lineEnd : List Char → Nat
  | '\n' :: _ => 1
  | '\r' :: '\n' :: _ => 2
  | _ => 0

/-- The number of blanks and line ends at the front. -/
def blankRun : List Char → Nat
  | ' ' :: cs => 1 + blankRun cs
  | '\t' :: cs => 1 + blankRun cs
  | '\n' :: cs => 1 + blankRun cs
  | '\r' :: '\n' :: cs => 2 + blankRun cs
  | _ => 0

/-- The character whose number is written with the given hexadecimal digits. -/
def charOfHex? (digits : List Char) : Option Char :=
  let n := numberOf 16 digits
  if digits.all isHexDigit ∧ n.isValidChar then some (Char.ofNat n) else none

/-- The character that an escape stands for, and the number of characters behind the backslash
that it covers. -/
def escape? : List Char → Option (Char × Nat)
  | 'b' :: _ => some ('\x08', 1)
  | 't' :: _ => some ('\t', 1)
  | 'n' :: _ => some ('\n', 1)
  | 'f' :: _ => some ('\x0c', 1)
  | 'r' :: _ => some ('\r', 1)
  | '"' :: _ => some ('"', 1)
  | '\\' :: _ => some ('\\', 1)
  | 'u' :: cs => if 4 ≤ cs.length then (charOfHex? (cs.take 4)).map (·, 5) else none
  | 'U' :: cs => if 8 ≤ cs.length then (charOfHex? (cs.take 8)).map (·, 9) else none
  | _ => none

/-- The number of characters behind a backslash that only continues the text on a later line. -/
def continuation? (cs : List Char) : Option Nat :=
  let n := run isSpace cs
  if lineEnd (cs.drop n) = 0 then none else some (n + blankRun (cs.drop n))

/-- Reads a text on one line up to its closing quote. -/
def lineBody (quote : Char) (escapes : Bool) : List Char → Option (List Char × Nat)
  | [] => none
  | c :: cs =>
    if c = quote then some ([], 1)
    else if c = '\\' ∧ escapes then
      match escape? cs with
      | some (d, n) =>
        (lineBody quote escapes (cs.drop n)).map fun (text, k) => (d :: text, 1 + n + k)
      | none => none
    else if isPlainChar c then
      (lineBody quote escapes cs).map fun (text, k) => (c :: text, 1 + k)
    else none
termination_by cs => cs.length
decreasing_by all_goals simp_wf; try omega

/-- Reads a text up to its closing threefold quote.  Up to two quotes in front of it belong to
the text. -/
def blockBody (quote : Char) (escapes : Bool) : List Char → Option (List Char × Nat)
  | [] => none
  | c :: cs =>
    if c = quote ∧ 2 ≤ run (· == quote) cs then
      let more := min 2 (run (· == quote) cs - 2)
      some (List.replicate more quote, 3 + more)
    else if c = '\\' ∧ escapes then
      match continuation? cs with
      | some n => (blockBody quote escapes (cs.drop n)).map fun (text, k) => (text, 1 + n + k)
      | none =>
        match escape? cs with
        | some (d, n) =>
          (blockBody quote escapes (cs.drop n)).map fun (text, k) => (d :: text, 1 + n + k)
        | none => none
    else if c = '\r' ∧ cs.head? = some '\n' then
      (blockBody quote escapes (cs.drop 1)).map fun (text, k) => ('\n' :: text, 2 + k)
    else if c = '\n' ∨ isPlainChar c then
      (blockBody quote escapes cs).map fun (text, k) => (c :: text, 1 + k)
    else none
termination_by cs => cs.length
decreasing_by all_goals simp_wf; try omega

/-- Reads a text on one line from its opening quote. -/
def line? : List Char → Option (String × Nat)
  | [] => none
  | c :: cs =>
    if c = '"' ∨ c = '\'' then
      (lineBody c (c == '"') cs).map fun (text, k) => (String.ofList text, 1 + k)
    else none

/-- Reads a text from its threefold opening quote; a line end right behind it is dropped. -/
def block? : List Char → Option (String × Nat)
  | a :: b :: c :: cs =>
    if a = b ∧ b = c ∧ (a = '"' ∨ a = '\'') then
      let n := lineEnd cs
      (blockBody a (a == '"') (cs.drop n)).map fun (text, k) => (String.ofList text, 3 + n + k)
    else none
  | _ => none

/-- Whether a threefold quote is next. -/
def startsBlock : List Char → Bool
  | a :: b :: c :: _ => a == b && b == c && (a == '"' || a == '\'')
  | _ => false

/-! ### Writing -/

/-- The four ways to write a text. -/
inductive Style where
  /-- Between `"` on one line, with escapes. -/
  | escapedLine
  /-- Between `'` on one line. -/
  | literalLine
  /-- Between threefold `"`, with escapes. -/
  | escapedBlock
  /-- Between threefold `'`. -/
  | literalBlock
deriving DecidableEq, Repr

/-- The longest run of the given character, after a run of `now` of them. -/
def longestRun (c : Char) (now : Nat) : List Char → Nat
  | [] => now
  | d :: cs => if d = c then longestRun c (now + 1) cs else max now (longestRun c 0 cs)

/-- Characters that can only be written with an escape. -/
def needsEscape (c : Char) : Bool :=
  (c < ' ' && c != '\t' && c != '\n') || c == '\x7f'

/-- **The way a text is written**: the first of one line with `"`, one line with `'`, lines with
`"` and lines with `'` that holds it without an escape, and otherwise with escapes. -/
def styleOf (text : List Char) : Style :=
  let control := text.any needsEscape
  let backslash := text.contains '\\'
  let newline := text.contains '\n'
  if !control && !backslash && !newline && longestRun '"' 0 text = 0 then .escapedLine
  else if !control && !newline && longestRun '\'' 0 text = 0 then .literalLine
  else if !control && !backslash && longestRun '"' 0 text ≤ 2 then .escapedBlock
  else if !control && longestRun '\'' 0 text ≤ 2 then .literalBlock
  else if newline then .escapedBlock
  else .escapedLine

/-- Four hexadecimal digits for the number of a control character. -/
def controlDigits (c : Char) : String :=
  let digits := (Nat.toDigits 16 c.toNat).map Char.toUpper
  String.ofList (List.replicate (4 - digits.length) '0' ++ digits)

/-- A text with escapes.  `quotes` is the number of quotes in a row that need none, and `seen` how
many stand directly in front. -/
def escaped (block : Bool) (quotes seen : Nat) : List Char → String
  | [] => ""
  | '"' :: cs =>
    if quotes ≤ seen then "\\\"" ++ escaped block quotes 0 cs
    else "\"" ++ escaped block quotes (seen + 1) cs
  | c :: cs =>
    let written :=
      if c = '\x08' then "\\b"
      else if c = '\t' then "\\t"
      else if c = '\n' then (if block then "\n" else "\\n")
      else if c = '\x0c' then "\\f"
      else if c = '\r' then "\\r"
      else if c = '\\' then "\\\\"
      else if needsEscape c then "\\u" ++ controlDigits c
      else c.toString
    written ++ escaped block quotes 0 cs

/-- **A text as it is written** in a document. -/
def writeText (text : String) : String :=
  let first := if text.toList.contains '\n' then "\n" else ""
  match styleOf text.toList with
  | .escapedLine => "\"" ++ escaped false 0 0 text.toList ++ "\""
  | .literalLine => "'" ++ text ++ "'"
  | .escapedBlock => "\"\"\"" ++ first ++ escaped true 2 0 text.toList ++ "\"\"\""
  | .literalBlock => "'''" ++ first ++ text ++ "'''"

end PhpHandbook.Toml
