import PhpHandbook.Source.Token

/-!
# Faults in declarations

What can be wrong with a source file, where, and how that is said.

These are the errors of the parser of sources: `Fault` is an error with its span and its hint, and
`Fault.message` its wording.
-/

namespace PhpHandbook.Declaration

open Source (Span TokenKind)

/-- What is wrong. -/
inductive FaultKind where
  /-- One of several tokens was expected where another stands. -/
  | unexpectedToken (found : TokenKind) (expected : List TokenKind)
  | unexpectedEnd
  | expectedIdentifier
  | expectedType
  /-- A mark is missing behind something. -/
  | expectedAfter (expected context : String)
  /-- A precedence rule names no trait. -/
  | precedenceWithoutTrait
deriving DecidableEq, Repr

/-- What is wrong, in words. -/
def FaultKind.describe : FaultKind → String
  | .unexpectedToken found expected =>
    let wanted := match expected with
      | [kind] => kind.describe
      | kinds => "one of: " ++ ", ".intercalate (kinds.map (·.describe))
    "unexpected token: found " ++ found.describe ++ ", expected " ++ wanted
  | .unexpectedEnd => "unexpected end of file"
  | .expectedIdentifier => "expected identifier"
  | .expectedType => "expected type"
  | .expectedAfter expected context => "expected '" ++ expected ++ "' after " ++ context
  | .precedenceWithoutTrait =>
    "\x60insteadof\x60 requires a trait name before \x60::\x60"

/-- A fault with its place. -/
structure Fault where
  kind : FaultKind
  span : Span
  /-- How it may be mended. -/
  hint : Option String := none
deriving DecidableEq, Repr

namespace Fault

/-- The fault with a hint. -/
def withHint (hint : String) (f : Fault) : Fault :=
  { f with hint := some hint }

/-- The fault as it is shown to people. -/
def message (f : Fault) : String :=
  f.kind.describe ++ " at " ++ f.span.describe ++
    match f.hint with
    | some hint => " (hint: " ++ hint ++ ")"
    | none => ""

end Fault

end PhpHandbook.Declaration
