import PhpHandbook.Text.LetterCase

/-!
# Kebab case

Page names are written in small letters with hyphens between words: `HTTPClient` becomes
`http-client`.  A word starts at a capital letter that follows a small letter or a digit, and
at the last capital of a run that a small letter follows.

It is the helper of the generator for paths of pages and anchors of members.
-/

namespace PhpHandbook.Text

/-- Characters that separate words and are written as one hyphen. -/
def isWordGap (c : Char) : Bool :=
  c == '_' || c == ' ' || c == '-'

/-- Whether a new word starts at `c`, between the characters `before` and `after`. -/
def startsWord (before : Option Char) (c : Char) (after : Option Char) : Bool :=
  isCapital c &&
    match before with
    | none => false
    | some b => isSmall b || b.isDigit || (isCapital b && after.any isSmall)

/-- Kebab case of a text, given the character before it and what is already written (reversed). -/
def kebabAux (before : Option Char) (written : List Char) : List Char → List Char
  | [] => written.reverse
  | c :: cs =>
    if isWordGap c then
      kebabAux (some c)
        (if written.isEmpty || written.head? == some '-' then written else '-' :: written) cs
    else
      let written :=
        if startsWord before c cs.head? && written.head? != some '-' then '-' :: written
        else written
      kebabAux (some c) ((small c).reverse ++ written) cs

/-- **Kebab case** of a text. -/
def kebab (s : String) : String :=
  String.ofList (kebabAux none [] s.toList)

end PhpHandbook.Text
