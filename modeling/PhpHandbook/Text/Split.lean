/-!
# Splitting and joining

A text is cut at every occurrence of a separator; putting the separator back between the parts
gives the text.
-/

namespace PhpHandbook.Text

/-- The parts of a text between separators; there is always at least one. -/
def splitChars (separator : Char) : List Char → List (List Char)
  | [] => [[]]
  | c :: cs =>
    if c = separator then [] :: splitChars separator cs
    else match splitChars separator cs with
      | part :: parts => (c :: part) :: parts
      | [] => [[c]]

/-- The parts of a text between separators. -/
def split (separator : Char) (s : String) : List String :=
  (splitChars separator s.toList).map String.ofList

/-- What follows the last separator, or the whole text. -/
def lastPart (separator : Char) (s : String) : String :=
  (split separator s).getLastD s

end PhpHandbook.Text
