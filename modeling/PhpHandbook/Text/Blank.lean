import PhpHandbook.Text.CharTable

/-!
# Blank characters

The 25 characters with the property White_Space, and trimming by them.
-/

namespace PhpHandbook.Text

/-- The blank characters. -/
def blankTable : Array Stride := #[
    (0x9, 0xD, 1), (0x20, 0x20, 1), (0x85, 0x85, 1), (0xA0, 0xA0, 1), (0x1680, 0x1680, 1),
    (0x2000, 0x200A, 1), (0x2028, 0x2029, 1), (0x202F, 0x202F, 1), (0x205F, 0x205F, 1),
    (0x3000, 0x3000, 1)]

/-- **Blank characters**: spaces, line ends, and the other characters with the property
White_Space. -/
def isBlank (c : Char) : Bool :=
  inTable blankTable c

/-- Drops the blank characters at the front. -/
def dropBlank (cs : List Char) : List Char :=
  cs.dropWhile isBlank

/-- Drops the blank characters at the end. -/
def dropBlankEnd (cs : List Char) : List Char :=
  (cs.reverse.dropWhile isBlank).reverse

/-- Drops the blank characters at both ends. -/
def stripBlank (cs : List Char) : List Char :=
  dropBlankEnd (dropBlank cs)

/-- The text without blank characters at its ends. -/
def trim (s : String) : String :=
  String.ofList (stripBlank s.toList)

/-- The text without blank characters at its end. -/
def trimEnd (s : String) : String :=
  String.ofList (dropBlankEnd s.toList)


end PhpHandbook.Text
