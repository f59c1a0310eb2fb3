import PhpHandbook.Text.Markup

/-!
# HTML

A page is a tree of elements and texts.  Texts and attribute values hold characters as they are
meant; printing escapes them, so they cannot break the tree.  Anchors are printed as they stand, and
markup that is made elsewhere enters as a ready piece.

The renderer of pages writes texts with its escaping function and tags as they are; here this is
`Html.print`, so what a page is made of can be told from its tree.
-/

namespace PhpHandbook

/-- A piece of a page. -/
inductive Html where
  /-- Characters as they are meant. -/
  | text (s : String)
  /-- An element with its content. -/
  | element (tag : String) (attributes : List (String × String)) (content : List Html)
  /-- An element that links lead to, with its anchor behind its other attributes. -/
  | anchored (tag : String) (attributes : List (String × String)) (id : String)
      (content : List Html)
  /-- An element that has no content and is not closed. -/
  | single (tag : String) (attributes : List (String × String))
  /-- Markup that is printed as it stands. -/
  | ready (markup : String)

namespace Html

/-- The printed attributes of a tag. -/
def printAttributes (attributes : List (String × String)) : String :=
  String.join (attributes.map fun (name, value) =>
    " " ++ name ++ "=\"" ++ Text.markup value ++ "\"")

mutual

/-- **The printed form** of a piece. -/
def print : Html → String
  | .text s => Text.markup s
  | .element tag attributes content =>
    "<" ++ tag ++ printAttributes attributes ++ ">" ++ printAll content ++ "</" ++ tag ++ ">"
  | .anchored tag attributes id content =>
    "<" ++ tag ++ printAttributes attributes ++ " id=\"" ++ id ++ "\">" ++ printAll content ++
      "</" ++ tag ++ ">"
  | .single tag attributes => "<" ++ tag ++ printAttributes attributes ++ ">"
  | .ready markup => markup

/-- The printed form of several pieces. -/
def printAll : List Html → String
  | [] => ""
  | h :: rest => h.print ++ printAll rest

end

/-- An element with a class. -/
def classed (tag className : String) (content : List Html) : Html :=
  .element tag [("class", className)] content

/-- An element without attributes. -/
def plain (tag : String) (content : List Html) : Html :=
  .element tag [] content

/-- A link. -/
def anchor (href label : String) : Html :=
  .element "a" [("href", href)] [.text label]

/-- A line of a page: blanks, pieces, and a line end. -/
def line (indent : String) (content : List Html) : List Html :=
  .text indent :: content ++ [.text "\n"]

/-- An element over several lines: its tags stand on lines of their own. -/
def block (indent tag : String) (attributes : List (String × String)) (content : List Html) :
    List Html :=
  line indent [.element tag attributes (.text "\n" :: content ++ [.text indent])]

/-- Pieces with a text between them. -/
def separated (separator : String) : List (List Html) → List Html
  | [] => []
  | [piece] => piece
  | piece :: rest => piece ++ .text separator :: separated separator rest

end Html

end PhpHandbook
