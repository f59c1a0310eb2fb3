import PhpHandbook.Text.Blank
import PhpHandbook.Text.Split

/-!
# Blocks of a comment

A comment is cut into paragraphs of text and tags.  Its lines lose their delimiters first; an
empty line ends a block, a line that starts with `@name` starts a tag, and any other line goes on
with the block before it.

This is the first step of the parser of documentation comments, which splits a comment into blocks:
`cleanLine` strips a line of its delimiters, `tagLine?` recognises the first line of a tag, and
`blocks` splits the comment.
-/

namespace PhpHandbook.DocBlock

/-- A block of a comment, as its cleaned lines. -/
inductive Block where
  /-- A paragraph. -/
  | text (lines : List String)
  /-- A tag: its name, the rest of its line, and the lines that follow. -/
  | tag (name : String) (body : List String)
deriving DecidableEq, Repr

/-- Drops a fixed beginning if it is there. -/
def dropFront (front cs : List Char) : List Char :=
  if front.isPrefixOf cs then cs.drop front.length else cs

/-- Drops a fixed end if it is there. -/
def dropBack (back cs : List Char) : List Char :=
  if back.isSuffixOf cs then cs.take (cs.length - back.length) else cs

/-- A line of a comment without its delimiters, its leading star and the blanks around it. -/
def cleanLine (line : List Char) : List Char :=
  Text.stripBlank (dropFront ['*'] (Text.dropBlank
    (dropBack ['*', '/'] (dropFront ['/', '*', '*'] (Text.stripBlank line)))))

/-- Characters that may start the name of a tag. -/
def isTagStart (c : Char) : Bool :=
  c.isAlpha || c == '_'

/-- Characters that may continue the name of a tag. -/
def isTagPart (c : Char) : Bool :=
  isTagStart c || c.isDigit || c == '-' || c == '\\' || c == ':'

/-- The name of a tag and what follows it, if the line starts one. -/
def tagLine? : List Char → Option (List Char × List Char)
  | '@' :: c :: cs =>
    if isTagStart c then some (c :: cs.takeWhile isTagPart, cs.dropWhile isTagPart) else none
  | _ => none

/-- The block that is being read, its lines in reverse order. -/
inductive Open where
  | nothing
  | text (lines : List String)
  | tag (name : String) (body : List String)

/-- The finished block, if there is one. -/
def Open.close : Open → List Block
  | .nothing => []
  | .text lines => [.text lines.reverse]
  | .tag name body => [.tag name body.reverse]

/-- The blocks of the given cleaned lines, where one block is still being read. -/
def blocksFrom (current : Open) : List (List Char) → List Block
  | [] => current.close
  | line :: lines =>
    if line.isEmpty then current.close ++ blocksFrom .nothing lines
    else
      match tagLine? line with
      | some (name, body) =>
        current.close ++
          blocksFrom (.tag (String.ofList name) [String.ofList (Text.stripBlank body)]) lines
      | none =>
        match current with
        | .nothing => blocksFrom (.text [String.ofList line]) lines
        | .text more => blocksFrom (.text (String.ofList line :: more)) lines
        | .tag name more => blocksFrom (.tag name (String.ofList line :: more)) lines

/-- **The blocks** of a comment. -/
def blocks (comment : String) : List Block :=
  blocksFrom .nothing ((Text.splitChars '\n' comment.toList).map cleanLine)

end PhpHandbook.DocBlock
