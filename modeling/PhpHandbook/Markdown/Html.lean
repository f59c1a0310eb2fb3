import PhpHandbook.Markdown.Block
import PhpHandbook.Text.Blank

/-!
# Documents as HTML

A block starts on a line of its own, so the writer keeps track of whether a line was just ended.
Raw HTML is left out, and links with an address that could run a script lose it.

## Main definitions

* `toHtml`: a document as HTML.
* `toInlineHtml`: a one-line document, made by any such writer, without the paragraph around it.
-/

namespace PhpHandbook.Markdown

open Text (occursIn)

/-! ### Escaping -/

/-- The written form of a character of text. -/
def textChar : Char → String
  | '&' => "&amp;"
  | '<' => "&lt;"
  | '>' => "&gt;"
  | c => c.toString

/-- The written form of a character of an attribute. -/
def attributeChar : Char → String
  | '"' => "&quot;"
  | '\'' => "&#39;"
  | c => textChar c

/-- Characters of an address that stand for themselves. -/
def isAddressChar (c : Char) : Bool :=
  c.isAlphanum || "!#$%()*+,-./:;=?@_~".toList.contains c

/-- A byte of an address as two hexadecimal digits. -/
def percentByte (b : UInt8) : String :=
  let digit (n : Nat) : Char := (Nat.digitChar n).toUpper
  String.ofList ['%', digit (b.toNat / 16), digit (b.toNat % 16)]

/-- The written form of a character of an address: the bytes of all but the safe characters are
written as numbers. -/
def addressChar (c : Char) : String :=
  if c = '&' then "&amp;"
  else if c = '\'' then "&#x27;"
  else if isAddressChar c then c.toString
  else String.join (c.toString.toUTF8.toList.map percentByte)

/-- Whether an address could run a script or reach a file. -/
def isUnsafe (url : List Char) : Bool :=
  let lower := (Text.stripBlank url).map Char.toLower
  let starts (front : String) : Bool := front.toList.isPrefixOf lower
  if starts "data:" then
    ["data:image/png", "data:image/gif", "data:image/jpeg", "data:image/webp"].all (!starts ·)
  else ["javascript:", "vbscript:", "file:"].any starts

/-- The written form of the address of a link. -/
def address (url : List Char) : String :=
  String.join ((if isUnsafe url then [] else url).map addressChar)

/-! ### Output -/

/-- What is written so far, and whether it ends a line. -/
structure Output where
  /-- The text. -/
  text : String := ""
  /-- Whether nothing or a line end was written last. -/
  fresh : Bool := true

namespace Output

/-- Writes a text. -/
def write (out : Output) (s : String) : Output :=
  match s.toList.getLast? with
  | some c => ⟨out.text ++ s, c == '\n'⟩
  | none => out

/-- Writes a text on a new line. -/
def writeFresh (out : Output) (s : String) : Output :=
  (if out.fresh then out else out.write "\n").write s

end Output

/-- A title behind the address of a link. -/
def titleText (target : Target) : String :=
  if target.title.isEmpty then ""
  else "\" title=\"" ++ String.join (target.title.map attributeChar)

mutual

/-- The text that stands in for an image. -/
def altText : Inline → String
  | .text cs => String.join (cs.map attributeChar)
  | .code cs => String.join (cs.map attributeChar)
  | .softBreak => " "
  | .hardBreak => " "
  | .emphasis content => altTexts content
  | .strong content => altTexts content
  | .struck content => altTexts content
  | .link _ content => altTexts content
  | .mail address => String.join (address.map attributeChar)
  | .image _ content => altTexts content

/-- The text that stands in for an image. -/
def altTexts : List Inline → String
  | [] => ""
  | i :: rest => altText i ++ altTexts rest

end

mutual

/-- Content as HTML. -/
def inlineHtml : Inline → String
  | .text cs => String.join (cs.map textChar)
  | .code cs => "<code>" ++ String.join (cs.map textChar) ++ "</code>"
  | .softBreak => "\n"
  | .hardBreak => "<br />\n"
  | .emphasis content => "<em>" ++ inlinesHtml content ++ "</em>"
  | .strong content => "<strong>" ++ inlinesHtml content ++ "</strong>"
  | .struck content => "<del>" ++ inlinesHtml content ++ "</del>"
  | .link target content =>
    "<a href=\"" ++ address target.url ++ titleText target ++ "\">" ++ inlinesHtml content ++ "</a>"
  | .mail mailbox =>
    "<a href=\"mailto:" ++ address mailbox ++ "\">" ++ String.join (mailbox.map textChar) ++ "</a>"
  | .image target content =>
    "<img src=\"" ++ address target.url ++ "\" alt=\"" ++ altTexts content ++ titleText target ++
      "\" />"

/-- Content as HTML. -/
def inlinesHtml : List Inline → String
  | [] => ""
  | i :: rest => inlineHtml i ++ inlinesHtml rest

end

/-- Characters as HTML. -/
def contentHtml (targets : Targets) (cs : List Char) : String :=
  inlinesHtml (readInlines targets cs)

/-! ### Blocks -/

/-- The box of a task. -/
def taskHtml : Option Bool → String
  | none => ""
  | some true => "<input disabled=\"\" type=\"checkbox\" checked=\"\"/>\n"
  | some false => "<input disabled=\"\" type=\"checkbox\"/>\n"

/-- The opening of a cell. -/
def cellOpening (tag : String) : Alignment → String
  | .none => "<" ++ tag ++ ">"
  | .left => "<" ++ tag ++ " style=\"text-align: left\">"
  | .center => "<" ++ tag ++ " style=\"text-align: center\">"
  | .right => "<" ++ tag ++ " style=\"text-align: right\">"

/-- The cells of a row. -/
def cellsHtml (targets : Targets) (tag : String) (columns : List Alignment)
    (cells : List (List Char)) : String :=
  String.join (List.zipWith (fun a cell =>
    cellOpening tag a ++ contentHtml targets cell ++ "</" ++ tag ++ ">") columns cells)

/-- A table. -/
def tableHtml (targets : Targets) (columns : List Alignment) : List (List (List Char)) → String
  | [] => ""
  | head :: rows =>
    "<table><thead><tr>" ++ cellsHtml targets "th" columns head ++ "</tr></thead><tbody>\n" ++
      String.join (rows.map fun row =>
        "<tr>" ++ cellsHtml targets "td" columns row ++ "</tr>\n") ++
      "</tbody></table>\n"

/-- The opening of a block of code, with the first word behind its fence as the language. -/
def codeOpening (info : List Char) : String :=
  let language := info.takeWhile (· != ' ')
  if language.isEmpty then "<pre><code>"
  else "<pre><code class=\"language-" ++ String.join (language.map attributeChar) ++ "\">"

/-- The opening of a list. -/
def listOpening : Option Nat → String
  | none => "<ul>\n"
  | some n => if n = 1 then "<ol>\n" else "<ol start=\"" ++ toString n ++ "\">\n"

mutual

/-- Writes a block.  In a tight list paragraphs are written without their tags; `task` is the box
in front of the first paragraph. -/
def writeBlock (targets : Targets) (tight : Bool) (task : Option Bool) (out : Output) :
    Block → Output
  | .paragraph text =>
    if tight then (out.write (taskHtml task)).write (contentHtml targets text)
    else
      ((out.writeFresh ("<p>" ++ taskHtml task)).write (contentHtml targets text)).write "</p>\n"
  | .heading level text =>
    let out := out.write (taskHtml task)
    ((out.writeFresh s!"<h{level}>").write (contentHtml targets text)).write s!"</h{level}>\n"
  | .code info text =>
    ((out.writeFresh (codeOpening info)).write (String.join (text.map textChar))).write
      "</code></pre>\n"
  | .rule => out.writeFresh "<hr />\n"
  | .raw => out
  | .quote content =>
    (writeBlocks targets false none (out.writeFresh "<blockquote>\n") content).write
      "</blockquote>\n"
  | .list number tight items =>
    (writeItems targets tight (out.writeFresh (listOpening number)) items).write
      (if number.isSome then "</ol>\n" else "</ul>\n")
  | .table columns rows => out.write (tableHtml targets columns rows)

/-- Writes blocks. -/
def writeBlocks (targets : Targets) (tight : Bool) (task : Option Bool) (out : Output) :
    List Block → Output
  | [] => out
  | b :: rest => writeBlocks targets tight none (writeBlock targets tight task out b) rest

/-- Writes the items of a list. -/
def writeItems (targets : Targets) (tight : Bool) (out : Output) :
    List (Option Bool × List Block) → Output
  | [] => out
  | (task, content) :: rest =>
    let item := writeBlocks targets tight task (out.writeFresh "<li>") content
    writeItems targets tight (item.write "</li>\n") rest

end

/-! ### Documents -/

/-- **A document as HTML.** -/
def toHtml (text : String) : String :=
  let (blocks, targets) := readDocument text
  (writeBlocks targets false none {} blocks).text

/-- **A document of one paragraph as HTML without the paragraph's tags**, and any other document as
it is; `toHtml` makes HTML of documents. -/
def toInlineHtml (toHtml : String → String) (text : String) : String :=
  let html := toHtml text
  let trimmed := Text.dropBlankEnd html.toList
  if "<p>".toList.isPrefixOf trimmed && "</p>".toList.isSuffixOf trimmed &&
    7 ≤ trimmed.length then
    let inner := String.ofList ((trimmed.drop 3).take (trimmed.length - 7))
    if occursIn "<p>" inner then html else inner
  else html

end PhpHandbook.Markdown
