import PhpHandbook.Markdown.LinkParts
import PhpHandbook.Text.Replace

/-!
# Raw HTML

Which characters make up a tag, a comment, an instruction, a declaration or a section of character
data.  Raw HTML is recognised and left out of the output, so only its extent matters.
-/

namespace PhpHandbook.Markdown

open Text (run occursInChars)

/-- Characters of a tag's name behind its first letter. -/
def isTagPart (c : Char) : Bool :=
  c.isAlphanum || c == '-'

/-- Characters that may start the name of an attribute. -/
def isAttributeStart (c : Char) : Bool :=
  c.isAlpha || c == '_' || c == ':'

/-- Characters of an attribute's name. -/
def isAttributePart (c : Char) : Bool :=
  isAttributeStart c || c.isDigit || c == '.' || c == '-'

/-- Characters of a value without quotes. -/
def isBareValuePart (c : Char) : Bool :=
  !(isSpaceOrEnd c || c ≤ ' ' || "\"'=<>`".toList.contains c)

/-- The number of characters up to and including the first occurrence of a text. -/
def through? (stop : List Char) : List Char → Option Nat
  | [] => if stop.isEmpty then some 0 else none
  | c :: cs =>
    if stop.isPrefixOf (c :: cs) then some stop.length else (through? stop cs).map (· + 1)

/-- The number of characters of an attribute's value. -/
def attributeValue? : List Char → Option Nat
  | [] => none
  | c :: cs =>
    if c = '"' ∨ c = '\'' then (through? [c] cs).map (· + 1)
    else
      let n := run isBareValuePart (c :: cs)
      if n = 0 then none else some n

/-- The number of characters of an attribute. -/
def attribute? (cs : List Char) : Option Nat :=
  if cs.head?.any isAttributeStart then
    let n := run isAttributePart cs
    let gap := run isSpaceOrEnd (cs.drop n)
    match cs.drop (n + gap) with
    | '=' :: rest =>
      let space := run isSpaceOrEnd rest
      (attributeValue? (rest.drop space)).map (n + gap + 1 + space + ·)
    | _ => some n
  else none

/-- The number of characters of the attributes of a tag with its closing bracket. -/
def tagRest? (cs : List Char) : Option Nat :=
  let gap := run isSpaceOrEnd cs
  match cs.drop gap with
  | '>' :: _ => some (gap + 1)
  | '/' :: '>' :: _ => some (gap + 2)
  | _ =>
    if gap = 0 then none
    else
      match attribute? (cs.drop gap) with
      | some n => (tagRest? (cs.drop (gap + n))).map (gap + n + ·)
      | none => none
termination_by cs.length
decreasing_by
  simp only [List.length_drop]
  have : gap ≤ cs.length := List.IsPrefix.length_le (List.takeWhile_prefix _)
  omega

/-- The number of characters of an opening or closing tag, from behind its opening bracket. -/
def tag? : List Char → Option Nat
  | '/' :: cs =>
    if cs.head?.any Char.isAlpha then
      let n := run isTagPart cs
      let gap := run isSpace (cs.drop n)
      if (cs.drop (n + gap)).head? = some '>' then some (n + gap + 2) else none
    else none
  | cs =>
    if cs.head?.any Char.isAlpha then
      let n := run isTagPart cs
      (tagRest? (cs.drop n)).map (n + ·)
    else none

/-- **The number of characters of raw HTML** inside a line of text, from behind its opening
bracket. -/
def rawHtml? : List Char → Option Nat
  | '!' :: '-' :: '-' :: '>' :: _ => some 4
  | '!' :: '-' :: '-' :: '-' :: '>' :: _ => some 5
  | '!' :: '-' :: '-' :: cs => (through? "-->".toList cs).map (· + 3)
  | '!' :: '[' :: cs =>
    if "CDATA[".toList.isPrefixOf cs then
      let body := cs.drop 6
      let n := run (· != ']') body
      let brackets := run (· == ']') (body.drop n)
      if brackets ≠ 0 ∧ (body.drop (n + brackets)).head? = some '>' then
        some (2 + 6 + n + brackets + 1)
      else none
    else none
  | '!' :: c :: cs => if c.isAlpha then (through? ['>'] cs).map (· + 2) else none
  | '?' :: cs => (through? "?>".toList cs).map (· + 1)
  | cs => tag? cs

/-! ### Blocks of raw HTML -/

/-- Names of tags that open a block wherever they stand. -/
def blockTags : List String :=
  ["address", "article", "aside", "base", "basefont", "blockquote", "body", "caption", "center",
    "col", "colgroup", "dd", "details", "dialog", "dir", "div", "dl", "dt", "fieldset",
    "figcaption", "figure", "footer", "form", "frame", "frameset", "h1", "h2", "h3", "h4", "h5",
    "h6", "head", "header", "hr", "html", "iframe", "legend", "li", "link", "main", "menu",
    "menuitem", "nav", "noframes", "ol", "optgroup", "option", "p", "param", "search", "section",
    "summary", "table", "tbody", "td", "tfoot", "th", "thead", "title", "tr", "track", "ul"]

/-- How a block of raw HTML ends. -/
inductive HtmlEnd where
  /-- With the line that holds the given text. -/
  | text (stop : List Char)
  /-- In front of a blank line. -/
  | blank
deriving DecidableEq, Repr

/-- Tags whose content is taken as it stands, up to their closing tag. -/
def verbatimTags : List String :=
  ["pre", "style", "script", "textarea"]

/-- The block of raw HTML that a line opens and that may also follow a paragraph directly, from
behind the opening bracket of the line. -/
def htmlBlock? (cs : List Char) : Option HtmlEnd :=
  let lower := cs.map Char.toLower
  match verbatimTags.find? fun tag =>
      tag.toList.isPrefixOf lower &&
        (lower.drop tag.length).head?.all fun c => isSpaceOrEnd c || c == '>' with
  | some tag => some (.text ("</".toList ++ tag.toList ++ ">".toList))
  | none =>
    if "!--".toList.isPrefixOf cs then some (.text "-->".toList)
    else if "?".toList.isPrefixOf cs then some (.text "?>".toList)
    else if "![CDATA[".toList.isPrefixOf cs then some (.text "]]>".toList)
    else if cs.head? = some '!' ∧ (cs.drop 1).head?.any Char.isAlpha then some (.text ">".toList)
    else
      let name := if lower.head? = some '/' then lower.drop 1 else lower
      let n := run Char.isAlphanum name
      let rest := name.drop n
      if blockTags.contains (String.ofList (name.take n)) &&
          (rest.head?.all fun c => isSpaceOrEnd c || c == '>') || "/>".toList.isPrefixOf rest &&
          blockTags.contains (String.ofList (name.take n)) then some .blank
      else none

/-- Whether a line, from behind its opening bracket, holds one tag and nothing else. -/
def isLoneTag (cs : List Char) : Bool :=
  match tag? cs with
  | some n => (cs.drop n).all isSpace
  | none => false

end PhpHandbook.Markdown
