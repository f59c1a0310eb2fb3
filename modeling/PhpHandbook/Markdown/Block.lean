import PhpHandbook.Markdown.InlineReader
import PhpHandbook.Markdown.Line

/-!
# Blocks of a document

A document is a list of blocks.  Quotes and lists hold blocks themselves; they are open while the
lines that follow go on with them.  The text in a block is kept as characters, because what its
links lead to is known only at the end of the document.

## Main definitions

* `Block`: paragraphs, headings, code, rules, raw HTML, quotes, lists and tables.
* `Nest`: the blocks so far and the containers that are open.
* `readDocument`: the blocks of a text and the targets it defines.
-/

namespace PhpHandbook.Markdown

open Text (occursInChars)

/-- A block. -/
inductive Block where
  /-- A paragraph. -/
  | paragraph (text : List Char)
  /-- A heading. -/
  | heading (level : Nat) (text : List Char)
  /-- Code, with what stands behind its fence. -/
  | code (info : List Char) (text : List Char)
  /-- A rule. -/
  | rule
  /-- Raw HTML, of which nothing is shown. -/
  | raw
  /-- A quote. -/
  | quote (content : List Block)
  /-- A list: the number of its first item, whether its items stand close together, and the items,
  each with the state of its task. -/
  | list (number : Option Nat) (tight : Bool) (items : List (Option Bool × List Block))
  /-- A table, its head first. -/
  | table (columns : List Alignment) (rows : List (List (List Char)))

/-- An open container, with what it holds so far, last first. -/
inductive Frame where
  /-- A quote. -/
  | quote (content : List Block)
  /-- A list: the mark of its items, the first number, whether it is tight, and its items. -/
  | list (mark : Char) (number : Option Nat) (tight : Bool)
      (items : List (Option Bool × List Block))
  /-- An item: how far its lines are indented, and the state of its task. -/
  | item (indent : Nat) (task : Option Bool) (content : List Block)

/-- The blocks so far. -/
structure Nest where
  /-- The blocks outside of open containers, last first. -/
  base : List Block := []
  /-- The open containers, innermost first. -/
  frames : List Frame := []
  /-- Whether the line in front was blank. -/
  blank : Bool := false
  /-- Whether the line in front opened an item and held nothing else. -/
  bare : Bool := false
  /-- The targets defined so far. -/
  targets : Targets := []

namespace Nest

/-- Adds a block to the innermost container. -/
def add (nest : Nest) (block : Block) : Nest :=
  match nest.frames with
  | .quote content :: rest => { nest with frames := .quote (block :: content) :: rest }
  | .item indent task content :: rest =>
    { nest with frames := .item indent task (block :: content) :: rest }
  | _ => { nest with base := block :: nest.base }

/-- Closes the innermost container. -/
def pop (nest : Nest) : Nest :=
  match nest.frames with
  | [] => nest
  | .quote content :: rest => add { nest with frames := rest } (.quote content.reverse)
  | .list _ number tight items :: rest =>
    add { nest with frames := rest } (.list number tight items.reverse)
  | .item _ task content :: .list mark number tight items :: rest =>
    { nest with frames := .list mark number tight ((task, content.reverse) :: items) :: rest }
  | .item _ _ content :: rest =>
    { nest with frames := rest, base := content ++ nest.base }

/-- Closes all but the outermost `n` containers. -/
def popTo (n : Nat) (nest : Nest) : Nest :=
  (List.range (nest.frames.length - n)).foldl (fun nest _ => nest.pop) nest

/-- Marks the list around the innermost item as one whose items stand apart. -/
def loosen (nest : Nest) : Nest :=
  match nest.frames with
  | f :: .list mark number _ items :: rest =>
    { nest with frames := f :: .list mark number false items :: rest }
  | _ => nest

/-- Ends a list in front of a block that is no item of it.  A blank line in front of a further block
in an item sets the items of its list apart. -/
def finishList (nest : Nest) : Nest :=
  let nest := match nest.frames with
    | .list .. :: _ => nest.pop
    | _ => nest
  let nest := if nest.blank then nest.loosen else nest
  { nest with blank := false }

/-- Goes on with a list whose items have the given mark, or starts one.  A blank line between items
sets them apart. -/
def continueList (nest : Nest) (m : ItemMark) : Nest :=
  match nest.frames with
  | .list mark number tight items :: rest =>
    if mark = m.mark then
      { nest with frames := .list mark number (tight && !nest.blank) items :: rest, blank := false }
    else
      let nest := nest.finishList
      { nest with frames := .list m.mark m.number true [] :: nest.frames, blank := false }
  | _ =>
    let nest := nest.finishList
    { nest with frames := .list m.mark m.number true [] :: nest.frames, blank := false }

/-- Opens a container. -/
def push (nest : Nest) (frame : Frame) : Nest :=
  { nest with frames := frame :: nest.frames }

end Nest

/-! ### Containers -/

/-- How many of the containers, outermost first, a line goes on with, and where their content
starts.  A blank line goes on with an item. -/
def enter (cursor : Cursor) : List Frame → Nat × Cursor
  | [] => (0, cursor)
  | .list .. :: frames =>
    let (n, after) := enter cursor frames
    (n + 1, after)
  | .quote _ :: frames =>
    match (cursor.spaces 3).2.quoteMark? with
    | some inside =>
      let (n, after) := enter inside frames
      (n + 1, after)
    | none => (0, cursor)
  | .item indent _ _ :: frames =>
    let (n, inside) := cursor.spaces indent
    if n = indent ∨ inside.rest.isEmpty then
      let (n, after) := enter inside frames
      (n + 1, after)
    else (0, cursor)

/-- The content of an item behind its mark: how far it is indented, and where it starts. -/
def itemContent (indent : Nat) (m : ItemMark) (cursor : Cursor) : Nat × Cursor :=
  let after := ((cursor.skip m.width).spaces 1).2
  let indent := indent + m.width + 1
  if after.isBlank then (indent, after)
  else
    let (n, inside) := after.spaces 4
    if n < 4 then (indent + n, inside) else (indent, after)

/-- Opens the containers that start at a place in a line, and tells where their content starts. -/
def openContainers (nest : Nest) (cursor : Cursor) : Nest × Cursor :=
  let (indent, inside) := cursor.spaces 4
  if indent = 4 then (nest, cursor)
  else
    match itemMark? inside.rest with
    | some m =>
      if isRule inside.rest then (nest, cursor)
      else
        let (width, content) := itemContent indent m inside
        let nest := nest.continueList m
        if content.isBlank then
          ({ nest.push (.item width none []) with bare := true }, ⟨content.column, 0, []⟩)
        else
          let (task, content) := match taskMark? content with
            | some (task, after) => (some task, after)
            | none => (none, content)
          let nest := nest.push (.item width task [])
          if content.rest.length < cursor.rest.length then openContainers nest content
          else (nest, content)
    | none =>
      match inside.quoteMark? with
      | some content =>
        let nest := nest.finishList.push (.quote [])
        if content.rest.length < cursor.rest.length then openContainers nest content
        else (nest, content)
      | none => (nest, cursor)
termination_by cursor.rest.length

/-! ### Blocks over several lines -/

/-- The lines of a block of code up to its closing fence, and how many there are. -/
def readFenced (frames : List Frame) (indent : Nat) (fence : Fence) :
    List (List Char) → List Char × Nat
  | [] => ([], 0)
  | line :: lines =>
    let (n, cursor) := enter ⟨0, 0, line⟩ frames
    if n < frames.length then ([], 0)
    else
      let inside := (cursor.spaces indent).2
      let (n, close) := inside.spaces (4 - indent)
      if n < 4 - indent ∧ fence.isClosedBy close.rest then ([], 1)
      else
        let (text, n) := readFenced frames indent fence lines
        (inside.text ++ (if lines.isEmpty then [] else ['\n']) ++ text, n + 1)

/-- The lines of a block of indented code behind its first one, and how many there are, with the
blank lines at the end, whose text is dropped.  The result also tells whether there are such. -/
def readIndented (frames : List Frame) : List (List Char) → List Char × Nat × Bool
  | [] => ([], 0, false)
  | line :: lines =>
    let (n, cursor) := enter ⟨0, 0, line⟩ frames
    let (k, inside) := cursor.spaces 4
    if n < frames.length ∨ !(k = 4 ∨ inside.rest.isEmpty) then ([], 0, false)
    else
      let (text, n, blank) := readIndented frames lines
      let blankLine := inside.isBlank
      if blankLine ∧ text.isEmpty then ([], n + 1, true)
      else (inside.text ++ (if lines.isEmpty then [] else ['\n']) ++ text, n + 1, blank)

/-- How many lines behind the first one, which is given, belong to a block of raw HTML. -/
def readRaw (frames : List Frame) (ending : HtmlEnd) (first : List Char) :
    List (List Char) → Nat
  | [] => 0
  | line :: lines =>
    let (n, cursor) := enter ⟨0, 0, line⟩ frames
    let ended := match ending with
      | .text stop => occursInChars stop first
      | .blank => cursor.isBlank
    if n < frames.length || ended then 0
    else 1 + readRaw frames ending cursor.rest lines

/-- The rows of a table, and how many there are. -/
def readRows (frames : List Frame) (columns : Nat) :
  List (List Char) → List (List (List Char)) × Nat
  | [] => ([], 0)
  | line :: lines =>
    let (n, cursor) := enter ⟨0, 0, line⟩ frames
    let cs := cursor.rest.dropWhile isSpace
    if n < frames.length || cs.isEmpty || interrupts true cs then ([], 0)
    else
      let (rows, n) := readRows frames columns lines
      (rowCells columns cs :: rows, n + 1)

/-- How a paragraph ends. -/
inductive ParagraphEnd where
  /-- With its last line. -/
  | plain
  /-- With a line that makes it a heading. -/
  | heading (level : Nat)
  /-- With the head of a table. -/
  | table (head : List Char) (columns : List Alignment)

/-- Reads the lines of a paragraph behind those in `text`, last first, and counts the lines behind
the first one.  `head` tells whether the last line may be the head of a table. -/
def readParagraph (frames : List Frame) (text : List (List Char)) (head : Bool) :
    List (List Char) → List (List Char) × ParagraphEnd × Nat
  | [] => (text, .plain, 0)
  | line :: lines =>
    let (n, cursor) := enter ⟨0, 0, line⟩ frames
    let current := n == frames.length
    let (indent, inside) := cursor.spaces 4
    let last := text.headD []
    let table := if current && head && (bars 0 last last).1 != 0 then
        (tableRule? cursor).filter (·.length == headColumns last)
      else none
    match table with
    | some columns => (text.drop 1, .table last columns, 1)
    | none =>
      match if current && indent < 4 then underline? inside.rest else none with
      | some level => (text, .heading level, 1)
      | none =>
        if inside.isBlank || indent < 4 && interrupts current inside.rest then (text, .plain, 0)
        else
          let (text, ending, n) := readParagraph frames (inside.rest.dropWhile isSpace :: text)
            (current && indent < 4) lines
          (text, ending, n + 1)

/-- The lines that go on with a paragraph whose first line is given. -/
def continuation (frames : List Frame) : List (List Char) → List (List Char)
  | [] => []
  | line :: lines =>
    let (n, cursor) := enter ⟨0, 0, line⟩ frames
    let (indent, inside) := cursor.spaces 4
    if inside.isBlank || indent < 4 && interrupts (n == frames.length) inside.rest then []
    else inside.rest.dropWhile isSpace :: continuation frames lines

/-- Lines with line ends between them. -/
def joinLines (lines : List (List Char)) : List Char :=
  (lines.intersperse ['\n']).flatten

/-! ### Documents -/

/-- Reads the block that starts at a place in a line, and counts the further lines it takes. -/
def readLeaf (nest : Nest) (cursor : Cursor) (lines : List (List Char)) : Nest × Nat :=
  let frames := nest.frames.reverse
  let (indent, inside) := cursor.spaces 4
  let cs := inside.rest
  if indent = 4 then
    let nest := nest.finishList
    let (text, n, blank) := readIndented nest.frames.reverse lines
    let text := inside.text ++ (if lines.isEmpty then [] else ['\n']) ++ text
    ({ nest.add (.code [] text) with blank }, n)
  else
    let finished := nest.finishList
    let within := finished.frames.reverse
    let raw := if cs.head? = some '<' then
        (htmlBlock? (cs.drop 1)).or (if isLoneTag (cs.drop 1) then some .blank else none)
      else none
    match raw, isRule cs, heading? cs, fence? cs with
    | some ending, _, _, _ => (finished.add .raw, readRaw within ending cs lines)
    | none, true, _, _ => (finished.add .rule, 0)
    | none, false, some (level, text), _ => (finished.add (.heading level text), 0)
    | none, false, none, some fence =>
      let (text, n) := readFenced within indent fence lines
      (finished.add (.code fence.info text), n)
    | none, false, none, none =>
      match definition? (joinLines (cs :: continuation frames lines)) with
      | some (label, target, n) =>
        let known := (finished.targets.find? label).isSome
        let targets := if known then finished.targets
          else finished.targets ++ [(labelKey label, target)]
        let taken := (joinLines (cs :: continuation frames lines)).take n
        ({ finished with targets }, taken.count '\n')
      | none =>
        let (text, ending, n) := readParagraph within [cs] true lines
        let joined := joinLines text.reverse
        match ending with
        | .plain => (finished.add (.paragraph joined), n)
        | .heading level => (finished.add (.heading level joined), n)
        | .table head columns =>
          let finished := if text.isEmpty then finished else finished.add (.paragraph joined)
          let (rows, k) := readRows within columns.length (lines.drop n)
          (finished.add (.table columns (rowCells columns.length head :: rows)), n + k)

/-- Takes a blank line.  An item that holds nothing yet, as `bare` tells, ends with it. -/
def takeBlank (bare : Bool) (nest : Nest) : Nest :=
  match nest.frames with
  | .quote _ :: _ => nest
  | .item .. :: _ => { (if bare then nest.pop else nest) with blank := true }
  | _ => { nest with blank := true }

/-- Takes the lines of a document. -/
def readLines (nest : Nest) : List (List Char) → Nest
  | [] => nest
  | line :: lines =>
    let (n, cursor) := enter ⟨0, 0, line⟩ nest.frames.reverse
    let (opened, content) := openContainers { nest.popTo n with bare := false } cursor
    if opened.bare then readLines opened lines
    else if content.isBlank then readLines (takeBlank nest.bare opened) lines
    else
      let (after, n) := readLeaf opened content lines
      readLines after (lines.drop n)
termination_by lines => lines.length
decreasing_by all_goals simp_wf; try omega

/-- The lines of a text. -/
def splitLines (line : List Char) : List Char → List (List Char)
  | [] => [line.reverse]
  | '\r' :: '\n' :: cs => line.reverse :: splitLines [] cs
  | c :: cs => if c = '\n' ∨ c = '\r' then line.reverse :: splitLines [] cs
    else splitLines (c :: line) cs

/-- **The blocks of a text** and the targets that it defines. -/
def readDocument (text : String) : List Block × Targets :=
  let nest := (readLines {} (splitLines [] text.toList)).popTo 0
  (nest.base.reverse, nest.targets)

end PhpHandbook.Markdown
