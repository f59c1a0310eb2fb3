import PhpHandbook.Markdown.RawHtml

/-!
# Lines of a document

How a line starts decides which block it belongs to.  `Cursor` is a place in a line that knows its
column, so that a tab may be taken in parts; the rest of the module says which kinds of block the
characters at a place open.
-/

namespace PhpHandbook.Markdown

open Text (run numberOf)

/-- A place in a line. -/
structure Cursor where
  /-- The column. -/
  column : Nat := 0
  /-- Blanks of a tab in front that are not taken yet. -/
  owed : Nat := 0
  /-- The characters from here on. -/
  rest : List Char

namespace Cursor

/-- Takes up to `limit` blanks, and counts them. -/
def takeBlanks (limit column : Nat) : List Char → Nat × Cursor
  | ' ' :: cs =>
    if limit = 0 then (0, ⟨column, 0, ' ' :: cs⟩)
    else
      let (n, cursor) := takeBlanks (limit - 1) (column + 1) cs
      (n + 1, cursor)
  | '\t' :: cs =>
    let width := 4 - column % 4
    if limit = 0 then (0, ⟨column, 0, '\t' :: cs⟩)
    else if width ≤ limit then
      let (n, cursor) := takeBlanks (limit - width) (column + width) cs
      (n + width, cursor)
    else (limit, ⟨column + width, width - limit, cs⟩)
  | cs => (0, ⟨column, 0, cs⟩)

/-- **Takes up to `limit` blanks**, and counts them; a tab reaches to the next multiple of four
columns. -/
def spaces (limit : Nat) (cursor : Cursor) : Nat × Cursor :=
  if limit ≤ cursor.owed then (limit, { cursor with owed := cursor.owed - limit })
  else
    let (n, after) := takeBlanks (limit - cursor.owed) cursor.column cursor.rest
    (cursor.owed + n, after)

/-- Goes on behind the next `n` characters. -/
def skip (n : Nat) (cursor : Cursor) : Cursor :=
  ⟨cursor.column + n, 0, cursor.rest.drop n⟩

/-- Whether nothing but blanks is left. -/
def isBlank (cursor : Cursor) : Bool :=
  cursor.rest.all isSpace

/-- What is left, with the blanks that are owed. -/
def text (cursor : Cursor) : List Char :=
  List.replicate cursor.owed ' ' ++ cursor.rest

/-- Goes behind the mark of a quote and one blank. -/
def quoteMark? (cursor : Cursor) : Option Cursor :=
  if cursor.rest.head? = some '>' then some ((cursor.skip 1).spaces 1).2 else none

end Cursor

/-! ### Openings of blocks -/

/-- Whether a line is a rule: three or more equal marks, with blanks between them. -/
def isRule : List Char → Bool
  | c :: cs =>
    (c == '*' || c == '-' || c == '_') && 3 ≤ (c :: cs).count c &&
      cs.all fun d => d == c || d == ' ' || d == '\t'
  | [] => false

/-- The level and the text of a heading. -/
def heading? (cs : List Char) : Option (Nat × List Char) :=
  let level := run (· == '#') cs
  let rest := cs.drop level
  if 1 ≤ level ∧ level ≤ 6 ∧ rest.head?.all isSpaceOrEnd then
    let text := (rest.dropWhile isSpace).reverse.dropWhile isSpace
    let closing := text.dropWhile (· == '#')
    let kept := if closing.isEmpty then []
      else if closing.head? = some ' ' then closing.dropWhile (· == ' ')
      else text
    some (level, kept.reverse)
  else none

/-- The level of the heading that a line makes of the paragraph in front of it. -/
def underline? : List Char → Option Nat
  | c :: cs =>
    if (c = '=' ∨ c = '-') ∧ (cs.dropWhile (· == c)).all isSpace then
      some (if c = '=' then 1 else 2)
    else none
  | [] => none

/-- A fence that opens a block of code. -/
structure Fence where
  /-- The mark. -/
  mark : Char
  /-- The number of marks. -/
  length : Nat
  /-- What stands behind it. -/
  info : List Char

/-- The fence that a line opens. -/
def fence? : List Char → Option Fence
  | c :: cs =>
    let length := 1 + run (· == c) cs
    let rest := (c :: cs).drop length
    if (c = '`' ∨ c = '~') ∧ 3 ≤ length ∧ !(c == '`' && rest.contains '`') then
      let info := ((rest.dropWhile isSpace).reverse.dropWhile isSpace).reverse
      some ⟨c, length, unescape info⟩
    else none
  | [] => none

/-- Whether a line closes a block of code. -/
def Fence.isClosedBy (fence : Fence) (cs : List Char) : Bool :=
  let n := run (· == fence.mark) cs
  fence.length ≤ n && (cs.drop n).all (· == ' ')

/-- The mark of an item of a list: a bullet, or the mark behind a number. -/
structure ItemMark where
  /-- The bullet, or the mark behind the number. -/
  mark : Char
  /-- The number. -/
  number : Option Nat
  /-- The number of characters. -/
  width : Nat

/-- The mark of an item at the front, with a blank or nothing behind it. -/
def itemMark? (cs : List Char) : Option ItemMark :=
  let found : Option ItemMark :=
    match cs with
    | c :: _ =>
      if c = '-' ∨ c = '+' ∨ c = '*' then some ⟨c, none, 1⟩
      else
        let n := run Char.isDigit cs
        match cs.drop n with
        | d :: _ =>
          if 1 ≤ n ∧ n ≤ 9 ∧ (d = '.' ∨ d = ')') then
            some ⟨d, some (numberOf 10 (cs.take n)), n + 1⟩
          else none
        | [] => none
    | [] => none
  found.filter fun m => (cs.drop m.width).head?.all fun c => c == ' ' || c == '\t'

/-- Whether a line that opens no block of its own goes on with a paragraph.  An item interrupts a
paragraph around it always, and inside the same container only if it is not empty and its number,
if any, is one. -/
def interrupts (current : Bool) (cs : List Char) : Bool :=
  isRule cs || (heading? cs).isSome || (fence? cs).isSome || cs.head? == some '>' ||
    (match itemMark? cs with
      | some m =>
        !current || (m.number.all (· == 1) && !(cs.drop m.width).all isSpace)
      | none => false) ||
    (cs.head? == some '<' && (htmlBlock? (cs.drop 1)).isSome)

/-- The mark of a task at the front of an item: whether the task is done. -/
def taskMark? (cursor : Cursor) : Option (Bool × Cursor) :=
  let cursor := (cursor.spaces 3).2
  match cursor.rest with
  | '[' :: c :: ']' :: d :: _ =>
    if isSpace d ∧ (isSpace c ∨ c = 'x' ∨ c = 'X') then
      some (!isSpace c, cursor.skip 3) else none
  | _ => none

/-! ### Tables -/

/-- How a column is aligned. -/
inductive Alignment where
  | none | left | center | right
deriving DecidableEq, Repr

/-- The number of bars that no backslash takes away, and what stands behind the last one. -/
def bars (seen : Nat) (behind : List Char) : List Char → Nat × List Char
  | [] => (seen, behind)
  | '\\' :: c :: cs =>
    if Text.isAsciiPunctuation c then bars seen behind cs else bars seen behind (c :: cs)
  | c :: cs => if c = '|' then bars (seen + 1) cs cs else bars seen behind cs

/-- The number of columns of a line that may be the head of a table. -/
def headColumns (cs : List Char) : Nat :=
  let (n, behind) := bars 0 cs cs
  let n := if (cs.dropWhile isSpace).head? = some '|' then n - 1 else n
  if behind.all isSpace then n else n + 1

/-- The alignments of the cells of a line under the head of a table; `fresh` tells whether a cell
starts here, and `dashed` whether the cell has a dash. -/
def alignments? (fresh dashed : Bool) (now : Alignment) : List Char → Option (List Alignment)
  | [] => some (if fresh then [] else [now])
  | c :: cs =>
    if c = ' ' then alignments? fresh dashed now cs
    else if c = ':' then
      let next : Alignment := match fresh, now with
        | true, .none => .left
        | false, .left => .center
        | false, .none => .right
        | _, a => a
      alignments? false dashed next cs
    else if c = '-' then alignments? false true now cs
    else if c = '|' then
      if dashed then (alignments? true false .none cs).map (now :: ·) else none
    else none

/-- The alignments that a line under the head of a table gives. -/
def tableRule? (cursor : Cursor) : Option (List Alignment) :=
  let (n, after) := cursor.spaces 4
  let cs := after.rest
  if n = 4 ∨ !cs.contains '|' ∨ !cs.contains '-' then none
  else alignments? true false .none (if cs.head? = some '|' then cs.drop 1 else cs)

/-- The cells of a row; a bar behind a backslash belongs to the cell.  `cell` holds the characters
of the cell so far, last first. -/
def splitCells (cell : List Char) : List Char → List (List Char)
  | [] => if cell.all isSpace then [] else [cell.reverse]
  | '\\' :: '|' :: cs => splitCells ('|' :: cell) cs
  | c :: cs => if c = '|' then cell.reverse :: splitCells [] cs else splitCells (c :: cell) cs

/-- The cells of a row, as many as there are columns. -/
def rowCells (columns : Nat) (cs : List Char) : List (List Char) :=
  let cs := cs.dropWhile isSpace
  let cells := splitCells [] (if cs.head? = some '|' then cs.drop 1 else cs)
  let trim (cell : List Char) := ((cell.dropWhile isSpace).reverse.dropWhile isSpace).reverse
  (cells.map trim ++ List.replicate columns []).take columns

end PhpHandbook.Markdown
