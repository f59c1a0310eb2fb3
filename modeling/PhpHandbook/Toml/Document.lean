import PhpHandbook.Reading
import PhpHandbook.Toml.Plain
import PhpHandbook.Toml.Quoted
import PhpHandbook.Toml.Value

/-!
# Settings documents

A document is a sequence of lines: headers that open a table, and assignments to dotted keys in
the table opened last.  Reading goes in two steps, from characters to lines and from lines to the
tree of tables.

## Main definitions

* `Line`, `readLines`: the lines of a document.
* `Document.parse`: the tables of a document, or nothing if it is malformed.
-/

namespace PhpHandbook.Toml

open Text (run)

/-- Reading characters; a failure has no reason that is ever told. -/
abbrev Read (α : Type) (cs : List Char) := Reading Char Unit α cs

/-- The outcome of a reader that counts the characters it covers. -/
def counted {α : Type} {cs : List Char} : Option (α × Nat) → Read α cs
  | some (a, n) => .past n a
  | none => .fail ()

/-- Skips blanks inside a line. -/
def spaces (cs : List Char) : Read Unit cs :=
  .past (run isSpace cs) ()

/-- The number of characters of a comment, or zero. -/
def comment : List Char → Nat
  | '#' :: cs => 1 + run isPlainChar cs
  | _ => 0

/-- The number of blanks, line ends and comments at the front. -/
def gap : List Char → Nat
  | [] => 0
  | c :: cs =>
    if isSpace c || c == '\n' then 1 + gap cs
    else if c == '\r' && cs.head? == some '\n' then 1 + gap cs
    else if c == '#' then
      let n := run isPlainChar cs
      1 + n + gap (cs.drop n)
    else 0
termination_by cs => cs.length
decreasing_by all_goals simp_wf; try omega

/-- Characters of a bare key. -/
def isKeyPart (c : Char) : Bool :=
  c.isAlphanum || c == '-' || c == '_'

/-- Reads a key, bare or quoted. -/
def readKey (cs : List Char) : Read String cs :=
  let n := run isKeyPart cs
  if n = 0 then counted (line? cs) else .past n (String.ofList (cs.take n))

/-- Reads keys with points between them and blanks around them. -/
def readKeys (cs : List Char) : Read (List String) cs :=
  (spaces cs).andThen fun _ us _ =>
  (readKey us).andThen fun key vs _ =>
  (spaces vs).andThen fun _ ws _ =>
  Reading.onNext (· == '.') ws (fun _ xs _ => (readKeys xs).map (key :: ·)) (.done [key])
termination_by cs.length

/-- Tables from assignments in braces. -/
def ofAssignments (pairs : List (List String × Value)) : Option Entries :=
  pairs.foldlM (fun entries (keys, value) =>
    entries.put keys.dropLast (keys.getLastD "") value) []

mutual

/-- Reads a value. -/
def readValue (cs : List Char) : Read Value cs :=
  Reading.onNext (· == '[') cs (fun _ us _ => (readItems us).map .array)
    (Reading.onNext (· == '{') cs
      (fun _ us _ => (spaces us).andThen fun _ vs _ =>
        Reading.onNext (· == '}') vs (fun _ _ _ => .done (.table .closed []))
          ((readPairs vs).andThen fun pairs _ _ =>
            match ofAssignments pairs with
            | some entries => .done (.table .closed entries)
            | none => .fail ()))
      (if startsBlock cs then (counted (block? cs)).map .text
      else if cs.head? == some '"' || cs.head? == some '\'' then (counted (line? cs)).map .text
      else (counted (plain? cs)).map .plain))
termination_by (cs.length, 0)

/-- Reads the items of an array and its closing bracket. -/
def readItems (cs : List Char) : Read (List Value) cs :=
  (Reading.past (gap cs) ()).andThen fun _ us _ =>
  Reading.onNext (· == ']') us (fun _ _ _ => .done [])
    ((readValue us).andThen fun value vs _ =>
      (Reading.past (gap vs) ()).andThen fun _ ws _ =>
      Reading.onNext (· == ']') ws (fun _ _ _ => .done [value])
        (Reading.onNext (· == ',') ws (fun _ xs _ => (readItems xs).map (value :: ·)) (.fail ())))
termination_by (cs.length, 1)
decreasing_by all_goals simp only [Prod.lex_def]; omega

/-- Reads assignments in braces and the closing brace. -/
def readPairs (cs : List Char) : Read (List (List String × Value)) cs :=
  (readKeys cs).andThen fun keys us _ =>
  Reading.onNext (· == '=') us
    (fun _ vs _ => (spaces vs).andThen fun _ ws _ =>
      (readValue ws).andThen fun value xs _ =>
      (spaces xs).andThen fun _ ys _ =>
      Reading.onNext (· == '}') ys (fun _ _ _ => .done [(keys, value)])
        (Reading.onNext (· == ',') ys (fun _ zs _ => (readPairs zs).map ((keys, value) :: ·))
          (.fail ())))
    (.fail ())
termination_by (cs.length, 1)
decreasing_by all_goals simp only [Prod.lex_def]; omega

end

/-- A line of a document. -/
inductive Line where
  /-- Nothing but blanks and a comment. -/
  | empty
  /-- The header of a table. -/
  | table (keys : List String)
  /-- The header of an item of a series. -/
  | item (keys : List String)
  /-- An assignment. -/
  | assign (keys : List String) (value : Value)

/-- Reads what a line says, up to the blanks and the comment at its end. -/
def readContent (cs : List Char) : Read Line cs :=
  match cs with
  | '[' :: '[' :: us =>
    .behind '[' <| .behind '[' <| (readKeys us).andThen fun keys vs _ =>
      match vs with
      | ']' :: ']' :: _ => .past 2 (.item keys)
      | _ => .fail ()
  | '[' :: us =>
    .behind '[' <| (readKeys us).andThen fun keys vs _ =>
      match vs with
      | ']' :: _ => .past 1 (.table keys)
      | _ => .fail ()
  | cs =>
    if comment cs ≠ 0 ∨ lineEnd cs ≠ 0 ∨ cs.isEmpty then .done .empty
    else (readKeys cs).andThen fun keys us _ =>
      match us with
      | '=' :: vs =>
        .behind '=' <| (spaces vs).andThen fun _ ws _ => (readValue ws).map (.assign keys)
      | _ => .fail ()

/-- Reads a line up to its end. -/
def readLine (cs : List Char) : Read Line cs :=
  (spaces cs).andThen fun _ us _ =>
  (readContent us).andThen fun line vs _ =>
  (spaces vs).andThen fun _ ws _ =>
  .past (comment ws) line

/-- **The lines** of a document. -/
def readLines (cs : List Char) : Read (List Line) cs :=
  (readLine cs).andThen fun line us _ =>
  if us.isEmpty then .done [line]
  else
    (Reading.skip (· == '\r') us).andThen fun _ vs _ =>
    Reading.onNext (· == '\n') vs (fun _ ws _ => (readLines ws).map (line :: ·)) (.fail ())
termination_by cs.length

/-- Carries out the lines in order.  `here` is the table opened last. -/
def run? (here : List String) (entries : Entries) : List Line → Option Entries
  | [] => some entries
  | .empty :: lines => run? here entries lines
  | .table keys :: lines =>
    (entries.openTable keys.dropLast (keys.getLastD "")).bind fun entries =>
      run? keys entries lines
  | .item keys :: lines =>
    (entries.openItem keys.dropLast (keys.getLastD "")).bind fun entries =>
      run? keys entries lines
  | .assign keys value :: lines =>
    (entries.alter here (Entries.put keys.dropLast (keys.getLastD "") value)).bind fun entries =>
      run? here entries lines

/-- **The tables of a document**, or nothing if it is malformed.  A mark for the order of bytes at
the front is skipped. -/
def parse (text : String) : Option Entries :=
  let cs := if text.toList.head? == some '\ufeff' then text.toList.drop 1 else text.toList
  match (readLines cs).outcome with
  | .ok lines => run? [] [] lines
  | .error () => none

end PhpHandbook.Toml
