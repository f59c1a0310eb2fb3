/-!
# Values of a settings document

A document is a tree of tables.  How a table came to be decides whether later lines may add to it:
a table written in braces is closed, one opened by its own header is not opened again, one that was
only passed on the way to another may still be opened, and one that was made by a dotted key is
filled by dotted keys alone.

## Main definitions

* `Value`: texts, unquoted values, arrays and tables.
* `Entries.put`: an assignment to a dotted key.
* `Entries.openTable`, `Entries.openItem`: the headers of a table and of an item of a series.
-/

namespace PhpHandbook.Toml

/-- How a table came to be. -/
inductive Standing where
  /-- Written in braces. -/
  | closed
  /-- Opened by its header. -/
  | complete
  /-- Passed by the header of a table inside it. -/
  | passed
  /-- Made by a dotted key. -/
  | dotted
deriving DecidableEq, Repr

/-- A value of a document. -/
inductive Value where
  /-- A quoted text. -/
  | text (s : String)
  /-- A truth value, a number or a date, as it is spelled. -/
  | plain (spelling : String)
  /-- Values in brackets. -/
  | array (items : List Value)
  /-- Named values. -/
  | table (standing : Standing) (entries : List (String × Value))
  /-- The tables that were opened under one name, as a series. -/
  | series (tables : List (List (String × Value)))

/-- Named values, in the order of their names' first appearance. -/
abbrev Entries := List (String × Value)

namespace Entries

/-- Puts a value in the place of the one with the same name, or at the end. -/
def set (key : String) (value : Value) : Entries → Entries
  | [] => [(key, value)]
  | (k, v) :: rest => if k = key then (k, value) :: rest else (k, v) :: set key value rest

/-- **An assignment** to a dotted key: the tables on the way are made, or were made by dotted keys
before, or are passed on the way to a table that is made here.  No name is assigned twice. -/
def put (path : List String) (key : String) (value : Value) (entries : Entries) : Option Entries :=
  match path with
  | [] => if (entries.lookup key).isSome then none else some (entries ++ [(key, value)])
  | name :: path =>
    match entries.lookup name with
    | none => (put path key value []).map fun inner => entries ++ [(name, .table .dotted inner)]
    | some (.table .dotted inner) =>
      (put path key value inner).map fun inner => set name (.table .dotted inner) entries
    | some (.table .passed inner) =>
      if path.isEmpty then none
      else (put path key value inner).map fun inner => set name (.table .passed inner) entries
    | some _ => none

/-- Changes the table that a header's path leads to; tables on the way are made where they are
missing, a series is entered at its last table, and a table in braces is not entered. -/
def alter (path : List String) (f : Entries → Option Entries) (entries : Entries) :
    Option Entries :=
  match path with
  | [] => f entries
  | name :: path =>
    match entries.lookup name with
    | none => (alter path f []).map fun inner => entries ++ [(name, .table .passed inner)]
    | some (.table .closed _) => none
    | some (.table standing inner) =>
      (alter path f inner).map fun inner => set name (.table standing inner) entries
    | some (.series tables) =>
      (alter path f (tables.getLastD [])).map fun last =>
        set name (.series (tables.dropLast ++ [last])) entries
    | some _ => none

/-- **The header of a table**: the table is new, or was only passed so far. -/
def openTable (path : List String) (key : String) : Entries → Option Entries :=
  alter path fun entries =>
    match entries.lookup key with
    | none => some (entries ++ [(key, .table .complete [])])
    | some (.table .passed inner) => some (set key (.table .complete inner) entries)
    | some _ => none

/-- **The header of an item**: a new table at the end of a series. -/
def openItem (path : List String) (key : String) : Entries → Option Entries :=
  alter path fun entries =>
    match entries.lookup key with
    | none => some (entries ++ [(key, .series [[]])])
    | some (.series tables) => some (set key (.series (tables ++ [[]])) entries)
    | some _ => none

end Entries

end PhpHandbook.Toml
