import PhpHandbook.DocBlock.Shelf
import PhpHandbook.Handbook.Contents
import PhpHandbook.Handbook.Description
import PhpHandbook.Hierarchy.Surroundings

/-!
# A run

While a handbook is made, chapters are opened, comments are read, and the surroundings and facets
of classes are worked out as they are needed.  A run is what has been gathered so far; a query
reads and extends it.  A query that fails keeps what it gathered before it failed.

This is the context of a run of the generator, with its four caches: `contents` is the symbol table,
`shelf` the cache of comments, `files` that of the facts about source files, and `cells` are the
facets that the descriptors keep.

## Main definitions

* `Run`: the chapters, comments, surroundings and facets gathered so far.
* `Gather`, `Query`: queries that always have an answer, and queries that may fail.
* `chapterOf`, `documented`: chapters, opened when they are first asked for.
* `noted`, `remembered`: a facet, worked out when it is first asked for.  A facet that fails is not
  kept and is worked out anew the next time.
-/

namespace PhpHandbook.Handbook

open Declaration (Comment)
open DocBlock (Document Shelf)
open Hierarchy (Surroundings)

/-- A facet of a chapter that has been worked out. -/
structure Cell where
  chapter : ChapterId
  facet : Facet
  answer : facet.Answer

/-- The answer in a cell, if it is one for the given facet of the given chapter. -/
def Cell.answer? (cell : Cell) (id : ChapterId) (facet : Facet) : Option facet.Answer :=
  if h : cell.chapter = id ∧ cell.facet = facet then some (h.2 ▸ cell.answer) else none

/-- **What a run has gathered.** -/
structure Run (reg : Registry) where
  /-- The chapters opened so far. -/
  contents : Contents reg := {}
  /-- The comments read so far. -/
  shelf : Shelf := {}
  /-- The surroundings worked out so far, by the keys of their declarations. -/
  files : List (String × Surroundings) := []
  /-- The facets worked out so far. -/
  cells : List Cell := []

/-- A type expression that has no resolved form. -/
structure ResolveError where
  /-- What kind of expression it is. -/
  what : String
  /-- The expression. -/
  text : String
deriving DecidableEq, Repr

/-- The error in words. -/
def ResolveError.message (e : ResolveError) : String :=
  "unsupported " ++ e.what ++ " in type \x60" ++ e.text ++ "\x60"

/-- A query that always has an answer. -/
abbrev Gather (reg : Registry) : Type → Type :=
  StateM (Run reg)

/-- **A query.** -/
abbrev Query (reg : Registry) : Type → Type :=
  ExceptT ResolveError (StateM (Run reg))

variable {reg : Registry}

/-- A query that does not fail. -/
def gathered {α : Type} (g : Gather reg α) : Query reg α :=
  ExceptT.lift g

/-! ### Comments and surroundings -/

/-- The document of a comment given as text. -/
def readText (text : Option String) : Gather reg Document :=
  modifyGet fun run =>
    let (shelved, shelf) := run.shelf.read text
    (shelved.document, { run with shelf })

/-- The document of a comment. -/
def readComment (comment : Option Comment) : Gather reg Document :=
  readText (comment.map (·.text))

/-- The surroundings of a declaration. -/
def surroundingsOf (entry : reg.Entry) : Gather reg Surroundings :=
  modifyGet fun run =>
    match run.files.find? (·.1 == entry.1.key) with
    | some (_, file) => (file, run)
    | none =>
      let file := Hierarchy.surroundings reg entry.1
      (file, { run with files := run.files ++ [(entry.1.key, file)] })

/-! ### Chapters -/

/-- The chapter of a declaration. -/
def chapterOf (entry : reg.Entry) : Gather reg (Chapter reg) :=
  modifyGet fun run =>
    let (chapter, contents) := run.contents.enter entry.1.name entry
    (chapter, { run with contents })

/-- The chapter of a name, if it is registered. -/
def chapter? (name : String) : Gather reg (Option (Chapter reg)) :=
  match reg.find? name with
  | some entry => some <$> chapterOf entry
  | none => pure none

/-- **The chapters with a page**, in ascending order of their names. -/
def documented : Gather reg (List (Chapter reg)) :=
  let entries := reg.entries.attach.filter fun e => e.1.origin == .project
  (entries.mergeSort fun a b => a.1.name ≤ b.1.name).mapM chapterOf

/-! ### Facets -/

/-- The answer to a facet, if it has been worked out. -/
def knownAnswer? (c : Chapter reg) (facet : Facet) : Gather reg (Option facet.Answer) := do
  pure ((← get).cells.findSome? (·.answer? c.id facet))

/-- Keeps the answer to a facet. -/
def record (c : Chapter reg) (facet : Facet) (answer : facet.Answer) : Gather reg Unit :=
  modify fun run => { run with cells := run.cells ++ [⟨c.id, facet, answer⟩] }

/-- A facet of a chapter that cannot fail, worked out unless its answer is known. -/
def noted (c : Chapter reg) (facet : Facet) (work : Gather reg facet.Answer) :
    Gather reg facet.Answer := do
  match ← knownAnswer? c facet with
  | some answer => pure answer
  | none =>
    let answer ← work
    record c facet answer
    pure answer

/-- **A facet of a chapter**, worked out unless its answer is known. -/
def remembered (c : Chapter reg) (facet : Facet) (work : Query reg facet.Answer) :
    Query reg facet.Answer := do
  match ← gathered (knownAnswer? c facet) with
  | some answer => pure answer
  | none =>
    let answer ← work
    gathered (record c facet answer)
    pure answer

end PhpHandbook.Handbook
