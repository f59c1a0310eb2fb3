import PhpHandbook.Handbook.ResolvedType
import PhpHandbook.Registry.Basic

/-!
# The table of contents

A chapter is the handbook's view of a registered declaration, whether it gets a page of its own
or is only linked to.  Chapters are opened when they are first asked for and numbered in that
order; a name that has a chapter keeps it.

The table has two parts: the chapters in order, each with its number, and an index that leads from
the key of a name to a number.

This is the symbol table of a run of the generator: `Chapter` is the descriptor of a class,
interface, trait or enum in it, `ChapterId` its handle, `Contents.enter` interns a descriptor under
a name, and `Contents.find?` and `Contents.get?` are the lookups by name and by handle.
-/

namespace PhpHandbook.Handbook

open Registry (Entry ClassEntry classKey setKey)

/-- A chapter. -/
structure Chapter (reg : Registry) where
  id : ChapterId
  /-- The declaration that the chapter is about. -/
  entry : reg.Entry

namespace Chapter

variable {reg : Registry}

/-- The full name of the class. -/
def name (c : Chapter reg) : String :=
  c.entry.1.name

/-- The namespace of the class. -/
def space (c : Chapter reg) : String :=
  c.entry.1.space

/-- The name without its namespace. -/
def basename (c : Chapter reg) : String :=
  c.entry.1.basename

/-- Whether the chapter gets a page. -/
def isDocumented (c : Chapter reg) : Bool :=
  c.entry.1.origin == .project

end Chapter

/-- **The table of contents.** -/
structure Contents (reg : Registry) where
  /-- The chapters in the order in which they were opened. -/
  rows : Array (Chapter reg) := #[]
  /-- The numbers of the chapters by the keys of the names they were opened for. -/
  index : List (String × ChapterId) := []

namespace Contents

variable {reg : Registry}

/-- The number of chapters. -/
def size (contents : Contents reg) : Nat :=
  contents.rows.size

/-- The number of the chapter of a name. -/
def id? (contents : Contents reg) (name : String) : Option ChapterId :=
  (contents.index.find? (·.1 == classKey name)).map (·.2)

/-- The chapter with a number. -/
def get? (contents : Contents reg) (id : ChapterId) : Option (Chapter reg) :=
  contents.rows[id.index]?

/-- The chapter of a name. -/
def find? (contents : Contents reg) (name : String) : Option (Chapter reg) :=
  (contents.id? name).bind contents.get?

/-- **Opens a chapter** about a declaration under a name, unless the name has one. -/
def enter (contents : Contents reg) (name : String) (entry : reg.Entry) :
    Chapter reg × Contents reg :=
  match contents.find? name with
  | some chapter => (chapter, contents)
  | none =>
    let chapter : Chapter reg := ⟨⟨contents.size⟩, entry⟩
    (chapter, ⟨contents.rows.push chapter, setKey (classKey name) chapter.id contents.index⟩)

/-- All chapters in order. -/
def chapters (contents : Contents reg) : List (Chapter reg) :=
  contents.rows.toList

end Contents

end PhpHandbook.Handbook
