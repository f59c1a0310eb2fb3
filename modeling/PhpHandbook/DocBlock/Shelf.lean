import PhpHandbook.DocBlock.Document

/-!
# The shelf of documents

Each comment of a run is read once: documents are kept on a shelf under the text of their
comment.  A place on the shelf is the identity of a document; comments that say nothing share
one empty document which takes no place.

This is the cache of comments in the context of a run: a `Shelf` holds the comments that have been
parsed, `Shelf.read` parses a comment unless it is there, and a `Shelved` document is the shared one
that it gives.
-/

namespace PhpHandbook.DocBlock

/-- The documents read so far, in order, each with the text of its comment. -/
structure Shelf where
  /-- The comments and their documents. -/
  entries : Array (String × Document) := #[]
deriving Inhabited

/-- A document with its place on the shelf; the empty document has none. -/
structure Shelved where
  /-- The place. -/
  place : Option Nat
  /-- The document. -/
  document : Document
deriving Inhabited

namespace Shelf

/-- The number of documents on the shelf. -/
def size (shelf : Shelf) : Nat :=
  shelf.entries.size

/-- Whether a comment without blanks around it says nothing. -/
def isBare (comment : String) : Bool :=
  comment.isEmpty || comment == "/** */" || comment == "/***/"

/-- **The document** of a comment, taken from the shelf or read and put there. -/
def read (shelf : Shelf) (comment : Option String) : Shelved × Shelf :=
  let comment := Text.trim (comment.getD "")
  if isBare comment then (⟨none, {}⟩, shelf)
  else
    match shelf.entries.findIdx? (·.1 == comment) with
    | some i => (⟨some i, (shelf.entries.getD i ("", {})).2⟩, shelf)
    | none =>
      let document := Document.ofComment comment
      (⟨some shelf.size, document⟩, ⟨shelf.entries.push (comment, document)⟩)

end Shelf

end PhpHandbook.DocBlock
