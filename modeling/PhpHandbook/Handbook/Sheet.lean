import PhpHandbook.Handbook.Members
import PhpHandbook.Handbook.Outline

/-!
# What a page shows

All that the page of a class and the index page show, gathered before any page is made.

Rendering a page begins with these requests to the descriptor of the class.  A `Sheet` is what they
give for the page of one class, `outlineOf` is the tree of namespaces that all pages show, and
`summarize` makes the entries of the index, each with its summary.
-/

namespace PhpHandbook.Handbook

open DocBlock (Document)

variable {reg : Registry}

/-- What the page of a class shows. -/
structure Sheet (reg : Registry) where
  chapter : Chapter reg
  doc : Document
  templates : List Template
  parent : Option ResolvedType
  interfaces : List ResolvedType
  traits : List ResolvedType
  constants : List Constant
  properties : List Property
  methods : List Method

/-- **Gathers what the page of a class shows.** -/
def Chapter.sheet (chapter : Chapter reg) : Query reg (Sheet reg) := do
  let doc ← gathered chapter.doc
  let templates ← chapter.templates
  let parent ← chapter.parent
  let interfaces ← chapter.interfaces
  let traits ← chapter.traits
  let constants ← chapter.constants
  let properties ← chapter.properties
  let methods ← chapter.methods
  pure { chapter, doc, templates, parent, interfaces, traits, constants, properties, methods }

/-- The outline of chapters. -/
def outlineOf (chapters : List (Chapter reg)) : Outline (Chapter reg) :=
  chapters.foldl (fun outline c => outline.insert c.space c.basename c) {}

/-- A chapter with the first paragraph of its comment. -/
structure Summary (reg : Registry) where
  chapter : Chapter reg
  text : Option String

mutual

/-- The chapters of a section with their summaries. -/
def summarize : Section (Chapter reg) → Gather reg (Section (Summary reg))
  | .mk name sections items => do
    let sections ← summarizeSections sections
    let items ← summarizeItems items
    pure (.mk name sections items)

/-- The chapters of several sections with their summaries. -/
def summarizeSections :
    List (String × Section (Chapter reg)) → Gather reg (List (String × Section (Summary reg)))
  | [] => pure []
  | (segment, s) :: rest => do
    let s ← summarize s
    let rest ← summarizeSections rest
    pure ((segment, s) :: rest)

/-- Chapters with their summaries. -/
def summarizeItems : List (String × Chapter reg) → Gather reg (List (String × Summary reg))
  | [] => pure []
  | (basename, c) :: rest => do
    let doc ← c.doc
    let rest ← summarizeItems rest
    pure ((basename, ⟨c, doc.summary?⟩) :: rest)

end

end PhpHandbook.Handbook
