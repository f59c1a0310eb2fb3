import PhpHandbook.Handbook.Resolver
import PhpHandbook.Text.Natural

/-!
# What a class is made from

The templates, the parent, the interfaces and the traits of a chapter.  What its comment says
goes before what is declared natively: a comment gives the arguments that native declarations
cannot.

These are the facets of the descriptor of a class that are no members: `findTemplates`,
`findParent`, `findInterfaces` and `findTraits` compute them, and `templates`, `parent`,
`interfaces` and `traits` are the requests, which compute a facet once.
-/

namespace PhpHandbook.Handbook

open Declaration (TypeHint)
open DocBlock (Document TemplateTag TypeExpr)
open Registry (lower)

variable {reg : Registry}

/-- Resolves a type expression that may be missing. -/
def resolveIf (r : Resolver) (doc : Option Document) :
  Option TypeExpr → Query reg (Option ResolvedType)
  | some type => some <$> r.resolve doc type
  | none => pure none

/-- Resolves a native type that may be missing. -/
def resolveHintIf (r : Resolver) : Option TypeHint → Gather reg (Option ResolvedType)
  | some hint => some <$> r.resolveHint hint
  | none => pure none

/-- Resolves templates in order. -/
def resolveTemplates (r : Resolver) (doc : Option Document) (tags : List TemplateTag) :
    Query reg (List Template) :=
  tags.mapM fun tag => do
    let bound ← resolveIf r doc tag.bound
    let fallback ← resolveIf r doc tag.fallback
    pure ⟨tag.name, bound, fallback, tag.variance⟩

/-- What a type is listed and sorted under. -/
def listName (type : ResolvedType) : String :=
  type.name?.getD type.text

/-- Adds a type to a list, unless one with the same name is there. -/
def addUnlisted (types : List ResolvedType) (type : ResolvedType) : List ResolvedType :=
  if types.any fun t => lower (listName t) == lower (listName type) then types else types ++ [type]

namespace Chapter

/-- The document of the class. -/
def doc (c : Chapter reg) : Gather reg Document :=
  noted c .doc (readComment c.entry.1.decl.doc)

/-- The resolver of the class. -/
def resolver (c : Chapter reg) : Gather reg Resolver := do
  let doc ← c.doc
  resolverWith c.entry doc.templateNames

/-- Works out the templates of the class. -/
def findTemplates (c : Chapter reg) : Query reg (List Template) := do
  let doc ← gathered c.doc
  let r ← gathered c.resolver
  resolveTemplates r none doc.templates

/-- **The templates** of the class. -/
def templates (c : Chapter reg) : Query reg (List Template) :=
  remembered c .templates c.findTemplates

/-- Works out the parent of the class. -/
def findParent (c : Chapter reg) : Query reg (Option ResolvedType) := do
  if c.entry.1.kind = .plainClass then
    let doc ← gathered c.doc
    let r ← gathered c.resolver
    match doc.extending.value with
    | some tag => some <$> r.resolve none tag.type
    | none =>
      match Hierarchy.parentName? c.entry.1 with
      | some name => some <$> gathered (reference name [])
      | none => pure none
  else pure none

/-- **The parent** of the class, as its comment gives it or as it is declared. -/
def parent (c : Chapter reg) : Query reg (Option ResolvedType) :=
  remembered c .parent c.findParent

/-- Works out the interfaces of the class. -/
def findInterfaces (c : Chapter reg) : Query reg (List ResolvedType) := do
  let doc ← gathered c.doc
  let r ← gathered c.resolver
  let parents := if c.entry.1.kind = .interface then doc.extending.value.toList else []
  let types ← (doc.implementing ++ parents).foldlM (fun types tag => do
    let type ← r.resolve none tag.type
    pure (addUnlisted types type)) []
  let types ← r.file.interfaces.foldlM (fun types name => do
    let type ← gathered (reference name [])
    pure (addUnlisted types type)) types
  pure (Text.sortNaturalBy listName types)

/-- **The interfaces** of the class in natural order, as its comment gives them or as they are
declared. -/
def interfaces (c : Chapter reg) : Query reg (List ResolvedType) :=
  remembered c .interfaces c.findInterfaces

/-- Works out the traits of the class. -/
def findTraits (c : Chapter reg) : Query reg (List ResolvedType) := do
  let r ← gathered c.resolver
  let types ← r.file.traitComments.foldlM (fun types (_, comment) => do
    let doc ← gathered (readText (some comment))
    match doc.usedTrait.value with
    | none => pure types
    | some tag =>
      let type ← r.resolve none tag.type
      pure (if type.chapter?.isSome then addUnlisted types type else types)) []
  r.file.traitComments.foldlM (fun types (name, _) => do
    let type ← gathered (reference name [])
    pure (addUnlisted types type)) types

/-- **The traits** of the class: those that comments in front of their uses give arguments for,
then all that are used. -/
def traits (c : Chapter reg) : Query reg (List ResolvedType) :=
  remembered c .traits c.findTraits

end Chapter

end PhpHandbook.Handbook
