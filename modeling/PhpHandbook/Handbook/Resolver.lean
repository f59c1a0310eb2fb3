import PhpHandbook.Handbook.Run

/-!
# Resolving types

The names in a type are looked up in the surroundings of the declaration that the type is written
in.  A name in a comment is, in this order: a registered class of exactly that name; the target of
an import, also by its first part; a registered class in the same namespace; and otherwise just a
name.  Names of templates are never looked up further.

Native types follow the rules of the language instead.

This is the resolver of types of the generator: `Resolver` is the scope of one declaration with its
bound templates, `resolveName` the order above, `Resolver.resolve` resolves a type of a comment, and
`Resolver.resolveHint` a native type.
-/

namespace PhpHandbook.Handbook

open DocBlock (Document TypeExpr Literal Subject ShapeItem CallableParam)
open Declaration (TypeHint)
open Hierarchy (Surroundings)
open Registry (ClassEntry Scope sameText splitFirst unrooted)

/-- Where the types of a declaration are resolved. -/
structure Resolver where
  /-- The declaration. -/
  entry : ClassEntry
  /-- What surrounds it. -/
  file : Surroundings
  /-- The templates that are bound. -/
  templates : List String

variable {reg : Registry}

/-- A reference to a class by its full name: opens its chapter if it is registered. -/
def reference (name : String) (generics : List ResolvedType) : Gather reg ResolvedType :=
  match reg.find? name with
  | some entry => do
    let chapter ← chapterOf entry
    pure (.linked chapter.id entry.1.name generics)
  | none => pure (.named (unrooted name) generics)

namespace Resolver

/-- What an import makes of a name. -/
def expandImport? (r : Resolver) (name : String) : Option String :=
  let (first, rest) := splitFirst name
  (r.file.imports.find? (sameText ·.1 first)).map fun (_, full) =>
    match rest with
    | some rest => full ++ "\\" ++ rest
    | none => full

/-- A registered class with the given name in the same namespace. -/
def sibling? (reg : Registry) (r : Resolver) (name : String) : Option String :=
  if r.file.space.isEmpty then none
  else (reg.find? (r.file.space ++ "\\" ++ name)).map (·.1.name)

/-- The full name of a name without separators in front. -/
def complete (reg : Registry) (r : Resolver) (raw : String) : String :=
  match reg.find? raw with
  | some entry => entry.1.name
  | none => ((r.expandImport? raw).or (r.sibling? reg raw)).getD raw

/-- Whether a name is that of a template, where a comment may bind further ones. -/
def isBound (r : Resolver) (doc : Option Document) (name : String) : Bool :=
  r.templates.contains name || doc.any fun d => d.templates.any (·.name == name)

/-- **Resolves a name** that is written in a comment. -/
def resolveName (r : Resolver) (doc : Option Document) (name : String)
    (generics : List ResolvedType) : Gather reg ResolvedType :=
  let raw := unrooted name
  let full := r.complete reg raw
  if r.isBound doc raw || r.isBound doc full then pure (.template raw)
  else reference full generics

/-- The text of what a conditional asks about. -/
def subjectText : Subject TypeExpr → String
  | .parameter name => name
  | .type type => type.text

/-- The name of a callable: a closure is a class. -/
def callableName (name : String) : Gather reg ResolvedType :=
  if sameText (unrooted name) "Closure" then reference "Closure" [] else pure (.plain name)

mutual

/-- **Resolves a type expression.** -/
def resolve (r : Resolver) (doc : Option Document) : TypeExpr → Query reg ResolvedType
  | .identifier name => gathered (r.resolveName doc name [])
  | .generic base args => do
    let generics ← r.resolveAll doc args
    gathered (r.resolveName doc base generics)
  | .union members => .union <$> r.resolveAll doc members
  | .intersection members => .intersection <$> r.resolveAll doc members
  | .nullable inner => do
    let inner ← r.resolve doc inner
    pure (.union [inner, .null])
  | .array inner => do
    let inner ← r.resolve doc inner
    pure (.named "array" [inner])
  | .literal (.integer value) | .literal (.string value) => gathered (r.resolveName doc value [])
  | .literal (.decimal value) =>
    throw ⟨"float literal type", (Literal.decimal value).text⟩
  | .literal (.classConstant className name) =>
    throw ⟨"class constant type", (Literal.classConstant className name).text⟩
  | .arrayShape kind items isSealed => pure (.plain (TypeExpr.arrayShape kind items isSealed).text)
  | .objectShape items => pure (.plain (TypeExpr.objectShape items).text)
  | .this => pure (.plain "$this")
  | .conditional subject negated target yes no => do
    let target ← r.resolve doc target
    let yes ← r.resolve doc yes
    let no ← r.resolve doc no
    pure <| if negated then .conditional (subjectText subject) target no yes
      else .conditional (subjectText subject) target yes no
  | .callable name params returns => do
    let name ← gathered (callableName name)
    let params ← r.resolveParams doc params
    let returns ← r.resolve doc returns
    pure (.callable name params returns)
  | .offset base key => throw ⟨"offset access type", (TypeExpr.offset base key).text⟩

/-- Resolves several type expressions in order. -/
def resolveAll (r : Resolver) (doc : Option Document) :
    List TypeExpr → Query reg (List ResolvedType)
  | [] => pure []
  | t :: ts => do
    let t ← r.resolve doc t
    let ts ← r.resolveAll doc ts
    pure (t :: ts)

/-- Resolves the parameters of a callable in order. -/
def resolveParams (r : Resolver) (doc : Option Document) :
    List (CallableParam TypeExpr) → Query reg (List (CallableSlot ResolvedType))
  | [] => pure []
  | ⟨type, byRef, variadic, _, _⟩ :: params => do
    let type ← r.resolve doc type
    let params ← r.resolveParams doc params
    pure (⟨type, byRef, variadic⟩ :: params)

end

mutual

/-- **Resolves a native type.** -/
def resolveHint (r : Resolver) : TypeHint → Gather reg ResolvedType
  | .named name _ => reference (r.entry.scope.resolve name) []
  | .nullable inner _ => do
    let inner ← r.resolveHint inner
    pure (.union [inner, .null])
  | .union members _ => .union <$> r.resolveHints members
  | .intersection members _ => .intersection <$> r.resolveHints members

/-- Resolves several native types in order. -/
def resolveHints (r : Resolver) : List TypeHint → Gather reg (List ResolvedType)
  | [] => pure []
  | t :: ts => do
    let t ← r.resolveHint t
    let ts ← r.resolveHints ts
    pure (t :: ts)

end

/-- Resolves a native type that may be missing. -/
def resolveHint? (r : Resolver) (hint : Option TypeHint) : Gather reg ResolvedType :=
  match hint with
  | some hint => r.resolveHint hint
  | none => pure .mixed

/-- The resolver with further templates. -/
def withTemplates (r : Resolver) (names : List String) : Resolver :=
  { r with templates := r.templates ++ names }

end Resolver

/-- The resolver of a declaration with the given templates. -/
def resolverWith (entry : reg.Entry) (templates : List String) : Gather reg Resolver := do
  let file ← surroundingsOf entry
  pure ⟨entry.1, file, templates⟩

/-- **The resolver** of a declaration, with the templates that its own comment declares. -/
def resolverOf (entry : reg.Entry) : Gather reg Resolver := do
  let doc ← readComment entry.1.decl.doc
  resolverWith entry doc.templateNames

end PhpHandbook.Handbook
