import PhpHandbook.Handbook.Facets
import PhpHandbook.Hierarchy.Members
import PhpHandbook.Text.Kebab

/-!
# The members of a chapter

Constants, properties and methods with their types resolved where they are written: the types of
an inherited member are resolved in the class it comes from.

These are the members in the descriptor of a class.  `describeConstant`, `describeProperty`,
`describeParameter` and `describeMethod` make the descriptor of one member, `originOf` finds the
class or trait that a method comes from, and `constants`, `properties` and `methods` are the
requests, which compute a list once.
-/

namespace PhpHandbook.Handbook

open Declaration (Param)
open DocBlock (Document)
open Hierarchy (VisibleConstant VisibleProperty VisibleMethod)
open Registry (sameText)

variable {reg : Registry}

/-! ### Constants -/

/-- Describes a constant. -/
def describeConstant (c : VisibleConstant reg) : Query reg Constant := do
  let doc ← gathered (readComment c.doc)
  let r ← gathered (resolverOf c.source)
  let type ← gathered (resolveHintIf r c.type)
  let docType ← resolveIf r none (doc.var.value.map (·.type))
  pure {
    anchor := "constant-" ++ Text.kebab c.name
    name := c.name
    comment := c.doc.map (·.text)
    doc
    visibility := c.modifiers.effective
    isFinal := c.modifiers.isFinal
    isCase := c.isCase
    value := c.value
    type
    docType := docType.or type
    declaringClass := c.declaringClass }

/-! ### Properties -/

/-- The type that the comment of the constructor gives to a promoted property. -/
def promotedType (p : VisibleProperty reg) (r : Resolver) : Query reg (Option ResolvedType) := do
  if p.isPromoted then
    match Hierarchy.constructor? p.source.1 with
    | none => pure none
    | some constructor =>
      let doc ← gathered (readComment constructor.doc)
      match (doc.param? p.property.name.name).bind (·.type) with
      | some type => some <$> r.resolve (some doc) type
      | none => pure none
  else pure none

/-- The type of a property: the one that its comment gives, or that of the constructor, or the
native one. -/
def propertyType (p : VisibleProperty reg) (r : Resolver) (doc : Document)
    (native : Option ResolvedType) : Query reg ResolvedType :=
  match doc.var.value with
  | some tag => r.resolve none tag.type
  | none => do
    let promoted ← promotedType p r
    pure ((promoted.or native).getD .mixed)

/-- Describes a property. -/
def describeProperty (p : VisibleProperty reg) : Query reg Property := do
  let decl := p.property
  let doc ← gathered (readComment decl.doc)
  let r ← gathered (resolverOf p.source)
  let nativeType ← gathered (resolveHintIf r decl.type)
  let type ← propertyType p r doc nativeType
  pure {
    anchor := "property-" ++ Text.kebab decl.name.name
    name := decl.name.name
    comment := decl.doc.map (·.text)
    doc
    access := Access.ofModifiers decl.modifiers
    isStatic := decl.modifiers.isStatic
    isReadonly := decl.modifiers.isReadonly || p.source.1.decl.modifiers.isReadonly
    isAbstract := decl.modifiers.isAbstract
    isFinal := decl.modifiers.isFinal
    isPromoted := p.isPromoted
    fallback := decl.fallback
    type
    nativeType
    declaringClass := p.declaringClass }

/-! ### Methods -/

/-- Describes a parameter, given the document of its method. -/
def describeParameter (r : Resolver) (doc : Document) (position : Nat) (p : Param) :
    Query reg Parameter := do
  let type ← gathered (r.resolveHint? p.type)
  let tag := doc.param? p.name.name
  let docType ← resolveIf r (some doc) (tag.bind (·.type))
  pure {
    name := p.name.name
    position
    type
    docType := docType.getD type
    description := (tag.map (·.description)).getD ""
    fallback := p.fallback
    byRef := p.byRef
    variadic := p.variadic
    isPromoted := p.promoted.isSome }

/-- The type in a list with the given name. -/
def listed? (types : List ResolvedType) (name : String) : Option ResolvedType :=
  types.find? fun t => t.name?.any (sameText · name)

/-- The type in a list with the given name, or a plain reference to it. -/
def listedOrReference (types : List ResolvedType) (name : String) : Query reg ResolvedType :=
  match listed? types name with
  | some type => pure type
  | none => gathered (reference name [])

/-- The full name of the trait that the first matching alias of a class takes a method from. -/
def aliasedTrait? (c : Chapter reg) (m : VisibleMethod reg) : Option String :=
  ((Hierarchy.traitAliases reg c.entry.1).filter (sameText ·.newName m.name)).findSome?
    (·.traitName)

/-- The first of the given traits that provides a method to a class. -/
def providingTrait? (c : Chapter reg) (traits : List ResolvedType) (m : VisibleMethod reg) :
    Option ResolvedType :=
  traits.find? fun t => t.name?.any fun name =>
    (reg.find? name).any (Hierarchy.hasMethod reg · m.name)
      && !Hierarchy.excludesTraitMethod c.entry.1 name m.name

/-- The trait or ancestor that an inherited method comes from. -/
def inheritedOrigin (m : VisibleMethod reg) : Query reg ResolvedType := do
  if m.source.1.kind = .trait then
    match ← gathered (chapter? m.declaringClass) with
    | some declaring =>
      let traits ← declaring.traits
      listedOrReference traits m.source.1.name
    | none => gathered (reference m.source.1.name [])
  else gathered (reference m.declaringClass [])

/-- **Where a method comes from**, if not from the class itself: from the trait that an alias
names, from the first trait that provides it, or from an ancestor or that ancestor's trait. -/
def originOf (c : Chapter reg) (m : VisibleMethod reg) : Query reg (Option ResolvedType) := do
  if sameText m.source.1.name c.name then pure none
  else
    let traits ← c.traits
    match aliasedTrait? c m with
    | some name => some <$> listedOrReference traits name
    | none =>
      match providingTrait? c traits m with
      | some type => pure (some type)
      | none =>
        if sameText m.declaringClass c.name then pure none else some <$> inheritedOrigin m

/-- Describes a method as it is visible on a class. -/
def describeMethod (c : Chapter reg) (m : VisibleMethod reg) : Query reg Method := do
  let decl := m.method
  let doc ← gathered (readComment decl.doc)
  let r ← gathered (resolverOf m.source)
  let templates ← resolveTemplates r (some doc) doc.templates
  let params ← decl.params.zipIdx.mapM fun (p, i) => describeParameter r doc i p
  let returnType ← gathered (r.resolveHint? decl.returnType)
  let returnDocType ← resolveIf r (some doc) (doc.returning.value.map (·.type))
  let throws ← doc.throwing.mapM fun tag => r.resolve (some doc) tag.type
  let origin ← originOf c m
  let declaring := (Hierarchy.interfaceNames reg c.entry.1).filter fun name =>
    (reg.find? name).any fun e => Hierarchy.declares e.1 m.name
  let interfaceOrigins ← declaring.mapM fun name => gathered (reference name [])
  pure {
    anchor := "method-" ++ Text.kebab m.name
    name := m.name
    comment := decl.doc.map (·.text)
    doc
    visibility := m.visibility
    isFinal := decl.modifiers.isFinal
    isAbstract := decl.modifiers.isAbstract || !decl.hasBody
    isStatic := decl.modifiers.isStatic
    returnsReference := decl.returnsReference
    templates
    params
    returnType
    returnDocType := returnDocType.getD returnType
    throws
    origin
    interfaceOrigins
    declaringClass := m.declaringClass }

/-! ### Chapters -/

namespace Chapter

/-- **The constants** of the class, its own first. -/
def constants (c : Chapter reg) : Query reg (List Constant) :=
  remembered c .constants ((Hierarchy.constants reg c.entry).mapM describeConstant)

/-- **The properties** of the class, its own first. -/
def properties (c : Chapter reg) : Query reg (List Property) :=
  remembered c .properties ((Hierarchy.properties reg c.entry).mapM describeProperty)

/-- Works out the methods of the class. -/
def findMethods (c : Chapter reg) : Query reg (List Method) := do
  let methods ← (Hierarchy.methods reg c.entry).mapM (describeMethod c)
  pure (Text.sortNaturalBy (·.name) methods)

/-- **The methods** of the class in natural order of their names. -/
def methods (c : Chapter reg) : Query reg (List Method) :=
  remembered c .methods c.findMethods

/-- The method with a name, in exactly that spelling if there is one. -/
def method? (c : Chapter reg) (name : String) : Query reg (Option Method) := do
  let methods ← c.methods
  pure ((methods.find? (·.name == name)).or (methods.find? (sameText ·.name name)))

/-- **A facet** of the class. -/
def facet (c : Chapter reg) : (facet : Facet) → Query reg facet.Answer
  | .doc => gathered c.doc
  | .templates => c.templates
  | .parent => c.parent
  | .interfaces => c.interfaces
  | .traits => c.traits
  | .constants => c.constants
  | .properties => c.properties
  | .methods => c.methods

end Chapter

end PhpHandbook.Handbook
