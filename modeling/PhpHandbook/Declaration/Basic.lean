import PhpHandbook.Declaration.Name

/-!
# Declarations

What a source file declares: namespaces with imports, and in them classes, interfaces, traits and
enums with their members.  Values and defaults are kept as source text; bodies are not kept.

This is the syntax tree that the parser of sources builds: `SourceFile` is its root, and the other
types are its nodes.
-/

namespace PhpHandbook.Declaration

open Source (Span)

/-- Who may see a member. -/
inductive Visibility where
  | isPublic
  | isProtected
  | isPrivate
deriving DecidableEq, Repr

/-- The word for a visibility. -/
def Visibility.keyword : Visibility → String
  | .isPublic => "public"
  | .isProtected => "protected"
  | .isPrivate => "private"

/-- The modifiers of a member or of a promoted parameter. -/
structure Modifiers where
  /-- Who may read the member, if that is written. -/
  visibility : Option Visibility := none
  /-- Who may write the property, if that is written. -/
  setVisibility : Option Visibility := none
  isStatic : Bool := false
  isAbstract : Bool := false
  isFinal : Bool := false
  isReadonly : Bool := false
  /-- Whether the property is declared with `var`. -/
  isVar : Bool := false
deriving DecidableEq, Repr, Inhabited

namespace Modifiers

/-- Who may read the member: everybody, unless something else is written. -/
def effective (m : Modifiers) : Visibility :=
  m.visibility.getD .isPublic

/-- Whether a constructor parameter with these modifiers declares a property. -/
def promotes (m : Modifiers) : Bool :=
  m.visibility.isSome || m.setVisibility.isSome || m.isReadonly

end Modifiers

/-- A parameter of a method. -/
structure Param where
  /-- The name, without its dollar sign. -/
  name : Ident
  type : Option TypeHint
  /-- The source text of the default. -/
  fallback : Option String
  byRef : Bool
  variadic : Bool
  /-- The modifiers of the property that the parameter declares. -/
  promoted : Option Modifiers
  doc : Option Comment
  span : Span
deriving Repr

/-- A class constant. -/
structure Constant where
  name : Ident
  type : Option TypeHint
  /-- The source text of the value. -/
  value : String
  modifiers : Modifiers
  doc : Option Comment
  span : Span
deriving Repr

/-- A case of an enum. -/
structure EnumCase where
  name : Ident
  /-- The source text of the value. -/
  value : Option String
  doc : Option Comment
  span : Span
deriving Repr

/-- A property. -/
structure Property where
  /-- The name, without its dollar sign. -/
  name : Ident
  type : Option TypeHint
  /-- The source text of the default. -/
  fallback : Option String
  modifiers : Modifiers
  /-- Whether the property has a block of accessors. -/
  hasHooks : Bool
  doc : Option Comment
  span : Span
deriving Repr

/-- A method. -/
structure Method where
  name : Ident
  modifiers : Modifiers
  params : List Param
  returnType : Option TypeHint
  returnsReference : Bool
  hasBody : Bool
  doc : Option Comment
  span : Span
deriving Repr

/-- Whether two names of methods or classes are the same, where capital and small letters do not
differ. -/
def sameName (a b : String) : Bool :=
  a.map Char.toLower == b.map Char.toLower

/-- Whether the method is a constructor. -/
def Method.isConstructor (m : Method) : Bool :=
  sameName m.name.name "__construct"

/-- A rule for the methods that come from traits. -/
inductive Adaptation where
  /-- `[T::]method as [visibility] [new name]` -/
  | rename (traitName : Option Name) (method : String) (visibility : Option Visibility)
    (newName : Option String)
  /-- `T::method insteadof A, B` -/
  | precedence (traitName : Name) (method : String) (insteadOf : List Name)
deriving Repr

/-- A use of traits. -/
structure TraitUse where
  traits : List Name
  adaptations : List Adaptation
  /-- The comments in front of it. -/
  comments : List Comment
  span : Span
deriving Repr

/-- The four kinds of class-like declarations. -/
inductive ClassKind where
  | plainClass
  | interface
  | trait
  | enum
deriving DecidableEq, Repr

/-- The word for a kind. -/
def ClassKind.keyword : ClassKind → String
  | .plainClass => "class"
  | .interface => "interface"
  | .trait => "trait"
  | .enum => "enum"

/-- The modifiers of a class. -/
structure ClassModifiers where
  isAbstract : Bool := false
  isFinal : Bool := false
  isReadonly : Bool := false
deriving DecidableEq, Repr

/-- The members of a class, each sort in source order. -/
structure Members where
  traitUses : List TraitUse := []
  constants : List Constant := []
  cases : List EnumCase := []
  properties : List Property := []
  methods : List Method := []
deriving Repr, Inhabited

/-- **A class, interface, trait or enum.** -/
structure ClassLike extends Members where
  kind : ClassKind
  name : Ident
  modifiers : ClassModifiers
  /-- The parent of a class, or the parents of an interface. -/
  parents : List Name
  /-- The interfaces. -/
  implements : List Name
  /-- The type behind an enum. -/
  backingType : Option TypeHint
  doc : Option Comment
  span : Span
deriving Repr

/-- What an import names. -/
inductive ImportKind where
  | className
  | functionName
  | constantName
deriving DecidableEq, Repr

/-- An imported name. -/
structure Import where
  kind : ImportKind
  /-- The full name, without a leading separator. -/
  name : String
  /-- The name it is known by. -/
  localName : String
  span : Span
deriving DecidableEq, Repr

/-- Declarations that share a namespace and its imports. -/
structure NamespaceBlock where
  /-- The namespace; none outside all namespaces. -/
  name : Option String
  span : Span
  imports : List Import := []
  classes : List ClassLike := []
deriving Repr

/-- **A source file.** -/
structure SourceFile where
  blocks : List NamespaceBlock
  span : Span
deriving Repr

end PhpHandbook.Declaration
