import PhpHandbook.Declaration.Basic
import PhpHandbook.DocBlock.Document
import PhpHandbook.Handbook.ResolvedType

/-!
# What is said about a class

The descriptions of templates, constants, properties and methods with their types resolved, and
the facets of a chapter that they make up.

These are the descriptors that the generator hands to its pages.  `Template`, `Constant`,
`Property`, `Parameter` and `Method` are those of templates and members, and a `Facet` is one of the
parts of the descriptor of a class, each of them computed on the first request and then kept.

## Main definitions

* `Template`, `Constant`, `Property`, `Parameter`, `Method`: descriptions.
* `Facet`: what can be asked about a chapter, with the kind of its answer in `Facet.Answer`.
-/

namespace PhpHandbook.Handbook

open Declaration (Visibility Modifiers)
open DocBlock (Document Variance)

/-- A template with its types resolved. -/
structure Template where
  name : String
  bound : Option ResolvedType
  fallback : Option ResolvedType
  variance : Variance
deriving Repr

/-! ### Constants and properties -/

/-- A constant or a case of an enum. -/
structure Constant where
  name : String
  /-- The comment as written. -/
  comment : Option String
  doc : Document
  visibility : Visibility
  isFinal : Bool
  isCase : Bool
  /-- The source text of the value. -/
  value : Option String
  /-- The native type. -/
  type : Option ResolvedType
  /-- The type that the comment gives, or else the native one. -/
  docType : Option ResolvedType
  declaringClass : String
  /-- The anchor on the page. -/
  anchor : String

/-- Who may read and write a property. -/
inductive Access where
  | all (visibility : Visibility)
  | publicPrivateSet
  | publicProtectedSet
  | protectedPrivateSet
deriving DecidableEq, Repr

namespace Access

/-- The access that modifiers give: a narrower right to write counts. -/
def ofModifiers (m : Modifiers) : Access :=
  match m.effective, m.setVisibility with
  | .isPublic, some .isPrivate => .publicPrivateSet
  | .isPublic, some .isProtected => .publicProtectedSet
  | .isProtected, some .isPrivate => .protectedPrivateSet
  | visibility, _ => .all visibility

/-- The words for an access. -/
def keyword : Access → String
  | .all visibility => visibility.keyword
  | .publicPrivateSet => "public private(set)"
  | .publicProtectedSet => "public protected(set)"
  | .protectedPrivateSet => "protected private(set)"

end Access

/-- A property. -/
structure Property where
  /-- The name, without its dollar sign. -/
  name : String
  comment : Option String
  doc : Document
  access : Access
  isStatic : Bool
  isReadonly : Bool
  isAbstract : Bool
  isFinal : Bool
  isPromoted : Bool
  /-- The source text of the default. -/
  fallback : Option String
  /-- The type that a comment gives, or else the native one. -/
  type : ResolvedType
  nativeType : Option ResolvedType
  declaringClass : String
  anchor : String

/-! ### Methods -/

/-- A parameter of a method. -/
structure Parameter where
  /-- The name, without its dollar sign. -/
  name : String
  position : Nat
  /-- The native type. -/
  type : ResolvedType
  /-- The type that the comment gives, or else the native one. -/
  docType : ResolvedType
  description : String
  /-- The source text of the default. -/
  fallback : Option String
  byRef : Bool
  variadic : Bool
  isPromoted : Bool

/-- A method. -/
structure Method where
  name : String
  comment : Option String
  doc : Document
  visibility : Visibility
  isFinal : Bool
  isAbstract : Bool
  isStatic : Bool
  returnsReference : Bool
  templates : List Template
  params : List Parameter
  /-- The native type of the result. -/
  returnType : ResolvedType
  /-- The type of the result that the comment gives, or else the native one. -/
  returnDocType : ResolvedType
  throws : List ResolvedType
  /-- The trait or ancestor that the method comes from. -/
  origin : Option ResolvedType
  /-- The interfaces that declare a method of this name. -/
  interfaceOrigins : List ResolvedType
  declaringClass : String
  anchor : String

/-! ### Facets -/

/-- What can be asked about a chapter. -/
inductive Facet where
  | doc
  | templates
  | parent
  | interfaces
  | traits
  | constants
  | properties
  | methods
deriving DecidableEq, Repr

/-- **What a facet is answered with.** -/
@[reducible] def Facet.Answer : Facet → Type
  | .doc => Document
  | .templates => List Template
  | .parent => Option ResolvedType
  | .interfaces | .traits => List ResolvedType
  | .constants => List Constant
  | .properties => List Property
  | .methods => List Method

end PhpHandbook.Handbook
