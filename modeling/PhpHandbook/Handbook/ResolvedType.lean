/-!
# Resolved types

Types in which every name has been looked up.  A reference to a registered class carries the
number of its chapter, so that types never hold what they refer to.

This is what the resolver of types makes of a type in a comment or of a native one: `ResolvedType`
has one constructor for each kind of resolved reference, `ResolvedType.text` is its printed form,
and `ResolvedType.walk` visits the references in it.
-/

namespace PhpHandbook.Handbook

/-- The number of a chapter. -/
structure ChapterId where
  index : Nat
deriving DecidableEq, Repr

/-- The number as it is shown: `#3`. -/
def ChapterId.text (id : ChapterId) : String :=
  "#" ++ toString id.index

/-- A parameter of a callable type. -/
structure CallableSlot (α : Type) where
  type : α
  byRef : Bool
  variadic : Bool
deriving Repr

/-- **A resolved type.** -/
inductive ResolvedType where
  /-- A name that is no registered class. -/
  | named (name : String) (generics : List ResolvedType)
  /-- A registered class. -/
  | linked (id : ChapterId) (name : String) (generics : List ResolvedType)
  /-- A template. -/
  | template (name : String)
  | union (members : List ResolvedType)
  | intersection (members : List ResolvedType)
  | callable (name : ResolvedType) (params : List (CallableSlot ResolvedType))
      (returns : ResolvedType)
  | conditional (subject : String) (target yes no : ResolvedType)
deriving Repr

namespace ResolvedType

/-- A name without arguments. -/
def plain (name : String) : ResolvedType :=
  .named name []

/-- The type of everything. -/
def mixed : ResolvedType :=
  plain "mixed"

/-- The type of no value. -/
def null : ResolvedType :=
  plain "null"

/-- The name of a type that is one. -/
def name? : ResolvedType → Option String
  | .named name _ | .linked _ name _ | .template name => some name
  | _ => none

/-- The generic arguments. -/
def generics : ResolvedType → List ResolvedType
  | .named _ generics | .linked _ _ generics => generics
  | _ => []

/-- The chapter that the type refers to. -/
def chapter? : ResolvedType → Option ChapterId
  | .linked id _ _ => some id
  | _ => none

/-- Whether the type is a template. -/
def isTemplate : ResolvedType → Bool
  | .template _ => true
  | _ => false

/-- Whether the type is put in parentheses as a member. -/
def isCompound : ResolvedType → Bool
  | .union _ | .intersection _ | .conditional .. => true
  | _ => false

/-- What is printed behind the type of a parameter. -/
def slotTail (byRef variadic : Bool) : String :=
  (if byRef then " &" else "") ++
    (if variadic then (if byRef then "..." else " ...") else "")

mutual

/-- **The printed form** of a type. -/
def text : ResolvedType → String
  | .named name generics | .linked _ name generics =>
    name ++ if generics.isEmpty then "" else "<" ++ ", ".intercalate (texts generics) ++ ">"
  | .template name => name
  | .union members => "|".intercalate (memberTexts members)
  | .intersection members => "&".intercalate (memberTexts members)
  | .callable name params returns =>
    name.text ++ "(" ++ ", ".intercalate (slotTexts params) ++ "): " ++ returns.text
  | .conditional subject target yes no =>
    "(" ++ subject ++ " is " ++ target.text ++ " ? " ++ yes.text ++ " : " ++ no.text ++ ")"

/-- The printed forms of several types. -/
def texts : List ResolvedType → List String
  | [] => []
  | t :: ts => t.text :: texts ts

/-- The printed forms of several members. -/
def memberTexts : List ResolvedType → List String
  | [] => []
  | t :: ts => (if t.isCompound then "(" ++ t.text ++ ")" else t.text) :: memberTexts ts

/-- The printed forms of the parameters of a callable. -/
def slotTexts : List (CallableSlot ResolvedType) → List String
  | [] => []
  | ⟨type, byRef, variadic⟩ :: params =>
    (type.text ++ slotTail byRef variadic) :: slotTexts params

end

/-- The printed form of one parameter of a callable. -/
def slotText (slot : CallableSlot ResolvedType) : String :=
  slot.type.text ++ slotTail slot.byRef slot.variadic

mutual

/-- A type and all types in it, each in front of those inside it. -/
def walk : ResolvedType → List ResolvedType
  | .named name generics => .named name generics :: walkAll generics
  | .linked id name generics => .linked id name generics :: walkAll generics
  | .template name => [.template name]
  | .union members => .union members :: walkAll members
  | .intersection members => .intersection members :: walkAll members
  | .callable name params returns =>
    .callable name params returns :: (name.walk ++ walkSlots params ++ returns.walk)
  | .conditional subject target yes no =>
    .conditional subject target yes no :: (target.walk ++ yes.walk ++ no.walk)

/-- Several types and all types in them. -/
def walkAll : List ResolvedType → List ResolvedType
  | [] => []
  | t :: ts => t.walk ++ walkAll ts

/-- The types of parameters and all types in them. -/
def walkSlots : List (CallableSlot ResolvedType) → List ResolvedType
  | [] => []
  | ⟨type, _, _⟩ :: params => type.walk ++ walkSlots params

end

end ResolvedType

end PhpHandbook.Handbook
