import PhpHandbook.Declaration.Basic

/-!
# Scopes

The namespace and the imports in effect for a declaration, and how a class name written there is
completed to a full name.

This is the resolution of native class names: `Scope` is the table of a namespace block,
`Scope.addImport` enters an import, and `Scope.resolve` completes a name by the rules of the
language.
-/

namespace PhpHandbook.Registry

open Declaration (Name NamespaceBlock)

/-- A text in small letters; only the letters of ASCII have two cases. -/
def lower (s : String) : String :=
  s.map Char.toLower

/-- Whether two texts are the same up to capital and small letters. -/
def sameText (a b : String) : Bool :=
  lower a == lower b

/-- A name without the separators in front of it. -/
def unrooted (name : String) : String :=
  String.ofList (name.toList.dropWhile (· == '\\'))

/-- The key of a class name: no separators in front, and small letters. -/
def classKey (name : String) : String :=
  lower (unrooted name)

/-- The first part of a name and what follows its separator, if it has one. -/
def splitFirst (name : String) : String × Option String :=
  let cs := name.toList
  match cs.dropWhile (· != '\\') with
  | [] => (name, none)
  | _ :: rest => (String.ofList (cs.takeWhile (· != '\\')), some (String.ofList rest))

/-- Names of types that are no classes. -/
def reservedNames : List String :=
  ["array", "bool", "callable", "false", "float", "int", "iterable", "mixed", "never", "null",
   "object", "parent", "self", "static", "string", "true", "void"]

/-- Whether a name never names a class. -/
def isReserved (name : String) : Bool :=
  reservedNames.contains (lower name)

/-- A namespace with its imports. -/
structure Scope where
  /-- The namespace; empty outside all namespaces. -/
  space : String
  /-- The imports: local and full name, in the order of first appearance. -/
  imports : List (String × String) := []
deriving DecidableEq, Repr, Inhabited

/-- Sets the value of a key; a key that is there keeps its place. -/
def setKey {α : Type} (key : String) (value : α) : List (String × α) → List (String × α)
  | [] => [(key, value)]
  | (k, v) :: rest => if k = key then (key, value) :: rest else (k, v) :: setKey key value rest

namespace Scope

/-- The scope with one more import; a later import of the same local name takes the place of an
earlier one. -/
def addImport (scope : Scope) (localName name : String) : Scope :=
  { scope with imports := setKey localName (unrooted name) scope.imports }

/-- The scope of the declarations in a block, where only imports of classes count. -/
def ofBlock (block : NamespaceBlock) : Scope :=
  (block.imports.filter (·.kind == .className)).foldl
    (fun scope i => scope.addImport i.localName i.name) ⟨block.name.getD "", []⟩

/-- The full name behind a local one. -/
def imported? (scope : Scope) (localName : String) : Option String :=
  (scope.imports.find? (sameText ·.1 localName)).map (·.2)

/-- A name in the namespace of the scope. -/
def qualify (scope : Scope) (name : String) : String :=
  if scope.space.isEmpty then name else scope.space ++ "\\" ++ name

/-- Completes a name with separators inside: its first part may be a local name, or the word for the
current namespace. -/
def resolveQualified (scope : Scope) (text : String) : String :=
  let (first, rest) := splitFirst text
  if sameText first "namespace" then scope.qualify (rest.getD "")
  else
    match scope.imported? first with
    | some imported => imported ++ "\\" ++ rest.getD ""
    | none => scope.qualify text

/-- **Completes a class name** to a full name; reserved names stay as they are. -/
def resolve (scope : Scope) (name : Name) : String :=
  match name.kind with
  | .rooted => name.text
  | .qualified => scope.resolveQualified name.text
  | .unqualified =>
    if isReserved name.text then name.text
    else (scope.imported? name.text).getD (scope.qualify name.text)

/-- Completes a class name given as text. -/
def resolveText (scope : Scope) (text : String) : String :=
  scope.resolve (Name.ofText text ⟨0, 0⟩)

end Scope

end PhpHandbook.Registry
