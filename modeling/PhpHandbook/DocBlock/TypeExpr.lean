/-!
# Type expressions

The types that documentation comments are written in, before any name in them is looked up, and
their printed form.  Parentheses are printed around an operand that is a union, an intersection
or a conditional, and nowhere else.

These are the nodes of the type grammar of comments: `TypeExpr` has one constructor for each form of
a type, `TypeExpr.text` prints a node, and `baseName?` is the class-like name that a node is built
on.
-/

namespace PhpHandbook.DocBlock

/-- A type that is a single value. -/
inductive Literal where
  /-- `42`, as written. -/
  | integer (text : String)
  /-- `1.5`, as written. -/
  | decimal (text : String)
  /-- `'foo'`, without its quotes. -/
  | string (value : String)
  /-- `Foo::BAR`, or `Foo::BAR_*`. -/
  | classConstant (className name : String)
deriving DecidableEq, Repr

/-- An entry of a shape: `key?: value`. -/
structure ShapeItem (α : Type) where
  /-- The key, as written. -/
  key : Option String
  /-- Whether the entry may be missing. -/
  isOptional : Bool
  /-- What the entry holds. -/
  value : α
deriving Repr

/-- A parameter of a callable type. -/
structure CallableParam (α : Type) where
  /-- The type of the parameter. -/
  type : α
  /-- Whether the argument is passed by reference. -/
  byRef : Bool
  /-- Whether the parameter takes all further arguments. -/
  variadic : Bool
  /-- The name, with its dollar sign. -/
  name : Option String
  /-- Whether the argument may be left out. -/
  isOptional : Bool
deriving Repr

/-- What a conditional type asks about. -/
inductive Subject (α : Type) where
  /-- A parameter, with its dollar sign. -/
  | parameter (name : String)
  /-- A type. -/
  | type (type : α)
deriving Repr

/-- **A type expression.** -/
inductive TypeExpr where
  /-- `int`, `Foo\Bar`, `class-string`. -/
  | identifier (name : String)
  /-- `array<int, string>`. -/
  | generic (base : String) (args : List TypeExpr)
  /-- `A|B`. -/
  | union (members : List TypeExpr)
  /-- `A&B`. -/
  | intersection (members : List TypeExpr)
  /-- `?Foo`. -/
  | nullable (inner : TypeExpr)
  /-- `Foo[]`. -/
  | array (inner : TypeExpr)
  /-- `T[K]`. -/
  | offset (base : TypeExpr) (key : TypeExpr)
  /-- An array or list with known entries; one that is not sealed may hold more. -/
  | arrayShape (kind : String) (items : List (ShapeItem TypeExpr)) (isSealed : Bool)
  /-- An object with known properties. -/
  | objectShape (items : List (ShapeItem TypeExpr))
  /-- A single value. -/
  | literal (value : Literal)
  /-- `$this`. -/
  | this
  /-- `subject is [not] target ? yes : no`. -/
  | conditional (subject : Subject TypeExpr) (negated : Bool) (target yes no : TypeExpr)
  /-- `callable(int, string): bool`. -/
  | callable (name : String) (params : List (CallableParam TypeExpr)) (returns : TypeExpr)
deriving Repr

namespace Literal

/-- A quote inside a quoted text gets a backslash. -/
def quoteChar (c : Char) : List Char :=
  if c = '\'' then ['\\', '\''] else [c]

/-- The printed form of a literal. -/
def text : Literal → String
  | .integer t | .decimal t => t
  | .string value => "'" ++ String.ofList (value.toList.flatMap quoteChar) ++ "'"
  | .classConstant className name => className ++ "::" ++ name

end Literal

namespace TypeExpr

/-- The name in front of the generic arguments, if the type is a plain or generic name. -/
def baseName? : TypeExpr → Option String
  | .identifier name => some name
  | .generic base _ => some base
  | _ => none

/-- Whether the type is put in parentheses as an operand. -/
def isCompound : TypeExpr → Bool
  | .union _ | .intersection _ | .conditional .. => true
  | _ => false

/-- Puts parentheses around a text if asked to. -/
def parenthesize (wrap : Bool) (text : String) : String :=
  if wrap then "(" ++ text ++ ")" else text

/-- The printed form of a key with its mark and colon, or nothing. -/
def keyText (key : Option String) (isOptional : Bool) : String :=
  match key with
  | some key => key ++ (if isOptional then "?" else "") ++ ": "
  | none => ""

/-- What is printed behind the type of a parameter. -/
def paramTail (byRef variadic : Bool) (name : Option String) (isOptional : Bool) : String :=
  (if byRef || variadic || name.isSome then " " else "") ++ (if byRef then "&" else "")
    ++ (if variadic then "..." else "") ++ name.getD "" ++ (if isOptional then "=" else "")

mutual

/-- **The printed form** of a type. -/
def text : TypeExpr → String
  | .identifier name => name
  | .generic base args => base ++ "<" ++ ", ".intercalate (texts args) ++ ">"
  | .union members => "|".intercalate (operands members)
  | .intersection members => "&".intercalate (operands members)
  | .nullable inner => "?" ++ parenthesize inner.isCompound inner.text
  | .array inner => parenthesize inner.isCompound inner.text ++ "[]"
  | .offset base key => parenthesize base.isCompound base.text ++ "[" ++ key.text ++ "]"
  | .arrayShape kind items isSealed =>
    kind ++ "\x7b" ++ ", ".intercalate
      (itemTexts items ++ (if isSealed then [] else ["..."])) ++ "\x7d"
  | .objectShape items => "object\x7b" ++ ", ".intercalate (itemTexts items) ++ "\x7d"
  | .literal value => value.text
  | .this => "$this"
  | .conditional subject negated target yes no =>
    "(" ++ subjectText subject ++ " is " ++ (if negated then "not " else "") ++ target.text
      ++ " ? " ++ yes.text ++ " : " ++ no.text ++ ")"
  | .callable name params returns =>
    name ++ "(" ++ ", ".intercalate (paramTexts params) ++ "): "
      ++ parenthesize returns.isCompound returns.text

/-- The printed forms of several types. -/
def texts : List TypeExpr → List String
  | [] => []
  | t :: ts => t.text :: texts ts

/-- The printed forms of several operands. -/
def operands : List TypeExpr → List String
  | [] => []
  | t :: ts => parenthesize t.isCompound t.text :: operands ts

/-- The printed forms of the entries of a shape. -/
def itemTexts : List (ShapeItem TypeExpr) → List String
  | [] => []
  | ⟨key, isOptional, value⟩ :: items =>
    (keyText key isOptional ++ value.text) :: itemTexts items

/-- The printed forms of the parameters of a callable. -/
def paramTexts : List (CallableParam TypeExpr) → List String
  | [] => []
  | ⟨type, byRef, variadic, name, isOptional⟩ :: params =>
    (type.text ++ paramTail byRef variadic name isOptional) :: paramTexts params

/-- The printed form of what a conditional asks about. -/
def subjectText : Subject TypeExpr → String
  | .parameter name => name
  | .type type => type.text

end

/-- The printed form of one entry of a shape. -/
def itemText (item : ShapeItem TypeExpr) : String :=
  keyText item.key item.isOptional ++ item.value.text

/-- The printed form of one parameter of a callable. -/
def paramText (param : CallableParam TypeExpr) : String :=
  param.type.text ++ paramTail param.byRef param.variadic param.name param.isOptional

end TypeExpr

end PhpHandbook.DocBlock
