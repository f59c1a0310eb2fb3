import PhpHandbook.DocBlock.TypeReader

/-!
# Tags

A tag is a name with a body.  The name decides how the body is read: a template, a type, a
parameter, an assertion, or plain text.  Names are recognised in capital and small letters, also
behind the name of an analysis tool.  A body that cannot be read makes the tag invalid and loses
nothing.

This is the part of the parser of documentation comments that reads one tag: `TagValue` has one
constructor for each kind of tag, each reader of a body is named after the kind, and `Tag.ofBody`
reads a tag from its name and body.
-/

namespace PhpHandbook.DocBlock

/-- How a template varies with its argument. -/
inductive Variance where
  | invariant
  | covariant
  | contravariant
deriving DecidableEq, Repr

/-- The word for a variance, where there is one. -/
def Variance.keyword? : Variance → Option String
  | .invariant => none
  | .covariant => some "covariant"
  | .contravariant => some "contravariant"

/-- `@template T of Bound = Default`. -/
structure TemplateTag where
  /-- The name of the template. -/
  name : String
  /-- The type that arguments have to satisfy. -/
  bound : Option TypeExpr
  /-- The argument that is taken when none is given. -/
  fallback : Option TypeExpr
  /-- How the type varies with its argument. -/
  variance : Variance
  /-- The text behind it. -/
  description : String
deriving Repr

/-- A tag that holds one type. -/
structure TypeTag where
  /-- The type. -/
  type : TypeExpr
  /-- The text behind it. -/
  description : String
deriving Repr

/-- `@param [Type] [&][...]$name`. -/
structure ParamTag where
  /-- The type, if one is written. -/
  type : Option TypeExpr
  /-- The name of the parameter, with its dollar sign. -/
  name : String
  /-- Whether the argument is passed by reference. -/
  byRef : Bool
  /-- Whether the parameter takes all further arguments. -/
  variadic : Bool
  /-- The text behind it. -/
  description : String
deriving Repr

/-- `@param-out Type $name`. -/
structure ParamOutTag where
  /-- The type after the call. -/
  type : TypeExpr
  /-- The name of the parameter, with its dollar sign. -/
  name : String
  /-- The text behind it. -/
  description : String
deriving Repr

/-- `@var Type [$name]`. -/
structure VarTag where
  /-- The type. -/
  type : TypeExpr
  /-- The variable, with its dollar sign. -/
  variableName : Option String
  /-- The text behind it. -/
  description : String
deriving Repr

/-- When an assertion holds. -/
inductive AssertKind where
  | always
  | ifTrue
  | ifFalse
deriving DecidableEq, Repr

/-- `@assert [!][=]Type $name`. -/
structure AssertTag where
  /-- When it holds. -/
  kind : AssertKind
  /-- The asserted type. -/
  type : TypeExpr
  /-- The name of the parameter, with its dollar sign. -/
  parameter : String
  /-- Whether the type is excluded. -/
  negated : Bool
  /-- Whether the type is meant exactly. -/
  equality : Bool
  /-- The text behind it. -/
  description : String
deriving Repr

/-- What a tag says. -/
inductive TagValue where
  | template (tag : TemplateTag)
  | extending (tag : TypeTag)
  | implementing (tag : TypeTag)
  | usingTrait (tag : TypeTag)
  | param (tag : ParamTag)
  | paramOut (tag : ParamOutTag)
  | returning (tag : TypeTag)
  | var (tag : VarTag)
  | throwing (tag : TypeTag)
  | deprecated (text : String)
  | assert (tag : AssertTag)
  /-- A tag without a form of its own. -/
  | plain (body : String)
  /-- A tag whose body cannot be read. -/
  | invalid (body : String) (error : TypeError)
deriving Repr

/-- A tag of a comment. -/
structure Tag where
  /-- The name as written. -/
  name : String
  /-- What it says. -/
  value : TagValue
deriving Repr

/-- The names of analysis tools that may stand in front of a tag. -/
def toolMarks : List String :=
  ["phpstan-", "psalm-"]

/-- What is left of a text behind a fixed beginning. -/
def strip? (front text : String) : Option String :=
  if front.toList.isPrefixOf text.toList then
    some (String.ofList (text.toList.drop front.length))
  else none

/-- The name behind that of an analysis tool, written in small letters. -/
def stripTool? (name : String) : Option String :=
  toolMarks.findSome? (strip? · name)

/-- Whether a tag is meant for an analysis tool. -/
def Tag.isForTool (tag : Tag) : Bool :=
  (stripTool? tag.name).isSome

/-- The first word of a text. -/
def firstWord (text : String) : String :=
  String.ofList ((Text.dropBlank text.toList).takeWhile (!Text.isBlank ·))

/-- The error for something that is not there: it shows the next word of the body. -/
def missing (e : Expected) (ts : List Lexeme) : TypeError :=
  let found := unread ts
  if found.isEmpty then .unexpectedEnd e else .unexpected e (firstWord found)

/-- Reads a type if the flag is set. -/
def typeIf (wanted : Bool) (ts : List Lexeme) : Read (Option TypeExpr) ts :=
  if wanted then (readType ts).map some else .done none

/-- Reads a variable, which has to be there. -/
def parameterName (ts : List Lexeme) : Read String ts :=
  (takeVariable ts).andThen fun name us _ =>
    match name with
    | some name => .done name
    | none => .fail (missing .parameterName us)

/-- Reads a template. -/
def readTemplate (variance : Variance) (ts : List Lexeme) : Read TemplateTag ts :=
  (takeIdentifier ts).andThen fun name us _ =>
    match name with
    | none => .fail (missing .templateName us)
    | some name =>
      (Reading.skip (fun t => t.isWord "of" || t.isWord "as") us).andThen fun bounded us _ =>
      (typeIf bounded us).andThen fun bound us _ =>
      (skipKind .equals us).andThen fun defaulted us _ =>
      (typeIf defaulted us).andThen fun fallback us _ =>
      .done ⟨name, bound, fallback, variance, unread us⟩

/-- Reads a type with its description. -/
def readTyped (ts : List Lexeme) : Read TypeTag ts :=
  (readType ts).andThen fun type us _ => .done ⟨type, unread us⟩

/-- Reads a type with generic arguments and its description. -/
def readGeneric (ts : List Lexeme) : Read TypeTag ts :=
  (readTyped ts).andThen fun tag _ _ =>
    match tag.type with
    | .generic .. => .done tag
    | type => .fail (.unexpected .genericType type.text)

/-- Reads a parameter. -/
def readParam (ts : List Lexeme) : Read ParamTag ts :=
  (typeIf (!atParameter ts) ts).andThen fun type us _ =>
  (skipKind .ampersand us).andThen fun byRef us _ =>
  (skipKind .ellipsis us).andThen fun variadic us _ =>
  (parameterName us).andThen fun name us _ =>
  .done ⟨type, name, byRef, variadic, unread us⟩

/-- Reads what a parameter holds after the call. -/
def readParamOut (ts : List Lexeme) : Read ParamOutTag ts :=
  (readType ts).andThen fun type us _ =>
  (skipKind .ampersand us).andThen fun _ us _ =>
  (parameterName us).andThen fun name us _ =>
  .done ⟨type, name, unread us⟩

/-- Reads the type of a variable. -/
def readVar (ts : List Lexeme) : Read VarTag ts :=
  (readType ts).andThen fun type us _ =>
  (takeVariable us).andThen fun name us _ =>
  .done ⟨type, name, unread us⟩

/-- Reads an assertion. -/
def readAssert (kind : AssertKind) (ts : List Lexeme) : Read AssertTag ts :=
  (skipKind .bang ts).andThen fun negated us _ =>
  (skipKind .equals us).andThen fun equality us _ =>
  (readType us).andThen fun type us _ =>
  (parameterName us).andThen fun parameter us _ =>
  .done ⟨kind, type, parameter, negated, equality, unread us⟩

/-- What a tag with this name and body says, or why its body cannot be read. -/
def readValue (name body : String) : Except TypeError TagValue :=
  let lower := name.map Char.toLower
  let ts := lexemes body.toList
  match (stripTool? lower).getD lower with
  | "template" => (readTemplate .invariant ts).outcome.map .template
  | "template-covariant" => (readTemplate .covariant ts).outcome.map .template
  | "template-contravariant" => (readTemplate .contravariant ts).outcome.map .template
  | "extends" | "template-extends" => (readGeneric ts).outcome.map .extending
  | "implements" | "template-implements" => (readGeneric ts).outcome.map .implementing
  | "use" | "template-use" => (readGeneric ts).outcome.map .usingTrait
  | "param" => (readParam ts).outcome.map .param
  | "param-out" => (readParamOut ts).outcome.map .paramOut
  | "return" => (readTyped ts).outcome.map .returning
  | "var" => (readVar ts).outcome.map .var
  | "throws" => (readTyped ts).outcome.map .throwing
  | "deprecated" => .ok (.deprecated (Text.trim body))
  | "assert" => (readAssert .always ts).outcome.map .assert
  | "assert-if-true" => (readAssert .ifTrue ts).outcome.map .assert
  | "assert-if-false" => (readAssert .ifFalse ts).outcome.map .assert
  | _ => .ok (.plain (Text.trim body))

/-- **Reads a tag.** -/
def Tag.ofBody (name body : String) : Tag :=
  match readValue name body with
  | .ok value => ⟨name, value⟩
  | .error e => ⟨name, .invalid body e⟩

end PhpHandbook.DocBlock
