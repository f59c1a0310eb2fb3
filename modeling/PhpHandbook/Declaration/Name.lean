import PhpHandbook.Source.Token
import PhpHandbook.Text.Split

/-!
# Names, comments and native types

The parts that declarations are made of, each with its place in the source.

These are the leaves of the syntax tree that the parser of sources builds: `Ident` and `Name` are
names as written, `Comment` is a comment with its span, and `TypeHint` a native type.
-/

namespace PhpHandbook.Declaration

open Source (Span)

/-- An identifier with its place. -/
structure Ident where
  /-- The identifier, without a dollar sign. -/
  name : String
  /-- Where it stands. -/
  span : Span
deriving DecidableEq, Repr

/-- How a class name is written. -/
inductive NameKind where
  /-- `Foo` -/
  | unqualified
  /-- `Foo\Bar` -/
  | qualified
  /-- `\Foo\Bar` -/
  | rooted
deriving DecidableEq, Repr

/-- A class name as written. -/
structure Name where
  /-- The name without a leading separator. -/
  text : String
  /-- How it is written. -/
  kind : NameKind
  /-- Where it stands. -/
  span : Span
deriving DecidableEq, Repr

/-- The last part of a name. -/
def lastSegment (name : String) : String :=
  Text.lastPart '\\' name

namespace Name

/-- The name that a text spells. -/
def ofText (text : String) (span : Span) : Name :=
  match text.toList with
  | '\\' :: cs => ⟨String.ofList cs, .rooted, span⟩
  | cs => ⟨text, if cs.contains '\\' then .qualified else .unqualified, span⟩

/-- The name as written. -/
def written (name : Name) : String :=
  if name.kind = .rooted then "\\" ++ name.text else name.text

/-- The last part of the name. -/
def last (name : Name) : String :=
  lastSegment name.text

end Name

/-- A comment, with its delimiters. -/
structure Comment where
  /-- The text. -/
  text : String
  /-- Where it stands. -/
  span : Span
deriving DecidableEq, Repr

namespace Comment

/-- Whether the comment is a documentation comment. -/
def isDoc (c : Comment) : Bool :=
  "/**".toList.isPrefixOf c.text.toList && c.text != "/**/"

/-- The documentation comments among several, one after the other. -/
def joinDocs (comments : List Comment) : String :=
  "\n".intercalate ((comments.filter isDoc).map (·.text))

end Comment

/-- **A native type**: `?Foo`, `int|string`, `(A&B)|null`. -/
inductive TypeHint where
  | named (name : Name) (span : Span)
  | nullable (inner : TypeHint) (span : Span)
  | union (members : List TypeHint) (span : Span)
  | intersection (members : List TypeHint) (span : Span)
deriving Repr

namespace TypeHint

/-- Where the type stands. -/
def span : TypeHint → Span
  | .named _ s | .nullable _ s | .union _ s | .intersection _ s => s

/-- The same type at another place. -/
def withSpan (s : Span) : TypeHint → TypeHint
  | .named name _ => .named name s
  | .nullable inner _ => .nullable inner s
  | .union members _ => .union members s
  | .intersection members _ => .intersection members s

mutual

/-- **The printed form** of a native type. -/
def text : TypeHint → String
  | .named name _ => name.written
  | .nullable inner _ => "?" ++ inner.text
  | .union members _ => "|".intercalate (texts members)
  | .intersection members _ => "(" ++ "&".intercalate (texts members) ++ ")"

/-- The printed forms of several types. -/
def texts : List TypeHint → List String
  | [] => []
  | t :: ts => t.text :: texts ts

end

end TypeHint

end PhpHandbook.Declaration
