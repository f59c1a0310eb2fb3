import PhpHandbook.Declaration.Cursor

/-!
# Reading native types

A native type is a name behind a question mark, or a union of names, intersections and groups in
parentheses.

This is the part of the parser of sources that reads native types: `readHint` reads a type, and
`readReturnHint` the type behind the parameters of a method.
-/

namespace PhpHandbook.Declaration

open Source (Span)

/-- Whether an item can be the name of a type. -/
def isTypeName (i : Item) : Bool :=
  i.kind.isName || isKeyword .kwStatic i

/-- Reads the name of a type. -/
def readSingleHint (env : Env) (ts : List Item) : Read TypeHint ts :=
  (Reading.expect isTypeName (env.faultAt .expectedType) ts).map fun i =>
    .named (Name.ofText i.token.lexeme i.token.span) i.token.span

/-- Whether an `&` joins types here: an `&` in front of a variable belongs to the parameter. -/
def joinsHints (ts : List Item) : Bool :=
  next (isMark .ampersand) ts && second isTypeName ts

/-- Reads further members of an intersection. -/
def readMoreJoined (env : Env) (ts : List Item) : Read (List TypeHint) ts :=
  if joinsHints ts then
    Reading.onNext (isMark .ampersand) ts
      (fun _ us _ =>
        (readSingleHint env us).andThen fun t vs _ => (readMoreJoined env vs).map (t :: ·))
      (.done [])
  else .done []
termination_by ts.length

/-- The smallest span that covers the start and all types. -/
def coverHints (start : Span) (hints : List TypeHint) : Span :=
  hints.foldl (fun s t => s.merge t.span) start

/-- Reads a name, or an intersection of names. -/
def readIntersection (env : Env) (start : Span) (ts : List Item) : Read TypeHint ts :=
  (readSingleHint env ts).andThen fun first us _ =>
    (readMoreJoined env us).map fun more =>
      if more.isEmpty then first
      else .intersection (first :: more) (coverHints start (first :: more))

/-- Reads an intersection, with or without parentheses. -/
def readGroup (env : Env) (ts : List Item) : Read TypeHint ts :=
  Reading.onNext (isMark .parenOpen) ts
    (fun opening us _ =>
      (readIntersection env opening.token.span us).andThen fun inner vs _ =>
      (expectMark env .parenClose vs).map fun closing =>
        inner.withSpan (opening.token.span.merge closing.span))
    (readIntersection env (env.current ts).span ts)

/-- Reads further members of a union. -/
def readMoreUnited (env : Env) (ts : List Item) : Read (List TypeHint) ts :=
  Reading.onNext (isMark .pipe) ts
    (fun _ us _ => (readGroup env us).andThen fun t vs _ => (readMoreUnited env vs).map (t :: ·))
    (.done [])
termination_by ts.length

/-- **Reads a native type.** -/
def readHint (env : Env) (ts : List Item) : Read TypeHint ts :=
  let start := (env.current ts).span
  Reading.onNext (isMark .question) ts
    (fun _ us _ => (readSingleHint env us).map fun inner =>
      .nullable inner (start.merge inner.span))
    ((readGroup env ts).andThen fun first us _ =>
      (readMoreUnited env us).map fun more =>
        if more.isEmpty then first else .union (first :: more) (coverHints start (first :: more)))

/-- Reads a native type behind a colon, if there is one. -/
def readReturnHint (env : Env) (ts : List Item) : Read (Option TypeHint) ts :=
  Reading.onNext (isMark .colon) ts (fun _ us _ => (readHint env us).map some) (.done none)

end PhpHandbook.Declaration
