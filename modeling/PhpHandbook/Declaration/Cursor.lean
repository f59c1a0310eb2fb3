import PhpHandbook.Declaration.Basic
import PhpHandbook.Declaration.Fault
import PhpHandbook.Reading
import PhpHandbook.Source.Lexer
import PhpHandbook.Text.Blank

/-!
# Tokens with their comments

Comments are no tokens of the grammar: each stands with the token that follows it.  The readers
of declarations work on such items; the end of the file is no item but the place where the list
is empty, so no reader can step over it.

The readers here take single tokens and pass over what declarations do not need: blocks,
attributes and expressions, which end where their brackets balance.

This is the cursor of the parser of sources: `Item` is a token with the comments pending at it,
`Env` what the cursor knows of the text, and each reader here is one of the cursor's operations.
-/

namespace PhpHandbook.Declaration

open Source (Span Token TokenKind Keyword Mark)

/-- A token with the comments in front of it. -/
structure Item where
  comments : List Comment
  token : Token
deriving Repr

/-- The kind of the token. -/
def Item.kind (i : Item) : TokenKind :=
  i.token.kind

/-- Puts comments to the tokens that follow them. -/
def attachComments (pending : List Comment) : List Token → List Item
  | [] => []
  | t :: ts =>
    if t.kind.isTrivia then attachComments (pending ++ [⟨t.lexeme, t.span⟩]) ts
    else ⟨pending, t⟩ :: attachComments [] ts

/-- What does not change while a file is read. -/
structure Env where
  /-- The source text. -/
  source : List Char
  /-- The end of the file. -/
  eof : Token

/-- What a reader of items gives. -/
abbrev Read (α : Type) (ts : List Item) : Type :=
  Reading Item Fault α ts

namespace Env

/-- The next token, or the end of the file. -/
def current (env : Env) : List Item → Token
  | t :: _ => t.token
  | [] => env.eof

/-- The fault of finding the next token in place of the expected ones. -/
def unexpected (env : Env) (expected : List TokenKind) : List Item → Fault
  | t :: _ => ⟨.unexpectedToken t.kind expected, t.token.span, none⟩
  | [] => ⟨.unexpectedEnd, env.eof.span, none⟩

/-- A fault at the next token. -/
def faultAt (env : Env) (kind : FaultKind) (ts : List Item) : Fault :=
  ⟨kind, (env.current ts).span, none⟩

end Env

/-- Whether an item is of the given kind. -/
def isKind (kind : TokenKind) (i : Item) : Bool :=
  i.kind == kind

/-- Whether an item is the given mark. -/
def isMark (mark : Mark) (i : Item) : Bool :=
  i.kind == .mark mark

/-- Whether an item is the given keyword. -/
def isKeyword (word : Keyword) (i : Item) : Bool :=
  i.kind == .keyword word

/-- Whether the next item satisfies `p`. -/
def next (p : Item → Bool) (ts : List Item) : Bool :=
  ts.head?.any p

/-- Whether the item after the next one satisfies `p`. -/
def second (p : Item → Bool) (ts : List Item) : Bool :=
  ts.tail.head?.any p

/-- The documentation comment in front of the next item: the last one that stands there. -/
def docComment? (ts : List Item) : Option Comment :=
  ts.head?.bind fun i => i.comments.reverse.find? Comment.isDoc

/-! ### Single tokens -/

/-- Takes the given mark. -/
def expectMark (env : Env) (mark : Mark) (ts : List Item) : Read Token ts :=
  (Reading.expect (isMark mark) (env.unexpected [.mark mark]) ts).map (·.token)

/-- Takes the given keyword. -/
def expectKeyword (env : Env) (word : Keyword) (ts : List Item) : Read Token ts :=
  (Reading.expect (isKeyword word) (env.unexpected [.keyword word]) ts).map (·.token)

/-- Takes the given mark if it is next. -/
def skipMark (mark : Mark) (ts : List Item) : Read Bool ts :=
  Reading.skip (isMark mark) ts

/-- Takes a class name. -/
def readName (env : Env) (ts : List Item) : Read Name ts :=
  (Reading.expect (·.kind.isName) (env.faultAt .expectedIdentifier) ts).map fun i =>
    Name.ofText i.token.lexeme i.token.span

/-- Takes an identifier. -/
def readIdent (env : Env) (ts : List Item) : Read Ident ts :=
  (Reading.expect (isKind .name) (env.faultAt .expectedIdentifier) ts).map fun i =>
    ⟨i.token.lexeme, i.token.span⟩

/-- Takes the name of a member, which may be a keyword. -/
def readMemberName (env : Env) (ts : List Item) : Read Ident ts :=
  (Reading.expect (fun i => i.kind == .name || i.kind.isKeyword)
    (env.faultAt .expectedIdentifier) ts).map fun i => ⟨i.token.lexeme, i.token.span⟩

/-- Takes a variable. -/
def readVariable (env : Env) (ts : List Item) : Read Ident ts :=
  (Reading.expect (isKind .variableName) (env.unexpected [.variableName]) ts).map fun i =>
    ⟨String.ofList (i.token.lexeme.toList.dropWhile (· == '$')), i.token.span⟩

/-- Takes further names, each behind a comma. -/
def readMoreNames (env : Env) (ts : List Item) : Read (List Name) ts :=
  Reading.onNext (isMark .comma) ts
    (fun _ us _ => (readName env us).andThen fun n vs _ => (readMoreNames env vs).map (n :: ·))
    (.done [])
termination_by ts.length

/-- Takes one or more names with commas between them. -/
def readNames (env : Env) (ts : List Item) : Read (List Name) ts :=
  (readName env ts).andThen fun n us _ => (readMoreNames env us).map (n :: ·)

/-! ### Passing over -/

/-- Passes over the rest of a block, `depth` blocks deep inside it, and gives the span from its
opening on. -/
def skipToClose (opening : Span) (depth : Nat) : (ts : List Item) → Read Span ts
  | [] => .fail ⟨.unexpectedEnd, opening, some "unclosed '\x7b'"⟩
  | t :: us =>
    .behind t <|
      if isMark .braceOpen t then skipToClose opening (depth + 1) us
      else if isMark .braceClose t then
        match depth with
        | 0 => .done (opening.merge t.token.span)
        | depth + 1 => skipToClose opening depth us
      else skipToClose opening depth us

section Closing

variable {t : Item} {us : List Item}

theorem skipToClose_of_open (opening : Span) (depth : Nat) (h : isMark .braceOpen t) :
    skipToClose opening depth (t :: us) = .behind t (skipToClose opening (depth + 1) us) := by
  rw [skipToClose.eq_def]
  exact congrArg (Reading.behind t) (if_pos h)

theorem skipToClose_zero_of_close (opening : Span) (hopen : ¬isMark .braceOpen t)
    (h : isMark .braceClose t) :
    skipToClose opening 0 (t :: us) = .behind t (.done (opening.merge t.token.span)) := by
  rw [skipToClose.eq_def]
  exact congrArg (Reading.behind t) ((if_neg hopen).trans (if_pos h))

theorem skipToClose_succ_of_close (opening : Span) (depth : Nat) (hopen : ¬isMark .braceOpen t)
    (h : isMark .braceClose t) :
    skipToClose opening (depth + 1) (t :: us) = .behind t (skipToClose opening depth us) := by
  rw [skipToClose.eq_def]
  exact congrArg (Reading.behind t) ((if_neg hopen).trans (if_pos h))

theorem skipToClose_of_other (opening : Span) (depth : Nat) (hopen : ¬isMark .braceOpen t)
    (hclose : ¬isMark .braceClose t) :
    skipToClose opening depth (t :: us) = .behind t (skipToClose opening depth us) := by
  rw [skipToClose.eq_def]
  exact congrArg (Reading.behind t) ((if_neg hopen).trans (if_neg hclose))

end Closing

/-- Passes over a block in braces. -/
def skipBlock (env : Env) (ts : List Item) : Read Span ts :=
  (expectMark env .braceOpen ts).andThen fun opening us _ => skipToClose opening.span 0 us

/-- Passes over the rest of an attribute group, `depth` brackets deep inside it. -/
def skipAttribute (opening : Span) (depth : Nat) : (ts : List Item) → Read Unit ts
  | [] => .fail ⟨.unexpectedEnd, opening, some "unclosed attribute"⟩
  | t :: us =>
    .behind t <|
      if isMark .attributeOpen t || isMark .bracketOpen t then skipAttribute opening (depth + 1) us
      else if isMark .bracketClose t then
        match depth with
        | 0 => .done ()
        | depth + 1 => skipAttribute opening depth us
      else skipAttribute opening depth us

section ClosingAttribute

variable {t : Item} {us : List Item}

theorem skipAttribute_of_open (opening : Span) (depth : Nat)
    (h : (isMark .attributeOpen t || isMark .bracketOpen t) = true) :
    skipAttribute opening depth (t :: us) = .behind t (skipAttribute opening (depth + 1) us) := by
  rw [skipAttribute.eq_def]
  exact congrArg (Reading.behind t) (if_pos h)

theorem skipAttribute_zero_of_close (opening : Span)
    (hopen : ¬(isMark .attributeOpen t || isMark .bracketOpen t) = true)
    (h : isMark .bracketClose t) :
    skipAttribute opening 0 (t :: us) = .behind t (.done ()) := by
  rw [skipAttribute.eq_def]
  exact congrArg (Reading.behind t) ((if_neg hopen).trans (if_pos h))

theorem skipAttribute_succ_of_close (opening : Span) (depth : Nat)
    (hopen : ¬(isMark .attributeOpen t || isMark .bracketOpen t) = true)
    (h : isMark .bracketClose t) :
    skipAttribute opening (depth + 1) (t :: us) = .behind t (skipAttribute opening depth us) := by
  rw [skipAttribute.eq_def]
  exact congrArg (Reading.behind t) ((if_neg hopen).trans (if_pos h))

theorem skipAttribute_of_other (opening : Span) (depth : Nat)
    (hopen : ¬(isMark .attributeOpen t || isMark .bracketOpen t) = true)
    (hclose : ¬isMark .bracketClose t) :
    skipAttribute opening depth (t :: us) = .behind t (skipAttribute opening depth us) := by
  rw [skipAttribute.eq_def]
  exact congrArg (Reading.behind t) ((if_neg hopen).trans (if_neg hclose))

end ClosingAttribute

/-- Passes over attribute groups. -/
def skipAttributes (ts : List Item) : Read Unit ts :=
  Reading.onNext (isMark .attributeOpen) ts
    (fun t us _ => (skipAttribute t.token.span 0 us).andThen fun _ vs _ => skipAttributes vs)
    (.done ())
termination_by ts.length

/-- Whether an item opens a bracket. -/
def opensBracket (i : Item) : Bool :=
  isMark .parenOpen i || isMark .bracketOpen i || isMark .braceOpen i || isMark .attributeOpen i

/-- Whether an item closes a bracket. -/
def closesBracket (i : Item) : Bool :=
  isMark .parenClose i || isMark .bracketClose i || isMark .braceClose i

/-- Passes over an expression up to a stop outside its brackets, a bracket that it does not open,
or the end of the file; gives the offset where it ends. -/
def skipExpression (stops : Item → Bool) (depth stop : Nat) : (ts : List Item) → Read Nat ts
  | [] => .done stop
  | t :: us =>
    if depth = 0 ∧ (stops t ∨ closesBracket t) then .done stop
    else
      .behind t <| skipExpression stops
        (if opensBracket t then depth + 1 else if closesBracket t then depth - 1 else depth)
        t.token.span.stop us

/-- The source text of an expression, without blanks around it. -/
def readExpression (env : Env) (stops : Item → Bool) (ts : List Item) : Read String ts :=
  let start := (env.current ts).span.start
  (skipExpression stops 0 start ts).map fun stop =>
    Text.trim (Span.slice ⟨start, stop⟩ env.source)

/-- The source text of an expression behind `=`, if there is one. -/
def readDefault (env : Env) (stops : Item → Bool) (ts : List Item) : Read (Option String) ts :=
  Reading.onNext (isMark .equals) ts (fun _ us _ => (readExpression env stops us).map some)
    (.done none)

end PhpHandbook.Declaration
