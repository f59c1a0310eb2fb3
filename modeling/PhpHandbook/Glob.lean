/-!
# Path patterns

A pattern is a text with wildcards: `?` stands for one character, `*` for any run of characters,
`[ab]` and `[!a-z]` for one character in or outside a set, and `**`, which has to fill a whole
component of the path, for any number of components.  All wildcards also match separators and
leading dots, and letters match only themselves.

A project needs of a pattern only which paths it covers, so it takes any reader of patterns; the
patterns here are those of the program's own choice.

## Main definitions

* `PathPattern`: a pattern as a project uses it.
* `Glob.parse`: the pattern a text denotes, or the first fault in it.
* `Glob.covers`: whether a pattern matches a whole text.
* `Glob.read`: the reader of such patterns.
-/

namespace PhpHandbook

/-- A pattern as a project uses it: what counts is which paths it covers. -/
structure PathPattern where
  /-- Whether a path is covered. -/
  covers : String → Bool

namespace Glob

/-- A part of a set of characters. -/
inductive Member where
  /-- One character. -/
  | single (c : Char)
  /-- All characters from the first to the last. -/
  | range (first last : Char)
deriving DecidableEq, Repr

/-- Whether a part of a set holds a character. -/
def Member.holds (c : Char) : Member → Bool
  | single d => c == d
  | range first last => first ≤ c && c ≤ last

/-- A piece of a pattern. -/
inductive Piece where
  /-- A character that stands for itself. -/
  | literal (c : Char)
  /-- Any one character. -/
  | one
  /-- Any run of characters. -/
  | run
  /-- Any number of whole components, or all that is left. -/
  | components
  /-- One character of a set. -/
  | within (set : List Member)
  /-- One character outside a set. -/
  | outside (set : List Member)
deriving DecidableEq, Repr

/-- Why a text is no pattern. -/
inductive Cause where
  /-- More than two stars in a row. -/
  | wildcards
  /-- Two stars that do not fill a component. -/
  | recursion
  /-- A set that is not closed. -/
  | brackets
deriving DecidableEq, Repr

/-- A fault in a pattern, with the number of characters in front of it. -/
structure Fault where
  /-- Where it is. -/
  position : Nat
  /-- What it is. -/
  cause : Cause
deriving DecidableEq, Repr

/-- The wording of a cause. -/
def Cause.message : Cause → String
  | wildcards => "wildcards are either regular `*` or recursive `**`"
  | recursion => "recursive wildcards must form a single path component"
  | brackets => "invalid range pattern"

/-- The wording of a fault. -/
def Fault.message (f : Fault) : String :=
  s!"Pattern syntax error near position {f.position}: {f.cause.message}"

/-- The parts of a set, from the text between its brackets. -/
def members : List Char → List Member
  | a :: '-' :: b :: cs => .range a b :: members cs
  | c :: cs => .single c :: members cs
  | [] => []

/-- The set that a text opens, and the number of characters of it: behind the opening bracket
the set holds at least one character, so a closing bracket there is a member. -/
def bracketed : List Char → Option (Piece × Nat)
  | '!' :: c :: cs =>
    let inner := cs.takeWhile (· != ']')
    if inner.length < cs.length then some (.outside (members (c :: inner)), inner.length + 3)
    else none
  | c :: cs =>
    let inner := cs.takeWhile (· != ']')
    if c != '!' && inner.length < cs.length then
      some (.within (members (c :: inner)), inner.length + 2)
    else none
  | [] => none

/-- Reads the pieces of a pattern.  `position` counts the characters in front, and `fresh` tells
whether a component starts here. -/
def readPieces (position : Nat) (fresh : Bool) : List Char → Except Fault (List Piece)
  | [] => .ok []
  | '*' :: '*' :: '*' :: _ => .error ⟨position + 2, .wildcards⟩
  | '*' :: '*' :: cs =>
    if fresh then
      match cs with
      | [] => .ok [.components]
      | '/' :: cs => (.components :: ·) <$> readPieces (position + 3) true cs
      | _ => .error ⟨position + 2, .recursion⟩
    else .error ⟨position - 1, .recursion⟩
  | '*' :: cs => (.run :: ·) <$> readPieces (position + 1) false cs
  | '?' :: cs => (.one :: ·) <$> readPieces (position + 1) false cs
  | '[' :: cs =>
    match bracketed cs with
    | some (piece, n) => (piece :: ·) <$> readPieces (position + 1 + n) false (cs.drop n)
    | none => .error ⟨position, .brackets⟩
  | c :: cs => (.literal c :: ·) <$> readPieces (position + 1) (c == '/') cs
termination_by cs => cs.length
decreasing_by all_goals simp_wf; try omega

/-- Whether some end of a text, the whole text and the empty one among them, satisfies `p`. -/
def someSuffix (p : List Char → Bool) : List Char → Bool
  | [] => p []
  | c :: cs => p (c :: cs) || someSuffix p cs

/-- Whether pieces match a whole text. -/
def matchesAll : List Piece → List Char → Bool
  | [], cs => cs.isEmpty
  | .run :: ps, cs => someSuffix (matchesAll ps) cs
  | .components :: ps, cs =>
    matchesAll ps cs || someSuffix (fun
      | [] => matchesAll ps []
      | c :: rest => c == '/' && matchesAll ps rest) cs
  | .literal d :: ps, c :: cs => c == d && matchesAll ps cs
  | .one :: ps, _ :: cs => matchesAll ps cs
  | .within set :: ps, c :: cs => set.any (·.holds c) && matchesAll ps cs
  | .outside set :: ps, c :: cs => !set.any (·.holds c) && matchesAll ps cs
  | _ :: _, [] => false

end Glob

/-- A pattern for paths. -/
structure Glob where
  /-- Its pieces, in order. -/
  pieces : List Glob.Piece
deriving DecidableEq, Repr

namespace Glob

/-- **The pattern a text denotes**, or the first fault in it. -/
def parse (text : String) : Except Fault Glob :=
  Glob.mk <$> readPieces 0 true text.toList

/-- **Whether a pattern matches** a whole text. -/
def covers (glob : Glob) (text : String) : Bool :=
  matchesAll glob.pieces text.toList

/-- **Reads a pattern**; a fault is told in words. -/
def read (text : String) : Except String PathPattern :=
  match parse text with
  | .ok glob => .ok ⟨glob.covers⟩
  | .error fault => .error fault.message

end Glob

end PhpHandbook
