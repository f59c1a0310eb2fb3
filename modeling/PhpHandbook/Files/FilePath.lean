import PhpHandbook.Text.Split

/-!
# Paths

A path is a text with slashes.  Two texts may name the same place; what counts when paths are
compared or taken apart are their parts, in which doubled slashes and inner `.` do not occur.  The
text is kept, because it is what people see.

## Main definitions

* `FilePath`, `FilePath.parts`: a path and its parts.
* `FilePath.join`, `FilePath.parent?`, `FilePath.stripFront?`: putting paths together and taking
  them apart.
-/

namespace PhpHandbook.Files

/-- A path. -/
structure FilePath where
  /-- The path as it is written. -/
  text : String
deriving DecidableEq, Repr

/-- A part of a path. -/
inductive Part where
  /-- The top of the tree. -/
  | top
  /-- The current directory, in front of all other parts. -/
  | here
  /-- The directory above. -/
  | up
  /-- A file or directory in the one before. -/
  | name (s : String)
deriving DecidableEq, Repr

/-- Whether a piece between slashes says nothing. -/
def isIdle (segment : String) : Bool :=
  segment == "" || segment == "."

/-- The part that a piece between slashes stands for. -/
def Part.ofSegment? (segment : String) : Option Part :=
  if isIdle segment then none
  else if segment = ".." then some .up
  else some (.name segment)

namespace Part

/-- The place of a part among the kinds of parts. -/
def rank : Part → Nat
  | top => 0
  | here => 1
  | up => 2
  | name _ => 3

/-- The order of parts: by kind, then by name. -/
def precedes : Part → Part → Bool
  | name a, name b => a < b
  | a, b => a.rank < b.rank

end Part

namespace FilePath

/-- The pieces between slashes. -/
def segments (p : FilePath) : List String :=
  Text.split '/' p.text

/-- Whether the path starts at the top of the tree. -/
def isAbsolute (p : FilePath) : Bool :=
  p.text.toList.head? == some '/'

/-- The part that the first piece of a path stands for. -/
def firstPart? (p : FilePath) (segment : String) : Option Part :=
  if p.isAbsolute then some .top
  else if segment = "." then some .here
  else Part.ofSegment? segment

/-- **The parts** of a path. -/
def parts (p : FilePath) : List Part :=
  match p.segments with
  | [] => []
  | first :: rest => (p.firstPart? first).toList ++ rest.filterMap Part.ofSegment?

/-- A path seen from another one; an absolute path stays as it is. -/
def join (base : FilePath) (more : String) : FilePath :=
  if more.toList.head? = some '/' then ⟨more⟩
  else if base.text.isEmpty ∨ base.text.toList.getLast? = some '/' then ⟨base.text ++ more⟩
  else ⟨base.text ++ "/" ++ more⟩

/-- Drops pieces that say nothing from the end, but not the first piece. -/
def trimSegments : List String → List String
  | [] => []
  | first :: rest => first :: (rest.reverse.dropWhile isIdle).reverse

/-- The path with the given pieces. -/
def ofSegments : List String → FilePath
  | [""] => ⟨"/"⟩
  | segments => ⟨"/".intercalate segments⟩

/-- The path without its last part, if it has one below the top. -/
def parent? (p : FilePath) : Option FilePath :=
  match p.parts.getLast? with
  | none => none
  | some .top => none
  | some _ =>
    let front := (trimSegments p.segments).dropLast
    some (if front.isEmpty then ⟨""⟩ else ofSegments (trimSegments front))

/-- Drops pieces until `n` parts are gone. -/
def dropSegments : Nat → List String → List String
  | 0, segments => segments.dropWhile isIdle
  | _ + 1, [] => []
  | n + 1, segment :: rest =>
    if (Part.ofSegment? segment).isSome then dropSegments n rest else dropSegments (n + 1) rest

/-- The path without its first `n` parts. -/
def dropParts (n : Nat) (p : FilePath) : FilePath :=
  match n, p.segments with
  | 0, _ => p
  | _ + 1, [] => p
  | n + 1, first :: rest =>
    let left := if (p.firstPart? first).isSome then dropSegments n rest
      else dropSegments (n + 1) rest
    ⟨"/".intercalate (left.reverse.dropWhile isIdle).reverse⟩

/-- **A path seen from a directory above it**, if it starts with the parts of that directory. -/
def stripFront? (front p : FilePath) : Option FilePath :=
  if front.parts.isPrefixOf p.parts then some (p.dropParts front.parts.length) else none

/-- The last part, if it is a name. -/
def fileName? (p : FilePath) : Option String :=
  match p.parts.getLast? with
  | some (.name s) => some s
  | _ => none

/-- The ending of the name behind its last dot; a dot in front of the name does not count. -/
def extension? (p : FilePath) : Option String :=
  p.fileName?.bind fun name =>
    let ending := name.toList.reverse.takeWhile (· != '.')
    if ending.length + 1 < name.length then some (String.ofList ending.reverse) else none

/-- The order of lists of parts: a list comes before those that it starts. -/
def partsLe : List Part → List Part → Bool
  | [], _ => true
  | _ :: _, [] => false
  | a :: as, b :: bs => if a = b then partsLe as bs else a.precedes b

/-- The order of paths: part by part. -/
def le (a b : FilePath) : Bool :=
  partsLe a.parts b.parts

end FilePath

end PhpHandbook.Files
