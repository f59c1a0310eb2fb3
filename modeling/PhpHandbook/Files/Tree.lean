import PhpHandbook.Files.FilePath

/-!
# Files and directories

A file tree is a value: reading looks things up in it, and writing gives a new tree.  A path is
followed piece by piece, so that it exists only if everything on the way does.

It stands for the file system that the generator and its commands work on.

## Main definitions

* `Node`, `FileTree`: files and directories, and the directory that relative paths start at.
* `FileTree.locate`: where a path leads.
* `FileTree.readText`, `FileTree.createDirs`, `FileTree.writeFile`: reading and writing.
-/

namespace PhpHandbook.Files

/-- A file or a directory. -/
inductive Node where
  /-- A file with its bytes. -/
  | file (content : ByteArray)
  /-- A directory with its entries. -/
  | dir (entries : List (String × Node))

/-- Why a file cannot be read or written. -/
inductive FileError where
  /-- There is nothing at the path. -/
  | notFound
  /-- Something else is at the path. -/
  | alreadyExists
  /-- A file stands where a directory is needed. -/
  | notDirectory
  /-- A directory stands where a file is needed. -/
  | isDirectory
  /-- The bytes are no text. -/
  | notText
deriving DecidableEq, Repr

/-- The wording of an error. -/
def FileError.message : FileError → String
  | notFound => "No such file or directory (os error 2)"
  | alreadyExists => "File exists (os error 17)"
  | notDirectory => "Not a directory (os error 20)"
  | isDirectory => "Is a directory (os error 21)"
  | notText => "stream did not contain valid UTF-8"

/-- The names on the way from the top to a node. -/
abbrev Location := List String

namespace Node

/-- Puts an entry in the place of the one with the same name, or at the end. -/
def setEntry (name : String) (node : Node) : List (String × Node) → List (String × Node)
  | [] => [(name, node)]
  | (k, n) :: rest => if k = name then (k, node) :: rest else (k, n) :: setEntry name node rest

/-- The node at a location. -/
def find? : Location → Node → Option Node
  | [], n => some n
  | name :: rest, .dir entries => (entries.lookup name).bind (find? rest)
  | _ :: _, .file _ => none

/-- The tree with a node at a location; directories on the way are made where they are missing. -/
def put : Node → Location → Node → Node
  | _, [], new => new
  | .dir entries, name :: rest, new =>
    .dir (setEntry name (put ((entries.lookup name).getD (.dir [])) rest new) entries)
  | .file content, _ :: _, _ => .file content

mutual

/-- The files at and below a node, with their paths as seen from the path of the node. -/
def filesBelow (path : FilePath) : Node → List (FilePath × ByteArray)
  | .file content => [(path, content)]
  | .dir entries => filesIn path entries

/-- The files at and below the entries of a directory. -/
def filesIn (path : FilePath) : List (String × Node) → List (FilePath × ByteArray)
  | [] => []
  | (name, node) :: rest => filesBelow (path.join name) node ++ filesIn path rest

end

end Node

/-- **A file tree.** -/
structure FileTree where
  /-- The top. -/
  top : Node := .dir []
  /-- The current directory, from which relative paths are taken. -/
  here : Location := []

namespace FileTree

/-- Follows the pieces of a path from a location, which is given innermost first. -/
def follow (tree : FileTree) (place : Location) : List String → Except FileError Location
  | [] => .ok place
  | segment :: rest =>
    match tree.top.find? place.reverse with
    | some (.dir entries) =>
      if isIdle segment then tree.follow place rest
      else if segment = ".." then tree.follow (place.drop 1) rest
      else if (entries.lookup segment).isSome then tree.follow (segment :: place) rest
      else .error .notFound
    | some (.file _) => .error .notDirectory
    | none => .error .notFound

/-- The location that a path starts at, innermost first. -/
def start (tree : FileTree) (path : FilePath) : Location :=
  if path.isAbsolute then [] else tree.here.reverse

/-- **Where a path leads**, if there is something. -/
def locate (tree : FileTree) (path : FilePath) : Except FileError Location :=
  if path.text.isEmpty then .error .notFound
  else List.reverse <$> tree.follow (tree.start path) path.segments

/-- The node that a path leads to. -/
def node (tree : FileTree) (path : FilePath) : Except FileError Node := do
  let place ← tree.locate path
  match tree.top.find? place with
  | some node => .ok node
  | none => .error .notFound

/-- Whether there is something at a path. -/
def contains (tree : FileTree) (path : FilePath) : Bool :=
  (tree.locate path).toOption.isSome

/-- **The text of a file.** -/
def readText (tree : FileTree) (path : FilePath) : Except FileError String := do
  match ← tree.node path with
  | .file content =>
    match String.fromUTF8? content with
    | some text => .ok text
    | none => .error .notText
  | .dir _ => .error .isDirectory

/-- The files at and below a path, in no particular order. -/
def filesBelow (tree : FileTree) (path : FilePath) : List (FilePath × ByteArray) :=
  match tree.node path with
  | .ok node => node.filesBelow path
  | .error _ => []

/-- Makes the directories along the pieces of a path. -/
def makeDirs (tree : FileTree) (place : Location) : List String → Except FileError FileTree
  | [] => .ok tree
  | segment :: rest =>
    match tree.top.find? place.reverse with
    | some (.dir entries) =>
      if isIdle segment then tree.makeDirs place rest
      else if segment = ".." then tree.makeDirs (place.drop 1) rest
      else
        match entries.lookup segment with
        | some (.dir _) => tree.makeDirs (segment :: place) rest
        | some (.file _) => .error (if rest.all isIdle then .alreadyExists else .notDirectory)
        | none =>
          makeDirs { tree with top := tree.top.put (segment :: place).reverse (.dir []) }
            (segment :: place) rest
    | some (.file _) => .error .notDirectory
    | none => .error .notFound

/-- **Makes a directory** and all that are missing above it. -/
def createDirs (tree : FileTree) (path : FilePath) : Except FileError FileTree :=
  if path.text.isEmpty then .ok tree
  else tree.makeDirs (tree.start path) path.segments

/-- **Writes a file**, whose directory has to exist. -/
def writeFile (tree : FileTree) (path : FilePath) (content : ByteArray) :
    Except FileError FileTree := do
  let name ← match path.segments.getLast? with
    | some name => if isIdle name ∨ name = ".." then .error .isDirectory else .ok name
    | none => .error .notFound
  let place ← tree.follow (tree.start path) path.segments.dropLast
  match tree.top.find? place.reverse with
  | some (.dir entries) =>
    match entries.lookup name with
    | some (.dir _) => .error .isDirectory
    | _ => .ok { tree with top := tree.top.put (name :: place).reverse (.file content) }
  | some (.file _) => .error .notDirectory
  | none => .error .notFound

/-- Puts a node at a path from the top, whatever was there. -/
def place (tree : FileTree) (path : FilePath) (node : Node) : FileTree :=
  let names := path.parts.foldl (fun names part =>
    match part with
    | .name s => s :: names
    | .up => names.drop 1
    | _ => names) (tree.start path)
  { tree with top := tree.top.put names.reverse node }

/-- **The files of a tree that are new or changed** since another one. -/
def changesSince (tree before : FileTree) : List (FilePath × ByteArray) :=
  let old := before.top.filesBelow ⟨"/"⟩
  (tree.top.filesBelow ⟨"/"⟩).filter fun (path, content) =>
    !old.any fun (p, c) => p = path && c == content

end FileTree

end PhpHandbook.Files
