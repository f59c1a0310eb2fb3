import PhpHandbook.Command

/-!
# The program

The files that a command looks at are copied into a `FileTree`, the command is carried out on that
tree, and what it changed is written back.  Everything that is decided is decided in between.
-/

namespace PhpHandbook.Main

open Files (FilePath FileTree)

/-- Copies the way to a path into a tree, without what stands beside it. -/
partial def captureWay (tree : FileTree) (path : FilePath) : IO FileTree := do
  let tree ← match path.parent? with
    | some above => captureWay tree above
    | none => pure tree
  let target := (← IO.currentDir) / path.text
  if path.text.isEmpty || tree.contains path then return tree
  else if ← target.isDir then return tree.place path (.dir [])
  else if ← target.pathExists then return tree.place path (.file (← IO.FS.readBinFile target))
  else return tree

/-- Copies what is at a path, and everything below it, into a tree. -/
partial def capture (tree : FileTree) (path : FilePath) : IO FileTree := do
  let tree ← captureWay tree path
  let target := (← IO.currentDir) / path.text
  if ← target.isDir then
    (← target.readDir).foldlM (fun tree entry => capture tree (path.join entry.fileName)) tree
  else return tree

/-- The files that a request looks at. -/
def filesFor (request : Option Request) : IO FileTree := do
  let here := (← IO.currentDir).components.filter (!·.isEmpty)
  let start : FileTree := { here }
  let start := start.place ⟨"."⟩ (.dir [])
  match request with
  | some (.command c) =>
    let first ← (c.looksAt start).foldlM captureWay start
    (c.looksAt first).foldlM capture first
  | _ => return start

/-- Writes the files that a request has changed. -/
def writeChanges (before after : FileTree) : IO Unit :=
  (after.changesSince before).forM fun (path, content) => do
    IO.FS.createDirAll ((path.parent?.getD path).text)
    IO.FS.writeBinFile path.text content

end PhpHandbook.Main

open PhpHandbook in
/-- Carries out what a command line asks for. -/
def main (args : List String) : IO UInt32 := do
  let request := Request.ofArgs? args
  let tree ← Main.filesFor request
  let outcome := Request.run tree request
  Main.writeChanges tree outcome.tree
  IO.print outcome.stdout
  IO.eprint outcome.stderr
  return outcome.code.toUInt32
