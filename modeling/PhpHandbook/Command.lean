import PhpHandbook.Command.Request
import PhpHandbook.Project

/-!
# Carrying out commands

Three commands make the pages of a project, check that they can be made, and write a first
settings document.  Carrying out a request is a function from files to files, a text for each
output, and an exit code; nothing else happens.

This is the command line program around the generator, without its outermost layer.

## Main definitions

* `Outcome`: what a request leaves.
* `Command.run`, `Request.run`: carries out a command, and a request.
-/

namespace PhpHandbook

open Files (FilePath FileTree)

/-- The name of the settings document of a project. -/
def settingsFile : String :=
  "apidoc.toml"

/-- What a command leaves. -/
structure Outcome where
  /-- The exit code. -/
  code : Nat := 0
  /-- What is written to the standard output. -/
  stdout : String := ""
  /-- What is written to the standard error output. -/
  stderr : String := ""
  /-- The files afterwards. -/
  tree : FileTree

/-- A cause under an error; further lines of it are indented like the first. -/
def causeText (number : Option Nat) (text : String) : String :=
  let (first, further) := match number with
    | some n => (String.ofList (List.replicate (5 - (toString n).length) ' ') ++ toString n ++ ": ",
        "       ")
    | none => ("    ", "    ")
  "\n" ++ first ++ ("\n" ++ further).intercalate (Text.split '\n' text)

/-- The wording of an error with its causes, which are numbered if there are several. -/
def errorText (message : String) (causes : List String) : String :=
  let listed := match causes with
    | [] => ""
    | [cause] => "\n\nCaused by:" ++ causeText none cause
    | causes => "\n\nCaused by:" ++
      String.join (causes.zipIdx.map fun (cause, n) => causeText (some n) cause)
  "Error: " ++ message ++ listed ++ "\n"

/-- The outcome of a command that fails. -/
def failure (tree : FileTree) (message : String) (causes : List String) : Outcome :=
  { code := 1, stderr := errorText message causes, tree }

/-- What is told about sources that were left out. -/
def skippedText (report : Report) : String :=
  String.join (report.skipped.map fun s =>
    "skipped " ++ s.path.text ++ ":\n" ++ String.join (s.errors.map fun e => "  " ++ e ++ "\n"))

namespace Command

/-- The settings document of a command: the given one, or the one in the directory of the
project. -/
def settingsPath (root : FilePath) (config : Option FilePath) : FilePath :=
  config.getD (root.join settingsFile)

/-- The paths that a command looks at, as far as the given files tell: its settings document, and
when that can be read, the sources and the directory of the pages. -/
def looksAt (tree : FileTree) : Command → List FilePath
  | .generate root config output _ => sources root config output
  | .check root config => sources root config none
  | .init root _ => [root.join settingsFile]
where
  /-- The settings document and what it names. -/
  sources (root : FilePath) (config output : Option FilePath) : List FilePath :=
    let path := settingsPath root config
    match Settings.load tree path with
    | .ok s => path :: output.getD (root.join s.outputDir) :: (s.paths ++ s.reference).map root.join
    | .error _ => [path]

/-- Goes on with the settings of a project. -/
def withSettings (tree : FileTree) (root : FilePath) (config : Option FilePath)
    (next : Settings → Outcome) : Outcome :=
  let path := settingsPath root config
  match Settings.load tree path with
  | .ok settings => next settings
  | .error e => failure tree ("Failed to load " ++ path.text) (e.message :: e.cause?.toList)

/-- The title of a project without one: the last name on the way to its directory. -/
def inferredTitle? (tree : FileTree) (root : FilePath) : Option String :=
  let names := root.parts.filterMap fun
    | .name s => some s
    | _ => none
  ((if root.isAbsolute then names else tree.here ++ names)).getLast?

/-- Writes a first settings document. -/
def runInit (tree : FileTree) (root : FilePath) (title : Option String) : Outcome :=
  let path := root.join settingsFile
  if tree.contains path then
    failure tree
      ("Cannot initialize: `" ++ settingsFile ++ "` already exists in " ++ root.text) []
  else
    match title.or (inferredTitle? tree root) with
    | none => failure tree "Cannot infer a project name; pass --name" []
    | some title =>
      let settings : Settings := { title }
      match settings.check with
      | .error e => failure tree e.message []
      | .ok () =>
        match tree.createDirs root with
        | .error e => failure tree ("Failed to create " ++ root.text) [e.message]
        | .ok made =>
          match made.writeFile path settings.write.toUTF8 with
          | .error e => failure made ("Failed to write " ++ path.text) [e.message]
          | .ok after => { stdout := "Created " ++ path.text ++ "\n", tree := after }

/-- **Carries out a command.** -/
def run (tree : FileTree) : Command → Outcome
  | .generate root config output baseUrl =>
    withSettings tree root config fun settings =>
      let project := Project.new { settings with baseUrl := baseUrl.getD settings.baseUrl } root
      let project := { project with outputDir := output.getD project.outputDir }
      match project.run tree with
      | (.ok report, after) =>
        { stdout := "Documented " ++ toString report.structures ++ " structures in " ++
            toString report.pages.length ++ " pages under " ++ project.outputDir.text ++ "\n"
          stderr := skippedText report
          tree := after }
      | (.error e, after) =>
        failure after "Documentation run failed" (e.message :: e.cause?.toList)
  | .check root config =>
    withSettings tree root config fun settings =>
      match (Project.new settings root).check tree with
      | .ok report =>
        { stdout := "Checked " ++ toString report.structures ++ " structures from " ++
            toString report.scanned ++ " files\n"
          stderr := skippedText report
          tree }
      | .error e => failure tree "Check failed" (e.message :: e.cause?.toList)
  | .init root title => runInit tree root title

end Command

/-- **Carries out a request**; a malformed command line has exit code 2. -/
def Request.run (tree : FileTree) : Option Request → Outcome
  | none => { code := 2, stderr := HelpTopic.program.text, tree }
  | some .version => { stdout := Handbook.generatorName ++ "\n", tree }
  | some (.help topic) => { stdout := topic.text, tree }
  | some (.command c) => c.run tree

end PhpHandbook
