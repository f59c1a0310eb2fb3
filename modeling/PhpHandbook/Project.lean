import PhpHandbook.Handbook.Page
import PhpHandbook.Registry.Builtins
import PhpHandbook.Settings

/-!
# Making the handbook of a project

The sources of a project are found and registered, every page is rendered, and only then is the
first page written: a run that fails for another reason than writing leaves the files alone.

Three things are not decided here: how a directory is walked, and with which errors, which paths a
pattern covers, and how Markdown is made HTML.  A project brings them along as its `Tools`.

This is the generator: `discover` finds the sources below a path, `load` builds the registry,
`render` renders the pages, and `writePages` writes them.  `BuildError` has a variant for each cause
for which a run fails, and `Report` is what a run gives.

## Main definitions

* `Tools`: what a project relies on; `Tools.standard`: the tools of the program.
* `Project`: settings, the directory of the project, the directory of its pages, and tools.
* `Project.load`: the registered sources.
* `Project.prepare`: all pages, not yet written.
* `Project.execute`: the report and the files, with or without writing; `Project.run` and
  `Project.check` are the two.
-/

namespace PhpHandbook

open Files (FilePath FileTree FileError)
open Handbook (ResolveError Chapter outputPath)
open Registry (Origin)

/-! ### Tools -/

/-- What a walk through a directory comes past. -/
structure Passed where
  path : FilePath
  /-- Whether it is a file, and not a directory or something else. -/
  isFile : Bool
deriving DecidableEq, Repr

/-- **What a project relies on** without deciding it; a walk may fail with errors `ω`. -/
structure Tools (ω : Type) where
  /-- What is at and below a path, in no particular order, or what went wrong on the way. -/
  walk : FileTree → FilePath → List (Except ω Passed)
  /-- The pattern that a text denotes, or its fault in words. -/
  readPattern : String → Except String PathPattern
  /-- How Markdown is made HTML. -/
  toHtml : String → String

/-- The tools of the program, whose walks through a tree of files do not fail. -/
def Tools.standard : Tools Empty where
  walk tree path := (tree.filesBelow path).map fun (path, _) => .ok ⟨path, true⟩
  readPattern := Glob.read
  toHtml := Markdown.toHtml

/-! ### Errors and reports -/

/-- There are no errors to be told. -/
instance emptyToString : ToString Empty :=
  ⟨nofun⟩

/-- Why a run fails; `ω` are the errors of walks. -/
inductive BuildError (ω : Type := Empty) where
  /-- The settings are wrong. -/
  | settings (e : SettingsError)
  /-- A source does not exist. -/
  | missingSource (path : FilePath)
  /-- The walk through a source goes wrong. -/
  | unwalkable (path : FilePath) (e : ω)
  /-- A source cannot be read. -/
  | unreadable (path : FilePath) (e : FileError)
  /-- A page or its directory cannot be written. -/
  | unwritable (path : FilePath) (e : FileError)
  /-- Two classes have the same page. -/
  | collision (page first second : String)
  /-- A type has no resolved form. -/
  | unresolved (e : ResolveError)
deriving DecidableEq, Repr

namespace BuildError

variable {ω : Type} [ToString ω]

/-- The wording of an error. -/
def message : BuildError ω → String
  | settings e => e.message
  | missingSource path => "source path " ++ path.text ++ " does not exist"
  | unwalkable path e => "failed to scan " ++ path.text ++ ": " ++ toString e
  | unreadable path e => "failed to read " ++ path.text ++ ": " ++ e.message
  | unwritable path e => "failed to write " ++ path.text ++ ": " ++ e.message
  | collision page first second =>
    first ++ " and " ++ second ++ " would both be written to " ++ page
  | unresolved e => e.message

/-- What lies behind an error. -/
def cause? : BuildError ω → Option String
  | settings e => e.cause?
  | unwalkable _ e => some (toString e)
  | unreadable _ e => some e.message
  | unwritable _ e => some e.message
  | _ => none

end BuildError

/-- A source that is left out because of its faults. -/
structure Skipped where
  path : FilePath
  /-- The faults in words. -/
  errors : List String
deriving DecidableEq, Repr

/-- What came of a run. -/
structure Report where
  /-- The number of sources. -/
  scanned : Nat := 0
  /-- The sources that were left out. -/
  skipped : List Skipped := []
  /-- The number of classes with a page. -/
  structures : Nat := 0
  /-- The pages that were written, in order. -/
  pages : List String := []
deriving DecidableEq, Repr

/-- A project; `ω` are the errors of walks. -/
structure Project (ω : Type := Empty) where
  settings : Settings
  /-- The directory that the paths in the settings are taken from. -/
  root : FilePath
  /-- The directory of the pages. -/
  outputDir : FilePath
  /-- What the project relies on. -/
  tools : Tools ω

namespace Project

/-- The project with the given settings in a directory, with the tools of the program. -/
def new (settings : Settings) (root : FilePath) : Project :=
  ⟨settings, root, root.join settings.outputDir, .standard⟩

variable {ω : Type}

/-! ### Sources -/

/-- A path as it is shown: from the directory of the project, if it lies in there. -/
def relative (project : Project ω) (path : FilePath) : FilePath :=
  (project.root.stripFront? path).getD path

/-- Whether a file is a source by the ending of its name. -/
def isSource (path : FilePath) : Bool :=
  path.extension?.any fun ending => Registry.lower ending == "php"

/-- The sources at and below a path that no pattern excludes, in order of their paths.  The first
error of the walk ends it. -/
def discover (project : Project ω) (tree : FileTree) (patterns : List PathPattern)
    (path : String) : Except (BuildError ω) (List FilePath) :=
  let base := project.root.join path
  if tree.contains base then
    match (project.tools.walk tree base).mapM id with
    | .error e => .error (.unwalkable base e)
    | .ok passed =>
      let files := passed.filter fun p =>
        p.isFile && isSource p.path && !patterns.any (·.covers (project.relative p.path).text)
      .ok ((files.map (·.path)).mergeSort FilePath.le)
  else .error (.missingSource base)

/-- Registers one source. -/
def registerFile (project : Project ω) (tree : FileTree) (origin : Origin)
    (loaded : Registry × Report) (file : FilePath) : Except (BuildError ω) (Registry × Report) :=
  match tree.readText file with
  | .error e => .error (.unreadable file e)
  | .ok text =>
    let (reg, report) := loaded
    let report := { report with scanned := report.scanned + 1 }
    let shown := project.relative file
    match reg.register shown.text text origin with
    | .ok (_, reg) => .ok (reg, report)
    | .error faults =>
      .ok (reg, { report with skipped := report.skipped ++ [⟨shown, faults.map (·.message)⟩] })

/-- Registers the sources at and below a path. -/
def registerPath (project : Project ω) (tree : FileTree) (patterns : List PathPattern)
    (loaded : Registry × Report) (source : String × Origin) :
    Except (BuildError ω) (Registry × Report) := do
  let files ← project.discover tree patterns source.1
  files.foldlM (project.registerFile tree source.2) loaded

/-- **The registered sources** of a project, behind the classes of the language itself. -/
def load (project : Project ω) (tree : FileTree) :
    Except (BuildError ω) (Registry × Report) := do
  let s := project.settings
  match s.check project.tools.readPattern with
  | .error e => .error (.settings e)
  | .ok () =>
    match s.patterns project.tools.readPattern with
    | .error e => .error (.settings e)
    | .ok patterns =>
      let sources := s.paths.map (·, Origin.project) ++ s.reference.map (·, Origin.reference)
      sources.foldlM (project.registerPath tree patterns) (Registry.builtins, {})

/-! ### Pages -/

/-- The first two names in a list that have the same page, and that page. -/
def collision? (seen : List String) : List String → Option (String × String × String)
  | [] => none
  | name :: names =>
    match seen.find? (outputPath · == outputPath name) with
    | some first => some (outputPath name, first, name)
    | none => collision? (seen ++ [name]) names

/-- The pages of the given chapters and the index page, with their paths. -/
def render {reg : Registry} (project : Project ω) (chapters : List (Chapter reg)) :
    Handbook.Query reg (List (String × String)) := do
  let outline := Handbook.outlineOf chapters
  let links := project.settings.linkRules
  let title := project.settings.title
  let toHtml := project.tools.toHtml
  let pages ← chapters.mapM fun c => do
    let html ← Handbook.renderClass links title outline c toHtml
    pure (outputPath c.name, html)
  let index ← Handbook.gathered (Handbook.renderIndex links title outline toHtml)
  pure (pages ++ [("index.html", index)])

/-- **All pages of a project**, not yet written, and the report so far. -/
def prepare (project : Project ω) (tree : FileTree) :
    Except (BuildError ω) (Report × List (String × String)) := do
  let (reg, report) ← project.load tree
  let (chapters, run) := (@Handbook.documented reg).run {}
  let report := { report with structures := chapters.length }
  match collision? [] (chapters.map (·.name)) with
  | some (page, first, second) => .error (.collision page first second)
  | none =>
    match ((project.render chapters).run.run run).1 with
    | .ok pages => .ok (report, pages)
    | .error e => .error (.unresolved e)

-- irreducible, so that the equations of `writePages` do not look into the file tree
/-- Writes one page. -/
@[irreducible]
def writePage (project : Project ω) (tree : FileTree) (page html : String) :
    Except (BuildError ω) FileTree :=
  let target := project.outputDir.join page
  let dir := target.parent?.getD ⟨""⟩
  match tree.createDirs dir with
  | .error e => .error (.unwritable dir e)
  | .ok tree =>
    match tree.writeFile target html.toUTF8 with
    | .error e => .error (.unwritable target e)
    | .ok tree => .ok tree

/-- Writes pages in order, up to the first that cannot be written. -/
def writePages (project : Project ω) (tree : FileTree) :
    List (String × String) → Except (BuildError ω) Unit × FileTree
  | [] => (.ok (), tree)
  | (page, html) :: rest =>
    match project.writePage tree page html with
    | .error e => (.error e, tree)
    | .ok tree => project.writePages tree rest

/-- **Makes the handbook**, with or without writing it: the report, and the files after it. -/
def execute (project : Project ω) (writes : Bool) (tree : FileTree) :
    Except (BuildError ω) Report × FileTree :=
  match project.prepare tree with
  | .error e => (.error e, tree)
  | .ok (report, pages) =>
    if writes then
      let (outcome, tree) := project.writePages tree pages
      (outcome.map fun _ => { report with pages := pages.map (·.1) }, tree)
    else (.ok report, tree)

/-- **A run**: the report, and the files after it. -/
def run (project : Project ω) (tree : FileTree) : Except (BuildError ω) Report × FileTree :=
  project.execute true tree

/-- **The report of a run that writes nothing.** -/
def check (project : Project ω) (tree : FileTree) : Except (BuildError ω) Report :=
  (project.execute false tree).1

end Project

end PhpHandbook
