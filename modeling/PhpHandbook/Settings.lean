import PhpHandbook.Files.Tree
import PhpHandbook.Glob
import PhpHandbook.Handbook.Links
import PhpHandbook.Text.Blank
import PhpHandbook.Toml.Document

/-!
# Settings of a project

A project is described by a settings document with four sections: its title, its sources, where
the pages go, and how links are made.  Everything but the title has a default, and a name that is
no setting makes the document unreadable.  A section may also be an array, which lists the
settings of the section in order.

This is the configuration of the generator: `Settings.read` parses the document, `Settings.check`
validates the settings, and `SettingsError` is the error of either.

## Main definitions

* `Settings`, with the defaults.
* `Settings.read`, `Settings.load`: the settings that a document gives, checked.
* `Settings.check`: what settings have to satisfy; `SettingsError` is why they do not.
* `Settings.write`: the document that gives back the settings.
-/

namespace PhpHandbook

/-- The settings of a project. -/
structure Settings where
  /-- The title on every page. -/
  title : String
  /-- Directories and files whose classes get a page. -/
  paths : List String := ["src"]
  /-- Patterns of files that are left out. -/
  exclude : List String := []
  /-- Directories and files that are read for links alone. -/
  reference : List String := []
  /-- The directory of the pages. -/
  outputDir : String := "docs"
  /-- What stands in front of the path of a page in a link. -/
  baseUrl : String := ""
  /-- Namespaces whose classes are found in the manual of the language. -/
  builtinSpaces : List String := []
  /-- The address of a class in the manual, with a place for its name. -/
  externalUrl : String := Handbook.manualUrl
deriving DecidableEq, Repr

/-- Why there are no settings. -/
inductive SettingsError where
  /-- The document cannot be read. -/
  | unreadable (e : Files.FileError)
  /-- The text is no settings document. -/
  | malformed
  /-- The title is blank. -/
  | blankTitle
  /-- There are no sources. -/
  | noPaths
  /-- The address in the manual has no place for a name. -/
  | noPlaceholder (url : String)
  /-- A pattern has a fault, which is told in words. -/
  | badPattern (pattern fault : String)
deriving DecidableEq, Repr

namespace SettingsError

/-- The setting that is wrong, where it is one. -/
def field? : SettingsError → Option String
  | unreadable _ => none
  | malformed => none
  | blankTitle => some "project.name"
  | noPaths => some "source.paths"
  | noPlaceholder _ => some "links.external_url"
  | badPattern _ _ => some "source.exclude"

/-- What is wrong. -/
def reason : SettingsError → String
  | unreadable e => "failed to read configuration file: " ++ e.message
  | malformed => "failed to parse configuration"
  | blankTitle => "name cannot be empty"
  | noPaths => "at least one source path is required"
  | noPlaceholder url => "`" ++ url ++ "` has no \x7bname\x7d placeholder"
  | badPattern pattern fault => "`" ++ pattern ++ "`: " ++ fault

/-- The wording of an error. -/
def message (e : SettingsError) : String :=
  match e.field? with
  | some field => "invalid configuration value `" ++ field ++ "`: " ++ e.reason
  | none => e.reason

/-- What lies behind an error. -/
def cause? : SettingsError → Option String
  | unreadable e => some e.message
  | _ => none

end SettingsError

namespace Settings

open Toml (Value Entries)

/-! ### From a document -/

/-- The values of the named settings of a section: a table names them, an array lists them in
order. -/
def fields? (names : List String) : Value → Option (List (Option Value))
  | .table _ entries =>
    if entries.all fun (key, _) => names.contains key then some (names.map (List.lookup · entries))
    else none
  | .array items => some (names.zipIdx.map fun (_, i) => items[i]?)
  | _ => none

/-- A text. -/
def text? : Value → Option String
  | .text s => some s
  | _ => none

/-- A list of texts. -/
def texts? : Value → Option (List String)
  | .array items => items.mapM text?
  | _ => none

/-- A setting with a default. -/
def orDefault {α : Type} (read : Value → Option α) (default : α) : Option Value → Option α
  | none => some default
  | some value => read value

/-- The settings that tables give. -/
def ofEntries (entries : Entries) : Option Settings := do
  let [project, source, output, links] ←
    fields? ["project", "source", "output", "links"] (.table .complete entries) | none
  let [title] ← fields? ["name"] (← project) | none
  let group (names : List String) : Option Value → Option (List (Option Value)) :=
    orDefault (fields? names) (names.map fun _ => none)
  let [paths, exclude, reference] ← group ["paths", "exclude", "reference"] source | none
  let [dir, baseUrl] ← group ["dir", "base_url"] output | none
  let [spaces, externalUrl] ← group ["builtin_namespaces", "external_url"] links | none
  return {
    title := ← text? (← title)
    paths := ← orDefault texts? ["src"] paths
    exclude := ← orDefault texts? [] exclude
    reference := ← orDefault texts? [] reference
    outputDir := ← orDefault text? "docs" dir
    baseUrl := ← orDefault text? "" baseUrl
    builtinSpaces := ← orDefault texts? [] spaces
    externalUrl := ← orDefault text? Handbook.manualUrl externalUrl }

/-! ### Checking -/

/-- The patterns of the files that are left out, read by the given reader of patterns. -/
def patterns (s : Settings) (read : String → Except String PathPattern := Glob.read) :
    Except SettingsError (List PathPattern) :=
  s.exclude.mapM fun pattern =>
    match read pattern with
    | .ok found => .ok found
    | .error fault => .error (.badPattern pattern fault)

/-- **What settings have to satisfy**; the first thing that is wrong is told. -/
def check (s : Settings) (read : String → Except String PathPattern := Glob.read) :
    Except SettingsError Unit :=
  if (Text.trim s.title).isEmpty then .error .blankTitle
  else if s.paths.isEmpty then .error .noPaths
  else if !Text.occursIn "\x7bname\x7d" s.externalUrl then .error (.noPlaceholder s.externalUrl)
  else (s.patterns read).map fun _ => ()

/-- **The settings that a document gives**, if they pass the check. -/
def read (document : String) : Except SettingsError Settings :=
  match (Toml.parse document).bind ofEntries with
  | none => .error .malformed
  | some s => s.check.map fun _ => s

/-- The settings in a file. -/
def load (tree : Files.FileTree) (path : Files.FilePath) : Except SettingsError Settings :=
  match tree.readText path with
  | .ok document => read document
  | .error e => .error (.unreadable e)

/-- How links are made. -/
def linkRules (s : Settings) : Handbook.Links where
  baseUrl := s.baseUrl
  builtinSpaces := s.builtinSpaces
  externalUrl := s.externalUrl

/-! ### To a document -/

/-- A list of texts: two or more stand on lines of their own. -/
def writeTexts : List String → String
  | [] => "[]"
  | [item] => "[" ++ Toml.writeText item ++ "]"
  | items => "[" ++ String.join (items.map fun s => "\n    " ++ Toml.writeText s ++ ",") ++ "\n]"

/-- **The document that gives back the settings**, with every setting written out. -/
def write (s : Settings) : String :=
  "[project]\nname = " ++ Toml.writeText s.title ++
  "\n\n[source]\npaths = " ++ writeTexts s.paths ++
  "\nexclude = " ++ writeTexts s.exclude ++
  "\nreference = " ++ writeTexts s.reference ++
  "\n\n[output]\ndir = " ++ Toml.writeText s.outputDir ++
  "\nbase_url = " ++ Toml.writeText s.baseUrl ++
  "\n\n[links]\nbuiltin_namespaces = " ++ writeTexts s.builtinSpaces ++
  "\nexternal_url = " ++ Toml.writeText s.externalUrl ++ "\n"

end Settings

end PhpHandbook
