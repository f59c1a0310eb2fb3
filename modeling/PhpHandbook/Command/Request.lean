import PhpHandbook.Command.Form
import PhpHandbook.Files.FilePath

/-!
# Requests

A command line is read word by word into a `Request`.  Every option is given at most once, a
command has at most one argument, and the first word that breaks a rule makes the whole line
malformed.

## Main definitions

* `Command`, `Request`: what can be asked for.
* `Request.ofArgs?`: what a command line asks for.
-/

namespace PhpHandbook

open Files (FilePath)

/-- A command. -/
inductive Command where
  /-- Makes the pages of a project. -/
  | generate (path : FilePath) (config output : Option FilePath) (baseUrl : Option String)
  /-- Does the same without writing. -/
  | check (path : FilePath) (config : Option FilePath)
  /-- Writes a first settings document. -/
  | init (path : FilePath) (title : Option String)
deriving DecidableEq, Repr

/-- What a command line asks for. -/
inductive Request where
  /-- The version of the program. -/
  | version
  /-- A page of help. -/
  | help (topic : HelpTopic)
  /-- A command. -/
  | command (c : Command)
deriving DecidableEq, Repr

namespace Request

/-! ### The words behind the name of a command -/

/-- What the words of a command line have given so far. -/
structure Given where
  /-- The argument. -/
  argument : Option String := none
  /-- The values of the options by their long names. -/
  values : List (String × String) := []
  /-- Whether more is to be told. -/
  verbose : Bool := false

namespace Given

/-- Takes the value of an option, which is given at most once. -/
def setValue (g : Given) (option : ValueOption) (value : String) : Option Given :=
  if (g.values.lookup option.long).isSome || (value.isEmpty && !option.mayBeEmpty) then none
  else some { g with values := g.values ++ [(option.long, value)] }

/-- Takes the argument, which is given at most once. -/
def setArgument (g : Given) (value : String) : Option Given :=
  if g.argument.isSome || value.isEmpty then none else some { g with argument := some value }

/-- Takes the wish to be told more, which is given at most once. -/
def setVerbose (g : Given) : Option Given :=
  if g.verbose then none else some { g with verbose := true }

/-- The value of an option. -/
def value? (g : Given) (option : String) : Option String :=
  g.values.lookup option

/-- The value of an option as a path. -/
def path? (g : Given) (option : String) : Option FilePath :=
  (g.value? option).map FilePath.mk

/-- The argument as a path; the current directory if there is none. -/
def project (g : Given) : FilePath :=
  ⟨g.argument.getD "."⟩

end Given

/-- Whether a word stands for options. -/
def isOption (word : String) : Bool :=
  word.toList.head? == some '-' && word != "-"

/-- What a word asks for, before the words behind it are looked at. -/
inductive Word where
  /-- Nothing more. -/
  | done (g : Given)
  /-- The value of an option, which the next word gives. -/
  | needs (g : Given) (option : ValueOption)
  /-- Help. -/
  | help

/-- Reads the letters behind a single hyphen; what stands behind the letter of an option with a
value is the value, and an equals sign may stand between them. -/
def readLetters (options : List ValueOption) (g : Given) : List Char → Option Word
  | [] => some (.done g)
  | 'h' :: _ => some .help
  | 'v' :: cs => g.setVerbose.bind fun g => readLetters options g cs
  | c :: cs =>
    match options.find? (·.short == some c), cs with
    | none, _ => none
    | some option, [] => some (.needs g option)
    | some option, '=' :: value => (g.setValue option (String.ofList value)).map .done
    | some option, value => (g.setValue option (String.ofList value)).map .done

/-- Reads the name behind two hyphens, and the value if an equals sign stands behind the name. -/
def readLong (options : List ValueOption) (g : Given) (word : List Char) : Option Word :=
  let name := String.ofList (word.takeWhile (· != '='))
  let value? := (word.dropWhile (· != '=')).tail?
  match name, value? with
  | "help", none => some .help
  | "verbose", none => g.setVerbose.map .done
  | _, _ =>
    match options.find? (·.long == name), value? with
    | none, _ => none
    | some option, some value => (g.setValue option (String.ofList value)).map .done
    | some option, none => some (.needs g option)

/-- Reads one word. -/
def readWord (options : List ValueOption) (g : Given) (word : String) : Option Word :=
  match word.toList with
  | '-' :: '-' :: cs => readLong options g cs
  | '-' :: c :: cs => readLetters options g (c :: cs)
  | _ => (g.setArgument word).map .done

/-- **Reads the words behind the name of a command.**  Behind `--` every word is an argument. -/
def readWords (form : Form) (make : Given → Command) (g : Given) : List String → Option Request
  | [] => some (.command (make g))
  | "--" :: words => (words.foldlM Given.setArgument g).map fun g => .command (make g)
  | word :: words =>
    match readWord form.options g word, words with
    | none, _ => none
    | some .help, _ => some (.help (.command form))
    | some (.done g), words => readWords form make g words
    | some (.needs _ _), [] => none
    | some (.needs g option), value :: words =>
      if isOption value then none
      else (g.setValue option value).bind fun g => readWords form make g words

/-! ### Command lines -/

/-- The commands with what they make of the words behind their names. -/
def commands : List (Form × (Given → Command)) :=
  [(.generate, fun g =>
      .generate g.project (g.path? "config") (g.path? "output") (g.value? "base-url")),
    (.check, fun g => .check g.project (g.path? "config")),
    (.init, fun g => .init g.project (g.value? "name"))]

/-- The request for help, for a command or for all. -/
def ofHelp? : List String → Option Request
  | [] => some (.help .program)
  | ["help"] => some (.help .help)
  | [name] => (Form.all.find? (·.name == name)).map fun form => .help (.command form)
  | _ => none

/-- The request that letters behind a single hyphen in front of a command make, or whether more is
to be told. -/
def ofLetters? (verbose : Bool) : List Char → Option (Option Request × Bool)
  | [] => some (none, verbose)
  | 'h' :: _ => some (some (.help .program), verbose)
  | 'V' :: _ => some (some .version, verbose)
  | 'v' :: cs => if verbose then none else ofLetters? true cs
  | _ => none

/-- Reads a command line; `verbose` tells whether the wish to be told more was seen. -/
def ofWords? (verbose : Bool) : List String → Option Request
  | [] => none
  | "--help" :: _ => some (.help .program)
  | "--version" :: _ => some .version
  | "--verbose" :: words => if verbose then none else ofWords? true words
  | "help" :: words => ofHelp? words
  | word :: words =>
    match word.toList with
    | '-' :: '-' :: _ => none
    | '-' :: c :: cs =>
      match ofLetters? verbose (c :: cs) with
      | none => none
      | some (some request, _) => some request
      | some (none, verbose) => ofWords? verbose words
    | _ =>
      (commands.find? fun (form, _) => form.name == word).bind fun (form, make) =>
        readWords form make {} words

/-- **What a command line asks for**, or nothing if it is malformed. -/
def ofArgs? (args : List String) : Option Request :=
  ofWords? false args

end Request

end PhpHandbook
