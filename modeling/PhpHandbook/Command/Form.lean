import PhpHandbook.Handbook.Page

/-!
# Forms of commands

What a command accepts is data: its options with their letters and a line of help each.  The
command line is read by this data (`PhpHandbook.Command.Request`), and the pages of help are made
from it, so that both agree.

## Main definitions

* `ValueOption`, `Form`: an option with a value, and what a command accepts.
* `Form.generate`, `Form.check`, `Form.init`: the three commands.
* `HelpTopic.text`: a page of help.
-/

namespace PhpHandbook

/-- An option with a value. -/
structure ValueOption where
  /-- Its name behind two hyphens. -/
  long : String
  /-- Its letter behind one hyphen. -/
  short : Option Char := none
  /-- Whether the value may be empty. -/
  mayBeEmpty : Bool := false
  /-- A line of help. -/
  help : String
deriving DecidableEq, Repr

/-- What a command accepts: an optional path, and options. -/
structure Form where
  /-- The name of the command. -/
  name : String
  /-- What the command does. -/
  about : String
  /-- Its options. -/
  options : List ValueOption
deriving DecidableEq, Repr

namespace Form

/-- The option for another settings document. -/
def config : ValueOption :=
  { long := "config", help := "Configuration file (defaults to PATH/apidoc.toml)" }

/-- Makes the pages. -/
def generate : Form where
  name := "generate"
  about := "Generate HTML documentation"
  options := [config,
    { long := "output", short := some 'o',
      help := "Output directory, overriding the configuration" },
    { long := "base-url", mayBeEmpty := true,
      help := "Prefix of generated links, overriding the configuration" }]

/-- Checks that the pages can be made. -/
def check : Form where
  name := "check"
  about := "Resolve and render everything without writing"
  options := [config]

/-- Writes a first settings document. -/
def init : Form where
  name := "init"
  about := "Write a default apidoc.toml"
  options := [
    { long := "name", mayBeEmpty := true,
      help := "Project title (defaults to directory name)" }]

/-- All commands. -/
def all : List Form :=
  [generate, check, init]

end Form

/-! ### Help -/

/-- What a page of help is about. -/
inductive HelpTopic where
  /-- The program. -/
  | program
  /-- A command. -/
  | command (form : Form)
  /-- The command for help itself. -/
  | help
deriving DecidableEq, Repr

namespace HelpTopic

/-- A row of a page of help: a term, and what is said about it. -/
abbrev Row := String × String

/-- Rows with what they say in one column. -/
def rowsText (rows : List Row) : String :=
  let width := (rows.map (·.1.length)).foldl max 0
  String.join (rows.map fun (term, said) =>
    "  " ++ term ++ String.ofList (List.replicate (width - term.length) ' ') ++ "  "
      ++ said ++ "\n")

/-- The name of an option's value. -/
def valueName (option : ValueOption) : String :=
  String.ofList (option.long.toList.map fun c => if c = '-' then '_' else c.toUpper)

/-- The row of an option. -/
def optionRow (option : ValueOption) : Row :=
  let letter := match option.short with
    | some c => String.ofList ['-', c, ',', ' ']
    | none => "    "
  (letter ++ "--" ++ option.long ++ " <" ++ valueName option ++ ">", option.help)

/-- The row of the wish to be told more. -/
def verboseRow : Row :=
  ("-v, --verbose", "Log debug output")

/-- The row of the wish for help. -/
def helpRow : Row :=
  ("-h, --help", "Print help")

/-- The rows of a command's options; the wish to be told more, which every command has, stands
behind the first of them. -/
def optionRows (form : Form) : List Row :=
  let own := form.options.map optionRow
  own.take 1 ++ [verboseRow] ++ own.drop 1 ++ [helpRow]

/-- What the command for help does. -/
def aboutHelp : String :=
  "Print this message or the help of the given subcommand(s)"

/-- **A page of help.** -/
def text : HelpTopic → String
  | program =>
    "API documentation generator for PHP\n\nUsage: apidoc [OPTIONS] <COMMAND>\n\nCommands:\n" ++
      rowsText (Form.all.map (fun form => (form.name, form.about)) ++ [("help", aboutHelp)]) ++
      "\nOptions:\n" ++ rowsText [verboseRow, helpRow, ("-V, --version", "Print version")]
  | command form =>
    form.about ++ "\n\nUsage: apidoc " ++ form.name ++ " [OPTIONS] [PATH]\n\nArguments:\n" ++
      rowsText [("[PATH]", "Project directory [default: .]")] ++
      "\nOptions:\n" ++ rowsText (optionRows form)
  | help =>
    aboutHelp ++ "\n\nUsage: apidoc help [COMMAND]...\n\nArguments:\n" ++
      rowsText [("[COMMAND]...", "Print help for the subcommand(s)")]

end HelpTopic

end PhpHandbook
