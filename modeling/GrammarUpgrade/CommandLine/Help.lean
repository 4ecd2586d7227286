import GrammarUpgrade.CommandLine.Arguments

/-!
# Help texts

What the program says about itself: what a topic is for, how it is used, and its
commands, arguments and options in aligned columns.
-/

namespace GrammarUpgrade.CommandLine

/-- The name under which the program is called. -/
def programName : String :=
  "css-syntax"

/-- The version of the program. -/
def version : String :=
  "0.1.0"

/-- The line shown for a version. -/
def versionText : String :=
  programName ++ " " ++ version ++ "\n"

namespace Command

/-- What a command is for. -/
def about : Command → String
  | .generate =>
      "Upgrade the dataset and write types, properties and at-rules documents"
  | .check => "Validate configuration and count upgrade candidates without writing"

end Command

namespace Topic

/-- What a topic is for. -/
def about : Topic → String
  | .program =>
      "Generate upgraded CSS syntax dictionaries for linter syntax extensions"
  | .command chosen => chosen.about
  | .help => "Print this message or the help of the given subcommand(s)"

/-- How a topic is used. -/
def usage : Topic → String
  | .program => programName ++ " [OPTIONS] <COMMAND>"
  | .command chosen => programName ++ " " ++ chosen.name ++ " [OPTIONS]"
  | .help => programName ++ " help [COMMAND]..."

end Topic

/-- Rows of a name and what it means. -/
abbrev Rows := List (String × String)

/-- Rows under a title, the meanings in one column. -/
def titled (title : String) (rows : Rows) : String :=
  let width := (rows.map (·.1.length)).foldl max 0
  let row (entry : String × String) : String :=
    "  " ++ entry.1 ++ String.ofList (List.replicate (width - entry.1.length + 2) ' ') ++
      entry.2 ++ "\n"
  "\n" ++ title ++ ":\n" ++ String.join (rows.map row)

/-- The row of the flag for more messages. -/
def verboseRow : String × String :=
  ("-v, --verbose",
    "Log replacement rules and upgrade candidates, print full error chains")

/-- The row of the flag for help. -/
def helpRow : String × String :=
  ("-h, --help", "Print help")

/-- The options of every command. -/
def commandRows : Rows :=
  [ ("-s, --source <source>", "Grammar dataset JSON (types, properties, atrules)"),
    verboseRow,
    ("-c, --config <config>",
      "Configuration file [default: ./css-syntax.toml if present]"),
    ("-o, --out-dir <out-dir>",
      "Directory for the generated documents [default: syntax]"),
    helpRow ]

/-- The commands of the program. -/
def programRows : Rows :=
  [ (Command.generate.name, Command.generate.about),
    (Command.check.name, Command.check.about),
    ("help", Topic.help.about) ]

/-- The help text of a topic. -/
def helpText (topic : Topic) : String :=
  let head := topic.about ++ "\n\nUsage: " ++ topic.usage ++ "\n"
  match topic with
  | .program =>
      head ++ titled "Commands" programRows ++
        titled "Options" [verboseRow, helpRow, ("-V, --version", "Print version")]
  | .command _ => head ++ titled "Options" commandRows
  | .help =>
      head ++ titled "Arguments" [("[COMMAND]...", "Print help for the subcommand(s)")]

end GrammarUpgrade.CommandLine
