import TreeMatch.CommandLine

/-!
# Help

The texts that say how to use the program.
-/

namespace TreeMatch.Help

/-- The name and the number of the program. -/
def version : String := "astmatch 0.1.0\n"

/-- What the program does. -/
def purpose : String := "Matches JSON trees against declarative structural patterns"

/-- What a command does. -/
def commandPurpose : Command → String
  | .whole =>
    "Matches the whole tree against the pattern and prints the captures, or `false` when it does not match"
  | .search => "Searches every subtree for matches and prints each path with its captures"

/-- The options with the placeholders of their values, padded to one width, and what they are for. -/
def filterLine : String :=
  "      --log-filter <FILTER>  Tracing filter directive, for example `astmatch_core=trace` [default: warn]\n"

@[inherit_doc filterLine]
def formatLine : String :=
  "      --log-format <FORMAT>  Diagnostic log format written to stderr [default: compact]\n"

@[inherit_doc filterLine]
def patternLine : String := "      --pattern <FILE>       YAML or JSON pattern document\n"

@[inherit_doc filterLine]
def treeLine : String := "      --tree <FILE>          JSON tree to inspect; read from stdin when omitted\n"

@[inherit_doc filterLine]
def firstLine : String := "      --first                Stops at the first match in pre-order\n"

@[inherit_doc filterLine]
def helpLine : String := "  -h, --help                 Print help\n"

@[inherit_doc filterLine]
def versionLine : String := "  -V, --version              Print version\n"

/-- How to use the program. -/
def ofProgram : String :=
  purpose ++ "\n\nUsage: astmatch [OPTIONS] <COMMAND>\n\nCommands:\n" ++
    "  match   " ++ commandPurpose .whole ++ "\n  search  " ++ commandPurpose .search ++
    "\n\nOptions:\n" ++ filterLine ++ formatLine ++ helpLine ++ versionLine

/-- How to use a command. -/
def ofCommand (command : Command) : String :=
  commandPurpose command ++ "\n\nUsage: astmatch " ++ command.name ++
    " [OPTIONS] --pattern <FILE>\n\nOptions:\n" ++ filterLine ++ patternLine ++ formatLine ++ treeLine ++
    (match command with
      | .whole => ""
      | .search => firstLine) ++ helpLine

/-- How to use the program or a command of it. -/
def text : Option Command → String
  | none => ofProgram
  | some command => ofCommand command

end TreeMatch.Help
