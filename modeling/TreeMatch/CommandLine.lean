import TreeMatch.Logging.Format

/-!
# Command lines

The arguments of a run: options of the log, a command, and more options. An option that takes a value
is written `--name value` or `--name=value`; in the first form the value is no option itself. The
options of the log may stand on both sides of the command, and then those after it count. No option is
given twice on one side.
-/

namespace TreeMatch

/-- The commands. -/
inductive Command where
  /-- Matches the whole tree. -/
  | whole
  /-- Searches the tree. -/
  | search
deriving DecidableEq

namespace Command

/-- The name of a command. -/
def name : Command → String
  | whole => "match"
  | search => "search"

/-- The command of a name. -/
def ofName? (text : String) : Option Command := [whole, search].find? (·.name == text)

end Command

/-- The options that take a value. -/
inductive ValueOption where
  | logFilter
  | logFormat
  | pattern
  | tree
deriving DecidableEq

namespace ValueOption

/-- The name of an option. -/
def name : ValueOption → String
  | logFilter => "log-filter"
  | logFormat => "log-format"
  | pattern => "pattern"
  | tree => "tree"

/-- The options that may stand before the command. -/
def ofLog : List ValueOption := [logFilter, logFormat]

/-- All options. -/
def all : List ValueOption := [logFilter, logFormat, pattern, tree]

end ValueOption

/-- What is wrong with the arguments of a run. -/
inductive UsageError where
  | missingCommand
  | unknownCommand (text : String)
  /-- An option that does not belong there, or an argument too many. -/
  | unexpected (argument : String)
  | missingValue (option : ValueOption)
  | emptyValue (option : ValueOption)
  | unknownFormat (text : String)
  | repeated (name : String)
  | missingPattern
deriving DecidableEq

/-- The wording of a usage error. -/
def UsageError.message : UsageError → String
  | missingCommand => "error: one of the commands `match` and `search` is required"
  | unknownCommand text => "error: unrecognized command '" ++ text ++ "'"
  | unexpected argument => "error: unexpected argument '" ++ argument ++ "' found"
  | missingValue option => "error: a value is required for '--" ++ option.name ++ "'"
  | emptyValue option => "error: the value of '--" ++ option.name ++ "' is empty"
  | unknownFormat text =>
    "error: invalid value '" ++ text ++ "' for '--log-format': " ++ LogFormat.unknownName
  | repeated name => "error: the argument '--" ++ name ++ "' cannot be used multiple times"
  | missingPattern => "error: the option '--pattern' is required"

/-! ## Single arguments -/

/-- The form of an argument. -/
inductive Argument where
  /-- Two dashes: nothing after them is an option. -/
  | separator
  /-- Two dashes and a name, with what follows the first equals sign. -/
  | long (name : String) (attached? : Option String)
  /-- A dash and a letter; more letters may follow. -/
  | short (letter : Char)
  /-- Anything else, a lone dash too. -/
  | plain (text : String)
deriving DecidableEq

namespace Argument

/-- The form of a text. -/
def ofText (text : String) : Argument :=
  match text.toList with
  | ['-', '-'] => separator
  | '-' :: '-' :: rest =>
    long (String.ofList (rest.takeWhile (· != '=')))
      (match rest.dropWhile (· != '=') with
        | [] => none
        | _ :: value => some (String.ofList value))
  | '-' :: letter :: _ => short letter
  | _ => plain text

/-- Whether an argument of its own can be the value of the option before it. -/
def isValue (text : String) : Bool :=
  match ofText text with
  | plain _ => true
  | _ => false

end Argument

/-! ## Options of one side -/

/-- The options on one side of the command. -/
structure GivenOptions where
  logFilter? : Option String
  logFormat? : Option LogFormat
  pattern? : Option String
  tree? : Option String
  first : Bool

namespace GivenOptions

/-- No options. -/
def none : GivenOptions := ⟨.none, .none, .none, .none, false⟩

/-- The value of an option that is not given yet. -/
def once {α : Type} (option : ValueOption) (held? : Option α) (value : α) :
    Except UsageError (Option α) :=
  if held?.isSome then throw (.repeated option.name) else pure (some value)

/-- The path that a value names. -/
def path (option : ValueOption) (value : String) : Except UsageError String :=
  if value = "" then throw (.emptyValue option) else pure value

/-- The log format that a value names. -/
def format (value : String) : Except UsageError LogFormat :=
  match LogFormat.ofName? value with
  | some found => pure found
  | .none => throw (.unknownFormat value)

/-- The options with one more. -/
def add (given : GivenOptions) (option : ValueOption) (value : String) :
    Except UsageError GivenOptions :=
  match option with
  | .logFilter => do
    let held ← once option given.logFilter? value
    pure { given with logFilter? := held }
  | .logFormat => do
    let held ← once option given.logFormat? (← format value)
    pure { given with logFormat? := held }
  | .pattern => do
    let held ← once option given.pattern? (← path option value)
    pure { given with pattern? := held }
  | .tree => do
    let held ← once option given.tree? (← path option value)
    pure { given with tree? := held }

end GivenOptions

/-! ## Requests -/

/-- What a run does with its tree. -/
inductive Task where
  /-- Matches it as a whole. -/
  | whole
  /-- Searches it, and stops at the first match or not. -/
  | search (first : Bool)
deriving DecidableEq

/-- What the arguments of a run ask for. -/
structure Invocation where
  task : Task
  pattern : String
  /-- The file of the tree; without one it comes from standard input. -/
  tree? : Option String
  logFilter : String
  logFormat : LogFormat
deriving DecidableEq

/-- Something that arguments can ask for. -/
inductive Request where
  /-- How to use the program, or a command of it. -/
  | help (topic : Option Command)
  | version
  | invoke (invocation : Invocation)
deriving DecidableEq

namespace CommandLine

/-- The filter of a run that asks for none. -/
def standardFilter : String := "warn"

/-- The options after a command, or `none` where the way to use it is asked for. -/
def afterCommand (command : Command) (given : GivenOptions) :
    List String → Except UsageError (Option GivenOptions)
  | [] => pure (some given)
  | argument :: rest =>
    match Argument.ofText argument with
    | .separator => if rest.isEmpty then pure (some given) else throw (.unexpected (rest.headD ""))
    | .plain text => throw (.unexpected text)
    | .short letter => if letter = 'h' then pure none else throw (.unexpected argument)
    | .long "help" none => pure none
    | .long "first" none =>
      if command = .whole then throw (.unexpected argument)
      else if given.first then throw (.repeated "first")
      else afterCommand command { given with first := true } rest
    | .long name attached? =>
      match ValueOption.all.find? (·.name == name) with
      | none => throw (.unexpected argument)
      | some option =>
        match attached?, rest with
        | some value, rest => do afterCommand command (← given.add option value) rest
        | none, value :: rest =>
          if Argument.isValue value then do afterCommand command (← given.add option value) rest
          else throw (.missingValue option)
        | none, [] => throw (.missingValue option)

/-- The task of a command. -/
def task (first : Bool) : Command → Task
  | .whole => .whole
  | .search => .search first

/-- The invocation of a command with the options on its two sides. -/
def invocation (command : Command) (before after : GivenOptions) : Except UsageError Invocation :=
  match after.pattern? with
  | none => throw .missingPattern
  | some pattern => pure {
      task := task after.first command
      pattern := pattern
      tree? := after.tree?
      logFilter := (after.logFilter?.or before.logFilter?).getD standardFilter
      logFormat := (after.logFormat?.or before.logFormat?).getD default }

/-- The request of arguments, with what the options so far amount to. A value that stands on its own is
judged when the next option comes, so a faulty one right before the command is reported only after the
arguments of the command are in order. -/
def beforeCommand (given : Except UsageError GivenOptions) : List String → Except UsageError Request
  | [] => throw .missingCommand
  | argument :: rest =>
    match Argument.ofText argument with
    | .separator => throw .missingCommand
    | .plain text =>
      match Command.ofName? text with
      | none => throw (.unknownCommand text)
      | some command => do
        match ← afterCommand command .none rest with
        | none => pure (.help (some command))
        | some after => do pure (.invoke (← invocation command (← given) after))
    | .short letter => do
      let _ ← given
      if letter = 'h' then pure (.help none)
      else if letter = 'V' then pure .version
      else throw (.unexpected argument)
    | .long "help" none => do
      let _ ← given
      pure (.help none)
    | .long "version" none => do
      let _ ← given
      pure .version
    | .long name attached? =>
      match ValueOption.ofLog.find? (·.name == name) with
      | none => throw (.unexpected argument)
      | some option =>
        match attached?, rest with
        | some value, rest => do
          let held ← (← given).add option value
          beforeCommand (pure held) rest
        | none, value :: rest =>
          if Argument.isValue value then do
            let held ← given
            beforeCommand (held.add option value) rest
          else throw (.missingValue option)
        | none, [] => throw (.missingValue option)

/-- The request of the arguments of a run. -/
def read (arguments : List String) : Except UsageError Request := beforeCommand (pure .none) arguments

end CommandLine

end TreeMatch
