import TreeMatch.CommandLine.Help
import TreeMatch.Document
import TreeMatch.Json.Reader
import TreeMatch.Logging.Line
import TreeMatch.Search

/-!
# Runs

A run goes through its stages in one order: the arguments, the log, the pattern document, the tree,
the match or the search, and the writing of the result. The first stage that fails ends it, with one
line on the error stream. A run is a function of what it can read, of the room of its two streams and of the
state of the log.
-/

namespace TreeMatch

/-! ## What a run finds and leaves behind -/

/-- Whether the log is still to be set up. -/
inductive LogState where
  /-- An earlier run has set it up, and its settings stay. -/
  | installed
  /-- It is set up by this run. -/
  | fresh
  /-- Something else receives the events, and this is the answer to who wants to do so as well. -/
  | occupied (cause : String)
deriving DecidableEq

/-- What the readers of a run say about the texts that they refuse. -/
structure Reasons where
  /-- Why a text is no filter of a log. -/
  logFilter : String → String
  /-- Why a text is no document of YAML. -/
  document : String → String
  /-- Why a text is no tree of JSON. -/
  tree : String → String

/-- What a run finds. A stream with a room takes that many bytes and refuses the next. -/
structure Surroundings where
  /-- The bytes of a file, or why it cannot be read. -/
  file : String → Except String ByteArray
  /-- The bytes of standard input, or why it cannot be read. -/
  input : Except String ByteArray
  outputRoom? : Option Nat
  errorRoom? : Option Nat
  logState : LogState
  reasons : Reasons

/-- How a run ends. -/
inductive ExitStatus where
  /-- With a match, or with what was asked for. -/
  | success
  /-- Without a match. -/
  | noMatch
  | failure
deriving DecidableEq

/-- The number by which a run reports how it ends. -/
def ExitStatus.code : ExitStatus → UInt8
  | success => 0
  | noMatch => 1
  | failure => 2

/-- What a run leaves behind. -/
structure Outcome where
  status : ExitStatus
  /-- The bytes on standard output. -/
  output : List UInt8
  /-- The bytes on the error stream, apart from the log. -/
  errors : List UInt8
  /-- The settings of the log that the run has set up. -/
  log? : Option LogSettings

/-- Why a run fails, with the cause in the words of what has failed. -/
inductive RunError where
  | usage (error : UsageError)
  | logFilter (text cause : String)
  | logOccupied (cause : String)
  | readPattern (path cause : String)
  | document (path : String) (error : DocumentError)
  | readTree (origin cause : String)
  | parseTree (origin cause : String)
  /-- The result does not fit. -/
  | serialise (reason : String)
  /-- The line end after the result does not fit. -/
  | write (reason : String)

/-- The wording of a failure. -/
def RunError.message : RunError → String
  | usage error => error.message
  | logFilter text cause => "invalid log filter `" ++ text ++ "`: " ++ cause
  | logOccupied cause => "failed to install log subscriber: " ++ cause
  | readPattern path cause => "failed to read pattern document " ++ path ++ ": " ++ cause
  | document path error => "invalid pattern document " ++ path ++ ": " ++ error.message
  | readTree origin cause => "failed to read tree from " ++ origin ++ ": " ++ cause
  | parseTree origin cause => "failed to parse tree from " ++ origin ++ " as JSON: " ++ cause
  | serialise reason => "failed to serialise result: " ++ reason
  | write reason => "failed to write result: " ++ reason

/-! ## Streams -/

/-- The bytes of a text. -/
def bytesOf (text : String) : List UInt8 := text.toUTF8.data.toList

namespace Stream

/-- The reason that a full stream gives. -/
def refusal : String := "no room"

/-- The bytes that a stream takes. -/
def taken (room? : Option Nat) (bytes : List UInt8) : List UInt8 :=
  match room? with
  | none => bytes
  | some room => bytes.take room

/-- Whether a stream takes all bytes. -/
def fits (room? : Option Nat) (bytes : List UInt8) : Bool := room?.all (bytes.length ≤ ·)

end Stream

/-! ## Stages -/

/-- The settings of the log, if this run sets it up. -/
def Invocation.setUpLog (invocation : Invocation) (surroundings : Surroundings) :
    Except RunError (Option LogSettings) :=
  match surroundings.logState, LogFilter.read? invocation.logFilter with
  | .installed, _ => pure none
  | .fresh, some filter => pure (some ⟨filter, invocation.logFormat⟩)
  | .occupied cause, some _ => throw (.logOccupied cause)
  | .fresh, none | .occupied _, none =>
    throw (.logFilter invocation.logFilter (surroundings.reasons.logFilter invocation.logFilter))

/-- What is said of bytes that are no text. -/
def notText : String := "stream did not contain valid UTF-8"

/-- The text of bytes that are to be read, or why there is none. -/
def textOf (bytes : Except String ByteArray) : Except String String := do
  match String.fromUTF8? (← bytes) with
  | some text => pure text
  | none => throw notText

/-- The pattern in a file. -/
def loadPattern (reasons : Reasons) (path : String) (bytes : Except String ByteArray) :
    Logged (Except RunError Pattern) :=
  match textOf bytes with
  | .error cause => pure (.error (.readPattern path cause))
  | .ok text => do
    Logged.report (.patternRead path text.utf8ByteSize)
    match ← Document.parse reasons.document text with
    | .ok pattern => pure (.ok pattern)
    | .error error => pure (.error (.document path error))

/-- How deep the arrays and objects of a tree may nest. -/
def treeDepth : Nat := 127

/-- The tree in a file or in standard input. -/
def loadTree (reasons : Reasons) (origin : String) (bytes : Except String ByteArray) :
    Logged (Except RunError Node) :=
  match textOf bytes with
  | .error cause => pure (.error (.readTree origin cause))
  | .ok text => do
    Logged.report (.treeRead origin text.utf8ByteSize)
    match Json.read? treeDepth text with
    | some tree => pure (.ok tree)
    | none => pure (.error (.parseTree origin (reasons.tree text)))

/-- What a task has to say. -/
structure Answer where
  /-- Whether something matches. -/
  found : Bool
  /-- The result as a tree. -/
  node : Node

namespace Answer

/-- The answer of a match: its captures, or `false`. -/
def ofMatch : Option Captures → Answer
  | some captures => ⟨true, captures.toNode⟩
  | none => ⟨false, .bool false⟩

/-- The answer of a search: its matches. -/
def ofSearch (found : List Found) : Answer := ⟨!found.isEmpty, .array (found.map Found.toNode)⟩

/-- The text of an answer without its line end. -/
def text (answer : Answer) : String := Json.pretty answer.node

/-- How a run with this answer ends. -/
def status (answer : Answer) : ExitStatus := if answer.found then .success else .noMatch

end Answer

/-- The answer of a task. -/
def Task.perform (pattern : Pattern) (tree : Node) : Task → Logged Answer
  | whole => do
    let captures? ← pattern.run tree
    Logged.report (.runMatched captures?.isSome)
    pure (.ofMatch captures?)
  | search first => do
    let found ← if first then Option.toList <$> pattern.findFirst tree else pattern.findAll tree
    Logged.report (.runSearched found.length first)
    pure (.ofSearch found)

namespace Invocation

/-- The name of the place that the tree comes from. -/
def origin (invocation : Invocation) : String := invocation.tree?.getD "stdin"

/-- The bytes of the tree, or why they cannot be read. -/
def treeBytes (invocation : Invocation) (surroundings : Surroundings) : Except String ByteArray :=
  match invocation.tree? with
  | some path => surroundings.file path
  | none => surroundings.input

/-- The answer of an invocation: the pattern is read first, then the tree. -/
def answer (invocation : Invocation) (surroundings : Surroundings) :
    Logged (Except RunError Answer) := do
  let reasons := surroundings.reasons
  match ← loadPattern reasons invocation.pattern (surroundings.file invocation.pattern) with
  | .error error => pure (.error error)
  | .ok pattern =>
    match ← loadTree reasons invocation.origin (invocation.treeBytes surroundings) with
    | .error error => pure (.error error)
    | .ok tree => Except.ok <$> invocation.task.perform pattern tree

/-- Whether the tree is read at all. -/
def reachesTree (invocation : Invocation) (reasons : Reasons) (pattern : Except String ByteArray) : Bool :=
  match (loadPattern reasons invocation.pattern pattern).value with
  | .ok _ => true
  | .error _ => false

end Invocation

/-! ## Endings -/

namespace Surroundings

variable (surroundings : Surroundings)

/-- Ends with a text that was asked for. A text that does not fit is a failure without a word. -/
def tell (text : String) : Outcome where
  status := if Stream.fits surroundings.outputRoom? (bytesOf text) then .success else .failure
  output := Stream.taken surroundings.outputRoom? (bytesOf text)
  errors := []
  log? := none

/-- Ends with a failure, after some output. A failure that cannot be told is an event. -/
def fail (log? : Option LogSettings) (output : List UInt8) (error : RunError) : Logged Outcome := do
  let line := bytesOf (error.message ++ "\n")
  if !Stream.fits surroundings.errorRoom? line then Logged.report (.reportFailed Stream.refusal)
  pure ⟨.failure, output, Stream.taken surroundings.errorRoom? line, log?⟩

/-- Ends with an answer, on a line of its own. -/
def finish (log? : Option LogSettings) (answer : Answer) : Logged Outcome :=
  let text := bytesOf answer.text
  let line := bytesOf (answer.text ++ "\n")
  let output := Stream.taken surroundings.outputRoom? line
  if !Stream.fits surroundings.outputRoom? text then
    surroundings.fail log? output (.serialise Stream.refusal)
  else if !Stream.fits surroundings.outputRoom? line then
    surroundings.fail log? output (.write Stream.refusal)
  else pure ⟨answer.status, output, [], log?⟩

end Surroundings

/-- What an invocation leaves behind. -/
def Invocation.run (invocation : Invocation) (surroundings : Surroundings) : Logged Outcome := do
  match invocation.setUpLog surroundings with
  | .error error => surroundings.fail none [] error
  | .ok log? =>
    Logged.report .commandStarted
    match ← invocation.answer surroundings with
    | .error error => surroundings.fail log? [] error
    | .ok answer => surroundings.finish log? answer

/-- What a run with these arguments leaves behind. -/
def run (arguments : List String) (surroundings : Surroundings) : Logged Outcome :=
  match CommandLine.read arguments with
  | .error error => surroundings.fail none [] (.usage error)
  | .ok (.help topic) => pure (surroundings.tell (Help.text topic))
  | .ok .version => pure (surroundings.tell Help.version)
  | .ok (.invoke invocation) => invocation.run surroundings

end TreeMatch
