import TreeMatch.Json.Writer

/-!
# Events

What happens inside a match, a search, the reading of a document or a whole run is reported as
events. An event has a level, the part of the program it comes from, a message and named values.
-/

namespace TreeMatch

/-- How much detail an event is, from the least to the most important that events are. -/
inductive Level where
  | trace
  | debug
  | info
deriving DecidableEq

/-- The name of a level. -/
def Level.name : Level → String
  | trace => "TRACE"
  | debug => "DEBUG"
  | info => "INFO"

/-- A value that an event names. -/
inductive EventValue where
  /-- A text of the program. -/
  | text (text : String)
  /-- A text that is displayed without quotes. -/
  | shown (text : String)
  | count (n : Nat)
  | flag (value : Bool)

/-- What can happen. -/
inductive Event where
  /-- A literal is not contained in its candidate. -/
  | literalMismatch (expected : Node)
  /-- A mapping faces something else than an object. -/
  | mappingOnOther
  /-- A mapping's key is not in the object. -/
  | mappingKeyMissing (key : String)
  /-- A sequence faces something else than an array. -/
  | sequenceOnOther
  /-- An array is shorter than a sequence. -/
  | sequenceTooShort (expected actual : Nat)
  /-- A predicate of the pattern rejects its candidate. -/
  | predicateRejected (label : String)
  /-- An array has another length than an exact sequence. -/
  | lengthMismatch (expected actual : Nat)
  /-- An exact sequence faces something else than an array. -/
  | exactOnOther
  /-- A capture takes the place of an earlier one. -/
  | captureOverwritten (name : String)
  /-- A search has tried every sub-tree. -/
  | searchFinished (found : Nat)
  /-- A document is a pattern. -/
  | documentCompiled (directives : Nat) (predicates : Bool)
  /-- A run starts with its command. -/
  | commandStarted
  /-- The pattern document is read. -/
  | patternRead (path : String) (bytes : Nat)
  /-- The tree is read. -/
  | treeRead (origin : String) (bytes : Nat)
  /-- The match of a run is done. -/
  | runMatched (matched : Bool)
  /-- The search of a run is done. -/
  | runSearched (found : Nat) (first : Bool)
  /-- The error of a run could not be written. -/
  | reportFailed (reason : String)

namespace Event

/-- Steps of a match are traces, stages are debugging events and results are information. -/
def level : Event → Level
  | searchFinished .. | documentCompiled .. | commandStarted | patternRead .. | treeRead ..
  | reportFailed .. => .debug
  | runMatched .. | runSearched .. => .info
  | _ => .trace

/-- The part of the program that reports the event. -/
def target : Event → String
  | lengthMismatch .. | exactOnOther => "astmatch_core::length"
  | captureOverwritten .. => "astmatch_core::captures"
  | searchFinished .. => "astmatch_core::search"
  | documentCompiled .. => "astmatch_yaml::compile"
  | commandStarted | reportFailed .. => "astmatch_cli"
  | patternRead .. | treeRead .. | runMatched .. | runSearched .. => "astmatch_cli::command"
  | _ => "astmatch_core::matcher"

/-- The message of an event. -/
def message : Event → String
  | literalMismatch .. => "literal mismatch"
  | mappingOnOther => "mapping pattern applied to a non-mapping"
  | mappingKeyMissing .. => "mapping key missing"
  | sequenceOnOther => "sequence pattern applied to a non-sequence"
  | sequenceTooShort .. => "sequence shorter than pattern"
  | predicateRejected .. => "predicate rejected candidate"
  | lengthMismatch .. => "sequence length mismatch"
  | exactOnOther => "exact-length pattern applied to a non-sequence"
  | captureOverwritten .. => "capture overwritten by later binding"
  | searchFinished .. => "subtree search finished"
  | documentCompiled .. => "compiled pattern document"
  | commandStarted => "running command"
  | patternRead .. => "read pattern document"
  | treeRead .. => "read tree"
  | runMatched .. => "match finished"
  | runSearched .. => "search finished"
  | reportFailed .. => "failed to report error"

/-- The named values of an event, in the order in which they are written. -/
def values : Event → List (String × EventValue)
  | literalMismatch expected => [("expected", .shown (Json.compact expected))]
  | mappingKeyMissing key => [("key", .shown key)]
  | sequenceTooShort expected actual | lengthMismatch expected actual =>
    [("expected", .count expected), ("actual", .count actual)]
  | predicateRejected label => [("predicate", .text label)]
  | captureOverwritten name => [("capture", .shown name)]
  | searchFinished found => [("matches", .count found)]
  | documentCompiled directives predicates =>
    [("directives", .count directives), ("predicates", .flag predicates)]
  | patternRead path bytes => [("path", .shown path), ("bytes", .count bytes)]
  | treeRead origin bytes => [("origin", .shown origin), ("bytes", .count bytes)]
  | runMatched matched => [("matched", .flag matched)]
  | runSearched found first => [("matches", .count found), ("first", .flag first)]
  | reportFailed reason => [("write_error", .shown reason)]
  | mappingOnOther | sequenceOnOther | exactOnOther | commandStarted => []

end Event

end TreeMatch
