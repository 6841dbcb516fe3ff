import TreeMatch.Document.Error
import TreeMatch.Matching
import TreeMatch.Pointer
import TreeMatch.Yaml.Value

/-!
# Pattern documents

A pattern can be written as a tree. Scalars stand for themselves, arrays for sequences and objects
for mappings; an object whose keys start with `$` is a directive:

* `$extract: NAME` captures the candidate, alongside `$match: DOCUMENT` only if that matches;
* `$exact: [DOCUMENT, ...]` asks for an array of exactly that many elements;
* `$literal: VALUE` stands for the value, whatever keys are in it.

`Document.read` finds the directives of a tree, or the first mapping that is ill-formed, a mapping
before its contents. `Document.toPattern` cannot fail. `Document.parse` starts from a text.
-/

namespace TreeMatch

/-- A pattern document with its directives recognised. -/
inductive Document where
  | scalar (value : Node)
  | array (items : List Document)
  | mapping (entries : List (String × Document))
  | literal (value : Node)
  | exact (items : List Document)
  | extract (name : String)
  | extractWith (name : String) (inner : Document)

namespace Document

/-! ## Directives -/

/-- Whether a key belongs to a directive. -/
def isDirective (key : String) : Bool := key.toList.head? == some '$'

/-- The keys that directives may have. -/
def directiveKeys : List String := ["$extract", "$match", "$exact", "$literal"]

/-- What is wrong with directives that all exist. -/
def directiveFault (keys : List String) : DirectiveFault :=
  if keys.contains "$literal" then .notAlone "$literal"
  else if keys.contains "$exact" then if keys.length = 1 then .exactNotArray else .notAlone "$exact"
  else if keys.contains "$extract" then .nameNotText
  else .matchWithoutName

/-- The error of an object with a directive key that is no well-formed directive: a plain key, else
an unknown directive, else a fault of the directives that are there. -/
def directiveError (steps : List String) (fields : List (String × Node)) : DocumentError :=
  let path := Pointer.ofSteps steps
  let keys := Fields.names fields
  match keys.find? (fun key => !isDirective key) with
  | some plain => .mixedDirective path plain
  | none =>
    match keys.find? (fun key => !directiveKeys.contains key) with
    | some unknown => .unknownDirective path unknown
    | none => .invalidDirective path (directiveFault keys).message

mutual

/-- The document of a tree that stands at a place of the whole. -/
def readAt (steps : List String) : Node → Except DocumentError Document
  | .array items => array <$> readItems steps 0 items
  | .object [("$literal", value)] => pure (literal value)
  | .object [("$exact", .array items)] => exact <$> readItems (steps ++ ["$exact"]) 0 items
  | .object [("$extract", .string name)] => pure (extract name)
  | .object [("$extract", .string name), ("$match", inner)] =>
    extractWith name <$> readAt (steps ++ ["$match"]) inner
  | .object fields =>
    if (Fields.names fields).any isDirective then throw (directiveError steps fields)
    else mapping <$> readFields steps fields
  | .null => pure (scalar .null)
  | .bool value => pure (scalar (.bool value))
  | .number value => pure (scalar (.number value))
  | .string text => pure (scalar (.string text))

/-- The documents of elements, from an index on. -/
def readItems (steps : List String) (index : Nat) : List Node → Except DocumentError (List Document)
  | [] => pure []
  | item :: rest => do
    let first ← readAt (steps ++ [Pointer.indexStep index]) item
    let others ← readItems steps (index + 1) rest
    pure (first :: others)

/-- The documents of the values of plain fields. -/
def readFields (steps : List String) :
    List (String × Node) → Except DocumentError (List (String × Document))
  | [] => pure []
  | (key, value) :: rest => do
    let first ← readAt (steps ++ [key]) value
    let others ← readFields steps rest
    pure ((key, first) :: others)

end

/-- The document that a tree is. -/
def read (node : Node) : Except DocumentError Document := readAt [] node

/-! ## Patterns of documents -/

mutual

/-- The pattern that a document stands for. -/
def toPattern : Document → Pattern
  | scalar value => .literal value
  | array items => .sequence (toPatternItems items)
  | mapping entries => .mapping (toPatternEntries entries)
  | literal value => .literal value
  | exact items => .predicate (.exact (toPatternItems items))
  | extract name => .predicate (.extract name)
  | extractWith name inner => .predicate (.extractWith name (toPattern inner))

/-- The patterns of the items. -/
def toPatternItems : List Document → List Pattern
  | [] => []
  | item :: rest => toPattern item :: toPatternItems rest

/-- The entries with the patterns of their values. -/
def toPatternEntries : List (String × Document) → List (String × Pattern)
  | [] => []
  | (key, entry) :: rest => (key, toPattern entry) :: toPatternEntries rest

end

mutual

/-- The number of directives in a document. -/
def directives : Document → Nat
  | scalar _ => 0
  | array items => directivesItems items
  | mapping entries => directivesEntries entries
  | literal _ => 1
  | exact items => directivesItems items + 1
  | extract _ => 1
  | extractWith _ inner => directives inner + 1

/-- The number of directives in the items. -/
def directivesItems : List Document → Nat
  | [] => 0
  | item :: rest => directives item + directivesItems rest

/-- The number of directives in the entries. -/
def directivesEntries : List (String × Document) → Nat
  | [] => 0
  | (_, entry) :: rest => directives entry + directivesEntries rest

end

/-- The pattern that a tree describes. -/
def compile (node : Node) : Logged (Except DocumentError Pattern) := do
  match read node with
  | .error error => pure (.error error)
  | .ok document =>
    let pattern := document.toPattern
    Logged.report (.documentCompiled document.directives pattern.hasPredicates)
    pure (.ok pattern)

/-- The pattern that a text describes, which is written in YAML, of which JSON is a part. The reason for which a text is
not is worded by the reader of YAML. -/
def parse (reason : String → String) (text : String) : Logged (Except DocumentError Pattern) :=
  match Yaml.read? text with
  | some node => compile node
  | none => pure (.error (.parse (reason text)))

end Document

end TreeMatch
