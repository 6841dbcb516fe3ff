import TreeMatch.Yaml.Base64
import TreeMatch.Yaml.Expansion
import TreeMatch.Yaml.PlainValue

/-!
# Values of YAML documents

The tree that a document stands for. Scalars are read as their tags and styles say, keys are texts,
and merge keys bring in the fields of other mappings. `Yaml.read?` does all of it.
-/

namespace TreeMatch.Yaml

namespace Tree

/-! ## Tags of scalars -/

/-- What a tag says of a scalar. -/
inductive ScalarKind where
  /-- There is no tag. -/
  | untagged
  /-- The scalar is null, whatever its text. -/
  | null
  | text
  /-- The tag has no name: the scalar is a text. -/
  | nameless
  | binary
  /-- The scalar is refused: trees have no values of that kind for it. -/
  | refused
  /-- The tag has no meaning here. -/
  | other
deriving DecidableEq

/-- The names of tags that have a meaning also with two marks in front of them. -/
def coreKinds : List (String × ScalarKind) :=
  [("null", .null), ("str", .text), ("binary", .binary), ("bool", .refused), ("int", .refused),
   ("float", .refused), ("seq", .refused), ("map", .refused), ("timestamp", .refused)]

/-- The names of the other tags that have a meaning. -/
def unitKinds : List (String × ScalarKind) :=
  [("time", .refused), ("degrees", .refused), ("radians", .refused)]

/-- What the name of a tag says of a scalar. -/
def namedKind (name : String) : ScalarKind := ((coreKinds ++ unitKinds).lookup name).getD .other

/-- What a tag says of a scalar. The suffix of a local tag, and of one that is written whole, may have
a mark of its own. -/
def tagKind (tag : Tag) : ScalarKind :=
  if tag.handle = coreTags then namedKind tag.suffix
  else if tag.handle = "!" ∨ tag.handle = "" then
    match tag.suffix.toList with
    | [] | ['!'] => .nameless
    | '!' :: name => (coreKinds.lookup (String.ofList name)).getD .other
    | _ => namedKind tag.suffix
  else .other

/-- What the properties of a scalar say of it. -/
def scalarKind (properties : Properties) : ScalarKind := (properties.tag?.map tagKind).getD .untagged

/-! ## Scalars and keys -/

/-- Whether a scalar is written like null. -/
def isNull (style : Style) (text : String) : Bool := style = .plain && isNullText text

/-- The value of a scalar. -/
def scalarValue? (properties : Properties) (style : Style) (text : String) : Option Node :=
  if isNull style text then some .null
  else
    match scalarKind properties with
    | .null => some .null
    | .text | .nameless => some (.string text)
    | .binary => (Base64.text? text).map .string
    | .refused => none
    | .untagged | .other => some (if style = .plain then plainValue text else .string text)

/-- The text of a key. Nothing but scalars are keys, and null is none. -/
def key? : Tree → Option String
  | scalar properties style text =>
    match scalarKind properties with
    | .text => some text
    | .null | .refused => none
    | .binary => if isNull style text then none else Base64.text? text
    | .untagged | .nameless | .other => if isNull style text then none else some text
  | _ => none

/-- The kind of a key as far as it tells two keys with the same text apart: keys that can be texts as
they are written are of one kind. -/
def keyKind : ScalarKind → ScalarKind
  | .text | .nameless | .other => .untagged
  | kind => kind

/-- What two keys have in common that are taken for one: the kind and the text as it is written. -/
def mark? : Tree → Option (ScalarKind × String)
  | scalar properties _ text => some (keyKind (scalarKind properties), text)
  | _ => none

/-- Whether a key brings in the fields of other mappings. -/
def isMergeKey : Tree → Bool
  | scalar properties style text => properties.tag?.isNone && style = .plain && text == "<<"
  | _ => false

/-! ## Fields -/

/-- A field of a mapping before it is known whether it counts. -/
structure Field where
  mark? : Option (ScalarKind × String)
  /-- The key and the value, if both can be read. -/
  read? : Option (String × Node)

/-- The fields of a mapping, and those that its merge keys bring in, the last ones first. -/
structure MappingFields where
  own : List Field
  merged : List Field

namespace MappingFields

/-- All fields, the own ones first. -/
def all (fields : MappingFields) : List Field := fields.own ++ fields.merged

/-- The keys and values of own fields, of which none may come twice, put behind those already taken;
also their marks. -/
def takeOwn? : List (Option (ScalarKind × String)) → List (String × Node) → List Field →
    Option (List (Option (ScalarKind × String)) × List (String × Node))
  | seen, taken, [] => some (seen, taken)
  | seen, taken, field :: rest =>
    if seen.contains field.mark? then none
    else
      match field.read? with
      | some pair => takeOwn? (field.mark? :: seen) (pair :: taken) rest
      | none => none

/-- The keys and values of merged fields, put behind those already taken. A field whose mark has been
seen does not count. -/
def takeMerged? : List (Option (ScalarKind × String)) → List (String × Node) → List Field →
    Option (List (String × Node))
  | _, taken, [] => some taken
  | seen, taken, field :: rest =>
    if seen.contains field.mark? then takeMerged? seen taken rest
    else
      match field.read? with
      | some pair => takeMerged? (field.mark? :: seen) (pair :: taken) rest
      | none => none

/-- The value of a mapping. Of two fields with the same key the one that comes later counts. -/
def toNode? (fields : MappingFields) : Option Node := do
  let (seen, own) ← takeOwn? [] [] fields.own
  let taken ← takeMerged? seen own fields.merged
  some (Node.ofPairs taken.reverse)

end MappingFields

/-! ## Values -/

mutual

/-- The value of a node without aliases. -/
def toNode? : Tree → Option Node
  | aliasOf _ => none
  | scalar properties style text => scalarValue? properties style text
  | sequence _ items => (toNodes? items).map .array
  | mapping _ pairs => (fields? pairs).bind (·.toNode?)

/-- The values of nodes. -/
def toNodes? : List Tree → Option (List Node)
  | [] => some []
  | item :: rest => do
    let first ← toNode? item
    let others ← toNodes? rest
    some (first :: others)

/-- The fields of pairs. -/
def fields? : List (Tree × Tree) → Option MappingFields
  | [] => some ⟨[], []⟩
  | (key, value) :: rest =>
    if isMergeKey key then do
      let brought ← mergedFields? value
      let others ← fields? rest
      some { others with merged := others.merged ++ brought }
    else do
      let field : Field := ⟨mark? key, (key? key).bind fun name => (toNode? value).map fun held => (name, held)⟩
      let others ← fields? rest
      some { others with own := field :: others.own }

/-- The fields that the value of a merge key brings in: those of a mapping or of a list of mappings,
of which a later one comes first. Null brings in none. -/
def mergedFields? : Tree → Option (List Field)
  | aliasOf _ => none
  | scalar _ style text => if isNull style text then some [] else none
  | mapping _ pairs => (fields? pairs).map (·.all)
  | sequence _ items => mergedItems? items

/-- The fields of a list of mappings. -/
def mergedItems? : List Tree → Option (List Field)
  | [] => some []
  | item :: rest => do
    let first ← mergedFields? item
    let others ← mergedItems? rest
    some (others ++ first)

end

end Tree

/-- A text without a byte order mark in front. -/
def unmarked : List Char → List Char
  | c :: rest => if c = byteOrderMark then rest else c :: rest
  | [] => []

/-- The text that is read: without the byte order marks of the text and of its first document, and up
to the first null character. -/
def content (text : String) : String :=
  String.ofList ((unmarked (unmarked text.toList)).takeWhile (·.toNat != 0))

/-- The tree that the only document of a YAML text stands for. -/
def read? (text : String) : Option Node := do
  let root ← Tree.ofText? (content text)
  let expanded ← root.expanded?
  expanded.toNode?

end TreeMatch.Yaml
