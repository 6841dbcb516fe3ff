import TreeMatch.Yaml.Token

/-!
# Trees of a YAML document

The nodes of the first document of a text as its tokens nest, before anchors, tags and plain scalars
are given a meaning. A key or value that is left out is an empty plain scalar. Each step of a reader
takes a token or goes down from a node to what the token before has opened, which bounds `fuel`.
-/

namespace TreeMatch.Yaml

/-- What may stand in front of a node. -/
structure Properties where
  anchor? : Option String
  /-- The tag, with the meaning of its handle. -/
  tag? : Option Tag

/-- A node of a document. -/
inductive Tree where
  | aliasOf (name : String)
  | scalar (properties : Properties) (style : Style) (text : String)
  | sequence (properties : Properties) (items : List Tree)
  | mapping (properties : Properties) (pairs : List (Tree × Tree))

namespace Tree

/-- The node that is left out. -/
def empty : Tree := scalar ⟨none, none⟩ .plain ""

/-! ## Properties -/

/-- What the handle `!!` stands for, unless a directive says otherwise. -/
def coreTags : String := "tag:yaml.org,2002:"

/-- A tag with the meaning of its handle. Handles with a name must be declared. -/
def withMeaning? (handles : List (String × String)) (tag : Tag) : Option Tag :=
  match handles.lookup tag.handle with
  | some meaning => some { tag with handle := meaning }
  | none =>
    if tag.handle = "!!" then some { tag with handle := coreTags }
    else if tag.handle.length > 1 then none
    else some tag

/-- The properties in front of a node: an anchor, a tag or both. -/
def properties? (handles : List (String × String)) :
    List Token → Option (Properties × List Token)
  | .anchor name :: .tag tag :: rest =>
    (withMeaning? handles tag).map fun tag => (⟨some name, some tag⟩, rest)
  | .tag tag :: .anchor name :: rest =>
    (withMeaning? handles tag).map fun tag => (⟨some name, some tag⟩, rest)
  | .anchor name :: rest => some (⟨some name, none⟩, rest)
  | .tag tag :: rest => (withMeaning? handles tag).map fun tag => (⟨none, some tag⟩, rest)
  | tokens => some (⟨none, none⟩, tokens)

/-- The scalar with these properties. Between quotes nothing is left out, but with an anchor in front
of them it is. -/
def ofScalar? (properties : Properties) (style : Style) (text : String) : Option Tree :=
  if style = .unindented then none
  else if style = .quoted ∧ text = "" ∧ properties.anchor?.isSome then some (scalar properties .plain "")
  else some (scalar properties style text)

/-! ## Nodes -/

mutual

/-- The node at the front of the tokens. Block collections stand only where `inBlock` holds, and a
sequence that is not indented only where `unindented` holds. -/
def ofTokens (handles : List (String × String)) :
    Nat → Bool → Bool → List Token → Option (Tree × List Token)
  | 0, _, _, _ => none
  | _ + 1, _, _, .aliasOf name :: rest => some (aliasOf name, rest)
  | fuel + 1, inBlock, unindented, tokens => do
    let (properties, rest) ← properties? handles tokens
    let left : Option (Tree × List Token) :=
      if properties.anchor?.isSome || properties.tag?.isSome then some (scalar properties .plain "", rest) else none
    match rest with
    | .scalar style text :: after => (ofScalar? properties style text).map fun node => (node, after)
    | .flowSequenceStart :: after => do
      let (items, after) ← flowItems handles fuel true [] after
      some (sequence properties items, after)
    | .flowMappingStart :: after => do
      let (pairs, after) ← flowPairs handles fuel true [] after
      some (mapping properties pairs, after)
    | .blockSequenceStart :: after =>
      if inBlock then do
        let (items, after) ← blockItems handles fuel [] after
        some (sequence properties items, after)
      else left
    | .blockMappingStart :: after =>
      if inBlock then do
        let (pairs, after) ← blockPairs handles fuel [] after
        some (mapping properties pairs, after)
      else left
    | .blockEntry :: _ =>
      if unindented then do
        let (items, after) ← unindentedItems handles fuel [] rest
        some (sequence properties items, after)
      else left
    | _ => left

/-- The entries of a block sequence up to its end. -/
def blockItems (handles : List (String × String)) :
    Nat → List Tree → List Token → Option (List Tree × List Token)
  | 0, _, _ => none
  | _ + 1, items, .blockEnd :: rest => some (items.reverse, rest)
  | fuel + 1, items, .blockEntry :: rest =>
    match rest with
    | .blockEntry :: _ | .blockEnd :: _ => blockItems handles fuel (empty :: items) rest
    | _ => do
      let (item, after) ← ofTokens handles fuel true false rest
      blockItems handles fuel (item :: items) after
  | _ + 1, _, _ => none

/-- The entries of a block sequence that is indented like the mapping around it. -/
def unindentedItems (handles : List (String × String)) :
    Nat → List Tree → List Token → Option (List Tree × List Token)
  | 0, _, _ => none
  | fuel + 1, items, .blockEntry :: rest =>
    match rest with
    | .blockEntry :: _ | .key :: _ | .value :: _ | .blockEnd :: _ =>
      unindentedItems handles fuel (empty :: items) rest
    | _ => do
      let (item, after) ← ofTokens handles fuel true false rest
      unindentedItems handles fuel (item :: items) after
  | _ + 1, items, tokens => some (items.reverse, tokens)

/-- The pairs of a block mapping up to its end. -/
def blockPairs (handles : List (String × String)) :
    Nat → List (Tree × Tree) → List Token → Option (List (Tree × Tree) × List Token)
  | 0, _, _ => none
  | _ + 1, pairs, .blockEnd :: rest => some (pairs.reverse, rest)
  | fuel + 1, pairs, .key :: rest => do
    let (key, after) ← blockPart handles fuel rest
    blockValue handles fuel pairs key after
  | fuel + 1, pairs, .value :: rest => blockValue handles fuel pairs empty (.value :: rest)
  | _ + 1, _, _ => none

/-- The value of a key in a block mapping, then the other pairs. -/
def blockValue (handles : List (String × String)) :
    Nat → List (Tree × Tree) → Tree → List Token → Option (List (Tree × Tree) × List Token)
  | 0, _, _, _ => none
  | fuel + 1, pairs, key, .value :: rest => do
    let (value, after) ← blockPart handles fuel rest
    blockPairs handles fuel ((key, value) :: pairs) after
  | fuel + 1, pairs, key, tokens => blockPairs handles fuel ((key, empty) :: pairs) tokens

/-- A key or value of a block mapping, which may be left out. -/
def blockPart (handles : List (String × String)) : Nat → List Token → Option (Tree × List Token)
  | 0, _ => none
  | fuel + 1, tokens =>
    match tokens with
    | .key :: _ | .value :: _ | .blockEnd :: _ => some (empty, tokens)
    | _ => ofTokens handles fuel true true tokens

/-- The entries of a flow sequence up to its end, with a comma before all but the first. -/
def flowItems (handles : List (String × String)) :
    Nat → Bool → List Tree → List Token → Option (List Tree × List Token)
  | 0, _, _, _ => none
  | _ + 1, _, items, .flowSequenceEnd :: rest => some (items.reverse, rest)
  | fuel + 1, false, items, .flowEntry :: rest => flowItem handles fuel items rest
  | _ + 1, false, _, _ => none
  | fuel + 1, true, items, tokens => flowItem handles fuel items tokens

/-- An entry of a flow sequence, then the others. A pair is a mapping of its own. -/
def flowItem (handles : List (String × String)) :
    Nat → List Tree → List Token → Option (List Tree × List Token)
  | 0, _, _ => none
  | _ + 1, items, .flowSequenceEnd :: rest => some (items.reverse, rest)
  | fuel + 1, items, .key :: rest => do
    let (key, afterKey) ← flowPart handles fuel rest
    let (value, after) ← flowValue handles fuel afterKey
    flowItems handles fuel false (mapping ⟨none, none⟩ [(key, value)] :: items) after
  | fuel + 1, items, .value :: rest => do
    let (value, after) ← flowValue handles fuel (.value :: rest)
    flowItems handles fuel false (mapping ⟨none, none⟩ [(empty, value)] :: items) after
  | fuel + 1, items, tokens => do
    let (item, after) ← ofTokens handles fuel false false tokens
    flowItems handles fuel false (item :: items) after

/-- The pairs of a flow mapping up to its end, with a comma before all but the first. -/
def flowPairs (handles : List (String × String)) :
    Nat → Bool → List (Tree × Tree) → List Token → Option (List (Tree × Tree) × List Token)
  | 0, _, _, _ => none
  | _ + 1, _, pairs, .flowMappingEnd :: rest => some (pairs.reverse, rest)
  | fuel + 1, false, pairs, .flowEntry :: rest => flowPair handles fuel pairs rest
  | _ + 1, false, _, _ => none
  | fuel + 1, true, pairs, tokens => flowPair handles fuel pairs tokens

/-- A pair of a flow mapping, then the others. -/
def flowPair (handles : List (String × String)) :
    Nat → List (Tree × Tree) → List Token → Option (List (Tree × Tree) × List Token)
  | 0, _, _ => none
  | _ + 1, pairs, .flowMappingEnd :: rest => some (pairs.reverse, rest)
  | fuel + 1, pairs, .key :: rest => do
    let (key, afterKey) ← flowPart handles fuel rest
    let (value, after) ← flowValue handles fuel afterKey
    flowPairs handles fuel false ((key, value) :: pairs) after
  | fuel + 1, pairs, .value :: rest => do
    let (value, after) ← flowValue handles fuel (.value :: rest)
    flowPairs handles fuel false ((empty, value) :: pairs) after
  | fuel + 1, pairs, tokens => do
    let (key, after) ← ofTokens handles fuel false false tokens
    flowPairs handles fuel false ((key, empty) :: pairs) after

/-- The value after a key in a flow collection, which may be left out. -/
def flowValue (handles : List (String × String)) : Nat → List Token → Option (Tree × List Token)
  | 0, _ => none
  | fuel + 1, .value :: rest => flowPart handles fuel rest
  | _ + 1, tokens => some (empty, tokens)

/-- A key or value in a flow collection, which may be left out. -/
def flowPart (handles : List (String × String)) : Nat → List Token → Option (Tree × List Token)
  | 0, _ => none
  | fuel + 1, tokens =>
    match tokens with
    | .value :: _ | .flowEntry :: _ | .flowSequenceEnd :: _ | .flowMappingEnd :: _ =>
      some (empty, tokens)
    | _ => ofTokens handles fuel false false tokens

end

/-! ## Documents -/

/-- The directives at the front of the tokens: the handles that they declare, and the rest. A version
stands at most once, and so does each handle; `versioned` says whether there was one. -/
def directives? : Bool → List (String × String) → List Token → Option (List (String × String) × List Token)
  | versioned, handles, .directive .version :: rest => if versioned then none else directives? true handles rest
  | versioned, handles, .directive (.handle name meaning) :: rest =>
    if (handles.lookup name).isSome then none else directives? versioned ((name, meaning) :: handles) rest
  | versioned, handles, .directive .reserved :: rest => directives? versioned handles rest
  | _, handles, tokens => some (handles, tokens)

/-- Whether no other document follows the first, or none that can be seen. After the mark that ends
the document that is so where directives are not followed by the start of a document, and where the
text is invalid. Without that mark, directives and invalid text are errors, and other tokens are not:
they cannot start a document. -/
def endsDocument : List Token → Bool
  | [] => true
  | .documentEnd :: rest =>
    match rest.dropWhile (· == .documentEnd) with
    | [] | .invalid :: _ => true
    | .directive directive :: later =>
      match directives? false [] (.directive directive :: later) with
      | some (_, .documentStart :: _) => false
      | _ => true
    | _ => false
  | .documentStart :: _ | .directive _ :: _ | .invalid :: _ => false
  | _ => true

/-- The root of the document whose start is at the front of the tokens, if `explicit` holds, or is
left to be understood. -/
def root? (handles : List (String × String)) (explicit : Bool) (tokens : List Token) :
    Option (Tree × List Token) :=
  let whole := ofTokens handles (4 * tokens.length + 4) true false tokens
  match tokens with
  | [] => some (empty, [])
  | .documentEnd :: _ | .documentStart :: _ | .directive _ :: _ => if explicit then some (empty, tokens) else whole
  | _ => whole

/-- The root of the first document, which is left out if there is none. Directives need a document
start. Another document is an error. -/
def ofText? (text : String) : Option Tree := do
  let tokens := (Token.ofText text.toList).dropWhile (· == .documentEnd)
  let (handles, rest) ← directives? false [] tokens
  let (root, after) ← match rest with
    | .documentStart :: rest => root? handles true rest
    | _ => root? [] false tokens
  if endsDocument after then some root else none

end Tree

end TreeMatch.Yaml
