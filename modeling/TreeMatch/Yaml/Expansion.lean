import TreeMatch.Yaml.Tree

/-!
# Aliases of a YAML document

The nodes of a document with the nodes that its aliases name in their places, and the limits that
keep a short text from standing for a huge tree.
-/

namespace TreeMatch.Yaml

namespace Tree

/-- The anchor of a node. -/
def anchor? : Tree → Option String
  | aliasOf _ => none
  | scalar properties _ _ | sequence properties _ | mapping properties _ => properties.anchor?

/-! ## Limits -/

/-- What is counted of a document. -/
structure Extent where
  /-- How deep collections nest. -/
  depth : Nat
  aliases : Nat
  anchors : Nat

/-- The extent of two neighbours together. -/
def Extent.beside (x y : Extent) : Extent :=
  ⟨max x.depth y.depth, x.aliases + y.aliases, x.anchors + y.anchors⟩

/-- The extent of a collection with these properties around its content. -/
def Extent.around (properties : Properties) (content : Extent) : Extent :=
  { content with
    depth := content.depth + 1
    anchors := content.anchors + if properties.anchor?.isSome then 1 else 0 }

mutual

/-- The extent of a node. -/
def extent : Tree → Extent
  | aliasOf _ => ⟨0, 1, 0⟩
  | scalar properties _ _ => ⟨0, 0, if properties.anchor?.isSome then 1 else 0⟩
  | sequence properties items => (extentItems items).around properties
  | mapping properties pairs => (extentPairs pairs).around properties

/-- The extent of items. -/
def extentItems : List Tree → Extent
  | [] => ⟨0, 0, 0⟩
  | item :: rest => (extent item).beside (extentItems rest)

/-- The extent of pairs. -/
def extentPairs : List (Tree × Tree) → Extent
  | [] => ⟨0, 0, 0⟩
  | (key, value) :: rest => ((extent key).beside (extent value)).beside (extentPairs rest)

end

/-- Whether a document keeps to the limits. From a hundred aliases on there may be no more than ten for
each anchor. -/
def Extent.isAllowed (extent : Extent) : Bool :=
  extent.depth ≤ 2000 && extent.aliases ≤ 50000 && extent.anchors ≤ 50000 &&
    (extent.aliases < 100 || extent.aliases ≤ 10 * extent.anchors)

mutual

/-- The size of a node: one for a scalar, and one for either end of a collection. -/
def size : Tree → Nat
  | aliasOf _ | scalar _ _ _ => 1
  | sequence _ items => sizeItems items + 2
  | mapping _ pairs => sizePairs pairs + 2

/-- The size of items. -/
def sizeItems : List Tree → Nat
  | [] => 0
  | item :: rest => size item + sizeItems rest

/-- The size of pairs. -/
def sizePairs : List (Tree × Tree) → Nat
  | [] => 0
  | (key, value) :: rest => size key + size value + sizePairs rest

end

/-- The greatest size of all nodes together that stand in for aliases. -/
def copyLimit : Nat := 1000000

/-! ## Expansion -/

/-- What is known where an alias stands. Nodes with an anchor are numbered in the order in which they
begin. -/
structure Known where
  /-- The anchors and the numbers of their nodes, the latest first. -/
  anchors : List (String × Nat)
  /-- The numbers of the nodes that are complete, with the nodes and their sizes. -/
  nodes : List (Nat × Tree × Nat)
  /-- The size of all nodes together that have stood in for aliases. -/
  copied : Nat

namespace Known

/-- Nothing has been read. -/
def start : Known := ⟨[], [], 0⟩

/-- The number of the next node with an anchor. -/
def next (known : Known) : Nat := known.anchors.length

/-- Notes that a node with these properties has begun. -/
def begin (known : Known) (properties : Properties) : Known :=
  match properties.anchor? with
  | some name => { known with anchors := (name, known.next) :: known.anchors }
  | none => known

/-- Notes that a node is complete, if it has an anchor; `number` was the next number before it. -/
def complete (known : Known) (number : Nat) (node : Tree) : Known :=
  if node.anchor?.isSome then { known with nodes := (number, node, node.size) :: known.nodes } else known

/-- The node that an alias names: the one of that anchor that has begun last. It must be complete. -/
def resolve? (known : Known) (name : String) : Option (Tree × Known) := do
  let number ← known.anchors.lookup name
  let (node, size) ← known.nodes.lookup number
  if copyLimit < known.copied + size then none
  some (node, { known with copied := known.copied + size })

end Known

mutual

/-- The node with its aliases replaced, and what is known after it. An alias inside of the node that
it names is an error. -/
def expand (known : Known) : Tree → Option (Tree × Known)
  | aliasOf name => known.resolve? name
  | scalar properties style text =>
    let node := scalar properties style text
    some (node, (known.begin properties).complete known.next node)
  | sequence properties items => do
    let (expanded, after) ← expandItems (known.begin properties) items
    let node := sequence properties expanded
    some (node, after.complete known.next node)
  | mapping properties pairs => do
    let (expanded, after) ← expandPairs (known.begin properties) pairs
    let node := mapping properties expanded
    some (node, after.complete known.next node)

/-- The items with their aliases replaced. -/
def expandItems (known : Known) : List Tree → Option (List Tree × Known)
  | [] => some ([], known)
  | item :: rest => do
    let (first, after) ← expand known item
    let (others, last) ← expandItems after rest
    some (first :: others, last)

/-- The pairs with their aliases replaced. -/
def expandPairs (known : Known) : List (Tree × Tree) → Option (List (Tree × Tree) × Known)
  | [] => some ([], known)
  | (key, value) :: rest => do
    let (newKey, afterKey) ← expand known key
    let (newValue, afterValue) ← expand afterKey value
    let (others, last) ← expandPairs afterValue rest
    some ((newKey, newValue) :: others, last)

end

/-- The node with all aliases replaced, if it keeps to the limits. -/
def expanded? (root : Tree) : Option Tree :=
  if root.extent.isAllowed then (root.expand .start).map Prod.fst else none

end Tree

end TreeMatch.Yaml
