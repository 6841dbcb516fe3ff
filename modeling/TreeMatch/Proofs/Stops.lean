import TreeMatch.Proofs.Matching
import TreeMatch.Proofs.Node

/-!
# Stops of a pattern

All that a match asks on its way, in the order in which it asks, each with the place in the candidate at
which it is asked and the predicates that are applied around it. The stops depend on the pattern alone.
A leaf is a predicate that looks into no further pattern: a function or a bare extraction.
-/

namespace TreeMatch

/-! ## Places in a candidate -/

/-- A step into a tree: to the value of a key or to the element at an index. -/
inductive Step where
  | key (name : String)
  | index (i : Nat)

namespace Node

/-- The part of a tree that one step leads to. -/
def step? (node : Node) : Step → Option Node
  | .key name => node.field? name
  | .index i => node.element? i

/-- The part of a tree at the end of some steps. -/
def at? (node : Node) : List Step → Option Node
  | [] => some node
  | step :: place => (node.step? step).bind fun part => part.at? place

@[simp] theorem at?_nil (node : Node) : node.at? [] = some node := rfl

theorem at?_cons {node part : Node} {step : Step} (leads : node.step? step = some part) (place : List Step) :
    node.at? (step :: place) = part.at? place := by
  rw [at?, leads, Option.bind_some]

end Node

/-! ## Demands -/

/-- What a match asks of a part of the candidate. -/
inductive Demand where
  /-- To contain a literal. -/
  | literal (expected : Node)
  /-- To be an object. -/
  | object
  /-- To have a key. -/
  | key (name : String)
  /-- To be an array that is not shorter. -/
  | atLeast (length : Nat)
  /-- To be an array of this length. -/
  | exactly (length : Nat)
  /-- To be no reason for a predicate that looks no further to reject it. -/
  | leaf (test : Predicate)

namespace Demand

/-- Whether a part of the candidate is what is asked for. -/
def Met (node : Node) : Demand → Prop
  | literal expected => node.contains expected = true
  | object => ∃ fields, node = .object fields
  | key name => ∃ value, node.field? name = some value
  | atLeast length => ∃ elements, node = .array elements ∧ length ≤ elements.length
  | exactly length => ∃ elements, node = .array elements ∧ elements.length = length
  | leaf test => (test.run node).value ≠ .reject

/-- What is logged while it is asked: the log of the leaf predicate. -/
def log (node : Node) : Demand → List LogEntry
  | leaf test => (test.run node).log
  | _ => []

/-- The event that says what is wrong. That a predicate rejects is only said where it is applied. -/
def mismatch? (node : Node) : Demand → Option Event
  | literal expected => some (.literalMismatch expected)
  | object => some .mappingOnOther
  | key name => some (.mappingKeyMissing name)
  | atLeast length =>
    match node.items? with
    | none => some .sequenceOnOther
    | some elements => some (.sequenceTooShort length elements.length)
  | exactly length =>
    match node.items? with
    | none => some .exactOnOther
    | some elements => some (.lengthMismatch length elements.length)
  | leaf _ => none

end Demand

/-! ## Stops -/

/-- A demand at a place in the candidate, with the labels of the predicates that are applied around it,
from the innermost outwards. -/
structure Stop where
  place : List Step
  demand : Demand
  around : List String

namespace Stop

/-- A demand on the candidate itself. -/
def here (demand : Demand) : Stop := ⟨[], demand, []⟩

/-- The stop as it is seen from one step above. -/
def below (step : Step) (stop : Stop) : Stop := { stop with place := step :: stop.place }

/-- The stop inside a predicate that is applied under a label. -/
def within (label : String) (stop : Stop) : Stop := { stop with around := stop.around ++ [label] }

/-- Whether the candidate has a part at the place that is what is asked for. -/
def Passes (root : Node) (stop : Stop) : Prop := ∃ node, root.at? stop.place = some node ∧ stop.demand.Met node

/-- The leaf predicate that is called at the stop, if it is one, with its place. -/
def leaf? (stop : Stop) : Option (List Step × Predicate) :=
  match stop.demand with
  | .leaf test => some (stop.place, test)
  | _ => none

/-- What is logged at the stop before it passes or fails. -/
def log (root : Node) (stop : Stop) : List LogEntry :=
  match root.at? stop.place with
  | some node => stop.demand.log node
  | none => []

/-- What is logged when the stop fails: what is wrong, then the rejections by the predicates around. -/
def report (node : Node) (stop : Stop) : List LogEntry :=
  (stop.demand.mismatch? node).toList.map .event ++ stop.around.map fun label => .event (.predicateRejected label)

end Stop

mutual

/-- The stops of a pattern in the order of a match. A predicate that stands in a pattern is applied. -/
def Pattern.stops : Pattern → List Stop
  | .literal expected => [.here (.literal expected)]
  | .mapping entries => .here .object :: Pattern.stopsEntries entries
  | .sequence items => .here (.atLeast items.length) :: Pattern.stopsItems 0 items
  | .predicate test => (Predicate.stops test).map (.within test.label)

/-- The stops of entries: that the key is there, then those of its value, before the next entry. -/
def Pattern.stopsEntries : List (String × Pattern) → List Stop
  | [] => []
  | (key, entry) :: rest =>
    .here (.key key) :: ((Pattern.stops entry).map (.below (.key key)) ++ Pattern.stopsEntries rest)

/-- The stops of items, from an index on. -/
def Pattern.stopsItems (index : Nat) : List Pattern → List Stop
  | [] => []
  | item :: rest => (Pattern.stops item).map (.below (.index index)) ++ Pattern.stopsItems (index + 1) rest

/-- The stops of a predicate, however it is called. -/
def Predicate.stops : Predicate → List Stop
  | .mk label action => Action.stops label action

/-- The stops of an action. A predicate inside an extraction is not applied, only called. -/
def Action.stops (label : String) : Action → List Stop
  | .check judge => [.here (.leaf (.mk label (.check judge)))]
  | .adapt pattern => Pattern.stops pattern
  | .extract name => [.here (.leaf (.mk label (.extract name)))]
  | .extractWith _ (.predicate inner) => Predicate.stops inner
  | .extractWith _ pattern => Pattern.stops pattern
  | .exact items => .here (.exactly items.length) :: Pattern.stopsItems 0 items

end

/-- The leaf predicates of a pattern with their places, in the order of a match. -/
def Pattern.leaves (pattern : Pattern) : List (List Step × Predicate) := pattern.stops.filterMap Stop.leaf?

end TreeMatch
