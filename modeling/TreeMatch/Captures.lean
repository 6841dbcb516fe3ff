import TreeMatch.Node

/-!
# Captures

The named sub-trees that a match has bound, in ascending order of their names. A later binding of a
name takes the place of an earlier one.
-/

namespace TreeMatch

/-- Bindings of names to trees, each name at most once and in ascending order. -/
structure Captures where
  bindings : List (String × Node)
  ascending : Fields.Ascending bindings

namespace Captures

/-- No bindings. -/
def empty : Captures := ⟨[], Fields.ascending_nil⟩

instance : Inhabited Captures := ⟨empty⟩

/-- One binding. -/
def single (name : String) (value : Node) : Captures :=
  ⟨[(name, value)], Fields.ascending_singleton name value⟩

/-- Binds a name, in place of its earlier binding. -/
def insert (captures : Captures) (name : String) (value : Node) : Captures :=
  ⟨Fields.assign name value captures.bindings, captures.ascending.assign name value⟩

/-- The bindings that a list of pairs leaves when its pairs are bound one after the other. -/
def ofList (pairs : List (String × Node)) : Captures :=
  ⟨Fields.ofPairs pairs, Fields.ascending_ofPairs pairs⟩

/-- The bindings of both; where both bind a name, that of `later`. -/
def merge (captures later : Captures) : Captures :=
  ⟨Fields.assignAll later.bindings captures.bindings, captures.ascending.assignAll later.bindings⟩

/-- The tree bound to a name. -/
def get? (captures : Captures) (name : String) : Option Node := captures.bindings.lookup name

/-- Whether a name is bound. -/
def contains (captures : Captures) (name : String) : Bool := (captures.get? name).isSome

/-- The binding that a new binding of the name takes the place of, and the bindings after it. -/
def getThenInsert (captures : Captures) (name : String) (value : Node) : Option Node × Captures :=
  (captures.get? name, captures.insert name value)

/-- The number of bound names. -/
def size (captures : Captures) : Nat := captures.bindings.length

/-- Whether nothing is bound. -/
def isEmpty (captures : Captures) : Bool := captures.bindings.isEmpty

/-- The bindings in the order of their names. -/
def toList (captures : Captures) : List (String × Node) := captures.bindings

/-- The bound names in ascending order. -/
def names (captures : Captures) : List String := Fields.names captures.bindings

/-- The names that `later` binds again, in ascending order. -/
def overwritten (captures later : Captures) : List String := later.names.filter captures.contains

/-- The bindings as an object. -/
def toNode (captures : Captures) : Node := .object captures.bindings

/-- The bindings that an object lists. -/
def ofNode? : Node → Option Captures
  | .object fields => some (ofList fields)
  | _ => none

/-- Whether both bind the same names to the same trees. -/
def same (a b : Captures) : Bool := a.toNode.same b.toNode

end Captures

end TreeMatch
