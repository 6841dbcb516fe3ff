import TreeMatch.Node
import TreeMatch.Proofs.Fields
import TreeMatch.Proofs.Pointer

/-!
# Parts of trees

Induction over trees with a hypothesis for every element and every value of a field, well-formedness
in terms of these, and the steps that lead to them: the key of a field, the index of an element, or
either of them as it stands in a pointer.
-/

namespace TreeMatch.Node

/-- Induction over trees: what holds of an array or object if it holds of all elements or values. -/
@[induction_eliminator, elab_as_elim]
theorem induct {motive : Node → Prop} (null : motive .null) (bool : ∀ value, motive (.bool value))
    (number : ∀ value, motive (.number value)) (string : ∀ text, motive (.string text))
    (array : ∀ items, (∀ item ∈ items, motive item) → motive (.array items))
    (object : ∀ fields, (∀ field ∈ fields, motive field.2) → motive (.object fields)) (node : Node) :
    motive node :=
  match node with
  | .null => null
  | .bool value => bool value
  | .number value => number value
  | .string text => string text
  | .array items => array items fun item _ => induct null bool number string array object item
  | .object fields => object fields fun field _ => induct null bool number string array object field.2
termination_by node
decreasing_by
  · have smaller := List.sizeOf_lt_of_mem ‹item ∈ items›
    simp only [Node.array.sizeOf_spec]
    omega
  · have smaller := List.sizeOf_lt_of_mem ‹field ∈ fields›
    obtain ⟨key, value⟩ := field
    simp only [Node.object.sizeOf_spec, Prod.mk.sizeOf_spec] at smaller ⊢
    omega

/-! ## Well-formed parts -/

theorem wellFormedItems_iff {items : List Node} :
    WellFormedItems items ↔ ∀ item ∈ items, item.WellFormed := by
  induction items with
  | nil => simp [WellFormedItems]
  | cons item rest ih => simp [WellFormedItems, ih]

theorem wellFormedFields_iff {fields : List (String × Node)} :
    WellFormedFields fields ↔ ∀ field ∈ fields, field.2.WellFormed := by
  induction fields with
  | nil => simp [WellFormedFields]
  | cons field rest ih =>
    obtain ⟨key, value⟩ := field
    simp [WellFormedFields, ih]

theorem wellFormed_array_iff {items : List Node} :
    (array items).WellFormed ↔ ∀ item ∈ items, item.WellFormed := by
  rw [WellFormed, wellFormedItems_iff]

theorem wellFormed_object_iff {fields : List (String × Node)} :
    (object fields).WellFormed ↔ Fields.Ascending fields ∧ ∀ field ∈ fields, field.2.WellFormed := by
  rw [WellFormed, wellFormedFields_iff]

theorem wellFormed_ofPairs {pairs : List (String × Node)} (each : ∀ pair ∈ pairs, pair.2.WellFormed) :
    (ofPairs pairs).WellFormed := by
  refine wellFormed_object_iff.2 ⟨Fields.ascending_ofPairs pairs, ?_⟩
  intro field member
  rcases Fields.mem_assignAll member with listed | held
  · exact each field listed
  · cases held

/-! ## Steps -/

/-- The value of a key, if the tree is an object that has it. -/
def field? (node : Node) (key : String) : Option Node :=
  node.fields?.bind fun fields => fields.lookup key

/-- The element at an index, if the tree is an array that reaches so far. -/
def element? (node : Node) (index : Nat) : Option Node := node.items?.bind fun items => items[index]?

/-- The part of a tree that the step of a pointer leads to. -/
def child? : Node → String → Option Node
  | array items, step => (Pointer.index? step).bind fun index => items[index]?
  | object fields, step => fields.lookup step
  | null, _ | bool _, _ | number _, _ | string _, _ => none

/-- The part of a tree that steps lead to, one after the other. -/
def descend? (node : Node) : List String → Option Node
  | [] => some node
  | step :: steps => (node.child? step).bind fun child => child.descend? steps

/-- The part of a tree that a pointer names. -/
def resolve? (root : Node) (pointer : String) : Option Node :=
  (Pointer.toSteps? pointer).bind root.descend?

/-- The elements of an array with the steps to them, from an index on. -/
def elements (index : Nat) : List Node → List (String × Node)
  | [] => []
  | item :: rest => (Pointer.indexStep index, item) :: elements (index + 1) rest

/-- The parts of a tree with the steps to them, in their order. -/
def parts : Node → List (String × Node)
  | array items => elements 0 items
  | object fields => fields
  | null | bool _ | number _ | string _ => []

theorem mem_elements {index : Nat} {items : List Node} {part : String × Node} :
    part ∈ elements index items ↔ ∃ i, items[i]? = some part.2 ∧ part.1 = Pointer.indexStep (index + i) := by
  induction items generalizing index with
  | nil => simp [elements]
  | cons item rest ih =>
    rw [elements, List.mem_cons, ih]
    constructor
    · rintro (rfl | ⟨i, at_i, step⟩)
      · exact ⟨0, rfl, rfl⟩
      · exact ⟨i + 1, at_i, by rw [step, Nat.add_right_comm]; rfl⟩
    · rintro ⟨i, at_i, step⟩
      cases i with
      | zero =>
        cases at_i
        exact .inl (Prod.ext step rfl)
      | succ i => exact .inr ⟨i, at_i, by rw [step, Nat.add_right_comm]; rfl⟩

theorem child?_array_indexStep (items : List Node) (index : Nat) :
    (array items).child? (Pointer.indexStep index) = items[index]? := by
  rw [child?, Pointer.index?_eq_some_iff.2 rfl, Option.bind_some]

theorem child?_array_eq_some_iff {items : List Node} {step : String} {child : Node} :
    (array items).child? step = some child ↔
      ∃ index, step = Pointer.indexStep index ∧ items[index]? = some child := by
  simp [child?, Option.bind_eq_some_iff, Pointer.index?_eq_some_iff]

/-- The parts of a tree are what single steps lead to. -/
theorem child?_eq_some_iff {node : Node} (wellFormed : node.WellFormed) {step : String} {child : Node} :
    node.child? step = some child ↔ (step, child) ∈ node.parts := by
  cases node with
  | array items =>
    simp only [child?_array_eq_some_iff, parts, mem_elements, Nat.zero_add]
    exact exists_congr fun index => and_comm
  | object fields => exact Fields.lookup_eq_some_iff_mem (wellFormed_object_iff.1 wellFormed).1
  | _ => simp [child?, parts]

theorem WellFormed.part {node : Node} (wellFormed : node.WellFormed) {part : String × Node}
    (member : part ∈ node.parts) : part.2.WellFormed := by
  cases node with
  | array items =>
    obtain ⟨index, listed, -⟩ := mem_elements.1 member
    exact wellFormed_array_iff.1 wellFormed part.2 (List.mem_of_getElem? listed)
  | object fields => exact (wellFormed_object_iff.1 wellFormed).2 part member
  | _ => cases member

/-- Induction over trees from the parts to the whole. -/
theorem inductParts {motive : Node → Prop}
    (whole : ∀ node, (∀ part ∈ node.parts, motive part.2) → motive node) (node : Node) : motive node := by
  induction node with
  | array items ih =>
    refine whole (array items) fun part member => ?_
    obtain ⟨index, listed, -⟩ := mem_elements.1 member
    exact ih part.2 (List.mem_of_getElem? listed)
  | object fields ih => exact whole (object fields) ih
  | _ => exact whole _ nofun

theorem descend?_cons_eq_some_iff {node part : Node} {step : String} {steps : List String} :
    node.descend? (step :: steps) = some part ↔
      ∃ child, node.child? step = some child ∧ child.descend? steps = some part := by
  rw [descend?, Option.bind_eq_some_iff]

theorem resolve?_ofSteps (root : Node) (steps : List String) :
    root.resolve? (Pointer.ofSteps steps) = root.descend? steps := by
  rw [resolve?, Pointer.toSteps?_ofSteps, Option.bind_some]

end TreeMatch.Node
