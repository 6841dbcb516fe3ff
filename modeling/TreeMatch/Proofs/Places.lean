import TreeMatch.Proofs.Node

/-!
# Places of a tree

The places of a tree are listed with the sub-trees at them. They are exactly those that steps lead to
(`mem_places_iff`), and stand in pre-order (`pairwise_places`): a tree before its parts, values by ascending
key and elements by ascending index. The order is stated on steps alone, by `Precedes`, and no place precedes
itself.
-/

namespace TreeMatch

namespace Node

/-! ## Which places there are -/

mutual

/-- Every place of a tree with the sub-tree at it, a tree before its parts. -/
def places : Node → List (List String × Node)
  | array items => ([], array items) :: placesItems 0 items
  | object fields => ([], object fields) :: placesFields fields
  | null => [([], null)]
  | bool value => [([], bool value)]
  | number value => [([], number value)]
  | string text => [([], string text)]

/-- The places in the elements, from an index on. -/
def placesItems (index : Nat) : List Node → List (List String × Node)
  | [] => []
  | item :: rest =>
    (places item).map (fun place => (Pointer.indexStep index :: place.1, place.2)) ++
      placesItems (index + 1) rest

/-- The places in the values of fields. -/
def placesFields : List (String × Node) → List (List String × Node)
  | [] => []
  | (key, value) :: rest =>
    (places value).map (fun place => (key :: place.1, place.2)) ++ placesFields rest

end

/-- Elements are visited like values under their indices. -/
theorem placesItems_eq (index : Nat) (items : List Node) :
    placesItems index items = placesFields (elements index items) := by
  induction items generalizing index with
  | nil => rfl
  | cons item rest ih => rw [placesItems, elements, placesFields, ih]

theorem places_eq (root : Node) : root.places = ([], root) :: placesFields root.parts := by
  cases root with
  | array items => rw [places, parts, placesItems_eq]
  | _ => rfl

theorem mem_placesFields {fields : List (String × Node)} {place : List String × Node} :
    place ∈ placesFields fields ↔ ∃ key value steps, (key, value) ∈ fields ∧
      (steps, place.2) ∈ value.places ∧ place.1 = key :: steps := by
  induction fields with
  | nil => simp [placesFields]
  | cons field rest ih =>
    obtain ⟨key, value⟩ := field
    rw [placesFields, List.mem_append, List.mem_map, ih]
    constructor
    · rintro (⟨⟨steps, node⟩, member, rfl⟩ | ⟨other, found, steps, later, member, shape⟩)
      · exact ⟨key, value, steps, List.mem_cons_self .., member, rfl⟩
      · exact ⟨other, found, steps, List.mem_cons_of_mem _ later, member, shape⟩
    · rintro ⟨other, found, steps, listed, member, shape⟩
      rcases List.mem_cons.1 listed with same | later
      · cases same
        exact .inl ⟨(steps, place.2), member, Prod.ext shape.symm rfl⟩
      · exact .inr ⟨other, found, steps, later, member, shape⟩

theorem nil_mem_places_iff {root node : Node} : ([], node) ∈ root.places ↔ node = root := by
  rw [places_eq, List.mem_cons, mem_placesFields]
  simp

/-- A place below the root is a place of one of the root's parts. -/
theorem cons_mem_places_iff {root : Node} (wellFormed : root.WellFormed) {step : String}
    {steps : List String} {node : Node} :
    (step :: steps, node) ∈ root.places ↔
      ∃ child, root.child? step = some child ∧ (steps, node) ∈ child.places := by
  simp only [places_eq root, List.mem_cons, Prod.mk.injEq, List.cons_ne_nil, false_and, false_or,
    mem_placesFields, child?_eq_some_iff wellFormed]
  constructor
  · rintro ⟨key, child, later, member, below, shape⟩
    cases shape
    exact ⟨child, member, below⟩
  · rintro ⟨child, member, below⟩
    exact ⟨step, child, steps, member, below, rfl⟩

/-- A place is listed exactly if its steps lead to its tree. -/
theorem mem_places_iff {root : Node} (wellFormed : root.WellFormed) {steps : List String} {node : Node} :
    (steps, node) ∈ root.places ↔ root.descend? steps = some node := by
  induction steps generalizing root with
  | nil =>
    rw [nil_mem_places_iff, descend?, Option.some_inj]
    exact eq_comm
  | cons step steps ih =>
    rw [cons_mem_places_iff wellFormed, descend?_cons_eq_some_iff]
    refine exists_congr fun child => and_congr_right fun leads => ?_
    exact ih (wellFormed.part ((child?_eq_some_iff wellFormed).1 leads))

/-! ## Their order -/

/-- The order of the parts of a tree by their steps: values by key, elements by index. -/
def Before : Node → String → String → Prop
  | object _, a, b => a < b
  | array _, a, b => ∃ i j, Pointer.index? a = some i ∧ Pointer.index? b = some j ∧ i < j
  | null, _, _ | bool _, _, _ | number _, _, _ | string _, _, _ => False

theorem Before.asymm {node : Node} {a b : String} (before : node.Before a b) : ¬ node.Before b a := by
  cases node with
  | object fields => exact String.lt_asymm before
  | array items =>
    rintro ⟨j, i, atB, atA, greater⟩
    obtain ⟨i', j', atA', atB', less⟩ := before
    cases atA.symm.trans atA'
    cases atB.symm.trans atB'
    omega
  | _ => exact before.elim

/-- One place comes before another in pre-order: it is above it, or where their steps part, its part of
the tree comes before the other. -/
inductive Precedes : Node → List String → List String → Prop where
  | above (node : Node) (step : String) (steps : List String) : Precedes node [] (step :: steps)
  | beside {node : Node} {a b : String} (before : node.Before a b) (restA restB : List String) :
      Precedes node (a :: restA) (b :: restB)
  | within {node child : Node} {step : String} (leads : node.child? step = some child)
      {restA restB : List String} (before : Precedes child restA restB) :
      Precedes node (step :: restA) (step :: restB)

/-- Of two places at most one comes before the other, and none before itself. -/
theorem Precedes.asymm {root : Node} {a b : List String} (before : Precedes root a b) :
    ¬ Precedes root b a := by
  induction before with
  | above node step steps => exact nofun
  | beside before restA restB =>
    intro after
    cases after with
    | beside after => exact before.asymm after
    | within => exact before.asymm before
  | within leads _ ih =>
    intro after
    cases after with
    | beside after => exact after.asymm after
    | within leads' after =>
      cases leads.symm.trans leads'
      exact ih after

theorem Before.ne {node : Node} {a b : String} (before : node.Before a b) : a ≠ b := by
  rintro rfl
  exact before.asymm before

theorem Precedes.ne {root : Node} {a b : List String} (before : Precedes root a b) : a ≠ b := by
  rintro rfl
  exact before.asymm before

/-- Places inside one part of a tree are ordered as in that part. -/
theorem Precedes.under {node child : Node} {step : String} (leads : node.child? step = some child)
    {places : List (List String × Node)} (ordered : places.Pairwise fun a b => Precedes child a.1 b.1) :
    (places.map fun place => (step :: place.1, place.2)).Pairwise fun a b => Precedes node a.1 b.1 :=
  List.pairwise_map.2 (ordered.imp fun before => .within leads before)

theorem pairwise_elements (all : List Node) (index : Nat) (items : List Node) :
    (elements index items).Pairwise fun a b => (array all).Before a.1 b.1 := by
  induction items generalizing index with
  | nil => exact .nil
  | cons item rest ih =>
    rw [elements, List.pairwise_cons]
    refine ⟨?_, ih (index + 1)⟩
    intro part member
    obtain ⟨i, -, step⟩ := mem_elements.1 member
    rw [step]
    exact ⟨index, index + 1 + i, Pointer.index?_eq_some_iff.2 rfl, Pointer.index?_eq_some_iff.2 rfl, by omega⟩

theorem pairwise_parts {node : Node} (wellFormed : node.WellFormed) :
    node.parts.Pairwise fun a b => node.Before a.1 b.1 := by
  cases node with
  | array items => exact pairwise_elements items 0 items
  | object fields => exact (wellFormed_object_iff.1 wellFormed).1.pairwise
  | _ => exact .nil

theorem pairwise_placesFields {node : Node} {fields : List (String × Node)}
    (leads : ∀ field ∈ fields, node.child? field.1 = some field.2)
    (ordered : fields.Pairwise fun a b => node.Before a.1 b.1)
    (each : ∀ field ∈ fields, field.2.places.Pairwise fun a b => Precedes field.2 a.1 b.1) :
    (placesFields fields).Pairwise fun a b => Precedes node a.1 b.1 := by
  induction fields with
  | nil => exact .nil
  | cons field rest ih =>
    obtain ⟨key, value⟩ := field
    obtain ⟨leadsFirst, leadsRest⟩ := List.forall_mem_cons.1 leads
    obtain ⟨first, others⟩ := List.forall_mem_cons.1 each
    obtain ⟨below, tail⟩ := List.pairwise_cons.1 ordered
    rw [placesFields, List.pairwise_append]
    refine ⟨Precedes.under leadsFirst first, ih leadsRest tail others, ?_⟩
    intro a memberA b memberB
    obtain ⟨⟨steps, node⟩, -, rfl⟩ := List.mem_map.1 memberA
    obtain ⟨later, held, more, inside, -, shape⟩ := mem_placesFields.1 memberB
    rw [shape]
    exact .beside (below (later, held) inside) steps more

/-- Places are listed in pre-order. -/
theorem pairwise_places {root : Node} (wellFormed : root.WellFormed) :
    root.places.Pairwise fun a b => Precedes root a.1 b.1 := by
  induction root using inductParts with
  | whole root ih =>
    rw [places_eq, List.pairwise_cons]
    refine ⟨?_, pairwise_placesFields ?_ (pairwise_parts wellFormed) ?_⟩
    · intro place member
      obtain ⟨key, -, steps, -, -, shape⟩ := mem_placesFields.1 member
      rw [shape]
      exact .above root key steps
    · intro part member
      exact (child?_eq_some_iff wellFormed).2 member
    · intro part member
      exact ih part member (wellFormed.part member)

end Node

end TreeMatch
