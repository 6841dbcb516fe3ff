import TreeMatch.Proofs.Search

/-!
# Searching a part of a tree

The places inside a part of a tree stand in one block of the pre-order of the whole tree, and are the places of the
part with the steps to it before their own (`places_split`). A pattern matches at a place whatever is around it. So
what a search of the whole tree finds inside the part is one block of its reports, and apart from the pointer of the
part before each path it is what a search of the part finds (`findAll_restricts`).
-/

namespace TreeMatch

/-! ## Places of a part -/

namespace Node

/-- A place of a part, as it is seen from the whole tree. -/
def placeUnder (steps : List String) (place : List String × Node) : List String × Node := (steps ++ place.1, place.2)

theorem placesFields_append (first later : List (String × Node)) :
    placesFields (first ++ later) = placesFields first ++ placesFields later := by
  induction first with
  | nil => rfl
  | cons field first ih =>
    obtain ⟨key, value⟩ := field
    rw [List.cons_append, placesFields, placesFields, ih, List.append_assoc]

/-- The parts before and behind one that a step leads to have other steps. -/
theorem parts_split {node child : Node} (wellFormed : node.WellFormed) {step : String}
    (leads : node.child? step = some child) :
    ∃ before after, node.parts = before ++ (step, child) :: after ∧ ∀ other ∈ before ++ after, other.1 ≠ step := by
  obtain ⟨before, after, split⟩ := List.append_of_mem ((child?_eq_some_iff wellFormed).1 leads)
  have distinct : (node.parts.map Prod.fst).Nodup :=
    List.pairwise_map.2 ((pairwise_parts wellFormed).imp Before.ne)
  have moved : (node.parts.map Prod.fst).Perm (step :: (before ++ after).map Prod.fst) := by
    rw [split]
    exact List.Perm.map Prod.fst List.perm_middle
  refine ⟨before, after, split, ?_⟩
  rintro other member rfl
  exact (List.nodup_cons.1 (moved.nodup distinct)).1 (List.mem_map_of_mem member)

/-- Places in other parts do not go on from the step. -/
theorem not_prefix_of_mem_placesFields {fields : List (String × Node)} {step : String}
    (others : ∀ other ∈ fields, other.1 ≠ step) (steps : List String) {place : List String × Node}
    (member : place ∈ placesFields fields) : ¬ step :: steps <+: place.1 := by
  obtain ⟨key, value, below, listed, -, shape⟩ := mem_placesFields.1 member
  rw [shape, List.cons_prefix_cons]
  exact fun both => others (key, value) listed both.1.symm

/-- The places inside a part stand in one block, and no other place goes on from the steps to the part. -/
theorem places_split {root part : Node} (wellFormed : root.WellFormed) {steps : List String}
    (leads : root.descend? steps = some part) :
    ∃ before after, root.places = before ++ part.places.map (placeUnder steps) ++ after ∧
      ∀ place ∈ before ++ after, ¬ steps <+: place.1 := by
  induction steps generalizing root with
  | nil =>
    cases leads
    refine ⟨[], [], ?_, nofun⟩
    rw [List.nil_append, List.append_nil]
    exact (List.map_id'' (fun _ => rfl) part.places).symm
  | cons step steps ih =>
    obtain ⟨child, leadsChild, leadsPart⟩ := descend?_cons_eq_some_iff.1 leads
    obtain ⟨left, right, split, others⟩ := parts_split wellFormed leadsChild
    have wellFormedChild : child.WellFormed :=
      wellFormed.part ((child?_eq_some_iff wellFormed).1 leadsChild)
    obtain ⟨before, after, block, outside⟩ := ih wellFormedChild leadsPart
    -- The block lies among the places of the child; places of other children come before and behind these.
    refine ⟨([], root) :: placesFields left ++ before.map (placeUnder [step]),
      after.map (placeUnder [step]) ++ placesFields right, ?_, ?_⟩
    · have inside : child.places.map (placeUnder [step]) = before.map (placeUnder [step]) ++
          part.places.map (placeUnder (step :: steps)) ++ after.map (placeUnder [step]) := by
        rw [block, List.map_append, List.map_append, List.map_map]
        rfl
      have whole : root.places =
          ([], root) :: (placesFields left ++ (child.places.map (placeUnder [step]) ++ placesFields right)) := by
        rw [places_eq, split, placesFields_append]
        rfl
      rw [whole, inside]
      simp only [List.append_assoc, List.cons_append]
    · intro place member
      simp only [List.mem_append, List.mem_cons, List.mem_map] at member outside others
      rcases member with ((rfl | left) | ⟨inner, before, rfl⟩) | ⟨inner, after, rfl⟩ | right
      · exact fun starts => List.cons_ne_nil _ _ (List.prefix_nil.1 starts)
      · exact not_prefix_of_mem_placesFields (fun other listed => others other (.inl listed)) steps left
      · exact fun starts => outside inner (.inl before) (List.cons_prefix_cons.1 starts).2
      · exact fun starts => outside inner (.inr after) (List.cons_prefix_cons.1 starts).2
      · exact not_prefix_of_mem_placesFields (fun other listed => others other (.inr listed)) steps right

end Node

/-! ## Reports of a part -/

/-- A report of a search of a part, as it is seen from the whole tree. -/
def Found.under (steps : List String) (found : Found) : Found :=
  ⟨Pointer.ofSteps steps ++ found.path, found.captures⟩

namespace Pattern

theorem foundAt?_placeUnder (pattern : Pattern) (steps : List String) (place : List String × Node) :
    pattern.foundAt? (Node.placeUnder steps place) = (pattern.foundAt? place).map (Found.under steps) := by
  rw [foundAt?, foundAt?, Option.map_map, Node.placeUnder, Pointer.ofSteps_append]
  rfl

/-- What is found inside a part stands in one block, and is what a search of the part finds. -/
theorem findAll_split {root part : Node} (wellFormed : root.WellFormed) {steps : List String}
    (leads : root.descend? steps = some part) (pattern : Pattern) :
    ∃ before after,
      (pattern.findAll root).value = before ++ (pattern.findAll part).value.map (Found.under steps) ++ after ∧
      ∀ entry ∈ before ++ after, ¬ Pointer.Inside (Pointer.ofSteps steps) entry.path := by
  obtain ⟨before, after, split, outside⟩ := Node.places_split wellFormed leads
  refine ⟨before.filterMap pattern.foundAt?, after.filterMap pattern.foundAt?, ?_, ?_⟩
  · have block : (part.places.map (Node.placeUnder steps)).filterMap pattern.foundAt? =
        (part.places.filterMap pattern.foundAt?).map (Found.under steps) := by
      rw [List.filterMap_map, List.map_filterMap]
      exact congrArg (part.places.filterMap ·) (funext (pattern.foundAt?_placeUnder steps))
    rw [value_findAll, value_findAll, split, List.filterMap_append, List.filterMap_append, block]
  · intro entry member
    rw [← List.filterMap_append, List.mem_filterMap] at member
    obtain ⟨place, listed, found⟩ := member
    rw [← (foundAt?_eq_some_iff.1 found).2, Pointer.inside_ofSteps_iff]
    exact outside place listed

end Pattern

/-- In a search of the whole tree, the reports inside the pointer of a part stand in one block. Without the pointer
before their paths they are the reports of a search of the part, in their order and with their captures. -/
theorem findAll_restricts {root part : Node} (wellFormed : root.WellFormed) {steps : List String}
    (leads : root.descend? steps = some part) (pattern : Pattern) :
    ∃ before block after, (pattern.findAll root).value = before ++ block ++ after ∧
      (∀ entry ∈ block, Pointer.Inside (Pointer.ofSteps steps) entry.path) ∧
      (∀ entry ∈ before ++ after, ¬ Pointer.Inside (Pointer.ofSteps steps) entry.path) ∧
      block.map (fun entry => (Pointer.relativeTo (Pointer.ofSteps steps) entry.path, entry.captures)) =
        (pattern.findAll part).value.map fun entry => (entry.path, entry.captures) := by
  obtain ⟨before, after, split, outside⟩ := pattern.findAll_split wellFormed leads
  refine ⟨before, _, after, split, ?_, outside, ?_⟩
  · intro entry member
    obtain ⟨inner, found, rfl⟩ := List.mem_map.1 member
    obtain ⟨below, path⟩ := Pattern.exists_steps found
    rw [Found.under, ← path, ← Pointer.ofSteps_append, Pointer.inside_ofSteps_iff]
    exact List.prefix_append ..
  · rw [List.map_map]
    refine List.map_congr_left fun inner _ => ?_
    exact Prod.ext (Pointer.relativeTo_append (Pointer.ofSteps steps) inner.path) rfl

/-- Keys beside the part that start with its key, with a slash behind it or not, do not count as inside. -/
theorem findAll_restricts_beside :
    let root := Node.object [("", .bool true), ("a", .array [.bool true, .array [.bool true]]), ("a/0", .bool true),
      ("ab", .bool true)]
    let part := Node.array [.bool true, .array [.bool true]]
    let pattern := Pattern.literal (.bool true)
    root.WellFormed ∧ root.descend? ["a"] = some part ∧
      (pattern.findAll root).value.map Found.path = ["/", "/a/0", "/a/1/0", "/a~10", "/ab"] ∧
      (pattern.findAll part).value.map Found.path = ["/0", "/1/0"] ∧
      ∃ before block after, (pattern.findAll root).value = before ++ block ++ after ∧
        (∀ entry ∈ block, Pointer.Inside (Pointer.ofSteps ["a"]) entry.path) ∧
        (∀ entry ∈ before ++ after, ¬ Pointer.Inside (Pointer.ofSteps ["a"]) entry.path) ∧
        block.map (fun entry => (Pointer.relativeTo (Pointer.ofSteps ["a"]) entry.path, entry.captures)) =
          (pattern.findAll part).value.map fun entry => (entry.path, entry.captures) := by
  intro root part pattern
  have wellFormed : root.WellFormed := by
    simp only [root, Node.WellFormed, Node.WellFormedFields, Node.WellFormedItems, and_self, and_true]
    decide
  have leads : root.descend? ["a"] = some part := rfl
  exact ⟨wellFormed, leads, by decide +kernel, by decide +kernel, findAll_restricts wellFormed leads pattern⟩

end TreeMatch
