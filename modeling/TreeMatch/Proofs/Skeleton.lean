import TreeMatch.Proofs.Success

/-!
# Skeletons of documents

The skeleton of a document is the least tree that the document describes: values stand for themselves, literals
and exact arrays are unwrapped, and what is extracted is as little as its pattern allows. A document that
compiles matches its skeleton (`compile_matches_skeleton`), so none stands for a pattern that rejects everything.
-/

namespace TreeMatch

open Document (Plain Directive)

namespace Node

mutual

/-- What a document describes at least. -/
def skeleton : Node → Node
  | array items => array (skeletonItems items)
  | object [("$literal", value)] => value
  | object [("$exact", array items)] => array (skeletonItems items)
  | object [("$extract", string _)] => null
  | object [("$extract", string _), ("$match", inner)] => skeleton inner
  | object fields => object (skeletonFields fields)
  | null => null
  | bool value => bool value
  | number value => number value
  | string text => string text

/-- The skeletons of the elements. -/
def skeletonItems : List Node → List Node
  | [] => []
  | item :: rest => skeleton item :: skeletonItems rest

/-- The fields with the skeletons of their values. -/
def skeletonFields : List (String × Node) → List (String × Node)
  | [] => []
  | (key, value) :: rest => (key, skeleton value) :: skeletonFields rest

end

theorem skeletonItems_eq_map (items : List Node) : skeletonItems items = items.map skeleton := by
  induction items with
  | nil => rfl
  | cons item rest ih => rw [skeletonItems, ih, List.map_cons]

theorem skeletonFields_eq_map (fields : List (String × Node)) :
    skeletonFields fields = fields.map fun field => (field.1, field.2.skeleton) := by
  induction fields with
  | nil => rfl
  | cons field rest ih => rw [skeletonFields, ih, List.map_cons]

theorem skeleton_object {fields : List (String × Node)} (other : ¬ Directive fields) :
    (object fields).skeleton = object (fields.map fun field => (field.1, field.2.skeleton)) := by
  obtain ⟨noLiteral, noExact, noExtract, noExtractWith⟩ := Document.shapes_of_not_directive other
  rw [skeleton, skeletonFields_eq_map]
  all_goals assumption

theorem skeleton_array (items : List Node) : (array items).skeleton = array (items.map skeleton) := by
  rw [skeleton, skeletonItems_eq_map]

theorem skeleton_exact (items : List Node) :
    (object [("$exact", array items)]).skeleton = array (items.map skeleton) := by
  rw [skeleton, skeletonItems_eq_map]

/-- A skeleton is a tree like any other that can be matched. -/
theorem wellFormed_skeleton {node : Node} (wellFormed : node.WellFormed) : node.skeleton.WellFormed := by
  induction node with
  | null | bool value | number value | string text => exact trivial
  | array items ih =>
    have each := wellFormed_array_iff.1 wellFormed
    rw [skeleton_array, wellFormed_array_iff]
    exact List.forall_mem_map.2 fun item member => ih item member (each item member)
  | object fields ih =>
    obtain ⟨ascending, each⟩ := wellFormed_object_iff.1 wellFormed
    have parts : ∀ field ∈ fields, field.2.skeleton.WellFormed :=
      fun field member => ih field member (each field member)
    by_cases directive : Directive fields
    · cases directive with
      | literal value => exact each ("$literal", value) List.mem_cons_self
      | exact items => exact parts ("$exact", .array items) List.mem_cons_self
      | extract name => exact trivial
      | extractWith name inner => exact parts ("$match", inner) (by simp)
    · rw [skeleton_object directive, wellFormed_object_iff]
      refine ⟨?_, List.forall_mem_map.2 parts⟩
      have kept : Fields.names (fields.map fun field => (field.1, field.2.skeleton)) = Fields.names fields :=
        Fields.names_map (by intro field; rfl) fields
      rw [Fields.Ascending, kept]
      exact ascending

end Node

namespace Document

theorem itemsMet_skeleton {items : List Document} (each : ∀ item ∈ items, item.toPattern.Matches item.toNode.skeleton) :
    Pattern.ItemsMet Pattern.Matches (items.map toPattern) (.array (items.map fun item => item.toNode.skeleton)) := by
  refine ⟨_, rfl, ?_⟩
  intro i pattern listed
  obtain ⟨item, at_i, rfl⟩ := Option.map_eq_some_iff.1 (List.getElem?_map.symm.trans listed)
  refine ⟨item.toNode.skeleton, ?_, each item (List.mem_of_getElem? at_i)⟩
  rw [List.getElem?_map, at_i, Option.map_some]

theorem matches_skeleton {document : Document} (proper : document.Proper) (wellFormed : document.toNode.WellFormed) :
    document.toPattern.Matches document.toNode.skeleton := by
  induction document with
  | scalar value =>
    have same : value.skeleton = value := by cases value <;> first | rfl | exact proper.elim
    rw [toPattern, toNode, same, Pattern.matches_literal_iff]
    exact Node.contains_self wellFormed
  | array items ih =>
    have well := Node.wellFormed_array_iff.1 wellFormed
    rw [toNodeItems_eq_map, List.forall_mem_map] at well
    have each := fun item member => ih item member (properItems_iff.1 proper item member) (well item member)
    rw [toPattern, toNode, Node.skeleton_array, toPatternItems_eq_map, toNodeItems_eq_map, List.map_map,
      Pattern.matches_sequence_iff]
    exact itemsMet_skeleton each
  | mapping entries ih =>
    obtain ⟨plain, proper⟩ := proper
    obtain ⟨ascending, well⟩ := Node.wellFormed_object_iff.1 wellFormed
    have other : ¬ Directive (toNodeEntries entries) := fun directive =>
      directive.not_plain (plain_toNodeEntries_iff.2 plain)
    rw [toPattern, toNode, Node.skeleton_object other, Pattern.matches_mapping_iff, toPatternEntries_eq_map]
    refine ⟨_, rfl, List.forall_mem_map.2 ?_⟩
    intro entry member
    have listed : (entry.1, entry.2.toNode) ∈ toNodeEntries entries := by
      rw [toNodeEntries_eq_map]
      exact List.mem_map_of_mem member
    refine ⟨entry.2.toNode.skeleton, ?_, ih entry member (properEntries_iff.1 proper entry member) (well _ listed)⟩
    refine (Fields.lookup_map (by intro field; rfl) _ entry.1).trans ?_
    rw [(Fields.lookup_eq_some_iff_mem ascending).2 listed, Option.map_some]
  | literal value =>
    have well := (Node.wellFormed_object_iff.1 wellFormed).2 ("$literal", value) List.mem_cons_self
    rw [toPattern, toNode, Node.skeleton, Pattern.matches_literal_iff]
    exact Node.contains_self well
  | exact items ih =>
    have well := Node.wellFormed_array_iff.1 ((Node.wellFormed_object_iff.1 wellFormed).2 _ List.mem_cons_self)
    rw [toNodeItems_eq_map, List.forall_mem_map] at well
    have each := fun item member => ih item member (properItems_iff.1 proper item member) (well item member)
    rw [toPattern, toNode, Node.skeleton_exact, toPatternItems_eq_map, toNodeItems_eq_map, List.map_map,
      Pattern.matches_exact_iff]
    refine ⟨?_, itemsMet_skeleton each⟩
    rintro _ ⟨⟩
    rw [List.length_map, List.length_map]
  | extract name => exact Pattern.matches_extract name _
  | extractWith name inner ih =>
    have well := (Node.wellFormed_object_iff.1 wellFormed).2 ("$match", inner.toNode) (by simp)
    rw [toPattern, toNode, Node.skeleton, Pattern.matches_extractWith_iff]
    exact ih proper well

end Document

/-- Every document that compiles matches a tree: its own skeleton. -/
theorem compile_matches_skeleton {root : Node} (wellFormed : root.WellFormed) {pattern : Pattern}
    (compiled : (Document.compile root).value = .ok pattern) :
    root.skeleton.WellFormed ∧ (pattern.match? root.skeleton).isSome := by
  obtain ⟨document, proper, rfl, rfl⟩ := Document.compile_eq_ok_iff.1 compiled
  exact ⟨Node.wellFormed_skeleton wellFormed, Document.matches_skeleton proper wellFormed⟩

/-- A literal with directives in it, an exact array inside an extraction, and a bare extraction. -/
theorem compile_matches_skeleton_nested :
    let root := Node.object [
      ("a", .object [("$extract", .string "x"), ("$match", .object [("$exact", .array [
        .object [("$literal", .object [("$extract", .string "y")])], .array [.bool true]])])]),
      ("b", .object [("$extract", .string "x")])]
    root.WellFormed ∧ ∃ pattern, (Document.compile root).value = .ok pattern ∧
      root.skeleton = .object [
        ("a", .array [.object [("$extract", .string "y")], .array [.bool true]]), ("b", .null)] ∧
      root.skeleton.WellFormed ∧ (pattern.match? root.skeleton).isSome := by
  intro root
  have wellFormed : root.WellFormed := by
    simp only [root, Node.WellFormed, Node.WellFormedFields, Node.WellFormedItems, and_true, true_and]
    decide
  exact ⟨wellFormed, _, rfl, rfl, compile_matches_skeleton wellFormed rfl⟩

end TreeMatch
