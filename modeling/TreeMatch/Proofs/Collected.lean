import TreeMatch.Proofs.Extractions
import TreeMatch.Proofs.Meaning

/-!
# What a document captures

Matching binds the extractions of a document one after the other (`gathers_match?`). So its captures have
a closed form: each name stands for what its last extraction in pre-order faces, and that is found in the
candidate by the steps to the extraction without the keys of directives (`compile_collects`).
-/

namespace TreeMatch

open Document (isDirective Plain)

/-- The steps in the candidate for steps in a document, where the keys of directives are no steps. -/
def candidateSteps (steps : List String) : List String :=
  steps.filter fun step => step ≠ "$match" && step ≠ "$exact"

/-- What a candidate that matches a document has to capture. -/
structure Collects (root candidate : Node) (captures : Captures) : Prop where
  /-- The names are those of the extractions, whatever the candidate is. -/
  names : ∀ name, name ∈ captures.names ↔ ∃ steps, root.Extracts steps name
  /-- Every extraction faces a part of the candidate. -/
  faces : ∀ steps name, root.Extracts steps name →
    ∃ part, candidate.descend? (candidateSteps steps) = some part
  /-- A name is bound to the part that its last extraction faces. -/
  values : ∀ name value, captures.get? name = some value ↔
    ∃ steps, root.LastExtraction name steps ∧ candidate.descend? (candidateSteps steps) = some value

/-! ## What the extractions bind -/

theorem isDirective_indexStep (index : Nat) : isDirective (Pointer.indexStep index) = false := by
  rw [isDirective, Pointer.toList_indexStep, beq_eq_false_iff_ne]
  intro dollar
  have digit := Nat.isDigit_of_mem_toDigits (by decide) (by decide) (List.mem_of_mem_head? dollar)
  revert digit
  decide

theorem candidateSteps_cons {step : String} (plain : isDirective step = false) (steps : List String) :
    candidateSteps (step :: steps) = step :: candidateSteps steps := by
  have noMatch : step ≠ "$match" := by rintro rfl; revert plain; decide
  have noExact : step ≠ "$exact" := by rintro rfl; revert plain; decide
  simp [candidateSteps, noMatch, noExact]

namespace Extraction

/-- The name with the part of the candidate that the extraction faces. -/
def binding? (candidate : Node) (extraction : Extraction) : Option (String × Node) :=
  (candidate.descend? (candidateSteps extraction.steps)).map (Prod.mk extraction.name)

theorem binding?_eq_some_iff {candidate part : Node} {extraction : Extraction} {name : String} :
    extraction.binding? candidate = some (name, part) ↔
      extraction.name = name ∧ candidate.descend? (candidateSteps extraction.steps) = some part := by
  rw [binding?, Option.map_eq_some_iff]
  constructor
  · rintro ⟨part, leads, same⟩
    cases same
    exact ⟨rfl, leads⟩
  · rintro ⟨rfl, leads⟩
    exact ⟨part, leads, rfl⟩

theorem binding?_under {candidate part : Node} {step : String} (plain : isDirective step = false)
    (leads : candidate.child? step = some part) (extraction : Extraction) :
    (extraction.under step).binding? candidate = extraction.binding? part := by
  rw [binding?, under, candidateSteps_cons plain, Node.descend?, leads, Option.bind_some, binding?]

theorem binding?_under_exact (candidate : Node) (extraction : Extraction) :
    (extraction.under "$exact").binding? candidate = extraction.binding? candidate := rfl

theorem binding?_under_match (candidate : Node) (extraction : Extraction) :
    (extraction.under "$match").binding? candidate = extraction.binding? candidate := rfl

end Extraction

/-- The captures are what the extractions bind one after the other, and each of them binds something. -/
structure Gathers (candidate : Node) (extractions : List Extraction) (captures : Captures) : Prop where
  faces : ∀ extraction ∈ extractions, (extraction.binding? candidate).isSome
  binds : captures = .ofList (extractions.filterMap (·.binding? candidate))

namespace Gathers

variable {candidate part : Node} {first later : List Extraction} {found more : Captures}

theorem nil : Gathers candidate [] .empty := ⟨nofun, rfl⟩

theorem single (name : String) : Gathers candidate [⟨[], name⟩] (.single name candidate) := by
  exact ⟨List.forall_mem_singleton.2 rfl, rfl⟩

theorem append (gathersFirst : Gathers candidate first found) (gathersLater : Gathers candidate later more) :
    Gathers candidate (first ++ later) (found.merge more) := by
  refine ⟨List.forall_mem_append.2 ⟨gathersFirst.faces, gathersLater.faces⟩, ?_⟩
  rw [List.filterMap_append, Captures.ofList_append, ← gathersFirst.binds, ← gathersLater.binds]

/-- Extractions that bind from above what they bind in a part gather the same. -/
theorem map {change : Extraction → Extraction}
    (same : ∀ extraction, (change extraction).binding? candidate = extraction.binding? part)
    (gathers : Gathers part first found) : Gathers candidate (first.map change) found := by
  refine ⟨?_, ?_⟩
  · refine List.forall_mem_map.2 fun extraction listed => ?_
    rw [same]
    exact gathers.faces extraction listed
  · rw [gathers.binds, List.filterMap_map]
    congr 2
    funext extraction
    exact (same extraction).symm

end Gathers

namespace Document

theorem gathers_matchItems? {items : List Document}
    (each : ∀ item ∈ items, ∀ (candidate : Node) captures,
      item.toPattern.match? candidate = some captures → Gathers candidate item.extractions captures)
    {elements : List Node} {index : Nat} (enough : index + items.length ≤ elements.length) {captures : Captures}
    (matched : Pattern.matchItems? (elements.drop index) (toPatternItems items) = some captures) :
    Gathers (.array elements) (extractionsItems index items) captures := by
  induction items generalizing index captures with
  | nil =>
    rw [toPatternItems, Pattern.matchItems?_nil] at matched
    cases matched
    exact .nil
  | cons item rest ih =>
    obtain ⟨first, others⟩ := List.forall_mem_cons.1 each
    rw [List.length_cons] at enough
    have inside : index < elements.length := by omega
    rw [toPatternItems, List.drop_eq_getElem_cons inside, Pattern.matchItems?_cons,
      Option.bind_eq_some_iff] at matched
    obtain ⟨found, matchedFirst, matched⟩ := matched
    obtain ⟨more, matchedRest, rfl⟩ := Option.map_eq_some_iff.1 matched
    have leads : (Node.array elements).child? (Pointer.indexStep index) = some elements[index] := by
      rw [Node.child?_array_indexStep, List.getElem?_eq_getElem inside]
    have gathersFirst := (first _ found matchedFirst).map
      (Extraction.binding?_under (isDirective_indexStep index) leads)
    exact gathersFirst.append (ih others (by omega) matchedRest)

theorem gathers_matchEntries? {entries : List (String × Document)} (plain : Plain entries)
    (each : ∀ entry ∈ entries, ∀ (candidate : Node) captures,
      entry.2.toPattern.match? candidate = some captures → Gathers candidate entry.2.extractions captures)
    {fields : List (String × Node)} {captures : Captures}
    (matched : Pattern.matchEntries? fields (toPatternEntries entries) = some captures) :
    Gathers (.object fields) (extractionsEntries entries) captures := by
  induction entries generalizing captures with
  | nil =>
    cases matched
    exact .nil
  | cons entry rest ih =>
    obtain ⟨key, document⟩ := entry
    obtain ⟨first, others⟩ := List.forall_mem_cons.1 each
    obtain ⟨plainKey, plainRest⟩ := List.forall_mem_cons.1 plain
    rw [toPatternEntries, Pattern.matchEntries?_cons, Option.bind_eq_some_iff] at matched
    obtain ⟨value, listed, matched⟩ := matched
    obtain ⟨found, matchedFirst, matched⟩ := Option.bind_eq_some_iff.1 matched
    obtain ⟨more, matchedRest, rfl⟩ := Option.map_eq_some_iff.1 matched
    have leads : (Node.object fields).child? key = some value := listed
    have gathersFirst := (first _ found matchedFirst).map (Extraction.binding?_under plainKey leads)
    exact gathersFirst.append (ih plainRest others matchedRest)

/-- Matching a document binds its extractions one after the other. -/
theorem gathers_match? {document : Document} (proper : document.Proper) {candidate : Node}
    {captures : Captures} (matched : document.toPattern.match? candidate = some captures) :
    Gathers candidate document.extractions captures := by
  induction document generalizing candidate captures with
  | scalar value =>
    rw [toPattern, Pattern.match?_literal] at matched
    split at matched <;> cases matched
    exact .nil
  | array items ih =>
    have each := fun item member (part : Node) found =>
      @ih item member (properItems_iff.1 proper item member) part found
    rw [toPattern, Pattern.match?_sequence, Option.bind_eq_some_iff] at matched
    obtain ⟨elements, shape, matched⟩ := matched
    rw [length_toPatternItems] at matched
    split at matched
    · cases matched
    · cases candidate <;> cases shape
      exact gathers_matchItems? each (by omega) matched
  | mapping entries ih =>
    obtain ⟨plain, proper⟩ := proper
    have each := fun entry member (part : Node) found =>
      @ih entry member (properEntries_iff.1 proper entry member) part found
    rw [toPattern, Pattern.match?_mapping, Option.bind_eq_some_iff] at matched
    obtain ⟨fields, shape, matched⟩ := matched
    cases candidate <;> cases shape
    exact gathers_matchEntries? plain each matched
  | literal value =>
    rw [toPattern, Pattern.match?_literal] at matched
    split at matched <;> cases matched
    exact .nil
  | exact items ih =>
    have each := fun item member (part : Node) found =>
      @ih item member (properItems_iff.1 proper item member) part found
    rw [toPattern, Pattern.match?_predicate, Predicate.match?_exact, Option.bind_eq_some_iff] at matched
    obtain ⟨elements, shape, matched⟩ := matched
    rw [length_toPatternItems] at matched
    split at matched
    · cases candidate <;> cases shape
      have gathers : Gathers (.array elements) (extractionsItems 0 items) captures :=
        gathers_matchItems? each (by omega) matched
      exact gathers.map (Extraction.binding?_under_exact _)
    · cases matched
  | extract name =>
    rw [toPattern, Pattern.match?_predicate, Predicate.match?_extract] at matched
    cases matched
    exact .single name
  | extractWith name inner ih =>
    rw [toPattern, Pattern.match?_predicate, Predicate.match?_extractWith] at matched
    obtain ⟨found, matchedInner, rfl⟩ := Option.map_eq_some_iff.1 matched
    have gathers := (ih proper matchedInner).map (Extraction.binding?_under_match candidate)
    exact (Gathers.single name).append gathers

end Document

namespace Gathers

/-- What a name is bound to, one of its extractions faces. -/
theorem exists_extraction {candidate value : Node} {extractions : List Extraction} {captures : Captures}
    (gathers : Gathers candidate extractions captures) {name : String}
    (bound : captures.get? name = some value) : ∃ extraction ∈ extractions, extraction.name = name := by
  rw [gathers.binds, Captures.get?_ofList] at bound
  have member := List.mem_reverse.1 (Fields.mem_of_lookup bound)
  obtain ⟨extraction, listed, binds⟩ := List.mem_filterMap.1 member
  exact ⟨extraction, listed, (Extraction.binding?_eq_some_iff.1 binds).1⟩

/-- The last extraction of a name faces the part that the name is bound to. -/
theorem get?_last {candidate : Node} {before after : List Extraction} {last : Extraction} {captures : Captures}
    (gathers : Gathers candidate (before ++ last :: after) captures)
    (fresh : ∀ later ∈ after, later.name ≠ last.name) :
    ∃ part, candidate.descend? (candidateSteps last.steps) = some part ∧
      captures.get? last.name = some part := by
  obtain ⟨⟨name, part⟩, binds⟩ := Option.isSome_iff_exists.1 (gathers.faces last (by simp))
  obtain ⟨rfl, leads⟩ := Extraction.binding?_eq_some_iff.1 binds
  refine ⟨part, leads, ?_⟩
  have absent : (after.filterMap (·.binding? candidate)).reverse.lookup last.name = none := by
    rw [Fields.lookup_eq_none_iff_not_mem]
    intro listed
    obtain ⟨pair, member, same⟩ := List.mem_map.1 listed
    obtain ⟨later, inAfter, binds⟩ := List.mem_filterMap.1 (List.mem_reverse.1 member)
    exact fresh later inAfter ((Extraction.binding?_eq_some_iff.1 binds).1.trans same)
  rw [gathers.binds, Captures.get?_ofList, List.filterMap_append, List.filterMap_cons_some binds,
    List.reverse_append, List.reverse_cons, List.lookup_append, List.lookup_append, absent]
  simp

end Gathers

section

variable {root candidate : Node} {extractions : List Extraction} {rename : String → String} {captures : Captures}

/-- Of the extractions that are sent to a name, the last decides what the name is bound to. -/
theorem Lists.exists_get? (lists : Lists root extractions)
    (gathers : Gathers candidate (extractions.map (.renamed rename)) captures) {name : String}
    (sent : ∃ extraction ∈ extractions, rename extraction.name = name) :
    ∃ steps part, root.LastSentTo rename name steps ∧
      candidate.descend? (candidateSteps steps) = some part ∧ captures.get? name = some part := by
  obtain ⟨before, last, after, rfl, rfl, fresh⟩ := exists_last_extraction (fun own => rename own = name) sent
  rw [List.map_append, List.map_cons] at gathers
  obtain ⟨part, leads, bound⟩ := gathers.get?_last (List.forall_mem_map.2 fresh)
  exact ⟨last.steps, part, lists.lastSentTo rfl fresh, leads, bound⟩

theorem Lists.get?_eq_some_iff (lists : Lists root extractions)
    (gathers : Gathers candidate (extractions.map (.renamed rename)) captures) {name : String} {value : Node} :
    captures.get? name = some value ↔ ∃ steps, root.LastSentTo rename name steps ∧
      candidate.descend? (candidateSteps steps) = some value := by
  constructor
  · intro bound
    obtain ⟨_, member, sent⟩ := gathers.exists_extraction bound
    obtain ⟨extraction, listed, rfl⟩ := List.mem_map.1 member
    obtain ⟨steps, part, last, leads, same⟩ := lists.exists_get? gathers ⟨extraction, listed, sent⟩
    cases bound.symm.trans same
    exact ⟨steps, last, leads⟩
  · rintro ⟨steps, last, leads⟩
    obtain ⟨own, extracts, sent⟩ := last.extracts
    have listed := (lists.complete ⟨steps, own⟩).2 extracts
    obtain ⟨other, part, otherLast, otherLeads, bound⟩ := lists.exists_get? gathers ⟨_, listed, sent⟩
    rw [last.unique otherLast, otherLeads] at leads
    rw [bound, leads]

/-- Captures bound by all extractions of a document are its closed form. -/
theorem Lists.collects (lists : Lists root extractions) (gathers : Gathers candidate extractions captures) :
    Collects root candidate captures := by
  have renamed : Gathers candidate (extractions.map (.renamed id)) captures := by
    rw [Extraction.renamed_id, List.map_id]
    exact gathers
  refine ⟨?_, ?_, ?_⟩
  · intro name
    rw [Captures.names, ← Fields.isSome_lookup_iff, Option.isSome_iff_exists]
    constructor
    · rintro ⟨value, bound⟩
      obtain ⟨extraction, listed, rfl⟩ := gathers.exists_extraction bound
      exact ⟨extraction.steps, (lists.complete extraction).1 listed⟩
    · rintro ⟨steps, extracts⟩
      have listed := (lists.complete ⟨steps, name⟩).2 extracts
      obtain ⟨_, part, -, -, bound⟩ := lists.exists_get? renamed ⟨_, listed, rfl⟩
      exact ⟨part, bound⟩
  · intro steps name extracts
    have listed := (lists.complete ⟨steps, name⟩).2 extracts
    obtain ⟨⟨_, part⟩, binds⟩ := Option.isSome_iff_exists.1 (gathers.faces _ listed)
    exact ⟨part, (Extraction.binding?_eq_some_iff.1 binds).2⟩
  · intro name value
    simp only [lists.get?_eq_some_iff renamed, Node.lastSentTo_id_iff]

end

/-- A candidate that matches a document captures under every name that is extracted in the document,
and under no other, the part that the last extraction of that name faces. -/
theorem compile_collects {root : Node} (wellFormed : root.WellFormed) {pattern : Pattern}
    (compiled : (Document.compile root).value = .ok pattern) {candidate : Node} {captures : Captures}
    (matched : pattern.match? candidate = some captures) : Collects root candidate captures := by
  obtain ⟨document, proper, rfl, rfl⟩ := Document.compile_eq_ok_iff.1 compiled
  exact (Document.lists_extractions proper wellFormed).collects (Document.gathers_match? proper matched)

/-- The name is extracted three times: around an exact array, in it and, for the last time, beside it. What
a literal holds is not extracted. -/
theorem compile_collects_repeated :
    let root := Node.object [
      ("a", .object [("$extract", .string "x"), ("$match", .object [("$exact", .array [
        .object [("$extract", .string "x")], .object [("$extract", .string "y")],
        .object [("$literal", .object [("$extract", .string "z")])]])])]),
      ("b", .object [("$extract", .string "x"), ("$match", .array [])])]
    let candidate := Node.object [
      ("a", .array [.null, .bool true, .object [("$extract", .string "z")]]),
      ("b", .array [.bool false])]
    let captures := Captures.ofList [("y", .bool true), ("x", .array [.bool false])]
    root.WellFormed ∧ ∃ pattern, (Document.compile root).value = .ok pattern ∧
      pattern.match? candidate = some captures ∧ Collects root candidate captures := by
  intro root candidate captures
  have wellFormed : root.WellFormed := by
    simp only [root, Node.WellFormed, Node.WellFormedFields, Node.WellFormedItems, and_true, true_and]
    decide
  obtain ⟨pattern, compiled⟩ : ∃ pattern, (Document.compile root).value = .ok pattern := ⟨_, rfl⟩
  have matched : pattern.match? candidate = some captures := by
    cases compiled
    rfl
  exact ⟨wellFormed, pattern, compiled, matched, compile_collects wellFormed compiled matched⟩

end TreeMatch
