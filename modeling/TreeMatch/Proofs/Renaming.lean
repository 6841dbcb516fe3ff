import Mathlib.Data.List.Basic
import Mathlib.Data.List.Nodup
import Mathlib.Data.Set.Function
import TreeMatch.Proofs.Collected
import TreeMatch.Proofs.Success

/-!
# Renamed extractions

The names of extractions decide under which names a match captures, and nothing else. `Node.renamed` changes
the names in a tree wherever reading comes to them. The tree is rejected for the same error as before or
compiles as before, the same candidates match, and what they capture goes by the new names
(`compile_renamed`). Where names are sent to one, the last extraction in pre-order decides.
-/

namespace TreeMatch

open Document (isDirective Plain Directive readAt readAt_plain readAt_faulty directiveError)

/-- Whether reading goes from a mapping with the given keys into the value of one of them. -/
def Document.readsInto (keys : List String) (key : String) (value : Node) : Bool :=
  if keys.any isDirective then
    !keys.contains "$literal" &&
      (key == "$exact" && value.items?.isSome || key == "$match" && keys.contains "$extract")
  else true

namespace Node

/-- A text under the name that a renaming gives it; other trees stay. -/
def renamedText (rename : String → String) : Node → Node
  | string text => string (rename text)
  | node => node

mutual

/-- A document with other names at the extractions that reading comes to. -/
def renamed (rename : String → String) : Node → Node
  | array items => array (renamedItems rename items)
  | object fields => object (renamedFields rename (Fields.names fields) fields)
  | null => null
  | bool value => bool value
  | number value => number value
  | string text => string text

/-- The elements with other names at their extractions. -/
def renamedItems (rename : String → String) : List Node → List Node
  | [] => []
  | item :: rest => renamed rename item :: renamedItems rename rest

/-- The fields of a mapping that has the given keys, with other names. -/
def renamedFields (rename : String → String) (keys : List String) : List (String × Node) → List (String × Node)
  | [] => []
  | field :: rest => (field.1, renamedValue rename keys field) :: renamedFields rename keys rest

/-- The value of a field of such a mapping: reading goes into it, or it is the name of an extraction, or it stays. -/
def renamedValue (rename : String → String) (keys : List String) : String × Node → Node
  | (key, value) =>
    if Document.readsInto keys key value then renamed rename value
    else if key = "$extract" then renamedText rename value
    else value

end

variable {rename : String → String}

theorem renamedItems_eq_map (items : List Node) : renamedItems rename items = items.map (renamed rename) := by
  induction items with
  | nil => rfl
  | cons item rest ih => rw [renamedItems, ih, List.map_cons]

theorem renamedFields_eq_map (keys : List String) (fields : List (String × Node)) :
    renamedFields rename keys fields = fields.map fun field => (field.1, renamedValue rename keys field) := by
  induction fields with
  | nil => rfl
  | cons field rest ih => rw [renamedFields, ih, List.map_cons]

@[simp] theorem names_renamedFields (keys : List String) (fields : List (String × Node)) :
    Fields.names (renamedFields rename keys fields) = Fields.names fields := by
  rw [renamedFields_eq_map]
  exact Fields.names_map (by intro field; rfl) fields

theorem lookup_renamedFields (keys : List String) (fields : List (String × Node)) (key : String) :
    (renamedFields rename keys fields).lookup key =
      (fields.lookup key).map fun value => renamedValue rename keys (key, value) := by
  rw [renamedFields_eq_map]
  exact Fields.lookup_map (by intro field; rfl) fields key

theorem renamed_array (items : List Node) : (array items).renamed rename = array (items.map (renamed rename)) := by
  rw [renamed, renamedItems_eq_map]

theorem renamedFields_plain {fields : List (String × Node)} (plain : Plain fields) :
    renamedFields rename (Fields.names fields) fields = fields.map fun field => (field.1, field.2.renamed rename) := by
  have into (key : String) (value : Node) :
      renamedValue rename (Fields.names fields) (key, value) = value.renamed rename := by
    rw [renamedValue, Document.readsInto, Document.plain_iff_any.1 plain]
    rfl
  simp only [renamedFields_eq_map, into]

theorem elements_map (change : Node → Node) (index : Nat) (items : List Node) :
    elements index (items.map change) = (elements index items).map fun part => (part.1, change part.2) := by
  induction items generalizing index with
  | nil => rfl
  | cons item rest ih => rw [List.map_cons, elements, ih, elements, List.map_cons]

theorem parts_renamed_array (items : List Node) :
    ((array items).renamed rename).parts = (array items).parts.map fun part => (part.1, part.2.renamed rename) := by
  rw [renamed_array, parts, elements_map, parts]

/-! ## Where names stand -/

/-- Renaming keeps which trees are arrays. -/
theorem items?_renamedValue (keys : List String) (key : String) (value : Node) :
    (renamedValue rename keys (key, value)).items?.isSome = value.items?.isSome := by
  rw [renamedValue]
  split
  · cases value <;> rfl
  · split
    · cases value <;> rfl
    · rfl

theorem readsInto_renamedValue (keys : List String) (key : String) (value : Node) :
    Document.readsInto keys key (renamedValue rename keys (key, value)) = Document.readsInto keys key value := by
  rw [Document.readsInto, Document.readsInto, items?_renamedValue]

end Node

/-- Reading goes into values of plain mappings and of some keys of directives. -/
theorem enters_object_iff {fields : List (String × Node)} {key : String} {value : Node} :
    (Node.object fields).Enters key value ↔
      fields.lookup key = some value ∧ Document.readsInto (Fields.names fields) key value = true := by
  constructor
  · intro enters
    cases enters with
    | value plain listed => exact ⟨listed, by rw [Document.readsInto, Document.plain_iff_any.1 plain]; rfl⟩
    | exact outside listed =>
      refine ⟨listed, ?_⟩
      rw [Document.readsInto]
      simp [outside, Node.items?]
    | inner outside named listed =>
      refine ⟨listed, ?_⟩
      rw [Document.readsInto]
      simp [outside, named]
  · rintro ⟨listed, into⟩
    rw [Document.readsInto] at into
    split at into
    · simp only [Bool.and_eq_true, Bool.or_eq_true, Bool.not_eq_true', beq_iff_eq, List.contains_eq_mem,
        decide_eq_false_iff_not, decide_eq_true_eq] at into
      obtain ⟨outside, ⟨rfl, isArray⟩ | ⟨rfl, named⟩⟩ := into
      · cases value <;> first | exact .exact outside listed | cases isArray
      · exact .inner outside named listed
    · rename_i plain
      exact .value (Document.plain_iff_any.2 (Bool.not_eq_true _ ▸ plain)) listed

namespace Node

variable {rename : String → String}

/-- Reading goes into the renamed parts of a tree. -/
theorem enters_renamed_iff {node : Node} {step : String} {part : Node} :
    (node.renamed rename).Enters step part ↔ ∃ child, node.Enters step child ∧ child.renamed rename = part := by
  cases node with
  | array items =>
    rw [renamed_array, enters_array_iff, ← renamed_array, parts_renamed_array, List.mem_map]
    constructor
    · rintro ⟨⟨step, child⟩, member, ⟨⟩⟩
      exact ⟨child, enters_array_iff.2 member, rfl⟩
    · rintro ⟨child, enters, rfl⟩
      exact ⟨(step, child), enters_array_iff.1 enters, rfl⟩
  | object fields =>
    simp only [renamed, enters_object_iff, names_renamedFields, lookup_renamedFields, Option.map_eq_some_iff]
    constructor
    · rintro ⟨⟨child, listed, rfl⟩, into⟩
      rw [readsInto_renamedValue] at into
      exact ⟨child, ⟨listed, into⟩, by rw [renamedValue, if_pos into]⟩
    · rintro ⟨child, ⟨listed, into⟩, rfl⟩
      have same : renamedValue rename (Fields.names fields) (step, child) = child.renamed rename := by
        rw [renamedValue, if_pos into]
      exact ⟨⟨child, listed, same⟩, by rw [← same, readsInto_renamedValue, into]⟩
  | null | bool value | number value | string text =>
    constructor
    · intro enters
      cases enters
    · rintro ⟨child, enters, -⟩
      cases enters

theorem renamedText_eq_string_iff {value : Node} {name : String} :
    value.renamedText rename = string name ↔ ∃ own, value = string own ∧ rename own = name := by
  cases value <;> simp [renamedText]

theorem renamedValue_extract {keys : List String} (listed : "$extract" ∈ keys) (value : Node) :
    renamedValue rename keys ("$extract", value) = value.renamedText rename := by
  have directive : keys.any isDirective = true := List.any_eq_true.2 ⟨_, listed, by decide⟩
  have outside : Document.readsInto keys "$extract" value = false := by
    rw [Document.readsInto, if_pos directive]
    simp
  rw [renamedValue, outside]
  rfl

/-- What a tree extracts, the renamed tree extracts at the same places under the new names. -/
theorem extracts_renamed_iff {node : Node} {steps : List String} {name : String} :
    (node.renamed rename).Extracts steps name ↔ ∃ own, node.Extracts steps own ∧ rename own = name := by
  induction steps generalizing node with
  | nil =>
    simp only [extracts_nil_iff]
    cases node with
    | object fields =>
      simp only [renamed, object.injEq, exists_eq_left', lookup_renamedFields, Option.map_eq_some_iff]
      constructor
      · rintro ⟨value, listed, same⟩
        rw [renamedValue_extract (Fields.mem_names_of_lookup listed), renamedText_eq_string_iff] at same
        obtain ⟨own, rfl, rfl⟩ := same
        exact ⟨own, listed, rfl⟩
      · rintro ⟨own, listed, rfl⟩
        exact ⟨string own, listed, renamedValue_extract (Fields.mem_names_of_lookup listed) _⟩
    | _ => simp [renamed]
  | cons step steps ih =>
    simp only [extracts_cons_iff, enters_renamed_iff]
    constructor
    · rintro ⟨_, ⟨child, enters, rfl⟩, extracts⟩
      obtain ⟨own, extracts, same⟩ := ih.1 extracts
      exact ⟨own, ⟨child, enters, extracts⟩, same⟩
    · rintro ⟨own, ⟨child, enters, extracts⟩, same⟩
      exact ⟨child.renamed rename, ⟨child, enters, rfl⟩, ih.2 ⟨own, extracts, same⟩⟩

/-! ## Directives -/

theorem renamed_literal (value : Node) :
    (object [("$literal", value)]).renamed rename = object [("$literal", value)] := by
  have directive : isDirective "$literal" = true := by decide
  simp [renamed, renamedFields, renamedValue, Document.readsInto, Fields.names, directive]

theorem renamed_exact (items : List Node) :
    (object [("$exact", array items)]).renamed rename = object [("$exact", (array items).renamed rename)] := by
  have directive : isDirective "$exact" = true := by decide
  simp [renamed, renamedFields, renamedValue, Document.readsInto, Fields.names, directive, items?]

theorem renamed_extract (name : String) :
    (object [("$extract", string name)]).renamed rename = object [("$extract", string (rename name))] := by
  have directive : isDirective "$extract" = true := by decide
  simp [renamed, renamedFields, renamedValue, Document.readsInto, Fields.names, directive, renamedText]

theorem renamed_extractWith (name : String) (inner : Node) :
    (object [("$extract", string name), ("$match", inner)]).renamed rename =
      object [("$extract", string (rename name)), ("$match", inner.renamed rename)] := by
  have directive : isDirective "$extract" = true := by decide
  simp [renamed, renamedFields, renamedValue, Document.readsInto, Fields.names, directive, renamedText]

end Node

/-! ## Rejection -/

namespace Document

variable {rename : String → String}

/-- Renaming makes no directive of other mappings. -/
theorem Directive.of_renamed {fields : List (String × Node)}
    (directive : Directive (Node.renamedFields rename (Fields.names fields) fields)) : Directive fields := by
  generalize written : Node.renamedFields rename (Fields.names fields) fields = other at directive
  rw [Node.renamedFields_eq_map] at written
  cases directive with
  | literal _ =>
    obtain ⟨⟨key, value⟩, rfl, same⟩ := List.map_eq_singleton_iff.1 written
    cases same
    exact .literal value
  | exact items =>
    obtain ⟨⟨key, value⟩, rfl, same⟩ := List.map_eq_singleton_iff.1 written
    obtain ⟨rfl, same⟩ := Prod.mk.inj same
    have isArray := congrArg (fun node => node.items?.isSome) same
    rw [Node.items?_renamedValue] at isArray
    cases value <;> first | exact .exact _ | cases isArray
  | extract name =>
    obtain ⟨⟨key, value⟩, rfl, same⟩ := List.map_eq_singleton_iff.1 written
    obtain ⟨rfl, same⟩ := Prod.mk.inj same
    rw [Node.renamedValue_extract (by simp [Fields.names]), Node.renamedText_eq_string_iff] at same
    obtain ⟨own, rfl, -⟩ := same
    exact .extract own
  | extractWith name _ =>
    obtain ⟨⟨key, value⟩, rest, rfl, same, written⟩ := List.map_eq_cons_iff.1 written
    obtain ⟨⟨next, inner⟩, rfl, sameNext⟩ := List.map_eq_singleton_iff.1 written
    obtain ⟨rfl, same⟩ := Prod.mk.inj same
    obtain ⟨rfl, -⟩ := Prod.mk.inj sameNext
    rw [Node.renamedValue_extract (by simp [Fields.names]), Node.renamedText_eq_string_iff] at same
    obtain ⟨own, rfl, -⟩ := same
    exact .extractWith own inner

/-- The first fault among parts stays if their own faults do. -/
theorem firstFault_renamed {parts : List (String × Node)} (each : ∀ part ∈ parts, ∀ steps,
    fault? (readAt steps (part.2.renamed rename)) = fault? (readAt steps part.2)) (steps : List String) :
    ((parts.map fun part => (part.1, part.2.renamed rename)).findSome? fun part =>
      fault? (readAt (steps ++ [part.1]) part.2)) =
      parts.findSome? fun part => fault? (readAt (steps ++ [part.1]) part.2) := by
  induction parts with
  | nil => rfl
  | cons part rest ih =>
    obtain ⟨first, others⟩ := List.forall_mem_cons.1 each
    rw [List.map_cons, List.findSome?_cons, List.findSome?_cons, ih others, first]

/-- A renamed tree is rejected for the same error. -/
theorem fault?_readAt_renamed (node : Node) (steps : List String) :
    fault? (readAt steps (node.renamed rename)) = fault? (readAt steps node) := by
  induction node generalizing steps with
  | null | bool value | number value | string text => rfl
  | array items ih =>
    have each : ∀ part ∈ Node.elements 0 items, ∀ steps,
        fault? (readAt steps (part.2.renamed rename)) = fault? (readAt steps part.2) := by
      intro part member steps
      obtain ⟨index, listed, -⟩ := Node.mem_elements.1 member
      exact ih part.2 (List.mem_of_getElem? listed) steps
    rw [Node.renamed_array, readAt, readAt, fault?_map, fault?_map, fault?_readItems, fault?_readItems,
      Node.elements_map, firstFault_renamed each]
  | object fields ih =>
    -- A mapping that is neither a directive nor plain is rejected for its keys alone, and they stay.
    by_cases directive : Directive fields
    · cases directive with
      | literal value => rw [Node.renamed_literal]
      | exact items =>
        have inside := ih ("$exact", .array items) (List.mem_singleton_self _) (steps ++ ["$exact"])
        rw [Node.renamed_array] at inside
        rw [Node.renamed_exact, Node.renamed_array, fault?_readAt_directive steps (.exact _),
          fault?_readAt_directive steps (.exact _)]
        simp only [directiveParts, List.findSome?_cons, List.findSome?_nil, inside]
      | extract name =>
        rw [Node.renamed_extract]
        rfl
      | extractWith name inner =>
        rw [Node.renamed_extractWith, readAt, readAt, fault?_map, fault?_map]
        exact ih ("$match", inner) (by simp) (steps ++ ["$match"])
    · by_cases plain : Plain fields
      · have plainRenamed : Plain (fields.map fun field => (field.1, field.2.renamed rename)) := by
          rw [← Node.renamedFields_plain plain, Plain, Node.names_renamedFields]
          exact plain
        rw [Node.renamed, Node.renamedFields_plain plain, readAt_plain steps plainRenamed, readAt_plain steps plain,
          fault?_map, fault?_map, fault?_readFields, fault?_readFields, firstFault_renamed ih]
      · have mixed : ¬ Plain (Node.renamedFields rename (Fields.names fields) fields) := by
          rw [Plain, Node.names_renamedFields]
          exact plain
        rw [Node.renamed, readAt_faulty steps mixed fun other => directive (.of_renamed other),
          readAt_faulty steps plain directive, directiveError, directiveError, Node.names_renamedFields]

/-! ## Matching -/

mutual

/-- The document with other names. -/
def renamed (rename : String → String) : Document → Document
  | scalar value => scalar value
  | array items => array (renamedItems rename items)
  | mapping entries => mapping (renamedEntries rename entries)
  | literal value => literal value
  | exact items => exact (renamedItems rename items)
  | extract name => extract (rename name)
  | extractWith name inner => extractWith (rename name) (renamed rename inner)

/-- The items with other names. -/
def renamedItems (rename : String → String) : List Document → List Document
  | [] => []
  | item :: rest => renamed rename item :: renamedItems rename rest

/-- The entries whose documents have other names. -/
def renamedEntries (rename : String → String) : List (String × Document) → List (String × Document)
  | [] => []
  | (key, entry) :: rest => (key, renamed rename entry) :: renamedEntries rename rest

end

theorem renamedItems_eq_map (items : List Document) : renamedItems rename items = items.map (renamed rename) := by
  induction items with
  | nil => rfl
  | cons item rest ih => rw [renamedItems, ih, List.map_cons]

theorem renamedEntries_eq_map (entries : List (String × Document)) :
    renamedEntries rename entries = entries.map fun entry => (entry.1, entry.2.renamed rename) := by
  induction entries with
  | nil => rfl
  | cons entry rest ih => rw [renamedEntries, ih, List.map_cons]

theorem proper_renamed {document : Document} (proper : document.Proper) : (document.renamed rename).Proper := by
  induction document with
  | scalar value | literal value | extract name => exact proper
  | array items ih | exact items ih =>
    rw [renamed, Proper, renamedItems_eq_map, properItems_iff, List.forall_mem_map]
    exact fun item member => ih item member (properItems_iff.1 proper item member)
  | mapping entries ih =>
    obtain ⟨plain, proper⟩ := proper
    have kept : Fields.names (renamedEntries rename entries) = Fields.names entries := by
      rw [renamedEntries_eq_map]
      exact Fields.names_map (by intro entry; rfl) entries
    rw [renamed, Proper, Plain, kept, renamedEntries_eq_map, properEntries_iff, List.forall_mem_map]
    exact ⟨plain, fun entry member => ih entry member (properEntries_iff.1 proper entry member)⟩
  | extractWith name inner ih => exact ih proper

/-- Renaming a document renames its tree. -/
theorem toNode_renamed {document : Document} (proper : document.Proper) :
    (document.renamed rename).toNode = document.toNode.renamed rename := by
  induction document with
  | scalar value => cases value <;> first | rfl | exact proper.elim
  | array items ih =>
    have each := fun item member => ih item member (properItems_iff.1 proper item member)
    rw [renamed, toNode, toNode, Node.renamed_array, renamedItems_eq_map, toNodeItems_eq_map, toNodeItems_eq_map,
      List.map_map, List.map_map]
    exact congrArg Node.array (List.map_congr_left each)
  | mapping entries ih =>
    obtain ⟨plain, proper⟩ := proper
    have each := fun entry member => ih entry member (properEntries_iff.1 proper entry member)
    rw [renamed, toNode, toNode, Node.renamed, Node.renamedFields_plain (plain_toNodeEntries_iff.2 plain),
      renamedEntries_eq_map, toNodeEntries_eq_map, toNodeEntries_eq_map, List.map_map, List.map_map]
    refine congrArg Node.object (List.map_congr_left fun entry member => ?_)
    exact Prod.ext rfl (each entry member)
  | literal value => rw [renamed, toNode, Node.renamed_literal]
  | exact items ih =>
    have each := fun item member => ih item member (properItems_iff.1 proper item member)
    rw [renamed, toNode, toNode, Node.renamed_exact, Node.renamed_array, renamedItems_eq_map, toNodeItems_eq_map,
      toNodeItems_eq_map, List.map_map, List.map_map]
    exact congrArg (fun items => Node.object [("$exact", .array items)]) (List.map_congr_left each)
  | extract name => rw [renamed, toNode, toNode, Node.renamed_extract]
  | extractWith name inner ih => rw [renamed, toNode, toNode, Node.renamed_extractWith, ih proper]

/-- Whether a candidate matches does not depend on names. -/
theorem matches_renamed_iff (document : Document) (candidate : Node) :
    (document.renamed rename).toPattern.Matches candidate ↔ document.toPattern.Matches candidate := by
  induction document generalizing candidate with
  | scalar value | literal value => rfl
  | array items ih =>
    rw [renamed, toPattern, toPattern, Pattern.matches_sequence_iff, Pattern.matches_sequence_iff,
      renamedItems_eq_map, toPatternItems_eq_map, toPatternItems_eq_map, List.map_map]
    exact Pattern.itemsMet_map_congr (fun item => (item.renamed rename).toPattern) toPattern ih candidate
  | mapping entries ih =>
    rw [renamed, toPattern, toPattern, Pattern.matches_mapping_iff, Pattern.matches_mapping_iff,
      renamedEntries_eq_map, toPatternEntries_eq_map, toPatternEntries_eq_map, List.map_map]
    exact Pattern.entriesMet_map_congr (fun entry => (entry.renamed rename).toPattern) toPattern ih candidate
  | exact items ih =>
    rw [renamed, toPattern, toPattern, Pattern.matches_exact_iff, Pattern.matches_exact_iff,
      renamedItems_eq_map, toPatternItems_eq_map, toPatternItems_eq_map, List.map_map, List.length_map,
      List.length_map]
    refine and_congr_right fun _ => ?_
    exact Pattern.itemsMet_map_congr (fun item => (item.renamed rename).toPattern) toPattern ih candidate
  | extract name => exact iff_of_true (Pattern.matches_extract _ _) (Pattern.matches_extract _ _)
  | extractWith name inner ih =>
    rw [renamed, toPattern, toPattern, Pattern.matches_extractWith_iff, Pattern.matches_extractWith_iff]
    exact ih candidate

/-! ## Captures -/

theorem name?_renamed (document : Document) : (document.renamed rename).name? = document.name?.map rename := by
  cases document <;> rfl

theorem elements_renamed (index : Nat) (items : List Document) :
    elements index (renamedItems rename items) =
      (elements index items).map fun part => (part.1, part.2.renamed rename) := by
  induction items generalizing index with
  | nil => rfl
  | cons item rest ih => rw [renamedItems, elements, ih, elements, List.map_cons]

theorem parts_renamed (document : Document) :
    (document.renamed rename).parts = document.parts.map fun part => (part.1, part.2.renamed rename) := by
  cases document with
  | array items => exact elements_renamed 0 items
  | mapping entries => exact renamedEntries_eq_map entries
  | exact items =>
    have inside : (array items).renamed rename = array (renamedItems rename items) := rfl
    rw [renamed, parts, parts, List.map_singleton, inside]
  | _ => rfl

/-- The extractions of a renamed document are those of the document under their new names. -/
theorem extractions_renamed (document : Document) :
    (document.renamed rename).extractions = document.extractions.map (.renamed rename) := by
  induction document using inductParts with
  | whole document ih =>
    rw [extractions_eq, name?_renamed, parts_renamed, extractions_eq document, List.map_append]
    congr 1
    · cases document.name? <;> rfl
    · rw [extractionsIn, extractionsIn, List.flatMap_map, List.map_flatMap]
      refine List.flatMap_congr fun part member => ?_
      rw [ih part member, List.map_map, List.map_map]
      rfl

end Document

/-- The names under which reading comes to extractions. -/
def Node.extractedNames (root : Node) : Set String := {name | ∃ steps, root.Extracts steps name}

/-- What the same candidate captures with a document and with the renamed document. -/
structure Renames (root : Node) (rename : String → String) (candidate : Node) (captures others : Captures) : Prop where
  /-- If no two names are sent to one, the bindings are those of before under the new names. -/
  apart : Set.InjOn rename root.extractedNames →
    others.toList.Perm (captures.toList.map fun binding => (rename binding.1, binding.2))
  /-- In any case the new name of an extraction is bound. -/
  bound : ∀ name ∈ root.extractedNames, (others.get? (rename name)).isSome
  /-- A name is bound to what the last extraction faces whose name is sent there. -/
  values : ∀ name value, others.get? name = some value ↔
    ∃ steps, root.LastSentTo rename name steps ∧ candidate.descend? (candidateSteps steps) = some value

theorem Node.lastSentTo_iff_of_injOn {root : Node} {rename : String → String}
    (apart : Set.InjOn rename root.extractedNames) {name : String} {steps : List String} :
    root.LastSentTo rename name steps ↔ ∃ own, root.LastSentTo id own steps ∧ rename own = name := by
  constructor
  · rintro ⟨⟨own, extracts, sent⟩, last⟩
    refine ⟨own, ⟨⟨own, extracts, rfl⟩, ?_⟩, sent⟩
    rintro other _ also rfl
    exact last other _ also sent
  · rintro ⟨own, ⟨⟨_, extracts, rfl⟩, last⟩, sent⟩
    refine ⟨⟨_, extracts, sent⟩, ?_⟩
    intro other otherOwn also alsoSent
    exact last other otherOwn also (apart ⟨other, also⟩ ⟨steps, extracts⟩ (alsoSent.trans sent.symm))

section

variable {root candidate : Node} {extractions : List Extraction} {rename : String → String} {captures others : Captures}

theorem Lists.renames (lists : Lists root extractions) (gathers : Gathers candidate extractions captures)
    (renamed : Gathers candidate (extractions.map (.renamed rename)) others) :
    Renames root rename candidate captures others := by
  have values : ∀ name value, others.get? name = some value ↔
      ∃ steps, root.LastSentTo rename name steps ∧ candidate.descend? (candidateSteps steps) = some value :=
    fun _ _ => lists.get?_eq_some_iff renamed
  have bound : ∀ name ∈ root.extractedNames, (others.get? (rename name)).isSome := by
    rintro name ⟨steps, extracts⟩
    have listed := (lists.complete ⟨steps, name⟩).2 extracts
    obtain ⟨_, part, -, -, found⟩ := lists.exists_get? renamed ⟨_, listed, rfl⟩
    exact Option.isSome_iff_exists.2 ⟨part, found⟩
  refine ⟨fun apart => ?_, bound, values⟩
  -- What is captured under the own names is the case of the renaming that sends each name to itself.
  rw [← List.map_id extractions, ← Extraction.renamed_id] at gathers
  have own : ∀ name value, (name, value) ∈ captures.bindings ↔
      ∃ steps, root.LastSentTo id name steps ∧ candidate.descend? (candidateSteps steps) = some value :=
    fun _ _ => Captures.get?_eq_some_iff.symm.trans (lists.get?_eq_some_iff gathers)
  have extracted : ∀ binding ∈ captures.bindings, binding.1 ∈ root.extractedNames := by
    intro binding member
    obtain ⟨steps, ⟨⟨_, extracts, rfl⟩, -⟩, -⟩ := (own binding.1 binding.2).1 member
    exact ⟨steps, extracts⟩
  rw [Captures.toList, Captures.toList]
  refine (List.perm_ext_iff_of_nodup others.ascending.distinct ?_).2 ?_
  · refine captures.ascending.distinct.map_on ?_
    intro a memberA b memberB same
    obtain ⟨sameName, sameValue⟩ := Prod.mk.inj same
    exact Prod.ext (apart (extracted a memberA) (extracted b memberB) sameName) sameValue
  · rintro ⟨name, value⟩
    rw [← Captures.get?_eq_some_iff, values]
    simp only [Node.lastSentTo_iff_of_injOn apart, List.mem_map, Prod.exists, own, Prod.mk.injEq]
    constructor
    · rintro ⟨steps, ⟨own, last, rfl⟩, leads⟩
      exact ⟨own, value, ⟨steps, last, leads⟩, rfl, rfl⟩
    · rintro ⟨own, _, ⟨steps, last, leads⟩, rfl, rfl⟩
      exact ⟨steps, ⟨own, last, rfl⟩, leads⟩

end

/-- Renaming the extractions of a document keeps whether it compiles, with the error if it does not, and which
candidates match it. Captures go by the new names. -/
theorem compile_renamed {root : Node} (wellFormed : root.WellFormed) (rename : String → String) :
    (∀ steps name, (root.renamed rename).Extracts steps name ↔ ∃ own, root.Extracts steps own ∧ rename own = name) ∧
    ((∃ other, (Document.compile (root.renamed rename)).value = .ok other) ↔
      ∃ pattern, (Document.compile root).value = .ok pattern) ∧
    (∀ error, (Document.compile (root.renamed rename)).value = .error error ↔
      (Document.compile root).value = .error error) ∧
    ∀ pattern other, (Document.compile root).value = .ok pattern →
      (Document.compile (root.renamed rename)).value = .ok other → ∀ candidate,
        ((other.match? candidate).isSome ↔ (pattern.match? candidate).isSome) ∧
        ∀ captures others, pattern.match? candidate = some captures → other.match? candidate = some others →
          Renames root rename candidate captures others := by
  have faults : fault? (Document.compile (root.renamed rename)).value = fault? (Document.compile root).value := by
    rw [Document.value_compile, Document.value_compile, fault?_map, fault?_map]
    exact Document.fault?_readAt_renamed root []
  refine ⟨fun _ _ => Node.extracts_renamed_iff, ?_, ?_, ?_⟩
  · rw [← fault?_eq_none_iff, faults, fault?_eq_none_iff]
  · intro error
    rw [← fault?_eq_some_iff, faults, fault?_eq_some_iff]
  · intro pattern other compiled compiledRenamed candidate
    obtain ⟨document, proper, rfl, rfl⟩ := Document.compile_eq_ok_iff.1 compiled
    have properRenamed : (document.renamed rename).Proper := Document.proper_renamed proper
    have also : (Document.compile (document.toNode.renamed rename)).value = .ok (document.renamed rename).toPattern :=
      Document.compile_eq_ok_iff.2 ⟨_, properRenamed, (Document.toNode_renamed proper).symm, rfl⟩
    cases also.symm.trans compiledRenamed
    refine ⟨Document.matches_renamed_iff document candidate, ?_⟩
    intro captures others matched alsoMatched
    have gathers := Document.gathers_match? properRenamed alsoMatched
    rw [Document.extractions_renamed] at gathers
    exact (Document.lists_extractions proper wellFormed).renames (Document.gathers_match? proper matched) gathers

/-- Two names trade places, or are sent to one. A third name stands below a literal and stays. -/
theorem compile_renamed_nested :
    let root := Node.object [
      ("a", .array [.object [("$extract", .string "x")], .object [("$literal", .object [("$extract", .string "z")])]]),
      ("b", .object [("$extract", .string "y"), ("$match", .object [("$exact", .array [])])])]
    let candidate := Node.object [
      ("a", .array [.bool true, .object [("$extract", .string "z")]]), ("b", .array [])]
    let swap := fun name => if name = "x" then "y" else if name = "y" then "x" else name
    let meet := fun _ : String => "w"
    let met := Node.object [
      ("a", .array [.object [("$extract", .string "w")], .object [("$literal", .object [("$extract", .string "z")])]]),
      ("b", .object [("$extract", .string "w"), ("$match", .object [("$exact", .array [])])])]
    root.WellFormed ∧ Set.InjOn swap root.extractedNames ∧ root.renamed meet = met ∧
      (∃ other others, (Document.compile (root.renamed swap)).value = .ok other ∧
        other.match? candidate = some others ∧ others.toList.Perm [("y", .bool true), ("x", .array [])]) ∧
      ∃ other others, (Document.compile met).value = .ok other ∧ other.match? candidate = some others ∧
        others.toList = [("w", .array [])] ∧
        ∃ steps, root.LastSentTo meet "w" steps ∧ candidate.descend? (candidateSteps steps) = some (.array []) := by
  intro root candidate swap meet met
  have wellFormed : root.WellFormed := by
    simp only [root, Node.WellFormed, Node.WellFormedFields, Node.WellFormedItems, and_true, true_and]
    decide
  have apart : Set.InjOn swap root.extractedNames := by
    intro a _ b _ same
    simp only [swap] at same
    grind
  have renamedMeet : root.renamed meet = met := rfl
  obtain ⟨pattern, compiled⟩ : ∃ pattern, (Document.compile root).value = .ok pattern := ⟨_, rfl⟩
  obtain ⟨captures, matched, held⟩ : ∃ captures, pattern.match? candidate = some captures ∧
      captures.toList = [("x", .bool true), ("y", .array [])] := by
    cases compiled
    exact ⟨_, rfl, rfl⟩
  refine ⟨wellFormed, apart, renamedMeet, ?_, ?_⟩
  · obtain ⟨-, compiles, -, agree⟩ := compile_renamed wellFormed swap
    obtain ⟨other, compiledOther⟩ := compiles.2 ⟨pattern, compiled⟩
    obtain ⟨some, renames⟩ := agree pattern other compiled compiledOther candidate
    obtain ⟨others, also⟩ := Option.isSome_iff_exists.1 (some.2 (matched ▸ rfl))
    have permuted := (renames captures others matched also).apart apart
    rw [held] at permuted
    exact ⟨other, others, compiledOther, also, permuted⟩
  · obtain ⟨-, -, -, agree⟩ := compile_renamed wellFormed meet
    obtain ⟨other, compiledOther⟩ : ∃ other, (Document.compile met).value = .ok other := ⟨_, rfl⟩
    obtain ⟨others, also, heldOthers⟩ : ∃ others, other.match? candidate = some others ∧
        others.toList = [("w", .array [])] := by
      cases compiledOther
      exact ⟨_, rfl, rfl⟩
    have renames :=
      (agree pattern other compiled (renamedMeet ▸ compiledOther) candidate).2 captures others matched also
    refine ⟨other, others, compiledOther, also, heldOthers, (renames.values "w" (.array [])).1 ?_⟩
    rw [Captures.get?_eq_some_iff, ← Captures.toList, heldOthers]
    exact List.mem_singleton_self _

end TreeMatch
