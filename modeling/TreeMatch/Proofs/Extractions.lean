import TreeMatch.Proofs.Rejection

/-!
# Extractions of a document

`Document.extractions` lists the places at which a document extracts something. It is the list of all
mappings with an extraction that reading comes to, in pre-order (`lists_extractions`), so the last of the
list under a name, or under any of the names that a renaming sends to it, is the last one of the tree
(`Lists.lastSentTo`).
-/

namespace TreeMatch

open Document (Plain Directive)

/-- Reading comes by the steps to a mapping that extracts something under the name. -/
def Node.Extracts (root : Node) (steps : List String) (name : String) : Prop :=
  ∃ fields, root.Reaches steps fields ∧ fields.lookup "$extract" = some (.string name)

/-- The last extraction under a name in pre-order. -/
structure Node.LastExtraction (root : Node) (name : String) (steps : List String) : Prop where
  extracts : root.Extracts steps name
  last : ∀ other, root.Extracts other name → other = steps ∨ root.Precedes other steps

/-! ## The list of extractions -/

/-- A place in a document at which something is extracted under a name. -/
structure Extraction where
  steps : List String
  name : String

/-- The extraction as it is seen from one step above. -/
def Extraction.under (step : String) (extraction : Extraction) : Extraction :=
  ⟨step :: extraction.steps, extraction.name⟩

namespace Document

mutual

/-- The extractions of a document in pre-order. -/
def extractions : Document → List Extraction
  | scalar _ => []
  | array items => extractionsItems 0 items
  | mapping entries => extractionsEntries entries
  | literal _ => []
  | exact items => (extractionsItems 0 items).map (.under "$exact")
  | extract name => [⟨[], name⟩]
  | extractWith name inner => ⟨[], name⟩ :: (extractions inner).map (.under "$match")

/-- The extractions of items, from an index on. -/
def extractionsItems (index : Nat) : List Document → List Extraction
  | [] => []
  | item :: rest =>
    (extractions item).map (.under (Pointer.indexStep index)) ++ extractionsItems (index + 1) rest

/-- The extractions of entries. -/
def extractionsEntries : List (String × Document) → List Extraction
  | [] => []
  | (key, entry) :: rest => (extractions entry).map (.under key) ++ extractionsEntries rest

end

end Document

/-! ## Which extractions there are -/

theorem Node.extracts_nil_iff {node : Node} {name : String} :
    node.Extracts [] name ↔ ∃ fields, node = .object fields ∧ fields.lookup "$extract" = some (.string name) := by
  constructor
  · rintro ⟨fields, reaches, named⟩
    cases reaches
    exact ⟨fields, rfl, named⟩
  · rintro ⟨fields, rfl, named⟩
    exact ⟨fields, .here fields, named⟩

theorem Node.extracts_cons_iff {node : Node} {step : String} {steps : List String} {name : String} :
    node.Extracts (step :: steps) name ↔ ∃ child, node.Enters step child ∧ child.Extracts steps name := by
  constructor
  · rintro ⟨fields, reaches, named⟩
    cases reaches with
    | inside enters reaches => exact ⟨_, enters, fields, reaches, named⟩
  · rintro ⟨child, enters, fields, reaches, named⟩
    exact ⟨fields, .inside enters reaches, named⟩

/-- The list holds the extractions of a tree in pre-order. -/
structure Lists (node : Node) (extractions : List Extraction) : Prop where
  complete : ∀ extraction, extraction ∈ extractions ↔ node.Extracts extraction.steps extraction.name
  ordered : extractions.Pairwise fun a b => node.Precedes a.steps b.steps

namespace Document

/-- The documents in a document with the steps to them. -/
def elements (index : Nat) : List Document → List (String × Document)
  | [] => []
  | item :: rest => (Pointer.indexStep index, item) :: elements (index + 1) rest

/-- Steps with the trees of the documents that they lead to. -/
def toNodes (parts : List (String × Document)) : List (String × Node) :=
  parts.map fun part => (part.1, part.2.toNode)

/-- The extractions of parts, each under the step to it. -/
def extractionsIn (parts : List (String × Document)) : List Extraction :=
  parts.flatMap fun part => part.2.extractions.map (.under part.1)

theorem extractionsItems_eq (index : Nat) (items : List Document) :
    extractionsItems index items = extractionsIn (elements index items) := by
  induction items generalizing index with
  | nil => rfl
  | cons item rest ih => rw [extractionsItems, ih]; rfl

theorem extractionsEntries_eq (entries : List (String × Document)) :
    extractionsEntries entries = extractionsIn entries := by
  induction entries with
  | nil => rfl
  | cons entry rest ih => rw [extractionsEntries, ih]; rfl

theorem toNodes_elements (index : Nat) (items : List Document) :
    toNodes (elements index items) = Node.elements index (toNodeItems items) := by
  induction items generalizing index with
  | nil => rfl
  | cons item rest ih => rw [toNodeItems, Node.elements, ← ih]; rfl

theorem toNodes_entries (entries : List (String × Document)) : toNodes entries = toNodeEntries entries := by
  induction entries with
  | nil => rfl
  | cons entry rest ih => rw [toNodeEntries, ← ih]; rfl

theorem mem_extractionsIn {parts : List (String × Document)} {extraction : Extraction} :
    extraction ∈ extractionsIn parts ↔
      ∃ part ∈ parts, ∃ inner ∈ part.2.extractions, extraction = inner.under part.1 := by
  simp only [extractionsIn, List.mem_flatMap, List.mem_map, eq_comm]

/-- Reading enters the tree by these parts, which stand in their order. -/
structure Divides (node : Node) (parts : List (String × Document)) : Prop where
  entered : ∀ step child, node.Enters step child ↔ (step, child) ∈ toNodes parts
  ordered : (toNodes parts).Pairwise fun a b => node.Before a.1 b.1

theorem Divides.enters {node : Node} {parts : List (String × Document)} (divides : Divides node parts)
    {part : String × Document} (member : part ∈ parts) : node.Enters part.1 part.2.toNode :=
  (divides.entered part.1 part.2.toNode).2 (List.mem_map.2 ⟨part, member, rfl⟩)

section Parts

variable {node : Node} {parts : List (String × Document)}

theorem mem_extractionsIn_iff_extracts (divides : Divides node parts)
    (each : ∀ part ∈ parts, Lists part.2.toNode part.2.extractions) (extraction : Extraction) :
    extraction ∈ extractionsIn parts ↔
      extraction.steps ≠ [] ∧ node.Extracts extraction.steps extraction.name := by
  obtain ⟨steps, name⟩ := extraction
  rw [mem_extractionsIn]
  constructor
  · rintro ⟨part, member, inner, listed, same⟩
    cases same
    have extracts := ((each part member).complete inner).1 listed
    exact ⟨nofun, Node.extracts_cons_iff.2 ⟨_, divides.enters member, extracts⟩⟩
  · rintro ⟨below, extracts⟩
    obtain ⟨step, rest, rfl⟩ := List.exists_cons_of_ne_nil below
    obtain ⟨child, enters, extracts⟩ := Node.extracts_cons_iff.1 extracts
    obtain ⟨part, member, same⟩ := List.mem_map.1 ((divides.entered step child).1 enters)
    cases same
    exact ⟨part, member, ⟨rest, name⟩, ((each part member).complete ⟨rest, name⟩).2 extracts, rfl⟩

theorem pairwise_extractionsIn (divides : Divides node parts)
    (each : ∀ part ∈ parts, Lists part.2.toNode part.2.extractions) :
    (extractionsIn parts).Pairwise fun a b => node.Precedes a.steps b.steps := by
  rw [extractionsIn, List.pairwise_flatMap]
  constructor
  · intro part member
    refine List.pairwise_map.2 ((each part member).ordered.imp ?_)
    intro a b before
    exact .within (divides.enters member).child? before
  · refine (List.pairwise_map.1 divides.ordered).imp ?_
    intro partA partB before a memberA b memberB
    obtain ⟨innerA, -, rfl⟩ := List.mem_map.1 memberA
    obtain ⟨innerB, -, rfl⟩ := List.mem_map.1 memberB
    exact .beside before _ _

/-- What is extracted at the tree itself comes before what its parts extract. -/
theorem lists_of_parts {own? : Option String} (itself : ∀ name, node.Extracts [] name ↔ own? = some name)
    (divides : Divides node parts) (each : ∀ part ∈ parts, Lists part.2.toNode part.2.extractions) :
    Lists node ((own?.map (Extraction.mk [])).toList ++ extractionsIn parts) := by
  constructor
  · rintro ⟨steps, name⟩
    rw [List.mem_append, mem_extractionsIn_iff_extracts divides each, Option.mem_toList, Option.map_eq_some_iff]
    cases steps with
    | nil => simp [itself]
    | cons step rest => simp
  · refine List.pairwise_append.2 ⟨?_, pairwise_extractionsIn divides each, ?_⟩
    · cases own? <;> simp
    · intro own member extraction inside
      obtain ⟨name, -, rfl⟩ := Option.map_eq_some_iff.1 (Option.mem_toList.1 member)
      obtain ⟨part, -, inner, -, rfl⟩ := mem_extractionsIn.1 inside
      exact .above node _ _

end Parts

/-! ## Parts of a document -/

/-- The documents that a document consists of, with the steps to them. -/
def parts : Document → List (String × Document)
  | scalar _ | literal _ | extract _ => []
  | array items => elements 0 items
  | mapping entries => entries
  | exact items => [("$exact", array items)]
  | extractWith _ inner => [("$match", inner)]

/-- The name under which a document extracts the candidate itself. -/
def name? : Document → Option String
  | extract name | extractWith name _ => some name
  | scalar _ | array _ | mapping _ | literal _ | exact _ => none

theorem forall_mem_elements_iff (holds : Document → Prop) {index : Nat} {items : List Document} :
    (∀ part ∈ elements index items, holds part.2) ↔ ∀ item ∈ items, holds item := by
  induction items generalizing index with
  | nil => simp [elements]
  | cons item rest ih => rw [elements, List.forall_mem_cons, List.forall_mem_cons, ih]

/-- Induction over documents from the parts to the whole. -/
theorem inductParts {motive : Document → Prop}
    (whole : ∀ document : Document, (∀ part ∈ document.parts, motive part.2) → motive document)
    (document : Document) : motive document := by
  have array (items : List Document) (each : ∀ item ∈ items, motive item) : motive (.array items) :=
    whole (.array items) ((forall_mem_elements_iff motive).2 each)
  induction document with
  | scalar value => exact whole (.scalar value) nofun
  | array items ih => exact array items ih
  | mapping entries ih => exact whole (.mapping entries) ih
  | literal value => exact whole (.literal value) nofun
  | exact items ih => exact whole (.exact items) (List.forall_mem_singleton.2 (array items ih))
  | extract name => exact whole (.extract name) nofun
  | extractWith name inner ih => exact whole (.extractWith name inner) (List.forall_mem_singleton.2 ih)

theorem Proper.part {document : Document} (proper : document.Proper) {part : String × Document}
    (member : part ∈ document.parts) : part.2.Proper := by
  cases document with
  | scalar value | literal value | extract name => cases member
  | array items => exact (forall_mem_elements_iff Proper).2 (properItems_iff.1 proper) part member
  | mapping entries => exact properEntries_iff.1 proper.2 part member
  | exact items =>
    cases List.mem_singleton.1 member
    exact proper
  | extractWith name inner =>
    cases List.mem_singleton.1 member
    exact proper

/-- Reading the tree of a document enters it by the parts of the document. -/
theorem divides_parts {document : Document} (proper : document.Proper) (wellFormed : document.toNode.WellFormed) :
    Divides document.toNode document.parts := by
  cases document with
  | scalar value =>
    refine ⟨fun step child => ⟨fun enters => ?_, nofun⟩, .nil⟩
    rw [toNode] at enters
    cases enters <;> exact proper.elim
  | array items =>
    refine ⟨fun step child => ?_, ?_⟩
    · rw [toNode, enters_array_iff, parts, toNodes_elements]
      rfl
    · rw [toNode, parts, toNodes_elements]
      exact Node.pairwise_elements _ 0 _
  | mapping entries =>
    have plain := plain_toNodeEntries_iff.2 proper.1
    have ascending := (Node.wellFormed_object_iff.1 wellFormed).1
    rw [toNode, parts]
    rw [← toNodes_entries] at ascending plain ⊢
    exact ⟨fun _ _ => enters_plain_iff ascending plain, ascending.pairwise⟩
  | literal value => exact ⟨fun _ _ => enters_directive_iff (.literal value), .nil⟩
  | exact items => exact ⟨fun _ _ => enters_directive_iff (.exact (toNodeItems items)), List.pairwise_singleton ..⟩
  | extract name => exact ⟨fun _ _ => enters_directive_iff (.extract name), .nil⟩
  | extractWith name inner =>
    exact ⟨fun _ _ => enters_directive_iff (.extractWith name inner.toNode), List.pairwise_singleton ..⟩

theorem Divides.wellFormed {node : Node} {parts : List (String × Document)} (divides : Divides node parts)
    (wellFormed : node.WellFormed) {part : String × Document} (member : part ∈ parts) :
    part.2.toNode.WellFormed :=
  wellFormed.part ((Node.child?_eq_some_iff wellFormed).1 (divides.enters member).child?)

theorem extractions_eq (document : Document) :
    document.extractions = (document.name?.map (Extraction.mk [])).toList ++ extractionsIn document.parts := by
  cases document with
  | scalar value | literal value | extract name => rfl
  | array items => exact extractionsItems_eq 0 items
  | mapping entries => exact extractionsEntries_eq entries
  | exact items => simp [extractions, extractionsIn, name?, parts]
  | extractWith name inner => simp [extractions, extractionsIn, name?, parts]

/-- What the tree of a document extracts itself has the name of the document. -/
theorem extracts_toNode_nil_iff {document : Document} (proper : document.Proper) (name : String) :
    document.toNode.Extracts [] name ↔ document.name? = some name := by
  rw [Node.extracts_nil_iff]
  cases document with
  | scalar value => cases value <;> first | exact proper.elim | simp [toNode, name?]
  | mapping entries =>
    constructor
    · rintro ⟨_, ⟨⟩, named⟩
      have plain := plain_toNodeEntries_iff.2 proper.1
      exact absurd (Fields.mem_names_of_lookup named) (plain.not_mem (by decide))
    · intro unnamed
      cases unnamed
  | _ => simp [toNode, name?, Fields.lookup_cons]

/-- The extractions of a document are those of its tree. -/
theorem lists_extractions {document : Document} (proper : document.Proper)
    (wellFormed : document.toNode.WellFormed) : Lists document.toNode document.extractions := by
  induction document using inductParts with
  | whole document ih =>
    have divides := divides_parts proper wellFormed
    rw [extractions_eq]
    refine lists_of_parts (extracts_toNode_nil_iff proper) divides ?_
    intro part member
    exact ih part member (proper.part member) (divides.wellFormed wellFormed member)

end Document

/-! ## The last extraction of a name -/

/-- The extraction under the name that a renaming gives its own. -/
def Extraction.renamed (rename : String → String) (extraction : Extraction) : Extraction :=
  { extraction with name := rename extraction.name }

theorem Extraction.renamed_id : renamed id = id := rfl

/-- The last extraction in pre-order of those whose names are sent to the name. -/
structure Node.LastSentTo (root : Node) (rename : String → String) (name : String) (steps : List String) : Prop where
  extracts : ∃ own, root.Extracts steps own ∧ rename own = name
  last : ∀ other own, root.Extracts other own → rename own = name → other = steps ∨ root.Precedes other steps

theorem Node.LastSentTo.unique {root : Node} {rename : String → String} {name : String} {a b : List String}
    (lastA : root.LastSentTo rename name a) (lastB : root.LastSentTo rename name b) : a = b := by
  obtain ⟨ownA, extractsA, sentA⟩ := lastA.extracts
  obtain ⟨ownB, extractsB, sentB⟩ := lastB.extracts
  rcases lastA.last b ownB extractsB sentB with same | before
  · exact same.symm
  · rcases lastB.last a ownA extractsA sentA with same | after
    · exact same
    · exact absurd after before.asymm

theorem Node.lastSentTo_id_iff {root : Node} {name : String} {steps : List String} :
    root.LastSentTo id name steps ↔ root.LastExtraction name steps := by
  constructor
  · rintro ⟨⟨_, extracts, rfl⟩, last⟩
    exact ⟨extracts, fun other extracts => last other _ extracts rfl⟩
  · rintro ⟨extracts, last⟩
    refine ⟨⟨name, extracts, rfl⟩, ?_⟩
    intro other own also same
    exact last other (same ▸ also)

/-- If a name has a property at all, one of the extractions with such a name is followed by none. -/
theorem exists_last_extraction (holds : String → Prop) {extractions : List Extraction}
    (some : ∃ extraction ∈ extractions, holds extraction.name) :
    ∃ before last after, extractions = before ++ last :: after ∧ holds last.name ∧
      ∀ later ∈ after, ¬ holds later.name := by
  induction extractions with
  | nil =>
    obtain ⟨_, member, -⟩ := some
    cases member
  | cons first rest ih =>
    by_cases later : ∃ extraction ∈ rest, holds extraction.name
    · obtain ⟨before, last, after, rfl, has, fresh⟩ := ih later
      exact ⟨first :: before, last, after, rfl, has, fresh⟩
    · obtain ⟨extraction, member, has⟩ := some
      rcases List.mem_cons.1 member with rfl | inRest
      · exact ⟨[], extraction, rest, rfl, has, fun other inRest has => later ⟨other, inRest, has⟩⟩
      · exact absurd ⟨extraction, inRest, has⟩ later

theorem Lists.lastSentTo {root : Node} {before after : List Extraction} {last : Extraction}
    (lists : Lists root (before ++ last :: after)) {rename : String → String} {name : String}
    (sent : rename last.name = name) (fresh : ∀ later ∈ after, rename later.name ≠ name) :
    root.LastSentTo rename name last.steps := by
  refine ⟨⟨last.name, (lists.complete last).1 (by simp), sent⟩, ?_⟩
  intro other own extracts alsoSent
  have member := (lists.complete ⟨other, own⟩).2 extracts
  rcases List.mem_append.1 member with earlier | member
  · exact .inr ((List.pairwise_append.1 lists.ordered).2.2 _ earlier last (List.mem_cons_self ..))
  · rcases List.mem_cons.1 member with same | later
    · exact .inl (same ▸ rfl)
    · exact absurd alsoSent (fresh ⟨other, own⟩ later)

end TreeMatch
