import Mathlib.Algebra.BigOperators.Ring.Finset
import Mathlib.Data.Set.Card
import TreeMatch.Proofs.Containment
import TreeMatch.Proofs.Extractions

/-!
# Documents without predicates

A document has predicates exactly if reading comes to a directive that is no literal (`hasPredicates_toPattern_iff`).
Without predicates it matches like the value that is left when its literals are unwrapped (`alike_unwrapped`). The
number of directives that compiling reports is the number of places at which reading comes to one
(`encard_directivePlaces`).
-/

namespace TreeMatch

open Document (Plain Directive Divides)

namespace Node

/-- Every mapping that reading comes to is plain, or a literal. -/
def LiteralOnly (root : Node) : Prop :=
  ∀ steps fields, root.Reaches steps fields → Plain fields ∨ ∃ value, fields = [("$literal", value)]

/-- The places at which reading comes to a directive. -/
def directivePlaces (root : Node) : Set (List String) :=
  {steps | ∃ fields, root.Reaches steps fields ∧ ¬ Plain fields}

mutual

/-- The tree with the value of each literal in place of the literal. -/
def unwrapped : Node → Node
  | array items => array (unwrappedItems items)
  | object [("$literal", value)] => value
  | object fields => object (unwrappedFields fields)
  | null => null
  | bool value => bool value
  | number value => number value
  | string text => string text

/-- The elements with their literals unwrapped. -/
def unwrappedItems : List Node → List Node
  | [] => []
  | item :: rest => unwrapped item :: unwrappedItems rest

/-- The fields with the literals in their values unwrapped. -/
def unwrappedFields : List (String × Node) → List (String × Node)
  | [] => []
  | (key, value) :: rest => (key, unwrapped value) :: unwrappedFields rest

end

theorem unwrappedItems_eq_map (items : List Node) : unwrappedItems items = items.map unwrapped := by
  induction items with
  | nil => rfl
  | cons item rest ih => rw [unwrappedItems, ih, List.map_cons]

theorem unwrappedFields_eq_map (fields : List (String × Node)) :
    unwrappedFields fields = fields.map fun field => (field.1, field.2.unwrapped) := by
  induction fields with
  | nil => rfl
  | cons field rest ih => rw [unwrappedFields, ih, List.map_cons]

theorem unwrapped_plain {fields : List (String × Node)} (plain : Plain fields) :
    (object fields).unwrapped = object (fields.map fun field => (field.1, field.2.unwrapped)) := by
  obtain ⟨noLiteral, -⟩ := Document.shapes_of_not_directive fun directive => directive.not_plain plain
  rw [unwrapped, unwrappedFields_eq_map]
  exact noLiteral

/-! ## From the parts to the whole -/

theorem literalOnly_iff {node : Node} :
    node.LiteralOnly ↔
      (∀ fields, node = object fields → Plain fields ∨ ∃ value, fields = [("$literal", value)]) ∧
        ∀ step child, node.Enters step child → child.LiteralOnly := by
  constructor
  · intro only
    refine ⟨?_, fun step child enters steps fields reaches => only _ fields (.inside enters reaches)⟩
    rintro fields rfl
    exact only [] fields (.here fields)
  · rintro ⟨here, inside⟩ steps fields reaches
    cases reaches with
    | here => exact here fields rfl
    | inside enters reaches => exact inside _ _ enters _ fields reaches

theorem nil_mem_directivePlaces {node : Node} :
    [] ∈ node.directivePlaces ↔ ∃ fields, node = object fields ∧ ¬ Plain fields := by
  constructor
  · rintro ⟨fields, reaches, mixed⟩
    cases reaches
    exact ⟨fields, rfl, mixed⟩
  · rintro ⟨fields, rfl, mixed⟩
    exact ⟨fields, .here fields, mixed⟩

theorem cons_mem_directivePlaces {node : Node} {step : String} {steps : List String} :
    step :: steps ∈ node.directivePlaces ↔ ∃ child, node.Enters step child ∧ steps ∈ child.directivePlaces := by
  constructor
  · rintro ⟨fields, reaches, mixed⟩
    cases reaches with
    | inside enters reaches => exact ⟨_, enters, fields, reaches, mixed⟩
  · rintro ⟨child, enters, fields, reaches, mixed⟩
    exact ⟨fields, .inside enters reaches, mixed⟩

end Node

namespace Pattern

theorem hasPredicatesItems_iff {items : List Pattern} :
    hasPredicatesItems items = false ↔ ∀ item ∈ items, item.hasPredicates = false := by
  induction items with
  | nil => simp [hasPredicatesItems]
  | cons item rest ih => simp [hasPredicatesItems, ih]

theorem hasPredicatesEntries_iff {entries : List (String × Pattern)} :
    hasPredicatesEntries entries = false ↔ ∀ entry ∈ entries, entry.2.hasPredicates = false := by
  induction entries with
  | nil => simp [hasPredicatesEntries]
  | cons entry rest ih =>
    obtain ⟨key, pattern⟩ := entry
    simp [hasPredicatesEntries, ih]

end Pattern

namespace Document

theorem Divides.literalOnly_iff {node : Node} {parts : List (String × Document)} (divides : Divides node parts) :
    node.LiteralOnly ↔
      (∀ fields, node = .object fields → Plain fields ∨ ∃ value, fields = [("$literal", value)]) ∧
        ∀ part ∈ parts, part.2.toNode.LiteralOnly := by
  rw [Node.literalOnly_iff]
  refine and_congr_right fun _ => ⟨fun inside part member => inside _ _ (divides.enters member), ?_⟩
  intro each step child enters
  obtain ⟨part, member, same⟩ := List.mem_map.1 ((divides.entered step child).1 enters)
  cases same
  exact each part member

theorem Divides.nodup {node : Node} {parts : List (String × Document)} (divides : Divides node parts) :
    (parts.map Prod.fst).Nodup := by
  have ordered := List.pairwise_map.1 divides.ordered
  exact List.pairwise_map.2 (ordered.imp Node.Before.ne)

/-! ## Which documents have predicates -/

theorem hasPredicates_toPattern_parts (document : Document) :
    document.toPattern.hasPredicates = false ↔
      document.toPattern.isPredicate = false ∧ ∀ part ∈ document.parts, part.2.toPattern.hasPredicates = false := by
  cases document with
  | scalar value | literal value => simp [toPattern, Pattern.hasPredicates, Pattern.isPredicate, parts]
  | array items =>
    rw [parts, forall_mem_elements_iff fun item => item.toPattern.hasPredicates = false, toPattern,
      toPatternItems_eq_map, Pattern.hasPredicates, Pattern.hasPredicatesItems_iff, List.forall_mem_map]
    simp [Pattern.isPredicate]
  | mapping entries =>
    rw [parts, toPattern, toPatternEntries_eq_map, Pattern.hasPredicates, Pattern.hasPredicatesEntries_iff,
      List.forall_mem_map]
    simp [Pattern.isPredicate]
  | exact items | extract name | extractWith name inner =>
    simp [toPattern, Pattern.hasPredicates, Pattern.isPredicate]

theorem isPredicate_toPattern_iff {document : Document} (proper : document.Proper) :
    document.toPattern.isPredicate = false ↔
      ∀ fields, document.toNode = .object fields → Plain fields ∨ ∃ value, fields = [("$literal", value)] := by
  cases document with
  | scalar value => cases value <;> first | exact proper.elim | simp [toPattern, Pattern.isPredicate, toNode]
  | array items => simp [toPattern, Pattern.isPredicate, toNode]
  | mapping entries =>
    have plain := plain_toNodeEntries_iff.2 proper.1
    simp [toPattern, Pattern.isPredicate, toNode, plain]
  | literal value => simp [toPattern, Pattern.isPredicate, toNode]
  | exact items => simp [toPattern, Pattern.isPredicate, toNode, (Directive.exact _).not_plain]
  | extract name => simp [toPattern, Pattern.isPredicate, toNode, (Directive.extract _).not_plain]
  | extractWith name inner => simp [toPattern, Pattern.isPredicate, toNode, (Directive.extractWith _ _).not_plain]

/-- A document has no predicates exactly if its tree has no directives but literals. -/
theorem hasPredicates_toPattern_iff {document : Document} (proper : document.Proper)
    (wellFormed : document.toNode.WellFormed) :
    document.toPattern.hasPredicates = false ↔ document.toNode.LiteralOnly := by
  induction document using inductParts with
  | whole document ih =>
    have divides := divides_parts proper wellFormed
    rw [hasPredicates_toPattern_parts, isPredicate_toPattern_iff proper, divides.literalOnly_iff]
    refine and_congr_right fun _ => forall₂_congr fun part member => ?_
    exact ih part member (proper.part member) (divides.wellFormed wellFormed member)

/-! ## What they match -/

/-- A document without predicates is another way to write its unwrapped tree as a literal. -/
theorem alike_unwrapped {document : Document} (proper : document.Proper)
    (without : document.toPattern.hasPredicates = false) :
    document.toPattern.Alike (.literal document.toNode.unwrapped) := by
  induction document with
  | scalar value =>
    have same : value.unwrapped = value := by cases value <;> first | rfl | exact proper.elim
    rw [toPattern, toNode, same]
    exact (Pattern.plain_literal value).alike
  | array items ih =>
    rw [toPattern, toPatternItems_eq_map] at without ⊢
    have each := Pattern.hasPredicatesItems_iff.1 without
    rw [toNode, toNodeItems_eq_map, Node.unwrapped, Node.unwrappedItems_eq_map]
    refine .array (items.map fun item => (item.toPattern, .literal item.toNode.unwrapped)) ?_ ?_ ?_
    · simp [Pattern.layer?, Function.comp_def]
    · simp [Pattern.layer?, Function.comp_def]
    · refine List.forall_mem_map.2 fun item member => ?_
      exact ih item member (properItems_iff.1 proper item member) (each _ (List.mem_map_of_mem member))
  | mapping entries ih =>
    obtain ⟨plain, proper⟩ := proper
    rw [toNode, Node.unwrapped_plain (plain_toNodeEntries_iff.2 plain), toNodeEntries_eq_map, List.map_map]
    rw [toPattern, toPatternEntries_eq_map] at without ⊢
    have each := List.forall_mem_map.1 (Pattern.hasPredicatesEntries_iff.1 without)
    refine .object (entries.map fun entry => (entry.1, entry.2.toPattern, .literal entry.2.toNode.unwrapped))
      rfl rfl ?_ ?_ ?_
    · simp [Function.comp_def]
    · simp [Function.comp_def]
    · refine List.forall_mem_map.2 fun entry member => ?_
      exact ih entry member (properEntries_iff.1 proper entry member) (each entry member)
  | literal value => exact (Pattern.plain_literal value).alike
  | exact items | extract name | extractWith name inner => cases without

/-! ## The number of directives -/

/-- One for a directive, none for another document; what is inside does not count. -/
def ownDirectives : Document → Nat
  | scalar _ | array _ | mapping _ => 0
  | literal _ | exact _ | extract _ | extractWith _ _ => 1

theorem directivesItems_eq (index : Nat) (items : List Document) :
    directivesItems items = ((elements index items).map fun part => part.2.directives).sum := by
  induction items generalizing index with
  | nil => rfl
  | cons item rest ih => rw [directivesItems, elements, List.map_cons, List.sum_cons, ih]

theorem directivesEntries_eq (entries : List (String × Document)) :
    directivesEntries entries = (entries.map fun entry => entry.2.directives).sum := by
  induction entries with
  | nil => rfl
  | cons entry rest ih => rw [directivesEntries, List.map_cons, List.sum_cons, ih]

theorem directives_eq (document : Document) :
    document.directives = document.ownDirectives + (document.parts.map fun part => part.2.directives).sum := by
  cases document with
  | scalar value | literal value | extract name => rfl
  | array items => rw [directives, ownDirectives, parts, directivesItems_eq 0, Nat.zero_add]
  | mapping entries => rw [directives, ownDirectives, parts, directivesEntries_eq, Nat.zero_add]
  | exact items => simp [directives, ownDirectives, parts, Nat.add_comm]
  | extractWith name inner => simp [directives, ownDirectives, parts, Nat.add_comm]

theorem nil_mem_directivePlaces_toNode {document : Document} (proper : document.Proper) :
    [] ∈ document.toNode.directivePlaces ↔ document.ownDirectives = 1 := by
  rw [Node.nil_mem_directivePlaces]
  cases document with
  | scalar value => cases value <;> first | exact proper.elim | simp [toNode, ownDirectives]
  | array items => simp [toNode, ownDirectives]
  | mapping entries =>
    have plain := plain_toNodeEntries_iff.2 proper.1
    simp [toNode, ownDirectives, plain]
  | literal value => simp [toNode, ownDirectives, (Directive.literal _).not_plain]
  | exact items => simp [toNode, ownDirectives, (Directive.exact _).not_plain]
  | extract name => simp [toNode, ownDirectives, (Directive.extract _).not_plain]
  | extractWith name inner => simp [toNode, ownDirectives, (Directive.extractWith _ _).not_plain]

/-- The places below the steps of parts, counted part by part. -/
theorem encard_below {parts : List (String × Document)} (distinct : (parts.map Prod.fst).Nodup)
    (places : Document → Set (List String)) :
    {steps | ∃ part ∈ parts, ∃ rest ∈ places part.2, steps = part.1 :: rest}.encard =
      (parts.map fun part => (places part.2).encard).sum := by
  induction parts with
  | nil => simp
  | cons first others ih =>
    obtain ⟨fresh, distinct⟩ := List.nodup_cons.1 distinct
    have split : {steps | ∃ part ∈ first :: others, ∃ rest ∈ places part.2, steps = part.1 :: rest} =
        List.cons first.1 '' places first.2 ∪
          {steps | ∃ part ∈ others, ∃ rest ∈ places part.2, steps = part.1 :: rest} := by
      ext steps
      simp [eq_comm]
    have apart : Disjoint (List.cons first.1 '' places first.2)
        {steps | ∃ part ∈ others, ∃ rest ∈ places part.2, steps = part.1 :: rest} := by
      rw [Set.disjoint_left]
      rintro _ ⟨rest, -, rfl⟩ ⟨part, member, other, -, same⟩
      rw [List.cons.injEq] at same
      exact fresh (same.1 ▸ List.mem_map_of_mem member)
    rw [split, Set.encard_union_eq apart, (List.cons_injective).encard_image, ih distinct, List.map_cons, List.sum_cons]

theorem Divides.cons_mem_directivePlaces {node : Node} {parts : List (String × Document)} (divides : Divides node parts)
    {step : String} {steps : List String} :
    step :: steps ∈ node.directivePlaces ↔ ∃ part ∈ parts, part.1 = step ∧ steps ∈ part.2.toNode.directivePlaces := by
  rw [Node.cons_mem_directivePlaces]
  constructor
  · rintro ⟨child, enters, inside⟩
    obtain ⟨part, member, same⟩ := List.mem_map.1 ((divides.entered step child).1 enters)
    cases same
    exact ⟨part, member, rfl, inside⟩
  · rintro ⟨part, member, rfl, inside⟩
    exact ⟨part.2.toNode, divides.enters member, inside⟩

/-- The directives that a document counts are the places at which reading comes to one. -/
theorem encard_directivePlaces {document : Document} (proper : document.Proper)
    (wellFormed : document.toNode.WellFormed) :
    document.toNode.directivePlaces.encard = document.directives := by
  induction document using inductParts with
  | whole document ih =>
    have divides := divides_parts proper wellFormed
    have split : document.toNode.directivePlaces =
        {steps | steps = [] ∧ document.ownDirectives = 1} ∪
          {steps | ∃ part ∈ document.parts, ∃ rest ∈ part.2.toNode.directivePlaces, steps = part.1 :: rest} := by
      ext steps
      cases steps with
      | nil => simp [nil_mem_directivePlaces_toNode proper]
      | cons step rest =>
        rw [divides.cons_mem_directivePlaces]
        simp [eq_comm, and_comm]
    -- No step leads to the document itself, so no place is counted twice.
    have apart : Disjoint {steps : List String | steps = [] ∧ document.ownDirectives = 1}
        {steps | ∃ part ∈ document.parts, ∃ rest ∈ part.2.toNode.directivePlaces, steps = part.1 :: rest} := by
      rw [Set.disjoint_left]
      rintro _ ⟨rfl, -⟩ ⟨part, -, rest, -, same⟩
      cases same
    have own : {steps : List String | steps = [] ∧ document.ownDirectives = 1}.encard = document.ownDirectives := by
      cases document <;> simp [ownDirectives]
    have each : ∀ part ∈ document.parts, part.2.toNode.directivePlaces.encard = part.2.directives := by
      intro part member
      exact ih part member (proper.part member) (divides.wellFormed wellFormed member)
    rw [split, Set.encard_union_eq apart, own, encard_below divides.nodup fun part => part.toNode.directivePlaces,
      List.map_congr_left each, directives_eq, Nat.cast_add, Nat.cast_list_sum, List.map_map]
    rfl

end Document

/-- A tree in which reading comes to no ill-formed mapping compiles. -/
theorem exists_compile_of_faultless {root : Node} (wellFormed : root.WellFormed)
    (faultless : ∀ steps fields, root.Reaches steps fields → ¬ IllFormed fields) :
    ∃ pattern, (Document.compile root).value = .ok pattern := by
  have judged := judges_readAt wellFormed []
  rw [Document.value_compile, Document.read]
  cases reading : Document.readAt [] root with
  | ok document => exact ⟨document.toPattern, rfl⟩
  | error error =>
    rw [reading] at judged
    obtain ⟨steps, fields, fault, -⟩ := judged
    exact absurd fault.illFormed (faultless steps fields fault.reaches)

/-- A document whose only directives are literals compiles to a pattern without predicates, which matches like the
unwrapped document as a literal. A pattern without predicates comes from such a document only. Compiling reports the
number of directives and whether there are predicates. -/
theorem compile_literals {root : Node} (wellFormed : root.WellFormed) :
    (root.LiteralOnly → ∃ pattern, (Document.compile root).value = .ok pattern ∧ pattern.hasPredicates = false ∧
      ∀ candidate, pattern.match? candidate = (Pattern.literal root.unwrapped).match? candidate) ∧
    ∀ pattern, (Document.compile root).value = .ok pattern →
      (pattern.hasPredicates = false → root.LiteralOnly) ∧
      ∃ directives : Nat, root.directivePlaces.encard = directives ∧
        (Document.compile root).log = [.event (.documentCompiled directives pattern.hasPredicates)] := by
  constructor
  · intro only
    have faultless : ∀ steps fields, root.Reaches steps fields → ¬ IllFormed fields := by
      intro steps fields reaches illFormed
      rcases only steps fields reaches with plain | ⟨value, rfl⟩
      · exact illFormed.not_plain plain
      · exact illFormed.not_directive (.literal value)
    obtain ⟨pattern, compiled⟩ := exists_compile_of_faultless wellFormed faultless
    obtain ⟨document, proper, rfl, rfl⟩ := Document.compile_eq_ok_iff.1 compiled
    have without := (Document.hasPredicates_toPattern_iff proper wellFormed).2 only
    exact ⟨document.toPattern, compiled, without, (Document.alike_unwrapped proper without).agree⟩
  · intro pattern compiled
    obtain ⟨document, proper, rfl, rfl⟩ := Document.compile_eq_ok_iff.1 compiled
    refine ⟨(Document.hasPredicates_toPattern_iff proper wellFormed).1, document.directives,
      Document.encard_directivePlaces proper wellFormed, ?_⟩
    rw [Document.compile, Document.read, Document.readAt_toNode proper]
    rfl

/-- A literal inside a literal stays as it is; one inside an array of a plain mapping is unwrapped. Beside them, a
document with an exact array and an extraction in it has two directives more. -/
theorem compile_literals_nested :
    let root := Node.object [
      ("a", .array [.null, .object [("$literal", .object [("$literal", .object [("$what", .null), ("b", .null)])])]]),
      ("c", .object [("$literal", .bool true)])]
    let other := Node.object [("a", .object [("$exact", .array [.object [("$extract", .string "x")]])]),
      ("b", .object [("$literal", .object [("$extract", .string "y")])])]
    root.WellFormed ∧ root.LiteralOnly ∧
      root.unwrapped = .object [
        ("a", .array [.null, .object [("$literal", .object [("$what", .null), ("b", .null)])]]), ("c", .bool true)] ∧
      (∃ pattern, (Document.compile root).value = .ok pattern ∧ pattern.hasPredicates = false ∧
        ∀ candidate, pattern.match? candidate = (Pattern.literal root.unwrapped).match? candidate) ∧
      other.WellFormed ∧ other.directivePlaces.encard = 3 ∧
      (Document.compile other).log = [.event (.documentCompiled 3 true)] := by
  intro root other
  have wellFormed : root.WellFormed := by
    simp only [root, Node.WellFormed, Node.WellFormedFields, Node.WellFormedItems, and_true, true_and]
    decide
  have wellFormedOther : other.WellFormed := by
    simp only [other, Node.WellFormed, Node.WellFormedFields, Node.WellFormedItems, and_true]
    decide
  obtain ⟨_, compiled⟩ : ∃ pattern, (Document.compile root).value = .ok pattern := ⟨_, rfl⟩
  have only : root.LiteralOnly := ((compile_literals wellFormed).2 _ compiled).1 (by cases compiled; rfl)
  have logged : (Document.compile other).log = [.event (.documentCompiled 3 true)] := rfl
  obtain ⟨_, compiledOther⟩ : ∃ pattern, (Document.compile other).value = .ok pattern := ⟨_, rfl⟩
  obtain ⟨-, directives, places, log⟩ := (compile_literals wellFormedOther).2 _ compiledOther
  have three : directives = 3 := by
    rw [logged] at log
    simp only [List.cons.injEq, LogEntry.event.injEq, Event.documentCompiled.injEq] at log
    exact log.1.1.symm
  rw [three] at places
  exact ⟨wellFormed, only, rfl, (compile_literals wellFormed).1 only, wellFormedOther, places, logged⟩

end TreeMatch
