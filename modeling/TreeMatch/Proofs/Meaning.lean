import TreeMatch.Proofs.Matching
import TreeMatch.Proofs.Reading

/-!
# The meaning of a document

A candidate can be matched against the tree of a document as it stands, without patterns, predicates
and held captures: `Node.documentMatch?` goes through both trees and unites what the parts capture.
`match?_compile` says that the compiled pattern gives the same captures, or fails where it does.
-/

namespace TreeMatch

namespace Node

/-- A match of a literal value, which captures nothing. -/
def literalMatch? (candidate value : Node) : Option Captures :=
  if candidate.contains value then some .empty else none

mutual

/-- What a candidate that fits the tree of a document captures. -/
def documentMatch? (candidate : Node) : Node → Option Captures
  | array items => candidate.items?.bind fun elements =>
      if items.length ≤ elements.length then documentMatchItems? elements items else none
  | object [("$literal", value)] => candidate.literalMatch? value
  | object [("$exact", array items)] => candidate.items?.bind fun elements =>
      if elements.length = items.length then documentMatchItems? elements items else none
  | object [("$extract", string name)] => some (.single name candidate)
  | object [("$extract", string name), ("$match", inner)] =>
    (documentMatch? candidate inner).map (Captures.single name candidate).union
  | object fields =>
    if (Fields.names fields).any Document.isDirective then none
    else candidate.fields?.bind fun held => documentMatchFields? held fields
  | null => candidate.literalMatch? null
  | bool value => candidate.literalMatch? (bool value)
  | number value => candidate.literalMatch? (number value)
  | string text => candidate.literalMatch? (string text)

/-- What the elements capture that fit the trees at the same index. -/
def documentMatchItems? : List Node → List Node → Option Captures
  | _, [] => some .empty
  | [], _ :: _ => none
  | element :: others, item :: rest =>
    (documentMatch? element item).bind fun found => (documentMatchItems? others rest).map found.union

/-- What the values capture that fit the trees of their keys. -/
def documentMatchFields? (held : List (String × Node)) : List (String × Node) → Option Captures
  | [] => some .empty
  | (key, entry) :: rest => (held.lookup key).bind fun value =>
    (documentMatch? value entry).bind fun found => (documentMatchFields? held rest).map found.union

end

theorem documentMatch?_plain (candidate : Node) {fields : List (String × Node)}
    (plain : Document.Plain fields) :
    candidate.documentMatch? (object fields) =
      candidate.fields?.bind fun held => documentMatchFields? held fields := by
  obtain ⟨noLiteral, noExact, noExtract, noExtractWith⟩ :=
    Document.shapes_of_not_directive fun directive => directive.not_plain plain
  rw [documentMatch?, Document.plain_iff_any.1 plain]
  · rfl
  all_goals assumption

end Node

namespace Document

theorem length_toNodeItems (items : List Document) : (toNodeItems items).length = items.length := by
  induction items with
  | nil => rfl
  | cons item rest ih => rw [toNodeItems, List.length_cons, List.length_cons, ih]

theorem length_toPatternItems (items : List Document) : (toPatternItems items).length = items.length := by
  induction items with
  | nil => rfl
  | cons item rest ih => rw [toPatternItems, List.length_cons, List.length_cons, ih]

theorem documentMatchItems?_toNodeItems {items : List Document}
    (each : ∀ item ∈ items, ∀ candidate : Node,
      candidate.documentMatch? item.toNode = item.toPattern.match? candidate)
    {elements : List Node} (enough : items.length ≤ elements.length) :
    Node.documentMatchItems? elements (toNodeItems items) =
      Pattern.matchItems? elements (toPatternItems items) := by
  induction items generalizing elements with
  | nil =>
    rw [toNodeItems, toPatternItems, Pattern.matchItems?_nil]
    cases elements <;> rfl
  | cons item rest ih =>
    obtain ⟨first, later⟩ := List.forall_mem_cons.1 each
    cases elements with
    | nil => cases enough
    | cons element others =>
      rw [toNodeItems, toPatternItems, Node.documentMatchItems?, Pattern.matchItems?_cons, first,
        ih later (Nat.le_of_succ_le_succ enough)]
      simp only [Captures.union_eq_merge]

theorem documentMatchFields?_toNodeEntries {entries : List (String × Document)}
    (each : ∀ entry ∈ entries, ∀ candidate : Node,
      candidate.documentMatch? entry.2.toNode = entry.2.toPattern.match? candidate)
    (held : List (String × Node)) :
    Node.documentMatchFields? held (toNodeEntries entries) =
      Pattern.matchEntries? held (toPatternEntries entries) := by
  induction entries with
  | nil => rfl
  | cons entry rest ih =>
    obtain ⟨key, document⟩ := entry
    obtain ⟨first, later⟩ := List.forall_mem_cons.1 each
    rw [toNodeEntries, toPatternEntries, Node.documentMatchFields?, Pattern.matchEntries?_cons, ih later]
    simp only [first, Captures.union_eq_merge]

/-- The tree of a document matches like its pattern. -/
theorem documentMatch?_toNode {document : Document} (proper : document.Proper) (candidate : Node) :
    candidate.documentMatch? document.toNode = document.toPattern.match? candidate := by
  induction document generalizing candidate with
  | scalar value =>
    rw [toPattern, Pattern.match?_literal]
    cases value <;> first | rfl | exact proper.elim
  | array items ih =>
    have each := fun item member => ih item member (properItems_iff.1 proper item member)
    rw [toNode, toPattern, Node.documentMatch?, Pattern.match?_sequence]
    cases candidate.items? with
    | none => rfl
    | some elements =>
      simp only [Option.bind_some, length_toNodeItems, length_toPatternItems]
      by_cases enough : items.length ≤ elements.length
      · rw [if_pos enough, if_neg (Nat.not_lt.2 enough), documentMatchItems?_toNodeItems each enough]
      · rw [if_neg enough, if_pos (Nat.lt_of_not_le enough)]
  | mapping entries ih =>
    obtain ⟨plain, proper⟩ := proper
    have each := fun entry member => ih entry member (properEntries_iff.1 proper entry member)
    rw [toNode, toPattern, Node.documentMatch?_plain candidate (plain_toNodeEntries_iff.2 plain),
      Pattern.match?_mapping]
    simp only [documentMatchFields?_toNodeEntries each]
  | literal value => rw [toNode, toPattern, Node.documentMatch?, Pattern.match?_literal, Node.literalMatch?]
  | exact items ih =>
    have each := fun item member => ih item member (properItems_iff.1 proper item member)
    rw [toNode, toPattern, Node.documentMatch?, Pattern.match?_predicate, Predicate.match?_exact]
    cases candidate.items? with
    | none => rfl
    | some elements =>
      simp only [Option.bind_some, length_toNodeItems, length_toPatternItems]
      by_cases same : elements.length = items.length
      · rw [if_pos same, if_pos same, documentMatchItems?_toNodeItems each (Nat.le_of_eq same.symm)]
      · rw [if_neg same, if_neg same]
  | extract name =>
    rw [toNode, toPattern, Node.documentMatch?, Pattern.match?_predicate, Predicate.match?_extract]
  | extractWith name inner ih =>
    rw [toNode, toPattern, Node.documentMatch?, Pattern.match?_predicate, Predicate.match?_extractWith,
      ih proper]
    simp only [Captures.union_eq_merge]

end Document

/-- Compiling keeps the meaning: a pattern compiled from a document captures what the document does. -/
theorem match?_compile {document : Node} {pattern : Pattern}
    (compiled : (Document.compile document).value = .ok pattern) (candidate : Node) :
    pattern.match? candidate = candidate.documentMatch? document := by
  obtain ⟨read, proper, rfl, rfl⟩ := Document.compile_eq_ok_iff.1 compiled
  exact (Document.documentMatch?_toNode proper candidate).symm

/-- An exact array inside an extraction of the same name, and an extraction beside it. -/
theorem match?_compile_nested :
    let document := Node.object [
      ("a", .object [("$extract", .string "x"),
        ("$match", .object [("$exact", .array [.object [("$extract", .string "x")], .bool true])])]),
      ("b", .object [("$extract", .string "y"), ("$match", .object [("$literal", .array [])])])]
    let candidate := Node.object [("a", .array [.null, .bool true]), ("b", .array [.null]), ("c", .null)]
    ∃ pattern, (Document.compile document).value = .ok pattern ∧
      pattern.match? candidate = candidate.documentMatch? document ∧
      (pattern.match? candidate).map Captures.toList = some [("x", .null), ("y", .array [.null])] := by
  intro document candidate
  exact ⟨_, rfl, match?_compile rfl candidate, rfl⟩

end TreeMatch
