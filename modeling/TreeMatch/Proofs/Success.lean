import TreeMatch.Proofs.Containment
import TreeMatch.Proofs.Numbers
import TreeMatch.Proofs.Reading

/-!
# Matching candidates

Whether a pattern matches a candidate, whatever is captured, is decided part by part: there is one equivalence
for each kind of pattern and for each kind of literal, and none of them mentions captures. A literal is contained in
itself (`contains_self`), so each matches somewhere.
-/

namespace TreeMatch

/-! ## Literals -/

namespace Node

theorem containsItems_iff {elements values : List Node} :
    containsItems elements values = true ↔ ∀ (i : Nat) (value : Node), values[i]? = some value →
      ∃ element, elements[i]? = some element ∧ element.contains value = true := by
  induction values generalizing elements with
  | nil => simp [containsItems]
  | cons value rest ih =>
    cases elements with
    | nil =>
      exact iff_of_false Bool.false_ne_true (Pattern.not_facing_of_lt (Nat.succ_pos _))
    | cons element others => rw [containsItems, Bool.and_eq_true, ih, Pattern.facing_cons_iff]

theorem containsFields_iff {fields expected : List (String × Node)} :
    containsFields fields expected = true ↔
      ∀ field ∈ expected, ∃ value, fields.lookup field.1 = some value ∧ value.contains field.2 = true := by
  induction expected with
  | nil => simp [containsFields]
  | cons field rest ih =>
    obtain ⟨key, value⟩ := field
    rw [containsFields, Bool.and_eq_true, ih, List.forall_mem_cons]
    cases fields.lookup key <;> simp

theorem contains_self {node : Node} (wellFormed : node.WellFormed) : node.contains node = true := by
  induction node with
  | null => rfl
  | bool value => simp [contains]
  | number value => simp [contains, Number.equal_self]
  | string text => simp [contains]
  | array items ih =>
    rw [contains, containsItems_iff]
    intro i item listed
    have member := List.mem_of_getElem? listed
    exact ⟨item, listed, ih item member (wellFormed_array_iff.1 wellFormed item member)⟩
  | object fields ih =>
    obtain ⟨ascending, each⟩ := wellFormed_object_iff.1 wellFormed
    rw [contains, containsFields_iff]
    intro field member
    exact ⟨field.2, (Fields.lookup_eq_some_iff_mem ascending).2 member, ih field member (each field member)⟩

end Node

/-! ## Patterns -/

namespace Pattern

/-- The pattern matches the candidate. -/
def Matches (pattern : Pattern) (candidate : Node) : Prop := (pattern.match? candidate).isSome

theorem isSome_matchItems?_iff {items : List Pattern} {elements : List Node} (enough : items.length ≤ elements.length) :
    (matchItems? elements items).isSome ↔ ∀ (i : Nat) (item : Pattern), items[i]? = some item →
      ∃ element, elements[i]? = some element ∧ item.Matches element := by
  induction items generalizing elements with
  | nil => simp
  | cons item rest ih =>
    cases elements with
    | nil => cases enough
    | cons element others =>
      have below := ih (Nat.le_of_succ_le_succ enough)
      have both : (matchItems? (element :: others) (item :: rest)).isSome ↔
          item.Matches element ∧ (matchItems? others rest).isSome := by
        rw [matchItems?_cons, Matches]
        cases item.match? element <;> simp
      rw [both, below, facing_cons_iff]

theorem isSome_matchEntries?_iff {fields : List (String × Node)} {entries : List (String × Pattern)} :
    (matchEntries? fields entries).isSome ↔
      ∀ entry ∈ entries, ∃ value, fields.lookup entry.1 = some value ∧ entry.2.Matches value := by
  induction entries with
  | nil => simp
  | cons listed rest ih =>
    obtain ⟨key, entry⟩ := listed
    rw [List.forall_mem_cons, ← ih, matchEntries?_cons]
    cases fields.lookup key with
    | none => simp
    | some value =>
      simp only [Option.bind_some, Option.some.injEq, exists_eq_left', Matches]
      cases entry.match? value <;> simp

/-- Items may be exchanged for others that match the same elements. -/
theorem itemsMet_map_congr {α : Type} (first second : α → Pattern) {items : List α}
    (each : ∀ item ∈ items, ∀ element, (first item).Matches element ↔ (second item).Matches element)
    (candidate : Node) :
    ItemsMet Matches (items.map first) candidate ↔ ItemsMet Matches (items.map second) candidate := by
  refine exists_congr fun elements => and_congr_right fun _ => forall_congr' fun i => ?_
  rw [List.getElem?_map, List.getElem?_map]
  cases listed : items[i]? with
  | none => simp
  | some item => simp [each item (List.mem_of_getElem? listed)]

theorem entriesMet_map_congr {α : Type} (first second : α → Pattern) {entries : List (String × α)}
    (each : ∀ entry ∈ entries, ∀ value, (first entry.2).Matches value ↔ (second entry.2).Matches value)
    (candidate : Node) :
    EntriesMet Matches (entries.map fun entry => (entry.1, first entry.2)) candidate ↔
      EntriesMet Matches (entries.map fun entry => (entry.1, second entry.2)) candidate := by
  refine exists_congr fun fields => and_congr_right fun _ => ?_
  rw [List.forall_mem_map, List.forall_mem_map]
  refine forall₂_congr fun entry member => exists_congr fun value => and_congr_right fun _ => ?_
  exact each entry member value

theorem matches_literal_iff {expected candidate : Node} :
    (literal expected).Matches candidate ↔ candidate.contains expected = true := by
  rw [Matches, match?_literal]
  split <;> simp_all

theorem matches_sequence_iff {items : List Pattern} {candidate : Node} :
    (sequence items).Matches candidate ↔ ItemsMet Matches items candidate := by
  rw [Matches, match?_sequence, ItemsMet]
  cases candidate with
  | array elements =>
    rw [Node.items?, Option.bind_some]
    by_cases short : elements.length < items.length
    · rw [if_pos short]
      constructor
      · intro matched
        cases matched
      · rintro ⟨_, ⟨⟩, parts⟩
        exact absurd parts (not_facing_of_lt short)
    · rw [if_neg short, isSome_matchItems?_iff (Nat.le_of_not_lt short)]
      simp
  | _ => simp [Node.items?]

theorem matches_mapping_iff {entries : List (String × Pattern)} {candidate : Node} :
    (mapping entries).Matches candidate ↔ EntriesMet Matches entries candidate := by
  rw [Matches, match?_mapping, EntriesMet]
  cases candidate with
  | object fields => simp [Node.fields?, isSome_matchEntries?_iff]
  | _ => simp [Node.fields?]

theorem matches_exact_iff {items : List Pattern} {candidate : Node} :
    (predicate (.exact items)).Matches candidate ↔
      (∀ elements, candidate = .array elements → elements.length = items.length) ∧
        ItemsMet Matches items candidate := by
  rw [Matches, match?_predicate, Predicate.match?_exact, ItemsMet]
  cases candidate with
  | array elements =>
    rw [Node.items?, Option.bind_some]
    by_cases same : elements.length = items.length
    · rw [if_pos same, isSome_matchItems?_iff (Nat.le_of_eq same.symm)]
      simp [same]
    · rw [if_neg same]
      simp [same]
  | _ => simp [Node.items?]

theorem matches_extract (name : String) (candidate : Node) : (predicate (.extract name)).Matches candidate := by
  rw [Matches, match?_predicate, Predicate.match?_extract]
  rfl

theorem matches_extractWith_iff {name : String} {inner : Pattern} {candidate : Node} :
    (predicate (.extractWith name inner)).Matches candidate ↔ inner.Matches candidate := by
  rw [Matches, Matches, match?_predicate, Predicate.match?_extractWith, Option.isSome_map]

end Pattern

end TreeMatch
