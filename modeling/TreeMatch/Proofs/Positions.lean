import TreeMatch.Proofs.Matching
import TreeMatch.Proofs.Node

/-!
# Positions of a match

A pattern and a candidate have positions: the parts of the pattern in the order in which a match comes
to them, each with the part of the candidate that it faces, if there is one. A match succeeds exactly
if every position holds on its own, and each name is then bound by the last predicate that captures
something under it. `Decides` says both of a list of positions, and `decides_match?` proves it.
-/

namespace TreeMatch

/-- A part of a pattern with the part of the candidate that it faces, if there is one. -/
structure Position where
  pattern : Pattern
  node? : Option Node

namespace Position

/-- What a position asks of its own node: a literal to be contained in it, a mapping every listed key,
a sequence enough elements and a predicate no rejection. A position without a node does not hold. -/
def Holds : Position → Prop
  | ⟨_, none⟩ => False
  | ⟨.literal expected, some node⟩ => node.contains expected = true
  | ⟨.mapping entries, some node⟩ => ∃ fields, node = .object fields ∧
      ∀ key ∈ Fields.names entries, key ∈ Fields.names fields
  | ⟨.sequence items, some node⟩ => ∃ elements, node = .array elements ∧ items.length ≤ elements.length
  | ⟨.predicate test, some node⟩ => (test.run node).value ≠ .reject

/-- The tree that a position binds to a name: what the verdict of its predicate captures under it. -/
def binding? (name : String) : Position → Option Node
  | ⟨.predicate test, some node⟩ =>
    match (test.run node).value with
    | .capture captures => captures.get? name
    | .accept | .reject => none
  | _ => none

/-- What the last of the positions that bind a name binds it to. -/
def lastBinding? (name : String) (positions : List Position) : Option Node :=
  (positions.filterMap (binding? name)).getLast?

end Position

namespace Pattern

mutual

/-- The positions of a pattern on a candidate, in the order in which a match comes to them. -/
def positions (node? : Option Node) : Pattern → List Position
  | literal value => [⟨literal value, node?⟩]
  | mapping entries => ⟨mapping entries, node?⟩ :: positionsEntries node? entries
  | sequence items => ⟨sequence items, node?⟩ :: positionsItems node? 0 items
  | predicate test => [⟨predicate test, node?⟩]

/-- The positions of entries, each at the value of its key. -/
def positionsEntries (node? : Option Node) : List (String × Pattern) → List Position
  | [] => []
  | (key, entry) :: rest =>
    positions (node?.bind (·.field? key)) entry ++ positionsEntries node? rest

/-- The positions of items, each at the element of its index. -/
def positionsItems (node? : Option Node) (index : Nat) : List Pattern → List Position
  | [] => []
  | item :: rest =>
    positions (node?.bind (·.element? index)) item ++ positionsItems node? (index + 1) rest

end

end Pattern

/-- Whether a result is that of matching all the positions: none if one of them does not hold, else the
last binding of every name. -/
def Decides (positions : List Position) : Option Captures → Prop
  | none => ∃ position ∈ positions, ¬ position.Holds
  | some captures => (∀ position ∈ positions, position.Holds) ∧
      ∀ name, captures.get? name = Position.lastBinding? name positions

theorem decides_nil : Decides [] (some .empty) := ⟨by simp, fun _ => rfl⟩

/-- A failure stays one whatever comes after it. -/
theorem Decides.append_none {first : List Position} (failed : Decides first none) (later : List Position) :
    Decides (first ++ later) none := by
  obtain ⟨position, member, fails⟩ := failed
  exact ⟨position, List.mem_append_left later member, fails⟩

theorem Position.lastBinding?_append (name : String) (first later : List Position) :
    lastBinding? name (first ++ later) = (lastBinding? name later).or (lastBinding? name first) := by
  rw [lastBinding?, List.filterMap_append, List.getLast?_append]
  rfl

/-- Positions one after the other are decided by merging what each of the two parts captures. -/
theorem Decides.append {first later : List Position} {a b : Option Captures} (decidesA : Decides first a)
    (decidesB : Decides later b) :
    Decides (first ++ later) (a.bind fun found => b.map found.merge) := by
  match a, b with
  | none, _ => exact decidesA.append_none later
  | some found, none =>
    obtain ⟨position, member, fails⟩ := decidesB
    exact ⟨position, List.mem_append_right first member, fails⟩
  | some found, some more =>
    obtain ⟨holdsA, bindsA⟩ := decidesA
    obtain ⟨holdsB, bindsB⟩ := decidesB
    refine ⟨?_, ?_⟩
    · intro position member
      rcases List.mem_append.1 member with inA | inB
      · exact holdsA position inA
      · exact holdsB position inB
    · intro name
      rw [Captures.get?_merge, bindsA, bindsB, Position.lastBinding?_append]

/-- A position that binds nothing changes nothing if it holds whenever the others do. -/
theorem Decides.cons {position : Position} (silent : ∀ name, position.binding? name = none)
    {rest : List Position} {result : Option Captures} (decides : Decides rest result)
    (holds : result.isSome → position.Holds) : Decides (position :: rest) result := by
  cases result with
  | none =>
    obtain ⟨other, member, fails⟩ := decides
    exact ⟨other, List.mem_cons_of_mem position member, fails⟩
  | some captures =>
    refine ⟨List.forall_mem_cons.2 ⟨holds rfl, decides.1⟩, ?_⟩
    intro name
    rw [decides.2 name, Position.lastBinding?, Position.lastBinding?,
      List.filterMap_cons_none (silent name)]

theorem decides_none_cons {pattern : Pattern} {node? : Option Node}
    (fails : ¬ Position.Holds ⟨pattern, node?⟩) (rest : List Position) :
    Decides (⟨pattern, node?⟩ :: rest) none :=
  ⟨⟨pattern, node?⟩, List.mem_cons_self .., fails⟩

/-- Where the candidate has no part, some position fails. -/
theorem decides_positions_none (pattern : Pattern) : Decides (pattern.positions none) none := by
  have fails : ∀ part, ¬ Position.Holds ⟨part, none⟩ := fun _ holds => holds
  cases pattern <;> exact decides_none_cons (fails _) _

theorem decides_predicate (test : Predicate) (candidate : Node) :
    Decides [⟨.predicate test, some candidate⟩] (test.match? candidate) := by
  rw [Predicate.match?]
  cases verdict : (test.run candidate).value with
  | reject =>
    have fails : ¬ Position.Holds ⟨.predicate test, some candidate⟩ := fun accepted => accepted verdict
    exact decides_none_cons fails []
  | accept =>
    refine ⟨?_, ?_⟩
    · simp [Position.Holds, verdict]
    · intro name
      simp [Position.lastBinding?, Position.binding?, verdict]
  | capture captures =>
    refine ⟨?_, ?_⟩
    · simp [Position.Holds, verdict]
    · intro name
      cases bound : captures.get? name <;> simp [Position.lastBinding?, Position.binding?, verdict, bound]

namespace Pattern

/-- Entries that match have all their keys in the object. -/
theorem mem_names_of_matchEntries? {fields : List (String × Node)} {entries : List (String × Pattern)}
    (matched : (matchEntries? fields entries).isSome) {key : String} (member : key ∈ Fields.names entries) :
    key ∈ Fields.names fields := by
  induction entries with
  | nil => simp [Fields.names] at member
  | cons listed rest ih =>
    obtain ⟨name, entry⟩ := listed
    rw [matchEntries?_cons, Option.isSome_bind, Option.any_eq_true] at matched
    obtain ⟨value, found, matched⟩ := matched
    rw [Option.isSome_bind, Option.any_eq_true] at matched
    obtain ⟨captures, -, matched⟩ := matched
    rcases List.mem_cons.1 member with rfl | later
    · exact Fields.isSome_lookup_iff.1 (found ▸ rfl)
    · exact ih (by simpa using matched) later

mutual

/-- A match is decided by its positions. -/
theorem decides_match? (pattern : Pattern) (candidate : Node) :
    Decides (pattern.positions (some candidate)) (pattern.match? candidate) := by
  match pattern with
  | .literal expected =>
    rw [positions, match?_literal]
    split
    · rename_i contained
      exact decides_nil.cons (fun _ => rfl) fun _ => contained
    · rename_i missing
      have fails : ¬ Position.Holds ⟨literal expected, some candidate⟩ := missing
      exact decides_none_cons fails []
  | .mapping entries =>
    rw [positions, match?_mapping]
    cases candidate with
    | object fields =>
      have parts := decides_matchEntries? entries (.object fields) fields rfl
      refine parts.cons (fun _ => rfl) fun matched => ⟨fields, rfl, ?_⟩
      intro key member
      exact mem_names_of_matchEntries? matched member
    | _ =>
      refine decides_none_cons ?_ _
      rintro ⟨fields, shape, -⟩
      cases shape
  | .sequence items =>
    rw [positions, match?_sequence]
    cases candidate with
    | array elements =>
      by_cases short : elements.length < items.length
      · have fails : ¬ Position.Holds ⟨.sequence items, some (.array elements)⟩ := by
          rintro ⟨_, same, enough⟩
          cases same
          omega
        rw [Node.items?, Option.bind_some, if_pos short]
        exact decides_none_cons fails _
      · rw [Node.items?, Option.bind_some, if_neg short]
        have parts := decides_matchItems? items (.array elements) elements 0 rfl (by omega)
        exact parts.cons (fun _ => rfl) fun _ => ⟨elements, rfl, by omega⟩
    | _ =>
      refine decides_none_cons ?_ _
      rintro ⟨elements, shape, -⟩
      cases shape
  | .predicate test =>
    rw [positions, match?_predicate]
    exact decides_predicate test candidate

/-- Entries are decided by the positions at the values of their keys. -/
theorem decides_matchEntries? (entries : List (String × Pattern)) (candidate : Node)
    (fields : List (String × Node)) (shape : candidate.fields? = some fields) :
    Decides (positionsEntries (some candidate) entries) (matchEntries? fields entries) := by
  match entries with
  | [] => exact decides_nil
  | (key, entry) :: rest =>
    have part : (some candidate).bind (·.field? key) = fields.lookup key := by
      rw [Option.bind_some, Node.field?, shape, Option.bind_some]
    rw [positionsEntries, matchEntries?_cons, part]
    cases fields.lookup key with
    | none => exact (decides_positions_none entry).append_none _
    | some value => exact (decides_match? entry value).append (decides_matchEntries? rest candidate fields shape)

/-- Items that have enough elements are decided by the positions at these. -/
theorem decides_matchItems? (items : List Pattern) (candidate : Node) (elements : List Node) (index : Nat)
    (shape : candidate.items? = some elements) (enough : index + items.length ≤ elements.length) :
    Decides (positionsItems (some candidate) index items) (matchItems? (elements.drop index) items) := by
  match items with
  | [] =>
    rw [matchItems?_nil]
    exact decides_nil
  | item :: rest =>
    rw [List.length_cons] at enough
    have inside : index < elements.length := by omega
    have part : (some candidate).bind (·.element? index) = some elements[index] := by
      rw [Option.bind_some, Node.element?, shape, Option.bind_some, List.getElem?_eq_getElem inside]
    rw [positionsItems, part, List.drop_eq_getElem_cons inside, matchItems?_cons]
    exact (decides_match? item elements[index]).append
      (decides_matchItems? rest candidate elements (index + 1) shape (by omega))

end

end Pattern

/-- A match succeeds exactly if all its positions hold; then every name has the last of its bindings,
and none if no position binds it. One position that fails leaves nothing of what others captured. -/
theorem match?_positions (pattern : Pattern) (candidate : Node) :
    ((pattern.match? candidate).isSome ↔ ∀ position ∈ pattern.positions (some candidate), position.Holds) ∧
    (∀ captures, pattern.match? candidate = some captures → ∀ name,
      captures.get? name = Position.lastBinding? name (pattern.positions (some candidate))) ∧
    (∀ position ∈ pattern.positions (some candidate), ¬ position.Holds →
      pattern.match? candidate = none) := by
  have decides := pattern.decides_match? candidate
  cases result : pattern.match? candidate with
  | none =>
    rw [result] at decides
    obtain ⟨position, member, fails⟩ := decides
    refine ⟨⟨nofun, fun holds => absurd (holds position member) fails⟩, nofun, fun _ _ _ => rfl⟩
  | some captures =>
    rw [result] at decides
    refine ⟨⟨fun _ => decides.1, fun _ => rfl⟩, ?_, ?_⟩
    · intro found same
      cases same
      exact decides.2
    · intro position member fails
      exact absurd (decides.1 position member) fails

end TreeMatch
