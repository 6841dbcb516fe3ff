import TreeMatch.Proofs.Success

/-!
# The order of entries

A mapping matches if each of its entries does by itself, so it does not matter in which order they are tried. Its
captures bind the names that some entry captures by itself, each to what one of these entries captures: the last. Only
where two different entries capture a name does their order show (`match?_permuted`).
-/

namespace TreeMatch

namespace Pattern

/-- What an entry captures by itself: its pattern is matched alone, against the value of its key. -/
def matchEntry? (candidate : Node) (entry : String × Pattern) : Option Captures :=
  (candidate.field? entry.1).bind entry.2.match?

/-- No name is captured by two different entries. An entry that is listed twice does not differ from itself. -/
def Apart (candidate : Node) (entries : List (String × Pattern)) : Prop :=
  ∀ a ∈ entries, ∀ b ∈ entries, a ≠ b → ∀ foundA foundB, matchEntry? candidate a = some foundA →
    matchEntry? candidate b = some foundB → ∀ name ∈ foundA.names, name ∉ foundB.names

/-- The captures consist of what the entries capture by themselves. -/
structure Combines (candidate : Node) (entries : List (String × Pattern)) (captures : Captures) : Prop where
  bound : ∀ entry ∈ entries, ∀ found, matchEntry? candidate entry = some found →
    ∀ name ∈ found.names, name ∈ captures.names
  source : ∀ name value, captures.get? name = some value →
    ∃ entry ∈ entries, ∃ found, matchEntry? candidate entry = some found ∧ found.get? name = some value

theorem matchEntry?_object (fields : List (String × Node)) (entry : String × Pattern) :
    matchEntry? (.object fields) entry = (fields.lookup entry.1).bind entry.2.match? := rfl

theorem Combines.nil (candidate : Node) : Combines candidate [] .empty := ⟨nofun, nofun⟩

/-- One entry more is matched by itself, and what the others capture wins over it. -/
theorem Combines.cons {candidate : Node} {entry : String × Pattern} {rest : List (String × Pattern)}
    {found later : Captures} (first : matchEntry? candidate entry = some found)
    (combines : Combines candidate rest later) :
    Combines candidate (entry :: rest) (found.merge later) := by
  refine ⟨List.forall_mem_cons.2 ⟨?_, ?_⟩, ?_⟩
  · intro other same name listed
    cases first.symm.trans same
    rw [Captures.mem_names_iff] at listed ⊢
    rw [Captures.get?_merge, Option.isSome_or, listed, Bool.or_true]
  · intro other member inner same name listed
    have held := combines.bound other member inner same name listed
    rw [Captures.mem_names_iff] at held ⊢
    rw [Captures.get?_merge, Option.isSome_or, held, Bool.true_or]
  · intro name value bound
    rw [Captures.get?_merge, Option.or_eq_some_iff] at bound
    rcases bound with bound | ⟨-, bound⟩
    · obtain ⟨other, member, inner⟩ := combines.source name value bound
      exact ⟨other, List.mem_cons_of_mem entry member, inner⟩
    · exact ⟨entry, List.mem_cons_self, found, first, bound⟩

theorem combines_matchEntries? {fields : List (String × Node)} {entries : List (String × Pattern)} {captures : Captures}
    (matched : matchEntries? fields entries = some captures) : Combines (.object fields) entries captures := by
  induction entries generalizing captures with
  | nil =>
    cases matched
    exact .nil _
  | cons entry rest ih =>
    obtain ⟨key, pattern⟩ := entry
    rw [matchEntries?_cons] at matched
    obtain ⟨value, held, matched⟩ := Option.bind_eq_some_iff.1 matched
    obtain ⟨found, here, matched⟩ := Option.bind_eq_some_iff.1 matched
    obtain ⟨later, behind, rfl⟩ := Option.map_eq_some_iff.1 matched
    refine .cons ?_ (ih behind)
    rw [matchEntry?_object, held, Option.bind_some, here]

theorem combines_match? {entries : List (String × Pattern)} {candidate : Node} {captures : Captures}
    (matched : (mapping entries).match? candidate = some captures) : Combines candidate entries captures := by
  rw [match?_mapping] at matched
  obtain ⟨fields, shape, matched⟩ := Option.bind_eq_some_iff.1 matched
  cases candidate with
  | object _ =>
    cases shape
    exact combines_matchEntries? matched
  | _ => cases shape

namespace Combines

variable {candidate : Node} {entries others : List (String × Pattern)} {captures other : Captures}

theorem names_subset (combines : Combines candidate entries captures) (also : Combines candidate others other)
    (listed : ∀ entry ∈ entries, entry ∈ others) {name : String} (member : name ∈ captures.names) :
    name ∈ other.names := by
  obtain ⟨value, bound⟩ := Option.isSome_iff_exists.1 (Captures.mem_names_iff.1 member)
  obtain ⟨entry, inside, found, same, bound⟩ := combines.source name value bound
  have here : name ∈ found.names := Captures.mem_names_iff.2 (bound ▸ rfl)
  exact also.bound entry (listed entry inside) found same name here

/-- Of entries that are apart only one captures the name, so it can only be bound to what that one captures. -/
theorem get?_of_apart (combines : Combines candidate entries captures) (also : Combines candidate others other)
    (listed : ∀ entry ∈ entries, entry ∈ others) (apart : Apart candidate others) {name : String} {value : Node}
    (bound : captures.get? name = some value) : other.get? name = some value := by
  have member : name ∈ captures.names := Captures.mem_names_iff.2 (bound ▸ rfl)
  obtain ⟨otherValue, boundOther⟩ :=
    Option.isSome_iff_exists.1 (Captures.mem_names_iff.1 (combines.names_subset also listed member))
  obtain ⟨a, inA, foundA, sameA, boundA⟩ := combines.source name value bound
  obtain ⟨b, inB, foundB, sameB, boundB⟩ := also.source name otherValue boundOther
  by_cases same : a = b
  · subst same
    cases sameA.symm.trans sameB
    rw [boundOther, ← boundB, boundA]
  · have inFoundA : name ∈ foundA.names := Captures.mem_names_iff.2 (boundA ▸ rfl)
    have inFoundB : name ∈ foundB.names := Captures.mem_names_iff.2 (boundB ▸ rfl)
    exact absurd inFoundB (apart a (listed a inA) b inB same foundA foundB sameA sameB name inFoundA)

end Combines

theorem Apart.perm {candidate : Node} {entries permuted : List (String × Pattern)} (order : entries.Perm permuted)
    (apart : Apart candidate entries) : Apart candidate permuted :=
  fun a inA b inB => apart a (order.mem_iff.2 inA) b (order.mem_iff.2 inB)

end Pattern

/-- A mapping matches whatever the order of its entries, and captures the same names. Where no two different entries
capture the same name, it captures the same trees as well. -/
theorem match?_permuted {entries permuted : List (String × Pattern)} (order : entries.Perm permuted)
    (candidate : Node) :
    (((Pattern.mapping entries).match? candidate).isSome ↔ ((Pattern.mapping permuted).match? candidate).isSome) ∧
    ∀ captures other, (Pattern.mapping entries).match? candidate = some captures →
      (Pattern.mapping permuted).match? candidate = some other →
      captures.names = other.names ∧ (Pattern.Apart candidate entries → captures = other) := by
  constructor
  · have alike : Pattern.EntriesMet Pattern.Matches entries candidate ↔
        Pattern.EntriesMet Pattern.Matches permuted candidate :=
      exists_congr fun fields => and_congr_right fun _ => forall_congr' fun entry => imp_congr_left order.mem_iff
    exact Pattern.matches_mapping_iff.trans (alike.trans Pattern.matches_mapping_iff.symm)
  · intro captures other matched matchedOther
    have combines := Pattern.combines_match? matched
    have also := Pattern.combines_match? matchedOther
    have forward : ∀ entry ∈ entries, entry ∈ permuted := fun _ => order.mem_iff.1
    have backward : ∀ entry ∈ permuted, entry ∈ entries := fun _ => order.mem_iff.2
    -- Both captures combine the same entries, so what holds in one direction holds in the other.
    refine ⟨?_, fun apart => ?_⟩
    · rw [Captures.names_eq_iff]
      exact fun name => ⟨combines.names_subset also forward, also.names_subset combines backward⟩
    · refine Captures.ext_get? fun name => Option.ext fun value => ?_
      exact ⟨combines.get?_of_apart also forward (apart.perm order),
        also.get?_of_apart combines backward apart⟩

/-- Where two entries capture one name, the later of them wins. -/
example :
    let candidate := Node.object [("a", .null), ("b", .bool true)]
    let a := ("a", Pattern.predicate (.extract "n"))
    let b := ("b", Pattern.predicate (.extract "n"))
    (Pattern.mapping [a, b]).match? candidate = some (.single "n" (.bool true)) ∧
      (Pattern.mapping [b, a]).match? candidate = some (.single "n" .null) :=
  ⟨rfl, rfl⟩

/-- A key with two entries, and an entry that captures two names. -/
theorem match?_permuted_apart :
    let candidate := Node.object [("a", .bool true), ("b", .array [.null, .bool true])]
    let entries := [("b", Pattern.predicate (.extractWith "z" (.sequence [.predicate (.extract "y")]))),
      ("a", .literal (.bool true)), ("a", .predicate (.extract "x"))]
    let permuted := [entries[2], entries[0], entries[1]]
    let captures := Captures.ofList [("x", .bool true), ("y", .null), ("z", .array [.null, .bool true])]
    entries.Perm permuted ∧ Pattern.Apart candidate entries ∧
      (Pattern.mapping entries).match? candidate = some captures ∧
      ((Pattern.mapping permuted).match? candidate).isSome ∧
      ∀ other, (Pattern.mapping permuted).match? candidate = some other →
        captures.names = other.names ∧ captures = other := by
  intro candidate entries permuted captures
  have order : entries.Perm permuted := @List.perm_append_comm _ [entries[0], entries[1]] [entries[2]]
  have apart : Pattern.Apart candidate entries := by
    intro a inA b inB different foundA foundB sameA sameB
    simp only [entries, List.mem_cons, List.not_mem_nil, or_false] at inA inB
    rcases inA with rfl | rfl | rfl <;> rcases inB with rfl | rfl | rfl <;>
      first
      | exact absurd rfl different
      | cases sameA; cases sameB; decide
  have matched : (Pattern.mapping entries).match? candidate = some captures := rfl
  obtain ⟨alike, results⟩ := match?_permuted order candidate
  refine ⟨order, apart, matched, alike.1 (matched ▸ rfl), ?_⟩
  intro other matchedOther
  obtain ⟨names, equal⟩ := results captures other matched matchedOther
  exact ⟨names, equal apart⟩

end TreeMatch
