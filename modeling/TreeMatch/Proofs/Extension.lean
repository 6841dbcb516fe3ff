import TreeMatch.Proofs.Success

/-!
# Larger candidates

A tree extends another if it has all that the other has at the same places. A pattern sets no limit to its candidates
if neither exact arrays nor functions stand in it. Such a pattern that matches a tree also matches every tree that
extends it, and captures extensions of what it has captured, under the same names (`match?_extends`). Merging keeps
this, because both matches bind their names at the same places, so the same binding wins.
-/

namespace TreeMatch

/-! ## Trees -/

namespace Node

/-- Both are the same scalar, or both are arrays or objects, and whatever the second has at an index or under a key is
extended by what the first has there. -/
inductive Extends : Node → Node → Prop
  | null : Extends null null
  | bool (value : Bool) : Extends (bool value) (bool value)
  | number (value : Number) : Extends (number value) (number value)
  | string (text : String) : Extends (string text) (string text)
  | array {more items : List Node} (longer : items.length ≤ more.length)
    (each : ∀ (i : Nat) (other item : Node), more[i]? = some other → items[i]? = some item → Extends other item) :
    Extends (array more) (array items)
  | object {more fields : List (String × Node)} (keys : ∀ key ∈ Fields.names fields, key ∈ Fields.names more)
    (each : ∀ (key : String) (other value : Node), more.lookup key = some other → fields.lookup key = some value →
      Extends other value) :
    Extends (object more) (object fields)

namespace Extends

section
variable {more items : List Node}

theorem length_le (larger : (Node.array more).Extends (Node.array items)) : items.length ≤ more.length := by
  cases larger with
  | array longer _ => exact longer

theorem element (larger : (Node.array more).Extends (Node.array items)) {i : Nat} {item : Node}
    (listed : items[i]? = some item) :
    ∃ other, more[i]? = some other ∧ other.Extends item := by
  cases larger with
  | array longer each =>
    obtain ⟨inside, -⟩ := List.getElem?_eq_some_iff.1 listed
    have leads : more[i]? = some more[i] := List.getElem?_eq_getElem (Nat.lt_of_lt_of_le inside longer)
    exact ⟨more[i], leads, each i _ item leads listed⟩

theorem nil (more : List Node) : (Node.array more).Extends (Node.array []) := .array (Nat.zero_le _) nofun

theorem cons_iff {other item : Node} :
    (Node.array (other :: more)).Extends (Node.array (item :: items)) ↔
      other.Extends item ∧ (Node.array more).Extends (Node.array items) := by
  constructor
  · intro larger
    cases larger with
    | array longer each =>
      refine ⟨each 0 other item rfl rfl, .array (Nat.le_of_succ_le_succ longer) ?_⟩
      exact fun i => each (i + 1)
  · rintro ⟨first, rest⟩
    cases rest with
    | array longer each =>
      refine .array (Nat.succ_le_succ longer) ?_
      intro i
      cases i with
      | zero =>
        rintro _ _ ⟨⟩ ⟨⟩
        exact first
      | succ i => exact each i

end

section
variable {more fields : List (String × Node)}

theorem value (larger : (Node.object more).Extends (Node.object fields)) {key : String} {value : Node}
    (found : fields.lookup key = some value) : ∃ other, more.lookup key = some other ∧ other.Extends value := by
  cases larger with
  | object keys each =>
    obtain ⟨other, leads⟩ := Fields.exists_lookup (keys key (Fields.mem_names_of_lookup found))
    exact ⟨other, leads, each key other value leads found⟩

theorem of_fields (each : ∀ field ∈ fields, ∃ other, more.lookup field.1 = some other ∧ other.Extends field.2) :
    (Node.object more).Extends (Node.object fields) := by
  refine .object ?_ ?_
  · intro key listed
    obtain ⟨field, member, rfl⟩ := List.mem_map.1 listed
    obtain ⟨other, leads, -⟩ := each field member
    exact Fields.mem_names_of_lookup leads
  · intro key other value leads found
    obtain ⟨found, same, larger⟩ := each (key, value) (Fields.mem_of_lookup found)
    cases leads.symm.trans same
    exact larger

end

/-- A literal that is contained in a tree is contained in every larger one: further keys and elements are not
looked at. -/
theorem contains {more node : Node} (larger : more.Extends node) {literal : Node}
    (contained : node.contains literal = true) : more.contains literal = true := by
  -- The literal says which parts are looked at, so the induction is on it and not on the trees.
  induction literal generalizing more node with
  | null | bool _ | number _ | string _ => cases larger <;> exact contained
  | array values ih =>
    cases node with
    | array items =>
      obtain ⟨elements, rfl⟩ : ∃ elements, more = .array elements := by cases larger; exact ⟨_, rfl⟩
      rw [Node.contains, containsItems_iff] at contained ⊢
      intro i value listed
      obtain ⟨item, facing, inside⟩ := contained i value listed
      obtain ⟨other, leads, larger⟩ := larger.element facing
      exact ⟨other, leads, ih value (List.mem_of_getElem? listed) larger inside⟩
    | _ => cases contained
  | object expected ih =>
    cases node with
    | object fields =>
      obtain ⟨others, rfl⟩ : ∃ others, more = .object others := by cases larger; exact ⟨_, rfl⟩
      rw [Node.contains, containsFields_iff] at contained ⊢
      intro field member
      obtain ⟨value, found, inside⟩ := contained field member
      obtain ⟨other, leads, larger⟩ := larger.value found
      exact ⟨other, leads, ih field member larger inside⟩
    | _ => cases contained

end Extends

end Node

/-! ## Captures -/

namespace Captures

/-- Both bind the same names, the first to extensions of what the second binds them to. -/
def Extends (more captures : Captures) : Prop :=
  ∀ name, Option.Rel Node.Extends (more.get? name) (captures.get? name)

theorem rel_or {first first' later later' : Option Node} (relFirst : Option.Rel Node.Extends first first')
    (relLater : Option.Rel Node.Extends later later') :
    Option.Rel Node.Extends (later.or first) (later'.or first') := by
  cases relLater with
  | none => exact relFirst
  | some larger => exact .some larger

namespace Extends

theorem empty : Captures.empty.Extends .empty := fun _ => .none

theorem single (name : String) {more node : Node} (larger : more.Extends node) :
    (Captures.single name more).Extends (.single name node) := by
  intro key
  rw [get?_single, get?_single]
  split
  · exact .some larger
  · exact .none

/-- Of a name that both parts bind, the later binding wins on either side. -/
theorem merge {moreA a moreB b : Captures} (first : moreA.Extends a) (later : moreB.Extends b) :
    (moreA.merge moreB).Extends (a.merge b) := by
  intro name
  rw [get?_merge, get?_merge]
  exact rel_or (first name) (later name)

variable {more captures : Captures} (larger : more.Extends captures)
include larger

theorem names_eq : more.names = captures.names := by
  rw [names_eq_iff]
  intro name
  rw [mem_names_iff, mem_names_iff]
  have here := larger name
  generalize more.get? name = bound, captures.get? name = boundToo at here
  cases here <;> rfl

theorem exists_get? {name : String} {value : Node} (bound : captures.get? name = some value) :
    ∃ other, more.get? name = some other ∧ other.Extends value := by
  have here := larger name
  rw [bound] at here
  generalize more.get? name = result at here ⊢
  cases here with
  | some larger => exact ⟨_, rfl, larger⟩

end Extends

end Captures

/-! ## Patterns without limits -/

mutual

/-- Whether nothing in the pattern can limit its candidates: no exact array and no function. -/
def Pattern.lenient : Pattern → Bool
  | .literal _ => true
  | .mapping entries => Pattern.lenientEntries entries
  | .sequence items => Pattern.lenientItems items
  | .predicate test => Predicate.lenient test

/-- Whether nothing in the patterns of the entries can limit a value. -/
def Pattern.lenientEntries : List (String × Pattern) → Bool
  | [] => true
  | (_, entry) :: rest => Pattern.lenient entry && Pattern.lenientEntries rest

/-- Whether nothing in the items can limit an element. -/
def Pattern.lenientItems : List Pattern → Bool
  | [] => true
  | item :: rest => Pattern.lenient item && Pattern.lenientItems rest

/-- Whether the predicate extracts or matches a pattern without limits, under any label. -/
def Predicate.lenient : Predicate → Bool
  | .mk _ action => Action.lenient action

/-- Whether the action extracts or matches a pattern without limits. -/
def Action.lenient : Action → Bool
  | .extract _ => true
  | .adapt pattern | .extractWith _ pattern => Pattern.lenient pattern
  | .check _ | .exact _ => false

end

/-- Where the second result has captures, the first has extensions of them. -/
def Keeps (more? captures? : Option Captures) : Prop :=
  ∀ captures, captures? = some captures → ∃ more, more? = some more ∧ more.Extends captures

theorem Keeps.map_merge {moreB? b? : Option Captures} (later : Keeps moreB? b?) {moreA a : Captures}
    (first : moreA.Extends a) : Keeps (moreB?.map moreA.merge) (b?.map a.merge) := by
  intro captures matched
  obtain ⟨b, found, rfl⟩ := Option.map_eq_some_iff.1 matched
  obtain ⟨moreB, same, larger⟩ := later b found
  exact ⟨moreA.merge moreB, by rw [same, Option.map_some], first.merge larger⟩

/-- Parts that are matched one after the other keep what each of them keeps. -/
theorem Keeps.next {moreA? a? moreB? b? : Option Captures} (first : Keeps moreA? a?) (later : Keeps moreB? b?) :
    Keeps (moreA?.bind fun found => moreB?.map found.merge) (a?.bind fun found => b?.map found.merge) := by
  intro captures matched
  obtain ⟨a, found, matched⟩ := Option.bind_eq_some_iff.1 matched
  obtain ⟨moreA, same, larger⟩ := first a found
  rw [same, Option.bind_some]
  exact later.map_merge larger captures matched

mutual

/-- A pattern without limits keeps its matches. -/
theorem keeps_match? (pattern : Pattern) (lenient : pattern.lenient = true) {more node : Node}
    (larger : more.Extends node) :
    Keeps (pattern.match? more) (pattern.match? node) := by
  match pattern with
  | .literal expected =>
    rw [Pattern.match?_literal, Pattern.match?_literal]
    intro captures matched
    split at matched
    · rename_i contained
      cases matched
      rw [if_pos (larger.contains contained)]
      exact ⟨.empty, rfl, .empty⟩
    · cases matched
  | .mapping entries =>
    rw [Pattern.match?_mapping, Pattern.match?_mapping]
    cases larger with
    | object keys each => exact keeps_matchEntries? entries lenient (.object keys each)
    | _ => exact nofun
  | .sequence items =>
    rw [Pattern.match?_sequence, Pattern.match?_sequence]
    cases larger with
    | @array others elements longer each =>
      simp only [Node.items?, Option.bind_some]
      intro captures matched
      split at matched
      · cases matched
      · rename_i enough
        rw [if_neg (by omega)]
        exact keeps_matchItems? items lenient (.array longer each) (by omega) captures matched
    | _ => exact nofun
  | .predicate test =>
    rw [Pattern.match?_predicate, Pattern.match?_predicate]
    -- Exact arrays and functions do not occur below: they are not lenient.
    exact keeps_call test lenient larger

theorem keeps_matchEntries? (entries : List (String × Pattern)) (lenient : Pattern.lenientEntries entries = true)
    {others fields : List (String × Node)} (larger : (Node.object others).Extends (.object fields)) :
    Keeps (Pattern.matchEntries? others entries) (Pattern.matchEntries? fields entries) := by
  match entries with
  | [] =>
    rintro _ ⟨⟩
    exact ⟨.empty, rfl, .empty⟩
  | (key, entry) :: rest =>
    rw [Pattern.matchEntries?_cons, Pattern.matchEntries?_cons]
    cases found : fields.lookup key with
    | none => exact nofun
    | some value =>
      obtain ⟨lenientFirst, lenientRest⟩ := Bool.and_eq_true_iff.1 lenient
      obtain ⟨other, leads, inside⟩ := larger.value found
      rw [leads, Option.bind_some, Option.bind_some]
      exact (keeps_match? entry lenientFirst inside).next (keeps_matchEntries? rest lenientRest larger)

/-- The items stop before the elements do, so elements behind them are not looked at. -/
theorem keeps_matchItems? (items : List Pattern) (lenient : Pattern.lenientItems items = true)
    {others elements : List Node} (larger : (Node.array others).Extends (.array elements))
    (enough : items.length ≤ elements.length) :
    Keeps (Pattern.matchItems? others items) (Pattern.matchItems? elements items) := by
  match items, others, elements with
  | [], _, _ =>
    rw [Pattern.matchItems?_nil, Pattern.matchItems?_nil]
    rintro _ ⟨⟩
    exact ⟨.empty, rfl, .empty⟩
  | _ :: _, _, [] => cases enough
  | _ :: _, [], _ :: _ => cases larger.length_le
  | item :: rest, other :: others, element :: elements =>
    obtain ⟨lenientFirst, lenientRest⟩ := Bool.and_eq_true_iff.1 lenient
    obtain ⟨first, behind⟩ := Node.Extends.cons_iff.1 larger
    rw [Pattern.matchItems?_cons, Pattern.matchItems?_cons]
    exact (keeps_match? item lenientFirst first).next
      (keeps_matchItems? rest lenientRest behind (Nat.le_of_succ_le_succ enough))

theorem keeps_call (test : Predicate) (lenient : test.lenient = true) {more node : Node} (larger : more.Extends node) :
    Keeps (test.match? more) (test.match? node) := by
  match test with
  | .mk label (.adapt pattern) =>
    have inner (node : Node) : (Predicate.mk label (.adapt pattern)).match? node = pattern.match? node :=
      ((Predicate.adapt pattern).match?_withLabel label node).trans (Predicate.match?_adapt pattern node)
    rw [inner, inner]
    exact keeps_match? pattern lenient larger
  | .mk label (.extract name) =>
    rintro _ ⟨⟩
    exact ⟨_, rfl, .single name larger⟩
  | .mk label (.extractWith name pattern) =>
    have inner (node : Node) : (Predicate.mk label (.extractWith name pattern)).match? node =
        (pattern.match? node).map (Captures.single name node).merge :=
      ((Predicate.extractWith name pattern).match?_withLabel label node).trans
        (Predicate.match?_extractWith name pattern node)
    rw [inner, inner]
    exact (keeps_match? pattern lenient larger).map_merge (.single name larger)

end

/-- A pattern without limits that matches a tree matches every tree that extends it. The larger match captures the same
names, and under each of them an extension of what the smaller one captures. -/
theorem match?_extends {pattern : Pattern} (lenient : pattern.lenient = true) {more node : Node}
    (larger : more.Extends node) {captures : Captures} (matched : pattern.match? node = some captures) :
    ∃ found, pattern.match? more = some found ∧ found.names = captures.names ∧
      ∀ name value, captures.get? name = some value → ∃ other, found.get? name = some other ∧ other.Extends value := by
  obtain ⟨found, same, extended⟩ := keeps_match? pattern lenient larger captures matched
  exact ⟨found, same, extended.names_eq, fun _ _ bound => extended.exists_get? bound⟩

/-- An exact array is a limit: one element more and it does not match. -/
example : (Pattern.predicate (.exact [.literal .null])).match? (.array [.null]) = some .empty ∧
    (Pattern.predicate (.exact [.literal .null])).match? (.array [.null, .null]) = none :=
  ⟨rfl, rfl⟩

/-- A name that is bound three times, and a key that is listed twice. -/
theorem match?_extends_repeated :
    let node := Node.object [("a", .array [.bool true]), ("b", .string "x")]
    let more := Node.object [("a", .array [.bool true, .null]), ("b", .string "x"), ("c", .null)]
    let pattern := Pattern.mapping [("a", .literal (.array [.bool true])), ("b", .predicate (.extract "n")),
      ("a", .predicate (.extractWith "m" (.sequence [.predicate (.adapt (.predicate (.extract "n")))]))),
      ("a", .predicate (.extract "n"))]
    let captures := Captures.ofList [("m", .array [.bool true]), ("n", .array [.bool true])]
    pattern.lenient = true ∧ more.Extends node ∧ pattern.match? node = some captures ∧
      ∃ found, pattern.match? more = some found ∧ found.names = captures.names ∧
        (∀ name value, captures.get? name = some value →
          ∃ other, found.get? name = some other ∧ other.Extends value) ∧
        found.get? "n" = some (.array [.bool true, .null]) := by
  intro node more pattern captures
  have elements : (Node.array [.bool true, .null]).Extends (.array [.bool true]) :=
    Node.Extends.cons_iff.2 ⟨.bool true, .nil _⟩
  have larger : more.Extends node :=
    .of_fields (List.forall_mem_cons.2 ⟨⟨_, rfl, elements⟩, List.forall_mem_singleton.2 ⟨_, rfl, .string "x"⟩⟩)
  have matched : pattern.match? node = some captures := rfl
  obtain ⟨found, same, names, values⟩ := match?_extends rfl larger matched
  refine ⟨rfl, larger, matched, found, same, names, values, ?_⟩
  cases same
  rfl

end TreeMatch
