import TreeMatch.Proofs.Contexts
import TreeMatch.Proofs.Stops

/-!
# Matches without predicates

What a pattern without predicates asks for is a set of requirements, each a place and what has to stand
there: a scalar, an array or an object. An array is required alike by a literal and by a sequence, an object
by a literal and by a mapping, and neither the order nor the repetition of keys plays a part. A candidate
matches exactly if it meets all of them, and then nothing is captured (`match?_contained`).
-/

namespace TreeMatch

/-! ## Requirements -/

/-- What has to stand at a place. -/
inductive Shape where
  | null
  | bool (value : Bool)
  | number (value : Number)
  | string (text : String)
  | array
  | object

/-- Whether a tree has a shape: numbers are compared by value, other scalars are the same. -/
def Shape.Fits (node : Node) : Shape → Prop
  | null => node = .null
  | bool value => node = .bool value
  | number expected => ∃ value, node = .number value ∧ value.equal expected = true
  | string text => node = .string text
  | array => ∃ elements, node = .array elements
  | object => ∃ fields, node = .object fields

/-- A shape at a place. -/
structure Requirement where
  place : List Step
  shape : Shape

namespace Requirement

/-- A shape of the candidate itself. -/
def here (shape : Shape) : Requirement := ⟨[], shape⟩

/-- The requirement as it is seen from one step above. -/
def below (step : Step) (requirement : Requirement) : Requirement :=
  { requirement with place := step :: requirement.place }

/-- The place leads to a part of the candidate, and that has the shape. -/
def Holds (root : Node) (requirement : Requirement) : Prop :=
  ∃ part, root.at? requirement.place = some part ∧ requirement.shape.Fits part

theorem holds_here {root : Node} {shape : Shape} : (here shape).Holds root ↔ shape.Fits root := by
  constructor
  · rintro ⟨part, leads, fits⟩
    cases leads
    exact fits
  · exact fun fits => ⟨root, rfl, fits⟩

theorem holds_below {root : Node} {step : Step} {requirement : Requirement} :
    (requirement.below step).Holds root ↔ ∃ part, root.step? step = some part ∧ requirement.Holds part := by
  constructor
  · rintro ⟨part, leads, fits⟩
    obtain ⟨child, first, later⟩ := Option.bind_eq_some_iff.1 leads
    exact ⟨child, first, part, later, fits⟩
  · rintro ⟨child, first, part, later, fits⟩
    exact ⟨part, (Node.at?_cons first _).trans later, fits⟩

end Requirement

/-! ## Layers -/

/-- The outermost layer of a pattern, literal or not. -/
inductive Layer where
  | scalar (shape : Shape)
  | array (items : List Pattern)
  | object (entries : List (String × Pattern))

namespace Pattern

/-- The outermost layer of a pattern that is no predicate. The parts of a literal are literals. -/
def layer? : Pattern → Option Layer
  | literal .null => some (.scalar .null)
  | literal (.bool value) => some (.scalar (.bool value))
  | literal (.number value) => some (.scalar (.number value))
  | literal (.string text) => some (.scalar (.string text))
  | literal (.array elements) => some (.array (elements.map .literal))
  | literal (.object fields) => some (.object (fields.map fun field => (field.1, .literal field.2)))
  | sequence items => some (.array items)
  | mapping entries => some (.object entries)
  | predicate _ => none

/-- What a pattern requires, apart from its predicates. -/
inductive Requires : Pattern → Requirement → Prop
  | scalar {pattern : Pattern} {shape : Shape} (layer : pattern.layer? = some (.scalar shape)) :
    Requires pattern (.here shape)
  | array {pattern : Pattern} {items : List Pattern} (layer : pattern.layer? = some (.array items)) :
    Requires pattern (.here .array)
  | item {pattern item : Pattern} {items : List Pattern} {requirement : Requirement} (i : Nat)
    (layer : pattern.layer? = some (.array items)) (listed : items[i]? = some item)
    (required : Requires item requirement) : Requires pattern (requirement.below (.index i))
  | object {pattern : Pattern} {entries : List (String × Pattern)} (layer : pattern.layer? = some (.object entries)) :
    Requires pattern (.here .object)
  | entry {pattern entry : Pattern} {entries : List (String × Pattern)} {requirement : Requirement} (key : String)
    (layer : pattern.layer? = some (.object entries)) (listed : (key, entry) ∈ entries)
    (required : Requires entry requirement) : Requires pattern (requirement.below (.key key))

/-- The candidate has all that the pattern requires. -/
def MetBy (pattern : Pattern) (candidate : Node) : Prop :=
  ∀ requirement, pattern.Requires requirement → requirement.Holds candidate

/-- A pattern in which no predicate stands, layer by layer. -/
inductive Plain : Pattern → Prop
  | scalar {pattern : Pattern} {shape : Shape} (layer : pattern.layer? = some (.scalar shape)) : Plain pattern
  | array {pattern : Pattern} {items : List Pattern} (layer : pattern.layer? = some (.array items))
    (each : ∀ item ∈ items, Plain item) : Plain pattern
  | object {pattern : Pattern} {entries : List (String × Pattern)} (layer : pattern.layer? = some (.object entries))
    (each : ∀ entry ∈ entries, Plain entry.2) : Plain pattern

theorem plain_literal (value : Node) : (literal value).Plain := by
  induction value with
  | null => exact .scalar rfl
  | bool value => exact .scalar rfl
  | number value => exact .scalar rfl
  | string text => exact .scalar rfl
  | array elements ih =>
    refine .array rfl ?_
    intro item member
    obtain ⟨element, listed, rfl⟩ := List.mem_map.1 member
    exact ih element listed
  | object fields ih =>
    refine .object rfl ?_
    intro entry member
    obtain ⟨field, listed, rfl⟩ := List.mem_map.1 member
    exact ih field listed

mutual

theorem plain_of_hasPredicates (pattern : Pattern) (without : pattern.hasPredicates = false) : pattern.Plain := by
  match pattern with
  | .literal value => exact plain_literal value
  | .mapping entries => exact .object rfl (plain_of_hasPredicatesEntries entries without)
  | .sequence items => exact .array rfl (plain_of_hasPredicatesItems items without)
  | .predicate test => cases without

theorem plain_of_hasPredicatesItems (items : List Pattern) (without : hasPredicatesItems items = false) :
    ∀ item ∈ items, item.Plain := by
  match items with
  | [] => exact nofun
  | item :: rest =>
    obtain ⟨first, later⟩ := Bool.or_eq_false_iff.1 without
    exact List.forall_mem_cons.2 ⟨plain_of_hasPredicates item first, plain_of_hasPredicatesItems rest later⟩

theorem plain_of_hasPredicatesEntries (entries : List (String × Pattern))
    (without : hasPredicatesEntries entries = false) : ∀ entry ∈ entries, entry.2.Plain := by
  match entries with
  | [] => exact nofun
  | (key, entry) :: rest =>
    obtain ⟨first, later⟩ := Bool.or_eq_false_iff.1 without
    exact List.forall_mem_cons.2 ⟨plain_of_hasPredicates entry first, plain_of_hasPredicatesEntries rest later⟩

end

/-! ## Requirements of a layer -/

/-- The tree is an array, and each item is met by the element at its index. -/
def ItemsMet (meets : Pattern → Node → Prop) (items : List Pattern) (candidate : Node) : Prop :=
  ∃ elements, candidate = .array elements ∧ ∀ (i : Nat) (item : Pattern), items[i]? = some item →
    ∃ element, elements[i]? = some element ∧ meets item element

/-- The tree is an object, and each entry is met by the value of its key. -/
def EntriesMet (meets : Pattern → Node → Prop) (entries : List (String × Pattern)) (candidate : Node) : Prop :=
  ∃ fields, candidate = .object fields ∧ ∀ entry ∈ entries,
    ∃ value, fields.lookup entry.1 = some value ∧ meets entry.2 value

section Facing

variable {α β : Type} {meets : α → β → Prop}

/-- The entries of a list are met by the elements that they face if the first is, and the rest behind it are. -/
theorem facing_cons_iff {first : α} {rest : List α} {element : β} {others : List β} :
    (∀ (i : Nat) (entry : α), (first :: rest)[i]? = some entry →
        ∃ faced, (element :: others)[i]? = some faced ∧ meets entry faced) ↔
      meets first element ∧ ∀ (i : Nat) (entry : α), rest[i]? = some entry →
        ∃ faced, others[i]? = some faced ∧ meets entry faced := by
  constructor
  · intro all
    obtain ⟨_, ⟨⟩, here⟩ := all 0 first rfl
    exact ⟨here, fun i => all (i + 1)⟩
  · rintro ⟨here, there⟩ i
    cases i with
    | zero =>
      rintro _ ⟨⟩
      exact ⟨element, rfl, here⟩
    | succ i => exact there i

theorem not_facing_of_lt {entries : List α} {elements : List β} (short : elements.length < entries.length) :
    ¬ ∀ (i : Nat) (entry : α), entries[i]? = some entry →
      ∃ faced, elements[i]? = some faced ∧ meets entry faced := by
  intro all
  -- The entry behind the last element faces none.
  obtain ⟨faced, leads, -⟩ := all elements.length _ (List.getElem?_eq_getElem short)
  rw [List.getElem?_eq_none (Nat.le_refl _)] at leads
  cases leads

end Facing

/-- Every pattern without predicates requires something, so that a missing place is noticed. -/
theorem Plain.exists_requires {pattern : Pattern} (plain : pattern.Plain) :
    ∃ requirement, pattern.Requires requirement := by
  cases plain with
  | scalar layer => exact ⟨_, .scalar layer⟩
  | array layer _ => exact ⟨_, .array layer⟩
  | object layer _ => exact ⟨_, .object layer⟩

/-- A part whose requirements hold below a step is there and meets them. -/
theorem Plain.metBy_below {part : Pattern} (plain : part.Plain) {candidate : Node} {step : Step}
    (holds : ∀ requirement, part.Requires requirement → (requirement.below step).Holds candidate) :
    ∃ child, candidate.step? step = some child ∧ part.MetBy child := by
  obtain ⟨one, required⟩ := plain.exists_requires
  obtain ⟨child, leads, -⟩ := Requirement.holds_below.1 (holds one required)
  refine ⟨child, leads, ?_⟩
  intro requirement required
  obtain ⟨other, also, met⟩ := Requirement.holds_below.1 (holds requirement required)
  cases leads.symm.trans also
  exact met

variable {pattern : Pattern}

theorem metBy_scalar {shape : Shape} (layer : pattern.layer? = some (.scalar shape)) {candidate : Node} :
    pattern.MetBy candidate ↔ shape.Fits candidate := by
  constructor
  · intro met
    exact Requirement.holds_here.1 (met _ (.scalar layer))
  · intro fits requirement required
    cases required with
    | scalar same =>
      cases layer.symm.trans same
      exact Requirement.holds_here.2 fits
    | array other | item _ other _ _ | object other | entry _ other _ _ => cases layer.symm.trans other

theorem metBy_array {items : List Pattern} (layer : pattern.layer? = some (.array items))
    (each : ∀ item ∈ items, item.Plain) {candidate : Node} :
    pattern.MetBy candidate ↔ ItemsMet MetBy items candidate := by
  constructor
  · intro met
    obtain ⟨elements, rfl⟩ := Requirement.holds_here.1 (met _ (.array layer))
    refine ⟨elements, rfl, ?_⟩
    intro i item listed
    have plain := each item (List.mem_of_getElem? listed)
    exact plain.metBy_below fun requirement required => met _ (.item i layer listed required)
  · rintro ⟨elements, rfl, parts⟩ requirement required
    cases required with
    | array _ => exact Requirement.holds_here.2 ⟨elements, rfl⟩
    | item i same listed required =>
      cases layer.symm.trans same
      obtain ⟨element, leads, met⟩ := parts i _ listed
      exact Requirement.holds_below.2 ⟨element, leads, met _ required⟩
    | scalar other | object other | entry _ other _ _ => cases layer.symm.trans other

theorem metBy_object {entries : List (String × Pattern)} (layer : pattern.layer? = some (.object entries))
    (each : ∀ entry ∈ entries, entry.2.Plain) {candidate : Node} :
    pattern.MetBy candidate ↔ EntriesMet MetBy entries candidate := by
  constructor
  · intro met
    obtain ⟨fields, rfl⟩ := Requirement.holds_here.1 (met _ (.object layer))
    refine ⟨fields, rfl, ?_⟩
    intro entry listed
    exact (each entry listed).metBy_below fun requirement required => met _ (.entry entry.1 layer listed required)
  · rintro ⟨fields, rfl, parts⟩ requirement required
    cases required with
    | object _ => exact Requirement.holds_here.2 ⟨fields, rfl⟩
    | entry key same listed required =>
      cases layer.symm.trans same
      obtain ⟨value, leads, met⟩ := parts _ listed
      exact Requirement.holds_below.2 ⟨value, leads, met _ required⟩
    | scalar other | array other | item _ other _ _ => cases layer.symm.trans other

/-! ## Matches of a layer -/

theorem length_le_of_containsItems {elements values : List Node} (contained : Node.containsItems elements values = true) :
    values.length ≤ elements.length := by
  induction values generalizing elements with
  | nil => exact Nat.zero_le _
  | cons value rest ih =>
    cases elements with
    | nil => cases contained
    | cons element others =>
      obtain ⟨-, later⟩ := Bool.and_eq_true_iff.1 contained
      exact Nat.succ_le_succ (ih later)

theorem matchItems?_literal {elements values : List Node} (enough : values.length ≤ elements.length) :
    matchItems? elements (values.map .literal) =
      if Node.containsItems elements values then some .empty else none := by
  induction values generalizing elements with
  | nil =>
    rw [List.map_nil, matchItems?_nil, Node.containsItems]
    rfl
  | cons value rest ih =>
    cases elements with
    | nil => cases enough
    | cons element others =>
      rw [List.map_cons, matchItems?_cons, match?_literal, ih (Nat.le_of_succ_le_succ enough), Node.containsItems]
      cases element.contains value <;> cases Node.containsItems others rest <;> rfl

theorem matchEntries?_literal (fields expected : List (String × Node)) :
    matchEntries? fields (expected.map fun field => (field.1, .literal field.2)) =
      if Node.containsFields fields expected then some .empty else none := by
  induction expected with
  | nil => rfl
  | cons field rest ih =>
    obtain ⟨key, value⟩ := field
    rw [List.map_cons, matchEntries?_cons, ih, Node.containsFields]
    cases fields.lookup key with
    | none => rfl
    | some held =>
      rw [Option.bind_some, match?_literal]
      by_cases contained : held.contains value = true <;> simp [contained]

/-- A literal array matches like a sequence of literals. -/
theorem match?_array {items : List Pattern} (layer : pattern.layer? = some (.array items)) (candidate : Node) :
    pattern.match? candidate = (sequence items).match? candidate := by
  cases pattern with
  | sequence own =>
    cases layer
    rfl
  | literal value =>
    cases value <;> cases layer
    rename_i values
    rw [match?_literal, match?_sequence]
    cases candidate with
    | array elements =>
      rw [Node.items?, Option.bind_some, List.length_map]
      by_cases short : elements.length < values.length
      · have missing : ¬ Node.containsItems elements values = true := by
          intro contained
          exact absurd (length_le_of_containsItems contained) (Nat.not_le_of_lt short)
        rw [if_pos short, Node.contains, if_neg missing]
      · rw [if_neg short, matchItems?_literal (Nat.le_of_not_lt short)]
        rfl
    | _ => rfl
  | mapping entries => cases layer
  | predicate test => cases layer

/-- A literal object matches like a mapping to literals. -/
theorem match?_object {entries : List (String × Pattern)} (layer : pattern.layer? = some (.object entries))
    (candidate : Node) : pattern.match? candidate = (mapping entries).match? candidate := by
  cases pattern with
  | mapping own =>
    cases layer
    rfl
  | literal value =>
    cases value <;> cases layer
    rw [match?_literal, match?_mapping]
    cases candidate with
    | object fields =>
      rw [Node.fields?, Option.bind_some, matchEntries?_literal]
      rfl
    | _ => rfl
  | sequence items => cases layer
  | predicate test => cases layer

/-! ## Conditions -/

/-- A pattern matches where a condition holds, and captures nothing. -/
def Tests (pattern : Pattern) (condition : Node → Prop) : Prop :=
  ∀ candidate captures, pattern.match? candidate = some captures ↔ captures = .empty ∧ condition candidate

theorem tests_scalar {shape : Shape} (layer : pattern.layer? = some (.scalar shape)) : pattern.Tests shape.Fits := by
  cases pattern with
  | literal value =>
    intro candidate captures
    have same : candidate.contains value = true ↔ shape.Fits candidate := by
      cases value <;> cases layer <;> cases candidate <;> simp [Node.contains, Shape.Fits]
    rw [match?_literal]
    dsimp only
    rw [← same]
    cases candidate.contains value <;> simp [eq_comm]
  | mapping entries => cases layer
  | sequence items => cases layer
  | predicate test => cases layer

variable {meets : Pattern → Node → Prop}

theorem matchItems?_eq_some_iff {items : List Pattern} (each : ∀ item ∈ items, item.Tests (meets item))
    {elements : List Node} (enough : items.length ≤ elements.length) (captures : Captures) :
    matchItems? elements items = some captures ↔ captures = .empty ∧
      ∀ (i : Nat) (item : Pattern), items[i]? = some item → ∃ element, elements[i]? = some element ∧ meets item element := by
  induction items generalizing elements captures with
  | nil => simp [eq_comm]
  | cons item rest ih =>
    cases elements with
    | nil => cases enough
    | cons element others =>
      obtain ⟨first, later⟩ := List.forall_mem_cons.1 each
      have below := ih later (Nat.le_of_succ_le_succ enough)
      rw [matchItems?_cons, Option.bind_eq_some_iff]
      constructor
      · rintro ⟨found, matched, rest⟩
        obtain ⟨more, also, rfl⟩ := Option.map_eq_some_iff.1 rest
        obtain ⟨rfl, here⟩ := (first element found).1 matched
        obtain ⟨rfl, there⟩ := (below more).1 also
        exact ⟨rfl, facing_cons_iff.2 ⟨here, there⟩⟩
      · rintro ⟨rfl, all⟩
        obtain ⟨here, there⟩ := facing_cons_iff.1 all
        refine ⟨.empty, (first element .empty).2 ⟨rfl, here⟩, ?_⟩
        rw [(below .empty).2 ⟨rfl, there⟩]
        rfl

theorem matchEntries?_eq_some_iff {entries : List (String × Pattern)}
    (each : ∀ entry ∈ entries, entry.2.Tests (meets entry.2)) {fields : List (String × Node)} {captures : Captures} :
    matchEntries? fields entries = some captures ↔ captures = .empty ∧
      ∀ entry ∈ entries, ∃ value, fields.lookup entry.1 = some value ∧ meets entry.2 value := by
  induction entries generalizing captures with
  | nil => simp [eq_comm]
  | cons listed rest ih =>
    obtain ⟨key, entry⟩ := listed
    obtain ⟨first, later⟩ := List.forall_mem_cons.1 each
    rw [matchEntries?_cons, Option.bind_eq_some_iff, List.forall_mem_cons]
    constructor
    · rintro ⟨value, leads, matched⟩
      obtain ⟨found, direct, rest⟩ := Option.bind_eq_some_iff.1 matched
      obtain ⟨more, also, rfl⟩ := Option.map_eq_some_iff.1 rest
      obtain ⟨rfl, here⟩ := (first value found).1 direct
      obtain ⟨rfl, there⟩ := (ih later).1 also
      exact ⟨rfl, ⟨value, leads, here⟩, there⟩
    · rintro ⟨rfl, ⟨value, leads, here⟩, there⟩
      refine ⟨value, leads, ?_⟩
      rw [(first value .empty).2 ⟨rfl, here⟩, Option.bind_some, (ih later).2 ⟨rfl, there⟩]
      rfl

theorem tests_array {items : List Pattern} (layer : pattern.layer? = some (.array items))
    (each : ∀ item ∈ items, item.Tests (meets item)) : pattern.Tests (ItemsMet meets items) := by
  intro candidate captures
  rw [match?_array layer, match?_sequence, ItemsMet]
  cases candidate with
  | array elements =>
    rw [Node.items?, Option.bind_some]
    by_cases short : elements.length < items.length
    · rw [if_pos short]
      constructor
      · intro matched
        cases matched
      · rintro ⟨-, _, ⟨⟩, parts⟩
        exact absurd parts (not_facing_of_lt short)
    · rw [if_neg short, matchItems?_eq_some_iff each (Nat.le_of_not_lt short)]
      simp
  | _ => simp [Node.items?]

theorem tests_object {entries : List (String × Pattern)} (layer : pattern.layer? = some (.object entries))
    (each : ∀ entry ∈ entries, entry.2.Tests (meets entry.2)) : pattern.Tests (EntriesMet meets entries) := by
  intro candidate captures
  rw [match?_object layer, match?_mapping, EntriesMet]
  cases candidate with
  | object fields =>
    rw [Node.fields?, Option.bind_some, matchEntries?_eq_some_iff each]
    simp
  | _ => simp [Node.fields?]

/-- A pattern without predicates matches what meets its requirements. -/
theorem Plain.tests (plain : pattern.Plain) : pattern.Tests pattern.MetBy := by
  induction plain with
  | scalar layer =>
    intro candidate captures
    rw [metBy_scalar layer]
    exact tests_scalar layer candidate captures
  | array layer each ih =>
    intro candidate captures
    rw [metBy_array layer each]
    exact tests_array layer ih candidate captures
  | object layer each ih =>
    intro candidate captures
    rw [metBy_object layer each]
    exact tests_object layer ih candidate captures

theorem Plain.agree {a b : Pattern} (plainA : a.Plain) (plainB : b.Plain)
    (same : ∀ requirement, a.Requires requirement ↔ b.Requires requirement) : Agree a b := by
  intro candidate
  refine Option.ext ?_
  intro captures
  have met : a.MetBy candidate ↔ b.MetBy candidate :=
    forall_congr' fun requirement => imp_congr_left (same requirement)
  rw [plainA.tests candidate captures, plainB.tests candidate captures, met]

/-! ## Ways to write a pattern -/

/-- Two patterns without predicates that differ at most in which of their layers are literals and in the order of
their entries. -/
inductive Alike : Pattern → Pattern → Prop
  | scalar {a b : Pattern} {shape : Shape} (layerA : a.layer? = some (.scalar shape))
    (layerB : b.layer? = some (.scalar shape)) : Alike a b
  | array {a b : Pattern} (pairs : List (Pattern × Pattern)) (layerA : a.layer? = some (.array (pairs.map (·.1))))
    (layerB : b.layer? = some (.array (pairs.map (·.2)))) (each : ∀ pair ∈ pairs, Alike pair.1 pair.2) : Alike a b
  | object {a b : Pattern} {entriesA entriesB : List (String × Pattern)} (pairs : List (String × Pattern × Pattern))
    (layerA : a.layer? = some (.object entriesA)) (layerB : b.layer? = some (.object entriesB))
    (orderA : entriesA.Perm (pairs.map fun pair => (pair.1, pair.2.1)))
    (orderB : entriesB.Perm (pairs.map fun pair => (pair.1, pair.2.2)))
    (each : ∀ pair ∈ pairs, Alike pair.2.1 pair.2.2) : Alike a b

theorem Plain.alike (plain : pattern.Plain) : Alike pattern pattern := by
  induction plain with
  | scalar layer => exact .scalar layer layer
  | @array pattern items layer each ih =>
    refine .array (items.map fun item => (item, item)) ?_ ?_ ?_
    · rw [List.map_map, layer]
      simp [Function.comp_def]
    · rw [List.map_map, layer]
      simp [Function.comp_def]
    · intro pair member
      obtain ⟨item, listed, rfl⟩ := List.mem_map.1 member
      exact ih item listed
  | @object pattern entries layer each ih =>
    refine .object (entries.map fun entry => (entry.1, entry.2, entry.2)) layer layer ?_ ?_ ?_
    · simp [Function.comp_def]
    · simp [Function.comp_def]
    · intro pair member
      obtain ⟨entry, listed, rfl⟩ := List.mem_map.1 member
      exact ih entry listed

variable {a b : Pattern}

theorem Alike.symm (alike : Alike a b) : Alike b a := by
  induction alike with
  | scalar layerA layerB => exact .scalar layerB layerA
  | array pairs layerA layerB each ih =>
    refine .array (pairs.map Prod.swap) ?_ ?_ ?_
    · rw [List.map_map, layerB]
      rfl
    · rw [List.map_map, layerA]
      rfl
    · intro pair member
      obtain ⟨swapped, listed, rfl⟩ := List.mem_map.1 member
      exact ih swapped listed
  | object pairs layerA layerB orderA orderB each ih =>
    refine .object (pairs.map fun pair => (pair.1, pair.2.swap)) layerB layerA ?_ ?_ ?_
    · rw [List.map_map]
      exact orderB
    · rw [List.map_map]
      exact orderA
    · intro pair member
      obtain ⟨swapped, listed, rfl⟩ := List.mem_map.1 member
      exact ih swapped listed

theorem Alike.plain (alike : Alike a b) : a.Plain := by
  induction alike with
  | scalar layerA _ => exact .scalar layerA
  | array pairs layerA _ _ ih =>
    refine .array layerA ?_
    intro item member
    obtain ⟨pair, listed, rfl⟩ := List.mem_map.1 member
    exact ih pair listed
  | object pairs layerA _ orderA _ _ ih =>
    refine .object layerA ?_
    intro entry member
    obtain ⟨pair, listed, rfl⟩ := List.mem_map.1 (orderA.mem_iff.1 member)
    exact ih pair listed

theorem Alike.requires (alike : Alike a b) {requirement : Requirement} (required : a.Requires requirement) :
    b.Requires requirement := by
  induction alike generalizing requirement with
  | scalar layerA layerB =>
    cases required with
    | scalar same =>
      cases layerA.symm.trans same
      exact .scalar layerB
    | array other | item _ other _ _ | object other | entry _ other _ _ => cases layerA.symm.trans other
  | array pairs layerA layerB each ih =>
    cases required with
    | array _ => exact .array layerB
    | item i same listed required =>
      cases layerA.symm.trans same
      rw [List.getElem?_map, Option.map_eq_some_iff] at listed
      obtain ⟨pair, listed, rfl⟩ := listed
      have facing : (pairs.map (·.2))[i]? = some pair.2 := by rw [List.getElem?_map, listed, Option.map_some]
      exact .item i layerB facing (ih pair (List.mem_of_getElem? listed) required)
    | scalar other | object other | entry _ other _ _ => cases layerA.symm.trans other
  | object pairs layerA layerB orderA orderB each ih =>
    cases required with
    | object _ => exact .object layerB
    | entry key same listed required =>
      cases layerA.symm.trans same
      obtain ⟨pair, member, same⟩ := List.mem_map.1 (orderA.mem_iff.1 listed)
      cases same
      have facing := orderB.mem_iff.2 (List.mem_map_of_mem (f := fun pair => (pair.1, pair.2.2)) member)
      exact .entry pair.1 layerB facing (ih pair member required)
    | scalar other | array other | item _ other _ _ => cases layerA.symm.trans other

theorem Alike.agree (alike : Alike a b) : Agree a b :=
  alike.plain.agree alike.symm.plain fun _ => ⟨alike.requires, alike.symm.requires⟩

end Pattern

/-- A pattern without predicates matches exactly the candidates that have, at each of its places, what it requires
there, and captures nothing. So neither the choice of the layers that are literals nor the order of entries counts. -/
theorem match?_contained {pattern : Pattern} (without : pattern.hasPredicates = false) :
    (∀ candidate captures, pattern.match? candidate = some captures ↔
      captures = .empty ∧ ∀ requirement, pattern.Requires requirement → requirement.Holds candidate) ∧
    ∀ other, pattern.Alike other → pattern.Agree other :=
  ⟨(Pattern.plain_of_hasPredicates pattern without).tests, fun _ alike => alike.agree⟩

/-- A key with the value null is not the same as none. -/
example : (Pattern.mapping [("a", .literal .null)]).match? (.object [("a", .null)]) = some .empty ∧
    (Pattern.mapping [("a", .literal .null)]).match? (.object []) = none :=
  ⟨rfl, rfl⟩

/-- A key that is listed twice, and the same requirements with other layers as literals and in another order. -/
theorem match?_contained_repeated :
    let pattern := Pattern.mapping [("a", .sequence [.literal .null]), ("b", .literal (.object [("c", .array [])])),
      ("a", .literal (.array [.null, .bool true]))]
    let other := Pattern.mapping [("b", .mapping [("c", .sequence [])]), ("a", .literal (.array [.null, .bool true])),
      ("a", .literal (.array [.null]))]
    let candidate := Node.object [("a", .array [.null, .bool true]), ("b", .object [("c", .array [.null])])]
    pattern.hasPredicates = false ∧
      (pattern.match? candidate = some .empty ↔ Captures.empty = .empty ∧
        ∀ requirement, pattern.Requires requirement → requirement.Holds candidate) ∧
      pattern.Alike other ∧ pattern.Agree other ∧ other.match? candidate = some .empty ∧
      pattern.match? (.object [("a", .array [.null]), ("b", .object [("c", .array [])])]) = none := by
  intro pattern other candidate
  have first : (Pattern.sequence [.literal .null]).Alike (.literal (.array [.null])) :=
    .array [(.literal .null, .literal .null)] rfl rfl (List.forall_mem_singleton.2 (.scalar rfl rfl))
  have second : (Pattern.literal (.object [("c", .array [])])).Alike (.mapping [("c", .sequence [])]) :=
    .object [("c", .literal (.array []), .sequence [])] rfl rfl (.refl _) (.refl _)
      (List.forall_mem_singleton.2 (.array [] rfl rfl nofun))
  have third := (Pattern.plain_literal (.array [.null, .bool true])).alike
  have alike : pattern.Alike other :=
    .object [("a", _, _), ("b", _, _), ("a", _, _)] rfl rfl (.refl _) (@List.perm_append_comm _ [_, _] _)
      (List.forall_mem_cons.2 ⟨first, List.forall_mem_cons.2 ⟨second, List.forall_mem_singleton.2 third⟩⟩)
  have without : pattern.hasPredicates = false := rfl
  have contained := match?_contained without
  exact ⟨without, contained.1 candidate .empty, alike, contained.2 other alike, rfl, rfl⟩

end TreeMatch
