import TreeMatch.Proofs.Numbers
import TreeMatch.Proofs.Search
import TreeMatch.Proofs.Success

/-!
# The order of literals

A literal is weaker than another if it is contained in it. Every tree is contained in itself, and among trees whose
numbers are integers containment is transitive and antisymmetric (`contains_order`). So a search for the weaker of two
literals finds all that a search for the stronger one finds. Doubles are left out of it because an integer and the
double nearest to it are compared as equal although several integers may have the same double.
-/

namespace TreeMatch

open Node (containsItems_iff containsFields_iff)

namespace Node

/-- Every number in the tree is an integer. -/
inductive Integral : Node → Prop
  | null : Integral null
  | bool (value : Bool) : Integral (bool value)
  | integer (value : Int) (fits : -9223372036854775808 ≤ value ∧ value < 18446744073709551616) :
    Integral (number (.integer value fits))
  | string (text : String) : Integral (string text)
  | array {items : List Node} (each : ∀ item ∈ items, Integral item) : Integral (array items)
  | object {fields : List (String × Node)} (each : ∀ field ∈ fields, Integral field.2) : Integral (object fields)

/-- The two are of one kind, and what stands in the literal is contained in what stands there in the candidate. -/
inductive Covers : Node → Node → Prop
  | null : Covers null null
  | bool (value : Bool) : Covers (bool value) (bool value)
  | number {value expected : Number} (equal : value.equal expected = true) : Covers (number value) (number expected)
  | string (text : String) : Covers (string text) (string text)
  | array {items expected : List Node} (each : ∀ (i : Nat) (value : Node), expected[i]? = some value →
      ∃ item, items[i]? = some item ∧ item.contains value = true) : Covers (array items) (array expected)
  | object {fields expected : List (String × Node)} (each : ∀ field ∈ expected,
      ∃ value, fields.lookup field.1 = some value ∧ value.contains field.2 = true) :
    Covers (object fields) (object expected)

/-- One level of containment. -/
theorem contains_iff_covers {candidate literal : Node} :
    candidate.contains literal = true ↔ candidate.Covers literal := by
  constructor
  · intro contained
    cases literal with
    | null =>
      cases candidate with
      | null => exact .null
      | _ => cases contained
    | bool expected =>
      cases candidate with
      | bool value =>
        obtain rfl : value = expected := beq_iff_eq.1 contained
        exact .bool value
      | _ => cases contained
    | number expected =>
      cases candidate with
      | number value => exact .number contained
      | _ => cases contained
    | string expected =>
      cases candidate with
      | string text =>
        obtain rfl : text = expected := beq_iff_eq.1 contained
        exact .string text
      | _ => cases contained
    | array expected =>
      cases candidate with
      | array items => exact .array (containsItems_iff.1 contained)
      | _ => cases contained
    | object expected =>
      cases candidate with
      | object fields => exact .object (containsFields_iff.1 contained)
      | _ => cases contained
  · intro covers
    cases covers with
    | null => rfl
    | bool value => exact beq_self_eq_true value
    | number equal => exact equal
    | string text => exact beq_self_eq_true text
    | array each => exact containsItems_iff.2 each
    | object each => exact containsFields_iff.2 each

/-! ## Transitivity -/

/-- Only the tree in the middle has to be without doubles. -/
theorem contains_trans {a b c : Node} (integral : b.Integral) (first : a.contains b = true)
    (later : b.contains c = true) : a.contains c = true := by
  rw [contains_iff_covers] at first later ⊢
  induction integral generalizing a c with
  | null =>
    cases first
    exact later
  | bool value =>
    cases first
    exact later
  | string text =>
    cases first
    exact later
  | integer value fits =>
    cases first with
    | number first =>
      cases later with
      | number later => exact .number (Number.equal_of_integer fits first later)
  | array integral ih =>
    cases first with
    | array first =>
      cases later with
      | array later =>
        refine .array ?_
        intro i value listed
        obtain ⟨item, listed, inside⟩ := later i value listed
        obtain ⟨element, listed', outside⟩ := first i item listed
        refine ⟨element, listed', contains_iff_covers.2 ?_⟩
        exact ih item (List.mem_of_getElem? listed) (contains_iff_covers.1 outside) (contains_iff_covers.1 inside)
  | object integral ih =>
    cases first with
    | object first =>
      cases later with
      | object later =>
        refine .object ?_
        intro field member
        obtain ⟨value, found, inside⟩ := later field member
        obtain ⟨element, leads, outside⟩ := first (field.1, value) (Fields.mem_of_lookup found)
        refine ⟨element, leads, contains_iff_covers.2 ?_⟩
        exact ih (field.1, value) (Fields.mem_of_lookup found) (contains_iff_covers.1 outside)
          (contains_iff_covers.1 inside)

/-- Through a double two integers are connected that are not equal. -/
example :
    let even := number (.integer 9007199254740992 (by decide))
    let double := number (.float ⟨false, 4503599627370496, 1, by decide⟩)
    let odd := number (.integer 9007199254740993 (by decide))
    even.contains double = true ∧ double.contains odd = true ∧ even.contains odd = false := by
  decide +kernel

/-! ## Antisymmetry -/

/-- Two places of which each covers what the other has are the same, if this is so of what stands there. -/
theorem eq_of_mutual {here there : Option Node}
    (forth : ∀ value, there = some value → ∃ item, here = some item ∧ item.contains value = true)
    (back : ∀ item, here = some item → ∃ value, there = some value ∧ value.contains item = true)
    (same : ∀ item value, here = some item → there = some value → item.contains value = true →
      value.contains item = true → item = value) : here = there := by
  cases here with
  | none =>
    cases there with
    | none => rfl
    | some value =>
      obtain ⟨_, missing, -⟩ := forth value rfl
      cases missing
  | some item =>
    obtain ⟨value, rfl, outside⟩ := back item rfl
    obtain ⟨_, ⟨⟩, inside⟩ := forth value rfl
    rw [same item value rfl rfl inside outside]

theorem contains_antisymm {a b : Node} (wellFormedA : a.WellFormed) (wellFormedB : b.WellFormed)
    (integralA : a.Integral) (integralB : b.Integral) (first : a.contains b = true) (later : b.contains a = true) :
    a = b := by
  induction integralA generalizing b with
  | null =>
    cases contains_iff_covers.1 first
    rfl
  | bool value =>
    cases contains_iff_covers.1 first
    rfl
  | string text =>
    cases contains_iff_covers.1 first
    rfl
  | integer value fits =>
    cases contains_iff_covers.1 first with
    | number equal =>
      cases integralB with
      | integer other fitsOther =>
        obtain rfl := (Number.equal_integer_iff fits fitsOther).1 equal
        rfl
  | @array items integral ih =>
    cases contains_iff_covers.1 first with
    | @array _ values forth =>
      cases contains_iff_covers.1 later with
      | array back =>
        refine congrArg array (List.ext_getElem? fun i => ?_)
        refine eq_of_mutual (forth i) (back i) ?_
        intro item value listed facing inside outside
        have member := List.mem_of_getElem? listed
        have facingMember := List.mem_of_getElem? facing
        cases integralB with
        | array integralB =>
          exact ih item member (wellFormed_array_iff.1 wellFormedA item member)
            (wellFormed_array_iff.1 wellFormedB value facingMember) (integralB value facingMember) inside outside
  | @object fields integral ih =>
    cases contains_iff_covers.1 first with
    | @object _ expected forth =>
      cases contains_iff_covers.1 later with
      | object back =>
        obtain ⟨ascendingA, eachA⟩ := wellFormed_object_iff.1 wellFormedA
        obtain ⟨ascendingB, eachB⟩ := wellFormed_object_iff.1 wellFormedB
        refine congrArg object (Fields.ext_lookup ascendingA ascendingB fun key => ?_)
        refine eq_of_mutual ?_ ?_ ?_
        · exact fun value found => forth (key, value) (Fields.mem_of_lookup found)
        · exact fun item found => back (key, item) (Fields.mem_of_lookup found)
        · intro item value found leads inside outside
          have member := Fields.mem_of_lookup found
          have facingMember := Fields.mem_of_lookup leads
          cases integralB with
          | object integralB =>
            exact ih (key, item) member (eachA _ member) (eachB _ facingMember) (integralB _ facingMember) inside
              outside

end Node

/-! ## Searches -/

theorem Pattern.foundAt?_literal (literal : Node) (place : List String × Node) :
    (Pattern.literal literal).foundAt? place =
      if place.2.contains literal then some ⟨Pointer.ofSteps place.1, .empty⟩ else none := by
  rw [foundAt?, match?_literal]
  split <;> rfl

/-- What is found for a literal is found for every literal that the same trees contain. -/
theorem Pattern.findAll_literal_sublist {stronger weaker : Node}
    (implied : ∀ candidate : Node, candidate.contains stronger = true → candidate.contains weaker = true)
    (root : Node) :
    ((Pattern.literal stronger).findAll root).value.Sublist ((Pattern.literal weaker).findAll root).value := by
  rw [value_findAll, value_findAll]
  induction root.places with
  | nil => exact .slnil
  | cons place rest ih =>
    rw [List.filterMap_cons, List.filterMap_cons, foundAt?_literal, foundAt?_literal]
    by_cases found : place.2.contains stronger = true
    · rw [if_pos found, if_pos (implied place.2 found)]
      exact ih.cons_cons _
    · rw [if_neg found]
      by_cases other : place.2.contains weaker = true
      · rw [if_pos other]
        exact ih.cons _
      · rw [if_neg other]
        exact ih

/-- Every tree is contained in itself, and containment orders the trees whose numbers are integers. What is found for
a literal of these is found, in the same order, for every literal that it contains. -/
theorem contains_order :
    (∀ node : Node, node.WellFormed → node.contains node = true) ∧
      (∀ a b c : Node, b.Integral → a.contains b = true → b.contains c = true → a.contains c = true) ∧
      (∀ a b : Node, a.WellFormed → b.WellFormed → a.Integral → b.Integral →
        a.contains b = true → b.contains a = true → a = b) ∧
      ∀ stronger weaker : Node, stronger.Integral → stronger.contains weaker = true → ∀ root : Node,
        ((Pattern.literal stronger).findAll root).value.Sublist ((Pattern.literal weaker).findAll root).value := by
  refine ⟨?_, ?_, ?_, ?_⟩
  · intro node wellFormed
    exact Node.contains_self wellFormed
  · intro a b c integral first later
    exact Node.contains_trans integral first later
  · intro a b wellFormedA wellFormedB integralA integralB first later
    exact Node.contains_antisymm wellFormedA wellFormedB integralA integralB first later
  · intro stronger weaker integral weaker' root
    refine Pattern.findAll_literal_sublist ?_ root
    intro candidate found
    exact Node.contains_trans integral found weaker'

/-- Three trees of which each contains the next, with a negative integer and one beyond the signed range. The second
one is also written with a repeated key. -/
theorem contains_order_nested :
    let large := Node.number (.integer 18446744073709551615 (by decide))
    let negative := Node.number (.integer (-1) (by decide))
    let a := Node.object [("x", .array [large, negative]), ("y", negative)]
    let b := Node.object [("x", .array [large])]
    let again := Node.ofPairs [("x", negative), ("x", .array [large])]
    let c := Node.object [("x", .array [])]
    (a.WellFormed ∧ b.WellFormed ∧ again.WellFormed) ∧ (b.Integral ∧ again.Integral) ∧
      (a.contains b = true ∧ b.contains c = true ∧ b.contains again = true ∧ again.contains b = true) ∧
      a.contains a = true ∧ a.contains c = true ∧ b = again ∧
      ((Pattern.literal b).findAll (.array [a, b, c])).value.Sublist
        ((Pattern.literal c).findAll (.array [a, b, c])).value := by
  intro large negative a b again c
  have wellFormedA : a.WellFormed := by
    simp only [a, large, negative, Node.WellFormed, Node.WellFormedFields, Node.WellFormedItems, and_self, and_true]
    decide
  have wellFormedB : b.WellFormed := by
    simp only [b, large, Node.WellFormed, Node.WellFormedFields, Node.WellFormedItems, and_self, and_true]
    decide
  have wellFormedAgain : again.WellFormed :=
    Node.wellFormed_ofPairs (by simp [large, negative, Node.WellFormed, Node.WellFormedItems])
  have integralB : b.Integral := by
    refine .object ?_
    simp [Node.Integral.integer, Node.Integral.array, large]
  have integralAgain : again.Integral := by
    refine .object ?_
    intro field member
    have listed := (Fields.mem_assignAll member).resolve_right List.not_mem_nil
    rcases List.mem_cons.1 listed with rfl | listed
    · exact .integer _ _
    · obtain rfl := List.mem_singleton.1 listed
      simp [Node.Integral.integer, Node.Integral.array, large]
  have first : a.contains b = true := by decide +kernel
  have later : b.contains c = true := by decide +kernel
  have forth : b.contains again = true := by decide +kernel
  have back : again.contains b = true := by decide +kernel
  obtain ⟨self, trans, antisymm, found⟩ := contains_order
  refine ⟨⟨wellFormedA, wellFormedB, wellFormedAgain⟩, ⟨integralB, integralAgain⟩, ⟨first, later, forth, back⟩,
    ?_, ?_, ?_, ?_⟩
  · exact self a wellFormedA
  · exact trans a b c integralB first later
  · exact antisymm b again wellFormedB wellFormedAgain integralB integralAgain forth back
  · exact found b c integralB later _

end TreeMatch
