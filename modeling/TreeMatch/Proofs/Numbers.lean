import TreeMatch.Number

/-!
# Comparing integers

Two integers are equal exactly if they are the same, whichever of the three comparisons is used
(`equal_integer_iff`). Only a negative integer and one beyond the signed range are compared as doubles, and these
differ in their signs: zero is the double of no other integer.
-/

namespace TreeMatch

/-! ## Doubles of integers -/

namespace Binary64

theorem ofParts?_eq_some_iff {negative : Bool} {mantissa : Nat} {exponent : Int} {x : Binary64} :
    ofParts? negative mantissa exponent = some x ↔
      x.negative = negative ∧ x.mantissa = mantissa ∧ x.exponent = exponent := by
  obtain ⟨sign, digits, power, normal⟩ := x
  unfold ofParts?
  split
  · simp [eq_comm]
  · rename_i other
    refine iff_of_false nofun ?_
    rintro ⟨-, rfl, rfl⟩
    exact other normal

/-- The whole number of units `2 ^ exponent` nearest to a quotient. -/
def wholeUnits (num den : Nat) (exponent : Int) : Nat :=
  roundDiv (shiftRatio num den exponent).1 (shiftRatio num den exponent).2

/-- A positive quotient is rounded to whole units. As many as 53 bits cannot count, `2 ^ 53`, are `2 ^ 52` of the next
unit. -/
theorem ofRatio?_eq_some_iff {negative : Bool} {num den : Nat} (positive : 0 < num) {x : Binary64} :
    ofRatio? negative num den = some x ↔ x.negative = negative ∧
      (wholeUnits num den (exponentOf num den) = 9007199254740992 ∧
          x.mantissa = 4503599627370496 ∧ x.exponent = exponentOf num den + 1 ∨
        wholeUnits num den (exponentOf num den) ≠ 9007199254740992 ∧
          x.mantissa = wholeUnits num den (exponentOf num den) ∧ x.exponent = exponentOf num den) := by
  have branches : ofRatio? negative num den =
      if wholeUnits num den (exponentOf num den) = 9007199254740992 then
        ofParts? negative 4503599627370496 (exponentOf num den + 1)
      else ofParts? negative (wholeUnits num den (exponentOf num den)) (exponentOf num den) :=
    if_neg (Nat.ne_of_gt positive)
  rw [branches]
  split
  · rename_i full
    simp [full, ofParts?_eq_some_iff]
  · rename_i fits
    simp [fits, ofParts?_eq_some_iff]

/-- Rounding keeps the sign, and a positive quotient has at least the exponent from which it is rounded. -/
theorem of_ofRatio? {negative : Bool} {num den : Nat} (positive : 0 < num) {x : Binary64}
    (rounded : ofRatio? negative num den = some x) : x.negative = negative ∧ exponentOf num den ≤ x.exponent := by
  obtain ⟨sign, ⟨-, -, exponent⟩ | ⟨-, -, exponent⟩⟩ := (ofRatio?_eq_some_iff positive).1 rounded
  · exact ⟨sign, by omega⟩
  · exact ⟨sign, by omega⟩

theorem exponentOf_one_ge (num : Nat) : -53 ≤ exponentOf num 1 := by
  have whole : Nat.log2 1 = 0 := by decide
  simp only [exponentOf, whole]
  split <;> omega

/-- The double of an integer has the sign of the integer, and is not zero unless the integer is. -/
theorem of_ofInt? {value : Int} (nonzero : value ≠ 0) {x : Binary64} (rounded : ofInt? value = some x) :
    x.negative = decide (value < 0) ∧ 0 < x.mantissa := by
  obtain ⟨sign, exponent⟩ := of_ofRatio? (Int.natAbs_pos.2 nonzero) rounded
  have least := exponentOf_one_ge value.natAbs
  obtain ⟨-, -, -, normal⟩ := x.normal
  exact ⟨sign, by omega⟩

theorem same_iff {x y : Binary64} : x.same y = true ↔
    x.mantissa = y.mantissa ∧ x.exponent = y.exponent ∧ (x.negative = y.negative ∨ x.mantissa = 0) := by
  simp [same, and_assoc]

theorem same_trans {x y z : Binary64} (first : x.same y = true) (later : y.same z = true) : x.same z = true := by
  rw [same_iff] at first later ⊢
  obtain ⟨mantissa, exponent, sign⟩ := first
  obtain ⟨mantissa', exponent', sign'⟩ := later
  refine ⟨mantissa.trans mantissa', exponent.trans exponent', ?_⟩
  rcases sign with sign | zero
  · rcases sign' with sign' | zero
    · exact .inl (sign.trans sign')
    · exact .inr (mantissa.trans zero)
  · exact .inr zero

end Binary64

/-! ## The three comparisons -/

namespace Number

section
variable {a b : Number}

theorem equal_iff_of_signed {x y : Int} (signedA : a.signed? = some x) (signedB : b.signed? = some y) :
    a.equal b = true ↔ x = y := by
  simp only [equal, signedA, signedB, beq_iff_eq]

theorem equal_iff_of_unsigned (signed : a.signed? = none ∨ b.signed? = none) {x y : Nat}
    (unsignedA : a.unsigned? = some x) (unsignedB : b.unsigned? = some y) : a.equal b = true ↔ x = y := by
  have branch : a.equal b = (x == y) := by
    rcases signed with none | none
    · simp only [equal, none, unsignedA, unsignedB]
    · cases signedA : a.signed? <;> simp only [equal, none, signedA, unsignedA, unsignedB]
  rw [branch, beq_iff_eq]

/-- Numbers that are neither both signed nor both unsigned are compared as doubles. -/
theorem equal_iff_of_nearest (signed : a.signed? = none ∨ b.signed? = none)
    (unsigned : a.unsigned? = none ∨ b.unsigned? = none) :
    a.equal b = true ↔ ∃ x y, a.nearest? = some x ∧ b.nearest? = some y ∧ x.same y = true := by
  unfold equal
  split
  · rename_i signedA signedB
    rcases signed with none | none
    · cases signedA.symm.trans none
    · cases signedB.symm.trans none
  split
  · rename_i unsignedA unsignedB
    rcases unsigned with none | none
    · cases unsignedA.symm.trans none
    · cases unsignedB.symm.trans none
  split
  · rename_i x y nearestA nearestB
    simp [nearestA, nearestB]
  · rename_i none
    refine iff_of_false Bool.false_ne_true ?_
    rintro ⟨x, y, nearestA, nearestB, -⟩
    exact none x y nearestA nearestB

end

/-! ## Integers -/

/-- Integers of which one is negative and the other positive have different doubles. -/
theorem not_nearest_same {a b : Int} (signs : a < 0 ∧ 0 < b ∨ 0 < a ∧ b < 0) {x y : Binary64}
    (nearestA : Binary64.ofInt? a = some x) (nearestB : Binary64.ofInt? b = some y) : ¬ x.same y = true := by
  obtain ⟨signA, positive⟩ := Binary64.of_ofInt? (by omega) nearestA
  obtain ⟨signB, -⟩ := Binary64.of_ofInt? (by omega) nearestB
  rw [Binary64.same_iff, signA, signB, decide_eq_decide]
  omega

/-- Integers are compared exactly, whichever of the three comparisons is used. -/
theorem equal_integer_iff {a b : Int} (fitsA : -9223372036854775808 ≤ a ∧ a < 18446744073709551616)
    (fitsB : -9223372036854775808 ≤ b ∧ b < 18446744073709551616) :
    (integer a fitsA).equal (integer b fitsB) = true ↔ a = b := by
  by_cases signed : a < 9223372036854775808 ∧ b < 9223372036854775808
  · exact equal_iff_of_signed (if_pos signed.1) (if_pos signed.2)
  have notSigned : (integer a fitsA).signed? = none ∨ (integer b fitsB).signed? = none := by
    rcases Classical.not_and_iff_not_or_not.1 signed with large | large
    · exact .inl (if_neg large)
    · exact .inr (if_neg large)
  by_cases unsigned : 0 ≤ a ∧ 0 ≤ b
  · rw [equal_iff_of_unsigned notSigned (if_pos unsigned.1) (if_pos unsigned.2)]
    omega
  · have notUnsigned : (integer a fitsA).unsigned? = none ∨ (integer b fitsB).unsigned? = none := by
      rcases Classical.not_and_iff_not_or_not.1 unsigned with negative | negative
      · exact .inl (if_neg negative)
      · exact .inr (if_neg negative)
    rw [equal_iff_of_nearest notSigned notUnsigned]
    -- One is negative and the other beyond the signed range, so the doubles have different signs.
    refine iff_of_false ?_ (by omega)
    rintro ⟨x, y, nearestA, nearestB, same⟩
    exact not_nearest_same (by omega) nearestA nearestB same

theorem equal_self (value : Number) : value.equal value = true := by
  cases value with
  | integer n fits => exact (equal_integer_iff fits fits).2 rfl
  | float x => simp [equal, signed?, unsigned?, nearest?, Binary64.same]

/-- An integer is equal to the same numbers as any number equal to it. -/
theorem equal_of_integer {value expected : Number} {between : Int}
    (fits : -9223372036854775808 ≤ between ∧ between < 18446744073709551616)
    (first : value.equal (integer between fits) = true) (later : (integer between fits).equal expected = true) :
    value.equal expected = true := by
  cases value with
  | integer a fitsA =>
    obtain rfl := (equal_integer_iff fitsA fits).1 first
    exact later
  | float x =>
    cases expected with
    | integer c fitsC =>
      obtain rfl := (equal_integer_iff fits fitsC).1 later
      exact first
    | float z =>
      rw [equal_iff_of_nearest (.inl rfl) (.inl rfl)] at first ⊢
      rw [equal_iff_of_nearest (.inr rfl) (.inr rfl)] at later
      obtain ⟨_, y, ⟨⟩, nearest, sameXY⟩ := first
      obtain ⟨_, _, nearest', ⟨⟩, sameYZ⟩ := later
      cases nearest.symm.trans nearest'
      exact ⟨x, z, rfl, rfl, Binary64.same_trans sameXY sameYZ⟩

end Number

end TreeMatch
