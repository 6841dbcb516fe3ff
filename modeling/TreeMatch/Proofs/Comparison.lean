import TreeMatch.Proofs.Rounding

/-!
# Comparing numbers by value

Numbers are compared by their exact values whichever way they are represented, except that an integer beside a double
stands for the double nearest to it (`equal_by_value`). Up to `2 ^ 53` this double has the value of the integer, so
nothing is lost there; from `2 ^ 53 + 1` on there are integers that are equal to a double of another value
(`equal_by_value_odd`).
-/

namespace TreeMatch

namespace Number

theorem equal_float_iff {x y : Binary64} : (float x).equal (float y) = true ↔ x.value = y.value := by
  rw [equal_iff_of_nearest (.inl rfl) (.inl rfl), ← Binary64.same_iff_value_eq]
  simp [nearest?]

section
variable {n : Int} {fits : -9223372036854775808 ≤ n ∧ n < 18446744073709551616} {x nearest : Binary64}

theorem equal_integer_float_iff (rounded : Binary64.ofInt? n = some nearest) :
    (integer n fits).equal (float x) = true ↔ x.value = nearest.value := by
  rw [equal_iff_of_nearest (.inr rfl) (.inr rfl), eq_comm, ← Binary64.same_iff_value_eq]
  simp [nearest?, rounded]

theorem equal_float_integer_iff (rounded : Binary64.ofInt? n = some nearest) :
    (float x).equal (integer n fits) = true ↔ x.value = nearest.value := by
  rw [equal_iff_of_nearest (.inl rfl) (.inl rfl), ← Binary64.same_iff_value_eq]
  simp [nearest?, rounded]

/-- Every integer of a tree has a nearest double. -/
theorem exists_nearest (fits : -9223372036854775808 ≤ n ∧ n < 18446744073709551616) :
    ∃ nearest, Binary64.ofInt? n = some nearest ∧ nearest.Rounds n :=
  Binary64.exists_ofInt? (abs_lt.2 ⟨by omega, by omega⟩)

end

theorem equal_comm (a b : Number) : a.equal b = b.equal a := by
  rw [Bool.eq_iff_iff]
  cases a with
  | integer m fitsM =>
    cases b with
    | integer n fitsN => rw [equal_integer_iff, equal_integer_iff, eq_comm]
    | float y =>
      obtain ⟨nearest, rounded, -⟩ := exists_nearest fitsM
      rw [equal_integer_float_iff rounded, equal_float_integer_iff rounded]
  | float x =>
    cases b with
    | integer n fitsN =>
      obtain ⟨nearest, rounded, -⟩ := exists_nearest fitsN
      rw [equal_integer_float_iff rounded, equal_float_integer_iff rounded]
    | float y => rw [equal_float_iff, equal_float_iff, eq_comm]

/-- Comparing numbers is reflexive and symmetric, and it is by value: two integers are equal if they are the same, two
doubles if their exact values are, so both zeros are equal. An integer and a double are equal if the double has the
value of the one nearest to the integer, of two as near the one with the even mantissa; this is the value of the integer
itself up to `2 ^ 53`. -/
theorem equal_by_value :
    (∀ a : Number, a.equal a = true) ∧
      (∀ a b : Number, a.equal b = b.equal a) ∧
      (∀ (m n : Int) (fitsM : -9223372036854775808 ≤ m ∧ m < 18446744073709551616)
        (fitsN : -9223372036854775808 ≤ n ∧ n < 18446744073709551616),
        (integer m fitsM).equal (integer n fitsN) = true ↔ m = n) ∧
      (∀ x y : Binary64, (float x).equal (float y) = true ↔ x.value = y.value) ∧
      (float (.zero true)).equal (float (.zero false)) = true ∧
      ∀ (n : Int) (fits : -9223372036854775808 ≤ n ∧ n < 18446744073709551616), ∃ nearest : Binary64,
        (integer n fits).nearest? = some nearest ∧ nearest.Rounds n ∧
          (∀ y : Binary64, y.Rounds n → y.value = nearest.value) ∧
          (∀ x : Binary64, (integer n fits).equal (float x) = true ↔ x.value = nearest.value) ∧
          (|n| ≤ 2 ^ 53 → ∀ x : Binary64, x.value = nearest.value ↔ x.value = n) := by
  refine ⟨equal_self, equal_comm, ?_, ?_, ?_, ?_⟩
  · intro m n fitsM fitsN
    exact equal_integer_iff fitsM fitsN
  · intro x y
    exact equal_float_iff
  · rw [equal_float_iff, Binary64.value_zero, Binary64.value_zero]
  · intro n fits
    obtain ⟨nearest, rounded, rounds⟩ := exists_nearest fits
    refine ⟨nearest, rounded, rounds, ?_, ?_, ?_⟩
    · intro y roundsY
      exact roundsY.value_eq rounds
    · intro x
      exact equal_integer_float_iff rounded
    · intro small x
      rw [rounds.value_eq_intCast small]

/-- The first integer that no double has is half-way between two, and is equal to the even one. The one before it has
its own double, here with the other sign. -/
theorem equal_by_value_odd :
    let odd := integer 9007199254740993 (by decide)
    let least := integer (-9007199254740992) (by decide)
    let even : Binary64 := ⟨false, 4503599627370496, 1, by decide⟩
    let above : Binary64 := ⟨false, 4503599627370497, 1, by decide⟩
    (even.Rounds 9007199254740993 ∧ even.value ≠ 9007199254740993) ∧
      odd.equal (float even) = true ∧ (float even).equal odd = true ∧ odd.equal (float above) = false ∧
      odd.equal (integer 9007199254740992 (by decide)) = false ∧
      ∀ x : Binary64, least.equal (float x) = true ↔ x.value = -9007199254740992 := by
  intro odd least even above
  obtain ⟨-, symm, integers, -, -, mixed⟩ := equal_by_value
  obtain ⟨nearest, found, rounds, -, equalOdd, -⟩ := mixed 9007199254740993 (by decide)
  have rounded : odd.nearest? = some even := by decide +kernel
  obtain rfl : nearest = even := Option.some.inj (found.symm.trans rounded)
  obtain ⟨own, -, -, -, equalLeast, exact⟩ := mixed (-9007199254740992) (by decide)
  refine ⟨⟨by exact_mod_cast rounds, ?_⟩, (equalOdd even).2 rfl, ?_, ?_, ?_, ?_⟩
  · norm_num [even, Binary64.value, Binary64.coefficient]
  · rw [symm]
    exact (equalOdd even).2 rfl
  · rw [Bool.eq_false_iff, ne_eq, equalOdd]
    norm_num [above, even, Binary64.value, Binary64.coefficient]
  · rw [Bool.eq_false_iff, ne_eq, integers]
    decide
  · intro x
    rw [equalLeast, exact (by decide)]
    norm_num

end Number

end TreeMatch
