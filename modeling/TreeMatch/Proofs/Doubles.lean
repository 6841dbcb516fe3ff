import Mathlib.Algebra.Order.Field.Power
import Mathlib.Data.Rat.Cast.Order
import Mathlib.Tactic.Linarith
import Mathlib.Tactic.NormNum
import Mathlib.Tactic.Ring
import TreeMatch.Proofs.Numbers

/-!
# Values of doubles

A double has an exact rational value, and both zeros have the same. The normal form of a double is the only one of its
value: a double of a lower exponent is nearer to zero (`abs_value_lt`), so doubles are the same exactly if their values
are (`same_iff_value_eq`). Between two different doubles with even mantissas lies a third one (`exists_between`). The
integers up to `2 ^ 53` in magnitude are values of doubles (`exists_value_eq_intCast`).
-/

namespace TreeMatch

namespace Binary64

/-- The mantissa with the sign of the double. -/
def coefficient (x : Binary64) : Int := if x.negative then -x.mantissa else x.mantissa

/-- The exact value. -/
def value (x : Binary64) : Rat := x.coefficient * 2 ^ x.exponent

theorem unit_pos (exponent : Int) : (0 : Rat) < 2 ^ exponent := zpow_pos two_pos exponent

theorem unit_succ (exponent : Int) : (2 : Rat) ^ (exponent + 1) = 2 * 2 ^ exponent := by
  rw [zpow_add_one₀ two_ne_zero, mul_comm]

theorem natAbs_coefficient (x : Binary64) : x.coefficient.natAbs = x.mantissa := by
  unfold coefficient
  split <;> simp

theorem abs_value (x : Binary64) : |x.value| = x.mantissa * 2 ^ x.exponent := by
  rw [value, abs_mul, abs_of_pos (unit_pos _), ← Int.cast_abs, Int.abs_eq_natAbs, natAbs_coefficient,
    Int.cast_natCast]

theorem value_of_negative {x : Binary64} (negative : x.negative = true) : x.value = -|x.value| := by
  rw [abs_value, value, coefficient, if_pos negative]
  push_cast
  ring

theorem value_of_positive {x : Binary64} (positive : x.negative = false) : x.value = |x.value| := by
  rw [abs_value, value, coefficient, positive]
  simp

@[simp] theorem value_zero (negative : Bool) : (zero negative).value = 0 := by
  cases negative <;> simp [value, coefficient, zero]

/-! ## Magnitudes -/

/-- The value is a multiple of every unit that is not greater than its own. -/
theorem exists_multiple {x : Binary64} {exponent : Int} (fine : exponent ≤ x.exponent) :
    ∃ k : Int, x.value = k * 2 ^ exponent := by
  refine ⟨x.coefficient * 2 ^ (x.exponent - exponent).toNat, ?_⟩
  have units : (2 : Rat) ^ x.exponent = 2 ^ (x.exponent - exponent).toNat * 2 ^ exponent := by
    rw [← zpow_natCast, ← zpow_add₀ two_ne_zero]
    congr 1
    omega
  rw [value, units]
  push_cast
  ring

/-- In a smaller unit every value is nearer to zero than the least mantissa of 53 bits in this one. -/
theorem abs_value_lt {x : Binary64} {exponent : Int} (coarse : x.exponent < exponent) :
    |x.value| < 2 ^ 52 * 2 ^ exponent := by
  have mantissa : (x.mantissa : Rat) < 2 ^ 53 := by exact_mod_cast x.normal.1
  have units : (2 : Rat) ^ (x.exponent + 1) ≤ 2 ^ exponent := zpow_le_zpow_right₀ one_le_two coarse
  rw [unit_succ] at units
  calc |x.value| = x.mantissa * 2 ^ x.exponent := abs_value x
    _ < 2 ^ 53 * 2 ^ x.exponent := mul_lt_mul_of_pos_right mantissa (unit_pos _)
    _ = 2 ^ 52 * (2 * 2 ^ x.exponent) := by ring
    _ ≤ 2 ^ 52 * 2 ^ exponent := mul_le_mul_of_nonneg_left units (by positivity)

theorem le_abs_value {x : Binary64} (above : -1074 < x.exponent) : 2 ^ 52 * 2 ^ x.exponent ≤ |x.value| := by
  have mantissa : 4503599627370496 ≤ x.mantissa := x.normal.2.2.2.resolve_right (by omega)
  have mantissa' : (2 ^ 52 : Rat) ≤ x.mantissa := by exact_mod_cast mantissa
  rw [abs_value]
  exact mul_le_mul_of_nonneg_right mantissa' (unit_pos _).le

theorem abs_value_lt_of_exponent_lt {x y : Binary64} (lower : x.exponent < y.exponent) : |x.value| < |y.value| :=
  have least : -1074 ≤ x.exponent := x.normal.2.1
  (abs_value_lt lower).trans_le (le_abs_value (by omega))

theorem mantissa_lt_of_abs_value_lt {x y : Binary64} (exponent : x.exponent = y.exponent)
    (nearer : |x.value| < |y.value|) : x.mantissa < y.mantissa := by
  rw [abs_value, abs_value, exponent] at nearer
  exact_mod_cast lt_of_mul_lt_mul_right nearer (unit_pos _).le

/-! ## Normal forms -/

theorem exponent_eq_of_abs_value_eq {x y : Binary64} (same : |x.value| = |y.value|) : x.exponent = y.exponent := by
  rcases lt_trichotomy x.exponent y.exponent with lower | equal | higher
  · exact absurd same (abs_value_lt_of_exponent_lt lower).ne
  · exact equal
  · exact absurd same (abs_value_lt_of_exponent_lt higher).ne'

/-- Doubles are the same exactly if their exact values are equal. -/
theorem same_iff_value_eq {x y : Binary64} : x.same y = true ↔ x.value = y.value := by
  rw [same_iff]
  constructor
  · rintro ⟨mantissa, exponent, sign⟩
    have coefficient : x.coefficient = y.coefficient := by
      unfold coefficient
      rcases sign with sign | zero
      · rw [sign, mantissa]
      · simp [← mantissa, zero]
    rw [value, value, coefficient, exponent]
  · intro equal
    have exponent := exponent_eq_of_abs_value_eq (congrArg abs equal)
    rw [value, value, exponent] at equal
    have coefficient : x.coefficient = y.coefficient := by
      exact_mod_cast mul_right_cancel₀ (unit_pos _).ne' equal
    have mantissa : x.mantissa = y.mantissa := by
      rw [← natAbs_coefficient, coefficient, natAbs_coefficient]
    refine ⟨mantissa, exponent, ?_⟩
    by_cases sign : x.negative = y.negative
    · exact .inl sign
    · rw [Binary64.coefficient, Binary64.coefficient, Bool.eq_not.2 sign] at coefficient
      cases signY : y.negative <;> simp [signY] at coefficient <;> omega

/-! ## Neighbours -/

/-- Two different doubles with even mantissas are not neighbours: the one that follows the nearer to zero, with the sign
of the other, lies between them. -/
theorem exists_between_of_abs_lt {x y : Binary64} (evenX : x.mantissa % 2 = 0) (evenY : y.mantissa % 2 = 0)
    (nearer : |x.value| < |y.value|) :
    ∃ z : Binary64, x.value < z.value ∧ z.value < y.value ∨ y.value < z.value ∧ z.value < x.value := by
  obtain ⟨bound, least, greatest, leading⟩ := x.normal
  let z : Binary64 := ⟨y.negative, x.mantissa + 1, x.exponent, by omega, least, greatest, by omega⟩
  have further : |x.value| < |z.value| := by
    rw [abs_value, abs_value]
    exact mul_lt_mul_of_pos_right (by exact_mod_cast Nat.lt_succ_self x.mantissa) (unit_pos _)
  have before : |z.value| < |y.value| := by
    rcases lt_trichotomy x.exponent y.exponent with lower | equal | higher
    · exact abs_value_lt_of_exponent_lt (x := z) lower
    · have mantissa : x.mantissa + 1 < y.mantissa := by
        have := mantissa_lt_of_abs_value_lt equal nearer
        omega
      rw [abs_value, abs_value, ← equal]
      exact mul_lt_mul_of_pos_right (by exact_mod_cast mantissa) (unit_pos _)
    · exact absurd nearer (abs_value_lt_of_exponent_lt higher).not_gt
  have outside := abs_le.1 (le_refl |x.value|)
  refine ⟨z, ?_⟩
  cases sign : y.negative with
  | false =>
    rw [value_of_positive sign, value_of_positive (x := z) sign]
    exact .inl ⟨by linarith, before⟩
  | true =>
    rw [value_of_negative sign, value_of_negative (x := z) sign]
    exact .inr ⟨by linarith, by linarith⟩

theorem exists_between {x y : Binary64} (evenX : x.mantissa % 2 = 0) (evenY : y.mantissa % 2 = 0)
    (different : x.value ≠ y.value) :
    ∃ z : Binary64, x.value < z.value ∧ z.value < y.value ∨ y.value < z.value ∧ z.value < x.value := by
  rcases lt_trichotomy |x.value| |y.value| with nearer | equal | further
  · exact exists_between_of_abs_lt evenX evenY nearer
  · -- They lie on both sides of zero.
    have opposite : x.value = -y.value := (abs_eq_abs.1 equal).resolve_left different
    refine ⟨zero false, ?_⟩
    rw [value_zero]
    rcases lt_trichotomy y.value 0 with negative | zero | positive
    · exact .inr ⟨negative, by linarith⟩
    · exact absurd (by rw [opposite, zero, neg_zero]) different
    · exact .inl ⟨by linarith, positive⟩
  · obtain ⟨z, inside⟩ := exists_between_of_abs_lt evenY evenX further
    exact ⟨z, inside.symm⟩

/-! ## Opposites and integers -/

/-- The double with the other sign. -/
def opposite (x : Binary64) : Binary64 := { x with negative := !x.negative }

@[simp] theorem value_opposite (x : Binary64) : x.opposite.value = -x.value := by
  cases sign : x.negative <;> simp [value, coefficient, opposite, sign]

@[simp] theorem opposite_opposite (x : Binary64) : x.opposite.opposite = x := by
  simp [opposite]

/-- A positive number of at most 53 bits, shifted until it fills them. -/
theorem exists_value_eq_natCast {n : Nat} (positive : 0 < n) (bound : n < 9007199254740992) :
    ∃ x : Binary64, x.value = n := by
  have below := Nat.log2_self_le (Nat.ne_of_gt positive)
  have above := Nat.lt_log2_self (n := n)
  have size : n.log2 < 53 := (Nat.log2_lt (Nat.ne_of_gt positive)).2 bound
  have filled : 4503599627370496 ≤ n * 2 ^ (52 - n.log2) := by
    calc 4503599627370496 = 2 ^ n.log2 * 2 ^ (52 - n.log2) := by
          rw [← Nat.pow_add, show n.log2 + (52 - n.log2) = 52 by omega]
      _ ≤ n * 2 ^ (52 - n.log2) := Nat.mul_le_mul_right _ below
  have fits : n * 2 ^ (52 - n.log2) < 9007199254740992 := by
    calc n * 2 ^ (52 - n.log2) < 2 ^ (n.log2 + 1) * 2 ^ (52 - n.log2) :=
          Nat.mul_lt_mul_of_pos_right above (Nat.two_pow_pos _)
      _ = 9007199254740992 := by rw [← Nat.pow_add, show n.log2 + 1 + (52 - n.log2) = 53 by omega]
  refine ⟨⟨false, n * 2 ^ (52 - n.log2), -((52 - n.log2 : Nat) : Int), fits, by omega, by omega, .inl filled⟩, ?_⟩
  rw [value, coefficient]
  push_cast
  rw [zpow_neg, zpow_natCast]
  exact mul_inv_cancel_right₀ (pow_ne_zero _ two_ne_zero) _

theorem exists_value_eq_intCast {n : Int} (bound : |n| ≤ 2 ^ 53) : ∃ x : Binary64, x.value = n := by
  have magnitude : ∃ x : Binary64, x.value = n.natAbs := by
    rw [Int.abs_eq_natAbs] at bound
    rcases Nat.eq_zero_or_pos n.natAbs with zero | positive
    · exact ⟨.zero false, by simp [zero]⟩
    rcases Nat.lt_or_ge n.natAbs 9007199254740992 with less | large
    · exact exists_value_eq_natCast positive less
    · have equal : n.natAbs = 2 ^ 53 := by omega
      exact ⟨⟨false, 4503599627370496, 1, by decide⟩, by norm_num [equal, value, coefficient]⟩
  obtain ⟨x, equal⟩ := magnitude
  rw [Nat.cast_natAbs] at equal
  rcases abs_choice n with same | opposite
  · exact ⟨x, by rw [equal, same]⟩
  · exact ⟨x.opposite, by rw [value_opposite, equal, opposite, Int.cast_neg, neg_neg]⟩

end Binary64

end TreeMatch
