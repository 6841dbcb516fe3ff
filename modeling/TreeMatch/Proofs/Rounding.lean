import Mathlib.Tactic.FieldSimp
import TreeMatch.Proofs.Doubles

/-!
# Rounding

What a number is rounded to is the double nearest to it and, of two that are as near, the one with the even mantissa
(`Rounds`). Its value is thereby determined (`Rounds.value_eq`). Rounding a quotient gives this double whenever it gives
one (`rounds_of_ofRatio?`), and every integer below `2 ^ 64` in magnitude has one (`exists_ofInt?`), which has the value
of the integer itself up to `2 ^ 53` (`Rounds.value_eq_intCast`).

A quotient is counted in the unit in which it has 53 bits before the point (`exponentOf_spec`), and the nearest whole
number of units is taken (`wholeUnits_nearest`). The doubles with this unit or a greater one are whole numbers of it,
and those with a smaller unit are further away than `2 ^ 52` of it (`wholeUnits_nearer`).
-/

namespace TreeMatch

namespace Binary64

/-- No double is nearer to the exact number, and if another is as near, the mantissa is even. -/
structure Rounds (x : Binary64) (exact : Rat) : Prop where
  nearest (y : Binary64) : |x.value - exact| ≤ |y.value - exact|
  even (y : Binary64) (different : y.value ≠ x.value) (tie : |y.value - exact| = |x.value - exact|) :
    x.mantissa % 2 = 0

/-! ## The value that is rounded to -/

/-- What lies between two numbers is nearer to their middle than they are. -/
theorem abs_sub_lt_of_between {a b z exact : Rat} (tie : |a - exact| = |b - exact|)
    (inside : a < z ∧ z < b ∨ b < z ∧ z < a) : |z - exact| < |a - exact| := by
  rcases abs_eq_abs.1 tie with same | opposite
  · rcases inside with inside | inside
    · linarith [inside.1.trans inside.2]
    · linarith [inside.1.trans inside.2]
  · rcases inside with ⟨above, below⟩ | ⟨above, below⟩
    · rw [abs_of_neg (show a - exact < 0 by linarith), abs_lt]
      exact ⟨by linarith, by linarith⟩
    · rw [abs_of_pos (show 0 < a - exact by linarith), abs_lt]
      exact ⟨by linarith, by linarith⟩

theorem Rounds.value_eq {x y : Binary64} {exact : Rat} (first : x.Rounds exact) (later : y.Rounds exact) :
    x.value = y.value := by
  by_contra different
  have tie : |x.value - exact| = |y.value - exact| := le_antisymm (first.nearest y) (later.nearest x)
  -- Both are even, so a double lies between them and is nearer.
  obtain ⟨z, inside⟩ := exists_between (first.even y (Ne.symm different) tie.symm) (later.even x different tie) different
  exact absurd (first.nearest z) (abs_sub_lt_of_between tie inside).not_ge

/-- A number that is the value of a double is rounded to this value. -/
theorem Rounds.value_eq_of_value_eq {x y : Binary64} {exact : Rat} (rounds : x.Rounds exact) (equal : y.value = exact) :
    x.value = exact := by
  have nearest := rounds.nearest y
  rw [equal, sub_self, abs_zero] at nearest
  exact sub_eq_zero.1 (abs_eq_zero.1 (le_antisymm nearest (abs_nonneg _)))

theorem Rounds.value_eq_intCast {x : Binary64} {n : Int} (rounds : x.Rounds n) (bound : |n| ≤ 2 ^ 53) : x.value = n := by
  obtain ⟨y, equal⟩ := exists_value_eq_intCast bound
  exact rounds.value_eq_of_value_eq equal

theorem Rounds.opposite {x : Binary64} {exact : Rat} (rounds : x.Rounds exact) : x.opposite.Rounds (-exact) := by
  have reflect (y : Binary64) : |y.value - -exact| = |y.opposite.value - exact| := by
    rw [value_opposite, ← abs_neg]
    ring_nf
  constructor
  · intro y
    rw [reflect, reflect, opposite_opposite]
    exact rounds.nearest y.opposite
  · intro y different tie
    rw [reflect, reflect, opposite_opposite] at tie
    refine rounds.even y.opposite ?_ tie
    intro same
    rw [value_opposite, ← same, value_opposite, neg_neg] at different
    exact different rfl

/-! ## Whole numbers -/

/-- The whole number is at most half away from the quotient, and even if it is as much. -/
theorem roundDiv_spec (num : Nat) {den : Nat} (positive : 0 < den) :
    2 * |(den * roundDiv num den : Int) - num| ≤ den ∧
      (2 * |(den * roundDiv num den : Int) - num| = den → roundDiv num den % 2 = 0) := by
  have split := Nat.div_add_mod num den
  have rest := Nat.mod_lt num positive
  unfold roundDiv
  generalize num / den = whole at *
  generalize num % den = left at *
  dsimp only
  split
  · have below : (den * whole : Int) - num = -left := by
      rw [← split]
      push_cast
      ring
    rw [below, abs_neg, Nat.abs_cast]
    omega
  · have above : (den * (whole + 1 : Nat) : Int) - num = (den - left : Nat) := by
      rw [← split, Nat.cast_sub rest.le]
      push_cast
      ring
    rw [above, Nat.abs_cast]
    omega

section
variable (num : Nat) {den : Nat} (positive : 0 < den)
include positive

theorem abs_roundDiv_sub : |(roundDiv num den : Rat) - num / den| = |(den * roundDiv num den : Int) - num| / den := by
  have divisor : (0 : Rat) < den := by exact_mod_cast positive
  rw [eq_div_iff divisor.ne', ← abs_of_pos divisor, ← abs_mul, abs_of_pos divisor, Int.cast_abs]
  push_cast
  congr 1
  field_simp

theorem roundDiv_error : |(roundDiv num den : Rat) - num / den| ≤ 1 / 2 := by
  have divisor : (0 : Rat) < den := by exact_mod_cast positive
  have error : (2 * |(den * roundDiv num den : Int) - num| : Rat) ≤ den := by
    exact_mod_cast (roundDiv_spec num positive).1
  rw [abs_roundDiv_sub num positive, div_le_div_iff₀ divisor two_pos]
  linarith

theorem roundDiv_even (half : |(roundDiv num den : Rat) - num / den| = 1 / 2) : roundDiv num den % 2 = 0 := by
  have divisor : (0 : Rat) < den := by exact_mod_cast positive
  rw [abs_roundDiv_sub num positive, div_eq_div_iff divisor.ne' two_ne_zero, mul_comm, one_mul] at half
  exact (roundDiv_spec num positive).2 (by exact_mod_cast half)

/-- Other whole numbers are at least half away. -/
theorem half_le_of_ne {k : Int} (different : k ≠ roundDiv num den) : 1 / 2 ≤ |(k : Rat) - num / den| := by
  have apart : (1 : Rat) ≤ |(k : Rat) - roundDiv num den| := by
    exact_mod_cast Int.one_le_abs (sub_ne_zero.2 different)
  have error := roundDiv_error num positive
  have detour := abs_sub_le (k : Rat) (num / den) (roundDiv num den)
  rw [abs_sub_comm (num / den : Rat)] at detour
  linarith

theorem roundDiv_nearest (k : Int) : |(roundDiv num den : Rat) - num / den| ≤ |(k : Rat) - num / den| := by
  by_cases same : k = roundDiv num den
  · rw [same, Int.cast_natCast]
  · exact (roundDiv_error num positive).trans (half_le_of_ne num positive same)

theorem roundDiv_even_of_tie {k : Int} (different : k ≠ roundDiv num den)
    (tie : |(k : Rat) - num / den| = |(roundDiv num den : Rat) - num / den|) : roundDiv num den % 2 = 0 := by
  have far := half_le_of_ne num positive different
  rw [tie] at far
  exact roundDiv_even num positive (le_antisymm (roundDiv_error num positive) far)

end

/-! ## Units -/

theorem twoPow_pos (n : Nat) : 0 < twoPow n := Nat.pow_pos two_pos

theorem cast_twoPow (n : Nat) : (twoPow n : Rat) = 2 ^ (n : Int) := by
  rw [twoPow, Nat.pow_eq, Nat.cast_pow, Nat.cast_ofNat, zpow_natCast]

theorem shiftRatio_snd_pos (num : Nat) {den : Nat} (positive : 0 < den) (exponent : Int) :
    0 < (shiftRatio num den exponent).2 :=
  Nat.mul_pos positive (twoPow_pos _)

theorem shiftRatio_div (num den : Nat) (exponent : Int) :
    ((shiftRatio num den exponent).1 / (shiftRatio num den exponent).2 : Rat) = num / den / 2 ^ exponent := by
  have units : (2 : Rat) ^ (exponent.toNat : Int) = 2 ^ ((-exponent).toNat : Int) * 2 ^ exponent := by
    rw [← zpow_add₀ two_ne_zero]
    congr 1
    omega
  rw [shiftRatio, Nat.cast_mul, Nat.cast_mul, cast_twoPow, cast_twoPow, units, div_div, mul_comm (2 ^ _ : Rat),
    ← mul_assoc, mul_div_mul_right _ _ (unit_pos _).ne']

/-- Distances from a quotient are those from the shifted one, in units. -/
theorem abs_units_sub (num den : Nat) (exponent : Int) (k : Rat) : |k * 2 ^ exponent - num / den| =
    |k - (shiftRatio num den exponent).1 / (shiftRatio num den exponent).2| * 2 ^ exponent := by
  rw [shiftRatio_div, ← abs_of_pos (unit_pos exponent), ← abs_mul, abs_of_pos (unit_pos exponent), sub_mul,
    div_mul_cancel₀ _ (unit_pos exponent).ne']

section
variable (num : Nat) {den : Nat} (divisor : 0 < den) (exponent : Int)
include divisor

theorem wholeUnits_nearest (k : Int) :
    |(wholeUnits num den exponent * 2 ^ exponent : Rat) - num / den| ≤ |(k * 2 ^ exponent : Rat) - num / den| := by
  rw [abs_units_sub, abs_units_sub]
  exact mul_le_mul_of_nonneg_right (roundDiv_nearest _ (shiftRatio_snd_pos num divisor exponent) k) (unit_pos _).le

theorem wholeUnits_even_of_tie {k : Int} (different : k ≠ wholeUnits num den exponent)
    (tie : |(k * 2 ^ exponent : Rat) - num / den| = |(wholeUnits num den exponent * 2 ^ exponent : Rat) - num / den|) :
    wholeUnits num den exponent % 2 = 0 := by
  rw [abs_units_sub, abs_units_sub] at tie
  exact roundDiv_even_of_tie _ (shiftRatio_snd_pos num divisor exponent) different
    (mul_right_cancel₀ (unit_pos exponent).ne' tie)

theorem wholeUnits_le {k : Nat} (bound : (num / den : Rat) ≤ k * 2 ^ exponent) : wholeUnits num den exponent ≤ k := by
  have nearest := wholeUnits_nearest num divisor exponent k
  rw [Int.cast_natCast, abs_of_nonneg (sub_nonneg.2 bound)] at nearest
  have units := (sub_le_sub_iff_right _).1 ((le_abs_self _).trans nearest)
  exact_mod_cast le_of_mul_le_mul_right units (unit_pos exponent)

theorem le_wholeUnits {k : Nat} (bound : (k * 2 ^ exponent : Rat) ≤ num / den) : k ≤ wholeUnits num den exponent := by
  have nearest := wholeUnits_nearest num divisor exponent k
  rw [Int.cast_natCast, abs_of_nonpos (sub_nonpos.2 bound), abs_le] at nearest
  have units : (k * 2 ^ exponent : Rat) ≤ wholeUnits num den exponent * 2 ^ exponent := by linarith
  exact_mod_cast le_of_mul_le_mul_right units (unit_pos exponent)

end

/-! ## The unit of a quotient -/

theorem log2_bounds {n : Nat} (positive : 0 < n) :
    (2 : Rat) ^ (n.log2 : Int) ≤ n ∧ (n : Rat) < 2 ^ (n.log2 + 1 : Int) := by
  have below := Nat.log2_self_le (Nat.ne_of_gt positive)
  have above := Nat.lt_log2_self (n := n)
  exact ⟨by exact_mod_cast below, by exact_mod_cast above⟩

theorem full_shiftRatio_iff (num : Nat) {den : Nat} (divisor : 0 < den) (exponent : Int) :
    9007199254740992 * (shiftRatio num den exponent).2 ≤ (shiftRatio num den exponent).1 ↔
      2 ^ 53 * 2 ^ exponent ≤ (num / den : Rat) := by
  have shifted : (0 : Rat) < (shiftRatio num den exponent).2 := by
    exact_mod_cast shiftRatio_snd_pos num divisor exponent
  rw [← le_div_iff₀ (unit_pos exponent), ← shiftRatio_div, le_div_iff₀ shifted]
  norm_cast

section
variable {num den : Nat} (positive : 0 < num) (divisor : 0 < den)
include positive divisor

/-- A quotient lies within a factor of two of the quotient of the leading powers of two. -/
theorem ratio_bounds : (2 : Rat) ^ (num.log2 - den.log2 - 1 : Int) < num / den ∧
    (num / den : Rat) < 2 ^ (num.log2 - den.log2 + 1 : Int) := by
  have denominator : (0 : Rat) < den := by exact_mod_cast divisor
  obtain ⟨leastNum, aboveNum⟩ := log2_bounds positive
  obtain ⟨leastDen, aboveDen⟩ := log2_bounds divisor
  constructor
  · rw [lt_div_iff₀ denominator]
    calc (2 : Rat) ^ (num.log2 - den.log2 - 1 : Int) * den
        < 2 ^ (num.log2 - den.log2 - 1 : Int) * 2 ^ (den.log2 + 1 : Int) := mul_lt_mul_of_pos_left aboveDen (unit_pos _)
      _ = 2 ^ (num.log2 : Int) := by rw [← zpow_add₀ two_ne_zero]; congr 1; omega
      _ ≤ num := leastNum
  · rw [div_lt_iff₀ denominator]
    calc (num : Rat) < 2 ^ (num.log2 + 1 : Int) := aboveNum
      _ = 2 ^ (num.log2 - den.log2 + 1 : Int) * 2 ^ (den.log2 : Int) := by
        rw [← zpow_add₀ two_ne_zero]; congr 1; omega
      _ ≤ 2 ^ (num.log2 - den.log2 + 1 : Int) * den := mul_le_mul_of_nonneg_left leastDen (unit_pos _).le

/-- Without the least exponent every quotient has a unit in which exactly 53 bits stand before the point. -/
theorem exists_exponent : ∃ exponent : Int, exponentOf num den = max (-1074) exponent ∧
    2 ^ 52 * 2 ^ exponent ≤ (num / den : Rat) ∧ (num / den : Rat) < 2 ^ 53 * 2 ^ exponent := by
  obtain ⟨above, below⟩ := ratio_bounds positive divisor
  refine ⟨_, rfl, ?_⟩
  -- The estimate leaves 53 or 54 bits.
  generalize estimate : (num.log2 - den.log2 - 53 : Int) = exponent
  rw [show (num.log2 - den.log2 - 1 : Int) = exponent + (52 : Nat) by omega, zpow_add₀ two_ne_zero, zpow_natCast]
    at above
  rw [show (num.log2 - den.log2 + 1 : Int) = exponent + (54 : Nat) by omega, zpow_add₀ two_ne_zero, zpow_natCast]
    at below
  split
  · rename_i full
    have more := (full_shiftRatio_iff num divisor exponent).1 full
    rw [unit_succ]
    exact ⟨by linarith, by linarith⟩
  · rename_i fits
    have less := not_le.1 (mt (full_shiftRatio_iff num divisor exponent).2 fits)
    exact ⟨by linarith, less⟩

/-- In the unit of its exponent a quotient has at most 53 bits before the point, and exactly 53 unless the unit is the
least one. -/
theorem exponentOf_spec : -1074 ≤ exponentOf num den ∧ (num / den : Rat) < 2 ^ 53 * 2 ^ exponentOf num den ∧
    (-1074 < exponentOf num den → 2 ^ 52 * 2 ^ exponentOf num den ≤ (num / den : Rat)) := by
  obtain ⟨exponent, clamped, filled, bound⟩ := exists_exponent positive divisor
  rw [clamped]
  refine ⟨le_max_left _ _, bound.trans_le ?_, fun inside => ?_⟩
  · exact mul_le_mul_of_nonneg_left (zpow_le_zpow_right₀ one_le_two (le_max_right _ _)) (by positivity)
  · rwa [max_eq_right (by omega)]

end

/-! ## Quotients -/

/-- If a quotient fills 53 bits of a unit, doubles with a smaller unit are further away than the whole units. -/
theorem wholeUnits_nearer {num den : Nat} (divisor : 0 < den) {exponent : Int}
    (filled : 2 ^ 52 * 2 ^ exponent ≤ (num / den : Rat)) {y : Binary64} (coarse : y.exponent < exponent) :
    |(wholeUnits num den exponent * 2 ^ exponent : Rat) - num / den| < |y.value - num / den| := by
  have outside : y.value < 2 ^ 52 * 2 ^ exponent := (le_abs_self _).trans_lt (abs_value_lt coarse)
  have nearest := wholeUnits_nearest num divisor exponent 4503599627370496
  rw [Int.cast_ofNat, abs_of_nonpos (show (4503599627370496 * 2 ^ exponent : Rat) - num / den ≤ 0 by linarith)]
    at nearest
  rw [abs_of_nonpos (show y.value - num / den ≤ 0 by linarith)]
  linarith

theorem rounds_of_wholeUnits {num den : Nat} (divisor : 0 < den) {exponent : Int}
    (filled : -1074 < exponent → 2 ^ 52 * 2 ^ exponent ≤ (num / den : Rat)) {x : Binary64}
    (value : x.value = wholeUnits num den exponent * 2 ^ exponent)
    (even : wholeUnits num den exponent % 2 = 0 → x.mantissa % 2 = 0) : x.Rounds (num / den) := by
  constructor
  · intro y
    rw [value]
    by_cases fine : exponent ≤ y.exponent
    · obtain ⟨k, multiple⟩ := exists_multiple fine
      rw [multiple]
      exact wholeUnits_nearest num divisor exponent k
    · have coarse := not_le.1 fine
      exact (wholeUnits_nearer divisor (filled (y.normal.2.1.trans_lt coarse)) coarse).le
  · intro y different tie
    rw [value] at different tie
    by_cases fine : exponent ≤ y.exponent
    · obtain ⟨k, multiple⟩ := exists_multiple fine
      rw [multiple] at different tie
      refine even (wholeUnits_even_of_tie num divisor exponent ?_ tie)
      rintro rfl
      exact different (by rw [Int.cast_natCast])
    · have coarse := not_le.1 fine
      exact absurd tie (wholeUnits_nearer divisor (filled (y.normal.2.1.trans_lt coarse)) coarse).ne'

theorem rounds_of_ofRatio?_positive {num den : Nat} (positive : 0 < num) (divisor : 0 < den) {x : Binary64}
    (rounded : ofRatio? false num den = some x) : x.Rounds (num / den) := by
  obtain ⟨-, -, filled⟩ := exponentOf_spec positive divisor
  obtain ⟨sign, ⟨full, mantissa, exponent⟩ | ⟨-, mantissa, exponent⟩⟩ := (ofRatio?_eq_some_iff positive).1 rounded
  · refine rounds_of_wholeUnits divisor filled ?_ fun _ => by rw [mantissa]
    rw [value_of_positive sign, abs_value, mantissa, exponent, unit_succ, full]
    push_cast
    ring
  · refine rounds_of_wholeUnits divisor filled ?_ fun even => by rwa [mantissa]
    rw [value_of_positive sign, abs_value, mantissa, exponent]

/-- Rounding a quotient gives the double that is nearest to it, if it gives one. -/
theorem rounds_of_ofRatio? {negative : Bool} {num den : Nat} (divisor : 0 < den) {x : Binary64}
    (rounded : ofRatio? negative num den = some x) : x.Rounds (if negative then -(num / den) else num / den) := by
  rcases Nat.eq_zero_or_pos num with rfl | positive
  · obtain rfl : zero negative = x := by simpa [ofRatio?] using rounded
    constructor
    · simp
    · exact fun _ _ _ => rfl
  · cases negative with
    | false => exact rounds_of_ofRatio?_positive positive divisor rounded
    | true =>
      have reflected : ofRatio? false num den = some x.opposite := by
        obtain ⟨sign, parts⟩ := (ofRatio?_eq_some_iff positive).1 rounded
        exact (ofRatio?_eq_some_iff positive).2 ⟨by simp [opposite, sign], parts⟩
      have rounds := (rounds_of_ofRatio?_positive positive divisor reflected).opposite
      rwa [opposite_opposite] at rounds

/-- A quotient below the last power of two has a double. -/
theorem exists_ofRatio? {num den : Nat} (negative : Bool) (divisor : 0 < den)
    (small : (num / den : Rat) < 2 ^ 52 * 2 ^ (971 : Int)) : ∃ x, ofRatio? negative num den = some x := by
  rcases Nat.eq_zero_or_pos num with rfl | positive
  · exact ⟨zero negative, if_pos rfl⟩
  obtain ⟨least, bound, filled⟩ := exponentOf_spec positive divisor
  have greatest : exponentOf num den < 971 := by
    by_contra large
    have units : (2 : Rat) ^ (971 : Int) ≤ 2 ^ exponentOf num den := zpow_le_zpow_right₀ one_le_two (not_lt.1 large)
    linarith [filled (by omega)]
  have atMost : wholeUnits num den (exponentOf num den) ≤ 9007199254740992 := by
    refine wholeUnits_le num divisor _ ?_
    norm_num at bound ⊢
    exact bound.le
  have atLeast (inside : -1074 < exponentOf num den) : 4503599627370496 ≤ wholeUnits num den (exponentOf num den) := by
    refine le_wholeUnits num divisor _ ?_
    have filled := filled inside
    norm_num at filled ⊢
    exact filled
  by_cases full : wholeUnits num den (exponentOf num den) = 9007199254740992
  · exact ⟨⟨negative, 4503599627370496, exponentOf num den + 1, by decide, by omega, by omega, .inl le_rfl⟩,
      (ofRatio?_eq_some_iff positive).2 ⟨rfl, .inl ⟨full, rfl, rfl⟩⟩⟩
  · exact ⟨⟨negative, wholeUnits num den (exponentOf num den), exponentOf num den, by omega, least, by omega, by omega⟩,
      (ofRatio?_eq_some_iff positive).2 ⟨rfl, .inr ⟨full, rfl, rfl⟩⟩⟩

/-! ## Integers -/

theorem signed_natAbs (n : Int) :
    (if decide (n < 0) then -(n.natAbs / (1 : Nat)) else n.natAbs / (1 : Nat) : Rat) = n := by
  rw [Nat.cast_one, div_one, Nat.cast_natAbs]
  by_cases negative : n < 0
  · simp [negative, abs_of_neg negative]
  · simp [negative, abs_of_nonneg (not_lt.1 negative)]

theorem exists_ofInt? {n : Int} (bound : |n| < 2 ^ 64) : ∃ x, ofInt? n = some x ∧ x.Rounds n := by
  have small : (n.natAbs / (1 : Nat) : Rat) < 2 ^ 52 * 2 ^ (971 : Int) := by
    calc (n.natAbs / (1 : Nat) : Rat) = |n| := by rw [Nat.cast_one, div_one, Nat.cast_natAbs]
      _ < 2 ^ 64 := by exact_mod_cast bound
      _ = 2 ^ 52 * 2 ^ (12 : Int) := by norm_num
      _ ≤ 2 ^ 52 * 2 ^ (971 : Int) :=
        mul_le_mul_of_nonneg_left (zpow_le_zpow_right₀ one_le_two (by decide)) (by positivity)
  obtain ⟨x, rounded⟩ := exists_ofRatio? (n < 0) Nat.one_pos small
  have rounds := rounds_of_ofRatio? Nat.one_pos rounded
  rw [signed_natAbs] at rounds
  exact ⟨x, rounded, rounds⟩

end Binary64

end TreeMatch
