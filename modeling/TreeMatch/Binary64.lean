/-!
# Finite doubles

The finite double-precision numbers as exact values `± mantissa * 2 ^ exponent`, each in one normal
form, and rounding of a ratio, an integer or a decimal to the nearest of them. A value half-way
between two doubles goes to the one with the even mantissa.
-/

namespace TreeMatch

/-- A power of two. -/
def twoPow (n : Nat) : Nat := Nat.pow 2 n

/-- A power of ten. -/
def tenPow (n : Nat) : Nat := Nat.pow 10 n

/-- Mantissa and exponent in the only form of their value: the mantissa fills 53 bits, so that it is
at least `2 ^ 52` and below `2 ^ 53`, unless the exponent is already the least. -/
def Binary64.Normal (mantissa : Nat) (exponent : Int) : Prop :=
  mantissa < 9007199254740992 ∧ -1074 ≤ exponent ∧ exponent ≤ 971 ∧
    (4503599627370496 ≤ mantissa ∨ exponent = -1074)

instance (mantissa : Nat) (exponent : Int) : Decidable (Binary64.Normal mantissa exponent) :=
  inferInstanceAs (Decidable (_ ∧ _))

/-- A finite double. Zero has both signs. -/
structure Binary64 where
  negative : Bool
  mantissa : Nat
  exponent : Int
  normal : Binary64.Normal mantissa exponent
deriving DecidableEq

namespace Binary64

/-- The zero of the given sign. -/
def zero (negative : Bool) : Binary64 := ⟨negative, 0, -1074, by decide⟩

/-- Doubles are the same number when their values are equal, so both zeros are. -/
def same (x y : Binary64) : Bool :=
  x.mantissa == y.mantissa && x.exponent == y.exponent && (x.negative == y.negative || x.mantissa == 0)

/-- The double with these parts, if they are in normal form. -/
def ofParts? (negative : Bool) (mantissa : Nat) (exponent : Int) : Option Binary64 :=
  if normal : Normal mantissa exponent then some ⟨negative, mantissa, exponent, normal⟩ else none

/-! ## Rounding -/

/-- The natural number nearest to a quotient, a half going to the even neighbour. -/
def roundDiv (num den : Nat) : Nat :=
  let twice := 2 * (num % den)
  if twice < den ∨ twice = den ∧ num / den % 2 = 0 then num / den else num / den + 1

/-- The quotient of two numbers divided by `2 ^ exponent`, as a quotient again. -/
def shiftRatio (num den : Nat) (exponent : Int) : Nat × Nat :=
  (num * twoPow (-exponent).toNat, den * twoPow exponent.toNat)

/-- The exponent at which a positive quotient has a mantissa of 53 bits, or the least one. -/
def exponentOf (num den : Nat) : Int :=
  let least : Int := num.log2 - den.log2 - 53
  let shifted := shiftRatio num den least
  max (-1074) (if 9007199254740992 * shifted.2 ≤ shifted.1 then least + 1 else least)

/-- The double nearest to `num / den`; `none` if that is beyond the largest double. -/
def ofRatio? (negative : Bool) (num den : Nat) : Option Binary64 :=
  if num = 0 then some (zero negative)
  else
    let exponent := exponentOf num den
    let shifted := shiftRatio num den exponent
    let mantissa := roundDiv shifted.1 shifted.2
    if mantissa = 9007199254740992 then ofParts? negative 4503599627370496 (exponent + 1)
    else ofParts? negative mantissa exponent

/-- The double nearest to an integer. -/
def ofInt? (value : Int) : Option Binary64 := ofRatio? (value < 0) value.natAbs 1

/-! ## Scaling -/

/-- The magnitude as a quotient. -/
def ratio (x : Binary64) : Nat × Nat :=
  (x.mantissa * twoPow x.exponent.toNat, twoPow (-x.exponent).toNat)

/-- The product with a positive double, rounded; `none` if that is beyond the largest double. -/
def times? (x y : Binary64) : Option Binary64 :=
  ofRatio? x.negative (x.ratio.1 * y.ratio.1) (x.ratio.2 * y.ratio.2)

/-- The quotient by a positive double, rounded; `none` if that is beyond the largest double. -/
def over? (x y : Binary64) : Option Binary64 :=
  ofRatio? x.negative (x.ratio.1 * y.ratio.2) (x.ratio.2 * y.ratio.1)

/-- The double nearest to a power of ten, of which `10 ^ 308` is the greatest. -/
def powerOfTen (n : Nat) : Binary64 := (ofRatio? false (tenPow n) 1).getD (zero false)

/-- The product with `10 ^ scale` in steps of at most 308 digits, each of which is rounded; `none` if
that is beyond the largest double. Two steps down take all integers of 64 bits to zero. -/
def scaled? (x : Binary64) (scale : Int) : Option Binary64 :=
  if 0 ≤ scale then
    if x.mantissa = 0 then some x else if scale > 308 then none else x.times? (powerOfTen scale.toNat)
  else if scale ≥ -308 then x.over? (powerOfTen (-scale).toNat)
  else if scale ≥ -616 then do
    let nearer ← x.over? (powerOfTen 308)
    nearer.over? (powerOfTen (-scale - 308).toNat)
  else some (zero x.negative)

/-! ## Decimals -/

/-- The number of decimal digits of a positive number, zero having none. -/
def digitCount (n : Nat) : Nat := if n = 0 then 0 else (Nat.toDigits 10 n).length

/-- The double nearest to `digits * 10 ^ scale`; `none` if that is beyond the largest double.
Magnitudes from `10 ^ 310` up are beyond it and those below `10 ^ -330` are nearest to zero, which
keeps the powers of ten small. -/
def ofDecimal? (negative : Bool) (digits : Nat) (scale : Int) : Option Binary64 :=
  let magnitude : Int := digitCount digits + scale
  if digits = 0 ∨ magnitude < -330 then some (zero negative)
  else if magnitude > 310 then none
  else ofRatio? negative (digits * tenPow scale.toNat) (tenPow (-scale).toNat)

end Binary64

end TreeMatch
