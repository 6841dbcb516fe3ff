import TreeMatch.Binary64

/-!
# Numbers

A number of a tree is an integer of 64 bits, signed or not, or a finite double. Two numbers are
compared in one of two ways: `Number.equal` asks for equal values and lets an integer stand for the
double nearest to it, `Number.same` keeps integers and doubles apart.
-/

namespace TreeMatch

/-- A number as trees hold it. -/
inductive Number where
  | integer (value : Int) (fits : -9223372036854775808 ≤ value ∧ value < 18446744073709551616)
  | float (value : Binary64)
deriving DecidableEq

namespace Number

/-- The integer as a number, if it fits 64 bits with or without sign. -/
def ofInt? (value : Int) : Option Number :=
  if fits : -9223372036854775808 ≤ value ∧ value < 18446744073709551616 then
    some (integer value fits)
  else none

/-- The value as a signed integer of 64 bits. -/
def signed? : Number → Option Int
  | integer value _ => if value < 9223372036854775808 then some value else none
  | float _ => none

/-- The value as an unsigned integer of 64 bits. -/
def unsigned? : Number → Option Nat
  | integer value _ => if 0 ≤ value then some value.toNat else none
  | float _ => none

/-- The double nearest to the value. -/
def nearest? : Number → Option Binary64
  | integer value _ => Binary64.ofInt? value
  | float value => some value

/-- Equality of values: as signed integers if both are such, else as unsigned integers if both are
such, else as doubles. -/
def equal (a b : Number) : Bool :=
  match a.signed?, b.signed? with
  | some x, some y => x == y
  | _, _ =>
    match a.unsigned?, b.unsigned? with
    | some x, some y => x == y
    | _, _ =>
      match a.nearest?, b.nearest? with
      | some x, some y => x.same y
      | _, _ => false

/-- Equality of value and kind. -/
def same : Number → Number → Bool
  | integer a _, integer b _ => a == b
  | float x, float y => x.same y
  | _, _ => false

end Number

/-- The parts of a decimal number as it is written. -/
structure DecimalText where
  negative : Bool
  whole : List Char
  fraction : List Char
  exponent : Int

namespace DecimalText

/-- The value of decimal digits, the most significant first. -/
def value (digits : List Char) : Nat := digits.foldl (fun n d => 10 * n + (d.toNat - '0'.toNat)) 0

/-- The double nearest to a written number; `none` if that is beyond the largest double. -/
def nearest? (text : DecimalText) : Option Binary64 :=
  Binary64.ofDecimal? text.negative (value (text.whole ++ text.fraction))
    (text.exponent - text.fraction.length)

end DecimalText

end TreeMatch
