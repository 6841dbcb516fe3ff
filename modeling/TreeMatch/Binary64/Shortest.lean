import TreeMatch.Binary64

/-!
# Shortest decimals

The decimal with the fewest digits that rounds back to a given double, and among those the one
nearest to the double. Everything is compared in exact natural numbers: a double and the ends of
the interval that rounds to it are quarters of a unit in its last place.
-/

namespace TreeMatch

/-- A positive decimal in scientific form: `d.ddd * 10 ^ exponent`, `digits` from the first on. -/
structure Scientific where
  digits : List Char
  exponent : Int
deriving DecidableEq, Repr

namespace Binary64

/-- Whether `a * 10 ^ p ≤ b * 2 ^ q`. -/
def decimalLe (a : Nat) (p : Int) (b : Nat) (q : Int) : Bool :=
  a * tenPow p.toNat * twoPow (-q).toNat ≤ b * twoPow q.toNat * tenPow (-p).toNat

/-- Whether `b * 2 ^ q ≤ a * 10 ^ p`. -/
def decimalGe (a : Nat) (p : Int) (b : Nat) (q : Int) : Bool :=
  b * twoPow q.toNat * tenPow (-p).toNat ≤ a * tenPow p.toNat * twoPow (-q).toNat

/-- The greatest `a` with `a * 10 ^ p ≤ b * 2 ^ q`. -/
def decimalFloor (p : Int) (b : Nat) (q : Int) : Nat :=
  b * twoPow q.toNat * tenPow (-p).toNat / (tenPow p.toNat * twoPow (-q).toNat)

/-- The exponent of the leading decimal digit. The estimate from the binary exponent is at most one
off. -/
def decimalExponent (x : Binary64) : Int :=
  let estimate : Int := (x.mantissa.log2 + x.exponent) * 30103 / 100000
  if decimalLe 1 (estimate + 1) x.mantissa x.exponent then estimate + 1
  else if decimalLe 1 estimate x.mantissa x.exponent then estimate
  else estimate - 1

/-- The least number of quarter units that still rounds to `x`. Below a power of two the
neighbouring double is only half as far away. -/
def lowerQuarters (x : Binary64) : Nat :=
  4 * x.mantissa - if x.mantissa = 4503599627370496 ∧ x.exponent ≠ -1074 then 1 else 2

/-- The greatest number of quarter units that still rounds to `x`. -/
def upperQuarters (x : Binary64) : Nat := 4 * x.mantissa + 2

/-- Whether `a * 10 ^ p` rounds to the magnitude of `x`. The ends of the interval do when the
mantissa is even. -/
def readsBack (x : Binary64) (a : Nat) (p : Int) : Bool :=
  let q := x.exponent - 2
  if x.mantissa % 2 = 0 then decimalGe a p x.lowerQuarters q && decimalLe a p x.upperQuarters q
  else !decimalLe a p x.lowerQuarters q && !decimalGe a p x.upperQuarters q

/-- The point of the grid `10 ^ p` that rounds to `x`, if any: of the two neighbours of `x` on the
grid the nearer one that does, and the even one if both are as near. -/
def onGrid? (x : Binary64) (p : Int) : Option Nat :=
  let below := decimalFloor p x.mantissa x.exponent
  let above := below + 1
  match x.readsBack below p, x.readsBack above p with
  | true, false => some below
  | false, true => some above
  | false, false => none
  | true, true =>
    let middle := below + above
    if !decimalGe middle p (2 * x.mantissa) x.exponent then some above
    else if !decimalLe middle p (2 * x.mantissa) x.exponent then some below
    else some (if below % 2 = 0 then below else above)

/-- The shortest decimal that rounds to the magnitude of a double other than zero; seventeen digits
are always enough. -/
def shortest (x : Binary64) : Scientific :=
  let leading := x.decimalExponent
  let found := (List.range 17).findSome? fun (count : Nat) =>
    let p := leading - count
    (x.onGrid? p).map fun a => (a, p)
  let (a, p) := found.getD (decimalFloor (leading - 16) x.mantissa x.exponent, leading - 16)
  let written := Nat.toDigits 10 a
  let kept := (written.reverse.dropWhile (· == '0')).reverse
  ⟨kept, p + written.length - 1⟩

end Binary64

/-- How decimals are laid out. -/
structure DecimalLayout where
  /-- The least exponent that is written without an exponent part. -/
  leastPositional : Int
  /-- The greatest exponent that is written without an exponent part. -/
  greatestPositional : Int
  /-- The sign of a positive exponent. -/
  positiveSign : List Char

namespace DecimalLayout

/-- The digits with a point and filling zeros, at least one digit on each side of the point. -/
def positional (number : Scientific) : List Char :=
  let digits := number.digits
  if number.exponent < 0 then
    ['0', '.'] ++ List.replicate (-number.exponent - 1).toNat '0' ++ digits
  else
    let whole := number.exponent.toNat + 1
    let fraction := digits.drop whole
    digits.take whole ++ List.replicate (whole - digits.length) '0' ++
      '.' :: (if fraction.isEmpty then ['0'] else fraction)

/-- One digit, the others after a point if there are any, and the exponent. -/
def exponential (layout : DecimalLayout) (number : Scientific) : List Char :=
  let fraction := number.digits.drop 1
  number.digits.take 1 ++ (if fraction.isEmpty then [] else '.' :: fraction) ++
    'e' :: (if number.exponent < 0 then ['-'] else layout.positiveSign) ++
    Nat.toDigits 10 number.exponent.natAbs

/-- The text of a double: its sign, then its shortest decimal. -/
def write (layout : DecimalLayout) (x : Binary64) : List Char :=
  (if x.negative then ['-'] else []) ++
    if x.mantissa = 0 then ['0', '.', '0']
    else
      let number := x.shortest
      if layout.leastPositional ≤ number.exponent ∧ number.exponent ≤ layout.greatestPositional then
        positional number
      else layout.exponential number

end DecimalLayout

end TreeMatch
