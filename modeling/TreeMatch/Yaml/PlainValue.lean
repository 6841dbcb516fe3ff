import TreeMatch.Characters
import TreeMatch.Node

/-!
# Values of plain scalars

A plain scalar without a tag that is not null stands for the first of these that its text is: a truth
value, an integer, a double, a text. White space at the ends does not count for the first three.
Integers are decimal, also with leading zeros, or have a mark for their base, and may hold
underscores. Doubles that are not finite are texts.
-/

namespace TreeMatch.Yaml

/-- A text with the lower case of its ASCII letters. -/
def lower (text : String) : List Char := text.toList.map Char.toLower

/-- Whether a plain scalar stands for null. -/
def isNullText (text : String) : Bool := text == "" || text == "~" || lower text == "null".toList

/-- The truth value that a text stands for. -/
def truth? (text : String) : Option Bool :=
  let word := String.ofList (lower text)
  if ["true", "yes", "y", "on"].contains word then some true
  else if ["false", "no", "n", "off"].contains word then some false
  else none

/-- An optional sign, `true` for minus, and the text after it. -/
def signed : List Char → Bool × List Char
  | '-' :: rest => (true, rest)
  | '+' :: rest => (false, rest)
  | text => (false, text)

/-! ## Integers -/

/-- The base that digits are in, and the digits without its mark. -/
def base : List Char → Nat × List Char
  | '0' :: c :: rest =>
    if c = 'x' ∨ c = 'X' then (16, rest)
    else if c = 'o' ∨ c = 'O' then (8, rest)
    else if c = 'b' ∨ c = 'B' then (2, rest)
    else (10, '0' :: c :: rest)
  | text => (10, text)

/-- The value of a digit in a base. -/
def digitValue? (base : Nat) (c : Char) : Option Nat :=
  let value :=
    if c.isDigit then c.toNat - '0'.toNat
    else if 'a' ≤ c.toLower ∧ c.toLower ≤ 'f' then c.toLower.toNat - 'a'.toNat + 10
    else base
  if value < base then some value else none

/-- The value of digits in a base, underscores apart; there is at least one digit. -/
def magnitude? (base : Nat) (text : List Char) : Option Nat :=
  let digits := text.filter (· != '_')
  if digits.isEmpty then none
  else digits.foldlM (fun n c => (digitValue? base c).map (base * n + ·)) 0

/-- The integer that a text stands for, if it fits 64 bits. -/
def integer? (text : String) : Option Number := do
  let (negative, unsigned) := signed text.toList
  let (radix, digits) := base unsigned
  let magnitude ← magnitude? radix digits
  Number.ofInt? (if negative then -(magnitude : Int) else magnitude)

/-! ## Doubles -/

/-- The digits and the optional point of a decimal; at least one digit is on a side of the point. -/
def mantissa? (text : List Char) : Option (List Char × List Char × List Char) :=
  let (whole, afterWhole) := text.span Char.isDigit
  let (fraction, rest) := match afterWhole with
    | '.' :: after => after.span Char.isDigit
    | _ => ([], afterWhole)
  if whole.isEmpty && fraction.isEmpty then none else some (whole, fraction, rest)

/-- The exponent that is all the rest of a decimal. -/
def exponent? : List Char → Option Int
  | [] => some 0
  | c :: rest =>
    let (negative, digits) := signed rest
    if c.toLower = 'e' && !digits.isEmpty && digits.all Char.isDigit then
      let size : Int := DecimalText.value digits
      some (if negative then -size else size)
    else none

/-- The value that a decimal stands for: a double, or the name of infinity if it is beyond them. -/
def decimal? (negative : Bool) (text : List Char) : Option Node := do
  let (whole, fraction, rest) ← mantissa? text
  let exponent ← exponent? rest
  match (DecimalText.mk negative whole fraction exponent).nearest? with
  | some double => some (.number (.float double))
  | none => some (.string (if negative then "-.inf" else ".inf"))

/-- The value that a text stands for as a double. Doubles that are not finite are written with a
point, whether the text has it or not. -/
def double? (text : String) : Option Node :=
  let (negative, unsigned) := signed text.toList
  let word := String.ofList (unsigned.map Char.toLower)
  if ["inf", "infinity", ".inf"].contains word then
    some (.string (if negative then "-.inf" else ".inf"))
  else if ["nan", ".nan"].contains word then some (.string ".nan")
  else decimal? negative unsigned

/-! ## The value -/

/-- The value that a plain scalar without a tag stands for, unless it is null. -/
def plainValue (text : String) : Node :=
  let inner := String.ofList (trimmed text.toList)
  match truth? inner, integer? inner, double? inner with
  | some value, _, _ => .bool value
  | none, some value, _ => .number value
  | none, none, some value => value
  | none, none, none => .string text

end TreeMatch.Yaml
