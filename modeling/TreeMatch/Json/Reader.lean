import TreeMatch.Node

/-!
# Trees from JSON text

`Json.read?` reads a text that is one JSON value with blanks around it, and nothing else. Strings
hold no raw control characters and no unpaired surrogate escapes, numbers stay within the doubles,
and arrays and objects nest no deeper than the caller allows.
-/

namespace TreeMatch.Json

/-- A reader takes what it can from the front of a text and leaves the rest. -/
abbrev Reader (α : Type) := List Char → Option (α × List Char)

/-- The blanks that may stand between any two parts of a text. -/
def isBlank (c : Char) : Bool := c == ' ' || c == '\t' || c == '\n' || c == '\r'

/-- The text from its first character that is not blank. -/
def skipBlanks (text : List Char) : List Char := text.dropWhile isBlank

/-! ## Strings -/

/-- The value of a hexadecimal digit of either case. -/
def hexValue? (c : Char) : Option Nat :=
  if '0' ≤ c ∧ c ≤ '9' then some (c.toNat - '0'.toNat)
  else if 'a' ≤ c ∧ c ≤ 'f' then some (c.toNat - 'a'.toNat + 10)
  else if 'A' ≤ c ∧ c ≤ 'F' then some (c.toNat - 'A'.toNat + 10)
  else none

/-- The value of hexadecimal digits. -/
def hexNumber? (digits : List Char) : Option Nat :=
  digits.foldlM (fun n c => (hexValue? c).map (16 * n + ·)) 0

/-- The character of a code point outside the surrogates. -/
def scalar? (code : Nat) : Option Char :=
  if code.isValidChar then some (Char.ofNat code) else none

/-- The character that a one-letter escape stands for. -/
def shortEscape? (c : Char) : Option Char :=
  if c = '"' ∨ c = '\\' ∨ c = '/' then some c
  else if c = 'b' then some '\x08'
  else if c = 'f' then some '\x0c'
  else if c = 'n' then some '\n'
  else if c = 'r' then some '\r'
  else if c = 't' then some '\t'
  else none

/-- Whether a code unit is the first of a surrogate pair. -/
def isHighSurrogate (code : Nat) : Bool := 0xD800 ≤ code && code < 0xDC00

/-- Whether a code unit is the second of a surrogate pair. -/
def isLowSurrogate (code : Nat) : Bool := 0xDC00 ≤ code && code < 0xE000

/-- The code point of a surrogate pair. -/
def joinSurrogates (high low : Nat) : Nat := 0x10000 + (high - 0xD800) * 0x400 + (low - 0xDC00)

/-- The rest of a string after its opening quote; `taken` holds the characters before, last first. -/
def stringTail (taken : List Char) : Reader String
  | [] => none
  | '"' :: rest => some (String.ofList taken.reverse, rest)
  | '\\' :: 'u' :: a :: b :: c :: d :: rest =>
    match hexNumber? [a, b, c, d] with
    | none => none
    | some code =>
      if isHighSurrogate code then
        match rest with
        | '\\' :: 'u' :: e :: f :: g :: h :: after =>
          match hexNumber? [e, f, g, h] with
          | none => none
          | some low =>
            if isLowSurrogate low then stringTail (Char.ofNat (joinSurrogates code low) :: taken) after
            else none
        | _ => none
      else
        match scalar? code with
        | some character => stringTail (character :: taken) rest
        | none => none
  | '\\' :: c :: rest =>
    match shortEscape? c with
    | some character => stringTail (character :: taken) rest
    | none => none
  | c :: rest => if c = '\\' ∨ c.toNat < 0x20 then none else stringTail (c :: taken) rest

/-! ## Numbers -/

/-- The digits at the front of a text. -/
def digits (text : List Char) : List Char × List Char := text.span Char.isDigit

/-- An optional sign, `true` for minus. -/
def sign : List Char → Bool × List Char
  | '-' :: rest => (true, rest)
  | '+' :: rest => (false, rest)
  | text => (false, text)

/-- The digits after a point, `none` if there is no point. -/
def fraction? : List Char → Option (Option (List Char) × List Char)
  | '.' :: rest =>
    let (found, after) := digits rest
    if found.isEmpty then none else some (some found, after)
  | text => some (none, text)

/-- The exponent, `none` if there is no exponent part. -/
def exponent? : List Char → Option (Option Int × List Char)
  | c :: rest =>
    if c = 'e' ∨ c = 'E' then
      let (negative, unsigned) := sign rest
      let (found, after) := digits unsigned
      if found.isEmpty then none
      else
        let size : Int := DecimalText.value found
        some (some (if negative then -size else size), after)
    else some (none, c :: rest)
  | [] => some (none, [])

/-- A number with as many more of the next digits behind it as stay within 64 bits, and the digits that
are left over. -/
def absorb (n : Nat) : List Char → Nat × List Char
  | [] => (n, [])
  | d :: rest =>
    let longer := 10 * n + (d.toNat - '0'.toNat)
    if longer < 18446744073709551616 then absorb longer rest else (n, d :: rest)

/-- The greatest exponent that is taken at its value. -/
def exponentLimit : Nat := 2147483647

/-- The double of a written number. Of its digits those count that fit 64 bits together, and the
integer of these is scaled. An exponent beyond the limit is as good as infinite. -/
def double? (negative : Bool) (whole fraction : List Char) (exponent : Int) : Option Binary64 := do
  let (significand, left) := absorb 0 whole
  let (significand, unused) := absorb significand fraction
  let scale : Int := left.length - (fraction.length - unused.length : Nat)
  let unscaled ← Binary64.ofRatio? negative significand 1
  if exponent.natAbs ≤ exponentLimit then unscaled.scaled? (scale + exponent)
  else if significand ≠ 0 ∧ 0 < exponent then none
  else some (.zero negative)

/-- A number without point and exponent is an integer if it fits, but for minus zero; all others
are doubles. -/
def number? : Reader Number := fun text => do
  let (negative, unsigned) := match text with
    | '-' :: rest => (true, rest)
    | _ => (false, text)
  let (whole, afterWhole) := digits unsigned
  if whole.isEmpty ∨ whole.length > 1 ∧ whole.head? = some '0' then none
  let (fraction, afterFraction) ← fraction? afterWhole
  let (exponent, rest) ← exponent? afterFraction
  let size := DecimalText.value whole
  let asInteger : Option Number :=
    if fraction.isSome ∨ exponent.isSome ∨ negative ∧ size = 0 then none
    else Number.ofInt? (if negative then -(size : Int) else size)
  match asInteger with
  | some found => some (found, rest)
  | none => (double? negative whole (fraction.getD []) (exponent.getD 0)).map fun double => (.float double, rest)

/-! ## Values -/

/-- The rest of a list of parts after one of its parts: a comma and another part, or the closing
bracket. `fuel` bounds the number of parts and `taken` holds those before, last first. -/
def partsTail {α : Type} (part : Reader α) (closing : Char) : Nat → List α → Reader (List α)
  | 0, _, _ => none
  | fuel + 1, taken, text =>
    match skipBlanks text with
    | [] => none
    | c :: rest =>
      if c = closing then some (taken.reverse, rest)
      else if c = ',' then
        match part (skipBlanks rest) with
        | some (found, after) => partsTail part closing fuel (found :: taken) after
        | none => none
      else none

/-- The parts after an opening bracket, up to and with the closing one; `fuel` bounds their number. -/
def parts {α : Type} (fuel : Nat) (part : Reader α) (closing : Char) : Reader (List α) := fun text =>
  match skipBlanks text with
  | [] => none
  | c :: rest =>
    if c = closing then some ([], rest)
    else do
      let (first, after) ← part (c :: rest)
      partsTail part closing fuel [first] after

/-- A key, a colon and a value. -/
def field (value : Reader Node) : Reader (String × Node)
  | '"' :: text => do
    let (key, afterKey) ← stringTail [] text
    match skipBlanks afterKey with
    | ':' :: rest => do
      let (held, after) ← value (skipBlanks rest)
      some ((key, held), after)
    | _ => none
  | _ => none

/-- A value that starts at the first character, its arrays and objects nested at most `depth` deep;
`fuel` bounds the number of their parts. -/
def value (fuel : Nat) : Nat → Reader Node
  | _, 'n' :: 'u' :: 'l' :: 'l' :: rest => some (.null, rest)
  | _, 't' :: 'r' :: 'u' :: 'e' :: rest => some (.bool true, rest)
  | _, 'f' :: 'a' :: 'l' :: 's' :: 'e' :: rest => some (.bool false, rest)
  | _, '"' :: rest => (stringTail [] rest).map fun (text, after) => (.string text, after)
  | depth + 1, '[' :: rest =>
    (parts fuel (value fuel depth) ']' rest).map fun (items, after) => (.array items, after)
  | depth + 1, '\x7b' :: rest =>
    (parts fuel (field (value fuel depth)) '\x7d' rest).map fun (pairs, after) =>
      (Node.ofPairs pairs, after)
  | _, text => (number? text).map fun (found, after) => (.number found, after)

/-- The tree of a JSON text whose arrays and objects nest at most `depth` deep. -/
def read? (depth : Nat) (text : String) : Option Node :=
  match value text.length depth (skipBlanks text.toList) with
  | some (node, rest) => if (skipBlanks rest).isEmpty then some node else none
  | none => none

end TreeMatch.Json
