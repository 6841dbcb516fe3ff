/-!
# Base64

Texts in base64: four characters for three bytes, the last group filled up with `=`.
-/

namespace TreeMatch.Yaml.Base64

/-- The six bits of a character. -/
def bits? (c : Char) : Option Nat :=
  if 'A' ≤ c ∧ c ≤ 'Z' then some (c.toNat - 'A'.toNat)
  else if 'a' ≤ c ∧ c ≤ 'z' then some (c.toNat - 'a'.toNat + 26)
  else if '0' ≤ c ∧ c ≤ '9' then some (c.toNat - '0'.toNat + 52)
  else if c = '+' then some 62
  else if c = '/' then some 63
  else none

/-- The bytes of a text. The bits that fill up the last byte are zero. -/
def decode? : List Char → Option (List UInt8)
  | [] => some []
  | [a, b, '=', '='] => do
    let high ← bits? a
    let low ← bits? b
    if low % 16 ≠ 0 then none
    some [UInt8.ofNat (high * 4 + low / 16)]
  | [a, b, c, '='] => do
    let group := ((← bits? a) * 64 + (← bits? b)) * 64 + (← bits? c)
    if group % 4 ≠ 0 then none
    some [UInt8.ofNat (group / 1024), UInt8.ofNat (group / 4)]
  | a :: b :: c :: d :: rest => do
    let group := (((← bits? a) * 64 + (← bits? b)) * 64 + (← bits? c)) * 64 + (← bits? d)
    let others ← decode? rest
    some (UInt8.ofNat (group / 65536) :: UInt8.ofNat (group / 256) :: UInt8.ofNat group :: others)
  | _ => none

/-- Whether a character is ASCII white space, which may break a text in base64 anywhere. -/
def isBlank (c : Char) : Bool := c.isWhitespace || c == '\x0c'

/-- The text whose UTF-8 bytes a text in base64 stands for. -/
def text? (encoded : String) : Option String := do
  let bytes ← decode? (encoded.toList.filter (!isBlank ·))
  String.fromUTF8? ⟨bytes.toArray⟩

end TreeMatch.Yaml.Base64
