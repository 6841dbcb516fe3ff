import TreeMatch.Binary64.Shortest
import TreeMatch.Node

/-!
# Trees as JSON text

Two layouts of the same text: `Json.compact` without any blanks and `Json.pretty` with one element
or field a line and two blanks for each level. Fields are written in the order in which the tree
lists them.
-/

namespace TreeMatch.Json

/-! ## Scalars -/

/-- Doubles are written without an exponent from `1e-5` to below `1e16`; a positive exponent has its
sign. -/
def numberLayout : DecimalLayout where
  leastPositional := -5
  greatestPositional := 15
  positiveSign := ['+']

/-- The text of a number. -/
def number : Number → String
  | .integer value _ => toString value
  | .float value => String.ofList (numberLayout.write value)

/-- The lower-case hexadecimal digit of a number below sixteen. -/
def hexDigit (n : Nat) : Char := (Nat.toDigits 16 n).headD '0'

/-- A character inside a quoted text. Quotes, backslashes and control characters are escaped. -/
def escape (c : Char) : List Char :=
  if c = '"' then ['\\', '"']
  else if c = '\\' then ['\\', '\\']
  else if c = '\n' then ['\\', 'n']
  else if c = '\r' then ['\\', 'r']
  else if c = '\t' then ['\\', 't']
  else if c = '\x08' then ['\\', 'b']
  else if c = '\x0c' then ['\\', 'f']
  else if c.toNat < 0x20 then ['\\', 'u', '0', '0', hexDigit (c.toNat / 16), hexDigit (c.toNat % 16)]
  else [c]

/-- A text between quotes. -/
def quote (text : String) : String := String.ofList ('"' :: text.toList.flatMap escape ++ ['"'])

/-! ## Compact layout -/

mutual

/-- The text of a tree without blanks. -/
def compact : Node → String
  | .null => "null"
  | .bool value => if value then "true" else "false"
  | .number value => number value
  | .string text => quote text
  | .array items => "[" ++ ",".intercalate (compactItems items) ++ "]"
  | .object fields => "\x7b" ++ ",".intercalate (compactFields fields) ++ "\x7d"

/-- The texts of the elements. -/
def compactItems : List Node → List String
  | [] => []
  | item :: rest => compact item :: compactItems rest

/-- The texts of the fields. -/
def compactFields : List (String × Node) → List String
  | [] => []
  | (key, value) :: rest => (quote key ++ ":" ++ compact value) :: compactFields rest

end

/-! ## Pretty layout -/

/-- A line break and the blanks of a level. -/
def lineBreak (level : Nat) : String := String.ofList ('\n' :: List.replicate (2 * level) ' ')

/-- Lines of a level between two brackets, and the brackets alone if there are none. -/
def bracketed (level : Nat) (opening closing : String) (lines : List String) : String :=
  if lines.isEmpty then opening ++ closing
  else
    opening ++ lineBreak (level + 1) ++ ("," ++ lineBreak (level + 1)).intercalate lines ++
      lineBreak level ++ closing

mutual

/-- The text of a tree that starts on a level. -/
def prettyAt (level : Nat) : Node → String
  | .null => "null"
  | .bool value => if value then "true" else "false"
  | .number value => number value
  | .string text => quote text
  | .array items => bracketed level "[" "]" (prettyItems (level + 1) items)
  | .object fields => bracketed level "\x7b" "\x7d" (prettyFields (level + 1) fields)

/-- The texts of the elements. -/
def prettyItems (level : Nat) : List Node → List String
  | [] => []
  | item :: rest => prettyAt level item :: prettyItems level rest

/-- The texts of the fields. -/
def prettyFields (level : Nat) : List (String × Node) → List String
  | [] => []
  | (key, value) :: rest => (quote key ++ ": " ++ prettyAt level value) :: prettyFields level rest

end

/-- The text of a tree over several lines. -/
def pretty (node : Node) : String := prettyAt 0 node

end TreeMatch.Json
