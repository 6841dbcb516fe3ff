import TreeMatch.Json.Reader
import TreeMatch.Yaml.Cursor

/-!
# Tags and directives of a YAML text

A tag is written whole between angle brackets, or as a handle and a suffix; directives give handles a
meaning. Characters that may not stand in a tag are written as percent escapes.
-/

namespace TreeMatch.Yaml

/-! ## Percent escapes -/

/-- The byte that a percent escape stands for, and the text after it. -/
def escapedByte? : List Char → Option (Nat × List Char)
  | '%' :: a :: b :: rest => (Json.hexNumber? [a, b]).map fun byte => (byte, rest)
  | _ => none

/-- The number of bytes after the first byte of a character. -/
def laterBytes? (first : Nat) : Option Nat :=
  if first < 0x80 then some 0
  else if first < 0xC0 then none
  else if first < 0xE0 then some 1
  else if first < 0xF0 then some 2
  else if first < 0xF8 then some 3
  else none

/-- The bytes of the next escapes put side by side after those of a code, and the text after them. -/
def escapedTail? : Nat → Nat → List Char → Option (Nat × List Char)
  | 0, code, text => some (code, text)
  | count + 1, code, text =>
    match escapedByte? text with
    | some (byte, rest) =>
      if 0x80 ≤ byte ∧ byte < 0xC0 then escapedTail? count (0x100 * code + byte) rest else none
    | none => none

/-- The character that escapes stand for, and the text after them. There is an escape for each byte
of a character, and the bytes side by side must be the code of one. -/
def escapedCharacter? (text : List Char) : Option (Char × List Char) := do
  let (first, afterFirst) ← escapedByte? text
  let count ← laterBytes? first
  let (code, rest) ← escapedTail? count first afterFirst
  let found ← Json.scalar? code
  some (found, rest)

/-- The characters of a class at the front of a text, with their escapes decoded, and the text after
them. -/
def uriText? (inClass : Char → Bool) : Nat → List Char → Option (List Char × List Char)
  | 0, text => some ([], text)
  | _ + 1, [] => some ([], [])
  | fuel + 1, c :: rest =>
    if !inClass c then some ([], c :: rest)
    else
      match (if c = '%' then escapedCharacter? (c :: rest) else some (c, rest)) with
      | some (found, after) => (uriText? inClass fuel after).map fun (others, last) => (found :: others, last)
      | none => none

/-! ## Tags -/

/-- A tag: a handle, as it is written or with its meaning, and the rest. -/
structure Tag where
  handle : String
  suffix : String
deriving DecidableEq

/-- A tag handle at the beginning of a text: a mark, word characters, and another mark if there is
one. -/
def tagHandle (text : List Char) : List Char :=
  match text with
  | '!' :: rest =>
    let name := rest.takeWhile isWord
    '!' :: name ++ (rest.drop name.length).takeWhile (· == '!') |>.take (name.length + 2)
  | _ => []

/-- Whether a handle has a mark at both ends. -/
def isClosedHandle (handle : List Char) : Bool := handle.length ≥ 2 && handle.getLast? == some '!'

/-- The tag at the beginning of a text, and the text after it. A mark alone is a tag of its own. -/
def readTag? (text : List Char) : Option (Tag × List Char) :=
  match text with
  | '!' :: '<' :: rest =>
    match uriText? isUri rest.length rest with
    | some (uri, '>' :: after) => some (⟨"", String.ofList uri⟩, after)
    | _ => none
  | _ =>
    let handle := tagHandle text
    let closed := isClosedHandle handle
    let afterHandle := text.drop (if closed then handle.length else 1)
    match uriText? isTag afterHandle.length afterHandle with
    | some (suffix, after) =>
      let tag : Tag :=
        if closed then ⟨String.ofList handle, String.ofList suffix⟩
        else if suffix.isEmpty then ⟨"", "!"⟩
        else ⟨"!", String.ofList suffix⟩
      some (tag, after)
    | none => none

/-! ## Directives -/

/-- A line at the front of a document that says how to read it. -/
inductive Directive where
  | version
  /-- The meaning of a tag handle. -/
  | handle (name meaning : String)
  /-- All other directives are left out of account. -/
  | reserved
deriving DecidableEq

/-- Whether a text is a number of a version: one digit to nine. -/
def isVersionNumber (text : String) : Bool := !text.isEmpty && text.length ≤ 9

/-- The rest of a `%YAML` directive: two numbers with a point between them. -/
def readVersion? (cursor : Cursor) : Option (Directive × Cursor) :=
  let version := cursor.rest.takeWhile fun c => c.isDigit || c == '.'
  match (String.ofList version).splitOn "." with
  | [major, minor] =>
    if isVersionNumber major && isVersionNumber minor then some (.version, cursor.advance version.length) else none
  | _ => none

/-- The rest of a `%TAG` directive: a handle and what it stands for. -/
def readHandle? (cursor : Cursor) : Option (Directive × Cursor) := do
  let handle := tagHandle cursor.rest
  if handle ≠ ['!'] ∧ !isClosedHandle handle then none
  let start := (cursor.advance handle.length).skip isBlank
  if !start.peek?.any (fun c => c == '!' || isTag c) then none
  let (meaning, rest) ← uriText? isUri start.left start.rest
  let after := start.advance (start.rest.length - rest.length)
  if !endsWord after.peek? then none
  some (.handle (String.ofList handle) (String.ofList meaning), after)

/-- A directive after its `%`, and the place after it. -/
def readDirective? (cursor : Cursor) : Option (Directive × Cursor) :=
  let name := cursor.rest.takeWhile isVisible
  let afterName := cursor.advance name.length
  let arguments := afterName.skip isBlank
  if name.isEmpty || !endsWord afterName.peek? then none
  else if String.ofList name = "YAML" then readVersion? arguments
  else if String.ofList name = "TAG" then readHandle? arguments
  else some (.reserved, arguments.skip fun c => isBlank c || isVisible c)

end TreeMatch.Yaml
