/-!
# Places in a YAML text

The text still to be read together with the line and column at which it stands, and the classes of
characters that YAML tells apart.
-/

namespace TreeMatch.Yaml

/-! ## Classes of characters -/

/-- Characters that end a line. -/
def isBreak (c : Char) : Bool := c == '\n' || c == '\r'

/-- Characters that separate words within a line. -/
def isBlank (c : Char) : Bool := c == ' ' || c == '\t'

/-- Characters that structure a flow collection. -/
def isFlow (c : Char) : Bool := c == ',' || c == '[' || c == ']' || c == '\x7b' || c == '\x7d'

/-- Characters of words: letters and digits, the hyphen and the underscore. -/
def isWord (c : Char) : Bool := c.isAlphanum || c == '-' || c == '_'

/-- Characters that tags may have. -/
def isUri (c : Char) : Bool := isWord c || "#;/?:@&=+$,.!~*'()[]%".toList.contains c

/-- Characters that tags with a handle may have after it. -/
def isTag (c : Char) : Bool := isUri c && !isFlow c && c != '!'

/-- The byte order mark. -/
def byteOrderMark : Char := '\ufeff'

/-- Characters that names of anchors and directives may have. -/
def isVisible (c : Char) : Bool := !isBlank c && !isBreak c && c != byteOrderMark

/-- Whether a line ends here; the end of the text ends its last line. -/
def endsLine (c? : Option Char) : Bool := c?.all isBreak

/-- Whether a word ends here. -/
def endsWord (c? : Option Char) : Bool := c?.all fun c => isBlank c || isBreak c

/-! ## Cursors -/

/-- A place in a text. -/
structure Cursor where
  /-- The text from here on. -/
  rest : List Char
  /-- The number of characters from here on. -/
  left : Nat
  line : Nat
  column : Nat

namespace Cursor

/-- The beginning of a text. -/
def start (text : List Char) : Cursor := ⟨text, text.length, 0, 0⟩

/-- The character here. -/
def peek? (cursor : Cursor) : Option Char := cursor.rest.head?

/-- The character after the next `n`. -/
def peekAt? (cursor : Cursor) (n : Nat) : Option Char := cursor.rest[n]?

/-- The place `n` characters further on the same line. -/
def advance (cursor : Cursor) (n : Nat) : Cursor :=
  ⟨cursor.rest.drop n, cursor.left - n, cursor.line, cursor.column + n⟩

/-- The place after characters of one class, which are on the same line. -/
def skip (cursor : Cursor) (inClass : Char → Bool) : Cursor :=
  cursor.advance (cursor.rest.takeWhile inClass).length

/-- The beginning of the next line. A carriage return and a line feed are one line break. -/
def nextLine (cursor : Cursor) : Cursor :=
  match cursor.rest with
  | '\r' :: '\n' :: rest => ⟨rest, cursor.left - 2, cursor.line + 1, 0⟩
  | _ :: rest => ⟨rest, cursor.left - 1, cursor.line + 1, 0⟩
  | [] => cursor

/-- Whether the text ends here. -/
def atEnd (cursor : Cursor) : Bool := cursor.rest.isEmpty

/-- Whether a line ends here. -/
def atLineEnd (cursor : Cursor) : Bool := endsLine cursor.peek?

/-- Whether three equal characters stand alone here. -/
def atThree (cursor : Cursor) (c : Char) : Bool :=
  cursor.rest.take 3 == [c, c, c] && endsWord (cursor.peekAt? 3)

/-- Whether three equal characters stand alone at the beginning of a line. -/
def atMarker (cursor : Cursor) (c : Char) : Bool := cursor.column == 0 && cursor.atThree c

/-- Whether a document starts or ends here. -/
def atDocumentMarker (cursor : Cursor) : Bool := cursor.atMarker '-' || cursor.atMarker '.'

/-- The place after blanks and a comment; a comment has a blank before it. -/
def skipToLineEnd? (cursor : Cursor) : Option Cursor :=
  let after := cursor.skip isBlank
  if after.peek? = some '#' then
    if after.column = cursor.column then none else some (after.skip (!isBreak ·))
  else some after

end Cursor

end TreeMatch.Yaml
