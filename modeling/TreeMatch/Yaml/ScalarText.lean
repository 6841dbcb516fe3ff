import TreeMatch.Json.Reader
import TreeMatch.Yaml.Cursor

/-!
# Texts of YAML scalars

How the text of a plain, quoted or block scalar is read off the page: line breaks are folded into
blanks, escapes are decoded and indentation is taken away. Each reader gives the text and the place
after it, or nothing if the scalar is not well-formed. Texts being collected are held last character
first, and `fuel` bounds the number of characters.
-/

namespace TreeMatch.Yaml

/-! ## Gaps between words

Between two words of a scalar stand blanks or line breaks. Blanks within a line are kept. A single
line break becomes a space, and of several breaks all but the first are kept. -/

/-- What stands between two words. -/
structure Gap where
  /-- The blanks, last first, as long as the line goes on. -/
  blanks : List Char
  /-- Whether the line has ended. -/
  broken : Bool
  /-- Whether the first line break is itself part of the text. -/
  folds : Bool
  /-- The number of line breaks after the first. -/
  extra : Nat

namespace Gap

/-- Nothing between two words. -/
def none : Gap := ⟨[], false, false, 0⟩

/-- A line break that leaves no trace in the text. -/
def hidden : Gap := ⟨[], true, false, 0⟩

/-- A gap with a line break more. -/
def withBreak (gap : Gap) : Gap :=
  if gap.broken then { gap with extra := gap.extra + 1 } else ⟨[], true, true, 0⟩

/-- A collected text with the gap after it. -/
def join (gap : Gap) (text : List Char) : List Char :=
  if gap.broken then
    if gap.folds && gap.extra == 0 then ' ' :: text else List.replicate gap.extra '\n' ++ text
  else gap.blanks ++ text

end Gap

/-- The gap that starts here, from the part already read. Tabs do not indent: on a new line a tab
before the column `indent` is an error, unless `blankLines` and nothing else is on the line. -/
def readGap (indent : Int) (blankLines : Bool) : Nat → Gap → Cursor → Option (Gap × Cursor)
  | 0, _, _ => none
  | fuel + 1, gap, cursor =>
    match cursor.peek? with
    | none => some (gap, cursor)
    | some c =>
      if isBlank c then
        if !gap.broken then readGap indent blankLines fuel { gap with blanks := c :: gap.blanks } (cursor.advance 1)
        else if c = '\t' && (cursor.column : Int) < indent then
          if blankLines then
            match cursor.skipToLineEnd? with
            | some after => if after.atLineEnd then readGap indent blankLines fuel gap after else none
            | none => none
          else none
        else readGap indent blankLines fuel gap (cursor.advance 1)
      else if isBreak c then readGap indent blankLines fuel gap.withBreak cursor.nextLine
      else some (gap, cursor)

/-! ## Plain scalars -/

/-- Whether a character can be part of a plain scalar, given the one after it. -/
def isPlain (inFlow : Bool) (c : Char) (next? : Option Char) : Bool :=
  if c = ':' then !(endsWord next? || inFlow && next?.any isFlow)
  else !(inFlow && isFlow c)

/-- The word of a plain scalar that starts here. -/
def plainWord (inFlow : Bool) : List Char → List Char
  | [] => []
  | c :: rest =>
    if isBlank c || isBreak c || !isPlain inFlow c rest.head? then [] else c :: plainWord inFlow rest

/-- The rest of a plain scalar after the given text and gap; also whether a line has ended since its
last word. Outside of flow collections it ends where a line is indented less than `indent`. -/
def plainTail (inFlow : Bool) (indent : Int) :
    Nat → List Char → Gap → Cursor → Option (List Char × Bool × Cursor)
  | 0, _, _, _ => none
  | fuel + 1, text, gap, cursor =>
    let ended := some (text, gap.broken, cursor)
    if cursor.atDocumentMarker || cursor.peek? = some '#' then ended
    else if inFlow && cursor.peek? = some '-' && (cursor.peekAt? 1).any isFlow then none
    else
      let word := plainWord inFlow cursor.rest
      let after := cursor.advance word.length
      let read := if word.isEmpty then text else word.reverse ++ gap.join text
      let left := if word.isEmpty then gap else Gap.none
      if after.atEnd || !endsWord after.peek? then some (read, left.broken, after)
      else
        match readGap indent true (after.left + 1) left after with
        | none => none
        | some (between, next) =>
          if !inFlow && (next.column : Int) < indent then some (read, between.broken, next)
          else plainTail inFlow indent fuel read between next

/-- The plain scalar that starts here, not empty; also whether a line has ended after it. -/
def plain? (inFlow : Bool) (indent : Int) (cursor : Cursor) : Option (String × Bool × Cursor) :=
  match plainTail inFlow indent (cursor.left + 1) [] Gap.none cursor with
  | some (text, broken, after) =>
    if text.isEmpty then none else some (String.ofList text.reverse, broken, after)
  | none => none

/-! ## Quoted scalars -/

/-- The characters that one-letter escapes stand for. -/
def shortEscapes : List (Char × Char) :=
  [('0', '\x00'), ('a', '\x07'), ('b', '\x08'), ('t', '\t'), ('\t', '\t'), ('n', '\n'),
   ('v', '\x0b'), ('f', '\x0c'), ('r', '\r'), ('e', '\x1b'), (' ', ' '), ('"', '"'), ('/', '/'),
   ('\\', '\\'), ('N', '\u0085'), ('_', '\u00a0'), ('L', '\u2028'), ('P', '\u2029')]

/-- The number of hexadecimal digits that an escape takes. -/
def hexEscapes : List (Char × Nat) := [('x', 2), ('u', 4), ('U', 8)]

/-- The code that an escape with hexadecimal digits stands for, and its length after the backslash. -/
def hexEscape? : List Char → Option (Nat × Nat)
  | [] => none
  | c :: rest => do
    let size ← hexEscapes.lookup c
    let digits := rest.take size
    if digits.length < size then none
    let code ← Json.hexNumber? digits
    some (code, size + 1)

/-- The character that an escape stands for, and its length after the backslash. Two escapes of four
digits can be a surrogate pair. -/
def escape? (text : List Char) : Option (Char × Nat) :=
  match text.head?.bind fun c => shortEscapes.lookup c with
  | some found => some (found, 1)
  | none => do
    let (code, size) ← hexEscape? text
    match text.head?, text.drop size with
    | some 'u', '\\' :: 'u' :: rest =>
      if Json.isHighSurrogate code then do
        let (low, _) ← hexEscape? ('u' :: rest)
        if Json.isLowSurrogate low then some (Char.ofNat (Json.joinSurrogates code low), 2 * size + 1) else none
      else (Json.scalar? code).map fun found => (found, size)
    | _, _ => (Json.scalar? code).map fun found => (found, size)

/-- The next word of a quoted scalar, up to a blank, a line break or the closing quote, and the gap
that an escaped line break starts. -/
def quotedWord (single : Bool) : Nat → List Char → Cursor → Option (List Char × Gap × Cursor)
  | 0, _, _ => none
  | fuel + 1, text, cursor =>
    match cursor.rest with
    | [] => some (text, Gap.none, cursor)
    | c :: rest =>
      if isBlank c || isBreak c then some (text, Gap.none, cursor)
      else if single then
        if c = '\'' then
          if rest.head? = some '\'' then quotedWord single fuel ('\'' :: text) (cursor.advance 2)
          else some (text, Gap.none, cursor)
        else quotedWord single fuel (c :: text) (cursor.advance 1)
      else if c = '"' then some (text, Gap.none, cursor)
      else if c = '\\' then
        if rest.head?.any isBreak then some (text, Gap.hidden, (cursor.advance 1).nextLine)
        else
          match escape? rest with
          | some (found, size) => quotedWord single fuel (found :: text) (cursor.advance (size + 1))
          | none => none
      else quotedWord single fuel (c :: text) (cursor.advance 1)

/-- The rest of a quoted scalar, up to and with its closing quote. Outside of flow collections its
lines are indented more than `indent`, unless the line break before is escaped or the closing quote
is first on the line. -/
def quotedTail (single inFlow : Bool) (indent : Int) :
    Nat → List Char → Cursor → Option (List Char × Cursor)
  | 0, _, _ => none
  | fuel + 1, text, cursor =>
    let quote := if single then '\'' else '"'
    if cursor.atDocumentMarker || cursor.atEnd then none
    else
      match quotedWord single (cursor.left + 1) text cursor with
      | none => none
      | some (read, gap, after) =>
        if !gap.broken && after.peek? = some quote then some (read, after.advance 1)
        else
          match readGap indent false (after.left + 1) gap after with
          | none => none
          | some (between, next) =>
            if between.folds && !inFlow && (next.column : Int) ≤ indent && next.peek? ≠ some quote then none
            else quotedTail single inFlow indent fuel (between.join read) next

/-- The quoted scalar whose opening quote is here. -/
def quoted? (single inFlow : Bool) (indent : Int) (cursor : Cursor) : Option (String × Cursor) :=
  (quotedTail single inFlow indent (cursor.left + 1) [] (cursor.advance 1)).map fun (text, after) =>
    (String.ofList text.reverse, after)

/-! ## Block scalars -/

/-- What becomes of the line breaks at the end of a block scalar. -/
inductive Chomping where
  | strip
  | clip
  | keep
deriving DecidableEq

/-- The sign of a chomping. -/
def chomping? : Option Char → Option Chomping
  | some '-' => some .strip
  | some '+' => some .keep
  | _ => none

/-- The digit of an indentation, which is not zero. -/
def indentation? (c? : Option Char) : Option Nat :=
  c?.bind fun c => if c.isDigit && c != '0' then some (c.toNat - '0'.toNat) else none

/-- The chomping and the indentation after the indicator of a block scalar, in either order. -/
def blockHeader (cursor : Cursor) : Chomping × Option Nat × Cursor :=
  match chomping? cursor.peek? with
  | some chomping =>
    let after := cursor.advance 1
    match indentation? after.peek? with
    | some size => (chomping, some size, after.advance 1)
    | none => (chomping, none, after)
  | none =>
    match indentation? cursor.peek? with
    | some size =>
      let after := cursor.advance 1
      match chomping? after.peek? with
      | some chomping => (chomping, some size, after.advance 1)
      | none => (.clip, some size, after)
    | none => (.clip, none, cursor)

/-- Empty lines in a block scalar of a known indentation: their number, and the place in the next
line after its indentation. -/
def emptyLines (indent : Nat) : Nat → Nat → Cursor → Nat × Cursor
  | 0, count, cursor => (count, cursor)
  | fuel + 1, count, cursor =>
    let spaces := (cursor.rest.takeWhile (· == ' ')).length
    let after := cursor.advance (min spaces (indent - cursor.column))
    if after.peek?.any isBreak then emptyLines indent fuel (count + 1) after.nextLine
    else (count, after)

/-- Empty lines before the first line of a block scalar: their number, the greatest column that
spaces reach, and the place after the spaces of the first line. -/
def leadingLines : Nat → Nat → Nat → Cursor → Nat × Nat × Cursor
  | 0, count, widest, cursor => (count, widest, cursor)
  | fuel + 1, count, widest, cursor =>
    let after := cursor.skip (· == ' ')
    let reached := max widest after.column
    if after.peek?.any isBreak then leadingLines fuel (count + 1) reached after.nextLine
    else (count, reached, after)

/-- The lines of a block scalar. `ended` says whether the line before has ended, `inset` whether it
started with a blank, and `empty` counts the empty lines since. Folding makes a space of a line
break between two lines of which neither starts with a blank. The result is the text before the
last line break, whether that line break is there, and the number of empty lines after it. -/
def blockLines (literal : Bool) (indent : Nat) :
    Nat → List Char → Bool → Bool → Nat → Cursor → List Char × Bool × Nat × Cursor
  | 0, text, ended, _, empty, cursor => (text, ended, empty, cursor)
  | fuel + 1, text, ended, inset, empty, cursor =>
    if cursor.column != indent || cursor.atEnd || indent == 0 && cursor.atMarker '.' then
      (text, ended, empty, cursor)
    else
      let startsBlank := cursor.peek?.any isBlank
      let breaks := List.replicate empty '\n'
      let joined :=
        if !literal && ended && !inset && !startsBlank then
          if empty = 0 then ' ' :: text else breaks ++ text
        else if ended then breaks ++ '\n' :: text
        else breaks ++ text
      let line := cursor.rest.takeWhile (!isBreak ·)
      let after := cursor.advance line.length
      let read := line.reverse ++ joined
      if after.atEnd then (read, false, 0, after)
      else
        let (blank, next) := emptyLines indent (after.left + 1) 0 after.nextLine
        blockLines literal indent fuel read true startsBlank blank next

/-- The text of a block scalar with its last line breaks as the chomping says. A last line that the
end of the text ends counts as ended. -/
def chomp (chomping : Chomping) (indent : Nat) (text : List Char) (ended : Bool) (empty : Nat)
    (after : Cursor) : List Char :=
  let clipped :=
    (if after.atEnd && max indent 1 ≤ after.column then ['\n'] else []) ++
      (if ended then ['\n'] else []) ++ text
  match chomping with
  | .strip => text
  | .clip => clipped
  | .keep => List.replicate empty '\n' ++ clipped

/-- The block scalar whose indicator is here, inside of a node with the indentation `parent`; also
the column at which its text starts. -/
def block? (literal : Bool) (parent : Int) (cursor : Cursor) : Option (String × Nat × Cursor) := do
  let (chomping, size?, afterHeader) := blockHeader (cursor.advance 1)
  let headerEnd ← afterHeader.skipToLineEnd?
  if !headerEnd.atLineEnd then none
  let first := if headerEnd.atEnd then headerEnd else headerEnd.nextLine
  if first.peek? = some '\t' then none
  let fuel := first.left + 1
  let (indent, empty, body) : Nat × Nat × Cursor :=
    match size? with
    | some size =>
      let indent := if parent < 0 then size else parent.toNat + size
      let (empty, body) := emptyLines indent fuel 0 first
      (indent, empty, body)
    | none =>
      let (empty, widest, body) := leadingLines fuel 0 0 first
      (max widest (parent + 1).toNat, empty, body)
  if body.atEnd then
    let text :=
      if chomping = .strip ∨ headerEnd.atEnd then []
      else if chomping = .keep ∧ empty > 0 then List.replicate empty '\n'
      else ['\n']
    some (String.ofList text, cursor.column, body)
  else if body.column < indent ∧ parent < body.column then none
  else
    let (text, ended, left, after) := blockLines literal indent fuel [] false false empty body
    some (String.ofList (chomp chomping indent text ended left after).reverse, body.column, after)

end TreeMatch.Yaml
