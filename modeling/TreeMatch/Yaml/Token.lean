import TreeMatch.Characters
import TreeMatch.Yaml.ScalarText
import TreeMatch.Yaml.Tag

/-!
# Tokens of a YAML text

A text is cut into tokens: the indicators that are written, and the starts and ends of block
collections that follow from indentation. A node that turns out to be a key when its colon is met
gets its key token in front of it afterwards. `Token.ofText` gives the tokens of a text; where the
text breaks the rules of tokens, `Token.invalid` follows those that are certain by then.
-/

namespace TreeMatch.Yaml

/-- How a scalar is written. -/
inductive Style where
  | plain
  | quoted
  | block
  /-- A folded block scalar whose text starts in the first column; it is no node. -/
  | unindented
deriving DecidableEq

/-- A token. -/
inductive Token where
  | directive (directive : Directive)
  | documentStart
  | documentEnd
  | blockSequenceStart
  | blockMappingStart
  | blockEnd
  | blockEntry
  | flowSequenceStart
  | flowSequenceEnd
  | flowMappingStart
  | flowMappingEnd
  | flowEntry
  | key
  | value
  | aliasOf (name : String)
  | anchor (name : String)
  | tag (tag : Tag)
  | scalar (style : Style) (text : String)
  /-- Here the text breaks the rules of tokens. -/
  | invalid
deriving DecidableEq

/-- An open level of indentation. -/
structure Level where
  /-- The indentation outside of it. -/
  outer : Int
  /-- Whether it is a block collection; else it is what a value or flow collection in one needs. -/
  isBlock : Bool

/-- A place at which a key may have started. -/
structure PossibleKey where
  /-- Whether only a key can stand there. -/
  required : Bool
  /-- The number of tokens before it. -/
  position : Nat
  /-- The number of characters from there on. -/
  left : Nat
  line : Nat
  column : Nat

/-- What has been read of a text, and what there is to know about it for the rest. -/
structure Scan where
  cursor : Cursor
  /-- The tokens, last first. -/
  tokens : List Token
  /-- The number of tokens. -/
  count : Nat
  /-- The indentation in force, which is -1 outside of all block collections. -/
  indent : Int
  /-- The open levels of indentation, innermost first. -/
  levels : List Level
  /-- The number of open flow collections. -/
  depth : Nat
  /-- For each open flow sequence, innermost first, the depth of the entry that is a pair without a
  mark of its own. -/
  pairs : List (Option Nat)
  /-- Where a key may have started, for each open flow collection and for the block around them. -/
  possibleKeys : List (Option PossibleKey)
  /-- Whether a key may start here. -/
  keyAllowed : Bool
  /-- Whether only blanks are before the cursor on its line. -/
  freshLine : Bool
  /-- The place at which a colon is a value indicator whatever follows, by the number of characters
  from there on. -/
  adjacentAt : Option Nat
  /-- Whether the last token is an anchor or a tag in the first column. -/
  marginProperty : Bool
  /-- Whether a flow mapping has been opened since the last pair without a mark ended. -/
  mappingOpened : Bool
  /-- The line on which a comment has just cut a plain scalar off. -/
  cutOffAt : Option Nat

namespace Scan

/-- Nothing has been read. -/
def start (text : List Char) : Scan where
  cursor := .start text
  tokens := []
  count := 0
  indent := -1
  levels := []
  depth := 0
  pairs := []
  possibleKeys := [none]
  keyAllowed := true
  freshLine := true
  adjacentAt := none
  marginProperty := false
  mappingOpened := false
  cutOffAt := none

/-- Whether the cursor is inside a flow collection. -/
def inFlow (scan : Scan) : Bool := 0 < scan.depth

/-- Adds a token. -/
def push (scan : Scan) (token : Token) : Scan :=
  { scan with tokens := token :: scan.tokens, count := scan.count + 1, marginProperty := false }

/-- Puts a token in front of those from a position on. -/
def insert (scan : Scan) (position : Nat) (token : Token) : Scan :=
  let later := scan.count - position
  { scan with
    tokens := scan.tokens.take later ++ token :: scan.tokens.drop later
    count := scan.count + 1 }

/-- Goes on to a place on the same line after something that is not blank. -/
def moveTo (scan : Scan) (cursor : Cursor) : Scan := { scan with cursor := cursor, freshLine := false }

/-- Goes on over blanks and a comment. -/
def skipToLineEnd? (scan : Scan) : Option Scan :=
  scan.cursor.skipToLineEnd?.map fun cursor => { scan with cursor := cursor }

/-! ## Indentation -/

/-- Closes the levels that are indented more than a column, and counts the block collections among
them on top of `ends`. -/
def closeLevels (column : Int) : List Level → Int → Nat → List Level × Int × Nat
  | [], indent, ends => ([], indent, ends)
  | level :: outer, indent, ends =>
    if column < indent then
      closeLevels column outer level.outer (if level.isBlock then ends + 1 else ends)
    else (level :: outer, indent, ends)

/-- Ends the block collections that are indented more than a column. Flow collections do not care
for indentation. -/
def unindent (scan : Scan) (column : Int) : Scan :=
  if scan.inFlow then scan
  else
    let (levels, indent, ends) := closeLevels column scan.levels scan.indent 0
    { scan with
      levels := levels
      indent := indent
      tokens := List.replicate ends .blockEnd ++ scan.tokens
      count := scan.count + ends }

/-- Forgets the levels inside the innermost block collection. -/
def innermostBlock : List Level → Int → List Level × Int
  | [], indent => ([], indent)
  | level :: outer, indent =>
    if level.isBlock then (level :: outer, indent) else innermostBlock outer level.outer

/-- Forgets the levels that are no block collections. -/
def dropInlineLevels (scan : Scan) : Scan :=
  let (levels, indent) := innermostBlock scan.levels scan.indent
  { scan with levels := levels, indent := indent }

/-- Asks the inside of a block collection for one column more. -/
def addInlineLevel (scan : Scan) : Scan :=
  if !scan.inFlow && scan.levels.head?.any (·.isBlock) then
    { scan with levels := ⟨scan.indent, false⟩ :: scan.levels, indent := scan.indent + 1 }
  else scan

/-- Starts a block collection at a column, unless it is already going on there. Its token comes
before the token at `position`. -/
def startBlock (scan : Scan) (column : Nat) (position : Nat) (token : Token) : Scan :=
  if scan.inFlow then scan
  else
    let scan :=
      match scan.levels with
      | level :: outer =>
        if scan.indent ≤ (column : Int) && !level.isBlock then
          { scan with levels := outer, indent := level.outer }
        else scan
      | [] => scan
    if scan.indent < (column : Int) then
      { scan.insert position token with
        levels := ⟨scan.indent, true⟩ :: scan.levels
        indent := column
        marginProperty := false }
    else scan

/-! ## Keys -/

/-- Notes that a key may start here. -/
def noteKey (scan : Scan) : Scan :=
  if scan.keyAllowed then
    let required :=
      !scan.inFlow && scan.indent == scan.cursor.column && scan.levels.head?.any (·.isBlock)
    let key : PossibleKey :=
      ⟨required, scan.count, scan.cursor.left, scan.cursor.line, scan.cursor.column⟩
    { scan with possibleKeys := some key :: scan.possibleKeys.drop 1 }
  else scan

/-- Gives up the key that may have started; one that is required cannot be given up. -/
def dropKey? (scan : Scan) : Option Scan :=
  match scan.possibleKeys with
  | some key :: outer => if key.required then none else some { scan with possibleKeys := none :: outer }
  | _ => some scan

/-- Whether a possible key is too far away. Outside of flow collections a key is within one line and
1024 characters. -/
def isStale (cursor : Cursor) (key : PossibleKey) : Bool :=
  key.line < cursor.line || cursor.left + 1024 < key.left

/-- Gives up the keys that are too far away. -/
def dropStaleKeys? (scan : Scan) : Option Scan :=
  if scan.inFlow then some scan
  else if scan.possibleKeys.any fun key? => key?.any fun key => isStale scan.cursor key && key.required then none
  else
    let fresh := scan.possibleKeys.map fun key? => key?.filter (!isStale scan.cursor ·)
    some { scan with possibleKeys := fresh }

/-! ## Between tokens -/

/-- Goes on to the next token, over blanks, line breaks and comments. Tabs do not indent the inside
of a block collection. -/
def skipGap? : Nat → Scan → Option Scan
  | 0, scan => some scan
  | fuel + 1, scan =>
    match scan.cursor.peek? with
    | none => some scan
    | some c =>
      if c = '\t' && !scan.levels.isEmpty && scan.freshLine && (scan.cursor.column : Int) < scan.indent then do
        let after ← scan.skipToLineEnd?
        if after.cursor.atLineEnd then skipGap? fuel after else none
      else if isBlank c then skipGap? fuel { scan with cursor := scan.cursor.advance 1 }
      else if isBreak c then
        skipGap? fuel { scan with
          cursor := scan.cursor.nextLine
          freshLine := true
          keyAllowed := scan.keyAllowed || !scan.inFlow }
      else if c = '#' then skipGap? fuel (scan.moveTo (scan.cursor.skip (!isBreak ·)))
      else some scan

/-! ## Documents -/

/-- Takes a directive line. -/
def directive? (scan : Scan) : Option Scan := do
  let scan ← (scan.unindent (-1)).dropKey?
  let (directive, after) ← readDirective? (scan.cursor.advance 1)
  let lineEnd ← after.skipToLineEnd?
  if !lineEnd.atLineEnd then none
  some (({ scan with keyAllowed := false }.moveTo lineEnd).push (.directive directive))

/-- Takes a document marker, which stands in no flow collection. Only a comment may follow the end of
a document on its line. -/
def documentMarker? (scan : Scan) (token : Token) : Option Scan := do
  if scan.inFlow then none
  let scan ← (scan.unindent (-1)).dropKey?
  let marked := ({ scan with keyAllowed := false }.moveTo (scan.cursor.advance 3)).push token
  if token = .documentEnd then
    let after ← marked.skipToLineEnd?
    if after.cursor.atLineEnd then some after else none
  else some marked

/-! ## Flow collections -/

/-- Takes the start of a flow collection. They nest at most 255 deep. -/
def openBracket? (scan : Scan) (token : Token) : Option Scan :=
  if scan.depth ≥ 255 then none
  else
    let scan := scan.noteKey.addInlineLevel
    let inside := { scan with
      depth := scan.depth + 1
      pairs := if token = Token.flowSequenceStart then none :: scan.pairs else scan.pairs
      possibleKeys := none :: scan.possibleKeys
      keyAllowed := true
      mappingOpened := scan.mappingOpened || token = Token.flowMappingStart }
    ((inside.moveTo (scan.cursor.advance 1)).push token).skipToLineEnd?

/-- Ends the pair without a mark that the entry here may be. -/
def endPair (scan : Scan) : Scan :=
  match scan.pairs with
  | some depth :: outer =>
    if depth == scan.depth then { scan with pairs := none :: outer, mappingOpened := false } else scan
  | _ => scan

/-- Ends the innermost flow sequence together with the pair in it. -/
def endSequence (scan : Scan) : Scan := { scan.endPair with pairs := scan.pairs.drop 1 }

/-- Takes the end of a flow collection, of either kind. Inside another one a colon may follow without
a blank. -/
def closeBracket? (scan : Scan) (token : Token) : Option Scan := do
  if !scan.inFlow then none
  let dropped ← scan.dropKey?
  let scan := if token = .flowSequenceEnd then dropped.endSequence else dropped
  let outside := { scan with
    depth := scan.depth - 1
    possibleKeys := scan.possibleKeys.drop 1
    keyAllowed := false }
  let after ← ((outside.moveTo (scan.cursor.advance 1)).push token).skipToLineEnd?
  some (if after.inFlow then { after with adjacentAt := some after.cursor.left } else after)

/-- Takes a comma. -/
def flowEntry? (scan : Scan) : Option Scan := do
  let scan := (← scan.dropKey?).endPair
  (({ scan with keyAllowed := true }.moveTo (scan.cursor.advance 1)).push .flowEntry).skipToLineEnd?

/-! ## Block collections -/

/-- Takes the dash of an entry. -/
def blockEntry? (scan : Scan) : Option Scan := do
  if scan.inFlow || !scan.keyAllowed then none
  if scan.marginProperty && scan.cursor.column == 0 && scan.indent > -1 then none
  let dashed := scan.moveTo (scan.cursor.advance 1)
  let opened := dashed.startBlock scan.cursor.column dashed.count .blockSequenceStart
  let tabbed := (opened.cursor.rest.takeWhile isBlank).contains '\t'
  let after ← opened.skipToLineEnd?
  let next? := after.cursor.peek?
  if tabbed && next? = some '-' && endsWord (after.cursor.peekAt? 1) then none
  let inside := if next?.any (fun c => isBreak c || isFlow c) then after.addInlineLevel else after
  let scan ← inside.dropKey?
  some ({ scan with keyAllowed := true }.push .blockEntry)

/-- Goes on over spaces, line breaks and comments after a question mark. -/
def skipAfterKey : Nat → Scan → Scan
  | 0, scan => scan
  | fuel + 1, scan =>
    match scan.cursor.peek? with
    | none => scan
    | some c =>
      if c = ' ' then skipAfterKey fuel { scan with cursor := scan.cursor.advance 1 }
      else if isBreak c then
        skipAfterKey fuel { scan with
          cursor := scan.cursor.nextLine
          freshLine := true
          keyAllowed := scan.keyAllowed || !scan.inFlow }
      else if c = '#' then skipAfterKey fuel (scan.moveTo (scan.cursor.skip (!isBreak ·)))
      else scan

/-- Takes a question mark, which has a space or a line break behind it. -/
def explicitKey? (scan : Scan) : Option Scan := do
  if !scan.inFlow && !scan.keyAllowed then none
  if !(scan.cursor.peekAt? 1).any (fun c => c == ' ' || isBreak c) then none
  let opened := scan.startBlock scan.cursor.column scan.count .blockMappingStart
  let scan ← opened.dropKey?
  let marked := { scan with
    keyAllowed := !scan.inFlow
    mappingOpened := scan.mappingOpened || scan.inFlow }.moveTo (scan.cursor.advance 1)
  let after := skipAfterKey (marked.cursor.left + 1) marked
  if after.cursor.peek? = some '\t' then none
  some (after.push .key)

/-- Notes that the entry here is a pair, where a flow sequence has one without a mark; also whether
that is so. Once a flow mapping has been opened, pairs are not noted until one that was has ended. -/
def notePair (scan : Scan) : Scan × Bool :=
  match scan.pairs with
  | _ :: outer =>
    if scan.mappingOpened then (scan, false) else ({ scan with pairs := some scan.depth :: outer }, true)
  | [] => (scan, false)

/-- Takes a colon. What may have been a key is one now; that of a noted pair is on the same line. -/
def value? (scan : Scan) : Option Scan := do
  let mark := scan.cursor
  let (colon, isPair) := (scan.moveTo (mark.advance 1)).notePair
  let blanks := colon.cursor.rest.takeWhile isBlank
  let next? := colon.cursor.peekAt? blanks.length
  if blanks.head? = some '\t' && !blanks.contains ' ' && next?.any isWord then none
  match colon.possibleKeys with
  | some key :: outer =>
    if isPair && key.line < mark.line then none
    let keyed := { colon.insert key.position .key with
      possibleKeys := none :: outer
      keyAllowed := false }
    some ((keyed.startBlock key.column key.position .blockMappingStart).addInlineLevel.push .value)
  | _ =>
    if !colon.inFlow && !colon.keyAllowed then none
    let opened := (colon.startBlock mark.column colon.count .blockMappingStart).addInlineLevel
    some ({ opened with keyAllowed := !colon.inFlow }.push .value)

/-! ## Nodes -/

/-- Takes an anchor or an alias. -/
def name? (scan : Scan) (token : String → Token) (isProperty : Bool) : Option Scan :=
  let scan := scan.noteKey
  let name := (scan.cursor.rest.drop 1).takeWhile fun c => isVisible c && !isFlow c
  if name.isEmpty then none
  else
    let named := ({ scan with keyAllowed := false }.moveTo (scan.cursor.advance (name.length + 1))).push
      (token (String.ofList name))
    some { named with marginProperty := isProperty && scan.cursor.column == 0 }

/-- Takes a tag, which ends with its word. -/
def tag? (scan : Scan) : Option Scan := do
  let scan := scan.noteKey
  let (tag, rest) ← readTag? scan.cursor.rest
  let after := scan.cursor.advance (scan.cursor.left - rest.length)
  if !(endsWord after.peek? || scan.inFlow && after.peek?.any isFlow) then none
  let tagged := ({ scan with keyAllowed := false }.moveTo after).push (.tag tag)
  some { tagged with marginProperty := scan.cursor.column == 0 }

/-- Takes a block scalar. -/
def blockScalar? (scan : Scan) (literal : Bool) : Option Scan := do
  let scan := scan.noteKey.dropInlineLevels
  let (text, column, after) ← block? literal scan.indent scan.cursor
  let style := if !literal && column == 0 && !text.toList.all isSpace then .unindented else .block
  some ({ scan with cursor := after, keyAllowed := true, freshLine := true }.push (.scalar style text))

/-- What may follow a quoted scalar on its line: the end of the line, a colon if the scalar can be a
key, and in a flow collection what structures it. -/
def closesQuoted (scan : Scan) (line : Nat) (after : Cursor) : Bool :=
  after.atLineEnd ||
    (after.peek? == some ':' && (scan.inFlow || line == after.line)) ||
    (scan.inFlow && after.peek?.any fun c => c == ',' || c == ']' || c == '\x7d')

/-- Takes a quoted scalar. A colon may follow without a blank in a flow collection. -/
def quotedScalar? (scan : Scan) (single : Bool) : Option Scan := do
  let scan := { scan.noteKey with keyAllowed := false }
  let (text, closed) ← quoted? single scan.inFlow scan.indent scan.cursor
  let after ← closed.skipToLineEnd?
  if !scan.closesQuoted scan.cursor.line after then none
  let read := (scan.moveTo after).push (.scalar .quoted text)
  let next ← skipGap? (after.left + 1) read
  some { next with adjacentAt := some next.cursor.left }

/-- Takes a plain scalar. Inside a block collection its first line may not be indented less than the
others. A comment cuts it off. -/
def plainScalar? (scan : Scan) : Option Scan := do
  let scan := { scan.noteKey with keyAllowed := false }.dropInlineLevels
  let indent := scan.indent + 1
  if scan.inFlow && (scan.cursor.column : Int) < indent then none
  let (text, broken, after) ← plain? scan.inFlow indent scan.cursor
  let isCutOff := !scan.inFlow && !broken && after.peek? = some '#'
  let read := { scan with
    cursor := after
    freshLine := broken
    keyAllowed := broken
    cutOffAt := if isCutOff then some after.line else none }
  some (read.push (.scalar .plain text))

/-! ## The whole text -/

/-- Takes the token that starts with a character. -/
def token? (scan : Scan) (c : Char) : Option Scan :=
  let next? := scan.cursor.peekAt? 1
  let alone := endsWord next?
  if c = '[' then scan.openBracket? .flowSequenceStart
  else if c = '\x7b' then scan.openBracket? .flowMappingStart
  else if c = ']' then scan.closeBracket? .flowSequenceEnd
  else if c = '\x7d' then scan.closeBracket? .flowMappingEnd
  else if c = ',' then scan.flowEntry?
  else if c = '-' && alone then scan.blockEntry?
  else if c = '?' && alone then scan.explicitKey?
  else if c = ':' && alone then scan.value?
  else if c = ':' && scan.inFlow && scan.adjacentAt = some scan.cursor.left then scan.value?
  else if c = ':' && scan.inFlow && next?.any isFlow then
    if next? = some '[' || next? = some '\x7b' then none else scan.value?
  else if c = '*' then scan.name? .aliasOf false
  else if c = '&' then scan.name? .anchor true
  else if c = '!' then scan.tag?
  else if c = '|' && !scan.inFlow then scan.blockScalar? true
  else if c = '>' && !scan.inFlow then scan.blockScalar? false
  else if c = '\'' then scan.quotedScalar? true
  else if c = '"' then scan.quotedScalar? false
  else if c = '%' || c = '@' || c = '\x60' then none
  else scan.plainScalar?

/-- Ends the block collections that are still open. Flow collections and keys cannot be. -/
def finish? (scan : Scan) : Option Scan :=
  if scan.inFlow || scan.possibleKeys.any (fun key? => key?.any (·.required)) then none
  else some (scan.unindent (-1))

/-- Whether a plain scalar that a comment has cut off would go on here: on the next line, indented
more than the collection around it, and with neither a document marker nor a colon that stands alone. -/
def resumesCutOff (scan : Scan) : Bool :=
  scan.cutOffAt.any fun line =>
    !scan.inFlow && scan.cursor.line == line + 1 && scan.indent < (scan.cursor.column : Int) &&
      !scan.cursor.atEnd && !scan.cursor.atThree '-' && !scan.cursor.atThree '.' &&
      !(scan.cursor.peek? == some ':' && endsWord (scan.cursor.peekAt? 1))

/-- Takes the next token, or finds that the text ends. Only closing brackets and commas may be
indented less than the collection around them. -/
def next? (scan : Scan) : Option (Scan × Bool) := do
  let scan ← skipGap? (scan.cursor.left + 1) scan
  if scan.resumesCutOff then none
  let scan ← { scan with cutOffAt := none }.dropStaleKeys?
  let scan := scan.unindent scan.cursor.column
  match scan.cursor.peek? with
  | none => do pure (← scan.finish?, true)
  | some c =>
    let separates := scan.inFlow && (c == ']' || c == '\x7d' || c == ',')
    let taken ←
      if c = '%' && scan.cursor.column == 0 then scan.directive?
      else if scan.cursor.atMarker '-' then scan.documentMarker? .documentStart
      else if scan.cursor.atMarker '.' then scan.documentMarker? .documentEnd
      else if (scan.cursor.column : Int) < scan.indent && !separates then none
      else scan.token? c
    pure (taken, false)

/-- The tokens in front of which no key can be put any more, and that the text is invalid after
them. -/
def certain (scan : Scan) : List Token :=
  let possible := scan.possibleKeys.filterMap fun key? =>
    key?.filter fun key => scan.inFlow || !isStale scan.cursor key
  let settled := possible.foldl (fun count key => min count key.position) scan.count
  (Token.invalid :: scan.tokens.drop (scan.count - settled)).reverse

/-- The tokens of the rest of the text. -/
def run : Nat → Scan → List Token
  | 0, scan => scan.certain
  | fuel + 1, scan =>
    match scan.next? with
    | none => scan.certain
    | some (after, true) => after.tokens.reverse
    | some (after, false) => run fuel after

end Scan

/-- The tokens of a text. Every token but those at its end takes at least one character. -/
def Token.ofText (text : List Char) : List Token := Scan.run (text.length + 2) (.start text)

end TreeMatch.Yaml
