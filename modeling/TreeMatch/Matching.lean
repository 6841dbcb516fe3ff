import TreeMatch.Pattern

/-!
# Matching

A match walks through pattern and candidate together, with the captures bound so far. It stops at
the first position that fails and then gives nothing, whatever was captured before. A predicate that
matches a pattern of its own starts with no captures; what it binds is merged afterwards, the later
binding of a name taking the place of the earlier one.
-/

namespace TreeMatch

/-- Merges captures into those held, and reports the names that are bound again. -/
def Captures.mergeLogged (held found : Captures) : Logged Captures := do
  Logged.reportAll ((held.overwritten found).map .captureOverwritten)
  pure (held.merge found)

/-- Merges what a predicate has captured, or reports that it rejects its candidate. -/
def Verdict.apply (label : String) (held : Captures) : Verdict → Logged (Option Captures)
  | .reject => .fail (.predicateRejected label)
  | .accept => pure (some held)
  | .capture found => some <$> held.mergeLogged found

/-- Binds the candidate itself beneath what was captured inside it. -/
def Verdict.beneath (name : String) (candidate : Node) : Verdict → Logged Verdict
  | .reject => pure .reject
  | .accept => pure (.capture (.single name candidate))
  | .capture found => .capture <$> (Captures.single name candidate).mergeLogged found

mutual

/-- The captures after a pattern has matched the candidate, from those held before. -/
def Pattern.walk (candidate : Node) (held : Captures) : Pattern → Logged (Option Captures)
  | .literal expected =>
    if candidate.contains expected then pure (some held) else .fail (.literalMismatch expected)
  | .mapping entries =>
    match candidate.fields? with
    | none => .fail .mappingOnOther
    | some fields => Pattern.walkEntries fields held entries
  | .sequence items =>
    match candidate.items? with
    | none => .fail .sequenceOnOther
    | some elements =>
      if elements.length < items.length then
        .fail (.sequenceTooShort items.length elements.length)
      else Pattern.walkItems elements held items
  | .predicate predicate => do
    let verdict ← Predicate.call candidate predicate
    verdict.apply predicate.label held

/-- The captures after the entries have matched the values of their keys, one after the other. -/
def Pattern.walkEntries (fields : List (String × Node)) (held : Captures) :
    List (String × Pattern) → Logged (Option Captures)
  | [] => pure (some held)
  | (key, entry) :: rest =>
    match fields.lookup key with
    | none => .fail (.mappingKeyMissing key)
    | some value => do
      match ← Pattern.walk value held entry with
      | none => pure none
      | some found => Pattern.walkEntries fields found rest

/-- The captures after the items have matched the elements at their index, one after the other. -/
def Pattern.walkItems (elements : List Node) (held : Captures) :
    List Pattern → Logged (Option Captures)
  | [] => pure (some held)
  | item :: rest =>
    match elements with
    | [] => pure (some held)
    | element :: others => do
      match ← Pattern.walk element held item with
      | none => pure none
      | some found => Pattern.walkItems others found rest

/-- The verdict of a predicate. -/
def Predicate.call (candidate : Node) : Predicate → Logged Verdict
  | .mk _ action => Action.judge candidate action

/-- The verdict of an action. A predicate inside an extraction gives its verdict directly. -/
def Action.judge (candidate : Node) : Action → Logged Verdict
  | .check judge => judge candidate
  | .adapt pattern => Verdict.ofOption <$> Pattern.walk candidate .empty pattern
  | .extract name => pure (.capture (.single name candidate))
  | .extractWith name (.predicate predicate) => do
    let verdict ← Predicate.call candidate predicate
    verdict.beneath name candidate
  | .extractWith name pattern => do
    let captures ← Pattern.walk candidate .empty pattern
    (Verdict.ofOption captures).beneath name candidate
  | .exact items =>
    match candidate.items? with
    | none => do
      Logged.report .exactOnOther
      pure .reject
    | some elements =>
      if elements.length = items.length then
        Verdict.ofOption <$> Pattern.walkItems elements .empty items
      else do
        Logged.report (.lengthMismatch items.length elements.length)
        pure .reject

end

/-- Matches a pattern against a tree, with the log of the match. -/
def Pattern.run (pattern : Pattern) (candidate : Node) : Logged (Option Captures) :=
  pattern.walk candidate .empty

/-- The captures of a match, `none` if the pattern does not match. -/
def Pattern.match? (pattern : Pattern) (candidate : Node) : Option Captures :=
  (pattern.run candidate).value

/-- The verdict of a predicate on a tree, with its log. -/
def Predicate.run (predicate : Predicate) (candidate : Node) : Logged Verdict :=
  predicate.call candidate

/-- The captures of a matching candidate, `none` if the predicate rejects it. -/
def Predicate.match? (predicate : Predicate) (candidate : Node) : Option Captures :=
  (predicate.run candidate).value.captures?

/-- A predicate that notes each call under a tag and then leaves the verdict to another. -/
def Predicate.spied (tag : Node) (inner : Predicate) : Predicate :=
  .check fun candidate => do
    Logged.noteCall tag candidate
    inner.run candidate

end TreeMatch
