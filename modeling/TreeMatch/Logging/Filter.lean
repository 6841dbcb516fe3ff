import TreeMatch.Characters
import TreeMatch.Event

/-!
# Log filters

A filter says which events go into the log: rules that give the parts of the program whose names
start with a text a threshold. Of the rules that apply to an event the one with the longest text
counts, and of two rules with the same text the later. An event to which no rule applies is left out.

A filter is written as rules between commas: `TEXT=LEVEL`, `TEXT` for all events of these parts, or
`LEVEL` for the parts that no other rule covers. White space belongs to the text of a rule. Without
any rule only errors are logged.
-/

namespace TreeMatch

/-- How important an event must be. -/
inductive Threshold where
  | off
  | error
  | warn
  | info
  | debug
  | trace
deriving DecidableEq

namespace Threshold

/-- The thresholds with their names, from the strictest on. -/
def named : List (String × Threshold) :=
  [("off", off), ("error", error), ("warn", warn), ("info", info), ("debug", debug), ("trace", trace)]

/-- The number that decimal digits stand for, with or without a plus. -/
def number? (text : List Char) : Option Nat :=
  let digits := match text with
    | '+' :: rest => rest
    | _ => text
  if digits.isEmpty || !digits.all Char.isDigit then none
  else some (digits.foldl (fun n d => 10 * n + (d.toNat - '0'.toNat)) 0)

/-- The threshold of a name in any case, or of its number, counted from zero for `off`. -/
def ofName? (text : List Char) : Option Threshold :=
  match number? text with
  | some n => (named[n]?).map Prod.snd
  | none => (named.find? fun entry => text.map Char.toLower == entry.1.toList).map Prod.snd

/-- Whether a threshold lets events of a level pass. -/
def passes : Threshold → Level → Bool
  | trace, _ => true
  | debug, .debug | debug, .info => true
  | info, .info => true
  | _, _ => false

end Threshold

/-- A threshold for the parts of the program whose names start with a text. -/
structure LogRule where
  start : String
  threshold : Threshold

namespace LogRule

/-- Whether a rule is about a part of the program. -/
def covers (rule : LogRule) (target : String) : Bool := rule.start.toList.isPrefixOf target.toList

/-- Whether the name of a part of the program can start with a character: a letter or digit, which all
characters beyond ASCII are taken for, or one of three marks. -/
def startsName (c : Char) : Bool := c.isAlphanum || c == '_' || c == '-' || c == ':' || c.toNat ≥ 128

/-- The rule that a text stands for. A rule with a level has no white space around it. -/
def read? (text : String) : Option LogRule :=
  let inner := trimmed text.toList
  let start := inner.takeWhile (· != '=')
  if !start.head?.any startsName then none
  else
    match inner.dropWhile (· != '=') with
    | [] =>
      match Threshold.ofName? text.toList with
      | some threshold => some ⟨"", threshold⟩
      | none => some ⟨text, .trace⟩
    | _ :: level =>
      if inner ≠ text.toList then none
      else if level.isEmpty then some ⟨String.ofList start, .trace⟩
      else (Threshold.ofName? level).map fun threshold => ⟨String.ofList start, threshold⟩

end LogRule

/-- The rules of a filter in the order in which they are given. -/
structure LogFilter where
  rules : List LogRule

namespace LogFilter

/-- The filter of a text; `none` if one of its rules is none. -/
def read? (text : String) : Option LogFilter :=
  match ((text.splitOn ",").filter (· != "")).mapM LogRule.read? with
  | some [] => some ⟨[⟨"", .error⟩]⟩
  | some rules => some ⟨rules⟩
  | none => none

/-- The rule that counts for a part of the program. -/
def ruleFor? (filter : LogFilter) (target : String) : Option LogRule :=
  (filter.rules.filter (·.covers target)).foldl (fun best rule =>
    match best with
    | none => some rule
    | some held => if held.start.length ≤ rule.start.length then some rule else best) none

/-- Whether an event goes into the log. -/
def takes (filter : LogFilter) (event : Event) : Bool :=
  (filter.ruleFor? event.target).any (·.threshold.passes event.level)

end LogFilter

end TreeMatch
