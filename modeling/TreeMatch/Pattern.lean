import TreeMatch.Captures
import TreeMatch.Logged

/-!
# Patterns

A pattern is matched against a tree position by position. A literal asks for containment, a mapping
for the listed keys and a sequence for a prefix of elements. A predicate takes over at its position
and answers with a verdict, which may capture sub-trees.
-/

namespace TreeMatch

/-- What a predicate says of a candidate. -/
inductive Verdict where
  | reject
  | accept
  | capture (captures : Captures)

namespace Verdict

/-- Accepts if the condition holds. -/
def ofBool (matched : Bool) : Verdict := if matched then accept else reject

/-- Captures what a match has captured, and rejects if there was none. -/
def ofOption : Option Captures → Verdict
  | none => reject
  | some captures => capture captures

/-- Whether the candidate matches. -/
def isMatch : Verdict → Bool
  | reject => false
  | _ => true

/-- The captures of a matching candidate; an acceptance has none. -/
def captures? : Verdict → Option Captures
  | reject => none
  | accept => some .empty
  | capture captures => some captures

/-- Whether two verdicts are the same answer. -/
def same : Verdict → Verdict → Bool
  | reject, reject => true
  | accept, accept => true
  | capture a, capture b => a.same b
  | _, _ => false

end Verdict

mutual

/-- What is asked of a candidate. -/
inductive Pattern where
  /-- The value is contained in the candidate. -/
  | literal (value : Node)
  /-- The candidate is an object with every listed key, whose value matches; keys may repeat. -/
  | mapping (entries : List (String × Pattern))
  /-- The candidate is an array whose first elements match. -/
  | sequence (items : List Pattern)
  /-- The predicate does not reject the candidate. -/
  | predicate (predicate : Predicate)

/-- A test with the label under which it is reported. -/
inductive Predicate where
  | mk (label : String) (action : Action)

/-- How a predicate comes to its verdict. -/
inductive Action where
  /-- By a function of the candidate. -/
  | check (judge : Node → Logged Verdict)
  /-- By matching a pattern on its own. -/
  | adapt (pattern : Pattern)
  /-- By capturing the candidate. -/
  | extract (name : String)
  /-- By matching a pattern, and capturing the candidate beneath what that captures. -/
  | extractWith (name : String) (pattern : Pattern)
  /-- By matching the elements of an array of exactly as many. -/
  | exact (items : List Pattern)

end

namespace Predicate

/-- The label of a predicate. -/
def label : Predicate → String
  | mk label _ => label

/-- How the predicate comes to its verdict. -/
def action : Predicate → Action
  | mk _ action => action

/-- The same predicate under another label. -/
def withLabel (predicate : Predicate) (label : String) : Predicate := mk label predicate.action

/-- The predicate of a function. -/
def check (judge : Node → Logged Verdict) : Predicate := mk "fn" (.check judge)

/-- The predicate of a condition. -/
def test (condition : Node → Bool) : Predicate :=
  check fun candidate => pure (Verdict.ofBool (condition candidate))

/-- The predicate that gives one verdict on everything. -/
def always (verdict : Verdict) : Predicate := check fun _ => pure verdict

/-- The predicate that matches a pattern. -/
def adapt (pattern : Pattern) : Predicate := mk "as_predicate" (.adapt pattern)

/-- The predicate that captures any candidate under a name. -/
def extract (name : String) : Predicate := mk ("extract_field(" ++ name ++ ")") (.extract name)

/-- The predicate that captures a candidate under a name if a pattern matches it. -/
def extractWith (name : String) (pattern : Pattern) : Predicate :=
  mk ("extract_field_with(" ++ name ++ ")") (.extractWith name pattern)

/-- The predicate that matches arrays with exactly the given elements. -/
def exact (items : List Pattern) : Predicate :=
  mk ("match_length_strict(" ++ toString items.length ++ ")") (.exact items)

end Predicate

namespace Pattern

/-- Whether the pattern is a predicate itself. -/
def isPredicate : Pattern → Bool
  | predicate _ => true
  | _ => false

mutual

/-- Whether a predicate stands anywhere in the pattern. -/
def hasPredicates : Pattern → Bool
  | literal _ => false
  | predicate _ => true
  | mapping entries => hasPredicatesEntries entries
  | sequence items => hasPredicatesItems items

/-- Whether a predicate stands anywhere in one of the patterns. -/
def hasPredicatesItems : List Pattern → Bool
  | [] => false
  | item :: rest => hasPredicates item || hasPredicatesItems rest

/-- Whether a predicate stands anywhere in the pattern of an entry. -/
def hasPredicatesEntries : List (String × Pattern) → Bool
  | [] => false
  | (_, entry) :: rest => hasPredicates entry || hasPredicatesEntries rest

end

end Pattern

end TreeMatch
