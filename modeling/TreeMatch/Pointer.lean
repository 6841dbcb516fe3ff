/-!
# Pointers

A place in a tree is the list of steps from the root to it: the key of a field, or the index of an
element in decimal. A pointer is the text of such a list, each step after a slash. Inside a step `~`
is written `~0` and `/` is written `~1`, so a slash always starts a step.
-/

namespace TreeMatch.Pointer

/-- A character of a step as it is written in a pointer. -/
def escapeChar (c : Char) : List Char :=
  if c = '~' then ['~', '0'] else if c = '/' then ['~', '1'] else [c]

/-- A step as it is written in a pointer. -/
def escape (step : String) : String := String.ofList (step.toList.flatMap escapeChar)

/-- The pointer one step further. -/
def push (pointer step : String) : String := pointer ++ "/" ++ escape step

/-- The pointer of a place; that of the root is empty. -/
def ofSteps (steps : List String) : String := steps.foldl push ""

/-- The step to an element. -/
def indexStep (index : Nat) : String := toString index

end TreeMatch.Pointer
