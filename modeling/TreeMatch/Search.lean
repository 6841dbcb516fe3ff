import TreeMatch.Matching
import TreeMatch.Pointer

/-!
# Search

A search visits every sub-tree of a tree, a tree before its parts, fields in the order of their keys and
elements in the order of their indices, and tries a pattern on each. Every attempt starts without captures.
What is done with a match is up to the search, and may end the visit: a search for all matches keeps each,
and a search for the first one stops at it.
-/

namespace TreeMatch

/-- A sub-tree that matches. -/
structure Found where
  /-- The pointer of the sub-tree. -/
  path : String
  captures : Captures

namespace Found

/-- The report of a match: its path, then its captures. -/
def toNode (found : Found) : Node :=
  .object [("path", .string found.path), ("captures", found.captures.toNode)]

/-- Keeps a match behind those before it, and goes on. -/
def keep (found : Found) : StateT (List Found) Logged Unit := modify (· ++ [found])

/-- Stops at a match. -/
def stop (found : Found) : ExceptT Found Logged Unit := throw found

/-- The match at which a visit has stopped, if it has. -/
def stopped? : Except Found Unit → Option Found
  | .error found => some found
  | .ok () => none

end Found

namespace Pattern

section

variable {m : Type → Type} [Monad m] [MonadLiftT Logged m] (pattern : Pattern) (onMatch : Found → m Unit)

/-- Tries the pattern on the tree at a path, without its parts. -/
def attempt (path : String) (node : Node) : m Unit := do
  match ← pattern.run node with
  | some captures => onMatch ⟨path, captures⟩
  | none => pure ()

mutual

/-- Visits the tree at a path and then its parts. -/
def visit (path : String) (node : Node) : m Unit := do
  attempt pattern onMatch path node
  match node with
  | .object fields => visitFields path fields
  | .array items => visitItems path 0 items
  | .null | .bool _ | .number _ | .string _ => pure ()

/-- Visits the values of fields of the tree at a path. -/
def visitFields (path : String) : List (String × Node) → m Unit
  | [] => pure ()
  | (key, value) :: rest => do
    visit (Pointer.push path key) value
    visitFields path rest

/-- Visits the elements of the tree at a path, from an index on. -/
def visitItems (path : String) (index : Nat) : List Node → m Unit
  | [] => pure ()
  | item :: rest => do
    visit (Pointer.push path (Pointer.indexStep index)) item
    visitItems path (index + 1) rest

end

end

/-- Every sub-tree that matches. -/
def findAll (pattern : Pattern) (root : Node) : Logged (List Found) := do
  let ((), found) ← (pattern.visit Found.keep "" root).run []
  Logged.report (.searchFinished found.length)
  pure found

/-- The first sub-tree that matches. -/
def findFirst (pattern : Pattern) (root : Node) : Logged (Option Found) :=
  Found.stopped? <$> (pattern.visit Found.stop "" root).run

end Pattern

end TreeMatch
