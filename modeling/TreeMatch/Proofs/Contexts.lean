import TreeMatch.Proofs.Matching

/-!
# Patterns in contexts

A context is a pattern with a hole at some depth. What fills the hole counts only by the captures that
it gives on each candidate (`match?_plug_congr`), so a pattern can be replaced by the predicate that
matches it wherever it stands (`match?_adapted`): the captures that the predicate collects on its own
are merged afterwards into the same ones.
-/

namespace TreeMatch

/-- A pattern with a hole. The predicates around the hole may have any labels. -/
inductive Context where
  | hole
  | entry (before : List (String × Pattern)) (key : String) (inner : Context)
      (after : List (String × Pattern))
  | item (before : List Pattern) (inner : Context) (after : List Pattern)
  | exactItem (label : String) (before : List Pattern) (inner : Context) (after : List Pattern)
  | matcher (label name : String) (inner : Context)
  | adapted (label : String) (inner : Context)

/-- The pattern that a context becomes when its hole is filled. -/
def Context.plug (filling : Pattern) : Context → Pattern
  | hole => filling
  | entry before key inner after => .mapping (before ++ (key, inner.plug filling) :: after)
  | item before inner after => .sequence (before ++ inner.plug filling :: after)
  | exactItem label before inner after =>
    .predicate ((Predicate.exact (before ++ inner.plug filling :: after)).withLabel label)
  | matcher label name inner =>
    .predicate ((Predicate.extractWith name (inner.plug filling)).withLabel label)
  | adapted label inner => .predicate ((Predicate.adapt (inner.plug filling)).withLabel label)

theorem Predicate.match?_withLabel (test : Predicate) (label : String) (candidate : Node) :
    (test.withLabel label).match? candidate = test.match? candidate := by
  cases test
  rw [match?, match?, run, run, withLabel, action, call, call]

namespace Pattern

/-- Two patterns that capture the same on every candidate. -/
def Agree (a b : Pattern) : Prop := ∀ candidate, a.match? candidate = b.match? candidate

variable {a b : Pattern}

theorem matchEntries?_congr (agree : Agree a b) (fields : List (String × Node))
    (before : List (String × Pattern)) (key : String) (after : List (String × Pattern)) :
    matchEntries? fields (before ++ (key, a) :: after) =
      matchEntries? fields (before ++ (key, b) :: after) := by
  induction before with
  | nil => simp only [List.nil_append, matchEntries?_cons, agree _]
  | cons listed rest ih =>
    obtain ⟨name, entry⟩ := listed
    simp only [List.cons_append, matchEntries?_cons, ih]

theorem matchItems?_congr (agree : Agree a b) (elements : List Node) (before after : List Pattern) :
    matchItems? elements (before ++ a :: after) = matchItems? elements (before ++ b :: after) := by
  induction before generalizing elements with
  | nil =>
    cases elements with
    | nil => rfl
    | cons element others => simp only [List.nil_append, matchItems?_cons, agree _]
  | cons item rest ih =>
    cases elements with
    | nil => rfl
    | cons element others => simp only [List.cons_append, matchItems?_cons, ih]

theorem agree_adapt (pattern : Pattern) : Agree pattern (predicate (.adapt pattern)) := by
  intro candidate
  rw [match?_predicate, Predicate.match?_adapt]

/-- Patterns that agree can stand for each other in every context. -/
theorem match?_plug_congr (agree : Agree a b) (context : Context) : Agree (context.plug a) (context.plug b) := by
  intro candidate
  induction context generalizing candidate with
  | hole => exact agree candidate
  | entry before key inner after ih =>
    simp only [Context.plug, match?_mapping, matchEntries?_congr ih]
  | item before inner after ih =>
    simp only [Context.plug, match?_sequence, matchItems?_congr ih, List.length_append, List.length_cons]
  | exactItem label before inner after ih =>
    simp only [Context.plug, match?_predicate, Predicate.match?_withLabel, Predicate.match?_exact,
      matchItems?_congr ih, List.length_append, List.length_cons]
  | matcher label name inner ih =>
    -- A filling that is a predicate itself is called directly; its captures are the same.
    simp only [Context.plug, match?_predicate, Predicate.match?_withLabel, Predicate.match?_extractWith, ih]
  | adapted label inner ih =>
    simp only [Context.plug, match?_predicate, Predicate.match?_withLabel, Predicate.match?_adapt, ih]

end Pattern

/-- A pattern may be replaced by the predicate that matches it in every context. The predicate captures
what the pattern does, and every predicate captures what the pattern does that consists of it. -/
theorem match?_adapted :
    (∀ (context : Context) (pattern : Pattern) (candidate : Node),
      (context.plug pattern).match? candidate =
        (context.plug (.predicate (.adapt pattern))).match? candidate) ∧
    (∀ (pattern : Pattern) (candidate : Node),
      pattern.match? candidate = (Predicate.adapt pattern).match? candidate) ∧
    ∀ (test : Predicate) (candidate : Node),
      test.match? candidate = (Pattern.predicate test).match? candidate := by
  refine ⟨?_, ?_, ?_⟩
  · intro context pattern candidate
    exact Pattern.match?_plug_congr pattern.agree_adapt context candidate
  · intro pattern candidate
    exact (Predicate.match?_adapt pattern candidate).symm
  · intro test candidate
    exact (Pattern.match?_predicate test candidate).symm

/-- The verdicts on a candidate may differ where the captures do not: an adapted acceptance captures. -/
example : ((Predicate.always .accept).run .null).value = .accept ∧
    ((Predicate.adapt (.predicate (.always .accept))).run .null).value = .capture .empty :=
  ⟨rfl, rfl⟩

end TreeMatch
