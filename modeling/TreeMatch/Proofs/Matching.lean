import TreeMatch.Matching
import TreeMatch.Proofs.Captures

/-!
# What a match gives

A walk threads the captures held so far. `Pattern.walk_value` takes them out: a walk from held
captures merges, over them, what the walk captures from none. The equations that follow give
`Pattern.match?` and `Predicate.match?` one constructor at a time, with no captures held, and the
later proofs use these alone.
-/

namespace TreeMatch

namespace Verdict

theorem value_apply (verdict : Verdict) (label : String) (held : Captures) :
    (verdict.apply label held).value = verdict.captures?.map held.merge := by
  cases verdict with
  | reject => rfl
  | accept => rfl
  | capture found => rfl

/-- The candidate is bound first, so what was captured inside it wins. -/
theorem captures?_beneath (verdict : Verdict) (name : String) (candidate : Node) :
    (verdict.beneath name candidate).value.captures? =
      verdict.captures?.map (Captures.single name candidate).merge := by
  cases verdict with
  | reject => rfl
  | accept => rfl
  | capture found => rfl

@[simp] theorem captures?_ofOption (result : Option Captures) : (ofOption result).captures? = result := by
  cases result <;> rfl

end Verdict

namespace Pattern

/-- The captures of entries that match the values of their keys. -/
def matchEntries? (fields : List (String × Node)) (entries : List (String × Pattern)) : Option Captures :=
  (walkEntries fields .empty entries).value

/-- The captures of items that match the elements at their index, as far as there are elements. -/
def matchItems? (elements : List Node) (items : List Pattern) : Option Captures :=
  (walkItems elements .empty items).value

/-- Two steps that each merge over what they are given merge their captures in order. -/
theorem bind_map_merge (held : Captures) (first second : Option Captures) :
    ((first.map held.merge).bind fun found => second.map found.merge) =
      (first.bind fun found => second.map found.merge).map held.merge := by
  cases first with
  | none => rfl
  | some found =>
    cases second with
    | none => rfl
    | some later => simp [Captures.merge_assoc]

theorem map_empty_merge (result : Option Captures) : result.map Captures.empty.merge = result := by
  cases result <;> simp

theorem value_walkEntries_cons (fields : List (String × Node)) (held : Captures) (key : String)
    (entry : Pattern) (rest : List (String × Pattern)) :
    (walkEntries fields held ((key, entry) :: rest)).value =
      (fields.lookup key).bind fun value => (walk value held entry).value.bind fun found =>
        (walkEntries fields found rest).value := by
  rw [walkEntries]
  cases fields.lookup key with
  | none => rfl
  | some value =>
    simp only [Logged.value_bind, Option.bind_some]
    cases (walk value held entry).value <;> rfl

theorem value_walkItems_cons (element : Node) (others : List Node) (held : Captures) (item : Pattern)
    (rest : List Pattern) :
    (walkItems (element :: others) held (item :: rest)).value =
      (walk element held item).value.bind fun found => (walkItems others found rest).value := by
  rw [walkItems]
  simp only [Logged.value_bind]
  cases (walk element held item).value <;> rfl

mutual

/-- A walk merges its captures over those held before. -/
theorem walk_value (candidate : Node) (held : Captures) (pattern : Pattern) :
    (walk candidate held pattern).value = (pattern.match? candidate).map held.merge := by
  match pattern with
  | .literal expected =>
    rw [match?, run, walk, walk]
    split <;> rfl
  | .mapping entries =>
    rw [match?, run, walk, walk]
    cases candidate.fields? with
    | none => rfl
    | some fields => exact walkEntries_value fields held entries
  | .sequence items =>
    rw [match?, run, walk, walk]
    cases candidate.items? with
    | none => rfl
    | some elements =>
      dsimp only
      split
      · rfl
      · exact walkItems_value elements held items
  | .predicate test =>
    rw [match?, run, walk, walk]
    simp only [Logged.value_bind, Verdict.value_apply, map_empty_merge]

/-- Entries merge their captures over those held before. -/
theorem walkEntries_value (fields : List (String × Node)) (held : Captures)
    (entries : List (String × Pattern)) :
    (walkEntries fields held entries).value = (matchEntries? fields entries).map held.merge := by
  match entries with
  | [] => rfl
  | (key, entry) :: rest =>
    rw [matchEntries?, value_walkEntries_cons, value_walkEntries_cons]
    cases fields.lookup key with
    | none => rfl
    | some value =>
      simp only [Option.bind_some, walk_value value _ entry, walkEntries_value fields _ rest,
        map_empty_merge, bind_map_merge]

/-- Items merge their captures over those held before. -/
theorem walkItems_value (elements : List Node) (held : Captures) (items : List Pattern) :
    (walkItems elements held items).value = (matchItems? elements items).map held.merge := by
  match items, elements with
  | [], _ => rfl
  | _ :: _, [] => rfl
  | item :: rest, element :: others =>
    rw [matchItems?, value_walkItems_cons, value_walkItems_cons]
    simp only [walk_value element _ item, walkItems_value others _ rest, map_empty_merge, bind_map_merge]

end

/-! ## Patterns -/

theorem match?_literal (expected candidate : Node) :
    (literal expected).match? candidate = if candidate.contains expected then some .empty else none := by
  rw [match?, run, walk]
  split <;> rfl

theorem match?_mapping (entries : List (String × Pattern)) (candidate : Node) :
    (mapping entries).match? candidate =
      candidate.fields?.bind fun fields => matchEntries? fields entries := by
  rw [match?, run, walk]
  cases candidate.fields? <;> rfl

theorem match?_sequence (items : List Pattern) (candidate : Node) :
    (sequence items).match? candidate = candidate.items?.bind fun elements =>
      if elements.length < items.length then none else matchItems? elements items := by
  rw [match?, run, walk]
  cases candidate.items? with
  | none => rfl
  | some elements =>
    simp only [Option.bind_some]
    split <;> rfl

theorem match?_predicate (test : Predicate) (candidate : Node) :
    (predicate test).match? candidate = test.match? candidate := by
  rw [match?, run, walk, Logged.value_bind, Verdict.value_apply, map_empty_merge]
  rfl

@[simp] theorem matchEntries?_nil (fields : List (String × Node)) :
    matchEntries? fields [] = some .empty := rfl

theorem matchEntries?_cons (fields : List (String × Node)) (key : String) (entry : Pattern)
    (rest : List (String × Pattern)) :
    matchEntries? fields ((key, entry) :: rest) =
      (fields.lookup key).bind fun value => (entry.match? value).bind fun found =>
        (matchEntries? fields rest).map found.merge := by
  rw [matchEntries?, value_walkEntries_cons]
  simp only [walk_value, walkEntries_value, map_empty_merge]

@[simp] theorem matchItems?_nil (elements : List Node) : matchItems? elements [] = some .empty := by
  cases elements <;> rfl

theorem matchItems?_cons (element : Node) (others : List Node) (item : Pattern) (rest : List Pattern) :
    matchItems? (element :: others) (item :: rest) =
      (item.match? element).bind fun found => (matchItems? others rest).map found.merge := by
  rw [matchItems?, value_walkItems_cons]
  simp only [walk_value, walkItems_value, map_empty_merge]

end Pattern

/-! ## Predicates -/

namespace Predicate

theorem match?_adapt (pattern : Pattern) (candidate : Node) :
    (adapt pattern).match? candidate = pattern.match? candidate := by
  rw [match?, run, adapt, call, Action.judge, Logged.value_map, Verdict.captures?_ofOption]
  rfl

theorem match?_extract (name : String) (candidate : Node) :
    (extract name).match? candidate = some (.single name candidate) := rfl

/-- A matcher that is a predicate itself is called directly, with the same captures. -/
theorem match?_extractWith (name : String) (pattern : Pattern) (candidate : Node) :
    (extractWith name pattern).match? candidate =
      (pattern.match? candidate).map (Captures.single name candidate).merge := by
  rw [match?, run, extractWith, call]
  cases pattern with
  | predicate test =>
    rw [Action.judge, Logged.value_bind, Verdict.captures?_beneath, Pattern.match?_predicate]
    rfl
  | _ =>
    rw [Action.judge, Logged.value_bind, Verdict.captures?_beneath, Verdict.captures?_ofOption]
    · rfl
    · simp

theorem match?_exact (items : List Pattern) (candidate : Node) :
    (exact items).match? candidate = candidate.items?.bind fun elements =>
      if elements.length = items.length then Pattern.matchItems? elements items else none := by
  rw [match?, run, exact, call, Action.judge]
  cases candidate.items? with
  | none => rfl
  | some elements =>
    simp only [Option.bind_some]
    split
    · rw [Logged.value_map, Verdict.captures?_ofOption]
      rfl
    · rfl

end Predicate

end TreeMatch
