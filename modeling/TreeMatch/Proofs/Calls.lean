import Mathlib.Data.List.Basic
import TreeMatch.Proofs.Course

/-!
# Order of calls

Leaf predicates that note their calls are called in the order in which the pattern lists them, each once
and on the part of the candidate at its place, up to the first stop that fails (`calls_inOrder`). Nothing
behind that stop is called, and so nothing below a missing key or in an array of the wrong length.
-/

namespace TreeMatch

/-! ## Calls in a log -/

/-- The call that a line of a log notes. -/
def LogEntry.call? : LogEntry → Option (Node × Node)
  | .event _ => none
  | .call tag candidate => some (tag, candidate)

theorem Logged.calls_eq {α : Type} (logged : Logged α) : logged.calls = logged.log.filterMap LogEntry.call? :=
  List.filterMap_congr fun entry _ => by cases entry <;> rfl

theorem calls_essential (log : List LogEntry) :
    (essential log).filterMap LogEntry.call? = log.filterMap LogEntry.call? := by
  rw [essential, List.filterMap_filter]
  refine List.filterMap_congr fun entry _ => ?_
  cases entry with
  | call tag candidate => rfl
  | event event => simp [LogEntry.call?]

theorem calls_report (stop : Stop) (node : Node) : (stop.report node).filterMap LogEntry.call? = [] := by
  rw [List.filterMap_eq_nil_iff]
  intro entry member
  rcases List.mem_append.1 member with said | rejected
  · obtain ⟨event, -, rfl⟩ := List.mem_map.1 said
    rfl
  · obtain ⟨label, -, rfl⟩ := List.mem_map.1 rejected
    rfl

theorem Shows.calls {root : Node} {stops : List Stop} {log : List LogEntry} (shown : Shows root stops log) :
    log.filterMap LogEntry.call? = stops.flatMap fun stop => (stop.log root).filterMap LogEntry.call? := by
  rw [← calls_essential, shown, calls_essential, List.filterMap_flatMap]

/-! ## Calls of leaves -/

/-- The predicate notes each call under its tag, and no other. Without a tag it notes none. -/
def Predicate.Notes (tag : Predicate → Option Node) (test : Predicate) : Prop :=
  ∀ node, (test.run node).calls = (tag test).toList.map fun name => (name, node)

/-- A list of calls is that of some leaf predicates, one after the other, each on the part at its place. -/
def Calls (tag : Predicate → Option Node) (root : Node) (leaves : List (List Step × Predicate))
    (calls : List (Node × Node)) : Prop :=
  calls.map (fun call => (call.1, some call.2)) =
    leaves.filterMap fun leaf => (tag leaf.2).map fun name => (name, root.at? leaf.1)

/-- The tags of leaf predicates. -/
def tags (tag : Predicate → Option Node) (leaves : List (List Step × Predicate)) : List Node :=
  leaves.filterMap fun leaf => tag leaf.2

theorem Calls.tags {tag : Predicate → Option Node} {root : Node} {leaves : List (List Step × Predicate)}
    {calls : List (Node × Node)} (called : Calls tag root leaves calls) :
    calls.map Prod.fst = tags tag leaves := by
  have firsts := congrArg (List.map Prod.fst) called
  rw [List.map_map, List.map_filterMap] at firsts
  simpa [Function.comp_def, TreeMatch.tags] using firsts

section Stops

variable {tag : Predicate → Option Node} {root : Node} {stops : List Stop} {log : List LogEntry}

/-- A stop with a part to ask notes the call of its leaf predicate, if it has one. -/
theorem calls_stop {stop : Stop} {node : Node} (faces : root.at? stop.place = some node)
    (notes : ∀ leaf, stop.leaf? = some leaf → leaf.2.Notes tag) :
    ((stop.log root).filterMap LogEntry.call?).map (fun call => (call.1, some call.2)) =
      ((stop.leaf?).bind fun leaf => (tag leaf.2).map fun name => (name, root.at? leaf.1)).toList := by
  obtain ⟨place, demand, around⟩ := stop
  have same : Stop.log root ⟨place, demand, around⟩ = demand.log node := by
    rw [Stop.log, faces]
  rw [same]
  cases demand with
  | leaf test =>
    have noted := notes (place, test) rfl node
    rw [Logged.calls_eq] at noted
    simp only [Demand.log, noted, Stop.leaf?, Option.bind_some, faces]
    cases tag test <;> rfl
  | _ => rfl

theorem Shows.called (shown : Shows root stops log) (faces : ∀ stop ∈ stops, ∃ node, root.at? stop.place = some node)
    (notes : ∀ leaf ∈ stops.filterMap Stop.leaf?, leaf.2.Notes tag) :
    Calls tag root (stops.filterMap Stop.leaf?) (log.filterMap LogEntry.call?) := by
  rw [Calls, shown.calls, List.map_flatMap, List.filterMap_filterMap, List.filterMap_eq_flatMap_toList]
  refine List.flatMap_congr fun stop member => ?_
  obtain ⟨node, part⟩ := faces stop member
  exact calls_stop part fun leaf listed => notes leaf (List.mem_filterMap.2 ⟨stop, member, listed⟩)

end Stops

/-! ## Calls of a match -/

/-- The calls of a match are those of the leaf predicates in the order of the pattern. -/
structure InOrder (tag : Predicate → Option Node) (pattern : Pattern) (candidate : Node)
    (calls : List (Node × Node)) : Prop where
  /-- A match that succeeds passes all stops and calls every leaf predicate. -/
  success : ∀ captures, pattern.match? candidate = some captures →
    (∀ stop ∈ pattern.stops, stop.Passes candidate) ∧ Calls tag candidate pattern.leaves calls
  /-- A match that fails calls the leaf predicates up to the first stop that fails. -/
  failure : pattern.match? candidate = none → ∃ before stop node,
    FirstFailure candidate pattern.stops before stop node ∧
      Calls tag candidate ((before ++ [stop]).filterMap Stop.leaf?) calls
  listed : calls.map Prod.fst <+: tags tag pattern.leaves
  /-- No leaf predicate behind a stop that fails is called. -/
  silence : ∀ before stop after, pattern.stops = before ++ stop :: after → ¬ stop.Passes candidate →
    calls.map Prod.fst <+: tags tag ((before ++ [stop]).filterMap Stop.leaf?)

/-- A match calls the leaf predicates of its pattern in order, as long as they note their calls. -/
theorem calls_inOrder (tag : Predicate → Option Node) (pattern : Pattern) (candidate : Node)
    (notes : ∀ leaf ∈ pattern.leaves, leaf.2.Notes tag) :
    InOrder tag pattern candidate (pattern.run candidate).calls := by
  have explains := explains_run pattern candidate
  rw [Logged.calls_eq]
  cases result : pattern.match? candidate with
  | some captures =>
    rw [result] at explains
    obtain ⟨passed, shown⟩ := explains
    have faces : ∀ stop ∈ pattern.stops, ∃ node, candidate.at? stop.place = some node :=
      fun stop member => (passed stop member).imp fun _ passes => passes.1
    have called : Calls tag candidate pattern.leaves _ := shown.called faces notes
    refine ⟨fun _ _ => ⟨passed, called⟩, ?_, called.tags ▸ List.prefix_rfl, ?_⟩
    · intro failed
      rw [result] at failed
      cases failed
    · intro before stop after split fails
      refine absurd (passed stop ?_) fails
      rw [split]
      exact List.mem_append_right before List.mem_cons_self
  | none =>
    rw [result] at explains
    obtain ⟨before, stop, node, log, failure, shown, same⟩ := explains
    have noted : (pattern.run candidate).log.filterMap LogEntry.call? = log.filterMap LogEntry.call? := by
      rw [same, List.filterMap_append, calls_report, List.append_nil]
    have reached : (before ++ [stop]).filterMap Stop.leaf? <+: pattern.leaves := failure.reached.filterMap Stop.leaf?
    have called : Calls tag candidate ((before ++ [stop]).filterMap Stop.leaf?) (log.filterMap LogEntry.call?) :=
      shown.called failure.faced fun leaf listed => notes leaf (reached.subset listed)
    rw [noted]
    refine ⟨?_, fun _ => ⟨before, stop, node, failure, called⟩, ?_, ?_⟩
    · intro captures matched
      rw [result] at matched
      cases matched
    · rw [called.tags]
      exact reached.filterMap _
    · intro earlier other after split fails
      rw [called.tags]
      exact ((failure.upTo split fails).filterMap Stop.leaf?).filterMap _

/-- Leaf predicates inside an exact array and inside the match of an extraction are called. The leaf
predicate of a missing key is not, and the bare extraction notes nothing. -/
theorem calls_inOrder_missingKey :
    let noting := fun label => (Predicate.spied (.string label) (.always .accept)).withLabel label
    let tag : Predicate → Option Node := fun
      | .mk label (.check _) => some (.string label)
      | _ => none
    let pattern := Pattern.mapping [
      ("a", .predicate (.exact [.predicate (noting "first"), .literal .null])),
      ("b", .predicate (.extractWith "whole" (.sequence [
        .predicate (.extract "part"), .predicate (.adapt (.predicate (noting "second")))]))),
      ("c", .predicate (noting "third"))]
    let candidate := Node.object [
      ("a", .array [.bool true, .null]), ("b", .array [.null, .bool false, .null])]
    (∀ leaf ∈ pattern.leaves, leaf.2.Notes tag) ∧
      (pattern.run candidate).calls = [(.string "first", .bool true), (.string "second", .bool false)] ∧
      InOrder tag pattern candidate (pattern.run candidate).calls := by
  intro noting tag pattern candidate
  have leaves : pattern.leaves = [
      ([.key "a", .index 0], noting "first"), ([.key "b", .index 0], .extract "part"),
      ([.key "b", .index 1], noting "second"), ([.key "c"], noting "third")] := rfl
  have notes : ∀ leaf ∈ pattern.leaves, leaf.2.Notes tag := by
    rw [leaves]
    simp only [List.forall_mem_cons]
    exact ⟨fun _ => rfl, fun _ => rfl, fun _ => rfl, fun _ => rfl, nofun⟩
  exact ⟨notes, rfl, calls_inOrder tag pattern candidate notes⟩

end TreeMatch
