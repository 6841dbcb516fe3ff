import Mathlib.Data.List.Basic
import Mathlib.Data.Set.List
import TreeMatch.Proofs.Course

/-!
# Events of a match

A match reports a failure exactly if it fails (`run_diagnoses`). Before that it reports nothing but that
captures are overwritten. The first failure that is reported says what is wrong at the first stop that
fails; after it the predicates around that stop report their rejections, from the innermost outwards. All
this is so where the leaf predicates report nothing of their own.
-/

namespace TreeMatch

/-- Whether an event says that a part of the candidate does not match. -/
def Event.IsFailure : Event → Prop
  | literalMismatch _ | mappingOnOther | mappingKeyMissing _ | sequenceOnOther | sequenceTooShort _ _
  | predicateRejected _ | lengthMismatch _ _ | exactOnOther => True
  | _ => False

/-- What the failure of a stop is reported by: what is wrong there, or, of a leaf predicate, that it is
rejected where it is applied. The predicates around that are left. -/
inductive Stop.Reports (node : Node) (stop : Stop) : Event → List String → Prop where
  | mismatch {event : Event} (said : stop.demand.mismatch? node = some event) : Reports node stop event stop.around
  | rejection {label : String} {outer : List String} (silent : stop.demand.mismatch? node = none)
      (applied : stop.around = label :: outer) : Reports node stop (.predicateRejected label) outer

/-- Events that are those of a match. -/
def Diagnoses (pattern : Pattern) (candidate : Node) (events : List Event) : Prop :=
  match pattern.match? candidate with
  | some _ => ∃ names : List String, events = names.map .captureOverwritten
  | none => ∃ before stop node, FirstFailure candidate pattern.stops before stop node ∧
      ∃ (names : List String) (first : Event) (outer : List String), stop.Reports node first outer ∧
        first.IsFailure ∧ events = names.map .captureOverwritten ++ first :: outer.map .predicateRejected

/-! ## Events in a log -/

/-- The event that a line of a log reports. -/
def LogEntry.event? : LogEntry → Option Event
  | .event reported => some reported
  | .call .. => none

theorem Logged.events_eq {α : Type} (logged : Logged α) : logged.events = logged.log.filterMap LogEntry.event? :=
  List.filterMap_congr fun entry _ => by cases entry <;> rfl

/-- Where nothing is reported at the stops, only overwritten captures are. -/
theorem Shows.events {root : Node} {stops : List Stop} {log : List LogEntry} (shown : Shows root stops log)
    (silent : ∀ stop ∈ stops, (stop.log root).filterMap LogEntry.event? = []) :
    ∃ names : List String, log.filterMap LogEntry.event? = names.map .captureOverwritten := by
  have overwritten : ∀ event ∈ log.filterMap LogEntry.event?, event ∈ Set.range Event.captureOverwritten := by
    intro event member
    obtain ⟨entry, logged, said⟩ := List.mem_filterMap.1 member
    by_cases kind : entry.isOverwriting = true
    · cases entry with
      | call tag candidate => cases said
      | event reported =>
        cases said
        cases event with
        | captureOverwritten name => exact ⟨name, rfl⟩
        | _ => cases kind
    · -- An essential line would be in the log of a stop.
      have kept : entry ∈ essential log := List.mem_filter.2 ⟨logged, by simpa using kind⟩
      rw [shown] at kept
      obtain ⟨stop, listed, atStop⟩ := List.mem_flatMap.1 (List.mem_filter.1 kept).1
      have none := List.filterMap_eq_nil_iff.1 (silent stop listed) entry atStop
      rw [none] at said
      cases said
  obtain ⟨names, same⟩ := (Set.range_list_map Event.captureOverwritten).ge overwritten
  exact ⟨names, same.symm⟩

theorem events_stop {pattern : Pattern} {candidate : Node}
    (silent : ∀ leaf ∈ pattern.leaves, ∀ node, (leaf.2.run node).events = []) {stop : Stop}
    (listed : stop ∈ pattern.stops) : (stop.log candidate).filterMap LogEntry.event? = [] := by
  obtain ⟨place, demand, around⟩ := stop
  rw [Stop.log]
  split
  · rename_i node _
    cases demand with
    | leaf test =>
      have leaf : (place, test) ∈ pattern.leaves := List.mem_filterMap.2 ⟨_, listed, rfl⟩
      rw [Demand.log, ← Logged.events_eq]
      exact silent _ leaf node
    | _ => rfl
  · rfl

/-! ## Reports of a failure -/

/-- Stops at which every leaf predicate is inside a predicate that is applied. -/
def Covered (stops : List Stop) : Prop := ∀ stop ∈ stops, ∀ test, stop.demand = .leaf test → stop.around ≠ []

theorem Covered.cons {demand : Demand} {stops : List Stop} (structural : ∀ test, demand ≠ .leaf test)
    (covered : Covered stops) : Covered (.here demand :: stops) :=
  List.forall_mem_cons.2 ⟨fun test isLeaf => absurd isLeaf (structural test), covered⟩

theorem Covered.append {first later : List Stop} (coveredFirst : Covered first) (coveredLater : Covered later) :
    Covered (first ++ later) :=
  List.forall_mem_append.2 ⟨coveredFirst, coveredLater⟩

theorem Covered.below {stops : List Stop} (covered : Covered stops) (step : Step) :
    Covered (stops.map (.below step)) :=
  List.forall_mem_map.2 covered

mutual

/-- The leaf predicates of a pattern are applied, if only by the predicate that consists of one. -/
theorem covered_stops (pattern : Pattern) : Covered pattern.stops := by
  match pattern with
  | .literal expected =>
    rw [Pattern.stops]
    exact .cons nofun nofun
  | .mapping entries =>
    rw [Pattern.stops]
    exact .cons nofun (covered_stopsEntries entries)
  | .sequence items =>
    rw [Pattern.stops]
    exact .cons nofun (covered_stopsItems 0 items)
  | .predicate test =>
    rw [Pattern.stops]
    intro stop member _ _
    obtain ⟨inner, -, rfl⟩ := List.mem_map.1 member
    exact List.concat_ne_nil test.label inner.around

theorem covered_stopsEntries (entries : List (String × Pattern)) : Covered (Pattern.stopsEntries entries) := by
  match entries with
  | [] => exact nofun
  | (key, entry) :: rest =>
    rw [Pattern.stopsEntries]
    exact .cons nofun (((covered_stops entry).below (.key key)).append (covered_stopsEntries rest))

theorem covered_stopsItems (index : Nat) (items : List Pattern) : Covered (Pattern.stopsItems index items) := by
  match items with
  | [] => exact nofun
  | item :: rest =>
    rw [Pattern.stopsItems]
    exact ((covered_stops item).below (.index index)).append (covered_stopsItems (index + 1) rest)

end

theorem Demand.isFailure_of_mismatch? {demand : Demand} {node : Node} {event : Event}
    (said : demand.mismatch? node = some event) : event.IsFailure := by
  cases demand with
  | atLeast length | exactly length =>
    rw [mismatch?] at said
    split at said <;> (cases said; trivial)
  | leaf test => cases said
  | _ => cases said; trivial

/-- A leaf predicate says nothing itself of a rejection; every other demand says what is wrong. -/
theorem Demand.exists_leaf_of_mismatch? {demand : Demand} {node : Node} (silent : demand.mismatch? node = none) :
    ∃ test, demand = .leaf test := by
  cases demand with
  | atLeast length | exactly length =>
    rw [mismatch?] at silent
    split at silent <;> cases silent
  | leaf test => exact ⟨test, rfl⟩
  | _ => cases silent

theorem Stop.events_report (stop : Stop) (node : Node) : (stop.report node).filterMap LogEntry.event? =
    (stop.demand.mismatch? node).toList ++ stop.around.map .predicateRejected := by
  simp [report, List.filterMap_append, List.filterMap_map, Function.comp_def, LogEntry.event?]

theorem Stop.exists_reports {stop : Stop} (node : Node) (covered : ∀ test, stop.demand = .leaf test → stop.around ≠ []) :
    ∃ first outer, stop.Reports node first outer ∧ first.IsFailure ∧
      (stop.report node).filterMap LogEntry.event? = first :: outer.map .predicateRejected := by
  rw [events_report]
  cases said : stop.demand.mismatch? node with
  | some event => exact ⟨event, stop.around, .mismatch said, Demand.isFailure_of_mismatch? said, rfl⟩
  | none =>
    obtain ⟨test, isLeaf⟩ := Demand.exists_leaf_of_mismatch? said
    obtain ⟨label, outer, applied⟩ := List.exists_cons_of_ne_nil (covered test isLeaf)
    refine ⟨.predicateRejected label, outer, .rejection said applied, trivial, ?_⟩
    rw [applied]
    rfl

/-! ## Events of a match -/

/-- The events of a match are those of overwritten captures and of its first failure, if there is one, and
a match fails exactly if a failure is reported. -/
theorem run_diagnoses (pattern : Pattern) (candidate : Node)
    (silent : ∀ leaf ∈ pattern.leaves, ∀ node, (leaf.2.run node).events = []) :
    Diagnoses pattern candidate (pattern.run candidate).events ∧
      (pattern.match? candidate = none ↔ ∃ event ∈ (pattern.run candidate).events, event.IsFailure) := by
  have explains := explains_run pattern candidate
  rw [Logged.events_eq, Diagnoses]
  cases result : pattern.match? candidate with
  | some captures =>
    rw [result] at explains
    obtain ⟨names, only⟩ := explains.2.events fun stop listed => events_stop silent listed
    refine ⟨⟨names, only⟩, nofun, ?_⟩
    rintro ⟨event, member, isFailure⟩
    rw [only] at member
    obtain ⟨name, -, rfl⟩ := List.mem_map.1 member
    cases isFailure
  | none =>
    rw [result] at explains
    obtain ⟨before, stop, node, log, failure, shown, same⟩ := explains
    obtain ⟨names, only⟩ := shown.events fun other listed => events_stop silent (failure.reached.subset listed)
    have listed : stop ∈ pattern.stops := failure.reached.subset (List.mem_append_right before List.mem_cons_self)
    obtain ⟨first, outer, reports, isFailure, rest⟩ := Stop.exists_reports node (covered_stops pattern stop listed)
    have events : (pattern.run candidate).log.filterMap LogEntry.event? =
        names.map .captureOverwritten ++ first :: outer.map .predicateRejected := by
      rw [same, List.filterMap_append, only, rest]
    rw [events]
    refine ⟨⟨before, stop, node, failure, names, first, outer, reports, isFailure, rfl⟩, fun _ => ?_, fun _ => rfl⟩
    exact ⟨first, List.mem_append_right _ List.mem_cons_self, isFailure⟩

/-- A literal fails inside a predicate that is applied, in an exact array that is called directly by an
extraction: of the three predicates around it two report that they reject. -/
theorem run_diagnoses_nested :
    let pattern := Pattern.mapping [
      ("a", .predicate (.extract "x")), ("b", .predicate (.extract "x")),
      ("c", .predicate (.extractWith "y" (.predicate (.exact [
        .predicate (.always .accept), .predicate (.adapt (.literal (.bool true)))]))))]
    let candidate := Node.object [
      ("a", .null), ("b", .bool true), ("c", .array [.null, .bool false])]
    (∀ leaf ∈ pattern.leaves, ∀ node, (leaf.2.run node).events = []) ∧
      (pattern.run candidate).events = [.captureOverwritten "x", .literalMismatch (.bool true),
        .predicateRejected "as_predicate", .predicateRejected "extract_field_with(y)"] ∧
      Diagnoses pattern candidate (pattern.run candidate).events ∧
      (pattern.match? candidate = none ↔ ∃ event ∈ (pattern.run candidate).events, event.IsFailure) := by
  intro pattern candidate
  have leaves : pattern.leaves = [
      ([.key "a"], .extract "x"), ([.key "b"], .extract "x"), ([.key "c", .index 0], .always .accept)] := rfl
  have silent : ∀ leaf ∈ pattern.leaves, ∀ node, (leaf.2.run node).events = [] := by
    rw [leaves]
    simp only [List.forall_mem_cons]
    exact ⟨fun _ => rfl, fun _ => rfl, fun _ => rfl, nofun⟩
  exact ⟨silent, rfl, run_diagnoses pattern candidate silent⟩

end TreeMatch
