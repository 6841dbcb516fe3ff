import TreeMatch.Proofs.Stops

/-!
# The course of a match

A match passes one stop after the other up to the first that fails. Its log holds what the leaf
predicates up to there log, then the report of the failure, and nothing else but that captures are
overwritten (`explains_run`). `Explains` says so of an outcome and a log; the lemmas on it are the steps
that a match makes: one stop, one list of stops after another, into a part, out of a predicate.
-/

namespace TreeMatch

/-! ## Logs -/

/-- Whether a line of a log says that a capture was overwritten. -/
def LogEntry.isOverwriting : LogEntry → Bool
  | .event (.captureOverwritten _) => true
  | _ => false

/-- A log without the lines that say that captures were overwritten. -/
def essential (log : List LogEntry) : List LogEntry := log.filter fun entry => !entry.isOverwriting

theorem essential_append (first later : List LogEntry) :
    essential (first ++ later) = essential first ++ essential later :=
  List.filter_append ..

theorem Verdict.isMatch_ofOption (result : Option Captures) : (ofOption result).isMatch = result.isSome := by
  cases result <;> rfl

theorem Captures.log_mergeLogged (held found : Captures) :
    (held.mergeLogged found).log = ((held.overwritten found).map Event.captureOverwritten).map .event := by
  rw [mergeLogged, Logged.log_bind, Logged.log_pure, List.append_nil, Logged.reportAll]

@[simp] theorem essential_overwritten (names : List String) :
    essential ((names.map Event.captureOverwritten).map .event) = [] := by
  simp [essential, LogEntry.isOverwriting]

/-- Apart from overwritten captures, a log holds what is logged at the stops. -/
def Shows (root : Node) (stops : List Stop) (log : List LogEntry) : Prop :=
  essential log = essential (stops.flatMap (Stop.log root))

theorem Shows.append {root : Node} {first later : List Stop} {log more : List LogEntry}
    (showsFirst : Shows root first log) (showsLater : Shows root later more) :
    Shows root (first ++ later) (log ++ more) := by
  rw [Shows, essential_append, showsFirst, showsLater, List.flatMap_append, essential_append]

theorem Shows.overwritten {root : Node} {stops : List Stop} {log : List LogEntry} (shown : Shows root stops log)
    (names : List String) : Shows root stops (log ++ (names.map Event.captureOverwritten).map .event) := by
  rw [Shows, essential_append, essential_overwritten, List.append_nil, shown]

/-! ## First failures -/

/-- A stop that fails after others have passed. It has a part of the candidate to ask. -/
structure FirstFailure (root : Node) (stops before : List Stop) (stop : Stop) (node : Node) : Prop where
  split : ∃ after, stops = before ++ stop :: after
  passed : ∀ earlier ∈ before, earlier.Passes root
  faces : root.at? stop.place = some node
  fails : ¬ stop.demand.Met node

namespace FirstFailure

variable {root node : Node} {stops before : List Stop} {stop : Stop}

theorem reached (failure : FirstFailure root stops before stop node) : before ++ [stop] <+: stops := by
  obtain ⟨after, rfl⟩ := failure.split
  exact ⟨after, by simp⟩

theorem faced (failure : FirstFailure root stops before stop node) :
    ∀ earlier ∈ before ++ [stop], ∃ part, root.at? earlier.place = some part := by
  refine List.forall_mem_append.2 ⟨?_, List.forall_mem_singleton.2 ⟨node, failure.faces⟩⟩
  exact fun earlier member => (failure.passed earlier member).imp fun _ passes => passes.1

/-- No stop that fails comes before the first. -/
theorem upTo (failure : FirstFailure root stops before stop node) {earlier after : List Stop} {other : Stop}
    (split : stops = earlier ++ other :: after) (fails : ¬ other.Passes root) :
    before ++ [stop] <+: earlier ++ [other] := by
  refine List.prefix_of_prefix_length_le failure.reached ⟨after, by simp [split]⟩ ?_
  obtain ⟨rest, same⟩ := failure.split
  simp only [List.length_append, List.length_singleton, Nat.add_le_add_iff_right]
  refine Nat.le_of_not_lt fun shorter => ?_
  -- Then `other` is among the stops that pass.
  refine fails (failure.passed other ?_)
  have position : stops[earlier.length]? = some other := by simp [split]
  rw [same, List.getElem?_append_left (by omega)] at position
  exact List.mem_of_getElem? position

end FirstFailure

/-! ## Stops seen from elsewhere -/

/-- A change of stops after which they ask a tree for what they asked a part of it. -/
structure Stop.Moves (root part : Node) (change : Stop → Stop) : Prop where
  place : ∀ stop, root.at? (change stop).place = part.at? stop.place
  demand : ∀ stop, (change stop).demand = stop.demand

theorem Stop.moves_below {root part : Node} {step : Step} (leads : root.step? step = some part) :
    Moves root part (.below step) :=
  ⟨fun stop => Node.at?_cons leads stop.place, fun _ => rfl⟩

theorem Stop.moves_within (root : Node) (label : String) : Moves root root (.within label) :=
  ⟨fun _ => rfl, fun _ => rfl⟩

namespace Stop.Moves

variable {root part : Node} {change : Stop → Stop} {stops : List Stop}

theorem passed (moves : Moves root part change) (passed : ∀ stop ∈ stops, stop.Passes part) :
    ∀ stop ∈ stops.map change, stop.Passes root := by
  refine List.forall_mem_map.2 fun stop listed => ?_
  rw [Passes, moves.place, moves.demand]
  exact passed stop listed

theorem shows (moves : Moves root part change) {log : List LogEntry} (shown : Shows part stops log) :
    Shows root (stops.map change) log := by
  have logs : ∀ stop, (change stop).log root = stop.log part := by
    intro stop
    rw [Stop.log, moves.place, moves.demand, Stop.log]
  rw [Shows, List.flatMap_map, shown]
  simp only [logs]

theorem firstFailure (moves : Moves root part change) {before : List Stop} {stop : Stop} {node : Node}
    (failure : FirstFailure part stops before stop node) :
    FirstFailure root (stops.map change) (before.map change) (change stop) node := by
  refine ⟨?_, moves.passed failure.passed, ?_, ?_⟩
  · obtain ⟨after, rfl⟩ := failure.split
    exact ⟨after.map change, by simp⟩
  · rw [moves.place, failure.faces]
  · rw [moves.demand]
    exact failure.fails

end Stop.Moves

/-! ## Outcomes of a match -/

/-- Whether an outcome and a log are those of going from stop to stop until one fails. -/
def Explains (root : Node) (stops : List Stop) : Bool → List LogEntry → Prop
  | true, log => (∀ stop ∈ stops, stop.Passes root) ∧ Shows root stops log
  | false, log => ∃ before stop node passed, FirstFailure root stops before stop node ∧
      Shows root (before ++ [stop]) passed ∧ log = passed ++ stop.report node

namespace Explains

variable {root part : Node} {first later stops : List Stop} {ok : Bool} {log more : List LogEntry}

theorem nil : Explains root [] true [] := ⟨nofun, rfl⟩

theorem append (passes : Explains root first true log) (explains : Explains root later ok more) :
    Explains root (first ++ later) ok (log ++ more) := by
  obtain ⟨passed, shown⟩ := passes
  cases ok with
  | true => exact ⟨List.forall_mem_append.2 ⟨passed, explains.1⟩, shown.append explains.2⟩
  | false =>
    obtain ⟨before, stop, node, logged, failure, showsLater, rfl⟩ := explains
    have extended : FirstFailure root (first ++ later) (first ++ before) stop node := by
      obtain ⟨after, rfl⟩ := failure.split
      exact ⟨⟨after, (List.append_assoc ..).symm⟩, List.forall_mem_append.2 ⟨passed, failure.passed⟩,
        failure.faces, failure.fails⟩
    refine ⟨first ++ before, stop, node, log ++ logged, extended, ?_, (List.append_assoc ..).symm⟩
    rw [List.append_assoc]
    exact shown.append showsLater

theorem append_false (explains : Explains root first false log) (later : List Stop) :
    Explains root (first ++ later) false log := by
  obtain ⟨before, stop, node, logged, failure, shown, same⟩ := explains
  obtain ⟨after, rfl⟩ := failure.split
  exact ⟨before, stop, node, logged,
    ⟨⟨after ++ later, by simp⟩, failure.passed, failure.faces, failure.fails⟩, shown, same⟩

theorem met {demand : Demand} (met : demand.Met root) (silent : demand.log root = []) :
    Explains root [.here demand] true [] := by
  refine ⟨List.forall_mem_singleton.2 ⟨root, rfl, met⟩, ?_⟩
  simp [Shows, Stop.log, Stop.here, silent]

theorem unmet {demand : Demand} (fails : ¬ demand.Met root) (silent : demand.log root = []) {event : Event}
    (mismatch : demand.mismatch? root = some event) : Explains root [.here demand] false [.event event] := by
  refine ⟨[], .here demand, root, [], ⟨⟨[], rfl⟩, nofun, rfl, fails⟩, ?_, ?_⟩
  · simp [Shows, Stop.log, Stop.here, silent]
  · simp [Stop.report, Stop.here, mismatch]

/-- A leaf predicate passes unless it rejects, and says nothing of that itself. -/
theorem leaf (test : Predicate) (root : Node) :
    Explains root [.here (.leaf test)] (test.run root).value.isMatch (test.run root).log := by
  have shown : Shows root [.here (.leaf test)] (test.run root).log := by
    simp [Shows, Stop.log, Stop.here, Demand.log]
  cases verdict : (test.run root).value with
  | reject =>
    refine ⟨[], .here (.leaf test), root, (test.run root).log, ⟨⟨[], rfl⟩, nofun, rfl, ?_⟩, shown, ?_⟩
    · exact fun accepted => accepted verdict
    · simp [Stop.report, Stop.here, Demand.mismatch?]
  | _ =>
    refine ⟨List.forall_mem_singleton.2 ⟨root, rfl, ?_⟩, shown⟩
    simp [Stop.here, Demand.Met, verdict]

/-- A walk goes on after a success, with the captures found, and only then. -/
theorem next {walked : Logged (Option Captures)} {rest : Captures → Logged (Option Captures)}
    (explains : Explains root first walked.value.isSome walked.log)
    (goesOn : ∀ found, Explains root later (rest found).value.isSome (rest found).log) :
    Explains root (first ++ later)
      (walked >>= fun | none => pure none | some found => rest found).value.isSome
      (walked >>= fun | none => pure none | some found => rest found).log := by
  obtain ⟨result, log⟩ := walked
  cases result with
  | none => simpa using explains.append_false later
  | some found => exact explains.append (goesOn found)

theorem below {step : Step} (leads : root.step? step = some part) (explains : Explains part stops ok log) :
    Explains root (stops.map (.below step)) ok log := by
  have moves := Stop.moves_below leads
  cases ok with
  | true => exact ⟨moves.passed explains.1, moves.shows explains.2⟩
  | false =>
    obtain ⟨before, stop, node, logged, failure, shown, rfl⟩ := explains
    refine ⟨before.map (.below step), stop.below step, node, logged, moves.firstFailure failure, ?_, rfl⟩
    simpa using moves.shows shown

theorem overwritten (explains : Explains root stops true log) (names : List String) :
    Explains root stops true (log ++ (names.map Event.captureOverwritten).map .event) :=
  ⟨explains.1, explains.2.overwritten names⟩

theorem within_true (explains : Explains root stops true log) (label : String) :
    Explains root (stops.map (.within label)) true log :=
  have moves := Stop.moves_within root label
  ⟨moves.passed explains.1, moves.shows explains.2⟩

/-- The predicate around a failure reports its rejection after what was reported inside. -/
theorem within_false (explains : Explains root stops false log) (label : String) :
    Explains root (stops.map (.within label)) false (log ++ [.event (.predicateRejected label)]) := by
  have moves := Stop.moves_within root label
  obtain ⟨before, stop, node, logged, failure, shown, rfl⟩ := explains
  refine ⟨before.map (.within label), stop.within label, node, logged, moves.firstFailure failure, ?_, ?_⟩
  · simpa using moves.shows shown
  · simp [Stop.report, Stop.within]

/-- Applying a predicate merges its captures or reports its rejection. -/
theorem apply {verdict : Verdict} (explains : Explains root stops verdict.isMatch log) (label : String)
    (held : Captures) :
    Explains root (stops.map (.within label)) (verdict.apply label held).value.isSome
      (log ++ (verdict.apply label held).log) := by
  cases verdict with
  | reject => exact explains.within_false label
  | accept =>
    have passes := explains.within_true label
    rw [← List.append_nil log] at passes
    exact passes
  | capture found =>
    rw [Verdict.apply, Logged.value_map, Logged.log_map, Captures.log_mergeLogged]
    exact (explains.within_true label).overwritten (held.overwritten found)

/-- Binding the candidate beneath what was captured inside it says no more of a rejection. -/
theorem beneath {verdict : Verdict} (explains : Explains root stops verdict.isMatch log) (name : String) :
    Explains root stops (verdict.beneath name root).value.isMatch (log ++ (verdict.beneath name root).log) := by
  cases verdict with
  | capture found =>
    rw [Verdict.beneath, Logged.value_map, Logged.log_map, Captures.log_mergeLogged]
    exact explains.overwritten ((Captures.single name root).overwritten found)
  | _ =>
    rw [← List.append_nil log] at explains
    exact explains

end Explains

/-! ## The course of a match -/

/-- A matcher that is no predicate starts a match of its own. -/
theorem explains_matcher {candidate : Node} {pattern : Pattern} (label name : String)
    (explains : Explains candidate pattern.stops (pattern.walk candidate .empty).value.isSome
      (pattern.walk candidate .empty).log) (structural : ∀ test, pattern ≠ .predicate test) :
    Explains candidate ((Action.extractWith name pattern).stops label)
      ((Action.extractWith name pattern).judge candidate).value.isMatch
      ((Action.extractWith name pattern).judge candidate).log := by
  rw [← Verdict.isMatch_ofOption] at explains
  cases pattern with
  | predicate test => exact absurd rfl (structural test)
  | _ =>
    rw [Action.judge, Action.stops, Logged.value_bind, Logged.log_bind]
    · exact explains.beneath name
    all_goals simp

mutual

-- The induction follows the walk, for any captures held before: they only decide which of them are
-- overwritten, and that is not essential.

/-- A match goes from stop to stop. -/
theorem explains_walk (candidate : Node) (held : Captures) (pattern : Pattern) :
    Explains candidate pattern.stops (pattern.walk candidate held).value.isSome
      (pattern.walk candidate held).log := by
  match pattern with
  | .literal expected =>
    rw [Pattern.walk, Pattern.stops]
    split
    · rename_i contained
      exact .met contained rfl
    · rename_i missing
      refine .unmet ?_ rfl rfl
      exact missing
  | .mapping entries =>
    rw [Pattern.walk, Pattern.stops]
    cases candidate with
    | object fields =>
      have object : Explains (.object fields) [.here .object] true [] := .met ⟨fields, rfl⟩ rfl
      exact object.append (explains_walkEntries (.object fields) fields rfl held entries)
    | _ =>
      refine Explains.append_false (.unmet ?_ rfl rfl) _
      rintro ⟨fields, shape⟩
      cases shape
  | .sequence items =>
    rw [Pattern.walk, Pattern.stops]
    cases candidate with
    | array elements =>
      simp only [Node.items?]
      split
      · rename_i short
        refine Explains.append_false (.unmet ?_ rfl rfl) _
        rintro ⟨_, same, enough⟩
        cases same
        omega
      · rename_i enough
        have long : Explains (.array elements) [.here (.atLeast items.length)] true [] :=
          .met ⟨elements, rfl, by omega⟩ rfl
        exact long.append (explains_walkItems elements 0 held items (by omega))
    | _ =>
      refine Explains.append_false (.unmet ?_ rfl rfl) _
      rintro ⟨elements, shape, -⟩
      cases shape
  | .predicate test =>
    rw [Pattern.walk, Pattern.stops, Logged.value_bind, Logged.log_bind]
    exact (explains_call candidate test).apply test.label held

theorem explains_walkEntries (candidate : Node) (fields : List (String × Node))
    (shape : candidate.fields? = some fields) (held : Captures) (entries : List (String × Pattern)) :
    Explains candidate (Pattern.stopsEntries entries) (Pattern.walkEntries fields held entries).value.isSome
      (Pattern.walkEntries fields held entries).log := by
  match entries with
  | [] => exact .nil
  | (key, entry) :: rest =>
    rw [Pattern.walkEntries, Pattern.stopsEntries]
    have part : candidate.field? key = fields.lookup key := by
      rw [Node.field?, shape, Option.bind_some]
    cases listed : fields.lookup key with
    | none =>
      refine Explains.append_false (.unmet ?_ rfl rfl) _
      rintro ⟨value, found⟩
      rw [part, listed] at found
      cases found
    | some value =>
      rw [listed] at part
      have present : Explains candidate [.here (.key key)] true [] := .met ⟨value, part⟩ rfl
      have leads : candidate.step? (.key key) = some value := part
      have inside := (explains_walk value held entry).below leads
      exact present.append (inside.next fun found => explains_walkEntries candidate fields shape found rest)

theorem explains_walkItems (elements : List Node) (index : Nat) (held : Captures) (items : List Pattern)
    (enough : index + items.length ≤ elements.length) :
    Explains (.array elements) (Pattern.stopsItems index items)
      (Pattern.walkItems (elements.drop index) held items).value.isSome
      (Pattern.walkItems (elements.drop index) held items).log := by
  match items with
  | [] =>
    rw [Pattern.walkItems.eq_def]
    exact .nil
  | item :: rest =>
    rw [List.length_cons] at enough
    -- No item runs out of elements: the length was asked for before.
    have inside : index < elements.length := by omega
    rw [List.drop_eq_getElem_cons inside, Pattern.walkItems, Pattern.stopsItems]
    have leads : (Node.array elements).step? (.index index) = some elements[index] := by
      rw [Node.step?, Node.element?, Node.items?, Option.bind_some, List.getElem?_eq_getElem inside]
    have first := (explains_walk elements[index] held item).below leads
    exact first.next fun found => explains_walkItems elements (index + 1) found rest (by omega)

theorem explains_call (candidate : Node) (test : Predicate) :
    Explains candidate test.stops (test.call candidate).value.isMatch (test.call candidate).log := by
  match test with
  | .mk label action => exact explains_judge candidate label action

theorem explains_judge (candidate : Node) (label : String) (action : Action) :
    Explains candidate (action.stops label) (action.judge candidate).value.isMatch
      (action.judge candidate).log := by
  match action with
  | .check judge => exact .leaf (.mk label (.check judge)) candidate
  | .adapt pattern =>
    rw [Action.judge, Action.stops, Logged.value_map, Logged.log_map, Verdict.isMatch_ofOption]
    exact explains_walk candidate .empty pattern
  | .extract name => exact .leaf (.mk label (.extract name)) candidate
  | .extractWith name (.predicate inner) =>
    -- It is called and not applied, so its own label is not among those around its stops.
    rw [Action.judge, Action.stops, Logged.value_bind, Logged.log_bind]
    exact (explains_call candidate inner).beneath name
  | .extractWith name (.literal expected) => exact explains_matcher label name (explains_walk candidate .empty _) nofun
  | .extractWith name (.mapping entries) => exact explains_matcher label name (explains_walk candidate .empty _) nofun
  | .extractWith name (.sequence items) => exact explains_matcher label name (explains_walk candidate .empty _) nofun
  | .exact items =>
    rw [Action.judge, Action.stops]
    cases candidate with
    | array elements =>
      simp only [Node.items?]
      split
      · rename_i same
        have fits : Explains (.array elements) [.here (.exactly items.length)] true [] :=
          .met ⟨elements, rfl, same⟩ rfl
        rw [Logged.value_map, Logged.log_map, Verdict.isMatch_ofOption]
        exact fits.append (explains_walkItems elements 0 .empty items (by omega))
      · rename_i different
        refine Explains.append_false (.unmet ?_ rfl rfl) _
        rintro ⟨_, shape, same⟩
        cases shape
        exact different same
    | _ =>
      refine Explains.append_false (.unmet ?_ rfl rfl) _
      rintro ⟨elements, shape, -⟩
      cases shape

end

theorem explains_run (pattern : Pattern) (candidate : Node) :
    Explains candidate pattern.stops (pattern.match? candidate).isSome (pattern.run candidate).log :=
  explains_walk candidate .empty pattern

end TreeMatch
