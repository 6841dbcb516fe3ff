import TreeMatch.Proofs.Search

/-!
# The order and the end of a search

Both searches try the pattern at the places of the tree in pre-order, each place once, and log what these
matches log, one after the other. The search for all matches goes through to the end and says how many it
has found. The search for the first stops behind the place that matches, which is the first of all that are
found (`search_tries`).
-/

namespace TreeMatch

/-- A list holds the places of a tree, each once, in pre-order. -/
structure Node.PreOrder (root : Node) (places : List (List String × Node)) : Prop where
  complete : ∀ steps node, (steps, node) ∈ places ↔ root.descend? steps = some node
  /-- No place precedes itself, so none is listed twice. -/
  ordered : places.Pairwise fun a b => root.Precedes a.1 b.1

theorem Node.preOrder_places {root : Node} (wellFormed : root.WellFormed) : root.PreOrder root.places :=
  ⟨fun _ _ => mem_places_iff wellFormed, pairwise_places wellFormed⟩

namespace Pattern

/-- How far a search for the first match goes: to the end if no place matches, and else up to and with the
first place that does. -/
def StopsAt (pattern : Pattern) (places : List (List String × Node)) (log : List LogEntry) :
    Option Found → Prop
  | none => (∀ place ∈ places, pattern.match? place.2 = none) ∧ log = pattern.attempts places
  | some found => ∃ before steps node after, places = before ++ (steps, node) :: after ∧
      (∀ place ∈ before, pattern.match? place.2 = none) ∧ pattern.match? node = some found.captures ∧
      found.path = Pointer.ofSteps steps ∧ log = pattern.attempts (before ++ [(steps, node)])

/-- Trying a place before others, without a match, puts off where a search stops. -/
theorem StopsAt.behind {pattern : Pattern} {place : List String × Node} (missed : pattern.match? place.2 = none)
    {rest : List (List String × Node)} {log : List LogEntry} {first : Option Found}
    (stops : pattern.StopsAt rest log first) :
    pattern.StopsAt (place :: rest) ((pattern.run place.2).log ++ log) first := by
  cases first with
  | none =>
    obtain ⟨others, rfl⟩ := stops
    exact ⟨List.forall_mem_cons.2 ⟨missed, others⟩, (pattern.attempts_cons place rest).symm⟩
  | some found =>
    obtain ⟨before, steps, node, after, rfl, others, matched, path, rfl⟩ := stops
    refine ⟨place :: before, steps, node, after, rfl, List.forall_mem_cons.2 ⟨missed, others⟩, matched, path, ?_⟩
    rw [List.cons_append, attempts_cons]

theorem run_attempt_stop (pattern : Pattern) (place : List String × Node) :
    (pattern.attempt Found.stop (Pointer.ofSteps place.1) place.2).run =
      ⟨match pattern.foundAt? place with
        | some found => .error found
        | none => .ok (), (pattern.run place.2).log⟩ := by
  rw [attempt, foundAt?, match?, ExceptT.run_bind]
  cases result : (pattern.run place.2).value with
  | none => apply Logged.ext <;> simp [result]
  | some captures => apply Logged.ext <;> simp [result, Found.stop]

/-- Stopping at a match leaves out all places behind it. -/
theorem stopsAt_tryEach (pattern : Pattern) (places : List (List String × Node)) :
    pattern.StopsAt places (pattern.tryEach Found.stop "" places).run.log
      (Found.stopped? (pattern.tryEach Found.stop "" places).run.value) := by
  induction places with
  | nil => exact ⟨nofun, rfl⟩
  | cons place rest ih =>
    rw [tryEach, List.forM_cons, ExceptT.run_bind, ← Pointer.ofSteps, run_attempt_stop, ← tryEach]
    rw [Logged.log_bind, Logged.value_bind]
    cases here : pattern.foundAt? place with
    | some found =>
      obtain ⟨matched, path⟩ := foundAt?_eq_some_iff.1 here
      refine ⟨[], place.1, place.2, rest, rfl, nofun, matched, path.symm, ?_⟩
      rw [List.nil_append, attempts_cons]
      rfl
    | none => exact ih.behind (Option.map_eq_none_iff.1 here)

theorem stopsAt_findFirst (pattern : Pattern) (root : Node) :
    pattern.StopsAt root.places (pattern.findFirst root).log (pattern.findFirst root).value := by
  rw [findFirst, visit_eq]
  exact pattern.stopsAt_tryEach root.places

/-- Where a search stops is the first place that matches at all. -/
theorem StopsAt.head? {pattern : Pattern} {places : List (List String × Node)} {log : List LogEntry}
    {first : Option Found} (stops : pattern.StopsAt places log first) :
    (places.filterMap pattern.foundAt?).head? = first := by
  have nothing {missed : List (List String × Node)} (each : ∀ place ∈ missed, pattern.match? place.2 = none) :
      missed.filterMap pattern.foundAt? = [] :=
    List.filterMap_eq_nil_iff.2 fun place member => Option.map_eq_none_iff.2 (each place member)
  cases first with
  | none => rw [nothing stops.1, List.head?_nil]
  | some found =>
    obtain ⟨before, steps, node, after, rfl, missed, matched, path, -⟩ := stops
    have here : pattern.foundAt? (steps, node) = some found := foundAt?_eq_some_iff.2 ⟨matched, path.symm⟩
    rw [List.filterMap_append, nothing missed, List.nil_append, List.filterMap_cons_some here, List.head?_cons]

theorem value_findFirst (pattern : Pattern) (root : Node) :
    (pattern.findFirst root).value = (pattern.findAll root).value.head? := by
  rw [value_findAll, (pattern.stopsAt_findFirst root).head?]

end Pattern

/-- What the two searches of a tree have to do with each other and with the matches at its places. -/
structure Searches (pattern : Pattern) (root : Node) (all : Logged (List Found)) (first : Logged (Option Found)) :
    Prop where
  agree : first.value = all.value.head?
  tries : ∃ places, root.PreOrder places ∧
    all.log = pattern.attempts places ++ [.event (.searchFinished all.value.length)] ∧
    pattern.StopsAt places first.log first.value

/-- A search for the first match finds the first of all matches and tries no place behind it. -/
theorem search_tries {root : Node} (wellFormed : root.WellFormed) (pattern : Pattern) :
    Searches pattern root (pattern.findAll root) (pattern.findFirst root) := by
  refine ⟨pattern.value_findFirst root, root.places, Node.preOrder_places wellFormed, ?_,
    pattern.stopsAt_findFirst root⟩
  rw [Pattern.findAll_eq]

/-- The first match stands in a part of the tree, with another match beside that part. -/
theorem search_tries_inside :
    let root := Node.object [("a", .array [.null, .bool true, .null]), ("b", .bool true)]
    let pattern := Pattern.predicate (.spied (.string "tried") (.adapt (.literal (.bool true))))
    root.WellFormed ∧ Searches pattern root (pattern.findAll root) (pattern.findFirst root) ∧
      (pattern.findAll root).value.map Found.path = ["/a/1", "/b"] ∧
      (pattern.findAll root).calls.length = 6 ∧ (pattern.findFirst root).calls.length = 4 := by
  intro root pattern
  have wellFormed : root.WellFormed := by
    simp only [root, Node.WellFormed, Node.WellFormedFields, Node.WellFormedItems, and_self, and_true]
    decide
  exact ⟨wellFormed, search_tries wellFormed pattern, by decide +kernel, rfl, rfl⟩

end TreeMatch
