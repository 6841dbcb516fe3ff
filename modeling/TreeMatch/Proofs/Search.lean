import TreeMatch.Search
import TreeMatch.Proofs.Places

/-!
# What a search finds

To visit a tree is to go through its places in pre-order, whatever is done with a match (`visit_eq`). So a search
for all matches runs the pattern on its own at every place (`findAll_eq`). It reports every match once, under the
pointer of its place, and nothing else (`findAll_finds`).
-/

namespace TreeMatch

namespace Pattern

/-! ## Visits -/

section

variable {m : Type → Type} [Monad m] [MonadLiftT Logged m] (pattern : Pattern) (onMatch : Found → m Unit)

/-- Tries the pattern at places below a path, one after the other, as far as what is done with a match allows. -/
def tryEach (path : String) (places : List (List String × Node)) : m Unit :=
  forM places fun place => pattern.attempt onMatch (place.1.foldl Pointer.push path) place.2

/-- Elements are visited like values under their indices. -/
theorem visitItems_eq (path : String) (index : Nat) (items : List Node) :
    pattern.visitItems onMatch path index items = pattern.visitFields onMatch path (Node.elements index items) := by
  induction items generalizing index with
  | nil => rfl
  | cons item rest ih => rw [visitItems, Node.elements, visitFields, ih]

/-- A tree is visited before its parts. -/
theorem visit_eq_parts (path : String) (node : Node) :
    pattern.visit onMatch path node =
      (do pattern.attempt onMatch path node; pattern.visitFields onMatch path node.parts) := by
  cases node with
  | array items => rw [visit, visitItems_eq, Node.parts]
  | object fields => rw [visit, Node.parts]
  | null | bool value | number value | string text => rfl

variable [LawfulMonad m]

theorem visitFields_eq {fields : List (String × Node)}
    (each : ∀ field ∈ fields, ∀ path,
      pattern.visit onMatch path field.2 = pattern.tryEach onMatch path field.2.places)
    (path : String) :
    pattern.visitFields onMatch path fields = pattern.tryEach onMatch path (Node.placesFields fields) := by
  induction fields with
  | nil => rfl
  | cons field rest ih =>
    obtain ⟨key, value⟩ := field
    obtain ⟨first, later⟩ := List.forall_mem_cons.1 each
    rw [visitFields, first, ih later, Node.placesFields, tryEach, tryEach, tryEach, List.forM_append,
      List.forM_map]
    rfl

/-- A visit tries the pattern at the places of the tree in pre-order. A path that grows by a step on the way to each
part is the pointer of the place. -/
theorem visit_eq (path : String) (node : Node) :
    pattern.visit onMatch path node = pattern.tryEach onMatch path node.places := by
  induction node using Node.inductParts generalizing path with
  | whole node ih =>
    rw [visit_eq_parts, visitFields_eq pattern onMatch ih, Node.places_eq, tryEach, tryEach, List.forM_cons]
    rfl

end

/-! ## The search for all matches -/

/-- What a match at one place reports. -/
def foundAt? (pattern : Pattern) (place : List String × Node) : Option Found :=
  (pattern.match? place.2).map (Found.mk (Pointer.ofSteps place.1))

/-- The logs of the matches at some places, one after the other. -/
def attempts (pattern : Pattern) (places : List (List String × Node)) : List LogEntry :=
  places.flatMap fun place => (pattern.run place.2).log

theorem attempts_cons (pattern : Pattern) (place : List String × Node) (rest : List (List String × Node)) :
    pattern.attempts (place :: rest) = (pattern.run place.2).log ++ pattern.attempts rest := List.flatMap_cons

theorem run_attempt_keep (pattern : Pattern) (place : List String × Node) (kept : List Found) :
    (pattern.attempt Found.keep (Pointer.ofSteps place.1) place.2).run kept =
      ⟨((), kept ++ (pattern.foundAt? place).toList), (pattern.run place.2).log⟩ := by
  rw [attempt, foundAt?, match?, StateT.run_bind]
  cases result : (pattern.run place.2).value with
  | none => apply Logged.ext <;> simp [result]
  | some captures => apply Logged.ext <;> simp [result, Found.keep]

/-- Keeping each match leaves nothing out: all places are tried. -/
theorem run_tryEach_keep (pattern : Pattern) (places : List (List String × Node)) (kept : List Found) :
    (pattern.tryEach Found.keep "" places).run kept =
      ⟨((), kept ++ places.filterMap pattern.foundAt?), pattern.attempts places⟩ := by
  induction places generalizing kept with
  | nil =>
    rw [List.filterMap_nil, List.append_nil]
    rfl
  | cons place rest ih =>
    rw [tryEach, List.forM_cons, StateT.run_bind, ← Pointer.ofSteps, run_attempt_keep, ← tryEach]
    rw [attempts_cons, List.filterMap_cons]
    apply Logged.ext
    · rw [Logged.value_bind, ih, List.append_assoc]
      cases pattern.foundAt? place <;> rfl
    · rw [Logged.log_bind, ih]

/-- A search for all matches tries every place, reports what is found there and says how much that is. -/
theorem findAll_eq (pattern : Pattern) (root : Node) :
    pattern.findAll root = ⟨root.places.filterMap pattern.foundAt?, pattern.attempts root.places ++
      [.event (.searchFinished (root.places.filterMap pattern.foundAt?).length)]⟩ := by
  rw [findAll, visit_eq, run_tryEach_keep]
  rfl

theorem value_findAll (pattern : Pattern) (root : Node) :
    (pattern.findAll root).value = root.places.filterMap pattern.foundAt? := by
  rw [findAll_eq]

theorem foundAt?_eq_some_iff {pattern : Pattern} {place : List String × Node} {entry : Found} :
    pattern.foundAt? place = some entry ↔
      pattern.match? place.2 = some entry.captures ∧ Pointer.ofSteps place.1 = entry.path := by
  obtain ⟨path, captures⟩ := entry
  simp [foundAt?, Option.map_eq_some_iff]

/-- A reported path is the pointer of some place. -/
theorem exists_steps {pattern : Pattern} {root : Node} {entry : Found}
    (member : entry ∈ (pattern.findAll root).value) : ∃ steps, Pointer.ofSteps steps = entry.path := by
  rw [value_findAll, List.mem_filterMap] at member
  obtain ⟨place, -, found⟩ := member
  exact ⟨place.1, (foundAt?_eq_some_iff.1 found).2⟩

/-- What is reported are the matches at the places of the tree. -/
theorem mem_findAll_iff {pattern : Pattern} {root : Node} (wellFormed : root.WellFormed) {entry : Found} :
    entry ∈ (pattern.findAll root).value ↔ ∃ steps node, root.descend? steps = some node ∧
      pattern.match? node = some entry.captures ∧ Pointer.ofSteps steps = entry.path := by
  rw [value_findAll, List.mem_filterMap]
  constructor
  · rintro ⟨⟨steps, node⟩, member, found⟩
    exact ⟨steps, node, (Node.mem_places_iff wellFormed).1 member, foundAt?_eq_some_iff.1 found⟩
  · rintro ⟨steps, node, leads, found⟩
    exact ⟨(steps, node), (Node.mem_places_iff wellFormed).2 leads, foundAt?_eq_some_iff.2 found⟩

end Pattern

/-- The place of one pointer comes before that of another in the pre-order of the tree. -/
def Node.PointerPrecedes (root : Node) (first later : String) : Prop :=
  ∃ a b, Pointer.toSteps? first = some a ∧ Pointer.toSteps? later = some b ∧ root.Precedes a b

theorem Node.PointerPrecedes.ne {root : Node} {first later : String}
    (before : root.PointerPrecedes first later) : first ≠ later := by
  rintro rfl
  obtain ⟨a, b, readA, readB, before⟩ := before
  cases readA.symm.trans readB
  exact before.ne rfl

/-- The reports stand in the pre-order of their places. -/
theorem Pattern.pairwise_findAll (pattern : Pattern) {root : Node} (wellFormed : root.WellFormed) :
    (pattern.findAll root).value.Pairwise fun a b => root.PointerPrecedes a.path b.path := by
  rw [value_findAll]
  refine (Node.pairwise_places wellFormed).filterMap pattern.foundAt? ?_
  intro placeA placeB before a foundA b foundB
  obtain ⟨-, pathA⟩ := foundAt?_eq_some_iff.1 foundA
  obtain ⟨-, pathB⟩ := foundAt?_eq_some_iff.1 foundB
  rw [← pathA, ← pathB]
  exact ⟨placeA.1, placeB.1, Pointer.toSteps?_ofSteps placeA.1, Pointer.toSteps?_ofSteps placeB.1, before⟩

/-- What the search of a tree for a pattern has to report. -/
structure Finds (root : Node) (pattern : Pattern) (found : List Found) : Prop where
  /-- A reported path names a tree that matches, when it is matched alone, with the reported captures. -/
  sound : ∀ entry ∈ found,
    ∃ node, root.resolve? entry.path = some node ∧ pattern.match? node = some entry.captures
  /-- A tree that matches is reported exactly once, under the pointer of its steps. -/
  complete : ∀ steps node captures, root.descend? steps = some node →
    pattern.match? node = some captures →
      (found.filter fun entry => entry.path == Pointer.ofSteps steps).map Found.captures = [captures]
  /-- No path is reported twice. -/
  distinct : (found.map Found.path).Nodup
  /-- Reports stand in pre-order. -/
  ordered : found.Pairwise fun a b => root.PointerPrecedes a.path b.path

/-- Of a list without repeated values of a function, a filter for one value leaves its one element. -/
theorem filter_eq_singleton {entries : List Found} (distinct : (entries.map Found.path).Nodup)
    {entry : Found} (member : entry ∈ entries) :
    entries.filter (fun other => other.path == entry.path) = [entry] := by
  induction entries with
  | nil => simp at member
  | cons first rest ih =>
    rw [List.map_cons, List.nodup_cons] at distinct
    obtain ⟨fresh, distinct⟩ := distinct
    rcases List.mem_cons.1 member with rfl | later
    · have none : rest.filter (fun other => other.path == entry.path) = [] := by
        rw [List.filter_eq_nil_iff]
        intro other inRest same
        exact fresh (beq_iff_eq.1 same ▸ List.mem_map_of_mem inRest)
      rw [List.filter_cons, if_pos (beq_self_eq_true entry.path), none]
    · have other : ¬ (first.path == entry.path) = true := by
        intro same
        exact fresh (beq_iff_eq.1 same ▸ List.mem_map_of_mem later)
      rw [List.filter_cons, if_neg other]
      exact ih distinct later

/-- A search of a well-formed tree reports every match once, in pre-order, and nothing else. -/
theorem findAll_finds {root : Node} (wellFormed : root.WellFormed) (pattern : Pattern) :
    Finds root pattern (pattern.findAll root).value := by
  have ordered := pattern.pairwise_findAll wellFormed
  have distinct : ((pattern.findAll root).value.map Found.path).Nodup :=
    List.pairwise_map.2 (ordered.imp fun before => before.ne)
  refine ⟨?_, ?_, distinct, ordered⟩
  · intro entry member
    obtain ⟨steps, node, leads, matched, path⟩ := (Pattern.mem_findAll_iff wellFormed).1 member
    rw [← path]
    exact ⟨node, (root.resolve?_ofSteps steps).trans leads, matched⟩
  · intro steps node captures leads matched
    have member : ⟨Pointer.ofSteps steps, captures⟩ ∈ (pattern.findAll root).value :=
      (Pattern.mem_findAll_iff wellFormed).2 ⟨steps, node, leads, matched, rfl⟩
    rw [filter_eq_singleton distinct member, List.map_singleton]

/-- Keys that look like escapes or are empty do not confuse the search: the matches are told apart. -/
theorem findAll_finds_escaped :
    let root := Node.object [("", .bool true), ("/", .array [.null, .bool true]), ("~1", .bool true)]
    let pattern := Pattern.literal (.bool true)
    root.WellFormed ∧ Finds root pattern (pattern.findAll root).value ∧
      (pattern.findAll root).value.map Found.path = ["/", "/~1/1", "/~01"] := by
  intro root pattern
  have wellFormed : root.WellFormed := by
    simp only [root, Node.WellFormed, Node.WellFormedFields, Node.WellFormedItems, and_self, and_true]
    decide
  exact ⟨wellFormed, findAll_finds wellFormed pattern, by decide +kernel⟩

end TreeMatch
