import Mathlib.Data.Set.Card
import TreeMatch.Proofs.Collected
import TreeMatch.Proofs.Diagnosis

/-!
# Conservation of bindings

Every binding that a successful match makes, by an extraction or by a function of the pattern, is either in
the captures at the end or reported as overwritten, and nothing else is (`run_conserves`). `Balances` says
so of a list of stops, name by name. Each step of a match keeps the balance, and so a whole match does.
-/

namespace TreeMatch

/-! ## What is overwritten and what is made -/

/-- The name of the capture that an event says was overwritten. -/
def Event.overwritten? : Event → Option String
  | captureOverwritten name => some name
  | _ => none

/-- The names that a log says were overwritten, each as often as it is said. -/
def overwrittenIn (log : List LogEntry) : List String :=
  (log.filterMap LogEntry.event?).filterMap Event.overwritten?

/-- The names that a verdict captures. -/
def Verdict.names : Verdict → List String
  | capture captures => captures.names
  | reject | accept => []

mutual

/-- The names of the extractions in a pattern, with or without a matcher. -/
def Pattern.extracted : Pattern → List String
  | .literal _ => []
  | .mapping entries => Pattern.extractedEntries entries
  | .sequence items => Pattern.extractedItems items
  | .predicate test => Predicate.extracted test

/-- The names of the extractions in the patterns of entries. -/
def Pattern.extractedEntries : List (String × Pattern) → List String
  | [] => []
  | (_, entry) :: rest => Pattern.extracted entry ++ Pattern.extractedEntries rest

/-- The names of the extractions in items. -/
def Pattern.extractedItems : List Pattern → List String
  | [] => []
  | item :: rest => Pattern.extracted item ++ Pattern.extractedItems rest

/-- The names of the extractions that a predicate makes, its own first. -/
def Predicate.extracted : Predicate → List String
  | .mk _ action => Action.extracted action

/-- The names of the extractions that an action makes. A function may capture names, but extracts nothing. -/
def Action.extracted : Action → List String
  | .check _ => []
  | .adapt pattern => Pattern.extracted pattern
  | .extract name => [name]
  | .extractWith name pattern => name :: Pattern.extracted pattern
  | .exact items => Pattern.extractedItems items

end

/-- The names that a function captures where it is called. -/
def Demand.captured (node : Node) : Demand → List String
  | leaf (.mk _ (.check judge)) => (judge node).value.names
  | _ => []

/-- The names that the function of a stop captures on the part of the candidate at its place, if there is one. -/
def Stop.captured (root : Node) (stop : Stop) : List String :=
  match root.at? stop.place with
  | some node => stop.demand.captured node
  | none => []

/-- The names that the functions of a pattern capture, each on the part of the candidate at its place. -/
def Pattern.captured (candidate : Node) (pattern : Pattern) : List String :=
  pattern.stops.flatMap (Stop.captured candidate)

/-- What a match makes is what it keeps and what it reports as overwritten. -/
structure Conserves (made : List String) (captures : Captures) (overwritten : List String) : Prop where
  count : overwritten.length + captures.size = made.length
  /-- No name is lost or reported more often than it was made. -/
  names : (overwritten ++ captures.names).Perm made

/-! ## The balance of a match -/

theorem overwrittenIn_append (first later : List LogEntry) :
    overwrittenIn (first ++ later) = overwrittenIn first ++ overwrittenIn later := by
  simp [overwrittenIn]

theorem overwrittenIn_reports (names : List String) :
    overwrittenIn ((names.map Event.captureOverwritten).map .event) = names := by
  simp [overwrittenIn, List.filterMap_map, Function.comp_def, LogEntry.event?, Event.overwritten?]

/-- What a stop brings in: what a function captures there, and what it reports itself. -/
def Stop.yield (root : Node) (stop : Stop) : List String :=
  stop.captured root ++ overwrittenIn (stop.log root)

/-- Name by name, what was held, extracted and brought in at the stops is what is held at last and what the
log says was overwritten. -/
def Balances (root : Node) (stops : List Stop) (extracted held : List String) (log : List LogEntry)
    (final : List String) : Prop :=
  ∀ name, (overwrittenIn log).count name + final.count name =
    held.count name + extracted.count name + (stops.flatMap (Stop.yield root)).count name

theorem Stop.Moves.yields {root part : Node} {change : Stop → Stop} (moves : Moves root part change)
    (stops : List Stop) : (stops.map change).flatMap (Stop.yield root) = stops.flatMap (Stop.yield part) := by
  rw [List.flatMap_map]
  have same : ∀ stop, (change stop).yield root = stop.yield part := by
    intro stop
    rw [yield, yield, captured, captured, log, log, moves.place, moves.demand]
  simp only [same]

/-- A capture that is in both is reported once and kept once, any other is only kept. -/
theorem Captures.count_merge (held found : Captures) (name : String) :
    (held.overwritten found).count name + (held.merge found).names.count name =
      held.names.count name + found.names.count name := by
  have occurs : ∀ captures : Captures,
      captures.names.count name = if (captures.get? name).isSome then 1 else 0 := by
    intro captures
    have distinct : captures.names.Nodup := captures.ascending.nodup
    rw [distinct.count, get?]
    exact if_congr Fields.isSome_lookup_iff.symm rfl rfl
  have again : (held.overwritten found).count name =
      if (held.get? name).isSome then found.names.count name else 0 := by
    rw [overwritten]
    by_cases bound : (held.get? name).isSome = true
    · rw [if_pos bound]
      exact List.count_filter bound
    · rw [if_neg bound, List.count_eq_zero]
      exact fun member => bound (List.mem_filter.1 member).2
  rw [again, occurs, occurs, occurs, get?_merge]
  cases held.get? name <;> cases found.get? name <;> simp

namespace Balances

variable {root part : Node} {first later stops : List Stop} {extracted more held mid final : List String}
  {log rest : List LogEntry}

theorem nil (root : Node) (held : List String) : Balances root [] [] held [] held := by
  intro name
  simp [overwrittenIn]

theorem append (balance : Balances root first extracted held log mid)
    (next : Balances root later more mid rest final) :
    Balances root (first ++ later) (extracted ++ more) held (log ++ rest) final := by
  intro name
  have one := balance name
  have two := next name
  simp only [overwrittenIn_append, List.flatMap_append, List.count_append]
  omega

theorem moved {change : Stop → Stop} (moves : Stop.Moves root part change)
    (balance : Balances part stops extracted held log final) :
    Balances root (stops.map change) extracted held log final := by
  intro name
  rw [moves.yields]
  exact balance name

/-- A stop that only asks brings in nothing. -/
theorem asked {demand : Demand} (structural : ∀ test, demand ≠ .leaf test)
    (balance : Balances root stops extracted held log final) :
    Balances root (.here demand :: stops) extracted held log final := by
  have nothing : (Stop.here demand).yield root = [] := by
    cases demand with
    | leaf test => exact absurd rfl (structural test)
    | _ => rfl
  intro name
  rw [List.flatMap_cons, nothing, List.nil_append]
  exact balance name

/-- Captures found on their own are merged over those held. -/
theorem merge {found : Captures} (balance : Balances root stops extracted [] log found.names) (held : Captures) :
    Balances root stops extracted held.names
      (log ++ ((held.overwritten found).map Event.captureOverwritten).map .event) (held.merge found).names := by
  intro name
  have inside := balance name
  have merged := held.count_merge found name
  rw [List.count_nil] at inside
  rw [overwrittenIn_append, overwrittenIn_reports, List.count_append]
  omega

end Balances

namespace Verdict

variable {verdict : Verdict} {found : Captures}

theorem names_of_captures? (gives : verdict.captures? = some found) : verdict.names = found.names := by
  cases verdict <;> cases gives <;> rfl

theorem log_apply (gives : verdict.captures? = some found) (label : String) (held : Captures) :
    (verdict.apply label held).log = ((held.overwritten found).map Event.captureOverwritten).map .event := by
  cases verdict with
  | reject => cases gives
  | accept => cases gives; rfl
  | capture captures =>
    cases gives
    rw [apply, Logged.log_map, Captures.log_mergeLogged]

theorem log_beneath (gives : verdict.captures? = some found) (name : String) (candidate : Node) :
    (verdict.beneath name candidate).log =
      (((Captures.single name candidate).overwritten found).map Event.captureOverwritten).map .event := by
  cases verdict with
  | reject => cases gives
  | accept => cases gives; rfl
  | capture captures =>
    cases gives
    rw [beneath, Logged.log_map, Captures.log_mergeLogged]

end Verdict

namespace Balances

variable {root : Node} {stops : List Stop} {extracted : List String}

/-- Applying a predicate that does not reject. -/
theorem apply {called : Logged Verdict} {captures : Captures} (label : String) (held : Captures)
    (balance : ∀ found, called.value.captures? = some found →
      Balances root stops extracted [] called.log found.names)
    (matched : (called >>= fun verdict => verdict.apply label held).value = some captures) :
    Balances root (stops.map (.within label)) extracted held.names
      (called >>= fun verdict => verdict.apply label held).log captures.names := by
  rw [Logged.value_bind, Verdict.value_apply] at matched
  obtain ⟨found, gives, rfl⟩ := Option.map_eq_some_iff.1 matched
  rw [Logged.log_bind, Verdict.log_apply gives]
  exact moved (Stop.moves_within root label) ((balance found gives).merge held)

/-- Binding the candidate beneath what was captured inside it makes one more binding. -/
theorem beneath {called : Logged Verdict} {captures : Captures} (name : String)
    (balance : ∀ found, called.value.captures? = some found →
      Balances root stops extracted [] called.log found.names)
    (gives : (called >>= fun verdict => verdict.beneath name root).value.captures? = some captures) :
    Balances root stops (name :: extracted) []
      (called >>= fun verdict => verdict.beneath name root).log captures.names := by
  rw [Logged.value_bind, Verdict.captures?_beneath] at gives
  obtain ⟨found, inside, rfl⟩ := Option.map_eq_some_iff.1 gives
  rw [Logged.log_bind, Verdict.log_beneath inside]
  have merged := (balance found inside).merge (.single name root)
  have own : (Captures.single name root).names = [name] := rfl
  intro other
  have count := merged other
  rw [own] at count
  rw [count, List.count_nil, List.count_cons, List.count_cons, List.count_nil]
  omega

/-- A matcher that is no predicate starts a match of its own. -/
theorem matcher {pattern : Pattern} {captures : Captures} (label name : String)
    (structural : ∀ test, pattern ≠ .predicate test)
    (balance : ∀ found, (pattern.walk root .empty).value = some found →
      Balances root pattern.stops pattern.extracted [] (pattern.walk root .empty).log found.names)
    (gives : ((Action.extractWith name pattern).judge root).value.captures? = some captures) :
    Balances root ((Action.extractWith name pattern).stops label) (Action.extractWith name pattern).extracted []
      ((Action.extractWith name pattern).judge root).log captures.names := by
  have adapted : ∀ found, (Verdict.ofOption <$> pattern.walk root .empty).value.captures? = some found →
      Balances root pattern.stops pattern.extracted [] (Verdict.ofOption <$> pattern.walk root .empty).log
        found.names := by
    intro found inside
    rw [Logged.value_map, Verdict.captures?_ofOption] at inside
    exact balance found inside
  cases pattern with
  | predicate test => exact absurd rfl (structural test)
  | _ =>
    rw [Action.judge] at gives ⊢
    · exact beneath name adapted gives
    all_goals simp

/-- A walk goes on with what it has found so far. -/
theorem next {walked : Logged (Option Captures)} {goOn : Captures → Logged (Option Captures)}
    {first later : List Stop} {more held : List String} {captures : Captures}
    (balance : ∀ found, walked.value = some found → Balances root first extracted held walked.log found.names)
    (rest : ∀ found, (goOn found).value = some captures →
      Balances root later more found.names (goOn found).log captures.names)
    (matched : (walked >>= fun | none => pure none | some found => goOn found).value = some captures) :
    Balances root (first ++ later) (extracted ++ more) held
      (walked >>= fun | none => pure none | some found => goOn found).log captures.names := by
  obtain ⟨result, log⟩ := walked
  cases result with
  | none => cases matched
  | some found => exact (balance found rfl).append (rest found matched)

end Balances

mutual

-- The captures held before are kept general: a walk goes on with those that it has found so far.

/-- A walk that succeeds keeps the balance. -/
theorem balances_walk (candidate : Node) (held : Captures) (pattern : Pattern) {captures : Captures}
    (matched : (pattern.walk candidate held).value = some captures) :
    Balances candidate pattern.stops pattern.extracted held.names (pattern.walk candidate held).log
      captures.names := by
  match pattern with
  | .literal expected =>
    rw [Pattern.walk] at matched ⊢
    rw [Pattern.stops, Pattern.extracted]
    split at matched
    · rename_i contained
      cases matched
      rw [if_pos contained]
      exact (Balances.nil candidate held.names).asked nofun
    · cases matched
  | .mapping entries =>
    rw [Pattern.walk] at matched ⊢
    rw [Pattern.stops, Pattern.extracted]
    cases candidate with
    | object fields => exact (balances_walkEntries (.object fields) fields rfl held entries matched).asked nofun
    | _ => cases matched
  | .sequence items =>
    rw [Pattern.walk] at matched ⊢
    rw [Pattern.stops, Pattern.extracted]
    cases candidate with
    | array elements =>
      simp only [Node.items?] at matched ⊢
      split at matched
      · cases matched
      · rename_i enough
        rw [if_neg enough]
        exact (balances_walkItems elements 0 held items (by omega) matched).asked nofun
    | _ => cases matched
  | .predicate test =>
    rw [Pattern.walk] at matched ⊢
    rw [Pattern.stops, Pattern.extracted]
    exact Balances.apply test.label held (fun _ gives => balances_call candidate test gives) matched

theorem balances_walkEntries (candidate : Node) (fields : List (String × Node))
    (shape : candidate.fields? = some fields) (held : Captures) (entries : List (String × Pattern))
    {captures : Captures} (matched : (Pattern.walkEntries fields held entries).value = some captures) :
    Balances candidate (Pattern.stopsEntries entries) (Pattern.extractedEntries entries) held.names
      (Pattern.walkEntries fields held entries).log captures.names := by
  match entries with
  | [] =>
    cases matched
    exact .nil candidate held.names
  | (key, entry) :: rest =>
    rw [Pattern.walkEntries] at matched ⊢
    rw [Pattern.stopsEntries, Pattern.extractedEntries]
    cases listed : fields.lookup key with
    | none =>
      rw [listed] at matched
      cases matched
    | some value =>
      rw [listed] at matched
      have leads : candidate.step? (.key key) = some value := by
        rw [Node.step?, Node.field?, shape, Option.bind_some, listed]
      refine Balances.asked nofun (Balances.next (fun found walked => ?_) (fun found walked => ?_) matched)
      · exact (balances_walk value held entry walked).moved (Stop.moves_below leads)
      · exact balances_walkEntries candidate fields shape found rest walked

theorem balances_walkItems (elements : List Node) (index : Nat) (held : Captures) (items : List Pattern)
    (enough : index + items.length ≤ elements.length) {captures : Captures}
    (matched : (Pattern.walkItems (elements.drop index) held items).value = some captures) :
    Balances (.array elements) (Pattern.stopsItems index items) (Pattern.extractedItems items) held.names
      (Pattern.walkItems (elements.drop index) held items).log captures.names := by
  match items with
  | [] =>
    rw [Pattern.walkItems.eq_def] at matched ⊢
    cases matched
    exact .nil (.array elements) held.names
  | item :: rest =>
    rw [List.length_cons] at enough
    have inside : index < elements.length := by omega
    rw [List.drop_eq_getElem_cons inside, Pattern.walkItems] at matched ⊢
    rw [Pattern.stopsItems, Pattern.extractedItems]
    have leads : (Node.array elements).step? (.index index) = some elements[index] := by
      rw [Node.step?, Node.element?, Node.items?, Option.bind_some, List.getElem?_eq_getElem inside]
    refine Balances.next (fun found walked => ?_) (fun found walked => ?_) matched
    · exact (balances_walk elements[index] held item walked).moved (Stop.moves_below leads)
    · exact balances_walkItems elements (index + 1) found rest (by omega) walked

theorem balances_call (candidate : Node) (test : Predicate) {found : Captures}
    (gives : (test.call candidate).value.captures? = some found) :
    Balances candidate test.stops test.extracted [] (test.call candidate).log found.names := by
  match test with
  | .mk label action => exact balances_judge candidate label action gives

theorem balances_judge (candidate : Node) (label : String) (action : Action) {found : Captures}
    (gives : (action.judge candidate).value.captures? = some found) :
    Balances candidate (action.stops label) action.extracted [] (action.judge candidate).log found.names := by
  match action with
  | .check judge =>
    -- What the function captures and reports is what its stop brings in.
    intro name
    have captured := Verdict.names_of_captures? gives
    rw [Action.judge] at captured ⊢
    simp [Action.stops, Action.extracted, Stop.yield, Stop.captured, Stop.log, Stop.here, Demand.captured,
      Demand.log, Predicate.run, Predicate.call, Action.judge, captured]
    omega
  | .adapt pattern =>
    rw [Action.judge, Logged.value_map, Verdict.captures?_ofOption] at gives
    rw [Action.judge, Action.stops, Action.extracted, Logged.log_map]
    exact balances_walk candidate .empty pattern gives
  | .extract name =>
    cases gives
    intro other
    rfl
  | .extractWith name (.predicate inner) =>
    rw [Action.judge] at gives ⊢
    exact Balances.beneath name (fun _ inside => balances_call candidate inner inside) gives
  | .extractWith name (.literal expected) =>
    exact Balances.matcher label name nofun (fun _ walked => balances_walk candidate .empty _ walked) gives
  | .extractWith name (.mapping entries) =>
    exact Balances.matcher label name nofun (fun _ walked => balances_walk candidate .empty _ walked) gives
  | .extractWith name (.sequence items) =>
    exact Balances.matcher label name nofun (fun _ walked => balances_walk candidate .empty _ walked) gives
  | .exact items =>
    rw [Action.judge] at gives ⊢
    rw [Action.stops, Action.extracted]
    cases candidate with
    | array elements =>
      simp only [Node.items?] at gives ⊢
      split at gives
      · rename_i same
        rw [if_pos same]
        rw [Logged.value_map, Verdict.captures?_ofOption] at gives
        rw [Logged.log_map]
        exact (balances_walkItems elements 0 .empty items (by omega) gives).asked nofun
      · cases gives
    | _ => cases gives

end

/-! ## Extractions of a document -/

theorem Extraction.map_name_under (step : String) (extractions : List Extraction) :
    (extractions.map (.under step)).map Extraction.name = extractions.map Extraction.name := by
  rw [List.map_map]
  rfl

namespace Document

theorem extractedItems_toPatternItems {items : List Document}
    (each : ∀ item ∈ items, item.toPattern.extracted = item.extractions.map Extraction.name) (index : Nat) :
    Pattern.extractedItems (toPatternItems items) = (extractionsItems index items).map Extraction.name := by
  induction items generalizing index with
  | nil => rfl
  | cons item rest ih =>
    obtain ⟨first, others⟩ := List.forall_mem_cons.1 each
    rw [toPatternItems, Pattern.extractedItems, extractionsItems, List.map_append, Extraction.map_name_under,
      first, ih others (index + 1)]

theorem extractedEntries_toPatternEntries {entries : List (String × Document)}
    (each : ∀ entry ∈ entries, entry.2.toPattern.extracted = entry.2.extractions.map Extraction.name) :
    Pattern.extractedEntries (toPatternEntries entries) = (extractionsEntries entries).map Extraction.name := by
  induction entries with
  | nil => rfl
  | cons entry rest ih =>
    obtain ⟨first, others⟩ := List.forall_mem_cons.1 each
    rw [toPatternEntries, Pattern.extractedEntries, extractionsEntries, List.map_append,
      Extraction.map_name_under, first, ih others]

/-- The pattern of a document extracts what the document does, in the same order. -/
theorem extracted_toPattern (document : Document) :
    document.toPattern.extracted = document.extractions.map Extraction.name := by
  induction document with
  | scalar value | literal value | extract name => rfl
  | array items ih =>
    rw [toPattern, Pattern.extracted, extractions]
    exact extractedItems_toPatternItems ih 0
  | mapping entries ih =>
    rw [toPattern, Pattern.extracted, extractions]
    exact extractedEntries_toPatternEntries ih
  | exact items ih =>
    rw [toPattern, Pattern.extracted, extractions, Extraction.map_name_under]
    exact extractedItems_toPatternItems ih 0
  | extractWith name inner ih =>
    rw [toPattern, Pattern.extracted, extractions, List.map_cons, Extraction.map_name_under, ← ih]
    rfl

end Document

/-- Whether it is no function that is asked, and nothing is logged then. -/
def Demand.Bare : Demand → Prop
  | leaf (.mk _ (.extract _)) => True
  | leaf _ => False
  | _ => True

theorem Demand.Bare.silent {demand : Demand} (bare : demand.Bare) (node : Node) :
    demand.captured node = [] ∧ demand.log node = [] := by
  cases demand with
  | leaf test =>
    obtain ⟨label, action⟩ := test
    cases action with
    | extract name => exact ⟨rfl, rfl⟩
    | _ => exact bare.elim
  | _ => exact ⟨rfl, rfl⟩

theorem Stop.yield_of_bare {stop : Stop} (bare : stop.demand.Bare) (root : Node) : stop.yield root = [] := by
  rw [yield, captured, log]
  cases root.at? stop.place with
  | none => rfl
  | some node =>
    obtain ⟨captured, logged⟩ := bare.silent node
    simp only [captured, logged]
    rfl

/-- An extraction asks what its matcher asks. -/
theorem exists_stop_of_extractWith {name : String} {pattern : Pattern} {stop : Stop}
    (listed : stop ∈ (Predicate.extractWith name pattern).stops) :
    ∃ other ∈ pattern.stops, other.demand = stop.demand := by
  rw [Predicate.extractWith, Predicate.stops] at listed
  cases pattern with
  | predicate inner =>
    rw [Action.stops] at listed
    rw [Pattern.stops]
    exact ⟨stop.within inner.label, List.mem_map_of_mem listed, rfl⟩
  | _ =>
    rw [Action.stops] at listed
    · exact ⟨stop, listed, rfl⟩
    all_goals simp

namespace Document

theorem bare_toPatternItems {items : List Document}
    (each : ∀ item ∈ items, ∀ stop ∈ item.toPattern.stops, stop.demand.Bare) (index : Nat) :
    ∀ stop ∈ Pattern.stopsItems index (toPatternItems items), stop.demand.Bare := by
  induction items generalizing index with
  | nil => exact nofun
  | cons item rest ih =>
    obtain ⟨first, others⟩ := List.forall_mem_cons.1 each
    rw [toPatternItems, Pattern.stopsItems]
    exact List.forall_mem_append.2 ⟨List.forall_mem_map.2 first, ih others (index + 1)⟩

theorem bare_toPatternEntries {entries : List (String × Document)}
    (each : ∀ entry ∈ entries, ∀ stop ∈ entry.2.toPattern.stops, stop.demand.Bare) :
    ∀ stop ∈ Pattern.stopsEntries (toPatternEntries entries), stop.demand.Bare := by
  induction entries with
  | nil => exact nofun
  | cons entry rest ih =>
    obtain ⟨first, others⟩ := List.forall_mem_cons.1 each
    rw [toPatternEntries, Pattern.stopsEntries, List.forall_mem_cons]
    exact ⟨trivial, List.forall_mem_append.2 ⟨List.forall_mem_map.2 first, ih others⟩⟩

/-- No function is called in the pattern of a document. -/
theorem bare_toPattern (document : Document) : ∀ stop ∈ document.toPattern.stops, stop.demand.Bare := by
  induction document with
  | scalar value | literal value | extract name => exact List.forall_mem_singleton.2 trivial
  | array items ih =>
    rw [toPattern, Pattern.stops, List.forall_mem_cons]
    exact ⟨trivial, bare_toPatternItems ih 0⟩
  | mapping entries ih =>
    rw [toPattern, Pattern.stops, List.forall_mem_cons]
    exact ⟨trivial, bare_toPatternEntries ih⟩
  | exact items ih =>
    rw [toPattern, Pattern.stops]
    exact List.forall_mem_map.2 (List.forall_mem_cons.2 ⟨trivial, bare_toPatternItems ih 0⟩)
  | extractWith name inner ih =>
    rw [toPattern, Pattern.stops]
    refine List.forall_mem_map.2 fun stop listed => ?_
    obtain ⟨other, listed, same⟩ := exists_stop_of_extractWith listed
    have bare := ih other listed
    rw [same] at bare
    exact bare

end Document

theorem Lists.encard {root : Node} {extractions : List Extraction} (lists : Lists root extractions) :
    {extraction : Extraction | root.Extracts extraction.steps extraction.name}.encard = extractions.length := by
  have distinct : extractions.Nodup :=
    lists.ordered.imp fun before same => before.ne (congrArg Extraction.steps same)
  have same : {extraction : Extraction | root.Extracts extraction.steps extraction.name} =
      {extraction | extraction ∈ extractions} :=
    Set.ext fun extraction => (lists.complete extraction).symm
  rw [same]
  classical
  have finset : {extraction | extraction ∈ extractions} = (extractions.toFinset : Set Extraction) := by
    simp
  rw [finset, Set.encard_coe_eq_coe_finsetCard, List.toFinset_card_of_nodup distinct]

/-! ## Conservation -/

theorem Balances.conserves {root : Node} {stops : List Stop} {extracted captured : List String}
    {log : List LogEntry} {captures : Captures} (balance : Balances root stops extracted [] log captures.names)
    (brought : stops.flatMap (Stop.yield root) = captured) :
    Conserves (extracted ++ captured) captures (overwrittenIn log) := by
  have names : (overwrittenIn log ++ captures.names).Perm (extracted ++ captured) := by
    rw [List.perm_iff_count]
    intro name
    have count := balance name
    rw [brought] at count
    rw [List.count_append, List.count_append, count, List.count_nil, Nat.zero_add]
  refine ⟨?_, names⟩
  have length := names.length_eq
  rw [List.length_append, Captures.names, Fields.names, List.length_map] at length
  exact length

theorem Pattern.brought_of_silent {pattern : Pattern}
    (silent : ∀ leaf ∈ pattern.leaves, ∀ node, (leaf.2.run node).events = []) (candidate : Node) :
    pattern.stops.flatMap (Stop.yield candidate) = pattern.captured candidate := by
  refine List.flatMap_congr fun stop listed => ?_
  rw [Stop.yield, overwrittenIn, events_stop silent listed, List.filterMap_nil, List.append_nil]

/-- A successful match keeps a binding or reports it as overwritten, where the functions of the pattern
report nothing of their own. Of a compiled document, the bindings made are its extractions. -/
theorem run_conserves :
    (∀ (pattern : Pattern) (candidate : Node) (captures : Captures),
      (∀ leaf ∈ pattern.leaves, ∀ node, (leaf.2.run node).events = []) →
      pattern.match? candidate = some captures →
        Conserves (pattern.extracted ++ pattern.captured candidate) captures
          ((pattern.run candidate).events.filterMap Event.overwritten?)) ∧
    ∀ (root : Node) (pattern : Pattern) (candidate : Node) (captures : Captures), root.WellFormed →
      (Document.compile root).value = .ok pattern → pattern.match? candidate = some captures →
        {extraction : Extraction | root.Extracts extraction.steps extraction.name}.encard =
          ((pattern.run candidate).events.filterMap Event.overwritten?).length + captures.size := by
  constructor
  · intro pattern candidate captures silent matched
    rw [Logged.events_eq]
    exact (balances_walk candidate .empty pattern matched).conserves (pattern.brought_of_silent silent candidate)
  · intro root pattern candidate captures wellFormed compiled matched
    obtain ⟨document, proper, rfl, rfl⟩ := Document.compile_eq_ok_iff.1 compiled
    have none : document.toPattern.stops.flatMap (Stop.yield candidate) = [] :=
      List.flatMap_eq_nil_iff.2 fun stop listed => Stop.yield_of_bare (document.bare_toPattern stop listed) candidate
    have conserves := (balances_walk candidate .empty document.toPattern matched).conserves none
    rw [(Document.lists_extractions proper wellFormed).encard, Logged.events_eq]
    have count := conserves.count
    rw [List.append_nil, document.extracted_toPattern, List.length_map] at count
    exact_mod_cast count.symm

/-- A name is extracted around and inside an exact array and then captured by a function, with another
name. A document extracts one name three times and another one once. -/
theorem run_conserves_repeated :
    let both := Predicate.check fun node => pure (.capture (.ofList [("x", node), ("y", .null)]))
    let pattern := Pattern.mapping [
      ("a", .predicate (.extractWith "x" (.predicate (.exact [.predicate (.extract "x")])))),
      ("b", .predicate both)]
    let root := Node.object [
      ("a", .object [("$extract", .string "x"), ("$match", .object [("$exact", .array [
        .object [("$extract", .string "x")]])])]),
      ("b", .array [.object [("$extract", .string "x")], .object [("$extract", .string "y")]])]
    let candidate := Node.object [("a", .array [.null]), ("b", .array [.bool true, .bool false])]
    ∃ captures compiled found,
      (∀ leaf ∈ pattern.leaves, ∀ node, (leaf.2.run node).events = []) ∧
      pattern.match? candidate = some captures ∧
      pattern.extracted ++ pattern.captured candidate = ["x", "x", "x", "y"] ∧
      Conserves (pattern.extracted ++ pattern.captured candidate) captures
        ((pattern.run candidate).events.filterMap Event.overwritten?) ∧
      root.WellFormed ∧ (Document.compile root).value = .ok compiled ∧
      compiled.match? candidate = some found ∧
      (compiled.run candidate).events.filterMap Event.overwritten? = ["x", "x"] ∧ found.size = 2 ∧
      {extraction : Extraction | root.Extracts extraction.steps extraction.name}.encard =
        ((compiled.run candidate).events.filterMap Event.overwritten?).length + found.size := by
  intro both pattern root candidate
  have leaves : pattern.leaves = [([.key "a", .index 0], .extract "x"), ([.key "b"], both)] := rfl
  have silent : ∀ leaf ∈ pattern.leaves, ∀ node, (leaf.2.run node).events = [] := by
    rw [leaves]
    simp only [List.forall_mem_cons]
    exact ⟨fun _ => rfl, fun _ => rfl, nofun⟩
  have wellFormed : root.WellFormed := by
    simp only [root, Node.WellFormed, Node.WellFormedFields, Node.WellFormedItems, and_true, true_and]
    decide
  obtain ⟨captures, matched⟩ : ∃ captures, pattern.match? candidate = some captures := ⟨_, rfl⟩
  obtain ⟨compiled, reads⟩ : ∃ compiled, (Document.compile root).value = .ok compiled := ⟨_, rfl⟩
  obtain ⟨found, fits, size, overwritten⟩ : ∃ found, compiled.match? candidate = some found ∧ found.size = 2 ∧
      (compiled.run candidate).events.filterMap Event.overwritten? = ["x", "x"] := by
    cases reads
    exact ⟨_, rfl, rfl, rfl⟩
  exact ⟨captures, compiled, found, silent, matched, rfl, run_conserves.1 pattern candidate captures silent matched,
    wellFormed, reads, fits, overwritten, size,
    run_conserves.2 root compiled candidate found wellFormed reads fits⟩

end TreeMatch
