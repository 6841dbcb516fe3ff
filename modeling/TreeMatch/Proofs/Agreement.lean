import TreeMatch.Main
import TreeMatch.Proofs.PrintedTrees
import TreeMatch.Proofs.Stages

/-!
# The tasks of a run compared

A match, a search and a search for the first match go the same way up to the tree, so they fail alike. Behind it,
the search tries the root first: it finds what the match finds there before all else, and the search for the first
match stops at the head of the same list. What they print says so (`run_agrees`), because the text of a result
determines it. Only the log tells the three apart, and without options nothing gets into it
(`logsNothing_standardFilter`).
-/

namespace TreeMatch

/-! ## The way to the answer -/

theorem value_fail (surroundings : Surroundings) (log? : Option LogSettings) (output : List UInt8) (error : RunError) :
    (surroundings.fail log? output error).value =
      ⟨.failure, output, Stream.taken surroundings.errorRoom? (bytesOf (error.message ++ "\n")), log?⟩ := by
  rw [Surroundings.fail]
  split <;> rfl

/-- What a run leaves behind that prints its answer. -/
def Answer.outcome (log? : Option LogSettings) (answer : Answer) : Outcome :=
  ⟨answer.status, bytesOf (answer.text ++ "\n"), [], log?⟩

theorem value_finish {surroundings : Surroundings} (unlimited : surroundings.outputRoom? = none)
    (log? : Option LogSettings) (answer : Answer) :
    (surroundings.finish log? answer).value = answer.outcome log? := by
  rw [Surroundings.finish, unlimited]
  rfl

theorem wellFormed_of_loadTree {reasons : Reasons} {origin : String} {bytes : Except String ByteArray} {tree : Node}
    (loaded : (loadTree reasons origin bytes).value = .ok tree) : tree.WellFormed := by
  rw [value_loadTree] at loaded
  split at loaded
  · cases loaded
  · split at loaded
    · rename_i read
      cases loaded
      exact Json.wellFormed_of_read? read
    · cases loaded

/-- The settings of the log, if there are any, are those that the invocation sets up. -/
def Invocation.SetsUp (invocation : Invocation) (surroundings : Surroundings) (log? : Option LogSettings) : Prop :=
  ∀ settings, log? = some settings → invocation.setUpLog surroundings = .ok (some settings)

/-- The same surroundings, with other rooms in the streams. -/
def Surroundings.withRooms (surroundings : Surroundings) (outputRoom? errorRoom? : Option Nat) : Surroundings :=
  { surroundings with outputRoom? := outputRoom?, errorRoom? := errorRoom? }

/-- Whatever the task is and however much the streams take, an invocation fails for one reason, or it comes to one
pattern and one tree. -/
theorem Invocation.way (invocation : Invocation) (surroundings : Surroundings) :
    ∃ log?, invocation.SetsUp surroundings log? ∧
      ((∃ error, ∀ task outputRoom? errorRoom?,
        (Invocation.run { invocation with task := task } (surroundings.withRooms outputRoom? errorRoom?)).value =
          ((surroundings.withRooms outputRoom? errorRoom?).fail log? [] error).value) ∨
        ∃ pattern tree, tree.WellFormed ∧ ∀ task outputRoom? errorRoom?,
          (Invocation.run { invocation with task := task } (surroundings.withRooms outputRoom? errorRoom?)).value =
            ((surroundings.withRooms outputRoom? errorRoom?).finish log? (task.perform pattern tree).value).value) := by
  have sameReasons (outputRoom? errorRoom? : Option Nat) :
      (surroundings.withRooms outputRoom? errorRoom?).reasons = surroundings.reasons := rfl
  have sameFile (outputRoom? errorRoom? : Option Nat) :
      (surroundings.withRooms outputRoom? errorRoom?).file = surroundings.file := rfl
  have sameLog (task : Task) (outputRoom? errorRoom? : Option Nat) :
      Invocation.setUpLog { invocation with task := task } (surroundings.withRooms outputRoom? errorRoom?) =
        invocation.setUpLog surroundings := rfl
  have sameOrigin (task : Task) : Invocation.origin { invocation with task := task } = invocation.origin := rfl
  have sameBytes (task : Task) (outputRoom? errorRoom? : Option Nat) :
      Invocation.treeBytes { invocation with task := task } (surroundings.withRooms outputRoom? errorRoom?) =
        invocation.treeBytes surroundings := rfl
  simp only [value_run, value_answer, sameReasons, sameFile, sameLog, sameOrigin, sameBytes]
  cases logged : invocation.setUpLog surroundings with
  | error error => exact ⟨none, nofun, .inl ⟨error, fun _ _ _ => rfl⟩⟩
  | ok log? =>
    have setsUp : invocation.SetsUp surroundings log? := by
      rintro settings rfl
      exact logged
    refine ⟨log?, setsUp, ?_⟩
    cases (loadPattern surroundings.reasons invocation.pattern (surroundings.file invocation.pattern)).value with
    | error error => exact .inl ⟨error, fun _ _ _ => rfl⟩
    | ok pattern =>
      cases loaded : (loadTree surroundings.reasons invocation.origin (invocation.treeBytes surroundings)).value with
      | error error => exact .inl ⟨error, fun _ _ _ => rfl⟩
      | ok tree => exact .inr ⟨pattern, tree, wellFormed_of_loadTree loaded, fun _ _ _ => rfl⟩

/-- In fixed surroundings this depends on the invocation alone. -/
theorem Invocation.common_way (invocation : Invocation) (surroundings : Surroundings) :
    ∃ log?, invocation.SetsUp surroundings log? ∧
      ((∃ error, ∀ task, (Invocation.run { invocation with task := task } surroundings).value =
          (surroundings.fail log? [] error).value) ∨
        ∃ pattern tree, tree.WellFormed ∧ ∀ task,
          (Invocation.run { invocation with task := task } surroundings).value =
            (surroundings.finish log? (task.perform pattern tree).value).value) := by
  obtain ⟨log?, setsUp, ⟨error, fails⟩ | ⟨pattern, tree, wellFormed, answers⟩⟩ := invocation.way surroundings
  · exact ⟨log?, setsUp, .inl ⟨error, fun task => fails task surroundings.outputRoom? surroundings.errorRoom?⟩⟩
  · exact ⟨log?, setsUp, .inr ⟨pattern, tree, wellFormed,
      fun task => answers task surroundings.outputRoom? surroundings.errorRoom?⟩⟩

/-! ## The root -/

/-- What matches at the root is found before all else. -/
theorem Pattern.head?_findAll_iff {pattern : Pattern} {root : Node} (wellFormed : root.WellFormed)
    {captures : Captures} :
    (pattern.findAll root).value.head? = some ⟨"", captures⟩ ↔ pattern.match? root = some captures := by
  constructor
  · intro first
    obtain ⟨steps, node, leads, matched, path⟩ := (mem_findAll_iff wellFormed).1 (List.mem_of_mem_head? first)
    obtain rfl : steps = [] := Pointer.ofSteps_injective path
    cases leads
    exact matched
  · intro matched
    have found : pattern.foundAt? ([], root) = some ⟨"", captures⟩ := foundAt?_eq_some_iff.2 ⟨matched, rfl⟩
    rw [value_findAll, Node.places_eq, List.filterMap_cons_some found]
    rfl

/-! ## What is printed -/

/-- Standard output is the text of a tree, with a line end behind it. -/
def Outcome.Prints (outcome : Outcome) (node : Node) : Prop :=
  outcome.output = bytesOf (Json.pretty node ++ "\n")

theorem bytesOf_append (a b : String) : bytesOf (a ++ b) = bytesOf a ++ bytesOf b := by
  simp [bytesOf]

theorem bytesOf_inj {a b : String} : bytesOf a = bytesOf b ↔ a = b := by
  rw [bytesOf, bytesOf, Array.toList_inj, ← ByteArray.ext_iff]
  exact String.toByteArray_inj

theorem Outcome.Prints.iff_alike {outcome : Outcome} {node other : Node} (prints : outcome.Prints node) :
    outcome.Prints other ↔ other.Alike node := by
  rw [Prints, prints, bytesOf_inj, ← Json.pretty_eq_iff]
  constructor
  · intro same
    simpa using same.symm
  · intro same
    rw [same]

/-- How a match, a search and a search for the first match end. -/
structure Agree (whole all first : Outcome) : Prop where
  /-- Both searches end in the same way. -/
  status : first.status = all.status
  errors : first.errors = all.errors
  /-- A search that does not fail prints an array. The other search prints this array up to its first element. -/
  prints : all.status ≠ .failure → ∃ entries, all.Prints (.array entries)
  cut : ∀ entries, all.Prints (.array entries) → first.Prints (.array (entries.take 1))
  /-- The match fails if the searches do, for the same reason. -/
  failure : whole.status = .failure ↔ all.status = .failure
  reason : whole.status = .failure → whole.errors = all.errors
  /-- A match that succeeds prints captures. These are what the search reports for the root, before all else. -/
  matched : whole.status = .success → ∃ captures : Captures, whole.Prints captures.toNode
  root : ∀ captures : Captures, whole.status = .success ∧ whole.Prints captures.toNode ↔
    ∃ rest, all.Prints (.array (.object [("path", .string ""), ("captures", captures.toNode)] :: rest))
  success : whole.status = .success → all.status = .success

theorem bytesOf_line_ne_nil (text : String) : bytesOf (text ++ "\n") ≠ [] := by
  intro none
  have same : text ++ "\n" = "" := bytesOf_inj.1 (none.trans (by decide : [] = bytesOf ""))
  have longer := congrArg (fun text => text.toList) same
  simp at longer

theorem agree_of_failures {whole all first : Outcome} (wholeFails : whole.status = .failure)
    (allFails : all.status = .failure) (firstFails : first.status = .failure) (nothing : all.output = [])
    (sameWhole : whole.errors = all.errors) (sameFirst : first.errors = all.errors) : Agree whole all first := by
  have silent (node : Node) : ¬ all.Prints node := by
    intro prints
    rw [Outcome.Prints, nothing] at prints
    exact bytesOf_line_ne_nil _ prints.symm
  constructor
  · rw [firstFails, allFails]
  · exact sameFirst
  · exact fun succeeds => absurd allFails succeeds
  · exact fun entries prints => absurd prints (silent _)
  · exact iff_of_true wholeFails allFails
  · exact fun _ => sameWhole
  · intro succeeds
    cases wholeFails.symm.trans succeeds
  · intro captures
    refine iff_of_false ?_ ?_
    · rintro ⟨succeeds, -⟩
      cases wholeFails.symm.trans succeeds
    · rintro ⟨rest, prints⟩
      exact silent _ prints
  · intro succeeds
    cases wholeFails.symm.trans succeeds

namespace Answer

theorem status_ne_failure (answer : Answer) : answer.status ≠ .failure := by
  rw [status]
  cases answer.found <;> decide

theorem status_eq_success_iff (answer : Answer) : answer.status = .success ↔ answer.found = true := by
  rw [status]
  split <;> simp_all

theorem prints_outcome (log? : Option LogSettings) (answer : Answer) : (answer.outcome log?).Prints answer.node := rfl

theorem succeeds_ofMatch_iff (log? : Option LogSettings) (captures? : Option Captures) :
    ((ofMatch captures?).outcome log?).status = .success ↔ ∃ captures, captures? = some captures := by
  refine (status_eq_success_iff _).trans ?_
  cases captures? <;> simp [ofMatch]

theorem succeeds_ofSearch_iff (log? : Option LogSettings) (found : List Found) :
    ((ofSearch found).outcome log?).status = .success ↔ found ≠ [] := by
  refine (status_eq_success_iff _).trans ?_
  cases found <;> simp [ofSearch]

end Answer

/-- Entries that are printed for one another agree from the first on. -/
theorem forall₂_take_one {entries : List Node} {found : List Found}
    (alike : List.Forall₂ Node.Alike entries (found.map Found.toNode)) :
    List.Forall₂ Node.Alike (entries.take 1) (found.head?.toList.map Found.toNode) := by
  cases found with
  | nil =>
    cases alike
    exact .nil
  | cons first rest =>
    cases alike with
    | cons here later => exact .cons here .nil

/-- An entry for the root stands for the same captures. -/
theorem alike_entry_iff {captures : Captures} {entry : Found} :
    (Node.object [("path", .string ""), ("captures", captures.toNode)]).Alike entry.toNode ↔
      entry.path = "" ∧ captures.toNode.Alike entry.captures.toNode := by
  constructor
  · rintro ⟨-, path, -, alike, -⟩
    exact ⟨Eq.symm path, alike⟩
  · rintro ⟨path, alike⟩
    exact ⟨rfl, Eq.symm path, rfl, alike, trivial⟩

theorem agree_of_answers (log? : Option LogSettings) {captures? : Option Captures} {found : List Found}
    (root : ∀ captures, found.head? = some ⟨"", captures⟩ ↔ captures? = some captures) :
    Agree ((Answer.ofMatch captures?).outcome log?) ((Answer.ofSearch found).outcome log?)
      ((Answer.ofSearch found.head?.toList).outcome log?) := by
  have all := (Answer.ofSearch found).prints_outcome log?
  have first := (Answer.ofSearch found.head?.toList).prints_outcome log?
  have entered {captures : Captures} (same : captures? = some captures) :
      ∃ rest, found = ⟨"", captures⟩ :: rest :=
    List.head?_eq_some_iff.1 ((root captures).2 same)
  constructor
  · cases found <;> rfl
  · rfl
  · exact fun _ => ⟨_, all⟩
  · intro entries prints
    have alike := Node.alikeItems_iff.1 (all.iff_alike.1 prints)
    exact first.iff_alike.2 (Node.alikeItems_iff.2 (forall₂_take_one alike))
  · exact iff_of_false (Answer.status_ne_failure _) (Answer.status_ne_failure _)
  · exact fun fails => absurd fails (Answer.status_ne_failure _)
  · intro succeeds
    obtain ⟨captures, rfl⟩ := (Answer.succeeds_ofMatch_iff log? _).1 succeeds
    exact ⟨captures, rfl⟩
  · intro captures
    -- Captures that are not those of the match may be printed like them, so the entries agree only up to that.
    constructor
    · rintro ⟨succeeds, prints⟩
      obtain ⟨own, rfl⟩ := (Answer.succeeds_ofMatch_iff log? _).1 succeeds
      obtain ⟨rest, rfl⟩ := entered rfl
      have alike := ((Answer.ofMatch (some own)).prints_outcome log?).iff_alike.1 prints
      refine ⟨rest.map Found.toNode, all.iff_alike.2 ⟨alike_entry_iff.2 ⟨rfl, alike⟩, ?_⟩⟩
      exact Json.pretty_eq_iff.1 (rfl : Json.pretty (.array (rest.map Found.toNode)) = _)
    · rintro ⟨_, prints⟩
      have alike := all.iff_alike.1 prints
      cases found with
      | nil => exact alike.elim
      | cons entry rest =>
        obtain ⟨atRoot, alike⟩ := alike_entry_iff.1 alike.1
        have same : captures? = some entry.captures := (root entry.captures).1 (by rw [← atRoot]; rfl)
        subst same
        exact ⟨rfl, ((Answer.ofMatch (some entry.captures)).prints_outcome log?).iff_alike.2 alike⟩
  · intro succeeds
    obtain ⟨captures, same⟩ := (Answer.succeeds_ofMatch_iff log? _).1 succeeds
    obtain ⟨rest, rfl⟩ := entered same
    exact (Answer.succeeds_ofSearch_iff log? _).2 (List.cons_ne_nil _ _)

/-! ## Whole runs -/

/-- No event of the program gets into the log that an invocation sets up, if it sets one up. -/
def Invocation.LogsNothing (invocation : Invocation) (surroundings : Surroundings) : Prop :=
  ∀ settings, invocation.setUpLog surroundings = .ok (some settings) → ∀ event, settings.filter.takes event = false

theorem logText_of_logsNothing {invocation : Invocation} {surroundings : Surroundings} {result : Logged Outcome}
    (nothing : invocation.LogsNothing surroundings) (setsUp : invocation.SetsUp surroundings result.value.log?) :
    Program.logText result = "" := by
  rw [Program.logText]
  split
  · rename_i settings set
    have none : settings.taken result.events = [] :=
      List.filter_eq_nil_iff.2 fun event _ => Bool.not_eq_true _ ▸ nothing settings (setsUp settings set) event
    rw [none]
    rfl
  · rfl

theorem read?_standardFilter : LogFilter.read? CommandLine.standardFilter = some ⟨[⟨"", .warn⟩]⟩ := by
  have parts : CommandLine.standardFilter.splitOn "," = ["warn"] := by
    rw [CommandLine.standardFilter, String.splitOn, if_neg (by decide)]
    -- None of the four characters is a comma.
    iterate 4 rw [String.splitOnAux, if_neg (by decide), if_neg (by decide)]
    rw [String.splitOnAux, if_pos (by decide)]
    decide
  rw [LogFilter.read?, parts]
  rfl

/-- No event is a warning, so a run that asks for no filter logs nothing. -/
theorem logsNothing_standardFilter {invocation : Invocation}
    (standard : invocation.logFilter = CommandLine.standardFilter) (surroundings : Surroundings) :
    invocation.LogsNothing surroundings := by
  intro settings setsUp event
  rw [Invocation.setUpLog, standard, read?_standardFilter] at setsUp
  cases state : surroundings.logState with
  | fresh =>
    rw [state] at setsUp
    cases setsUp
    have level : Threshold.warn.passes event.level = false := by cases event.level <;> rfl
    exact level
  | installed | occupied cause =>
    rw [state] at setsUp
    cases setsUp

/-- A match, a search and a search for the first match with the same options agree. What they write to the error
stream is the same as well, unless events of the program go into the log. -/
theorem run_agrees {whole all first : List String} {invocation : Invocation}
    (readsWhole : CommandLine.read whole = .ok (.invoke { invocation with task := .whole }))
    (readsAll : CommandLine.read all = .ok (.invoke { invocation with task := .search false }))
    (readsFirst : CommandLine.read first = .ok (.invoke { invocation with task := .search true }))
    {surroundings : Surroundings} (unlimited : surroundings.outputRoom? = none) :
    Agree (run whole surroundings).value (run all surroundings).value (run first surroundings).value ∧
    (invocation.LogsNothing surroundings →
      ∀ arguments ∈ [whole, all, first], Program.logText (run arguments surroundings) = "") := by
  obtain ⟨log?, setsUp, ends⟩ := invocation.common_way surroundings
  have runs {arguments : List String} {task : Task}
      (reads : CommandLine.read arguments = .ok (.invoke { invocation with task := task })) :
      run arguments surroundings = Invocation.run { invocation with task := task } surroundings := by
    rw [run, reads]
  constructor
  · rw [runs readsWhole, runs readsAll, runs readsFirst]
    rcases ends with ⟨error, fails⟩ | ⟨pattern, tree, wellFormed, answers⟩
    · rw [fails, fails, fails, value_fail]
      exact agree_of_failures rfl rfl rfl rfl rfl rfl
    · have matched : (Task.whole.perform pattern tree).value = .ofMatch (pattern.match? tree) := rfl
      rw [answers, answers, answers, value_finish unlimited, value_finish unlimited, value_finish unlimited, matched,
        Task.value_search, Task.value_search]
      exact agree_of_answers log? fun captures => Pattern.head?_findAll_iff wellFormed
  · intro nothing
    have quiet {arguments : List String} {task : Task}
        (reads : CommandLine.read arguments = .ok (.invoke { invocation with task := task })) :
        Program.logText (run arguments surroundings) = "" := by
      refine logText_of_logsNothing nothing ?_
      rw [runs reads]
      rcases ends with ⟨error, fails⟩ | ⟨pattern, tree, -, answers⟩
      · rw [fails, value_fail]
        exact setsUp
      · rw [answers, value_finish unlimited]
        exact setsUp
    rw [List.forall_mem_cons, List.forall_mem_cons, List.forall_mem_singleton]
    exact ⟨quiet readsWhole, quiet readsAll, quiet readsFirst⟩

/-- A pattern that captures everything matches at the root and at the one element below. -/
theorem run_agrees_everywhere :
    let options := ["--pattern", "p"]
    let reasons : Reasons := ⟨fun _ => "no filter", fun _ => "no document", fun _ => "no tree"⟩
    let surroundings : Surroundings :=
      ⟨fun path => if path = "p" then .ok "$extract: x\n".toUTF8 else .error "no such file", .ok "[true]".toUTF8,
        none, none, .installed, reasons⟩
    let whole := run ("match" :: options) surroundings
    let all := run ("search" :: options) surroundings
    let first := run ("search" :: "--first" :: options) surroundings
    let atRoot := Node.object [("path", .string ""), ("captures", .object [("x", .array [.bool true])])]
    let below := Node.object [("path", .string "/0"), ("captures", .object [("x", .bool true)])]
    surroundings.outputRoom? = none ∧ Agree whole.value all.value first.value ∧
      (whole.value.status = .success ∧ whole.value.Prints (.object [("x", .array [.bool true])])) ∧
      all.value.Prints (.array [atRoot, below]) ∧ first.value.Prints (.array [atRoot]) ∧
      Program.logText whole = "" := by
  intro options reasons surroundings whole all first atRoot below
  have reads : CommandLine.read ("match" :: options) =
      .ok (.invoke ⟨.whole, "p", none, CommandLine.standardFilter, .compact⟩) := by
    decide +kernel
  obtain ⟨readsAll, readsFirst⟩ := CommandLine.read_search_of_match reads
  obtain ⟨agree, quiet⟩ := @run_agrees _ _ _ _ reads readsAll readsFirst surroundings rfl
  have printed : all.value.Prints (.array [atRoot, below]) := by
    rw [Outcome.Prints]
    decide +kernel
  have entered := (agree.root (.ofList [("x", .array [.bool true])])).2 ⟨[below], printed⟩
  exact ⟨rfl, agree, entered, printed, agree.cut _ printed,
    quiet (logsNothing_standardFilter rfl _) _ List.mem_cons_self⟩

end TreeMatch
