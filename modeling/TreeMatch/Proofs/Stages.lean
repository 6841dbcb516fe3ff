import Mathlib.Data.List.Basic
import TreeMatch.Run
import TreeMatch.Proofs.FirstMatch
import TreeMatch.Proofs.JsonTrees
import TreeMatch.Proofs.Requests

/-!
# Stages of a run

Each stage of a run can be judged by itself, from the arguments and from what is found. The first stage in
order that fails is the one that a run reports, and then what later stages would find makes no difference.
A run of which no stage fails has loaded a pattern and a tree, and its answer depends on these alone
(`run_concludes`).
-/

namespace TreeMatch

/-! ## What an invocation loads -/

namespace Invocation

variable (invocation : Invocation) (surroundings : Surroundings)

/-- The text of the pattern document, or why it cannot be read. -/
def patternText : Except String String := textOf (surroundings.file invocation.pattern)

/-- The text of the tree, or why it cannot be read. -/
def treeText : Except String String := textOf (invocation.treeBytes surroundings)

/-- The texts of pattern and tree are there, and this is what they say. -/
structure Loads (pattern : Pattern) (tree : Node) : Prop where
  document : ∃ text, invocation.patternText surroundings = .ok text ∧
    (Document.parse surroundings.reasons.document text).value = .ok pattern
  tree : ∃ text, invocation.treeText surroundings = .ok text ∧ Json.read? treeDepth text = some tree

end Invocation

/-! ## Stages -/

/-- The stages of a run before its answer. -/
inductive Stage where
  | arguments
  | log
  | readPattern
  | document
  | readTree
  | parseTree

namespace Stage

/-- All stages in their order. -/
def all : List Stage := [arguments, log, readPattern, document, readTree, parseTree]

/-- Why a stage fails, whatever the other stages do. A stage whose input is missing does not fail itself. -/
def fault? (arguments : List String) (surroundings : Surroundings) (stage : Stage) : Option RunError :=
  match CommandLine.read arguments, stage with
  | .error error, .arguments => some (.usage error)
  | .ok (.invoke invocation), .log =>
    match invocation.setUpLog surroundings with
    | .error error => some error
    | .ok _ => none
  | .ok (.invoke invocation), .readPattern =>
    match invocation.patternText surroundings with
    | .error cause => some (.readPattern invocation.pattern cause)
    | .ok _ => none
  | .ok (.invoke invocation), .document =>
    (invocation.patternText surroundings).toOption.bind fun text =>
      match (Document.parse surroundings.reasons.document text).value with
      | .error error => some (.document invocation.pattern error)
      | .ok _ => none
  | .ok (.invoke invocation), .readTree =>
    match invocation.treeText surroundings with
    | .error cause => some (.readTree invocation.origin cause)
    | .ok _ => none
  | .ok (.invoke invocation), .parseTree =>
    (invocation.treeText surroundings).toOption.bind fun text =>
      match Json.read? treeDepth text with
      | none => some (.parseTree invocation.origin (surroundings.reasons.tree text))
      | some _ => none
  | _, _ => none

/-- Why the first stage fails that does. -/
def firstFault? (arguments : List String) (surroundings : Surroundings) : Option RunError :=
  all.findSome? (fault? arguments surroundings)

/-- Two runs with the same arguments find the same at a stage, and what they read is refused in the same words. -/
def SameInput (arguments : List String) (a b : Surroundings) : Stage → Prop
  | .arguments => True
  | log => a.logState = b.logState ∧ a.reasons.logFilter = b.reasons.logFilter
  | readPattern => ∀ invocation, CommandLine.read arguments = .ok (.invoke invocation) →
    a.file invocation.pattern = b.file invocation.pattern
  | document => a.reasons.document = b.reasons.document ∧
    ∀ invocation, CommandLine.read arguments = .ok (.invoke invocation) →
      a.file invocation.pattern = b.file invocation.pattern
  | readTree => ∀ invocation, CommandLine.read arguments = .ok (.invoke invocation) →
    invocation.treeBytes a = invocation.treeBytes b
  | parseTree => a.reasons.tree = b.reasons.tree ∧
    ∀ invocation, CommandLine.read arguments = .ok (.invoke invocation) →
      invocation.treeBytes a = invocation.treeBytes b

theorem fault?_congr {arguments : List String} {a b : Surroundings} {stage : Stage}
    (same : stage.SameInput arguments a b) : stage.fault? arguments a = stage.fault? arguments b := by
  cases accepted : CommandLine.read arguments with
  | error error => cases stage <;> simp only [fault?, accepted]
  | ok request =>
    cases request with
    | help topic => cases stage <;> simp only [fault?, accepted]
    | version => cases stage <;> simp only [fault?, accepted]
    | invoke invocation =>
      cases stage with
      | arguments => simp only [fault?, accepted]
      | log =>
        obtain ⟨state, words⟩ := same
        simp only [fault?, accepted, Invocation.setUpLog, state, words]
      | readPattern =>
        have bytes := same invocation accepted
        simp only [fault?, accepted, Invocation.patternText, bytes]
      | document =>
        obtain ⟨words, files⟩ := same
        simp only [fault?, accepted, Invocation.patternText, files invocation accepted, words]
      | readTree =>
        have bytes := same invocation accepted
        simp only [fault?, accepted, Invocation.treeText, bytes]
      | parseTree =>
        obtain ⟨words, trees⟩ := same
        simp only [fault?, accepted, Invocation.treeText, trees invocation accepted, words]

/-- Once a stage fails, what later stages find makes no difference to the fault that comes first. -/
theorem firstFault?_congr {arguments : List String} {a b : Surroundings} {earlier later : List Stage} {stage : Stage}
    (split : all = earlier ++ stage :: later) (fails : (stage.fault? arguments a).isSome)
    (same : ∀ before ∈ earlier ++ [stage], before.SameInput arguments a b) :
    ∃ error, firstFault? arguments a = some error ∧ firstFault? arguments b = some error := by
  have reached : ((earlier ++ [stage]).findSome? (fault? arguments a)).isSome := by
    rw [List.findSome?_isSome_iff]
    exact ⟨stage, List.mem_append_right _ List.mem_cons_self, fails⟩
  obtain ⟨error, first⟩ := Option.isSome_iff_exists.1 reached
  have alike : (earlier ++ [stage]).findSome? (fault? arguments b) = some error := by
    rw [← first, ← List.head?_filterMap, ← List.head?_filterMap]
    exact congrArg List.head? (List.filterMap_congr fun before member => (fault?_congr (same before member)).symm)
  have joined : all = (earlier ++ [stage]) ++ later := by rw [split, List.append_assoc, List.singleton_append]
  refine ⟨error, ?_, ?_⟩
  · rw [firstFault?, joined, List.findSome?_append, first, Option.some_or]
  · rw [firstFault?, joined, List.findSome?_append, alike, Option.some_or]

end Stage

/-! ## Outcomes -/

/-- Neither stream ever refuses a byte. -/
structure Surroundings.Unlimited (surroundings : Surroundings) : Prop where
  output : surroundings.outputRoom? = none
  errors : surroundings.errorRoom? = none

/-- What is seen of a run from outside: its number, standard output and the error stream. -/
def Outcome.seen (outcome : Outcome) : UInt8 × List UInt8 × List UInt8 :=
  (outcome.status.code, outcome.output, outcome.errors)

namespace Task

/-- Whether a task has something to find in a tree: the tree itself, or some part of it. -/
def Finds (pattern : Pattern) (tree : Node) : Task → Prop
  | whole => (pattern.match? tree).isSome
  | search _ => ∃ steps node, tree.descend? steps = some node ∧ (pattern.match? node).isSome

/-- The form of a result: an object, or an array that is not empty. -/
def Result (result : Node) : Task → Prop
  | whole => ∃ fields, result = .object fields
  | search _ => ∃ elements, result = .array elements ∧ elements ≠ []

/-- The text where nothing is found. -/
def nothing : Task → String
  | whole => "false"
  | search _ => "[]"

end Task

/-- The ways in which a run ends: with a result, with nothing found, or with the first fault of its stages. -/
inductive Concludes (arguments : List String) (surroundings : Surroundings) (outcome : Outcome) : Prop
  | found (invocation : Invocation) (pattern : Pattern) (tree result : Node)
    (clean : Stage.firstFault? arguments surroundings = none)
    (accepted : CommandLine.read arguments = .ok (.invoke invocation))
    (loads : invocation.Loads surroundings pattern tree)
    (finds : invocation.task.Finds pattern tree) (form : invocation.task.Result result)
    (seen : outcome.seen = (0, bytesOf (Json.pretty result ++ "\n"), []))
  | missed (invocation : Invocation) (pattern : Pattern) (tree : Node)
    (clean : Stage.firstFault? arguments surroundings = none)
    (accepted : CommandLine.read arguments = .ok (.invoke invocation))
    (loads : invocation.Loads surroundings pattern tree)
    (misses : ¬ invocation.task.Finds pattern tree)
    (seen : outcome.seen = (1, bytesOf (invocation.task.nothing ++ "\n"), []))
  | failed (error : RunError) (first : Stage.firstFault? arguments surroundings = some error)
    (seen : outcome.seen = (2, [], bytesOf (error.message ++ "\n")))

theorem seen_fail {surroundings : Surroundings} (unlimited : surroundings.Unlimited) (log? : Option LogSettings)
    (output : List UInt8) (error : RunError) :
    (surroundings.fail log? output error).value.seen = (2, output, bytesOf (error.message ++ "\n")) := by
  rw [Surroundings.fail, unlimited.errors]
  rfl

theorem seen_finish {surroundings : Surroundings} (unlimited : surroundings.Unlimited) (log? : Option LogSettings)
    (answer : Answer) :
    (surroundings.finish log? answer).value.seen = (answer.status.code, bytesOf (answer.text ++ "\n"), []) := by
  rw [Surroundings.finish, unlimited.output]
  rfl

/-! ## Answers -/

theorem value_loadPattern (reasons : Reasons) (path : String) (bytes : Except String ByteArray) :
    (loadPattern reasons path bytes).value =
      match textOf bytes with
      | .error cause => .error (.readPattern path cause)
      | .ok text =>
        match (Document.parse reasons.document text).value with
        | .ok pattern => .ok pattern
        | .error error => .error (.document path error) := by
  rw [loadPattern]
  cases textOf bytes with
  | error cause => rfl
  | ok text =>
    simp only [Logged.value_bind]
    cases (Document.parse reasons.document text).value <;> rfl

theorem value_loadTree (reasons : Reasons) (origin : String) (bytes : Except String ByteArray) :
    (loadTree reasons origin bytes).value =
      match textOf bytes with
      | .error cause => .error (.readTree origin cause)
      | .ok text =>
        match Json.read? treeDepth text with
        | some tree => .ok tree
        | none => .error (.parseTree origin (reasons.tree text)) := by
  rw [loadTree]
  cases textOf bytes with
  | error cause => rfl
  | ok text =>
    simp only [Logged.value_bind]
    cases Json.read? treeDepth text <;> rfl

theorem Invocation.value_answer (invocation : Invocation) (surroundings : Surroundings) :
    (invocation.answer surroundings).value =
      match (loadPattern surroundings.reasons invocation.pattern (surroundings.file invocation.pattern)).value with
      | .error error => .error error
      | .ok pattern =>
        match (loadTree surroundings.reasons invocation.origin (invocation.treeBytes surroundings)).value with
        | .error error => .error error
        | .ok tree => .ok (invocation.task.perform pattern tree).value := by
  rw [answer, Logged.value_bind]
  cases (loadPattern surroundings.reasons invocation.pattern (surroundings.file invocation.pattern)).value with
  | error error => rfl
  | ok pattern =>
    simp only [Logged.value_bind]
    cases (loadTree surroundings.reasons invocation.origin (invocation.treeBytes surroundings)).value <;> rfl

/-- With the arguments and the log in order, the first fault is the first thing that is missing or wrong. -/
theorem Stage.firstFault?_of_logged {arguments : List String} {invocation : Invocation} {surroundings : Surroundings}
    {log? : Option LogSettings} (accepted : CommandLine.read arguments = .ok (.invoke invocation))
    (logged : invocation.setUpLog surroundings = .ok log?) :
    firstFault? arguments surroundings =
      match invocation.patternText surroundings with
      | .error cause => some (.readPattern invocation.pattern cause)
      | .ok text =>
        match (Document.parse surroundings.reasons.document text).value with
        | .error error => some (.document invocation.pattern error)
        | .ok _ =>
          match invocation.treeText surroundings with
          | .error cause => some (.readTree invocation.origin cause)
          | .ok text =>
            match Json.read? treeDepth text with
            | none => some (.parseTree invocation.origin (surroundings.reasons.tree text))
            | some _ => none := by
  simp only [firstFault?, all, List.findSome?_cons, List.findSome?_nil, fault?, accepted, logged]
  cases invocation.patternText surroundings with
  | error cause => rfl
  | ok text =>
    simp only [Except.toOption, Option.bind_some]
    cases (Document.parse surroundings.reasons.document text).value with
    | error error => rfl
    | ok pattern =>
      cases invocation.treeText surroundings with
      | error cause => rfl
      | ok text =>
        simp only [Option.bind_some]
        cases Json.read? treeDepth text <;> rfl

/-- An invocation that has set up its log fails with the first fault, or there is none and it answers with what it
has loaded. -/
theorem Invocation.settles_answer {arguments : List String} {invocation : Invocation} {surroundings : Surroundings}
    {log? : Option LogSettings} (accepted : CommandLine.read arguments = .ok (.invoke invocation))
    (logged : invocation.setUpLog surroundings = .ok log?) :
    match (invocation.answer surroundings).value with
    | .error error => Stage.firstFault? arguments surroundings = some error
    | .ok answer => Stage.firstFault? arguments surroundings = none ∧ ∃ pattern tree,
        invocation.Loads surroundings pattern tree ∧ answer = (invocation.task.perform pattern tree).value := by
  rw [value_answer, value_loadPattern, value_loadTree, ← patternText, ← treeText,
    Stage.firstFault?_of_logged accepted logged]
  cases document : invocation.patternText surroundings with
  | error cause => rfl
  | ok text =>
    cases compiled : (Document.parse surroundings.reasons.document text).value with
    | error error => simp only [compiled]
    | ok pattern =>
      cases source : invocation.treeText surroundings with
      | error cause => simp only [compiled]
      | ok json =>
        cases parsed : Json.read? treeDepth json with
        | none => simp only [compiled, parsed]
        | some tree =>
          simp only [compiled, parsed, true_and]
          exact ⟨pattern, tree, ⟨⟨text, document, compiled⟩, ⟨json, source, parsed⟩⟩, rfl⟩

/-! ## Results -/

namespace Task

/-- The two searches find something in the same trees. -/
theorem value_search (pattern : Pattern) (tree : Node) (first : Bool) :
    ((search first).perform pattern tree).value = .ofSearch
      (if first then (pattern.findAll tree).value.head?.toList else (pattern.findAll tree).value) := by
  cases first with
  | false => rfl
  | true =>
    rw [if_pos rfl, ← Pattern.value_findFirst]
    rfl

theorem finds_search_iff {pattern : Pattern} {tree : Node} (wellFormed : tree.WellFormed) (first : Bool) :
    (search first).Finds pattern tree ↔ (pattern.findAll tree).value ≠ [] := by
  constructor
  · rintro ⟨steps, node, leads, matched⟩
    obtain ⟨captures, matched⟩ := Option.isSome_iff_exists.1 matched
    have member : ⟨Pointer.ofSteps steps, captures⟩ ∈ (pattern.findAll tree).value :=
      (Pattern.mem_findAll_iff wellFormed).2 ⟨steps, node, leads, matched, rfl⟩
    exact List.ne_nil_of_mem member
  · intro some
    obtain ⟨entry, member⟩ := List.exists_mem_of_ne_nil _ some
    obtain ⟨steps, node, leads, matched, -⟩ := (Pattern.mem_findAll_iff wellFormed).1 member
    exact ⟨steps, node, leads, matched ▸ rfl⟩

/-- The answer says whether the task finds something. -/
theorem found_perform {pattern : Pattern} {tree : Node} (wellFormed : tree.WellFormed) (task : Task) :
    (task.perform pattern tree).value.found = true ↔ task.Finds pattern tree := by
  cases task with
  | whole =>
    have result : (whole.perform pattern tree).value = .ofMatch (pattern.match? tree) := rfl
    rw [result, Finds]
    cases pattern.match? tree <;> simp [Answer.ofMatch]
  | search first =>
    rw [value_search, finds_search_iff wellFormed]
    cases (pattern.findAll tree).value <;> cases first <;> simp [Answer.ofSearch]

/-- An answer with something found is a result; any other is the text for that. -/
theorem perform_result (pattern : Pattern) (tree : Node) (task : Task) :
    if (task.perform pattern tree).value.found then task.Result (task.perform pattern tree).value.node
    else (task.perform pattern tree).value.text = task.nothing := by
  cases task with
  | whole =>
    have result : (whole.perform pattern tree).value = .ofMatch (pattern.match? tree) := rfl
    rw [result]
    cases pattern.match? tree with
    | none => rfl
    | some captures => exact ⟨captures.bindings, rfl⟩
  | search first =>
    rw [value_search]
    generalize (if first then (pattern.findAll tree).value.head?.toList else (pattern.findAll tree).value) = found
    cases found with
    | nil => exact (rfl : "[" ++ "]" = "[]")
    | cons one rest => exact ⟨_, rfl, nofun⟩

end Task

/-! ## Whole runs -/

theorem Invocation.value_run (invocation : Invocation) (surroundings : Surroundings) :
    (invocation.run surroundings).value =
      match invocation.setUpLog surroundings with
      | .error error => (surroundings.fail none [] error).value
      | .ok log? =>
        match (invocation.answer surroundings).value with
        | .error error => (surroundings.fail log? [] error).value
        | .ok answer => (surroundings.finish log? answer).value := by
  rw [run]
  cases invocation.setUpLog surroundings with
  | error error => rfl
  | ok log? =>
    simp only [Logged.value_bind]
    cases (invocation.answer surroundings).value <;> rfl

theorem concludes_invocation {arguments : List String} {invocation : Invocation} {surroundings : Surroundings}
    (unlimited : surroundings.Unlimited) (accepted : CommandLine.read arguments = .ok (.invoke invocation)) :
    Concludes arguments surroundings (invocation.run surroundings).value := by
  rw [invocation.value_run]
  cases logged : invocation.setUpLog surroundings with
  | error error =>
    have first : Stage.firstFault? arguments surroundings = some error := by
      simp only [Stage.firstFault?, Stage.all, List.findSome?_cons, Stage.fault?, accepted, logged]
    exact .failed _ first (seen_fail unlimited none [] error)
  | ok log? =>
    have settles := Invocation.settles_answer accepted logged
    cases answered : (invocation.answer surroundings).value with
    | error error =>
      rw [answered] at settles
      exact .failed error settles (seen_fail unlimited log? [] error)
    | ok answer =>
      rw [answered] at settles
      obtain ⟨clean, pattern, tree, loads, rfl⟩ := settles
      obtain ⟨text, -, parsed⟩ := loads.tree
      have finds : (invocation.task.perform pattern tree).value.found = true ↔ invocation.task.Finds pattern tree :=
        Task.found_perform (Json.wellFormed_of_read? parsed) invocation.task
      have result := invocation.task.perform_result pattern tree
      have seen := seen_finish unlimited log? (invocation.task.perform pattern tree).value
      rw [Answer.status] at seen
      split at result
      · rename_i some
        rw [if_pos some] at seen
        exact .found invocation pattern tree _ clean accepted loads (finds.1 some) result seen
      · rename_i none
        rw [if_neg none, result] at seen
        exact .missed invocation pattern tree clean accepted loads (fun other => none (finds.2 other)) seen

theorem concludes_run {arguments : List String} {surroundings : Surroundings} (flagless : ¬ CommandLine.Asks arguments)
    (unlimited : surroundings.Unlimited) : Concludes arguments surroundings (run arguments surroundings).value := by
  rw [run]
  cases accepted : CommandLine.read arguments with
  | error error =>
    have first : Stage.firstFault? arguments surroundings = some (.usage error) := by
      simp only [Stage.firstFault?, Stage.all, List.findSome?_cons, Stage.fault?, accepted]
    exact .failed _ first (seen_fail unlimited none [] (.usage error))
  | ok request =>
    cases request with
    | help topic => exact absurd (CommandLine.asks_of_read accepted nofun) flagless
    | version => exact absurd (CommandLine.asks_of_read accepted nofun) flagless
    | invoke invocation => exact concludes_invocation unlimited accepted

theorem seen_run_of_fault {arguments : List String} {surroundings : Surroundings} {error : RunError}
    (flagless : ¬ CommandLine.Asks arguments) (unlimited : surroundings.Unlimited)
    (first : Stage.firstFault? arguments surroundings = some error) :
    (run arguments surroundings).value.seen = (2, [], bytesOf (error.message ++ "\n")) := by
  cases concludes_run flagless unlimited with
  | found _ _ _ _ clean _ _ _ _ _ => cases clean.symm.trans first
  | missed _ _ _ clean _ _ _ _ => cases clean.symm.trans first
  | failed _ same seen =>
    cases same.symm.trans first
    exact seen

/-- A run whose streams take everything ends with the first fault of its stages, or, without one, with the answer to
what it has loaded. If a stage fails, what later stages would find is not to be seen. -/
theorem run_concludes {arguments : List String} {surroundings : Surroundings} (flagless : ¬ CommandLine.Asks arguments)
    (unlimited : surroundings.Unlimited) :
    Concludes arguments surroundings (run arguments surroundings).value ∧
    ∀ (others : Surroundings) (earlier later : List Stage) (stage : Stage), others.Unlimited →
      Stage.all = earlier ++ stage :: later → (stage.fault? arguments surroundings).isSome →
      (∀ before ∈ earlier ++ [stage], before.SameInput arguments surroundings others) →
      (run arguments others).value.seen = (run arguments surroundings).value.seen := by
  refine ⟨concludes_run flagless unlimited, ?_⟩
  intro others earlier later stage endless split fails same
  obtain ⟨error, first, firstOther⟩ := Stage.firstFault?_congr split fails same
  rw [seen_run_of_fault flagless unlimited first, seen_run_of_fault flagless endless firstOther]

/-- Without its pattern document a run fails alike with a tree and without one; with the document the tree matters. -/
theorem run_concludes_missing :
    let arguments := ["match", "--pattern", "p"]
    let reasons : Reasons := ⟨fun _ => "no filter", fun _ => "no document", fun _ => "no tree"⟩
    let bare : Surroundings := ⟨fun _ => .error "no such file", .error "closed", none, none, .installed, reasons⟩
    let withTree : Surroundings := { bare with input := .ok "\x7b\"a\": 1\x7d".toUTF8 }
    let complete : Surroundings :=
      { withTree with file := fun path => if path = "p" then .ok "a: 1\n".toUTF8 else .error "no such file" }
    ¬ CommandLine.Asks arguments ∧ bare.Unlimited ∧
      (run arguments bare).value.seen = (2, [], bytesOf "failed to read pattern document p: no such file\n") ∧
      (run arguments withTree).value.seen = (run arguments bare).value.seen ∧
      Concludes arguments complete (run arguments complete).value ∧
      (run arguments complete).value.seen = (0, bytesOf "\x7b\x7d\n", []) := by
  intro arguments reasons bare withTree complete
  have flagless : ¬ CommandLine.Asks arguments := by
    rw [CommandLine.Asks]
    decide +kernel
  have unlimited : bare.Unlimited := ⟨rfl, rfl⟩
  have fails : (Stage.readPattern.fault? arguments bare).isSome := by decide +kernel
  have same : ∀ before ∈ [Stage.arguments, .log] ++ [.readPattern], before.SameInput arguments bare withTree := by
    simp only [List.forall_mem_append, List.forall_mem_cons]
    exact ⟨⟨trivial, ⟨rfl, rfl⟩, nofun⟩, fun _ _ => rfl, nofun⟩
  have unseen := (run_concludes flagless unlimited).2 withTree _ _ _ ⟨rfl, rfl⟩ rfl fails same
  refine ⟨flagless, unlimited, by decide +kernel, unseen, ?_, by decide +kernel⟩
  exact (run_concludes flagless ⟨rfl, rfl⟩).1

end TreeMatch
