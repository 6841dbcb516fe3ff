import TreeMatch.Proofs.Agreement

/-!
# Streams that refuse

A result is written in pieces, and a stream may refuse in the middle of any of them. What it has taken by then is
the beginning of the text, and how the text is divided makes no difference (`Sink.foldlM_write`). So a run whose
output does not fit leaves a prefix of it behind and tells whether the result or only the line end is missing; a
failure that cannot be told in full changes nothing but what is told (`run_cut_short`).
-/

namespace TreeMatch

/-! ## Writing -/

/-- A stream that is written to. -/
structure Sink where
  /-- What it has taken so far. -/
  taken : List UInt8
  /-- How much more it takes. -/
  room? : Option Nat

namespace Sink

variable {taken bytes : List UInt8} {room : Nat}

/-- A stream that has taken nothing yet. -/
def fresh (room? : Option Nat) : Sink := ⟨[], room?⟩

/-- Writes bytes. The stream takes what fits, and refuses if that is not all. -/
def write (sink : Sink) (bytes : List UInt8) : Except Sink Sink :=
  let after : Sink := ⟨sink.taken ++ Stream.taken sink.room? bytes, sink.room?.map (· - bytes.length)⟩
  if Stream.fits sink.room? bytes then .ok after else .error after

@[simp] theorem write_unlimited : write ⟨taken, none⟩ bytes = .ok ⟨taken ++ bytes, none⟩ := rfl

theorem write_of_le (fits : bytes.length ≤ room) :
    write ⟨taken, some room⟩ bytes = .ok ⟨taken ++ bytes, some (room - bytes.length)⟩ := by
  simp [write, Stream.fits, Stream.taken, fits, List.take_of_length_le fits]

theorem write_of_lt (exceeds : room < bytes.length) :
    write ⟨taken, some room⟩ bytes = .error ⟨taken ++ bytes.take room, some 0⟩ := by
  simp [write, Stream.fits, Stream.taken, Nat.not_le.2 exceeds, Nat.sub_eq_zero_of_le (Nat.le_of_lt exceeds)]

/-- The stream behind a write, refused or not. -/
def behind : Except Sink Sink → Sink
  | .ok sink => sink
  | .error sink => sink

theorem taken_behind_write (room? : Option Nat) (bytes : List UInt8) :
    (behind ((fresh room?).write bytes)).taken = Stream.taken room? bytes := by
  rw [write]
  split <;> rfl

theorem write_nil (sink : Sink) : sink.write [] = .ok sink := by
  obtain ⟨taken, _ | room⟩ := sink
  · simp
  · simp [write_of_le]

theorem write_append (sink : Sink) (first later : List UInt8) :
    (sink.write first >>= fun sink => sink.write later) = sink.write (first ++ later) := by
  have length : (first ++ later).length = first.length + later.length := List.length_append
  obtain ⟨taken, _ | room⟩ := sink
  · simp [bind, Except.bind]
  · by_cases fits : first.length ≤ room
    · rw [write_of_le fits]
      by_cases rest : later.length ≤ room - first.length
      · have all : (first ++ later).length ≤ room := by omega
        simp [bind, Except.bind, write_of_le rest, write_of_le all, Nat.sub_sub]
      · have exceeds : room < (first ++ later).length := by omega
        simp [bind, Except.bind, write_of_lt (Nat.not_le.1 rest), write_of_lt exceeds, List.take_append,
          List.take_of_length_le fits]
    · -- The first write has been refused, so there is no second one.
      have exceeds : room < first.length := Nat.not_le.1 fits
      have exceedsAll : room < (first ++ later).length := by omega
      rw [write_of_lt exceeds, write_of_lt exceedsAll, List.take_append_of_le_length (Nat.le_of_lt exceeds)]
      rfl

/-- A text written in pieces is written like the whole, whatever the pieces are. -/
theorem foldlM_write (sink : Sink) (pieces : List (List UInt8)) :
    pieces.foldlM write sink = sink.write pieces.flatten := by
  induction pieces generalizing sink with
  | nil => exact (write_nil sink).symm
  | cons piece pieces ih =>
    simp only [List.foldlM_cons, ih, List.flatten_cons]
    exact write_append sink piece pieces.flatten

/-! ## Emitting -/

/-- Emits a result in pieces, then the line end. -/
def emit (sink : Sink) (pieces : List (List UInt8)) : Except (RunError × Sink) Sink := do
  let sink ← (pieces.foldlM write sink).mapError (.serialise Stream.refusal, ·)
  (sink.write (bytesOf "\n")).mapError (.write Stream.refusal, ·)

variable {pieces : List (List UInt8)} {text : List UInt8}

theorem emit_unlimited (divides : pieces.flatten = text) :
    emit ⟨taken, none⟩ pieces = .ok ⟨taken ++ text ++ bytesOf "\n", none⟩ := by
  rw [emit, foldlM_write, divides]
  rfl

theorem emit_of_lt (divides : pieces.flatten = text) (enough : text.length < room) :
    emit ⟨taken, some room⟩ pieces = .ok ⟨taken ++ text ++ bytesOf "\n", some (room - text.length - 1)⟩ := by
  have lineEnd : (bytesOf "\n").length ≤ room - text.length := Nat.le_sub_of_add_le' enough
  rw [emit, foldlM_write, divides, write_of_le (Nat.le_of_lt enough)]
  exact congrArg (Except.mapError _) (write_of_le lineEnd)

theorem emit_of_eq (divides : pieces.flatten = text) (equal : text.length = room) :
    emit ⟨taken, some room⟩ pieces = .error (.write Stream.refusal, ⟨taken ++ text, some 0⟩) := by
  rw [emit, foldlM_write, divides, write_of_le (Nat.le_of_eq equal), equal, Nat.sub_self]
  have exceeds : 0 < (bytesOf "\n").length := by decide
  refine (congrArg (Except.mapError _) (write_of_lt exceeds)).trans ?_
  rw [List.take_zero, List.append_nil]
  rfl

theorem emit_of_gt (divides : pieces.flatten = text) (short : room < text.length) :
    emit ⟨taken, some room⟩ pieces = .error (.serialise Stream.refusal, ⟨taken ++ text.take room, some 0⟩) := by
  rw [emit, foldlM_write, divides, write_of_lt short]
  rfl

end Sink

/-! ## Endings -/

/-- How a run ends once it has emitted its answer, or once a stream has refused it. -/
def Surroundings.close (surroundings : Surroundings) (log? : Option LogSettings) (answer : Answer) :
    Except (RunError × Sink) Sink → Outcome
  | .ok sink => ⟨answer.status, sink.taken, [], log?⟩
  | .error (error, sink) => (surroundings.fail log? sink.taken error).value

/-- A run ends with its answer as if it emitted the text piece by piece. -/
theorem value_finish_emit (surroundings : Surroundings) (log? : Option LogSettings) (answer : Answer)
    {pieces : List (List UInt8)} (divides : pieces.flatten = bytesOf answer.text) :
    (surroundings.finish log? answer).value =
      surroundings.close log? answer (Sink.emit (.fresh surroundings.outputRoom?) pieces) := by
  have line : bytesOf (answer.text ++ "\n") = bytesOf answer.text ++ bytesOf "\n" := bytesOf_append _ _
  have length : (bytesOf answer.text ++ bytesOf "\n").length = (bytesOf answer.text).length + 1 := List.length_append
  rw [Surroundings.finish, line]
  cases surroundings.outputRoom? with
  | none =>
    rw [Sink.fresh, Sink.emit_unlimited divides]
    rfl
  | some room =>
    simp only [Stream.fits, Stream.taken, Option.all_some, length]
    -- The room ends behind the line end, before it, or inside the result.
    rcases Nat.lt_trichotomy (bytesOf answer.text).length room with enough | equal | short
    · have fits : (bytesOf answer.text).length ≤ room := Nat.le_of_lt enough
      have all : (bytesOf answer.text).length + 1 ≤ room := enough
      rw [Sink.fresh, Sink.emit_of_lt divides enough, List.take_of_length_le (length ▸ enough)]
      simp [fits, all, Surroundings.close]
    · rw [Sink.fresh, Sink.emit_of_eq divides equal, ← equal, List.take_left]
      simp [Surroundings.close]
    · have exceeds : ¬ (bytesOf answer.text).length ≤ room := Nat.not_le.2 short
      rw [Sink.fresh, Sink.emit_of_gt divides short, List.take_append_of_le_length (Nat.le_of_lt short)]
      simp [exceeds, Surroundings.close]

/-- What is left behind of a run that would print everything, once it has emitted that or a stream has refused it. -/
def Outcome.after (whole : Outcome) : Except (RunError × Sink) Sink → Outcome
  | .ok sink => { whole with output := sink.taken }
  | .error (error, sink) => ⟨.failure, sink.taken, bytesOf (error.message ++ "\n"), whole.log?⟩

theorem close_eq_after {surroundings : Surroundings} (heard : surroundings.errorRoom? = none)
    (log? : Option LogSettings) (answer : Answer) (emitted : Except (RunError × Sink) Sink) :
    surroundings.close log? answer emitted = (answer.outcome log?).after emitted := by
  cases emitted with
  | ok sink => rfl
  | error refused =>
    refine (value_fail surroundings log? refused.2.taken refused.1).trans ?_
    rw [heard]
    rfl

/-- How a run ends of which standard output takes no more than `room` bytes, next to one that writes everything. -/
structure CutShort (whole : Outcome) (room : Nat) (cut : Outcome) : Prop where
  output : cut.output = whole.output.take room
  complete : whole.output.length ≤ room → cut.status = whole.status ∧ cut.errors = []
  /-- Nothing is missing but the line end. -/
  lineEnd : whole.output.length = room + 1 →
    cut.status = .failure ∧ cut.errors = bytesOf ("failed to write result: " ++ Stream.refusal ++ "\n")
  result : room + 1 < whole.output.length →
    cut.status = .failure ∧ cut.errors = bytesOf ("failed to serialise result: " ++ Stream.refusal ++ "\n")
  /-- So it is wherever the text is divided to be written. -/
  stepwise : ∀ pieces : List (List UInt8), whole.output = pieces.flatten ++ bytesOf "\n" →
    cut = whole.after (Sink.emit (.fresh (some room)) pieces)

theorem cutShort_of_emit {whole cut : Outcome} {room : Nat} {text : List UInt8}
    (prints : whole.output = text ++ bytesOf "\n") (silent : whole.errors = [])
    (stepwise : ∀ pieces : List (List UInt8), whole.output = pieces.flatten ++ bytesOf "\n" →
      cut = whole.after (Sink.emit (.fresh (some room)) pieces)) :
    CutShort whole room cut := by
  have length : whole.output.length = text.length + 1 := prints ▸ List.length_append
  have single : [text].flatten = text := List.flatten_singleton
  -- The pieces make no difference, so one piece is enough to see how the run ends.
  have ends : cut = whole.after (Sink.emit ⟨[], some room⟩ [text]) := stepwise [text] (single.symm ▸ prints)
  rcases Nat.lt_trichotomy text.length room with enough | equal | short
  · rw [Sink.emit_of_lt single enough] at ends
    refine ⟨?_, fun _ => ends ▸ ⟨rfl, silent⟩, by omega, by omega, stepwise⟩
    rw [List.take_of_length_le (length ▸ enough), prints, ends]
    rfl
  · rw [Sink.emit_of_eq single equal] at ends
    refine ⟨?_, by omega, fun _ => ends ▸ ⟨rfl, rfl⟩, by omega, stepwise⟩
    rw [prints, ← equal, List.take_left, ends]
    rfl
  · rw [Sink.emit_of_gt single short] at ends
    refine ⟨?_, by omega, by omega, fun _ => ends ▸ ⟨rfl, rfl⟩, stepwise⟩
    rw [prints, List.take_append_of_le_length (Nat.le_of_lt short), ends]
    rfl

/-! ## Whole runs -/

/-- What is to be told is settled before the error stream is used: an error, or nothing. -/
inductive Settled (surroundings : Surroundings) (outputRoom? : Option Nat) (ends : Surroundings → Outcome) :
    Prop where
  | failure (log? : Option LogSettings) (output : List UInt8) (error : RunError)
    (tells : ∀ errorRoom?, ends (surroundings.withRooms outputRoom? errorRoom?) =
      ((surroundings.withRooms outputRoom? errorRoom?).fail log? output error).value)
  | silence (outcome : Outcome) (succeeds : outcome.status ≠ .failure) (silent : outcome.errors = [])
    (tells : ∀ errorRoom?, ends (surroundings.withRooms outputRoom? errorRoom?) = outcome)

theorem settled_finish (surroundings : Surroundings) (outputRoom? : Option Nat) (log? : Option LogSettings)
    (answer : Answer) :
    Settled surroundings outputRoom? fun surroundings => (surroundings.finish log? answer).value := by
  -- Emitting does not use the error stream, so both cases hold for every room of it.
  have ends (errorRoom? : Option Nat) :
      ((surroundings.withRooms outputRoom? errorRoom?).finish log? answer).value =
        (surroundings.withRooms outputRoom? errorRoom?).close log? answer
          (Sink.emit (.fresh outputRoom?) [bytesOf answer.text]) :=
    value_finish_emit _ log? answer List.flatten_singleton
  cases emitted : Sink.emit (.fresh outputRoom?) [bytesOf answer.text] with
  | ok sink =>
    rw [emitted] at ends
    exact .silence ⟨answer.status, sink.taken, [], log?⟩ answer.status_ne_failure rfl ends
  | error refused =>
    rw [emitted] at ends
    exact .failure log? refused.2.taken refused.1 ends

/-- An invocation has come to an error or to an answer before it writes anything. -/
theorem Invocation.decided (invocation : Invocation) (surroundings : Surroundings) :
    ∃ log?,
      (∃ error, ∀ outputRoom? errorRoom?,
        (invocation.run (surroundings.withRooms outputRoom? errorRoom?)).value =
          ((surroundings.withRooms outputRoom? errorRoom?).fail log? [] error).value) ∨
      ∃ answer, ∀ outputRoom? errorRoom?,
        (invocation.run (surroundings.withRooms outputRoom? errorRoom?)).value =
          ((surroundings.withRooms outputRoom? errorRoom?).finish log? answer).value := by
  obtain ⟨log?, -, ⟨error, fails⟩ | ⟨pattern, tree, -, answers⟩⟩ := invocation.way surroundings
  · exact ⟨log?, .inl ⟨error, fails invocation.task⟩⟩
  · exact ⟨log?, .inr ⟨(invocation.task.perform pattern tree).value, answers invocation.task⟩⟩

theorem settled_invocation (invocation : Invocation) (surroundings : Surroundings) (outputRoom? : Option Nat) :
    Settled surroundings outputRoom? fun surroundings => (invocation.run surroundings).value := by
  obtain ⟨log?, ⟨error, fails⟩ | ⟨answer, finishes⟩⟩ := invocation.decided surroundings
  · exact .failure log? [] error (fails outputRoom?)
  · cases settled_finish surroundings outputRoom? log? answer with
    | failure log? output error tells =>
      exact .failure log? output error fun errorRoom? => (finishes outputRoom? errorRoom?).trans (tells errorRoom?)
    | silence outcome succeeds silent tells =>
      exact .silence outcome succeeds silent fun errorRoom? =>
        (finishes outputRoom? errorRoom?).trans (tells errorRoom?)

/-- How a run ends of which the error stream takes no more than `room` bytes, next to one that tells everything. -/
structure ToldInPart (told : Outcome) (room : Nat) (part : Outcome) : Prop where
  outcome : part = { told with errors := told.errors.take room }
  /-- So it is wherever the line is divided to be written. -/
  stepwise : ∀ pieces : List (List UInt8), pieces.flatten = told.errors →
    part.errors = (Sink.behind (pieces.foldlM Sink.write (.fresh (some room)))).taken

theorem toldInPart_of_eq {told part : Outcome} {room : Nat}
    (outcome : part = { told with errors := told.errors.take room }) : ToldInPart told room part := by
  refine ⟨outcome, ?_⟩
  intro pieces divides
  rw [Sink.foldlM_write, Sink.taken_behind_write, divides, outcome]
  rfl

theorem toldInPart_of_silent {outcome : Outcome} {room : Nat} (silent : outcome.errors = []) :
    ToldInPart outcome room outcome := by
  apply toldInPart_of_eq
  rw [silent, List.take_nil, ← silent]

theorem Settled.toldInPart {surroundings : Surroundings} {outputRoom? : Option Nat} {ends : Surroundings → Outcome}
    (settled : Settled surroundings outputRoom? ends) (room : Nat) :
    ToldInPart (ends (surroundings.withRooms outputRoom? none)) room
      (ends (surroundings.withRooms outputRoom? (some room))) := by
  cases settled with
  | failure log? output error tells =>
    apply toldInPart_of_eq
    rw [tells, tells, value_fail, value_fail]
    rfl
  | silence outcome _ silent tells =>
    rw [tells, tells]
    exact toldInPart_of_silent silent

theorem Settled.line {surroundings : Surroundings} {outputRoom? : Option Nat} {ends : Surroundings → Outcome}
    (settled : Settled surroundings outputRoom? ends)
    (fails : (ends (surroundings.withRooms outputRoom? none)).status = .failure) :
    ∃ error : RunError,
      (ends (surroundings.withRooms outputRoom? none)).errors = bytesOf (error.message ++ "\n") := by
  cases settled with
  | failure log? output error tells =>
    refine ⟨error, ?_⟩
    rw [tells, value_fail]
    rfl
  | silence outcome succeeds _ tells =>
    rw [tells] at fails
    exact absurd fails succeeds

/-- A request for help or for the version has nothing to tell. Any other run has settled what to tell. -/
theorem toldInPart_run (arguments : List String) (surroundings : Surroundings) (outputRoom? : Option Nat) (room : Nat) :
    ToldInPart (run arguments (surroundings.withRooms outputRoom? none)).value room
        (run arguments (surroundings.withRooms outputRoom? (some room))).value ∧
      (¬ CommandLine.Asks arguments →
        (run arguments (surroundings.withRooms outputRoom? none)).value.status = .failure →
        ∃ error : RunError, (run arguments (surroundings.withRooms outputRoom? none)).value.errors =
          bytesOf (error.message ++ "\n")) := by
  simp only [run]
  cases accepted : CommandLine.read arguments with
  | error error =>
    have settled : Settled surroundings outputRoom? fun surroundings =>
        (surroundings.fail none [] (.usage error)).value := .failure none [] _ fun _ => rfl
    exact ⟨settled.toldInPart room, fun _ => settled.line⟩
  | ok request =>
    cases request with
    | help topic =>
      have other (invocation : Invocation) : Request.help topic ≠ .invoke invocation := by
        intro same
        cases same
      exact ⟨toldInPart_of_silent rfl, absurd (CommandLine.asks_of_read accepted other)⟩
    | version =>
      have other (invocation : Invocation) : Request.version ≠ .invoke invocation := by
        intro same
        cases same
      exact ⟨toldInPart_of_silent rfl, absurd (CommandLine.asks_of_read accepted other)⟩
    | invoke invocation =>
      have settled := settled_invocation invocation surroundings outputRoom?
      exact ⟨settled.toldInPart room, fun _ => settled.line⟩

/-- Whatever the room is, an answer is printed as far as it goes. -/
theorem cutShort_finish {surroundings : Surroundings} {room : Nat} (limited : surroundings.outputRoom? = some room)
    (heard : surroundings.errorRoom? = none) (log? : Option LogSettings) (answer : Answer) :
    CutShort (answer.outcome log?) room (surroundings.finish log? answer).value := by
  have prints : (answer.outcome log?).output = bytesOf answer.text ++ bytesOf "\n" := bytesOf_append _ _
  refine cutShort_of_emit prints rfl ?_
  intro pieces divides
  have text : pieces.flatten = bytesOf answer.text := List.append_cancel_right (divides.symm.trans prints)
  rw [value_finish_emit surroundings log? answer text, limited, close_eq_after heard]

/-- A match or a search that prints its answer when nothing is refused prints the beginning of it when standard output
refuses some of it, and says so. However much the error stream refuses, only what it holds is different. -/
theorem run_cut_short (arguments : List String) (surroundings : Surroundings) :
    (∀ invocation whole, CommandLine.read arguments = .ok (.invoke invocation) →
      (run arguments (surroundings.withRooms none none)).value = whole → whole.status ≠ .failure →
      (∃ node, whole.Prints node) ∧ whole.errors = [] ∧
      ∀ room, CutShort whole room (run arguments (surroundings.withRooms (some room) none)).value) ∧
    ∀ outputRoom? room told, (run arguments (surroundings.withRooms outputRoom? none)).value = told →
      ToldInPart told room (run arguments (surroundings.withRooms outputRoom? (some room))).value ∧
      (¬ CommandLine.Asks arguments → told.status = .failure →
        ∃ error : RunError, told.errors = bytesOf (error.message ++ "\n")) := by
  constructor
  · rintro invocation whole reads rfl succeeds
    have runs (surroundings : Surroundings) : run arguments surroundings = invocation.run surroundings := by
      rw [run, reads]
    rw [runs] at succeeds ⊢
    obtain ⟨log?, ⟨error, fails⟩ | ⟨answer, finishes⟩⟩ := invocation.decided surroundings
    · rw [fails, value_fail] at succeeds
      exact absurd rfl succeeds
    · rw [finishes, value_finish rfl]
      refine ⟨⟨answer.node, answer.prints_outcome log?⟩, rfl, fun room => ?_⟩
      rw [runs, finishes]
      exact cutShort_finish rfl rfl log? answer
  · rintro outputRoom? room told rfl
    exact toldInPart_run arguments surroundings outputRoom? room

/-- A match that prints no captures. Without room for the line end it fails, without room for the braces as well, and
an error stream with six bytes tells the beginning of that. -/
theorem run_cut_short_braces :
    let arguments := ["match", "--pattern", "p"]
    let reasons : Reasons := ⟨fun _ => "no filter", fun _ => "no document", fun _ => "no tree"⟩
    let surroundings : Surroundings :=
      ⟨fun path => if path = "p" then .ok "a: 1\n".toUTF8 else .error "no such file",
        .ok "\x7b\"a\": 1\x7d".toUTF8, none, none, .installed, reasons⟩
    let whole := (run arguments (surroundings.withRooms none none)).value
    let cut (room : Nat) := (run arguments (surroundings.withRooms (some room) none)).value
    whole.seen = (0, bytesOf "\x7b\x7d\n", []) ∧ (∀ room, CutShort whole room (cut room)) ∧
      (cut 2).seen = (2, bytesOf "\x7b\x7d", bytesOf "failed to write result: no room\n") ∧
      (cut 1).seen = (2, bytesOf "\x7b", bytesOf "failed to serialise result: no room\n") ∧
      (∃ error : RunError, (cut 1).errors = bytesOf (error.message ++ "\n")) ∧
      (run arguments (surroundings.withRooms (some 1) (some 6))).value.seen =
        (2, bytesOf "\x7b", bytesOf "failed") := by
  intro arguments reasons surroundings whole cut
  have reads : CommandLine.read arguments =
      .ok (.invoke ⟨.whole, "p", none, CommandLine.standardFilter, .compact⟩) := by
    decide +kernel
  have flagless : ¬ CommandLine.Asks arguments := by
    rw [CommandLine.Asks]
    decide +kernel
  have printed : whole.seen = (0, bytesOf "\x7b\x7d\n", []) := by decide +kernel
  have succeeds : whole.status ≠ .failure := by decide +kernel
  obtain ⟨-, -, short⟩ := (run_cut_short arguments surroundings).1 _ whole reads rfl succeeds
  obtain ⟨part, line⟩ := (run_cut_short arguments surroundings).2 (some 1) 6 (cut 1) rfl
  -- From here on the runs themselves are of no interest.
  generalize (run arguments (surroundings.withRooms (some 1) (some 6))).value = limited at part ⊢
  change ∀ room, CutShort whole room (cut room) at short
  clear_value whole cut
  have output : whole.output = bytesOf "\x7b\x7d\n" := congrArg (fun seen => seen.2.1) printed
  obtain ⟨lineEndFails, lineEndTold⟩ := (short 2).lineEnd (by rw [output]; decide)
  obtain ⟨resultFails, resultTold⟩ := (short 1).result (by rw [output]; decide)
  have lineEnd : (cut 2).seen = (2, bytesOf "\x7b\x7d", bytesOf "failed to write result: no room\n") := by
    rw [Outcome.seen, (short 2).output, lineEndFails, lineEndTold, output]
    decide
  have result : (cut 1).seen = (2, bytesOf "\x7b", bytesOf "failed to serialise result: no room\n") := by
    rw [Outcome.seen, (short 1).output, resultFails, resultTold, output]
    decide
  refine ⟨printed, short, lineEnd, result, line flagless resultFails, ?_⟩
  simp only [part.outcome, Outcome.seen, (short 1).output, resultFails, resultTold, output]
  decide

end TreeMatch
