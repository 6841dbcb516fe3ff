import TreeMatch.CommandLine

/-!
# What arguments ask for

Arguments ask for something else than an invocation only by a flag for help or for the version
(`asks_of_read`). So without such a flag they name an invocation or are faulty. Arguments that a match accepts
mean the same to a search (`read_search_of_match`).
-/

namespace TreeMatch

/-- Whether an argument is a flag for help or for the version. -/
def Argument.asks : Argument → Bool
  | short letter => letter == 'h' || letter == 'V'
  | long name none => name == "help" || name == "version"
  | _ => false

namespace CommandLine

/-- A flag for help or for the version is among the arguments. -/
def Asks (arguments : List String) : Prop := ∃ argument ∈ arguments, (Argument.ofText argument).asks = true

theorem asks_head {argument : String} {rest : List String} {form : Argument} (same : Argument.ofText argument = form)
    (asks : form.asks = true) : Asks (argument :: rest) :=
  ⟨argument, List.mem_cons_self, same ▸ asks⟩

theorem Asks.cons {argument : String} {rest : List String} (asks : Asks rest) : Asks (argument :: rest) := by
  obtain ⟨flag, member, asks⟩ := asks
  exact ⟨flag, List.mem_cons_of_mem argument member, asks⟩

theorem ok_of_bind {ε α β : Type} {first : Except ε α} {next : α → Except ε β} {result : β}
    (done : first >>= next = .ok result) : ∃ value, first = .ok value ∧ next value = .ok result := by
  cases first with
  | error error => cases done
  | ok value => exact ⟨value, rfl, done⟩

theorem asks_of_afterCommand {command : Command} {given : GivenOptions} {arguments : List String}
    (told : afterCommand command given arguments = .ok none) : Asks arguments := by
  fun_induction afterCommand command given arguments with
  | case5 given argument rest short => exact asks_head short rfl
  | case7 given argument rest long => exact asks_head long rfl
  | case10 given argument rest _ _ _ ih => exact (ih told).cons
  | case12 =>
    -- The value is attached to its option.
    rename_i ih
    obtain ⟨held, -, later⟩ := ok_of_bind told
    exact (ih held later).cons
  | case13 =>
    -- The value is an argument of its own.
    rename_i ih
    obtain ⟨held, -, later⟩ := ok_of_bind told
    exact (ih held later).cons.cons
  | _ => cases told

theorem asks_of_beforeCommand {given : Except UsageError GivenOptions} {arguments : List String} {request : Request}
    (read : beforeCommand given arguments = .ok request) (other : ∀ invocation, request ≠ .invoke invocation) :
    Asks arguments := by
  fun_induction beforeCommand given arguments with
  | case4 given argument rest text plain command named =>
    obtain ⟨after?, inner, later⟩ := ok_of_bind read
    cases after? with
    | none => exact (asks_of_afterCommand inner).cons
    | some after =>
      obtain ⟨before, -, later⟩ := ok_of_bind later
      obtain ⟨invocation, -, same⟩ := ok_of_bind later
      cases same
      exact absurd rfl (other invocation)
  | case5 given argument rest letter short =>
    obtain ⟨before, -, later⟩ := ok_of_bind read
    refine asks_head short ?_
    split at later
    · rename_i same
      rw [same]
      rfl
    · split at later
      · rename_i same
        rw [same]
        rfl
      · cases later
  | case6 given argument rest long => exact asks_head long rfl
  | case7 given argument rest long => exact asks_head long rfl
  | case9 =>
    rename_i ih
    obtain ⟨before, -, later⟩ := ok_of_bind read
    obtain ⟨held, -, later⟩ := ok_of_bind later
    exact (ih held later).cons
  | case10 =>
    rename_i ih
    obtain ⟨before, -, later⟩ := ok_of_bind read
    exact (ih before later).cons.cons
  | _ => cases read

/-- Arguments without a flag for help or for the version name an invocation or are faulty. -/
theorem asks_of_read {arguments : List String} {request : Request} (accepted : read arguments = .ok request)
    (other : ∀ invocation, request ≠ .invoke invocation) : Asks arguments :=
  asks_of_beforeCommand accepted other

/-! ## The same arguments for both commands -/

theorem add_first (first : Bool) (given : GivenOptions) (option : ValueOption) (value : String) :
    GivenOptions.add { given with first := first } option value =
      (fun held : GivenOptions => { held with first := first }) <$> given.add option value := by
  cases option <;> simp only [GivenOptions.add, bind, Except.bind]
  case logFilter => cases GivenOptions.once .logFilter given.logFilter? value <;> rfl
  case logFormat =>
    cases GivenOptions.format value with
    | error error => rfl
    | ok format =>
      dsimp only
      cases GivenOptions.once .logFormat given.logFormat? format <;> rfl
  all_goals
    cases GivenOptions.path _ value with
    | error error => rfl
    | ok path =>
      dsimp only
      cases GivenOptions.once _ _ path <;> rfl

/-- Arguments that a match accepts, a search accepts too, whether it is to stop at the first match or not. -/
theorem afterCommand_search (first : Bool) {given after : GivenOptions} {arguments : List String}
    (accepted : afterCommand .whole given arguments = .ok (some after)) :
    afterCommand .search { given with first := first } arguments = .ok (some { after with first := first }) := by
  fun_induction afterCommand .whole given arguments with
  | case1 given =>
    cases accepted
    rfl
  | case2 given argument rest form last =>
    cases accepted
    rw [afterCommand, form]
    exact if_pos last
  | case10 given argument rest form other => exact absurd rfl other
  | case12 given argument name option found value rest noHelp noFlag form ih =>
    obtain ⟨held, added, later⟩ := ok_of_bind accepted
    simp only [afterCommand, form, found, add_first, added]
    exact ih held later
  | case13 given argument name option found value rest isValue noHelp noFlag form ih =>
    obtain ⟨held, added, later⟩ := ok_of_bind accepted
    simp only [afterCommand, form, found, isValue, add_first, added]
    exact ih held later
  | _ => cases accepted

theorem beforeCommand_command (held : Except UsageError GivenOptions) (command : Command) (rest : List String) :
    beforeCommand held (command.name :: rest) = afterCommand command .none rest >>= fun after? =>
      match after? with
      | none => .ok (.help (some command))
      | some after => held >>= fun before => Request.invoke <$> invocation command before after := by
  have form : Argument.ofText command.name = .plain command.name := by cases command <;> decide
  have named : Command.ofName? command.name = some command := by cases command <;> decide
  rw [beforeCommand, form]
  simp only [named]
  rfl

theorem read_command_iff (command : Command) {arguments : List String} {found : Invocation} :
    read (command.name :: arguments) = .ok (.invoke found) ↔
      ∃ after, afterCommand command .none arguments = .ok (some after) ∧
        invocation command .none after = .ok found := by
  rw [read, beforeCommand_command]
  constructor
  · intro accepted
    obtain ⟨after?, taken, later⟩ := ok_of_bind accepted
    cases after? with
    | none => cases later
    | some after =>
      obtain ⟨_, same, later⟩ := ok_of_bind later
      cases same
      obtain ⟨_, made, same⟩ := ok_of_bind later
      cases same
      exact ⟨after, taken, made⟩
  · rintro ⟨after, taken, same⟩
    rw [taken]
    show (Request.invoke <$> invocation command .none after) = _
    rw [same]
    rfl

/-- With the arguments of a match both searches ask for the same, but for the task. -/
theorem read_search_of_match {arguments : List String} {found : Invocation}
    (accepted : read ("match" :: arguments) = .ok (.invoke found)) :
    read ("search" :: arguments) = .ok (.invoke { found with task := .search false }) ∧
      read ("search" :: "--first" :: arguments) = .ok (.invoke { found with task := .search true }) := by
  obtain ⟨after, taken, same⟩ := (read_command_iff .whole).1 accepted
  have others (first : Bool) : invocation .search .none { after with first := first } =
      .ok { found with task := .search first } := by
    rw [invocation] at same ⊢
    cases pattern : after.pattern? with
    | none =>
      rw [pattern] at same
      cases same
    | some path =>
      rw [pattern] at same
      cases same
      rfl
  have flag : afterCommand .search .none ("--first" :: arguments) =
      afterCommand .search { GivenOptions.none with first := true } arguments := by
    rw [afterCommand, (by decide : Argument.ofText "--first" = .long "first" none)]
    rfl
  exact ⟨(read_command_iff .search).2 ⟨_, afterCommand_search false taken, others false⟩,
    (read_command_iff .search).2 ⟨_, flag.trans (afterCommand_search true taken), others true⟩⟩

end CommandLine

end TreeMatch
