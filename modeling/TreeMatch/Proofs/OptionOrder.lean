import Mathlib.Data.List.Nodup
import TreeMatch.Run
import TreeMatch.Proofs.Requests

/-!
# The order of options

What a run does depends on its command and on the values of its options, not on how the arguments are written: options
may come in any order and with their value attached or apart, and those of the log on either side of the command
(`run_reordered`). Reading goes from setting to setting, and what has been read is determined by the settings so far
(`Setting.reading`), of which no two are for one option. So the settings of both sides are read as one list
(`CommandLine.read_settings`), and its order makes no difference (`Setting.Distinct.reading_perm`).
-/

namespace TreeMatch

/-! ## Settings and how they are written -/

/-- What one option says. -/
inductive Setting where
  | value (option : ValueOption) (text : String)
  /-- A search is to stop at the first match. -/
  | first
deriving DecidableEq

namespace Setting

/-- The option that takes a value, if it is one. -/
def option? : Setting → Option ValueOption
  | value option _ => some option
  | first => none

/-- The arguments of a setting: the value may be attached to its option or stand on its own. -/
inductive Writes : Setting → List String → Prop
  | apart (option : ValueOption) (text : String) : Writes (value option text) ["--" ++ option.name, text]
  | attached (option : ValueOption) (text : String) : Writes (value option text) ["--" ++ option.name ++ "=" ++ text]
  | flag : Writes first ["--first"]

/-- A value is not empty and does not look like an option. -/
def Proper : Setting → Prop
  | value _ text => text ≠ "" ∧ text.toList.head? ≠ some '-'
  | first => True

/-- The value that settings give an option. -/
def find? (option : ValueOption) (settings : List Setting) : Option String :=
  settings.findSome? fun
    | value other text => if other = option then some text else none
    | first => none

/-- No option is given twice. -/
def Distinct (settings : List Setting) : Prop := (settings.map option?).Nodup

theorem find?_append (option : ValueOption) (first later : List Setting) :
    find? option (first ++ later) = (find? option first).or (find? option later) :=
  List.findSome?_append

theorem mem_of_find? {option : ValueOption} {settings : List Setting} {text : String}
    (found : find? option settings = some text) : value option text ∈ settings := by
  obtain ⟨setting, member, found⟩ := List.exists_of_findSome?_eq_some found
  cases setting with
  | value other held =>
    dsimp only at found
    split at found
    · rename_i same
      cases found
      exact same ▸ member
    · cases found
  | first => cases found

theorem find?_eq_none_iff {option : ValueOption} {settings : List Setting} :
    find? option settings = none ↔ some option ∉ settings.map option? := by
  rw [find?, List.findSome?_eq_none_iff, List.mem_map]
  constructor
  · rintro none ⟨setting, member, same⟩
    cases setting with
    | value other text =>
      cases same
      exact absurd (none _ member) (by simp)
    | first => cases same
  · intro absent setting member
    cases setting with
    | value other text =>
      refine if_neg ?_
      rintro rfl
      exact absent ⟨_, member, rfl⟩
    | first => rfl

/-- Where no option is given twice, its value is the one that is found. -/
theorem Distinct.find?_eq_some_iff {settings : List Setting} (distinct : Distinct settings) {option : ValueOption}
    {text : String} : find? option settings = some text ↔ value option text ∈ settings := by
  refine ⟨mem_of_find?, ?_⟩
  intro member
  cases found : find? option settings with
  | none => exact absurd (List.mem_map_of_mem (f := option?) member) (find?_eq_none_iff.1 found)
  | some held =>
    have same : value option held = value option text :=
      List.inj_on_of_nodup_map distinct (mem_of_find? found) member rfl
    cases same
    rfl

section
variable {settings other : List Setting} (permuted : settings.Perm other)
include permuted

theorem Distinct.perm (distinct : Distinct settings) : Distinct other :=
  (permuted.map option?).nodup distinct

theorem Distinct.find?_perm (distinct : Distinct settings) (option : ValueOption) :
    find? option settings = find? option other := by
  apply Option.ext
  intro text
  rw [distinct.find?_eq_some_iff, (distinct.perm permuted).find?_eq_some_iff, permuted.mem_iff]

end

theorem Distinct.fresh {earlier later : List Setting} {setting : Setting}
    (distinct : Distinct (earlier ++ setting :: later)) : setting.option? ∉ earlier.map option? := by
  rw [Distinct, List.map_append, List.map_cons, List.nodup_append] at distinct
  exact fun member => distinct.2.2 _ member _ List.mem_cons_self rfl

/-- Of two parts of the settings at most one gives a value to an option. -/
theorem Distinct.find?_eq_none_or {first later : List Setting} (distinct : Distinct (first ++ later))
    (option : ValueOption) : find? option first = none ∨ find? option later = none := by
  rw [find?_eq_none_iff, find?_eq_none_iff]
  rw [Distinct, List.map_append] at distinct
  by_cases member : some option ∈ first.map option?
  · exact .inr fun other => (List.nodup_append.1 distinct).2.2 _ member _ other rfl
  · exact .inl member

/-- So it makes no difference which part is asked first. -/
theorem Distinct.find?_or {first later : List Setting} (distinct : Distinct (first ++ later)) (option : ValueOption) :
    (find? option later).or (find? option first) = find? option (first ++ later) := by
  rw [← find?_append]
  exact (distinct.find?_perm List.perm_append_comm option).symm

end Setting

/-! ## Single arguments -/

namespace Argument

theorem ofText_name (option : ValueOption) : ofText ("--" ++ option.name) = .long option.name none := by
  cases option <;> decide

/-- The value begins behind the first equals sign, whatever is in it. -/
theorem ofText_attached (option : ValueOption) (text : String) :
    ofText ("--" ++ option.name ++ "=" ++ text) = .long option.name (some text) := by
  have name : ∀ c ∈ option.name.toList, (c != '=') = true := by
    rw [← List.all_eq_true]
    cases option <;> rfl
  have characters : ("--" ++ option.name ++ "=" ++ text).toList =
      '-' :: '-' :: (option.name.toList ++ '=' :: text.toList) := by simp
  rw [ofText, characters]
  split
  · rename_i same
    simp at same
  · rename_i rest same
    cases same
    rw [List.takeWhile_append_of_pos name, List.dropWhile_append_of_pos name]
    simp
  · rename_i letter rest notLong other same
    cases same
    exact (other rfl).elim
  · rename_i notLong other
    exact (notLong _ rfl).elim

theorem ofText_first : ofText "--first" = .long "first" none := by decide

theorem ofText_of_head {text : String} (head : text.toList.head? ≠ some '-') : ofText text = .plain text := by
  rw [ofText]
  split
  · rename_i same
    exact absurd (same ▸ rfl) head
  · rename_i same
    exact absurd (same ▸ rfl) head
  · rename_i same
    exact absurd (same ▸ rfl) head
  · rfl

theorem isValue_of_head {text : String} (head : text.toList.head? ≠ some '-') : isValue text = true := by
  rw [isValue, ofText_of_head head]

end Argument

/-! ## Reading -/

namespace Setting

/-- The options that settings amount to. -/
def given (settings : List Setting) : GivenOptions where
  logFilter? := find? .logFilter settings
  logFormat? := (find? .logFormat settings).bind LogFormat.ofName?
  pattern? := find? .pattern settings
  tree? := find? .tree settings
  first := decide (first ∈ settings)

/-- What is wrong with settings whose values are proper: the name of the log format may be none. -/
def refusal? (settings : List Setting) : Option UsageError :=
  (find? .logFormat settings).bind fun text =>
    match LogFormat.ofName? text with
    | none => some (.unknownFormat text)
    | some _ => none

/-- What has been read of settings. -/
def reading (settings : List Setting) : Except UsageError GivenOptions :=
  match refusal? settings with
  | none => .ok (given settings)
  | some error => .error error

theorem find?_singleton (option other : ValueOption) (text : String) :
    find? option [value other text] = if other = option then some text else none := by
  rw [find?, List.findSome?_cons, List.findSome?_nil]
  split <;> simp_all

theorem refusal?_append {first later : List Setting}
    (apart : find? .logFormat first = none ∨ find? .logFormat later = none) :
    refusal? (first ++ later) = (refusal? first).or (refusal? later) := by
  rw [refusal?, refusal?, refusal?, find?_append]
  rcases apart with none | none
  · rw [none, Option.none_or, Option.bind_none, Option.none_or]
  · rw [none, Option.or_none, Option.bind_none, Option.or_none]

theorem reading_of_faultless {settings : List Setting} (faultless : refusal? settings = none) :
    reading settings = .ok (given settings) := by
  rw [reading, faultless]

theorem reading_of_refused {settings : List Setting} {error : UsageError} (refused : refusal? settings = some error) :
    reading settings = .error error := by
  rw [reading, refused]

/-- What is refused stays refused, whatever follows. -/
theorem Distinct.refused {first later : List Setting} (distinct : Distinct (first ++ later)) {error : UsageError}
    (refused : refusal? first = some error) : refusal? (first ++ later) = some error := by
  rw [refusal?_append (distinct.find?_eq_none_or .logFormat), refused, Option.some_or]

/-- At most one of two parts of the settings is refused. -/
theorem Distinct.refusal?_eq_none_or {first later : List Setting} (distinct : Distinct (first ++ later)) :
    refusal? first = none ∨ refusal? later = none := by
  rw [refusal?, refusal?]
  rcases distinct.find?_eq_none_or .logFormat with absent | absent
  · exact .inl (by rw [absent, Option.bind_none])
  · exact .inr (by rw [absent, Option.bind_none])

/-- The order of settings makes no difference. -/
theorem Distinct.reading_perm {settings other : List Setting} (distinct : Distinct settings)
    (permuted : settings.Perm other) : reading settings = reading other := by
  have same := distinct.find?_perm permuted
  have flag : first ∈ settings ↔ first ∈ other := permuted.mem_iff
  simp only [reading, refusal?, given, same, flag]

/-- An option that is not given yet is added to what has been read. -/
theorem add_given {settings : List Setting} {option : ValueOption} {text : String}
    (fresh : find? option settings = none) (proper : text ≠ "") (faultless : refusal? settings = none) :
    (given settings).add option text = reading (settings ++ [value option text]) := by
  have refused : refusal? (settings ++ [value option text]) = refusal? [value option text] := by
    rw [refusal?_append, faultless, Option.none_or]
    rw [find?_singleton]
    by_cases same : option = .logFormat
    · exact .inl (same ▸ fresh)
    · exact .inr (if_neg same)
  rw [reading, refused]
  have path : GivenOptions.path option text = .ok text := if_neg proper
  cases option with
  | logFilter =>
    have free : (given settings).logFilter? = none := fresh
    have added : given (settings ++ [value .logFilter text]) = { given settings with logFilter? := some text } := by
      simp [given, find?_append, find?_singleton, fresh]
    rw [GivenOptions.add, free, added]
    rfl
  | logFormat =>
    have free : (given settings).logFormat? = none := by rw [given, fresh, Option.bind_none]
    rw [GivenOptions.add, GivenOptions.format, free, refusal?, find?_singleton, if_pos rfl, Option.bind_some]
    cases known : LogFormat.ofName? text with
    | none => rfl
    | some format =>
      have added : given (settings ++ [value .logFormat text]) = { given settings with logFormat? := some format } := by
        simp [given, find?_append, find?_singleton, fresh, known]
      rw [added]
      rfl
  | pattern =>
    have free : (given settings).pattern? = none := fresh
    have added : given (settings ++ [value .pattern text]) = { given settings with pattern? := some text } := by
      simp [given, find?_append, find?_singleton, fresh]
    rw [GivenOptions.add, path, free, added]
    rfl
  | tree =>
    have free : (given settings).tree? = none := fresh
    have added : given (settings ++ [value .tree text]) = { given settings with tree? := some text } := by
      simp [given, find?_append, find?_singleton, fresh]
    rw [GivenOptions.add, path, free, added]
    rfl

theorem reading_first {settings : List Setting} (faultless : refusal? settings = none) :
    reading (settings ++ [first]) = .ok { given settings with first := true } := by
  rw [reading, refusal?_append (.inr rfl), faultless]
  simp [given, find?, refusal?]

/-- May stand before the command. -/
def OfLog : Setting → Prop
  | value option _ => option ∈ ValueOption.ofLog
  | first => False

end Setting

namespace CommandLine

open Setting (given refusal? reading)

section
variable {option : ValueOption} {text : String}

theorem afterCommand_apart (separate : Argument.isValue text = true) (command : Command) (held : GivenOptions)
    (rest : List String) : afterCommand command held (("--" ++ option.name) :: text :: rest) =
      held.add option text >>= fun next => afterCommand command next rest := by
  have step : afterCommand command held (("--" ++ option.name) :: text :: rest) =
      if Argument.isValue text then held.add option text >>= fun next => afterCommand command next rest
      else throw (.missingValue option) := by
    rw [afterCommand, Argument.ofText_name]
    cases option <;> rfl
  rw [step, if_pos separate]

theorem afterCommand_attached (command : Command) (held : GivenOptions) (rest : List String) :
    afterCommand command held (("--" ++ option.name ++ "=" ++ text) :: rest) =
      held.add option text >>= fun next => afterCommand command next rest := by
  rw [afterCommand, Argument.ofText_attached]
  cases option <;> rfl

theorem afterCommand_first {held : GivenOptions} (fresh : held.first = false) (rest : List String) :
    afterCommand .search held ("--first" :: rest) = afterCommand .search { held with first := true } rest := by
  rw [afterCommand, Argument.ofText_first]
  simp [fresh]

end

/-- One setting further behind the command. -/
theorem afterCommand_setting {setting : Setting} {arguments : List String} (writes : setting.Writes arguments)
    (proper : setting.Proper) {command : Command} (flag : setting = .first → command = .search)
    {settings : List Setting} (fresh : setting.option? ∉ settings.map Setting.option?)
    (faultless : refusal? settings = none) (rest : List String) :
    afterCommand command (given settings) (arguments ++ rest) =
      reading (settings ++ [setting]) >>= fun next => afterCommand command next rest := by
  cases writes with
  | apart option text =>
    rw [← Setting.add_given (Setting.find?_eq_none_iff.2 fresh) proper.1 faultless]
    exact afterCommand_apart (Argument.isValue_of_head proper.2) command (given settings) rest
  | attached option text =>
    rw [← Setting.add_given (Setting.find?_eq_none_iff.2 fresh) proper.1 faultless]
    exact afterCommand_attached command (given settings) rest
  | flag =>
    obtain rfl := flag rfl
    have unset : (given settings).first = false := by
      refine decide_eq_false ?_
      intro member
      exact fresh (List.mem_map_of_mem (f := Setting.option?) member)
    rw [Setting.reading_first faultless]
    exact afterCommand_first unset rest

/-- Settings behind the command: the first that is refused ends the reading. -/
theorem afterCommand_settings (settings : List Setting) {later : List Setting} {pieces : List (List String)}
    (writes : List.Forall₂ Setting.Writes later pieces) (proper : ∀ setting ∈ later, setting.Proper)
    {command : Command} (flag : Setting.first ∈ later → command = .search)
    (distinct : Setting.Distinct (settings ++ later)) (faultless : refusal? settings = none) :
    afterCommand command (given settings) pieces.flatten = some <$> reading (settings ++ later) := by
  -- Each setting moves from the ones to come to the ones read, and these stay faultless until one is refused.
  induction writes generalizing settings with
  | nil =>
    rw [List.append_nil, Setting.reading_of_faultless faultless]
    rfl
  | @cons setting arguments later pieces written writes ih =>
    have fresh := distinct.fresh
    rw [List.append_cons settings] at distinct ⊢
    rw [List.flatten_cons, afterCommand_setting written (proper setting List.mem_cons_self)
      (fun same => flag (same ▸ List.mem_cons_self)) fresh faultless]
    cases refused : refusal? (settings ++ [setting]) with
    | none =>
      rw [Setting.reading_of_faultless refused]
      exact ih _ (fun other member => proper other (List.mem_cons_of_mem _ member))
        (fun member => flag (List.mem_cons_of_mem _ member)) distinct refused
    | some error =>
      rw [Setting.reading_of_refused refused, Setting.reading_of_refused (distinct.refused refused)]
      rfl

section
variable {option : ValueOption} (log : option ∈ ValueOption.ofLog)
include log

theorem beforeCommand_apart {text : String} (separate : Argument.isValue text = true)
    (held : Except UsageError GivenOptions) (rest : List String) :
    beforeCommand held (("--" ++ option.name) :: text :: rest) =
      held >>= fun options => beforeCommand (options.add option text) rest := by
  have step : beforeCommand held (("--" ++ option.name) :: text :: rest) =
      if Argument.isValue text then held >>= fun options => beforeCommand (options.add option text) rest
      else throw (.missingValue option) := by
    rw [beforeCommand, Argument.ofText_name]
    rcases List.mem_pair.1 log with rfl | rfl <;> rfl
  rw [step, if_pos separate]

theorem beforeCommand_attached (text : String) (held : Except UsageError GivenOptions) (rest : List String) :
    beforeCommand held (("--" ++ option.name ++ "=" ++ text) :: rest) =
      held >>= fun options => options.add option text >>= fun next => beforeCommand (.ok next) rest := by
  rw [beforeCommand, Argument.ofText_attached]
  rcases List.mem_pair.1 log with rfl | rfl <;> rfl

end

/-- A refused setting before the command is reported, if the arguments of the command are in order. -/
theorem beforeCommand_error {earlier : List Setting} {pieces : List (List String)}
    (writes : List.Forall₂ Setting.Writes earlier pieces) (proper : ∀ setting ∈ earlier, setting.Proper)
    (log : ∀ setting ∈ earlier, setting.OfLog) {command : Command} {rest : List String}
    (order : ∃ after, afterCommand command .none rest = .ok (some after)) (error : UsageError) :
    beforeCommand (.error error) (pieces.flatten ++ command.name :: rest) = .error error := by
  cases writes with
  | nil =>
    obtain ⟨after, read⟩ := order
    rw [List.flatten_nil, List.nil_append, beforeCommand_command, read]
    rfl
  | @cons setting arguments later pieces written writes =>
    have inside : setting.OfLog := log setting List.mem_cons_self
    have proper := proper setting List.mem_cons_self
    rw [List.flatten_cons, List.append_assoc]
    cases written with
    | apart option text => exact beforeCommand_apart inside (Argument.isValue_of_head proper.2) (.error error) _
    | attached option text => exact beforeCommand_attached inside text (.error error) _
    | flag => exact inside.elim

/-- One setting further before the command. If it is refused, that is reported behind it. -/
theorem beforeCommand_setting {setting : Setting} {arguments : List String} (writes : setting.Writes arguments)
    (proper : setting.Proper) (log : setting.OfLog) {settings : List Setting}
    (fresh : setting.option? ∉ settings.map Setting.option?) (faultless : refusal? settings = none) {rest : List String}
    (reported : ∀ error, refusal? (settings ++ [setting]) = some error →
      beforeCommand (.error error) rest = .error error) :
    beforeCommand (.ok (given settings)) (arguments ++ rest) =
      beforeCommand (reading (settings ++ [setting])) rest := by
  cases writes with
  | apart option text =>
    rw [← Setting.add_given (Setting.find?_eq_none_iff.2 fresh) proper.1 faultless]
    exact beforeCommand_apart log (Argument.isValue_of_head proper.2) (.ok (given settings)) rest
  | attached option text =>
    have added := Setting.add_given (Setting.find?_eq_none_iff.2 fresh) proper.1 faultless
    refine (beforeCommand_attached log text (.ok (given settings)) rest).trans ?_
    show ((given settings).add option text >>= fun next => beforeCommand (.ok next) rest) = _
    rw [added]
    -- An attached value is judged at once, and one that stands apart only after the next argument.
    cases refused : refusal? (settings ++ [.value option text]) with
    | none =>
      rw [Setting.reading_of_faultless refused]
      rfl
    | some error =>
      rw [Setting.reading_of_refused refused]
      exact (reported error refused).symm
  | flag => exact log.elim

/-- Settings before the command. One of them may be refused only where the arguments of the command are in order. -/
theorem beforeCommand_settings (settings : List Setting) {later : List Setting} {pieces : List (List String)}
    (writes : List.Forall₂ Setting.Writes later pieces) (proper : ∀ setting ∈ later, setting.Proper)
    (log : ∀ setting ∈ later, setting.OfLog) (distinct : Setting.Distinct (settings ++ later))
    (faultless : refusal? settings = none) {command : Command}
    {rest : List String} (order : ∀ error, refusal? (settings ++ later) = some error →
      ∃ after, afterCommand command .none rest = .ok (some after)) :
    beforeCommand (.ok (given settings)) (pieces.flatten ++ command.name :: rest) =
      beforeCommand (reading (settings ++ later)) (command.name :: rest) := by
  induction writes generalizing settings with
  | nil => rw [List.append_nil, Setting.reading_of_faultless faultless, List.flatten_nil, List.nil_append]
  | @cons setting arguments later pieces written writes ih =>
    have fresh := distinct.fresh
    have properLater := fun other member => proper other (List.mem_cons_of_mem setting member)
    have logLater := fun other member => log other (List.mem_cons_of_mem setting member)
    rw [List.append_cons settings] at distinct order ⊢
    have reported (error : UsageError) (refused : refusal? (settings ++ [setting]) = some error) :
        beforeCommand (.error error) (pieces.flatten ++ command.name :: rest) = .error error :=
      beforeCommand_error writes properLater logLater (order error (distinct.refused refused)) error
    rw [List.flatten_cons, List.append_assoc, beforeCommand_setting written (proper setting List.mem_cons_self)
      (log setting List.mem_cons_self) fresh faultless reported]
    cases refused : refusal? (settings ++ [setting]) with
    | none =>
      rw [Setting.reading_of_faultless refused]
      exact ih _ properLater logLater distinct refused order
    | some error =>
      have all := distinct.refused refused
      rw [Setting.reading_of_refused refused, Setting.reading_of_refused all, reported error refused]
      exact (beforeCommand_error .nil (by simp) (by simp) (order error all) error).symm

/-! ## Both sides of the command -/

/-- Settings of the log before the command do what they would do behind it. -/
theorem invocation_given (command : Command) {before after : List Setting}
    (distinct : Setting.Distinct (before ++ after)) (log : ∀ setting ∈ before, setting.OfLog) :
    invocation command (given before) (given after) = invocation command .none (given (before ++ after)) := by
  have outside {option : ValueOption} (other : option ∉ ValueOption.ofLog) : Setting.find? option before = none := by
    cases found : Setting.find? option before with
    | none => rfl
    | some text => exact (other (log _ (Setting.mem_of_find? found))).elim
  have pattern : Setting.find? .pattern (before ++ after) = Setting.find? .pattern after := by
    rw [Setting.find?_append, outside (by decide), Option.none_or]
  have tree : Setting.find? .tree (before ++ after) = Setting.find? .tree after := by
    rw [Setting.find?_append, outside (by decide), Option.none_or]
  have flag : Setting.first ∈ before ++ after ↔ Setting.first ∈ after := by
    rw [List.mem_append]
    exact ⟨fun either => either.resolve_left (log .first), .inr⟩
  have filter := distinct.find?_or .logFilter
  have format : ((Setting.find? .logFormat after).bind LogFormat.ofName?).or
      ((Setting.find? .logFormat before).bind LogFormat.ofName?) =
        (Setting.find? .logFormat (before ++ after)).bind LogFormat.ofName? := by
    rw [← distinct.find?_or]
    rcases distinct.find?_eq_none_or .logFormat with absent | absent
    · rw [absent, Option.bind_none, Option.or_none, Option.or_none]
    · rw [absent, Option.bind_none, Option.none_or, Option.none_or]
  simp only [invocation, given, GivenOptions.none, pattern, tree, flag, filter, format, Option.or_none]

/-- Settings on both sides of the command are read as one. -/
theorem read_settings {before after : List Setting} {first later : List (List String)}
    (writesBefore : List.Forall₂ Setting.Writes before first) (writesAfter : List.Forall₂ Setting.Writes after later)
    (proper : ∀ setting ∈ before ++ after, setting.Proper) (log : ∀ setting ∈ before, setting.OfLog)
    {command : Command} (flag : Setting.first ∈ after → command = .search)
    (distinct : Setting.Distinct (before ++ after)) :
    read (first.flatten ++ command.name :: later.flatten) =
      reading (before ++ after) >>= fun options => Request.invoke <$> invocation command .none options := by
  have properBefore := fun setting member => proper setting (List.mem_append_left after member)
  have properAfter := fun setting member => proper setting (List.mem_append_right before member)
  have distinctBoth := distinct
  rw [Setting.Distinct, List.map_append, List.nodup_append] at distinctBoth
  have behind : afterCommand command .none later.flatten = some <$> reading after :=
    afterCommand_settings [] writesAfter properAfter flag distinctBoth.2.1 rfl
  have order (error : UsageError) (refused : refusal? before = some error) :
      ∃ options, afterCommand command .none later.flatten = .ok (some options) := by
    have faultless : refusal? after = none :=
      distinct.refusal?_eq_none_or.resolve_left (by rw [refused]; exact Option.some_ne_none error)
    exact ⟨given after, by rw [behind, Setting.reading_of_faultless faultless]; rfl⟩
  have whole : read (first.flatten ++ command.name :: later.flatten) =
      beforeCommand (reading before) (command.name :: later.flatten) :=
    beforeCommand_settings [] writesBefore properBefore log distinctBoth.1 rfl order
  rw [whole, beforeCommand_command, behind]
  cases refusedAfter : refusal? after with
  | none =>
    rw [Setting.reading_of_faultless refusedAfter]
    cases refusedBefore : refusal? before with
    | none =>
      have faultless : refusal? (before ++ after) = none := by
        rw [Setting.refusal?_append (distinct.find?_eq_none_or .logFormat), refusedBefore, refusedAfter, Option.none_or]
      rw [Setting.reading_of_faultless refusedBefore, Setting.reading_of_faultless faultless]
      show Request.invoke <$> invocation command (given before) (given after) = _
      rw [invocation_given command distinct log]
      rfl
    | some error =>
      rw [Setting.reading_of_refused refusedBefore, Setting.reading_of_refused (distinct.refused refusedBefore)]
      rfl
  | some error =>
    have refused : refusal? (before ++ after) = some error := by
      have faultless : refusal? before = none :=
        distinct.refusal?_eq_none_or.resolve_right (by rw [refusedAfter]; exact Option.some_ne_none error)
      rw [Setting.refusal?_append (distinct.find?_eq_none_or .logFormat), faultless, refusedAfter, Option.none_or]
    rw [Setting.reading_of_refused refusedAfter, Setting.reading_of_refused refused]
    rfl

end CommandLine

/-! ## Command lines -/

/-- The values of the options of a command line. -/
structure Settings where
  pattern : String
  tree? : Option String
  /-- Whether a search is to stop at the first match. -/
  first : Bool
  logFilter? : Option String
  logFormat? : Option String

namespace Settings

open Setting (value)

/-- The settings one by one. -/
def list (settings : Settings) : List Setting :=
  value .pattern settings.pattern :: settings.tree?.toList.map (value .tree) ++
    (if settings.first then [.first] else []) ++ settings.logFilter?.toList.map (value .logFilter) ++
    settings.logFormat?.toList.map (value .logFormat)

/-- Settings with proper values that a command knows. -/
structure Fits (settings : Settings) (command : Command) : Prop where
  proper : ∀ setting ∈ settings.list, setting.Proper
  search : settings.first = true → command = .search

/-- What a command with these settings asks for. -/
def request (settings : Settings) (command : Command) : Except UsageError Request := do
  let logFormat ← match settings.logFormat? with
    | none => pure default
    | some text => GivenOptions.format text
  pure (.invoke {
    task := CommandLine.task settings.first command
    pattern := settings.pattern
    tree? := settings.tree?
    logFilter := settings.logFilter?.getD CommandLine.standardFilter
    logFormat := logFormat })

theorem distinct_list (settings : Settings) : Setting.Distinct settings.list := by
  rcases settings with ⟨pattern, _ | tree, _ | _, _ | logFilter, _ | logFormat⟩ <;>
    simp [Setting.Distinct, list, Setting.option?]

theorem first_mem_list {settings : Settings} : Setting.first ∈ settings.list ↔ settings.first = true := by
  simp [list]

/-- The value of an option. -/
def text? (settings : Settings) : ValueOption → Option String
  | .logFilter => settings.logFilter?
  | .logFormat => settings.logFormat?
  | .pattern => some settings.pattern
  | .tree => settings.tree?

theorem find?_list (settings : Settings) (option : ValueOption) :
    Setting.find? option settings.list = settings.text? option := by
  apply Option.ext
  intro text
  rw [settings.distinct_list.find?_eq_some_iff]
  cases option <;> simp [list, text?, eq_comm (a := text)]

theorem invocation_list (settings : Settings) (command : Command) :
    CommandLine.invocation command .none (Setting.given settings.list) = .ok {
      task := CommandLine.task settings.first command
      pattern := settings.pattern
      tree? := settings.tree?
      logFilter := settings.logFilter?.getD CommandLine.standardFilter
      logFormat := (settings.logFormat?.bind LogFormat.ofName?).getD default } := by
  simp [CommandLine.invocation, Setting.given, find?_list, text?, first_mem_list, GivenOptions.none]
  rfl

theorem reading_list (settings : Settings) (command : Command) : (Setting.reading settings.list >>= fun options =>
    Request.invoke <$> CommandLine.invocation command .none options) = settings.request command := by
  have read : Setting.find? .logFormat settings.list = settings.logFormat? := settings.find?_list .logFormat
  have asked := settings.invocation_list command
  rw [request]
  cases named : settings.logFormat? with
  | none =>
    rw [Setting.reading_of_faultless (by rw [Setting.refusal?, read, named]; rfl)]
    show Request.invoke <$> CommandLine.invocation command .none (Setting.given settings.list) = _
    rw [asked, named]
    rfl
  | some text =>
    dsimp only
    cases known : LogFormat.ofName? text with
    | none =>
      rw [Setting.reading_of_refused (by rw [Setting.refusal?, read, named, Option.bind_some, known]),
        GivenOptions.format, known]
      rfl
    | some format =>
      rw [Setting.reading_of_faultless (by rw [Setting.refusal?, read, named, Option.bind_some, known]),
        GivenOptions.format, known]
      show Request.invoke <$> CommandLine.invocation command .none (Setting.given settings.list) = _
      rw [asked, named, Option.bind_some, known]
      rfl

end Settings

namespace CommandLine

/-- The arguments of a command with settings: every setting is written once, behind the command or, if it is of the
log, before it. -/
inductive Writes (command : Command) (settings : Settings) : List String → Prop
  | intro (before after : List Setting) (first later : List (List String))
      (all : (before ++ after).Perm settings.list) (log : ∀ setting ∈ before, setting.OfLog)
      (writesBefore : List.Forall₂ Setting.Writes before first)
      (writesAfter : List.Forall₂ Setting.Writes after later) :
      Writes command settings (first.flatten ++ command.name :: later.flatten)

theorem Writes.read {command : Command} {settings : Settings} (fits : settings.Fits command)
    {arguments : List String} (writes : Writes command settings arguments) :
    read arguments = settings.request command := by
  obtain ⟨before, after, first, later, all, log, writesBefore, writesAfter⟩ := writes
  have distinct := settings.distinct_list.perm all.symm
  rw [read_settings writesBefore writesAfter (fun setting member => fits.proper setting (all.mem_iff.1 member)) log
    (fun member => fits.search (Settings.first_mem_list.1 (all.mem_iff.1 (List.mem_append_right _ member)))) distinct,
    distinct.reading_perm all, settings.reading_list]

end CommandLine

/-- A command with settings asks for the same and leaves the same behind, however it is written. -/
theorem run_reordered {command : Command} {settings : Settings} (fits : settings.Fits command)
    {arguments other : List String} (writes : CommandLine.Writes command settings arguments)
    (otherwise : CommandLine.Writes command settings other) :
    CommandLine.read arguments = settings.request command ∧
      ∀ surroundings, run arguments surroundings = run other surroundings := by
  have read := writes.read fits
  refine ⟨read, ?_⟩
  intro surroundings
  rw [run, run, read, otherwise.read fits]

/-- A value may be the name of a command or hold an equals sign, and the options of the log may change sides. -/
theorem run_reordered_sides :
    let settings : Settings := ⟨"match", some "a=b", true, some "trace", some "JSON"⟩
    let arguments := ["--log-filter=trace", "search", "--pattern", "match", "--log-format", "JSON", "--first",
      "--tree=a=b"]
    let other := ["--log-format=JSON", "search", "--tree", "a=b", "--first", "--log-filter", "trace", "--pattern=match"]
    settings.Fits .search ∧ CommandLine.Writes .search settings arguments ∧
      CommandLine.Writes .search settings other ∧
      CommandLine.read arguments = .ok (.invoke ⟨.search true, "match", some "a=b", "trace", .json⟩) ∧
      ∀ surroundings, run arguments surroundings = run other surroundings := by
  intro settings arguments other
  have fits : settings.Fits .search :=
    { proper := by simp [settings, Settings.list, Setting.Proper]
      search := fun _ => rfl }
  have writes : CommandLine.Writes .search settings arguments :=
    .intro [.value .logFilter "trace"]
      [.value .pattern "match", .value .logFormat "JSON", .first, .value .tree "a=b"]
      [["--log-filter=trace"]]
      [["--pattern", "match"], ["--log-format", "JSON"], ["--first"], ["--tree=a=b"]]
      (by decide)
      (by simp [Setting.OfLog, ValueOption.ofLog])
      (.cons (.attached .logFilter "trace") .nil)
      (.cons (.apart .pattern "match") (.cons (.apart .logFormat "JSON") (.cons .flag
        (.cons (.attached .tree "a=b") .nil))))
  have otherwise : CommandLine.Writes .search settings other :=
    .intro [.value .logFormat "JSON"]
      [.value .tree "a=b", .first, .value .logFilter "trace", .value .pattern "match"]
      [["--log-format=JSON"]]
      [["--tree", "a=b"], ["--first"], ["--log-filter", "trace"], ["--pattern=match"]]
      (by decide)
      (by simp [Setting.OfLog, ValueOption.ofLog])
      (.cons (.attached .logFormat "JSON") .nil)
      (.cons (.apart .tree "a=b") (.cons .flag (.cons (.apart .logFilter "trace")
        (.cons (.attached .pattern "match") .nil))))
  obtain ⟨read, same⟩ := run_reordered fits writes otherwise
  have request : settings.request .search = .ok (.invoke ⟨.search true, "match", some "a=b", "trace", .json⟩) := by
    decide
  exact ⟨fits, writes, otherwise, read.trans request, same⟩

end TreeMatch
