import TreeMatch.Event

/-!
# Results with a log

A computation gives its value together with what it logged on the way, in order: the events that it
reports, and the calls that a spied predicate notes.
-/

namespace TreeMatch

/-- One line of a log. -/
inductive LogEntry where
  | event (event : Event)
  /-- A spied predicate, known by its tag, is applied to a candidate. -/
  | call (tag candidate : Node)

/-- A value and the log of its computation. -/
@[ext]
structure Logged (α : Type) where
  value : α
  log : List LogEntry

namespace Logged

variable {α β : Type}

/-- The second computation runs after the first and logs after it. A function of the value logs
nothing. -/
instance : Monad Logged where
  pure value := ⟨value, []⟩
  bind first next := ⟨(next first.value).value, first.log ++ (next first.value).log⟩
  map change logged := ⟨change logged.value, logged.log⟩

/-- Reports an event. -/
def report (event : Event) : Logged Unit := ⟨(), [.event event]⟩

/-- Reports events in their order. -/
def reportAll (events : List Event) : Logged Unit := ⟨(), events.map .event⟩

/-- Notes a call. -/
def noteCall (tag candidate : Node) : Logged Unit := ⟨(), [.call tag candidate]⟩

/-- Reports why there is no result. -/
def fail (event : Event) : Logged (Option α) := ⟨none, [.event event]⟩

/-- The events of a log. -/
def events (logged : Logged α) : List Event :=
  logged.log.filterMap fun
    | .event event => some event
    | .call .. => none

/-- The calls of a log. -/
def calls (logged : Logged α) : List (Node × Node) :=
  logged.log.filterMap fun
    | .event _ => none
    | .call tag candidate => some (tag, candidate)

@[simp] theorem value_pure (value : α) : (pure value : Logged α).value = value := rfl

@[simp] theorem log_pure (value : α) : (pure value : Logged α).log = [] := rfl

@[simp] theorem value_map (change : α → β) (logged : Logged α) :
    (change <$> logged).value = change logged.value := rfl

@[simp] theorem log_map (change : α → β) (logged : Logged α) : (change <$> logged).log = logged.log := rfl

@[simp] theorem value_bind (first : Logged α) (next : α → Logged β) :
    (first >>= next).value = (next first.value).value := rfl

@[simp] theorem log_bind (first : Logged α) (next : α → Logged β) :
    (first >>= next).log = first.log ++ (next first.value).log := rfl

/-- However a computation is divided into steps, it gives the same value and the same log. -/
instance : LawfulMonad Logged where
  map_const := rfl
  id_map _ := rfl
  seqLeft_eq _ _ := by simp [SeqLeft.seqLeft, Seq.seq, Functor.map]
  seqRight_eq _ _ := by simp [SeqRight.seqRight, Seq.seq, Functor.map]
  pure_seq _ _ := rfl
  bind_pure_comp _ _ := by simp [bind, pure, Functor.map]
  bind_map _ _ := rfl
  pure_bind _ _ := rfl
  bind_assoc _ _ _ := by simp [bind]

end Logged

end TreeMatch
