import TreeMatch.Proofs.Captures

/-!
# Captures as the result of writes

Whatever operations captures come from, they hold what replaying the writes of these operations leaves: of each name
the value written last (`run_replays`). An operation on captures that hold some writes leaves captures that hold these
and its own (`perform_ofList`), so a run of operations holds all that they write. The laws of merging are those of
partial functions of which the later one wins.
-/

namespace TreeMatch.Captures

/-! ## Operations -/

/-- An operation on captures. -/
inductive Operation where
  /-- Starts again with one binding. -/
  | single (name : String) (value : Node)
  /-- Starts again with the bindings of a list. -/
  | collect (pairs : List (String × Node))
  | insert (name : String) (value : Node)
  | merge (other : Captures)

namespace Operation

/-- What an operation gives back, and the captures behind it. Only an insertion gives something back. -/
def perform (captures : Captures) : Operation → Option Node × Captures
  | single name value => (none, .single name value)
  | collect pairs => (none, .ofList pairs)
  | insert name value => captures.getThenInsert name value
  | merge other => (none, captures.merge other)

/-- The writes that count behind an operation, in their order, if those before it are given. -/
def writes (earlier : List (String × Node)) : Operation → List (String × Node)
  | single name value => [(name, value)]
  | collect pairs => pairs
  | insert name value => earlier ++ [(name, value)]
  | merge other => earlier ++ other.toList

end Operation

/-- The captures behind a run of operations that starts without bindings. -/
def run (operations : List Operation) : Captures :=
  operations.foldl (fun captures operation => (operation.perform captures).2) empty

/-- The writes that count behind a run of operations. -/
def written (operations : List Operation) : List (String × Node) := operations.foldl Operation.writes []

theorem insert_eq_merge (captures : Captures) (name : String) (value : Node) :
    captures.insert name value = captures.merge (.single name value) := rfl

/-- An operation adds its writes to those that the captures come from, or starts again with them. -/
theorem perform_ofList (earlier : List (String × Node)) (operation : Operation) :
    (operation.perform (ofList earlier)).2 = ofList (operation.writes earlier) := by
  cases operation with
  | single name value => rfl
  | collect pairs => rfl
  | insert name value =>
    show (ofList earlier).insert name value = ofList (earlier ++ [(name, value)])
    rw [ofList_append, insert_eq_merge]
    rfl
  | merge other =>
    show (ofList earlier).merge other = ofList (earlier ++ other.toList)
    rw [ofList_append, ofList_toList]

theorem run_eq_ofList (operations : List Operation) : run operations = ofList (written operations) := by
  have start : (empty : Captures) = ofList [] := rfl
  rw [run, written, start]
  generalize ([] : List (String × Node)) = earlier
  induction operations generalizing earlier with
  | nil => rfl
  | cons operation rest ih => rw [List.foldl_cons, List.foldl_cons, perform_ofList, ih]

/-! ## Replaying writes -/

/-- What each name has after a write. -/
def afterWrite (held : String → Option Node) (write : String × Node) : String → Option Node :=
  fun name => if name = write.1 then some write.2 else held name

/-- What each name has after writes, one after the other, that start from nothing. -/
def replay (writes : List (String × Node)) : String → Option Node := writes.foldl afterWrite fun _ => none

theorem foldl_afterWrite (writes : List (String × Node)) (held : String → Option Node) (name : String) :
    writes.foldl afterWrite held name = (writes.reverse.lookup name).or (held name) := by
  induction writes generalizing held with
  | nil => rfl
  | cons write rest ih =>
    obtain ⟨key, value⟩ := write
    rw [List.foldl_cons, ih, List.reverse_cons, List.lookup_append, Option.or_assoc, afterWrite, Fields.lookup_cons,
      List.lookup_nil]
    split <;> rfl

theorem get?_eq_replay (writes : List (String × Node)) (name : String) :
    (ofList writes).get? name = replay writes name := by
  rw [get?_ofList, replay, foldl_afterWrite, Option.or_none]

/-! ## What captures answer -/

/-- What captures answer that come from some writes. -/
structure Answers (captures : Captures) (writes : List (String × Node)) : Prop where
  /-- The bindings are listed in strictly ascending order of their names. -/
  ascending : (captures.toList.map Prod.fst).Pairwise (· < ·)
  /-- The names are listed in the same order, none of them twice. -/
  names : captures.names = captures.toList.map Prod.fst
  distinct : captures.names.Nodup
  size : captures.size = captures.names.length
  /-- What is listed and what is found is what replaying the writes leaves. -/
  listed : ∀ name value, (name, value) ∈ captures.toList ↔ replay writes name = some value
  found : ∀ name, captures.get? name = replay writes name
  contains : ∀ name, captures.contains name = true ↔ ∃ value, replay writes name = some value
  /-- An insertion gives back what it takes the place of. -/
  replaced : ∀ name value, ((Operation.insert name value).perform captures).1 = replay writes name

theorem answers_ofList (writes : List (String × Node)) : (ofList writes).Answers writes := by
  constructor
  · exact (ofList writes).ascending
  · rfl
  · exact (ofList writes).ascending.nodup
  · exact (List.length_map Prod.fst).symm
  · intro name value
    rw [← get?_eq_replay, get?_eq_some_iff]
    rfl
  · exact get?_eq_replay writes
  · intro name
    rw [contains, get?_eq_replay, Option.isSome_iff_exists]
  · exact fun name _ => get?_eq_replay writes name

/-- Captures hold of each name what was written last, whatever operations they come from. Merging is associative and
idempotent, leaves captures as they are where nothing is bound, and depends on the order exactly where the two differ
on a name. -/
theorem run_replays :
    (∀ operations : List Operation, (run operations).Answers (written operations)) ∧
      (∀ a b c : Captures, (a.merge b).merge c = a.merge (b.merge c)) ∧
      (∀ a : Captures, empty.merge a = a ∧ a.merge empty = a ∧ a.merge a = a) ∧
      ∀ a b : Captures, a.merge b = b.merge a ↔ ∀ name x y, a.get? name = some x → b.get? name = some y → x = y := by
  refine ⟨?_, ?_, ?_, ?_⟩
  · intro operations
    rw [run_eq_ofList]
    exact answers_ofList (written operations)
  · exact merge_assoc
  · intro a
    exact ⟨empty_merge a, merge_empty a, merge_self a⟩
  · exact fun a b => merge_comm_iff

end TreeMatch.Captures
