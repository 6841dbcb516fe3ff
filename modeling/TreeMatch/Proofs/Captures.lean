import TreeMatch.Captures
import TreeMatch.Proofs.Fields

/-!
# Laws of captures

Captures are the partial function from names to trees that `Captures.get?` reads (`ext_get?`), and
merging lets the later binding of a name win (`get?_merge`). So merging is associative with the empty
captures as its identity. `Captures.union` says the same of the two lists of bindings without any
assignment, and is what merging computes (`union_eq_merge`).
-/

namespace TreeMatch.Captures

/-- Captures that bind the same names to the same trees are equal. -/
theorem ext_get? {a b : Captures} (same : ∀ name, a.get? name = b.get? name) : a = b := by
  obtain ⟨bindingsA, ascendingA⟩ := a
  obtain ⟨bindingsB, ascendingB⟩ := b
  have equal : bindingsA = bindingsB := Fields.ext_lookup ascendingA ascendingB same
  subst equal
  rfl

@[simp] theorem get?_empty (name : String) : empty.get? name = none := rfl

theorem get?_single (name key : String) (value : Node) :
    (single name value).get? key = if key = name then some value else none := by
  simp only [single, get?, Fields.lookup_cons, List.lookup_nil]

theorem get?_eq_some_iff {captures : Captures} {name : String} {value : Node} :
    captures.get? name = some value ↔ (name, value) ∈ captures.bindings :=
  Fields.lookup_eq_some_iff_mem captures.ascending

theorem mem_names_iff {captures : Captures} {name : String} : name ∈ captures.names ↔ (captures.get? name).isSome :=
  Fields.isSome_lookup_iff.symm

/-- The order of the names does not depend on how they were bound. -/
theorem names_eq_iff {a b : Captures} : a.names = b.names ↔ ∀ name, name ∈ a.names ↔ name ∈ b.names := by
  constructor
  · intro same name
    rw [same]
  · intro members
    have permuted : a.names.Perm b.names :=
      (List.perm_ext_iff_of_nodup a.ascending.nodup b.ascending.nodup).2 members
    refine permuted.eq_of_pairwise ?_ a.ascending b.ascending
    intro x y _ _ less greater
    exact absurd (String.lt_trans less greater) (String.lt_irrefl _)

/-! ## Merging -/

/-- Where both bind a name, the later binding stays. -/
theorem get?_merge (captures later : Captures) (name : String) :
    (captures.merge later).get? name = (later.get? name).or (captures.get? name) := by
  simp only [merge, get?, Fields.lookup_assignAll, later.ascending.lookup_reverse]

@[simp] theorem merge_empty (captures : Captures) : captures.merge empty = captures := rfl

@[simp] theorem empty_merge (captures : Captures) : empty.merge captures = captures := by
  apply ext_get?
  intro name
  rw [get?_merge, get?_empty, Option.or_none]

theorem merge_assoc (a b c : Captures) : (a.merge b).merge c = a.merge (b.merge c) := by
  apply ext_get?
  intro name
  simp only [get?_merge, Option.or_assoc]

@[simp] theorem merge_self (captures : Captures) : captures.merge captures = captures := by
  apply ext_get?
  intro name
  rw [get?_merge, Option.or_self]

/-- The order of merging makes no difference exactly if both agree on every name that both bind. -/
theorem merge_comm_iff {a b : Captures} :
    a.merge b = b.merge a ↔ ∀ name x y, a.get? name = some x → b.get? name = some y → x = y := by
  constructor
  · intro same name x y boundA boundB
    have both := congrArg (fun captures => captures.get? name) same
    simp only [get?_merge, boundA, boundB, Option.some_or] at both
    exact (Option.some.inj both).symm
  · intro agree
    apply ext_get?
    intro name
    rw [get?_merge, get?_merge]
    cases boundA : a.get? name with
    | none => rw [Option.or_none, Option.none_or]
    | some x =>
      cases boundB : b.get? name with
      | none => rw [Option.or_none, Option.none_or]
      | some y => rw [Option.some_or, Option.some_or, agree name x y boundA boundB]

/-! ## Lists of bindings -/

/-- Of the bindings of a name in a list the last one stays. -/
theorem get?_ofList (pairs : List (String × Node)) (name : String) :
    (ofList pairs).get? name = pairs.reverse.lookup name := by
  show (Fields.assignAll pairs []).lookup name = _
  rw [Fields.lookup_assignAll, List.lookup_nil, Option.or_none]

theorem ofList_append (first later : List (String × Node)) :
    ofList (first ++ later) = (ofList first).merge (ofList later) := by
  apply ext_get?
  intro name
  rw [get?_merge, get?_ofList, get?_ofList, get?_ofList, List.reverse_append, List.lookup_append]

@[simp] theorem ofList_toList (captures : Captures) : ofList captures.toList = captures := by
  apply ext_get?
  intro name
  rw [get?_ofList, toList, captures.ascending.lookup_reverse, get?]

/-! ## Union -/

/-- The bindings of `first` whose names `later` does not bind. -/
def spared (first later : Captures) : List (String × Node) :=
  first.bindings.filter fun binding => !later.contains binding.1

/-- Both lists of bindings in one, without those of `first` whose names `later` binds. -/
def joined (first later : Captures) : List (String × Node) :=
  (spared first later).merge later.bindings fun a b => a.1 ≤ b.1

theorem mem_spared {first later : Captures} {binding : String × Node} :
    binding ∈ spared first later ↔ binding ∈ first.bindings ∧ later.get? binding.1 = none := by
  simp [spared, contains]

theorem ascending_spared (first later : Captures) : Fields.Ascending (spared first later) :=
  List.Pairwise.sublist (List.Sublist.map _ List.filter_sublist) first.ascending

/-- No name is both spared and bound later. -/
theorem spared_ne {first later : Captures} {a b : String × Node} (memberA : a ∈ spared first later)
    (memberB : b ∈ later.bindings) : a.1 ≠ b.1 := by
  intro same
  have bound : later.get? a.1 = some b.2 := get?_eq_some_iff.2 (same ▸ memberB)
  rw [(mem_spared.1 memberA).2] at bound
  cases bound

theorem nodup_names_joined (first later : Captures) : (Fields.names (joined first later)).Nodup := by
  have split : (Fields.names (joined first later)).Perm
      (Fields.names (spared first later) ++ Fields.names later.bindings) := by
    rw [Fields.names, Fields.names, Fields.names, ← List.map_append]
    exact List.Perm.map Prod.fst (List.merge_perm_append ..)
  refine split.symm.nodup (List.nodup_append.2
    ⟨(ascending_spared first later).nodup, later.ascending.nodup, ?_⟩)
  intro nameA memberA nameB memberB
  obtain ⟨a, inA, rfl⟩ := List.mem_map.1 memberA
  obtain ⟨b, inB, rfl⟩ := List.mem_map.1 memberB
  exact spared_ne inA inB

theorem sorted_joined (first later : Captures) :
    (joined first later).Pairwise fun a b => (a.1 ≤ b.1 : Bool) := by
  have weaken : ∀ {fields : List (String × Node)}, Fields.Ascending fields →
      fields.Pairwise (fun a b => (a.1 ≤ b.1 : Bool)) := by
    intro fields ascending
    refine ascending.pairwise.imp ?_
    intro a b less
    exact decide_eq_true (Std.le_of_lt less)
  refine List.pairwise_merge ?_ ?_ _ _ (weaken (ascending_spared first later)) (weaken later.ascending)
  · intro a b c ab bc
    exact decide_eq_true (String.le_trans (of_decide_eq_true ab) (of_decide_eq_true bc))
  · intro a b
    simpa using String.le_total a.1 b.1

theorem ascending_joined (first later : Captures) : Fields.Ascending (joined first later) := by
  have distinct := List.pairwise_map.1 (nodup_names_joined first later)
  refine List.pairwise_map.2 (((sorted_joined first later).and distinct).imp ?_)
  rintro a b ⟨le, ne⟩
  exact Std.lt_of_le_of_ne (of_decide_eq_true le) ne

/-- The bindings of both; of a name that both bind, the later binding. -/
def union (first later : Captures) : Captures := ⟨joined first later, ascending_joined first later⟩

theorem union_eq_merge (first : Captures) : first.union = first.merge := by
  funext later
  apply ext_get?
  intro name
  apply Option.ext
  intro value
  rw [get?_merge, get?_eq_some_iff, Option.or_eq_some_iff, get?_eq_some_iff, get?_eq_some_iff]
  simp only [union, joined, List.mem_merge, mem_spared]
  constructor
  · rintro (⟨member, free⟩ | member)
    · exact .inr ⟨free, member⟩
    · exact .inl member
  · rintro (member | ⟨free, member⟩)
    · exact .inr member
    · exact .inl ⟨member, free⟩

end TreeMatch.Captures
