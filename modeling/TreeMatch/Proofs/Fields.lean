import TreeMatch.Fields

/-!
# Fields as partial functions

Fields in ascending order hold each name once, so looking a name up and listing the named value say
the same (`lookup_eq_some_iff_mem`), and two such lists with the same look-ups are equal
(`ext_lookup`). After a run of assignments a look-up finds the last value given to the name
(`lookup_assignAll`).
-/

namespace TreeMatch.Fields

universe u
variable {α : Type u}

theorem mem_names_of_mem {fields : List (String × α)} {key : String} {value : α}
    (member : (key, value) ∈ fields) : key ∈ names fields :=
  List.mem_map_of_mem (f := Prod.fst) member

/-- A name is listed exactly if looking it up finds a value. -/
theorem isSome_lookup_iff {fields : List (String × α)} {key : String} :
    (fields.lookup key).isSome ↔ key ∈ names fields := by
  rw [List.lookup_isSome_iff, names, List.mem_map]
  constructor
  · rintro ⟨field, member, same⟩
    exact ⟨field, member, (beq_iff_eq.1 same).symm⟩
  · rintro ⟨field, member, same⟩
    exact ⟨field, member, beq_iff_eq.2 same.symm⟩

theorem lookup_eq_none_iff_not_mem {fields : List (String × α)} {key : String} :
    fields.lookup key = none ↔ key ∉ names fields := by
  rw [← isSome_lookup_iff, Bool.not_eq_true, Option.isSome_eq_false_iff, Option.isNone_iff_eq_none]

theorem mem_names_of_lookup {fields : List (String × α)} {key : String} {value : α}
    (found : fields.lookup key = some value) : key ∈ names fields :=
  isSome_lookup_iff.1 (found ▸ rfl)

theorem exists_lookup {fields : List (String × α)} {key : String} (listed : key ∈ names fields) :
    ∃ value, fields.lookup key = some value :=
  Option.isSome_iff_exists.1 (isSome_lookup_iff.2 listed)

section
variable {β : Type} {change : String × α → String × β} (same : ∀ field, (change field).1 = field.1)
include same

theorem names_map (fields : List (String × α)) : names (fields.map change) = names fields := by
  simp [names, same]

theorem lookup_map (fields : List (String × α)) (key : String) :
    (fields.map change).lookup key = (fields.lookup key).map fun value => (change (key, value)).2 := by
  induction fields with
  | nil => rfl
  | cons field rest ih =>
    obtain ⟨name, value⟩ := field
    have named : change (name, value) = (name, (change (name, value)).2) := Prod.ext (same (name, value)) rfl
    rw [List.map_cons, named, lookup_cons, lookup_cons, ih]
    split
    · rename_i found
      rw [found, Option.map_some]
    · rfl

end

theorem Ascending.pairwise {fields : List (String × α)} (ascending : Ascending fields) :
    fields.Pairwise fun a b => a.1 < b.1 :=
  List.pairwise_map.1 ascending

theorem Ascending.nodup {fields : List (String × α)} (ascending : Ascending fields) :
    (names fields).Nodup :=
  List.Pairwise.imp (fun before => String.ne_of_lt before) ascending

theorem Ascending.distinct {fields : List (String × α)} (ascending : Ascending fields) : fields.Nodup := by
  refine ascending.pairwise.imp ?_
  rintro a b less rfl
  exact String.lt_irrefl _ less

/-- The first value of a name is found, even where the name repeats. -/
theorem mem_of_lookup {fields : List (String × α)} {key : String} {value : α}
    (found : fields.lookup key = some value) : (key, value) ∈ fields := by
  obtain ⟨before, after, split, -⟩ := List.lookup_eq_some_iff.1 found
  rw [split]
  exact List.mem_append_right before (List.mem_cons_self ..)

/-- Where names do not repeat, every value listed is the one that is found. -/
theorem lookup_eq_some_iff_mem {fields : List (String × α)} (ascending : Ascending fields)
    {key : String} {value : α} : fields.lookup key = some value ↔ (key, value) ∈ fields := by
  constructor
  · exact mem_of_lookup
  · intro member
    induction fields with
    | nil => simp at member
    | cons field rest ih =>
      obtain ⟨name, held⟩ := field
      obtain ⟨below, tail⟩ := ascending_cons.1 ascending
      rw [lookup_cons]
      rcases List.mem_cons.1 member with same | later
      · cases same
        simp
      · have different : key ≠ name := by
          rintro rfl
          exact String.lt_irrefl key (below key (mem_names_of_mem later))
        rw [if_neg different]
        exact ih tail later

/-- Ascending fields are determined by what looking names up finds. -/
theorem ext_lookup {a b : List (String × α)} (ascendingA : Ascending a) (ascendingB : Ascending b)
    (same : ∀ key, a.lookup key = b.lookup key) : a = b := by
  have members : ∀ field, field ∈ a ↔ field ∈ b := by
    rintro ⟨key, value⟩
    rw [← lookup_eq_some_iff_mem ascendingA, ← lookup_eq_some_iff_mem ascendingB, same key]
  have permuted : a.Perm b :=
    (List.perm_ext_iff_of_nodup ascendingA.distinct ascendingB.distinct).2 members
  refine permuted.eq_of_pairwise ?_ ascendingA.pairwise ascendingB.pairwise
  intro x y _ _ less greater
  exact absurd (String.lt_trans less greater) (String.lt_irrefl _)

theorem eq_singleton {fields : List (String × α)} (ascending : Ascending fields) {key : String} {value : α}
    (found : fields.lookup key = some value) (only : ∀ other ∈ names fields, other = key) :
    fields = [(key, value)] := by
  refine ext_lookup ascending (ascending_singleton key value) ?_
  intro other
  rw [lookup_cons, List.lookup_nil]
  by_cases same : other = key
  · rw [if_pos same, same, found]
  · rw [if_neg same, lookup_eq_none_iff_not_mem]
    exact fun listed => same (only other listed)

/-- Of several names one is another than a given one. -/
theorem exists_other {fields : List (String × α)} (ascending : Ascending fields) {key : String}
    (listed : key ∈ names fields) (several : ∀ value, fields ≠ [(key, value)]) :
    ∃ other ∈ names fields, other ≠ key := by
  obtain ⟨value, found⟩ := exists_lookup listed
  apply Classical.byContradiction
  intro none
  refine several value (eq_singleton ascending found ?_)
  intro other member
  exact Classical.byContradiction fun different => none ⟨other, member, different⟩

theorem eq_pair {fields : List (String × α)} (ascending : Ascending fields) {a b : String} {valueA valueB : α}
    (before : a < b) (foundA : fields.lookup a = some valueA) (foundB : fields.lookup b = some valueB)
    (only : ∀ other ∈ names fields, other = a ∨ other = b) : fields = [(a, valueA), (b, valueB)] := by
  have ascendingPair : Ascending [(a, valueA), (b, valueB)] :=
    ascending_cons.2 ⟨by simpa [names] using before, ascending_singleton b valueB⟩
  refine ext_lookup ascending ascendingPair ?_
  intro other
  rw [lookup_cons, lookup_cons, List.lookup_nil]
  by_cases sameA : other = a
  · rw [if_pos sameA, sameA, foundA]
  · by_cases sameB : other = b
    · rw [if_neg sameA, if_pos sameB, sameB, foundB]
    · rw [if_neg sameA, if_neg sameB, lookup_eq_none_iff_not_mem]
      intro listed
      rcases only other listed with same | same
      · exact sameA same
      · exact sameB same

/-- The first of the names with a property is the least of them. -/
theorem least_of_find? {fields : List (String × α)} (ascending : Ascending fields) {p : String → Bool}
    {key : String} (found : (names fields).find? p = some key) :
    key ∈ names fields ∧ p key = true ∧ ∀ other ∈ names fields, p other = true → key ≤ other := by
  obtain ⟨holds, before, after, split, none⟩ := List.find?_eq_some_iff_append.1 found
  refine ⟨List.mem_of_find?_eq_some found, holds, ?_⟩
  intro other listed also
  rw [Ascending, split, List.pairwise_append, List.pairwise_cons] at ascending
  rw [split] at listed
  rcases List.mem_append.1 listed with earlier | listed
  · have fails := none other earlier
    rw [also] at fails
    cases fails
  · rcases List.mem_cons.1 listed with rfl | later
    · exact String.le_refl other
    · exact Std.le_of_lt (ascending.2.1.1 other later)

/-! ## Runs of assignments -/

theorem mem_assign {name : String} {value : α} {fields : List (String × α)} {field : String × α}
    (member : field ∈ assign name value fields) : field = (name, value) ∨ field ∈ fields := by
  induction fields with
  | nil => exact .inl (List.mem_singleton.1 member)
  | cons held rest ih =>
    obtain ⟨key, old⟩ := held
    rw [assign] at member
    split at member
    · exact List.mem_cons.1 member
    · split at member
      · rcases List.mem_cons.1 member with same | later
        · exact .inl same
        · exact .inr (List.mem_cons_of_mem _ later)
      · rcases List.mem_cons.1 member with rfl | later
        · exact .inr List.mem_cons_self
        · exact (ih later).imp_right (List.mem_cons_of_mem _)

/-- A run of assignments leaves only what was assigned or held before. -/
theorem mem_assignAll {pairs fields : List (String × α)} {field : String × α}
    (member : field ∈ assignAll pairs fields) : field ∈ pairs ∨ field ∈ fields := by
  induction pairs generalizing fields with
  | nil => exact .inr member
  | cons pair rest ih =>
    rcases ih member with later | assigned
    · exact .inl (List.mem_cons_of_mem _ later)
    · rcases mem_assign assigned with rfl | held
      · exact .inl List.mem_cons_self
      · exact .inr held

/-- After a run of assignments a look-up finds the last value given to the name, else the value held
before. -/
theorem lookup_assignAll (key : String) (pairs fields : List (String × α)) :
    (assignAll pairs fields).lookup key = (pairs.reverse.lookup key).or (fields.lookup key) := by
  induction pairs generalizing fields with
  | nil => rfl
  | cons pair rest ih =>
    obtain ⟨name, value⟩ := pair
    have step : assignAll ((name, value) :: rest) fields = assignAll rest (assign name value fields) := rfl
    rw [step, ih, lookup_assign, List.reverse_cons, List.lookup_append, lookup_cons, Option.or_assoc]
    by_cases same : key = name <;> simp [same]

/-- Without repeated names it does not matter from which end a name is looked up. -/
theorem Ascending.lookup_reverse {fields : List (String × α)} (ascending : Ascending fields) (key : String) :
    fields.reverse.lookup key = fields.lookup key := by
  induction fields with
  | nil => rfl
  | cons field rest ih =>
    obtain ⟨name, value⟩ := field
    obtain ⟨below, tail⟩ := ascending_cons.1 ascending
    rw [List.reverse_cons, List.lookup_append, ih tail, lookup_cons, lookup_cons]
    by_cases same : key = name
    · have absent : rest.lookup name = none :=
        lookup_eq_none_iff_not_mem.2 fun member => String.lt_irrefl name (below name member)
      simp [same, absent]
    · simp [same]

end TreeMatch.Fields
