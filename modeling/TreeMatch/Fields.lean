/-!
# Fields

Named values in strictly ascending order of their names: the form shared by tree objects and
captures. Names are ordered by code point. `Fields.assign` keeps the order and replaces an earlier
value of the same name, so the last write of a name is the one that stays.
-/

namespace TreeMatch.Fields

universe u
variable {α : Type u}

/-- The names of a list of named values, in the order of the list. -/
def names (fields : List (String × α)) : List String := fields.map Prod.fst

/-- Names stand in strictly ascending order, so none repeats. -/
def Ascending (fields : List (String × α)) : Prop := (names fields).Pairwise (· < ·)

instance (fields : List (String × α)) : Decidable (Ascending fields) :=
  inferInstanceAs (Decidable ((names fields).Pairwise (· < ·)))

/-- Gives `name` the value `value`, in place of an earlier value of that name. -/
def assign (name : String) (value : α) : List (String × α) → List (String × α)
  | [] => [(name, value)]
  | (key, held) :: rest =>
    if name < key then (name, value) :: (key, held) :: rest
    else if name = key then (name, value) :: rest
    else (key, held) :: assign name value rest

/-- Gives every pair's name its value, pair by pair. -/
def assignAll (pairs : List (String × α)) (fields : List (String × α)) : List (String × α) :=
  pairs.foldl (fun held pair => assign pair.1 pair.2 held) fields

/-- The fields that a list of pairs leaves when its pairs are assigned one after the other. -/
def ofPairs (pairs : List (String × α)) : List (String × α) := assignAll pairs []

/-! ## Order -/

@[simp] theorem ascending_nil : Ascending ([] : List (String × α)) := List.Pairwise.nil

theorem ascending_cons {name : String} {value : α} {fields : List (String × α)} :
    Ascending ((name, value) :: fields) ↔ (∀ key ∈ names fields, name < key) ∧ Ascending fields := by
  simp [Ascending, names]

theorem ascending_singleton (name : String) (value : α) : Ascending [(name, value)] := by
  simp [Ascending, names]

private theorem lt_of_not_lt_of_ne {a b : String} (h : ¬ a < b) (ne : a ≠ b) : b < a := by
  have := String.le_antisymm (a := a) (b := b)
  grind

theorem mem_names_assign {key name : String} {value : α} {fields : List (String × α)} :
    key ∈ names (assign name value fields) ↔ key = name ∨ key ∈ names fields := by
  induction fields with
  | nil => simp [assign, names]
  | cons pair rest ih =>
    obtain ⟨held, old⟩ := pair
    simp only [assign]
    split
    · simp [names]
    · split
      · rename_i same
        simp [names, same]
      · simp only [names, List.map_cons, List.mem_cons] at ih ⊢
        rw [ih]
        exact or_left_comm

/-- Assigning keeps the order of the names. -/
theorem Ascending.assign {fields : List (String × α)} (ascending : Ascending fields)
    (name : String) (value : α) : Ascending (assign name value fields) := by
  induction fields with
  | nil => exact ascending_singleton name value
  | cons pair rest ih =>
    obtain ⟨held, old⟩ := pair
    obtain ⟨below, tail⟩ := ascending_cons.1 ascending
    simp only [Fields.assign]
    split
    · rename_i before
      refine ascending_cons.2 ⟨fun key mem => ?_, ascending⟩
      rcases List.mem_cons.1 mem with rfl | mem
      · exact before
      · exact String.lt_trans before (below key mem)
    · split
      · rename_i same
        exact ascending_cons.2 ⟨same ▸ below, tail⟩
      · rename_i notBefore different
        refine ascending_cons.2 ⟨fun key mem => ?_, ih tail⟩
        rcases mem_names_assign.1 mem with rfl | mem
        · exact lt_of_not_lt_of_ne notBefore different
        · exact below key mem

theorem Ascending.assignAll {fields : List (String × α)} (ascending : Ascending fields)
    (pairs : List (String × α)) : Ascending (assignAll pairs fields) := by
  induction pairs generalizing fields with
  | nil => exact ascending
  | cons pair rest ih => exact ih (ascending.assign pair.1 pair.2)

theorem ascending_ofPairs (pairs : List (String × α)) : Ascending (ofPairs pairs) :=
  ascending_nil.assignAll pairs

/-! ## Look-up -/

theorem lookup_cons (key name : String) (value : α) (fields : List (String × α)) :
    List.lookup key ((name, value) :: fields) = if key = name then some value else fields.lookup key := by
  by_cases same : key = name
  · simp [same]
  · simp [List.lookup_cons, beq_false_of_ne same, same]

/-- Looking a name up after an assignment finds the value assigned last. -/
theorem lookup_assign (key name : String) (value : α) (fields : List (String × α)) :
    (assign name value fields).lookup key = if key = name then some value else fields.lookup key := by
  induction fields with
  | nil => simp [assign, lookup_cons]
  | cons pair rest ih =>
    obtain ⟨held, old⟩ := pair
    simp only [assign]
    split
    · rw [lookup_cons]
    · split
      · rename_i same
        by_cases found : key = name <;> simp [lookup_cons, ← same, found]
      · rename_i different
        simp only [lookup_cons, ih]
        by_cases found : key = name
        · simp [found, different]
        · simp [found]

end TreeMatch.Fields
