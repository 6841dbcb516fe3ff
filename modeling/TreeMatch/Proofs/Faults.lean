import TreeMatch.Proofs.Reading

/-!
# Faults of mappings

`IllFormed` says which mappings of a document are neither plain nor a directive, and `Blames` which
error such a mapping is rejected with: the causes have an order, and each rules out those before it. The
error that reading gives a mapping is this one (`blames_directiveError`), and there is no other
(`Blames.unique`).
-/

namespace TreeMatch

open Document (isDirective directiveKeys directiveFault Plain Directive isDirective_of_known)

/-! ## What is wrong with a mapping -/

/-- A mapping with the key of a directive that is no well-formed directive. -/
inductive IllFormed (fields : List (String × Node)) : Prop where
  /-- It has a plain key as well. -/
  | mixed {directive plain : String} (directive_listed : directive ∈ Fields.names fields)
      (isDirective_directive : isDirective directive = true) (plain_listed : plain ∈ Fields.names fields)
      (isDirective_plain : isDirective plain = false)
  /-- It has a directive that there is not. -/
  | unknown {directive : String} (listed : directive ∈ Fields.names fields)
      (isDirective_directive : isDirective directive = true) (unknown : directive ∉ directiveKeys)
  /-- It has a literal and another key. -/
  | literal (listed : "$literal" ∈ Fields.names fields)
      (others : ∃ key ∈ Fields.names fields, key ≠ "$literal")
  /-- It has an exact sequence and another key. -/
  | exactOthers (listed : "$exact" ∈ Fields.names fields)
      (others : ∃ key ∈ Fields.names fields, key ≠ "$exact")
  /-- It has an exact sequence that is no array. -/
  | exactValue (listed : "$exact" ∈ Fields.names fields)
      (noArray : ∀ items, fields.lookup "$exact" ≠ some (.array items))
  /-- It has a directive, but no literal and no exact sequence, and no text as the name of an
  extraction. -/
  | nameless (directive : ∃ key ∈ Fields.names fields, isDirective key = true)
      (noLiteral : "$literal" ∉ Fields.names fields) (noExact : "$exact" ∉ Fields.names fields)
      (noName : ∀ name, fields.lookup "$extract" ≠ some (.string name))

/-- The error that a mapping at a path is rejected with. Each cause is ruled out before the next. -/
inductive Blames (path : String) (fields : List (String × Node)) : DocumentError → Prop where
  /-- The least plain key is named. -/
  | mixed {plain : String} (listed : plain ∈ Fields.names fields) (isPlain : isDirective plain = false)
      (least : ∀ other ∈ Fields.names fields, isDirective other = false → plain ≤ other) :
      Blames path fields (.mixedDirective path plain)
  /-- The least unknown directive is named. -/
  | unknown (directives : ∀ key ∈ Fields.names fields, isDirective key = true) {directive : String}
      (listed : directive ∈ Fields.names fields) (isUnknown : directive ∉ directiveKeys)
      (least : ∀ other ∈ Fields.names fields, other ∉ directiveKeys → directive ≤ other) :
      Blames path fields (.unknownDirective path directive)
  | literal (known : ∀ key ∈ Fields.names fields, key ∈ directiveKeys)
      (listed : "$literal" ∈ Fields.names fields)
      (others : ∃ key ∈ Fields.names fields, key ≠ "$literal") :
      Blames path fields
        (.invalidDirective path "`$literal` cannot be combined with other directives")
  | exactOthers (known : ∀ key ∈ Fields.names fields, key ∈ directiveKeys)
      (noLiteral : "$literal" ∉ Fields.names fields) (listed : "$exact" ∈ Fields.names fields)
      (others : ∃ key ∈ Fields.names fields, key ≠ "$exact") :
      Blames path fields
        (.invalidDirective path "`$exact` cannot be combined with other directives")
  | exactValue (alone : Fields.names fields = ["$exact"])
      (noArray : ∀ items, fields.lookup "$exact" ≠ some (.array items)) :
      Blames path fields (.invalidDirective path "`$exact` expects a sequence")
  | nameNotText (known : ∀ key ∈ Fields.names fields, key ∈ directiveKeys)
      (noLiteral : "$literal" ∉ Fields.names fields) (noExact : "$exact" ∉ Fields.names fields)
      (listed : "$extract" ∈ Fields.names fields)
      (noName : ∀ name, fields.lookup "$extract" ≠ some (.string name)) :
      Blames path fields (.invalidDirective path "`$extract` expects a capture name string")
  | nameMissing (known : ∀ key ∈ Fields.names fields, key ∈ directiveKeys)
      (noLiteral : "$literal" ∉ Fields.names fields) (noExact : "$exact" ∉ Fields.names fields)
      (noExtract : "$extract" ∉ Fields.names fields) :
      Blames path fields
        (.invalidDirective path "`$match` is only valid alongside `$extract`")

theorem IllFormed.not_plain {fields : List (String × Node)} (illFormed : IllFormed fields) :
    ¬ Plain fields := by
  intro plain
  cases illFormed with
  | mixed listed directive => exact plain.not_mem directive listed
  | unknown listed directive => exact plain.not_mem directive listed
  | literal listed => exact plain.not_mem (by decide) listed
  | exactOthers listed => exact plain.not_mem (by decide) listed
  | exactValue listed => exact plain.not_mem (by decide) listed
  | nameless directive =>
    obtain ⟨key, listed, directive⟩ := directive
    exact plain.not_mem directive listed

theorem IllFormed.not_directive {fields : List (String × Node)} (illFormed : IllFormed fields) :
    ¬ Directive fields := by
  intro directive
  have known := Directive.known directive
  cases illFormed with
  | @mixed _ plain _ _ listed isPlain =>
    rw [isDirective_of_known (known plain listed)] at isPlain
    cases isPlain
  | unknown listed _ unknown => exact unknown (known _ listed)
  | literal listed others => cases directive <;> simp [Fields.names] at listed others
  | exactOthers listed others => cases directive <;> simp [Fields.names] at listed others
  | exactValue listed noArray => cases directive <;> simp [Fields.names] at listed noArray
  | nameless _ noLiteral noExact noName =>
    cases directive <;> simp [Fields.names] at noLiteral noExact noName

theorem Blames.illFormed {path : String} {fields : List (String × Node)} {error : DocumentError}
    (blames : Blames path fields error) (mixed : ¬ Plain fields) : IllFormed fields := by
  have directive : ∃ key ∈ Fields.names fields, isDirective key = true := by
    simpa [Plain] using mixed
  cases blames with
  | mixed listed isPlain =>
    obtain ⟨key, here, isDirective⟩ := directive
    exact .mixed here isDirective listed isPlain
  | unknown directives listed isUnknown => exact .unknown listed (directives _ listed) isUnknown
  | literal _ listed others => exact .literal listed others
  | exactOthers _ _ listed others => exact .exactOthers listed others
  | exactValue alone noArray => exact .exactValue (by simp [alone]) noArray
  | nameNotText _ noLiteral noExact _ noName => exact .nameless directive noLiteral noExact noName
  | nameMissing _ noLiteral noExact noExtract =>
    refine .nameless directive noLiteral noExact ?_
    intro name found
    exact noExtract (Fields.mem_names_of_lookup found)

/-! ## The error of a mapping -/

/-- Of a mapping without literal and exact sequence an extraction with a text is a directive. -/
theorem directive_of_name {fields : List (String × Node)} (ascending : Fields.Ascending fields)
    (known : ∀ key ∈ Fields.names fields, key ∈ directiveKeys) (noLiteral : "$literal" ∉ Fields.names fields)
    (noExact : "$exact" ∉ Fields.names fields) {name : String}
    (found : fields.lookup "$extract" = some (.string name)) : Directive fields := by
  have only : ∀ key ∈ Fields.names fields, key = "$extract" ∨ key = "$match" := by
    intro key listed
    have four := known key listed
    simp only [directiveKeys, List.mem_cons, List.not_mem_nil, or_false] at four
    rcases four with same | same | same | same
    · exact .inl same
    · exact .inr same
    · exact absurd (same ▸ listed) noExact
    · exact absurd (same ▸ listed) noLiteral
  by_cases nested : "$match" ∈ Fields.names fields
  · obtain ⟨inner, foundInner⟩ := Fields.exists_lookup nested
    rw [Fields.eq_pair ascending (by decide) found foundInner only]
    exact .extractWith name inner
  · have alone : ∀ key ∈ Fields.names fields, key = "$extract" := by
      intro key listed
      rcases only key listed with same | same
      · exact same
      · exact absurd (same ▸ listed) nested
    rw [Fields.eq_singleton ascending found alone]
    exact .extract name

theorem blames_directiveFault (path : String) {fields : List (String × Node)}
    (ascending : Fields.Ascending fields) (other : ¬ Directive fields)
    (known : ∀ key ∈ Fields.names fields, key ∈ directiveKeys) :
    Blames path fields (.invalidDirective path (directiveFault (Fields.names fields)).message) := by
  simp only [directiveFault, List.contains_iff_mem]
  by_cases hasLiteral : "$literal" ∈ Fields.names fields
  · rw [if_pos hasLiteral]
    refine .literal known hasLiteral (Fields.exists_other ascending hasLiteral ?_)
    rintro value rfl
    exact other (.literal value)
  rw [if_neg hasLiteral]
  by_cases hasExact : "$exact" ∈ Fields.names fields
  · rw [if_pos hasExact]
    by_cases alone : (Fields.names fields).length = 1
    · rw [if_pos alone]
      obtain ⟨key, single⟩ := List.length_eq_one_iff.1 alone
      have same : Fields.names fields = ["$exact"] := by
        rw [single, List.mem_singleton] at hasExact
        rw [single, hasExact]
      refine .exactValue same ?_
      intro items found
      have only : ∀ key ∈ Fields.names fields, key = "$exact" := by simp [same]
      rw [Fields.eq_singleton ascending found only] at other
      exact other (.exact items)
    · rw [if_neg alone]
      refine .exactOthers known hasLiteral hasExact (Fields.exists_other ascending hasExact ?_)
      rintro value rfl
      exact alone rfl
  rw [if_neg hasExact]
  by_cases hasExtract : "$extract" ∈ Fields.names fields
  · rw [if_pos hasExtract]
    refine .nameNotText known hasLiteral hasExact hasExtract ?_
    intro name found
    exact other (directive_of_name ascending known hasLiteral hasExact found)
  · rw [if_neg hasExtract]
    exact .nameMissing known hasLiteral hasExact hasExtract

/-- The error of a mapping that is no directive blames it for what is wrong with it. -/
theorem blames_directiveError (steps : List String) {fields : List (String × Node)}
    (ascending : Fields.Ascending fields) (other : ¬ Directive fields) :
    Blames (Pointer.ofSteps steps) fields (Document.directiveError steps fields) := by
  rw [Document.directiveError]
  cases plain : (Fields.names fields).find? (fun key => !isDirective key) with
  | some key =>
    obtain ⟨listed, isPlain, least⟩ := Fields.least_of_find? ascending plain
    refine .mixed listed (by simpa using isPlain) ?_
    intro later member laterPlain
    exact least later member (by simp [laterPlain])
  | none =>
    have directives : ∀ key ∈ Fields.names fields, isDirective key = true := by
      simpa using plain
    cases unknown : (Fields.names fields).find? (fun key => !directiveKeys.contains key) with
    | some key =>
      obtain ⟨listed, isUnknown, least⟩ := Fields.least_of_find? ascending unknown
      refine .unknown directives listed (by simpa using isUnknown) ?_
      intro later member laterUnknown
      exact least later member (by simpa using laterUnknown)
    | none =>
      have known : ∀ key ∈ Fields.names fields, key ∈ directiveKeys := by
        simpa using unknown
      exact blames_directiveFault (Pointer.ofSteps steps) ascending other known

theorem illFormed_iff {fields : List (String × Node)} (ascending : Fields.Ascending fields) :
    IllFormed fields ↔ ¬ Plain fields ∧ ¬ Directive fields := by
  constructor
  · exact fun illFormed => ⟨illFormed.not_plain, illFormed.not_directive⟩
  · rintro ⟨mixed, other⟩
    exact (blames_directiveError [] ascending other).illFormed mixed

/-- The causes exclude each other, and of two least keys each is below the other. -/
theorem Blames.unique {path : String} {fields : List (String × Node)} {a b : DocumentError}
    (blamesA : Blames path fields a) (blamesB : Blames path fields b) : a = b := by
  have known {key : String} := @isDirective_of_known key
  have antisymm {x y : String} := @String.le_antisymm x y
  cases blamesA <;> cases blamesB <;> first | rfl | grind [directiveKeys]

end TreeMatch
