import TreeMatch.Proofs.Faults
import TreeMatch.Proofs.Places

/-!
# Rejected documents

A tree is rejected for the first of its mappings that is ill-formed. `Node.Reaches` says which mappings
reading comes to, and `Judges` what the error of a reading has to say of them; it passes from the parts
of a tree to the tree. `compile_blames` puts the two together: the order of mappings is the pre-order of
places, and the path of the error leads back to the mapping.
-/

namespace TreeMatch

open Document (isDirective Plain Directive readAt readItems readFields readAt_plain readAt_faulty)

/-! ## What reading comes to -/

/-- Reading goes from a tree into one of its parts: into elements and values of plain fields, into the
array of an exact sequence and the pattern of an extraction, but not into a literal. -/
inductive Node.Enters : Node → String → Node → Prop where
  | element {items : List Node} {index : Nat} {item : Node} (listed : items[index]? = some item) :
      Enters (.array items) (Pointer.indexStep index) item
  | value {fields : List (String × Node)} {key : String} {value : Node} (plain : Plain fields)
      (listed : fields.lookup key = some value) : Enters (.object fields) key value
  | exact {fields : List (String × Node)} {items : List Node}
      (outside : "$literal" ∉ Fields.names fields)
      (listed : fields.lookup "$exact" = some (.array items)) :
      Enters (.object fields) "$exact" (.array items)
  | inner {fields : List (String × Node)} {inner : Node} (outside : "$literal" ∉ Fields.names fields)
      (named : "$extract" ∈ Fields.names fields) (listed : fields.lookup "$match" = some inner) :
      Enters (.object fields) "$match" inner

/-- The fields of a mapping that reading comes to by some steps. -/
inductive Node.Reaches : Node → List String → List (String × Node) → Prop where
  | here (fields : List (String × Node)) : Reaches (.object fields) [] fields
  | inside {node child : Node} {step : String} (enters : node.Enters step child) {steps : List String}
      {fields : List (String × Node)} (reaches : Reaches child steps fields) :
      Reaches node (step :: steps) fields

theorem Node.Enters.child? {node child : Node} {step : String} (enters : node.Enters step child) :
    node.child? step = some child := by
  cases enters with
  | element listed => exact (child?_array_indexStep _ _).trans listed
  | value plain listed => exact listed
  | exact outside listed => exact listed
  | inner outside named listed => exact listed

theorem Node.Reaches.descend? {node : Node} {steps : List String} {fields : List (String × Node)}
    (reaches : node.Reaches steps fields) : node.descend? steps = some (.object fields) := by
  induction reaches with
  | here fields => rfl
  | inside enters reaches ih => exact descend?_cons_eq_some_iff.2 ⟨_, enters.child?, ih⟩

/-! ## The error of a reading -/

/-- The error that a reading ends in. -/
def fault? {α : Type} : Except DocumentError α → Option DocumentError
  | .ok _ => none
  | .error error => some error

theorem fault?_eq_none_iff {α : Type} {reading : Except DocumentError α} :
    fault? reading = none ↔ ∃ result, reading = .ok result := by
  cases reading <;> simp [fault?]

theorem fault?_eq_some_iff {α : Type} {reading : Except DocumentError α} {error : DocumentError} :
    fault? reading = some error ↔ reading = .error error := by
  cases reading <;> simp [fault?]

theorem fault?_map {α β : Type} (change : α → β) (reading : Except DocumentError α) :
    fault? (change <$> reading) = fault? reading := by
  cases reading <;> rfl

theorem fault?_both {α β γ : Type} (first : Except DocumentError α) (later : Except DocumentError β)
    (join : α → β → γ) :
    fault? (do let a ← first; let b ← later; pure (join a b)) = (fault? first).or (fault? later) := by
  cases first with
  | error error => rfl
  | ok a => cases later <;> rfl

theorem fault?_readItems (steps : List String) (index : Nat) (items : List Node) :
    fault? (readItems steps index items) =
      (Node.elements index items).findSome? fun part => fault? (readAt (steps ++ [part.1]) part.2) := by
  induction items generalizing index with
  | nil => rfl
  | cons item rest ih =>
    rw [readItems, fault?_both, ih, Node.elements, List.findSome?_cons]
    cases fault? (readAt (steps ++ [Pointer.indexStep index]) item) <;> rfl

theorem fault?_readFields (steps : List String) (fields : List (String × Node)) :
    fault? (readFields steps fields) =
      fields.findSome? fun part => fault? (readAt (steps ++ [part.1]) part.2) := by
  induction fields with
  | nil => rfl
  | cons field rest ih =>
    obtain ⟨key, value⟩ := field
    rw [readFields, fault?_both, ih, List.findSome?_cons]
    cases fault? (readAt (steps ++ [key]) value) <;> rfl

/-! ## The first fault -/

/-- A mapping is the first in pre-order of those that reading comes to and that are ill-formed. -/
structure FirstFault (root : Node) (steps : List String) (fields : List (String × Node)) : Prop where
  reaches : root.Reaches steps fields
  illFormed : IllFormed fields
  first : ∀ other faulty, root.Reaches other faulty → IllFormed faulty →
    other = steps ∨ root.Precedes steps other

/-- Whether an error is the right one for a tree that stands at a place of the whole. -/
def Judges (node : Node) (steps : List String) : Option DocumentError → Prop
  | none => ∀ below fields, node.Reaches below fields → ¬ IllFormed fields
  | some error => ∃ below fields, FirstFault node below fields ∧
      Blames (Pointer.ofSteps (steps ++ below)) fields error

/-- The first error of the parts is right for the whole, if reading goes into these parts in order and
the whole is not at fault itself. -/
theorem judges_findSome? {node : Node} (parts : List (String × Node))
    (itself : ∀ fields, node = .object fields → ¬ IllFormed fields)
    (entered : ∀ step child, node.Enters step child ↔ (step, child) ∈ parts)
    (ordered : parts.Pairwise fun a b => node.Before a.1 b.1) {steps : List String}
    {judge : String × Node → Option DocumentError}
    (each : ∀ part ∈ parts, Judges part.2 (steps ++ [part.1]) (judge part)) :
    Judges node steps (parts.findSome? judge) := by
  cases result : parts.findSome? judge with
  | none =>
    rw [List.findSome?_eq_none_iff] at result
    intro below fields reaches
    cases reaches with
    | here => exact itself fields rfl
    | inside enters reaches =>
      have member := (entered _ _).1 enters
      have judged := each _ member
      rw [result _ member] at judged
      exact judged _ fields reaches
  | some error =>
    obtain ⟨before, ⟨step, child⟩, after, split, found, clean⟩ := List.findSome?_eq_some_iff.1 result
    have member : (step, child) ∈ parts := by simp [split]
    have enters := (entered step child).2 member
    have judged := each (step, child) member
    rw [found] at judged
    obtain ⟨below, fields, fault, blames⟩ := judged
    rw [List.append_assoc] at blames
    refine ⟨step :: below, fields, ⟨.inside enters fault.reaches, fault.illFormed, ?_⟩, blames⟩
    intro other faulty reaches illFormed
    cases reaches with
    | here => exact absurd illFormed (itself faulty rfl)
    | @inside _ otherChild otherStep otherEnters _ _ reaches =>
      have otherMember := (entered otherStep otherChild).1 otherEnters
      have otherJudged := each (otherStep, otherChild) otherMember
      rw [split] at otherMember ordered
      rcases List.mem_append.1 otherMember with earlier | otherMember
      · rw [clean _ earlier] at otherJudged
        exact absurd illFormed (otherJudged _ faulty reaches)
      · rcases List.mem_cons.1 otherMember with same | later
        · cases same
          rcases fault.first _ faulty reaches illFormed with same | precedes
          · exact .inl (same ▸ rfl)
          · exact .inr (.within enters.child? precedes)
        · rw [List.pairwise_append, List.pairwise_cons] at ordered
          exact .inr (.beside (ordered.2.1.1 _ later) _ _)

/-! ## The parts of a tree -/

theorem judges_scalar (node : Node) (isScalar : node.IsScalar) (steps : List String) :
    Judges node steps none := by
  intro below fields reaches
  cases reaches with
  | here => exact isScalar.elim
  | inside enters => cases enters <;> exact isScalar.elim

theorem enters_array_iff {items : List Node} {step : String} {child : Node} :
    (Node.array items).Enters step child ↔ (step, child) ∈ (Node.array items).parts := by
  simp only [Node.parts, Node.mem_elements, Nat.zero_add]
  constructor
  · intro enters
    cases enters with
    | @element _ index _ listed => exact ⟨index, listed, rfl⟩
  · rintro ⟨index, listed, rfl⟩
    exact .element listed

theorem enters_plain_iff {fields : List (String × Node)} (ascending : Fields.Ascending fields)
    (plain : Plain fields) {step : String} {child : Node} :
    (Node.object fields).Enters step child ↔ (step, child) ∈ fields := by
  constructor
  · intro enters
    cases enters with
    | value _ listed => exact Fields.mem_of_lookup listed
    | exact _ listed => exact absurd (Fields.mem_names_of_lookup listed) (plain.not_mem (by decide))
    | inner _ _ listed => exact absurd (Fields.mem_names_of_lookup listed) (plain.not_mem (by decide))
  · intro member
    exact .value plain ((Fields.lookup_eq_some_iff_mem ascending).2 member)

/-- The one part of a directive that is read as a document, if there is one. -/
def directiveParts : List (String × Node) → List (String × Node)
  | [("$exact", items)] => [("$exact", items)]
  | [("$extract", _), ("$match", inner)] => [("$match", inner)]
  | _ => []

theorem enters_directive_iff {fields : List (String × Node)} (directive : Directive fields) {step : String}
    {child : Node} :
    (Node.object fields).Enters step child ↔ (step, child) ∈ directiveParts fields := by
  constructor
  · intro enters
    cases enters with
    | value plain => exact absurd plain directive.not_plain
    | exact outside listed =>
      cases directive <;> simp_all [directiveParts, Fields.names, Fields.lookup_cons]
    | inner outside named listed =>
      cases directive <;> simp_all [directiveParts, Fields.names, Fields.lookup_cons]
  · intro member
    cases directive with
    | literal value => cases member
    | exact items =>
      cases List.mem_singleton.1 member
      exact .exact (by simp [Fields.names]) rfl
    | extract name => cases member
    | extractWith name inner =>
      cases List.mem_singleton.1 member
      exact .inner (by simp [Fields.names]) (by simp [Fields.names]) rfl

theorem fault?_readAt_directive (steps : List String) {fields : List (String × Node)}
    (directive : Directive fields) :
    fault? (readAt steps (.object fields)) =
      (directiveParts fields).findSome? fun part =>
        fault? (readAt (steps ++ [part.1]) part.2) := by
  cases directive with
  | literal value => rfl
  | exact items =>
    have whole : readAt (steps ++ ["$exact"]) (.array items) =
        Document.array <$> readItems (steps ++ ["$exact"]) 0 items := by
      rw [readAt]
    rw [readAt, fault?_map, directiveParts, List.findSome?_cons, whole,
      fault?_map]
    cases fault? (readItems (steps ++ ["$exact"]) 0 items) <;> rfl
  | extract name => rfl
  | extractWith name inner =>
    rw [readAt, fault?_map, directiveParts, List.findSome?_cons]
    cases fault? (readAt (steps ++ ["$match"]) inner) <;> rfl

/-- A reading ends in the error of the first mapping at fault, if there is one. -/
theorem judges_readAt {root : Node} (wellFormed : root.WellFormed) (steps : List String) :
    Judges root steps (fault? (readAt steps root)) := by
  induction root using Node.inductParts generalizing steps with
  | whole root ih =>
    have each : ∀ part ∈ root.parts, Judges part.2 (steps ++ [part.1])
        (fault? (readAt (steps ++ [part.1]) part.2)) :=
      fun part member => ih part member (wellFormed.part member) (steps ++ [part.1])
    have ordered := Node.pairwise_parts wellFormed
    cases root with
    | null => exact judges_scalar .null trivial steps
    | bool value => exact judges_scalar (.bool value) trivial steps
    | number value => exact judges_scalar (.number value) trivial steps
    | string text => exact judges_scalar (.string text) trivial steps
    | array items =>
      rw [readAt, fault?_map, fault?_readItems]
      refine judges_findSome? _ ?_ (fun _ _ => enters_array_iff) ordered each
      rintro _ ⟨⟩
    | object fields =>
      obtain ⟨ascending, -⟩ := Node.wellFormed_object_iff.1 wellFormed
      by_cases directive : Directive fields
      · rw [fault?_readAt_directive steps directive]
        refine judges_findSome? _ ?_ (fun _ _ => enters_directive_iff directive) ?_ ?_
        · rintro _ ⟨⟩ illFormed
          exact illFormed.not_directive directive
        · cases directive <;> simp [directiveParts]
        · cases directive <;> simp_all [directiveParts, Node.parts]
      · by_cases plain : Plain fields
        · rw [readAt_plain steps plain, fault?_map, fault?_readFields]
          refine judges_findSome? fields ?_ (fun _ _ => enters_plain_iff ascending plain) ordered each
          rintro _ ⟨⟩ illFormed
          exact illFormed.not_plain plain
        · rw [readAt_faulty steps plain directive]
          have illFormed := (illFormed_iff ascending).2 ⟨plain, directive⟩
          refine ⟨[], fields, ⟨.here fields, illFormed, ?_⟩, ?_⟩
          · intro other faulty reaches _
            cases reaches with
            | here => exact .inl rfl
            | inside => exact .inr (.above _ _ _)
          · rw [List.append_nil]
            exact blames_directiveError steps ascending directive

/-! ## Compiling -/

theorem FirstFault.unique {root : Node} {a b : List String} {fieldsA fieldsB : List (String × Node)}
    (faultA : FirstFault root a fieldsA) (faultB : FirstFault root b fieldsB) : a = b ∧ fieldsA = fieldsB := by
  have same : a = b := by
    rcases faultA.first b fieldsB faultB.reaches faultB.illFormed with same | before
    · exact same.symm
    · rcases faultB.first a fieldsA faultA.reaches faultA.illFormed with same | after
      · exact same
      · exact absurd after before.asymm
  subst same
  have fields := faultA.reaches.descend?.symm.trans faultB.reaches.descend?
  cases fields
  exact ⟨rfl, rfl⟩

/-- A tree compiles exactly if no mapping that reading comes to is ill-formed. Otherwise it is rejected
for the first of these in pre-order, with the pointer that leads to it. -/
theorem compile_blames {root : Node} (wellFormed : root.WellFormed) :
    ((∃ pattern, (Document.compile root).value = .ok pattern) ↔
      ∀ steps fields, root.Reaches steps fields → ¬ IllFormed fields) ∧
    ∀ error, (Document.compile root).value = .error error ↔
      ∃ steps fields, FirstFault root steps fields ∧ Blames (Pointer.ofSteps steps) fields error ∧
        root.resolve? (Pointer.ofSteps steps) = some (.object fields) := by
  have judged : Judges root [] (fault? (Document.compile root).value) := by
    rw [Document.value_compile, fault?_map]
    exact judges_readAt wellFormed []
  cases result : (Document.compile root).value with
  | ok pattern =>
    rw [result] at judged
    refine ⟨⟨fun _ => judged, fun _ => ⟨pattern, rfl⟩⟩, fun error => ⟨nofun, ?_⟩⟩
    rintro ⟨steps, fields, fault, -⟩
    exact absurd fault.illFormed (judged steps fields fault.reaches)
  | error error =>
    rw [result] at judged
    obtain ⟨steps, fields, fault, blames⟩ := judged
    refine ⟨⟨nofun, fun none => absurd fault.illFormed (none steps fields fault.reaches)⟩, ?_⟩
    intro other
    constructor
    · intro same
      cases same
      exact ⟨steps, fields, fault, blames, (root.resolve?_ofSteps steps).trans fault.reaches.descend?⟩
    · rintro ⟨otherSteps, otherFields, otherFault, otherBlames, -⟩
      obtain ⟨rfl, rfl⟩ := fault.unique otherFault
      rw [blames.unique otherBlames]

/-- Two mappings are ill-formed; the first is below a key with a slash, an element and an extraction. -/
theorem compile_blames_nested :
    let root := Node.object [
      ("a/b", .array [.null,
        .object [("$extract", .string "x"), ("$match", .object [("$match", .null), ("$what", .null)])]]),
      ("c", .object [("$exact", .null)])]
    root.WellFormed ∧
      (Document.compile root).value = .error (.unknownDirective "/a~1b/1/$match" "$what") ∧
      ∃ steps fields, FirstFault root steps fields ∧
        Blames (Pointer.ofSteps steps) fields (.unknownDirective "/a~1b/1/$match" "$what") ∧
        root.resolve? (Pointer.ofSteps steps) = some (.object fields) := by
  intro root
  have wellFormed : root.WellFormed := by
    simp only [root, Node.WellFormed, Node.WellFormedFields, Node.WellFormedItems, and_true, true_and]
    decide
  have rejected : (Document.compile root).value = .error (.unknownDirective "/a~1b/1/$match" "$what") := rfl
  exact ⟨wellFormed, rejected, ((compile_blames wellFormed).2 _).1 rejected⟩

end TreeMatch
