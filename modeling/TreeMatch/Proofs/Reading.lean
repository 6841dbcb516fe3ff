import TreeMatch.Document
import TreeMatch.Proofs.Node

/-!
# Reading documents

A mapping is read as plain fields, as one of the forms of a directive, or not at all. What is read can
be written back as a tree, and a tree is read as a document exactly if it is that document written back
(`readAt_eq_ok_iff`). So a claim about all trees that are read is one about all documents that can be
written, and is proved by induction over these.
-/

namespace TreeMatch

/-- A tree without parts. -/
def Node.IsScalar : Node → Prop
  | null | bool _ | number _ | string _ => True
  | array _ | object _ => False

namespace Document

/-- Induction over documents: what holds of a document if it holds of the documents in it. -/
@[induction_eliminator, elab_as_elim]
theorem induct {motive : Document → Prop} (scalar : ∀ value, motive (.scalar value))
    (array : ∀ items, (∀ item ∈ items, motive item) → motive (.array items))
    (mapping : ∀ entries, (∀ entry ∈ entries, motive entry.2) → motive (.mapping entries))
    (literal : ∀ value, motive (.literal value))
    (exact : ∀ items, (∀ item ∈ items, motive item) → motive (.exact items))
    (extract : ∀ name, motive (.extract name))
    (extractWith : ∀ name inner, motive inner → motive (.extractWith name inner)) (document : Document) :
    motive document :=
  match document with
  | .scalar value => scalar value
  | .array items => array items fun item _ =>
      induct scalar array mapping literal exact extract extractWith item
  | .mapping entries => mapping entries fun entry _ =>
      induct scalar array mapping literal exact extract extractWith entry.2
  | .literal value => literal value
  | .exact items => exact items fun item _ =>
      induct scalar array mapping literal exact extract extractWith item
  | .extract name => extract name
  | .extractWith name inner => extractWith name inner
      (induct scalar array mapping literal exact extract extractWith inner)
termination_by document
decreasing_by
  · have smaller := List.sizeOf_lt_of_mem ‹item ∈ items›
    simp only [Document.array.sizeOf_spec]
    omega
  · have smaller := List.sizeOf_lt_of_mem ‹entry ∈ entries›
    obtain ⟨key, value⟩ := entry
    simp only [Document.mapping.sizeOf_spec, Prod.mk.sizeOf_spec] at smaller ⊢
    omega
  · have smaller := List.sizeOf_lt_of_mem ‹item ∈ items›
    simp only [Document.exact.sizeOf_spec]
    omega
  · simp only [Document.extractWith.sizeOf_spec]
    omega

/-! ## Mappings -/

/-- Fields without the key of a directive. -/
def Plain {α : Type} (fields : List (String × α)) : Prop :=
  ∀ key ∈ Fields.names fields, isDirective key = false

theorem Plain.not_mem {α : Type} {fields : List (String × α)} (plain : Plain fields) {key : String}
    (directive : isDirective key = true) : key ∉ Fields.names fields := by
  intro listed
  rw [plain key listed] at directive
  cases directive

/-- The forms of a directive. -/
inductive Directive : List (String × Node) → Prop where
  | literal (value : Node) : Directive [("$literal", value)]
  | exact (items : List Node) : Directive [("$exact", .array items)]
  | extract (name : String) : Directive [("$extract", .string name)]
  | extractWith (name : String) (inner : Node) :
      Directive [("$extract", .string name), ("$match", inner)]

theorem isDirective_of_known {key : String} (known : key ∈ directiveKeys) : isDirective key = true := by
  simp only [directiveKeys, List.mem_cons, List.not_mem_nil, or_false] at known
  rcases known with rfl | rfl | rfl | rfl <;> decide

theorem Directive.known {fields : List (String × Node)} (directive : Directive fields) :
    ∀ key ∈ Fields.names fields, key ∈ directiveKeys := by
  cases directive <;> simp [Fields.names, directiveKeys]

theorem Directive.not_plain {fields : List (String × Node)} (directive : Directive fields) :
    ¬ Plain fields := by
  intro plain
  have absent : ∀ key ∈ directiveKeys, key ∉ Fields.names fields :=
    fun key known => plain.not_mem (isDirective_of_known known)
  have known := directive.known
  cases directive <;> exact absent _ (known _ (List.mem_cons_self ..)) (List.mem_cons_self ..)

/-- Fields that are no directive have none of the four shapes that functions on trees look for, so such a function
comes to its case for the fields of any mapping. -/
theorem shapes_of_not_directive {fields : List (String × Node)} (other : ¬ Directive fields) :
    (∀ value, fields ≠ [("$literal", value)]) ∧ (∀ items, fields ≠ [("$exact", .array items)]) ∧
      (∀ name, fields ≠ [("$extract", .string name)]) ∧
      ∀ name inner, fields ≠ [("$extract", .string name), ("$match", inner)] := by
  refine ⟨?_, ?_, ?_, ?_⟩
  · rintro value rfl
    exact other (.literal value)
  · rintro items rfl
    exact other (.exact items)
  · rintro name rfl
    exact other (.extract name)
  · rintro name inner rfl
    exact other (.extractWith name inner)

theorem plain_iff_any {α : Type} {fields : List (String × α)} :
    Plain fields ↔ (Fields.names fields).any isDirective = false := by
  simp [Plain]

/-- Fields that are no directive are read one by one if they are plain, and else not at all. -/
theorem readAt_object (steps : List String) {fields : List (String × Node)}
    (other : ¬ Directive fields) :
    readAt steps (.object fields) =
      if (Fields.names fields).any isDirective then .error (directiveError steps fields)
      else mapping <$> readFields steps fields := by
  obtain ⟨noLiteral, noExact, noExtract, noExtractWith⟩ := shapes_of_not_directive other
  rw [readAt]
  · rfl
  all_goals assumption

theorem readAt_plain (steps : List String) {fields : List (String × Node)} (plain : Plain fields) :
    readAt steps (.object fields) = mapping <$> readFields steps fields := by
  rw [readAt_object steps fun directive => directive.not_plain plain, plain_iff_any.1 plain]
  rfl

/-- A mapping that has the key of a directive but none of the forms is rejected as a whole. -/
theorem readAt_faulty (steps : List String) {fields : List (String × Node)} (mixed : ¬ Plain fields)
    (other : ¬ Directive fields) :
    readAt steps (.object fields) = .error (directiveError steps fields) := by
  rw [plain_iff_any, Bool.not_eq_false] at mixed
  rw [readAt_object steps other, if_pos mixed]

/-! ## Lists -/

/-- Two readings one after the other give a result exactly if both do. -/
theorem both_eq_ok_iff {α β γ : Type} {first : Except DocumentError α} {later : Except DocumentError β}
    {join : α → β → γ} {result : γ} :
    (do let a ← first; let b ← later; pure (join a b)) = Except.ok result ↔
      ∃ a b, first = .ok a ∧ later = .ok b ∧ join a b = result := by
  cases first with
  | error error => simp [bind, Except.bind]
  | ok a =>
    cases later with
    | error error => simp [bind, Except.bind]
    | ok b => simp [bind, Except.bind, pure, Except.pure]

theorem map_eq_ok_iff {α β : Type} {change : α → β} {reading : Except DocumentError α} {result : β} :
    change <$> reading = Except.ok result ↔ ∃ a, reading = .ok a ∧ change a = result := by
  cases reading with
  | error error => simp [Functor.map, Except.map]
  | ok a => simp [Functor.map, Except.map]

/-! ## Writing documents -/

mutual

/-- The tree of a document. -/
def toNode : Document → Node
  | scalar value => value
  | array items => .array (toNodeItems items)
  | mapping entries => .object (toNodeEntries entries)
  | literal value => .object [("$literal", value)]
  | exact items => .object [("$exact", .array (toNodeItems items))]
  | extract name => .object [("$extract", .string name)]
  | extractWith name inner => .object [("$extract", .string name), ("$match", toNode inner)]

/-- The trees of the items. -/
def toNodeItems : List Document → List Node
  | [] => []
  | item :: rest => toNode item :: toNodeItems rest

/-- The entries with the trees of their documents. -/
def toNodeEntries : List (String × Document) → List (String × Node)
  | [] => []
  | (key, entry) :: rest => (key, toNode entry) :: toNodeEntries rest

end

mutual

/-- What is taken for a scalar is one, and no key of a plain mapping is that of a directive. -/
def Proper : Document → Prop
  | scalar value => value.IsScalar
  | array items => ProperItems items
  | mapping entries => Plain entries ∧ ProperEntries entries
  | literal _ => True
  | exact items => ProperItems items
  | extract _ => True
  | extractWith _ inner => Proper inner

/-- Every item is proper. -/
def ProperItems : List Document → Prop
  | [] => True
  | item :: rest => Proper item ∧ ProperItems rest

/-- The document of every entry is proper. -/
def ProperEntries : List (String × Document) → Prop
  | [] => True
  | (_, entry) :: rest => Proper entry ∧ ProperEntries rest

end

theorem properItems_iff {items : List Document} : ProperItems items ↔ ∀ item ∈ items, item.Proper := by
  induction items with
  | nil => simp [ProperItems]
  | cons item rest ih => simp [ProperItems, ih]

theorem properEntries_iff {entries : List (String × Document)} :
    ProperEntries entries ↔ ∀ entry ∈ entries, entry.2.Proper := by
  induction entries with
  | nil => simp [ProperEntries]
  | cons entry rest ih =>
    obtain ⟨key, document⟩ := entry
    simp [ProperEntries, ih]

theorem toNodeItems_eq_map (items : List Document) : toNodeItems items = items.map toNode := by
  induction items with
  | nil => rfl
  | cons item rest ih => rw [toNodeItems, ih, List.map_cons]

theorem toNodeEntries_eq_map (entries : List (String × Document)) :
    toNodeEntries entries = entries.map fun entry => (entry.1, entry.2.toNode) := by
  induction entries with
  | nil => rfl
  | cons entry rest ih => rw [toNodeEntries, ih, List.map_cons]

theorem toPatternItems_eq_map (items : List Document) : toPatternItems items = items.map toPattern := by
  induction items with
  | nil => rfl
  | cons item rest ih => rw [toPatternItems, ih, List.map_cons]

theorem toPatternEntries_eq_map (entries : List (String × Document)) :
    toPatternEntries entries = entries.map fun entry => (entry.1, entry.2.toPattern) := by
  induction entries with
  | nil => rfl
  | cons entry rest ih => rw [toPatternEntries, ih, List.map_cons]

@[simp] theorem names_toNodeEntries (entries : List (String × Document)) :
    Fields.names (toNodeEntries entries) = Fields.names entries := by
  induction entries with
  | nil => rfl
  | cons entry rest ih =>
    obtain ⟨key, document⟩ := entry
    simp only [toNodeEntries, Fields.names, List.map_cons] at ih ⊢
    rw [ih]

theorem plain_toNodeEntries_iff {entries : List (String × Document)} :
    Plain (toNodeEntries entries) ↔ Plain entries := by
  rw [Plain, Plain, names_toNodeEntries]

/-! ## Reading what is written -/

theorem readItems_toNodeItems {items : List Document}
    (each : ∀ item ∈ items, ∀ steps, readAt steps item.toNode = .ok item) (steps : List String) (index : Nat) :
    readItems steps index (toNodeItems items) = .ok items := by
  induction items generalizing index with
  | nil => rfl
  | cons item rest ih =>
    obtain ⟨first, others⟩ := List.forall_mem_cons.1 each
    rw [toNodeItems, readItems, both_eq_ok_iff]
    exact ⟨item, rest, first _, ih others (index + 1), rfl⟩

theorem readFields_toNodeEntries {entries : List (String × Document)}
    (each : ∀ entry ∈ entries, ∀ steps, readAt steps entry.2.toNode = .ok entry.2) (steps : List String) :
    readFields steps (toNodeEntries entries) = .ok entries := by
  induction entries with
  | nil => rfl
  | cons entry rest ih =>
    obtain ⟨key, document⟩ := entry
    obtain ⟨first, others⟩ := List.forall_mem_cons.1 each
    rw [toNodeEntries, readFields, both_eq_ok_iff]
    exact ⟨document, rest, first _, ih others, rfl⟩

/-- A proper document is read back from its tree, wherever that stands. -/
theorem readAt_toNode {document : Document} (proper : document.Proper) (steps : List String) :
    readAt steps document.toNode = .ok document := by
  induction document generalizing steps with
  | scalar value => cases value <;> first | rfl | exact proper.elim
  | array items ih =>
    have items_ok := readItems_toNodeItems fun item member => ih item member (properItems_iff.1 proper item member)
    rw [toNode, readAt, map_eq_ok_iff]
    exact ⟨items, items_ok steps 0, rfl⟩
  | mapping entries ih =>
    obtain ⟨plain, proper⟩ := proper
    have entries_ok := readFields_toNodeEntries fun entry member =>
      ih entry member (properEntries_iff.1 proper entry member)
    rw [toNode, readAt_plain steps (plain_toNodeEntries_iff.2 plain), map_eq_ok_iff]
    exact ⟨entries, entries_ok steps, rfl⟩
  | literal value => rfl
  | exact items ih =>
    have items_ok := readItems_toNodeItems fun item member => ih item member (properItems_iff.1 proper item member)
    rw [toNode, readAt, map_eq_ok_iff]
    exact ⟨items, items_ok (steps ++ ["$exact"]) 0, rfl⟩
  | extract name => rfl
  | extractWith name inner ih =>
    rw [toNode, readAt, map_eq_ok_iff]
    exact ⟨inner, ih proper (steps ++ ["$match"]), rfl⟩

theorem of_readItems {items : List Node}
    (each : ∀ item ∈ items, ∀ steps document, readAt steps item = .ok document →
      document.Proper ∧ item = document.toNode)
    {steps : List String} {index : Nat} {documents : List Document}
    (read : readItems steps index items = .ok documents) :
    ProperItems documents ∧ items = toNodeItems documents := by
  induction items generalizing index documents with
  | nil =>
    cases read
    exact ⟨trivial, rfl⟩
  | cons item rest ih =>
    obtain ⟨first, others⟩ := List.forall_mem_cons.1 each
    rw [readItems, both_eq_ok_iff] at read
    obtain ⟨document, documents, readFirst, readOthers, rfl⟩ := read
    obtain ⟨properFirst, writtenFirst⟩ := first _ _ readFirst
    obtain ⟨properOthers, writtenOthers⟩ := ih others readOthers
    rw [toNodeItems, ← writtenFirst, ← writtenOthers]
    exact ⟨⟨properFirst, properOthers⟩, rfl⟩

theorem of_readFields {fields : List (String × Node)}
    (each : ∀ field ∈ fields, ∀ steps document, readAt steps field.2 = .ok document →
      document.Proper ∧ field.2 = document.toNode)
    {steps : List String} {entries : List (String × Document)}
    (read : readFields steps fields = .ok entries) :
    ProperEntries entries ∧ fields = toNodeEntries entries := by
  induction fields generalizing entries with
  | nil =>
    cases read
    exact ⟨trivial, rfl⟩
  | cons field rest ih =>
    obtain ⟨key, value⟩ := field
    obtain ⟨first, others⟩ := List.forall_mem_cons.1 each
    rw [readFields, both_eq_ok_iff] at read
    obtain ⟨document, documents, readFirst, readOthers, rfl⟩ := read
    obtain ⟨properFirst, rfl⟩ := first _ _ readFirst
    obtain ⟨properOthers, rfl⟩ := ih others readOthers
    exact ⟨⟨properFirst, properOthers⟩, rfl⟩

theorem of_readAt {node : Node} {steps : List String} {document : Document}
    (read : readAt steps node = .ok document) : document.Proper ∧ node = document.toNode := by
  induction node generalizing steps document with
  | null => cases read; exact ⟨trivial, rfl⟩
  | bool value => cases read; exact ⟨trivial, rfl⟩
  | number value => cases read; exact ⟨trivial, rfl⟩
  | string text => cases read; exact ⟨trivial, rfl⟩
  | array items ih =>
    rw [readAt, map_eq_ok_iff] at read
    obtain ⟨documents, read, rfl⟩ := read
    obtain ⟨proper, written⟩ := of_readItems (fun item member _ _ => ih item member) read
    exact ⟨proper, written ▸ rfl⟩
  | object fields ih =>
    by_cases directive : Directive fields
    · cases directive with
      | literal value => cases read; exact ⟨trivial, rfl⟩
      | exact items =>
        rw [readAt, map_eq_ok_iff] at read
        obtain ⟨documents, read, rfl⟩ := read
        have whole : readAt (steps ++ ["$exact"]) (.array items) = .ok (.array documents) := by
          rw [readAt, map_eq_ok_iff]
          exact ⟨documents, read, rfl⟩
        obtain ⟨proper, written⟩ := ih _ (List.mem_cons_self ..) whole
        cases written
        exact ⟨proper, rfl⟩
      | extract name => cases read; exact ⟨trivial, rfl⟩
      | extractWith name inner =>
        rw [readAt, map_eq_ok_iff] at read
        obtain ⟨document, read, rfl⟩ := read
        obtain ⟨proper, written⟩ := ih ("$match", inner) (by simp) read
        exact ⟨proper, by rw [toNode, ← written]⟩
    · by_cases plain : Plain fields
      · rw [readAt_plain steps plain, map_eq_ok_iff] at read
        obtain ⟨entries, read, rfl⟩ := read
        obtain ⟨proper, written⟩ := of_readFields (fun field member _ _ => ih field member) read
        exact ⟨⟨plain_toNodeEntries_iff.1 (written ▸ plain), proper⟩, written ▸ rfl⟩
      · rw [readAt_faulty steps plain directive] at read
        cases read

/-- A tree is read as a document exactly if it is that document, which is proper, written back. -/
theorem readAt_eq_ok_iff {node : Node} {steps : List String} {document : Document} :
    readAt steps node = .ok document ↔ document.Proper ∧ node = document.toNode := by
  constructor
  · exact of_readAt
  · rintro ⟨proper, rfl⟩
    exact readAt_toNode proper steps

/-- Compiling gives the pattern of what is read, or the error of reading. -/
theorem value_compile (node : Node) : (compile node).value = toPattern <$> read node := by
  rw [compile]
  cases read node <;> rfl

/-- A tree compiles exactly if it is the tree of a proper document, and then to its pattern. -/
theorem compile_eq_ok_iff {node : Node} {pattern : Pattern} :
    (compile node).value = .ok pattern ↔
      ∃ document : Document, document.Proper ∧ node = document.toNode ∧ document.toPattern = pattern := by
  rw [value_compile, map_eq_ok_iff]
  simp only [read, readAt_eq_ok_iff, and_assoc]

end Document

end TreeMatch
