import TreeMatch.Proofs.Rejection
import TreeMatch.Proofs.Search

/-!
# Names of places

A pointer is the name of a place in two texts: a search reports its matches under it, and the error of a document
says with it which mapping is at fault. In both it is made in the same way, a step after the other, and nothing is
lost: reading it gives back the steps, and it goes on from another pointer only where its steps do
(`ofSteps_names`). A step is written as if every `~` were replaced first and every slash after that
(`escape_eq_replaced`).
-/

namespace TreeMatch

namespace Pointer

/-! ## Escaping by replacement -/

/-- A text with another text in place of a character. -/
def replaced (c : Char) (replacement text : String) : String :=
  String.ofList (text.toList.flatMap fun d => if d = c then replacement.toList else [d])

theorem escapeChar_eq (c : Char) :
    escapeChar c = (escapeTilde c).flatMap fun d => if d = '/' then ['~', '1'] else [d] := by
  rw [escapeChar, escapeTilde]
  by_cases tilde : c = '~'
  · rw [if_pos tilde, if_pos tilde]
    rfl
  · rw [if_neg tilde, if_neg tilde, List.flatMap_singleton]

/-- The marks that replace a `~` hold no slash, so they are not replaced once more. -/
theorem escape_eq_replaced (step : String) : escape step = replaced '/' "~1" (replaced '~' "~0" step) := by
  simp only [escape, replaced, String.toList_ofList, List.flatMap_assoc]
  congr 2
  funext c
  exact escapeChar_eq c

/-- The other order would replace the `~` of a mark. -/
example : replaced '~' "~0" (replaced '/' "~1" "/") = "~01" ∧ escape "/" = "~1" := by decide

end Pointer

/-! ## Names -/

theorem Blames.path? {path : String} {fields : List (String × Node)} {error : DocumentError}
    (blames : Blames path fields error) : error.path? = some path := by
  cases blames <;> rfl

/-- What is asked of a text that stands for the place to which some steps lead. -/
structure NamesPlace (pointer : String) (steps : List String) : Prop where
  /-- Reading the text gives back the steps. -/
  read : Pointer.toSteps? pointer = some steps
  /-- No other steps have this text. -/
  only : ∀ other, Pointer.ofSteps other = pointer ↔ other = steps
  /-- A place is inside this one exactly if its text is this one or goes on behind it with a slash. -/
  inside : ∀ other, Pointer.Inside pointer (Pointer.ofSteps other) ↔ steps <+: other
  /-- What matches at the place is reported under this text. -/
  found : ∀ root node : Node, root.WellFormed → root.descend? steps = some node →
    ∀ (pattern : Pattern) (captures : Captures), pattern.match? node = some captures →
      ∃ entry ∈ (pattern.findAll root).value, entry.path = pointer ∧ entry.captures = captures
  /-- The error of a document that is at fault at the place has this text. -/
  blamed : ∀ root fields, root.WellFormed → FirstFault root steps fields →
    ∃ error, (Document.compile root).value = .error error ∧ error.path? = some pointer

theorem judges_compile {root : Node} (wellFormed : root.WellFormed) :
    Judges root [] (fault? (Document.compile root).value) := by
  rw [Document.value_compile, fault?_map]
  exact judges_readAt wellFormed []

/-- A document that is at fault is rejected with the pointer of the place. -/
theorem FirstFault.path? {root : Node} {steps : List String} {fields : List (String × Node)}
    (wellFormed : root.WellFormed) (fault : FirstFault root steps fields) :
    ∃ error, (Document.compile root).value = .error error ∧ error.path? = some (Pointer.ofSteps steps) := by
  have judged := judges_compile wellFormed
  cases result : (Document.compile root).value with
  | ok pattern =>
    rw [result] at judged
    exact absurd fault.illFormed (judged steps fields fault.reaches)
  | error error =>
    rw [result] at judged
    obtain ⟨below, blamed, first, blames⟩ := judged
    obtain ⟨rfl, rfl⟩ := fault.unique first
    exact ⟨error, rfl, blames.path?⟩

/-- Making a pointer loses nothing, and search and document errors make the same one. -/
theorem ofSteps_names :
    (∀ pointer step, Pointer.push pointer step =
      pointer ++ "/" ++ Pointer.replaced '/' "~1" (Pointer.replaced '~' "~0" step)) ∧
    ∀ steps : List String, NamesPlace (steps.foldl Pointer.push "") steps := by
  refine ⟨?_, ?_⟩
  · intro pointer step
    rw [Pointer.push, Pointer.escape_eq_replaced]
  · intro steps
    constructor
    · exact Pointer.toSteps?_ofSteps steps
    · intro other
      exact ⟨Pointer.ofSteps_injective, congrArg Pointer.ofSteps⟩
    · intro other
      exact Pointer.inside_ofSteps_iff
    · intro root node wellFormed leads pattern captures matched
      have member : ⟨Pointer.ofSteps steps, captures⟩ ∈ (pattern.findAll root).value :=
        (Pattern.mem_findAll_iff wellFormed).2 ⟨steps, node, leads, matched, rfl⟩
      exact ⟨_, member, rfl, rfl⟩
    · intro root fields wellFormed fault
      exact fault.path? wellFormed

/-- A mapping at fault below a key that looks like an escape has one name, for the search and for the error. -/
theorem ofSteps_names_escaped :
    let root := Node.object [("/", .null), ("~1", .array [.object [("$what", .null)]])]
    let pattern := Pattern.mapping [("$what", .literal .null)]
    root.WellFormed ∧ root.descend? ["~1", "0"] = some (.object [("$what", .null)]) ∧
      FirstFault root ["~1", "0"] [("$what", .null)] ∧ NamesPlace "/~01/0" ["~1", "0"] ∧
      (∃ error, (Document.compile root).value = .error error ∧ error.path? = some "/~01/0") ∧
      ∃ entry ∈ (pattern.findAll root).value, entry.path = "/~01/0" ∧ entry.captures = .empty := by
  intro root pattern
  have wellFormed : root.WellFormed := by
    simp only [root, Node.WellFormed, Node.WellFormedFields, Node.WellFormedItems, and_true, true_and]
    decide
  have leads : root.descend? ["~1", "0"] = some (.object [("$what", .null)]) := rfl
  have fault : FirstFault root ["~1", "0"] [("$what", .null)] := by
    have judged := judges_compile wellFormed
    have rejected : (Document.compile root).value = .error (.unknownDirective "/~01/0" "$what") := rfl
    rw [rejected] at judged
    obtain ⟨steps, fields, fault, blames⟩ := judged
    have path : Pointer.ofSteps steps = Pointer.ofSteps ["~1", "0"] := Option.some.inj blames.path?.symm
    obtain rfl := Pointer.ofSteps_injective path
    cases fault.reaches.descend?.symm.trans leads
    exact fault
  have names : NamesPlace "/~01/0" ["~1", "0"] := ofSteps_names.2 ["~1", "0"]
  exact ⟨wellFormed, leads, fault, names, names.blamed root _ wellFormed fault,
    names.found root _ wellFormed leads pattern .empty rfl⟩

end TreeMatch
