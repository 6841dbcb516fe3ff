import Mathlib.Data.List.Forall2
import TreeMatch.Json.Reader
import TreeMatch.Json.Writer
import TreeMatch.Proofs.Node

/-!
# Printed trees

The pretty text of a tree determines the tree up to the spelling of its numbers (`pretty_eq_iff`). Wherever the
text of a tree stands, it ends in one place only: a quoted text is read back as it was, a number goes on as far as
there are characters of numbers, and brackets and commas tell the parts of arrays and objects apart.
-/

namespace TreeMatch

namespace Json

/-! ## Quoted texts -/

theorem hexNumber?_hexDigits :
    ∀ n < 32, hexNumber? ['0', '0', hexDigit (n / 16), hexDigit (n % 16)] = some n := by
  decide

/-- Reading takes an escaped character for the character. -/
theorem stringTail_escape (taken : List Char) (c : Char) (rest : List Char) :
    stringTail taken (escape c ++ rest) = stringTail (c :: taken) rest := by
  unfold escape
  -- Seven characters have an escape of one letter.
  iterate 7
    split
    · rename_i same
      simp [stringTail, shortEscape?, same]
  split
  · rename_i control
    have low : isHighSurrogate c.toNat = false := by
      rw [isHighSurrogate, Bool.and_eq_false_iff]
      left
      exact decide_eq_false (by omega)
    have valid : c.toNat.isValidChar := .inl (by omega)
    simp [stringTail, hexNumber?_hexDigits _ control, low, scalar?, valid]
  · rename_i quote backslash _ _ _ _ _ visible
    have plain : ¬ (c = '\\' ∨ c.toNat < 0x20) := not_or.2 ⟨backslash, visible⟩
    rw [List.singleton_append, stringTail.eq_def]
    split
    · rename_i same; cases same
    · rename_i same; cases same; exact absurd rfl quote
    · rename_i same; cases same; exact absurd rfl backslash
    · rename_i same; cases same; exact absurd rfl backslash
    · rename_i same; cases same; exact if_neg plain

/-- Reading gives a quoted text back, whatever follows it. -/
theorem stringTail_quoted (taken text rest : List Char) :
    stringTail taken (text.flatMap escape ++ '"' :: rest) = some (String.ofList (taken.reverse ++ text), rest) := by
  induction text generalizing taken with
  | nil =>
    rw [List.flatMap_nil, List.nil_append, List.append_nil]
    unfold stringTail
    rfl
  | cons c text ih =>
    rw [List.flatMap_cons, List.append_assoc, stringTail_escape, ih, List.reverse_cons, List.append_assoc]
    rfl

theorem toList_quote (text : String) : (quote text).toList = '"' :: (text.toList.flatMap escape ++ ['"']) := by
  simp [quote]

theorem quote_append_inj {a b : String} {x y : List Char} (same : (quote a).toList ++ x = (quote b).toList ++ y) :
    a = b ∧ x = y := by
  simp only [toList_quote, List.cons_append, List.append_assoc, List.nil_append, List.cons.injEq, true_and] at same
  have read := stringTail_quoted [] a.toList x
  rw [same, stringTail_quoted] at read
  simp only [List.reverse_nil, List.nil_append, String.ofList_toList, Option.some.injEq, Prod.mk.injEq] at read
  exact ⟨read.1.symm, read.2.symm⟩

/-! ## Numbers -/

/-- The characters of which numbers are written. -/
def isNumeric (c : Char) : Bool := c.isDigit || c == '-' || c == '+' || c == '.' || c == 'e'

/-- A text that does not go on with a character of a number. -/
def Closed (text : List Char) : Prop := ∀ c ∈ text.head?, isNumeric c = false

theorem closed_nil : Closed [] := nofun

theorem closed_cons {c : Char} {text : List Char} (other : isNumeric c = false) : Closed (c :: text) := by
  rintro _ ⟨⟩
  exact other

theorem numeric_append_inj {u v x y : List Char} (numericU : ∀ c ∈ u, isNumeric c = true)
    (numericV : ∀ c ∈ v, isNumeric c = true) (closedX : Closed x) (closedY : Closed y) (same : u ++ x = v ++ y) :
    u = v ∧ x = y := by
  have stop {text : List Char} (closed : Closed text) : text.takeWhile isNumeric = [] := by
    cases text with
    | nil => rfl
    | cons c text => rw [List.takeWhile_cons, closed c rfl]; rfl
  have front := congrArg (List.takeWhile isNumeric) same
  rw [List.takeWhile_append_of_pos numericU, List.takeWhile_append_of_pos numericV, stop closedX, stop closedY,
    List.append_nil, List.append_nil] at front
  subst front
  exact ⟨rfl, List.append_cancel_left same⟩

theorem numeric_of_isDigit {c : Char} (digit : c.isDigit = true) : isNumeric c = true := by
  rw [isNumeric, digit]
  rfl

theorem numeric_toDigits (n : Nat) : ∀ c ∈ Nat.toDigits 10 n, isNumeric c = true :=
  fun _ member => numeric_of_isDigit (Nat.isDigit_of_mem_toDigits (by decide) (by decide) member)

theorem numeric_of_all {text : List Char} (all : text.all isNumeric = true) : ∀ c ∈ text, isNumeric c = true :=
  List.all_eq_true.1 all

theorem numeric_replicate (n : Nat) : ∀ c ∈ List.replicate n '0', isNumeric c = true := by
  intro c member
  rw [List.eq_of_mem_replicate member]
  rfl

section
variable {decimal : Scientific} (digits : ∀ c ∈ decimal.digits, isNumeric c = true)
include digits

theorem numeric_positional : ∀ c ∈ DecimalLayout.positional decimal, isNumeric c = true := by
  have taken (n : Nat) : ∀ c ∈ decimal.digits.take n, isNumeric c = true :=
    fun c member => digits c (List.mem_of_mem_take member)
  have dropped (n : Nat) : ∀ c ∈ decimal.digits.drop n, isNumeric c = true :=
    fun c member => digits c (List.mem_of_mem_drop member)
  rw [DecimalLayout.positional]
  split
  · exact List.forall_mem_append.2 ⟨List.forall_mem_append.2 ⟨numeric_of_all rfl, numeric_replicate _⟩, digits⟩
  · refine List.forall_mem_append.2 ⟨List.forall_mem_append.2 ⟨taken _, numeric_replicate _⟩, ?_⟩
    refine List.forall_mem_cons.2 ⟨rfl, ?_⟩
    split
    · exact numeric_of_all rfl
    · exact dropped _

theorem numeric_exponential : ∀ c ∈ numberLayout.exponential decimal, isNumeric c = true := by
  rw [DecimalLayout.exponential]
  refine List.forall_mem_append.2 ⟨List.forall_mem_append.2 ⟨List.forall_mem_append.2 ⟨?_, ?_⟩, ?_⟩, ?_⟩
  · exact fun c member => digits c (List.mem_of_mem_take member)
  · split
    · exact nofun
    · exact List.forall_mem_cons.2 ⟨rfl, fun c member => digits c (List.mem_of_mem_drop member)⟩
  · refine List.forall_mem_cons.2 ⟨rfl, ?_⟩
    split <;> exact numeric_of_all rfl
  · exact numeric_toDigits _

end

theorem numeric_shortest (x : Binary64) : ∀ c ∈ x.shortest.digits, isNumeric c = true := by
  intro c member
  have sub := (List.dropWhile_sublist _).subset (List.mem_reverse.1 member)
  exact numeric_toDigits _ c (List.mem_reverse.1 sub)

theorem numeric_write (x : Binary64) : ∀ c ∈ numberLayout.write x, isNumeric c = true := by
  rw [DecimalLayout.write]
  refine List.forall_mem_append.2 ⟨?_, ?_⟩
  · split <;> exact numeric_of_all rfl
  · split
    · exact numeric_of_all rfl
    · dsimp only
      split
      · exact numeric_positional (numeric_shortest x)
      · exact numeric_exponential (numeric_shortest x)

/-- Numbers are written of their characters only. -/
theorem numeric_number (value : Number) : ∀ c ∈ (number value).toList, isNumeric c = true := by
  cases value with
  | integer value fits =>
    cases value with
    | ofNat n =>
      show ∀ c ∈ (Nat.repr n).toList, _
      rw [Nat.toList_repr]
      exact numeric_toDigits n
    | negSucc n =>
      show ∀ c ∈ ("-" ++ Nat.repr (n + 1)).toList, _
      rw [String.toList_append, Nat.toList_repr]
      exact List.forall_mem_append.2 ⟨numeric_of_all rfl, numeric_toDigits (n + 1)⟩
  | float x =>
    rw [number, String.toList_ofList]
    exact numeric_write x

theorem number_ne_nil (value : Number) : (number value).toList ≠ [] := by
  cases value with
  | integer value fits =>
    cases value with
    | ofNat n =>
      show (Nat.repr n).toList ≠ []
      rw [Nat.toList_repr]
      exact Nat.toDigits_ne_nil
    | negSucc n =>
      show ("-" ++ Nat.repr (n + 1)).toList ≠ []
      rw [String.toList_append]
      exact List.append_ne_nil_of_left_ne_nil (by decide) _
  | float x =>
    rw [number, String.toList_ofList, DecimalLayout.write]
    refine List.append_ne_nil_of_right_ne_nil _ ?_
    split
    · exact List.cons_ne_nil _ _
    · dsimp only
      split
      · rw [DecimalLayout.positional]
        split <;> simp
      · simp [DecimalLayout.exponential]

end Json

/-! ## Trees -/

namespace Node

mutual

/-- The same tree but for numbers, which only have the same text. -/
def Alike : Node → Node → Prop
  | null, null => True
  | bool a, bool b => a = b
  | number a, number b => Json.number a = Json.number b
  | string a, string b => a = b
  | array a, array b => AlikeItems a b
  | object a, object b => AlikeFields a b
  | _, _ => False

/-- Alike elements one by one. -/
def AlikeItems : List Node → List Node → Prop
  | [], [] => True
  | a :: restA, b :: restB => Alike a b ∧ AlikeItems restA restB
  | _, _ => False

/-- The same keys with alike values, one by one. -/
def AlikeFields : List (String × Node) → List (String × Node) → Prop
  | [], [] => True
  | (keyA, a) :: restA, (keyB, b) :: restB => keyA = keyB ∧ Alike a b ∧ AlikeFields restA restB
  | _, _ => False

end

theorem alikeItems_iff {a b : List Node} : AlikeItems a b ↔ List.Forall₂ Alike a b := by
  induction a generalizing b with
  | nil => cases b <;> simp [AlikeItems]
  | cons first rest ih => cases b <;> simp [AlikeItems, ih]

theorem alikeFields_iff {a b : List (String × Node)} :
    AlikeFields a b ↔ List.Forall₂ (fun x y => x.1 = y.1 ∧ x.2.Alike y.2) a b := by
  induction a generalizing b with
  | nil => cases b <;> simp [AlikeFields]
  | cons first rest ih => cases b <;> simp [AlikeFields, ih, and_assoc]

end Node

namespace Json

open Node (Alike)

/-! ## Parts between brackets -/

/-- What comes after a part: a comma and the next part on a line of its own, or the closing bracket on its line. -/
def following (level : Nat) (closing : Char) : List (List Char) → List Char
  | [] => '\n' :: (List.replicate (2 * level) ' ' ++ [closing])
  | part :: rest => ',' :: '\n' :: (List.replicate (2 * (level + 1)) ' ' ++ (part ++ following level closing rest))

/-- Parts between brackets. -/
def enclosed (level : Nat) (opening closing : Char) : List (List Char) → List Char
  | [] => [opening, closing]
  | part :: rest =>
    opening :: '\n' :: (List.replicate (2 * (level + 1)) ' ' ++ (part ++ following level closing rest))

theorem intercalate_lines (level : Nat) (closing : Char) (line : List Char) (lines : List (List Char)) :
    List.intercalate (',' :: '\n' :: List.replicate (2 * (level + 1)) ' ') (line :: lines) ++
      ('\n' :: (List.replicate (2 * level) ' ' ++ [closing])) = line ++ following level closing lines := by
  induction lines generalizing line with
  | nil => simp [following]
  | cons next lines ih =>
    rw [List.intercalate_cons_cons, following, List.append_assoc, List.append_assoc, ih]
    simp

theorem toList_bracketed (level : Nat) {opening closing : String} (o c : Char) (opens : opening.toList = [o])
    (closes : closing.toList = [c]) (lines : List String) :
    (bracketed level opening closing lines).toList = enclosed level o c (lines.map String.toList) := by
  cases lines with
  | nil => simp [bracketed, enclosed, opens, closes]
  | cons line lines =>
    have joined := intercalate_lines level c line.toList (lines.map String.toList)
    rw [bracketed, List.isEmpty_cons, if_neg Bool.false_ne_true, List.map_cons, enclosed, ← joined]
    simp [lineBreak, opens, closes, String.toList_intercalate]

section

variable {α : Type} {text : α → List Char} {alike : α → α → Prop}

/-- A text ends in one place only, whatever closed text follows it. -/
def Ends (text : α → List Char) (alike : α → α → Prop) (a : α) : Prop :=
  ∀ b x y, Closed x → Closed y → text a ++ x = text b ++ y → alike a b ∧ x = y

theorem closed_following (level : Nat) (closing : Char) (parts : List (List Char)) (x : List Char) :
    Closed (following level closing parts ++ x) := by
  cases parts with
  | nil => exact closed_cons (by decide)
  | cons part rest => exact closed_cons (by decide)

theorem following_append_inj {level : Nat} {closing : Char} {as bs : List α} (each : ∀ a ∈ as, Ends text alike a)
    {x y : List Char} (same : following level closing (as.map text) ++ x = following level closing (bs.map text) ++ y) :
    List.Forall₂ alike as bs ∧ x = y := by
  induction as generalizing bs with
  | nil =>
    cases bs with
    | nil => exact ⟨.nil, List.append_cancel_left same⟩
    | cons b bs => cases (List.cons.inj same).1
  | cons a as ih =>
    obtain ⟨first, others⟩ := List.forall_mem_cons.1 each
    cases bs with
    | nil => cases (List.cons.inj same).1
    | cons b bs =>
      simp only [List.map_cons, following, List.cons_append, List.append_assoc, List.cons.injEq, true_and] at same
      have parted := List.append_cancel_left same
      obtain ⟨here, later⟩ :=
        first b _ _ (closed_following level closing _ _) (closed_following level closing _ _) parted
      obtain ⟨rest, ended⟩ := ih others later
      exact ⟨.cons here rest, ended⟩

theorem enclosed_append_inj {level : Nat} {opening closing : Char} (bracket : closing ≠ '\n') {as bs : List α}
    (each : ∀ a ∈ as, Ends text alike a) {x y : List Char}
    (same : enclosed level opening closing (as.map text) ++ x = enclosed level opening closing (bs.map text) ++ y) :
    List.Forall₂ alike as bs ∧ x = y := by
  cases as with
  | nil =>
    cases bs with
    | nil => exact ⟨.nil, List.append_cancel_left same⟩
    | cons b bs => exact absurd (List.cons.inj (List.cons.inj same).2).1 bracket
  | cons a as =>
    obtain ⟨first, others⟩ := List.forall_mem_cons.1 each
    cases bs with
    | nil => exact absurd (List.cons.inj (List.cons.inj same).2).1.symm bracket
    | cons b bs =>
      simp only [List.map_cons, enclosed, List.cons_append, List.append_assoc, List.cons.injEq, true_and] at same
      have parted := List.append_cancel_left same
      obtain ⟨here, later⟩ :=
        first b _ _ (closed_following level closing _ _) (closed_following level closing _ _) parted
      obtain ⟨rest, ended⟩ := following_append_inj others later
      exact ⟨.cons here rest, ended⟩

theorem map_congr_of_forall₂ {as bs : List α} (each : ∀ a ∈ as, ∀ b, alike a b → text a = text b)
    (parts : List.Forall₂ alike as bs) : as.map text = bs.map text := by
  induction parts with
  | nil => rfl
  | cons here later ih =>
    obtain ⟨first, others⟩ := List.forall_mem_cons.1 each
    rw [List.map_cons, List.map_cons, first _ here, ih others]

end

/-! ## Texts of trees -/

/-- The characters of a tree that starts on a level. -/
def written (level : Nat) (node : Node) : List Char := (prettyAt level node).toList

/-- The characters of a field. -/
def writtenField (level : Nat) (field : String × Node) : List Char :=
  (quote field.1).toList ++ ':' :: ' ' :: written level field.2

theorem written_null (level : Nat) : written level .null = ['n', 'u', 'l', 'l'] := by
  simp [written, prettyAt]

theorem written_bool (level : Nat) (value : Bool) :
    written level (.bool value) = if value then ['t', 'r', 'u', 'e'] else ['f', 'a', 'l', 's', 'e'] := by
  cases value <;> simp [written, prettyAt]

theorem written_array (level : Nat) (items : List Node) :
    written level (.array items) = enclosed level '[' ']' (items.map (written (level + 1))) := by
  have lines : (prettyItems (level + 1) items).map String.toList = items.map (written (level + 1)) := by
    induction items with
    | nil => rfl
    | cons item rest ih => rw [prettyItems, List.map_cons, ih, List.map_cons, written]
  rw [written, prettyAt, toList_bracketed level '[' ']' rfl rfl, lines]

theorem written_object (level : Nat) (fields : List (String × Node)) :
    written level (.object fields) = enclosed level '\x7b' '\x7d' (fields.map (writtenField (level + 1))) := by
  have lines : (prettyFields (level + 1) fields).map String.toList = fields.map (writtenField (level + 1)) := by
    induction fields with
    | nil => rfl
    | cons field rest ih =>
      rw [prettyFields, List.map_cons, ih, List.map_cons, writtenField, written]
      simp
  rw [written, prettyAt, toList_bracketed level '\x7b' '\x7d' rfl rfl, lines]

/-- The character with which a tree starts; one for both truth values, and one for all numbers. -/
def lead : Node → Char
  | .null => 'n'
  | .bool _ => 't'
  | .number _ => '0'
  | .string _ => '"'
  | .array _ => '['
  | .object _ => '\x7b'

/-- The kind of tree that a character starts. -/
def leadOf (c : Char) : Char := if isNumeric c then '0' else if c = 'f' then 't' else c

theorem lead_written (level : Nat) (node : Node) (x : List Char) :
    (written level node ++ x).head?.map leadOf = some (lead node) := by
  cases node with
  | null =>
    rw [written_null]
    rfl
  | bool value =>
    rw [written_bool]
    cases value <;> rfl
  | number value =>
    obtain ⟨c, rest, starts⟩ := List.exists_cons_of_ne_nil (number_ne_nil value)
    have numeric : isNumeric c = true := numeric_number value c (starts ▸ List.mem_cons_self)
    rw [written, prettyAt, starts, List.cons_append, List.head?_cons, Option.map_some, leadOf, if_pos numeric, lead]
  | string text =>
    rw [written, prettyAt, toList_quote]
    rfl
  | array items =>
    rw [written_array]
    cases items <;> rfl
  | object fields =>
    rw [written_object]
    cases fields <;> rfl

theorem lead_eq {level : Nat} {a b : Node} {x y : List Char} (same : written level a ++ x = written level b ++ y) :
    lead a = lead b := by
  have kind := lead_written level a x
  rw [same, lead_written] at kind
  exact (Option.some.inj kind).symm

theorem ends_writtenField {level : Nat} {field : String × Node} (ends : Ends (written level) Alike field.2) :
    Ends (writtenField level) (fun a b => a.1 = b.1 ∧ a.2.Alike b.2) field := by
  intro other x y closedX closedY same
  simp only [writtenField, List.append_assoc, List.cons_append] at same
  obtain ⟨key, rest⟩ := quote_append_inj same
  simp only [List.cons.injEq, true_and] at rest
  obtain ⟨value, ended⟩ := ends _ x y closedX closedY rest
  exact ⟨⟨key, value⟩, ended⟩

/-- The text of a tree ends in one place only. -/
theorem ends_written (level : Nat) (node : Node) : Ends (written level) Alike node := by
  induction node generalizing level with
  | null =>
    intro b x y _ _ same
    have kind := lead_eq same
    cases b <;> cases kind
    exact ⟨trivial, List.append_cancel_left same⟩
  | bool value =>
    intro b x y _ _ same
    have kind := lead_eq same
    cases b <;> cases kind
    rename_i other
    rw [written_bool, written_bool] at same
    cases value <;> cases other <;> simp_all [Alike]
  | number value =>
    intro b x y closedX closedY same
    have kind := lead_eq same
    cases b <;> cases kind
    rename_i other
    obtain ⟨spelled, ended⟩ :=
      numeric_append_inj (numeric_number value) (numeric_number other) closedX closedY same
    exact ⟨String.toList_inj.1 spelled, ended⟩
  | string text =>
    intro b x y _ _ same
    have kind := lead_eq same
    cases b <;> cases kind
    exact quote_append_inj same
  | array items ih =>
    intro b x y _ _ same
    have kind := lead_eq same
    cases b <;> cases kind
    rw [written_array, written_array] at same
    obtain ⟨parts, ended⟩ := enclosed_append_inj (by decide) (fun item member => ih item member (level + 1)) same
    exact ⟨Node.alikeItems_iff.2 parts, ended⟩
  | object fields ih =>
    intro b x y _ _ same
    have kind := lead_eq same
    cases b <;> cases kind
    rw [written_object, written_object] at same
    obtain ⟨parts, ended⟩ :=
      enclosed_append_inj (by decide) (fun field member => ends_writtenField (ih field member (level + 1))) same
    exact ⟨Node.alikeFields_iff.2 parts, ended⟩

/-- Alike trees have the same text on every level. -/
theorem written_congr (level : Nat) {a b : Node} (alike : a.Alike b) : written level a = written level b := by
  induction a generalizing b level with
  | null =>
    cases b with
    | null => rfl
    | _ => exact alike.elim
  | bool value =>
    cases b with
    | bool other => rw [show value = other from alike]
    | _ => exact alike.elim
  | number value =>
    cases b with
    | number other => exact congrArg String.toList alike
    | _ => exact alike.elim
  | string text =>
    cases b with
    | string other => rw [show text = other from alike]
    | _ => exact alike.elim
  | array items ih =>
    cases b with
    | array others =>
      have parts : items.map (written (level + 1)) = others.map (written (level + 1)) :=
        map_congr_of_forall₂ (fun item member _ => ih item member (level + 1)) (Node.alikeItems_iff.1 alike)
      rw [written_array, written_array, parts]
    | _ => exact alike.elim
  | object fields ih =>
    cases b with
    | object others =>
      have parts : fields.map (writtenField (level + 1)) = others.map (writtenField (level + 1)) := by
        refine map_congr_of_forall₂ ?_ (Node.alikeFields_iff.1 alike)
        rintro field member other ⟨key, value⟩
        rw [writtenField, key, ih field member (level + 1) value, writtenField]
      rw [written_object, written_object, parts]
    | _ => exact alike.elim

/-- The text of a tree determines it up to the spelling of its numbers. -/
theorem pretty_eq_iff {a b : Node} : pretty a = pretty b ↔ a.Alike b := by
  constructor
  · intro same
    have texts : written 0 a ++ [] = written 0 b ++ [] := congrArg (fun text => text.toList ++ []) same
    exact (ends_written 0 a b [] [] closed_nil closed_nil texts).1
  · intro alike
    exact String.toList_inj.1 (written_congr 0 alike)

end Json

end TreeMatch
