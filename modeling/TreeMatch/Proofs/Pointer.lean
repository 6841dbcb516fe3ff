import TreeMatch.Pointer

/-!
# Reading pointers

A pointer is read back by splitting it at its slashes and, in each part, first turning every `~1` into
`/` and then every `~0` into `~`. This gives back the steps that the pointer was made of
(`toSteps?_ofSteps`), so different places have different pointers. A step names an element of an array
if it is the index in decimal without leading zeros (`index?_eq_some_iff`).
-/

namespace TreeMatch.Pointer

/-! ## Escapes -/

/-- Every `~` with the mark behind it becomes the character that the mark stands for. -/
def replaceMark (mark meant : Char) : List Char → List Char
  | [] => []
  | [c] => [c]
  | c :: d :: rest =>
    if c = '~' ∧ d = mark then meant :: replaceMark mark meant rest
    else c :: replaceMark mark meant (d :: rest)

/-- A part of a pointer without its escapes. -/
def unescape (part : List Char) : List Char := replaceMark '0' '~' (replaceMark '1' '/' part)

theorem replaceMark_cons {c : Char} (plain : c ≠ '~') (mark meant : Char) (rest : List Char) :
    replaceMark mark meant (c :: rest) = c :: replaceMark mark meant rest := by
  cases rest with
  | nil => rfl
  | cons d rest => simp [replaceMark, plain]

theorem replaceMark_mark (mark meant : Char) (rest : List Char) :
    replaceMark mark meant ('~' :: mark :: rest) = meant :: replaceMark mark meant rest := by
  simp [replaceMark]

theorem replaceMark_other {mark d : Char} (other : d ≠ mark) (meant : Char) (rest : List Char) :
    replaceMark mark meant ('~' :: d :: rest) = '~' :: replaceMark mark meant (d :: rest) := by
  simp [replaceMark, other]

/-- A character with only `~` escaped: what is left once `~1` has been replaced. -/
def escapeTilde (c : Char) : List Char := if c = '~' then ['~', '0'] else [c]

theorem replaceMark_slash (text : List Char) :
    replaceMark '1' '/' (text.flatMap escapeChar) = text.flatMap escapeTilde := by
  induction text with
  | nil => rfl
  | cons c text ih =>
    rw [List.flatMap_cons, List.flatMap_cons, escapeChar, escapeTilde]
    by_cases tilde : c = '~'
    · rw [if_pos tilde, if_pos tilde]
      show replaceMark '1' '/' ('~' :: '0' :: text.flatMap escapeChar) = _
      rw [replaceMark_other (by decide), replaceMark_cons (by decide), ih]
      rfl
    · rw [if_neg tilde, if_neg tilde]
      by_cases slash : c = '/'
      · rw [if_pos slash, slash]
        show replaceMark '1' '/' ('~' :: '1' :: text.flatMap escapeChar) = _
        rw [replaceMark_mark, ih]
        rfl
      · rw [if_neg slash]
        show replaceMark '1' '/' (c :: text.flatMap escapeChar) = _
        rw [replaceMark_cons tilde, ih]
        rfl

theorem replaceMark_tilde (text : List Char) : replaceMark '0' '~' (text.flatMap escapeTilde) = text := by
  induction text with
  | nil => rfl
  | cons c text ih =>
    rw [List.flatMap_cons, escapeTilde]
    by_cases tilde : c = '~'
    · rw [if_pos tilde, tilde]
      show replaceMark '0' '~' ('~' :: '0' :: text.flatMap escapeTilde) = _
      rw [replaceMark_mark, ih]
    · rw [if_neg tilde]
      show replaceMark '0' '~' (c :: text.flatMap escapeTilde) = _
      rw [replaceMark_cons tilde, ih]

/-- The slash comes first: turning `~0` back before `~1` would read `~01` as a slash. -/
theorem unescape_escape (text : List Char) : unescape (text.flatMap escapeChar) = text := by
  rw [unescape, replaceMark_slash, replaceMark_tilde]

example : unescape ['~', '0', '1'] = ['~', '1'] := by decide

theorem slash_not_mem_escape (text : List Char) : '/' ∉ text.flatMap escapeChar := by
  intro member
  obtain ⟨c, -, written⟩ := List.mem_flatMap.1 member
  unfold escapeChar at written
  split at written
  · simp at written
  · split at written
    · simp at written
    · rename_i different
      exact different (List.mem_singleton.1 written).symm

/-! ## Steps of a pointer -/

/-- The steps of a pointer: the parts behind its slashes without their escapes. A text that is not
empty starts with a slash if it is a pointer. -/
def toSteps? (pointer : String) : Option (List String) :=
  match pointer.toList with
  | [] => some []
  | c :: rest =>
    if c = '/' then some ((rest.splitOn '/').map fun part => String.ofList (unescape part)) else none

/-- A step with the slash before it, as it is written in a pointer. -/
def segment (step : String) : List Char := '/' :: step.toList.flatMap escapeChar

theorem toList_foldl_push (steps : List String) (pointer : String) :
    (steps.foldl push pointer).toList = pointer.toList ++ steps.flatMap segment := by
  induction steps generalizing pointer with
  | nil => simp
  | cons step steps ih =>
    rw [List.foldl_cons, ih, List.flatMap_cons, ← List.append_assoc]
    congr 1
    simp [push, escape, segment]

theorem toList_ofSteps (steps : List String) : (ofSteps steps).toList = steps.flatMap segment := by
  simp [ofSteps, toList_foldl_push]

theorem splitOn_segments (step : String) (steps : List String) :
    (step.toList.flatMap escapeChar ++ steps.flatMap segment).splitOn '/' =
      (step :: steps).map fun step => step.toList.flatMap escapeChar := by
  induction steps generalizing step with
  | nil => simp [List.splitOn_eq_singleton (slash_not_mem_escape step.toList)]
  | cons next steps ih =>
    rw [List.flatMap_cons, segment, List.cons_append,
      List.splitOn_append_cons_self_of_not_mem (slash_not_mem_escape step.toList), ih]
    rfl

theorem map_unescape_escape (steps : List String) :
    (steps.map fun step => step.toList.flatMap escapeChar).map (fun part => String.ofList (unescape part)) = steps := by
  rw [List.map_map]
  refine List.map_id'' ?_ steps
  intro step
  simp [unescape_escape]

/-- Reading a pointer gives back the steps that it was made of. -/
theorem toSteps?_ofSteps (steps : List String) : toSteps? (ofSteps steps) = some steps := by
  rw [toSteps?, toList_ofSteps]
  cases steps with
  | nil => rfl
  | cons step steps =>
    simp only [List.flatMap_cons, segment, List.cons_append, ↓reduceIte, splitOn_segments, map_unescape_escape]

theorem ofSteps_injective {a b : List String} (same : ofSteps a = ofSteps b) : a = b := by
  have read := toSteps?_ofSteps a
  rw [same, toSteps?_ofSteps] at read
  exact (Option.some.inj read).symm

/-! ## Pointers inside one another -/

/-- One pointer leads into what another leads to: it is the other, or goes on behind it with a slash. -/
def Inside (outer inner : String) : Prop := inner = outer ∨ ∃ rest, inner = outer ++ "/" ++ rest

/-- A pointer without the pointer that it goes on from. -/
def relativeTo (outer inner : String) : String := String.ofList (inner.toList.drop outer.toList.length)

theorem ofSteps_append (first later : List String) : ofSteps (first ++ later) = ofSteps first ++ ofSteps later := by
  rw [← String.toList_inj, String.toList_append, toList_ofSteps, toList_ofSteps, toList_ofSteps, List.flatMap_append]

theorem relativeTo_append (outer rest : String) : relativeTo outer (outer ++ rest) = rest := by
  rw [relativeTo, String.toList_append, List.drop_left, String.ofList_toList]

theorem splitOn_segments_append (step : String) (steps : List String) (rest : List Char) :
    (step.toList.flatMap escapeChar ++ (steps.flatMap segment ++ '/' :: rest)).splitOn '/' =
      (step :: steps).map (fun step => step.toList.flatMap escapeChar) ++ rest.splitOn '/' := by
  induction steps generalizing step with
  | nil =>
    rw [List.flatMap_nil, List.nil_append, List.splitOn_append_cons_self_of_not_mem (slash_not_mem_escape step.toList)]
    rfl
  | cons next steps ih =>
    rw [List.flatMap_cons, segment, List.append_assoc, List.cons_append,
      List.splitOn_append_cons_self_of_not_mem (slash_not_mem_escape step.toList), ih]
    rfl

/-- Reading a pointer that goes on starts with the steps of the pointer. -/
theorem toSteps?_append (steps : List String) (rest : String) :
    ∃ more, toSteps? (ofSteps steps ++ "/" ++ rest) = some (steps ++ more) := by
  refine ⟨(rest.toList.splitOn '/').map fun part => String.ofList (unescape part), ?_⟩
  have text : (ofSteps steps ++ "/" ++ rest).toList = steps.flatMap segment ++ '/' :: rest.toList := by
    simp [toList_ofSteps]
  rw [toSteps?, text]
  cases steps with
  | nil => rfl
  | cons step steps =>
    simp only [List.flatMap_cons, segment, List.cons_append, List.append_assoc, ↓reduceIte, splitOn_segments_append,
      List.map_append, map_unescape_escape]

/-- A pointer leads into what another leads to exactly if its steps go on from the steps of the other. -/
theorem inside_ofSteps_iff {outer inner : List String} : Inside (ofSteps outer) (ofSteps inner) ↔ outer <+: inner := by
  constructor
  · rintro (same | ⟨rest, same⟩)
    · exact ofSteps_injective same ▸ List.prefix_refl inner
    · obtain ⟨more, read⟩ := toSteps?_append outer rest
      rw [← same, toSteps?_ofSteps] at read
      exact ⟨more, (Option.some.inj read).symm⟩
  · rintro ⟨more, rfl⟩
    rw [ofSteps_append]
    cases more with
    | nil => exact .inl (String.append_empty ..)
    | cons step more =>
      refine .inr ⟨String.ofList (step.toList.flatMap escapeChar ++ more.flatMap segment), ?_⟩
      rw [String.append_assoc]
      congr 1
      rw [← String.toList_inj, toList_ofSteps]
      simp [segment]

/-! ## Indices -/

/-- The index that a step writes: decimal digits, of which the first is no zero unless it is the only
one. -/
def index? (step : String) : Option Nat :=
  if step.toList ≠ [] ∧ step.toList.all Char.isDigit ∧
      (step.toList.head? = some '0' → step.toList = ['0']) then
    some (Nat.ofDigitChars 10 step.toList 0)
  else none

theorem toList_indexStep (index : Nat) : (indexStep index).toList = Nat.toDigits 10 index :=
  Nat.toList_repr

theorem digitChar_of_isDigit {c : Char} (digit : c.isDigit) :
    ∃ n, n < 10 ∧ c.toNat - '0'.toNat = n ∧ Nat.digitChar n = c := by
  obtain ⟨low, high⟩ := Char.isDigit_iff_toNat.1 digit
  have zero : '0'.toNat = 48 := rfl
  have nine : '9'.toNat = 57 := rfl
  refine ⟨c.toNat - '0'.toNat, by omega, rfl, Char.toNat_inj.1 ?_⟩
  rw [Nat.toNat_digitChar_of_lt_ten (by omega)]
  omega

/-- Digits after a positive number are the end of the digits of the number that they make with it. -/
theorem toDigits_append {number : Nat} (positive : 0 < number) {digits : List Char}
    (all : ∀ c ∈ digits, c.isDigit) :
    Nat.toDigits 10 number ++ digits = Nat.toDigits 10 (Nat.ofDigitChars 10 digits number) := by
  induction digits generalizing number with
  | nil => simp
  | cons c digits ih =>
    obtain ⟨digit, rest⟩ := List.forall_mem_cons.1 all
    obtain ⟨n, small, value, rfl⟩ := digitChar_of_isDigit digit
    have longer : Nat.toDigits 10 number ++ [n.digitChar] = Nat.toDigits 10 (10 * number + n) := by
      rw [← Nat.toDigits_append_toDigits (by decide) positive small, Nat.toDigits_of_lt_base small]
    rw [Nat.ofDigitChars_cons, value, ← ih (by omega) rest, ← longer, List.append_assoc]
    rfl

theorem toDigits_ofDigitChars {digits : List Char} (nonempty : digits ≠ [])
    (all : ∀ c ∈ digits, c.isDigit) (leading : digits.head? = some '0' → digits = ['0']) :
    Nat.toDigits 10 (Nat.ofDigitChars 10 digits 0) = digits := by
  cases digits with
  | nil => exact absurd rfl nonempty
  | cons c digits =>
    obtain ⟨digit, rest⟩ := List.forall_mem_cons.1 all
    obtain ⟨n, small, value, rfl⟩ := digitChar_of_isDigit digit
    rw [Nat.ofDigitChars_cons, value, Nat.mul_zero, Nat.zero_add]
    rcases Nat.eq_zero_or_pos n with rfl | positive
    · cases leading rfl
      rfl
    · rw [← toDigits_append positive rest, Nat.toDigits_of_lt_base small]
      rfl

/-- Only the digits of zero start with a zero. -/
theorem head?_toDigits {n : Nat} (zero : (Nat.toDigits 10 n).head? = some '0') : n = 0 := by
  induction n using Nat.strongRecOn with
  | _ n ih =>
    by_cases small : n < 10
    · rw [Nat.toDigits_of_lt_base small] at zero
      have digit := congrArg Char.toNat (Option.some.inj zero)
      rw [Nat.toNat_digitChar_of_lt_ten small] at digit
      have : '0'.toNat = 48 := rfl
      omega
    · obtain ⟨d, rest, split⟩ := List.exists_cons_of_ne_nil (Nat.toDigits_ne_nil (n := n / 10) (b := 10))
      rw [Nat.toDigits_of_base_le (by decide) (by omega), split] at zero
      have := ih (n / 10) (by omega) (split ▸ zero)
      omega

/-- A step reads as an index exactly if it is the decimal of that index. -/
theorem index?_eq_some_iff {step : String} {index : Nat} :
    index? step = some index ↔ step = indexStep index := by
  constructor
  · intro read
    unfold index? at read
    split at read
    · rename_i shape
      obtain ⟨nonempty, all, leading⟩ := shape
      cases read
      rw [← String.toList_inj, toList_indexStep,
        toDigits_ofDigitChars nonempty (List.all_eq_true.1 all) leading]
    · cases read
  · rintro rfl
    rw [index?, toList_indexStep, if_pos, Nat.ofDigitChars_ten_toDigits]
    refine ⟨Nat.toDigits_ne_nil, ?_, ?_⟩
    · rw [List.all_eq_true]
      intro c member
      exact Nat.isDigit_of_mem_toDigits (by decide) (by decide) member
    · intro zero
      rw [head?_toDigits zero]
      rfl

end TreeMatch.Pointer
