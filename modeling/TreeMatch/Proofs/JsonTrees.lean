import TreeMatch.Json.Reader
import TreeMatch.Proofs.Node

/-!
# Trees from JSON text

Whatever is read from a JSON text is well-formed (`wellFormed_of_read?`): the fields of an object are assigned
one after the other, so they stand in order, and a later value of a key takes the place of an earlier one. A
reader keeps a property of what it reads if its parts do.
-/

namespace TreeMatch.Json

/-- What a reader reads always has a property. -/
def Reader.Ensures {α : Type} (reader : Reader α) (holds : α → Prop) : Prop :=
  ∀ text found rest, reader text = some (found, rest) → holds found

section
variable {α : Type} {part : Reader α} {holds : α → Prop}

theorem ensures_partsTail (ensures : Reader.Ensures part holds) (closing : Char) (fuel : Nat) {taken : List α}
    (before : ∀ found ∈ taken, holds found) :
    Reader.Ensures (partsTail part closing fuel taken) fun found => ∀ one ∈ found, holds one := by
  induction fuel generalizing taken with
  | zero => exact nofun
  | succ fuel ih =>
    intro text found rest read
    rw [partsTail] at read
    split at read
    · cases read
    · rename_i c later _
      by_cases closes : c = closing
      · rw [if_pos closes] at read
        cases read
        exact fun one member => before one (List.mem_reverse.1 member)
      · rw [if_neg closes] at read
        split at read
        · split at read
          · rename_i next after first
            have longer : ∀ one ∈ next :: taken, holds one :=
              List.forall_mem_cons.2 ⟨ensures _ _ _ first, before⟩
            exact ih longer _ _ _ read
          · cases read
        · cases read

theorem ensures_parts (ensures : Reader.Ensures part holds) (closing : Char) (fuel : Nat) :
    Reader.Ensures (parts fuel part closing) fun found => ∀ one ∈ found, holds one := by
  intro text found rest read
  rw [parts] at read
  split at read
  · cases read
  · split at read
    · cases read
      exact nofun
    · obtain ⟨⟨first, after⟩, here, later⟩ := Option.bind_eq_some_iff.1 read
      have before : ∀ one ∈ [first], holds one := List.forall_mem_singleton.2 (ensures _ _ _ here)
      exact ensures_partsTail ensures closing fuel before _ _ _ later

end

theorem ensures_field {value : Reader Node} {holds : Node → Prop} (ensures : Reader.Ensures value holds) :
    Reader.Ensures (field value) fun found => holds found.2 := by
  intro text found rest read
  unfold field at read
  split at read
  · obtain ⟨⟨key, afterKey⟩, -, read⟩ := Option.bind_eq_some_iff.1 read
    dsimp only at read
    split at read
    · obtain ⟨⟨held, after⟩, inner, same⟩ := Option.bind_eq_some_iff.1 read
      cases same
      exact ensures _ _ _ inner
    · cases read
  · cases read

theorem ensures_value (fuel depth : Nat) : Reader.Ensures (value fuel depth) Node.WellFormed := by
  induction depth using Nat.strongRecOn with
  | ind depth ih =>
    intro text found rest read
    unfold value at read
    split at read
    · cases read
      trivial
    · cases read
      trivial
    · cases read
      trivial
    · obtain ⟨_, -, same⟩ := Option.map_eq_some_iff.1 read
      cases same
      trivial
    · obtain ⟨⟨items, after⟩, listed, same⟩ := Option.map_eq_some_iff.1 read
      cases same
      have inner := ih _ (Nat.lt_succ_self _)
      exact Node.wellFormed_array_iff.2 (ensures_parts inner ']' fuel _ _ _ listed)
    · obtain ⟨⟨pairs, after⟩, listed, same⟩ := Option.map_eq_some_iff.1 read
      cases same
      have inner := ensures_field (ih _ (Nat.lt_succ_self _))
      exact Node.wellFormed_ofPairs (ensures_parts inner '\x7d' fuel _ _ _ listed)
    · obtain ⟨_, -, same⟩ := Option.map_eq_some_iff.1 read
      cases same
      trivial

/-- Every tree that is read from JSON text is well-formed. -/
theorem wellFormed_of_read? {depth : Nat} {text : String} {tree : Node} (read : read? depth text = some tree) :
    tree.WellFormed := by
  rw [read?] at read
  split at read
  · rename_i node rest first
    split at read
    · cases read
      exact ensures_value _ _ _ _ _ first
    · cases read
  · cases read

end TreeMatch.Json
