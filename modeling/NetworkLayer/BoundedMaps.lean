import Mathlib.Data.Finset.Card

/-!
# Partial maps of bounded size

A finite partial map that holds at most `capacity` keys. A key is bound once
and stays bound to its value until it is removed; binding is refused when the
key is bound already or the map is full. Every operation says what all
lookups are afterwards.
-/

namespace NetworkLayer.BoundedMaps

/-- A partial map with finitely many keys, at most `capacity`. -/
structure BoundedMap (κ α : Type*) (capacity : ℕ) where
  /-- The value of a key. -/
  lookup : κ → Option α
  /-- The bound keys. -/
  keys : Finset κ
  /-- Exactly the bound keys have a value. -/
  mem_keys : ∀ k,k∈keys ↔ (lookup k).isSome=true
  /-- The map never holds more than its capacity. -/
  card_le : keys.card ≤ capacity

namespace BoundedMap

variable {κ α : Type*} {capacity : ℕ}

/-- No key is bound. -/
def empty : BoundedMap κ α capacity where
  lookup := fun _ => none
  keys := ∅
  mem_keys := by simp
  card_le := Nat.zero_le _

variable [DecidableEq κ]

/-- Bind a new key, if there is room. -/
def insert (m : BoundedMap κ α capacity) (k : κ) (a : α) : Bool × BoundedMap κ α capacity :=
  if h : k∈m.keys ∨ m.keys.card=capacity then (false,m)
  else (true,{
    lookup := Function.update m.lookup k (some a)
    keys := Insert.insert k m.keys
    mem_keys := by
      intro j
      by_cases hj : j=k
      · subst hj
        simp
      · rw [Finset.mem_insert,Function.update_of_ne hj,m.mem_keys]
        simp [hj]
    card_le := by
      have hle := m.card_le
      have hinsert := Finset.card_insert_le k m.keys
      omega})

/-- Unbind a key. -/
def remove (m : BoundedMap κ α capacity) (k : κ) : Bool × BoundedMap κ α capacity :=
  if k∈m.keys then (true,{
    lookup := Function.update m.lookup k none
    keys := m.keys.erase k
    mem_keys := by
      intro j
      by_cases hj : j=k
      · subst hj
        simp
      · rw [Finset.mem_erase,Function.update_of_ne hj,m.mem_keys]
        simp [hj]
    card_le := (Finset.card_le_card (Finset.erase_subset _ _)).trans m.card_le})
  else (false,m)

/-- Binding is refused exactly when the key is bound or the map is full, and
then nothing changes. -/
theorem insert_refused {m : BoundedMap κ α capacity} {k : κ}
    (h : k∈m.keys ∨ m.keys.card=capacity) (a : α) : m.insert k a=(false,m) := by
  rw [insert,dif_pos h]

/-- Any other key is bound to the value. -/
theorem insert_bound {m : BoundedMap κ α capacity} {k : κ}
    (h : ¬(k∈m.keys ∨ m.keys.card=capacity)) (a : α) : (m.insert k a).1=true ∧
      (m.insert k a).2.lookup=Function.update m.lookup k (some a) ∧
      (m.insert k a).2.keys.card=m.keys.card+1 := by
  rw [insert,dif_neg h]
  refine ⟨rfl,rfl,?_⟩
  exact Finset.card_insert_of_notMem (fun hmem => h (Or.inl hmem))

/-- Unbinding an absent key changes nothing. -/
theorem remove_absent {m : BoundedMap κ α capacity} {k : κ} (h : k∉m.keys) :
    m.remove k=(false,m) := by
  rw [remove,if_neg h]

/-- A bound key loses its value. -/
theorem remove_bound {m : BoundedMap κ α capacity} {k : κ} (h : k∈m.keys) :
    (m.remove k).1=true ∧ (m.remove k).2.lookup=Function.update m.lookup k none ∧
      (m.remove k).2.keys.card+1=m.keys.card := by
  rw [remove,if_pos h]
  exact ⟨rfl,rfl,Finset.card_erase_add_one h⟩

end BoundedMap

end NetworkLayer.BoundedMaps
