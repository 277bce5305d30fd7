import Mathlib.Data.List.Basic
import Mathlib.Data.Fin.Basic
import Mathlib.Data.Nat.ModEq

/-!
# Circular cells

A bounded first-in first-out list kept in an array that is read around its
end. `slot` is the mathematical place of an element, `wrapped` the form with
one conditional subtraction that programs compute. The list view `contents`
turns writing behind the last element and stepping over the first one into
list append and list tail.
-/

namespace NetworkLayer.CircularCells

variable {α : Type*} {n : ℕ}

/-- The place `i` steps after `head`, counted around the end of the array. -/
def slot (head : Fin n) (i : ℕ) : Fin n := ⟨(head.val+i)%n,Nat.mod_lt _ head.pos⟩

/-- The same place with one conditional subtraction, for fewer than `n`
steps, or `n` of them. -/
def wrapped (head : Fin n) (i : ℕ) (hi : i ≤ n) : Fin n :=
  if h : head.val+i ≥ n then ⟨head.val+i-n,by omega⟩ else ⟨head.val+i,by omega⟩

/-- One conditional subtraction computes the place around the end. -/
theorem wrapped_eq_slot (head : Fin n) (i : ℕ) (hi : i ≤ n) : wrapped head i hi=slot head i := by
  unfold wrapped slot
  split
  · next h =>
    have hlt : head.val+i-n < n := by omega
    ext
    simp only [Nat.mod_eq_sub_mod h,Nat.mod_eq_of_lt hlt]
  · next h =>
    ext
    simp only [Nat.mod_eq_of_lt (Nat.lt_of_not_le h)]

@[simp] theorem slot_zero (head : Fin n) : slot head 0=head := by
  ext
  simp only [slot,Nat.add_zero,Nat.mod_eq_of_lt head.isLt]

/-- Steps add up. -/
theorem slot_slot (head : Fin n) (i j : ℕ) : slot (slot head i) j=slot head (i+j) := by
  ext
  simp only [slot,Nat.mod_add_mod,Nat.add_assoc]

/-- Fewer than `n` steps reach different places. -/
theorem slot_injective {head : Fin n} {i j : ℕ} (hi : i < n) (hj : j < n)
    (h : slot head i=slot head j) : i=j := by
  have hmod : head.val+i≡head.val+j [MOD n] := congrArg Fin.val h
  have hcancel : i≡j [MOD n] := Nat.ModEq.add_left_cancel' head.val hmod
  exact Nat.ModEq.eq_of_lt_of_lt hcancel hi hj

/-- The `size` elements from `head` on, in the order they were written. -/
def contents (cells : Fin n → α) (head : Fin n) (size : ℕ) : List α :=
  (List.range size).map fun i => cells (slot head i)

@[simp] theorem length_contents (cells : Fin n → α) (head : Fin n) (size : ℕ) :
    (contents cells head size).length=size := by
  simp only [contents,List.length_map,List.length_range]

/-- Element `i` of the list view is the cell `i` steps after the head. -/
theorem getElem?_contents (cells : Fin n → α) (head : Fin n) {size i : ℕ} (hi : i < size) :
    (contents cells head size)[i]?=some (cells (slot head i)) := by
  simp only [contents,List.getElem?_map,List.getElem?_range hi,Option.map_some]

/-- Writing one place behind the last element appends to the list view. -/
theorem contents_push (cells : Fin n → α) (head : Fin n) {size : ℕ} (hs : size < n) (x : α) :
    contents (Function.update cells (slot head size) x) head (size+1)=
      contents cells head size++[x] := by
  have hold : ∀ i∈List.range size,
      Function.update cells (slot head size) x (slot head i)=cells (slot head i) := by
    intro i hi
    have hlt : i < size := List.mem_range.mp hi
    apply Function.update_of_ne
    intro he
    have := slot_injective (by omega) hs he
    omega
  simp only [contents,List.range_succ,List.map_append,List.map_cons,List.map_nil,
    Function.update_self]
  rw [List.map_congr_left hold]

/-- The first element and the view one place further on. -/
theorem contents_succ (cells : Fin n → α) (head : Fin n) (size : ℕ) :
    contents cells head (size+1)=cells head::contents cells (slot head 1) size := by
  simp only [contents,List.range_succ_eq_map,List.map_cons,slot_zero,List.map_map]
  congr 1
  apply List.map_congr_left
  intro i _
  simp only [Function.comp_apply,slot_slot,Nat.add_comm 1 i]

/-- Overwriting the place just left behind does not show in the view. -/
theorem contents_clear (cells : Fin n → α) (head : Fin n) {size : ℕ} (hs : size < n) (x : α) :
    contents (Function.update cells head x) (slot head 1) size=
      contents cells (slot head 1) size := by
  apply List.map_congr_left
  intro i hi
  have hlt : i < size := List.mem_range.mp hi
  apply Function.update_of_ne
  rw [slot_slot]
  intro he
  have h0 : slot head (1+i)=slot head 0 := he.trans (slot_zero head).symm
  have := slot_injective (by omega) (by omega) h0
  omega

end NetworkLayer.CircularCells
