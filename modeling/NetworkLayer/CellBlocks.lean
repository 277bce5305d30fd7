import Mathlib.Data.List.Basic
import Mathlib.Logic.Function.Basic

/-!
# Blocks of cells

Memory as a function from offsets to cells, with a contiguous block stored
or loaded at an offset. Loops that write cell after cell are block stores,
and a load sees a store exactly where the two blocks meet.
-/

namespace NetworkLayer.CellBlocks

variable {α : Type*}

/-- The cells after writing the data one by one from an offset on. -/
def storeBlock (cells : ℕ → α) (offset : ℕ) : List α → ℕ → α
  | [] => cells
  | x::data => storeBlock (Function.update cells offset x) (offset+1) data

/-- The `len` cells from an offset on. -/
def loadBlock (cells : ℕ → α) (offset len : ℕ) : List α :=
  (List.range len).map fun i => cells (offset+i)

@[simp] theorem length_loadBlock (cells : ℕ → α) (offset len : ℕ) :
    (loadBlock cells offset len).length=len := by
  simp only [loadBlock,List.length_map,List.length_range]

/-- A load may be cut in two. -/
theorem loadBlock_add (cells : ℕ → α) (offset m k : ℕ) :
    loadBlock cells offset (m+k)=loadBlock cells offset m++loadBlock cells (offset+m) k := by
  simp only [loadBlock,List.range_add,List.map_append,List.map_map]
  congr 1
  apply List.map_congr_left
  intro i _
  simp only [Function.comp_apply,Nat.add_assoc]

/-- A load begins with the cell at its offset. -/
theorem loadBlock_succ (cells : ℕ → α) (offset len : ℕ) :
    loadBlock cells offset (len+1)=cells offset::loadBlock cells (offset+1) len := by
  rw [Nat.add_comm,loadBlock_add,loadBlock,List.range_one,List.map_cons,List.map_nil,Nat.add_zero,
    List.singleton_append]

/-- A store leaves every cell outside its block alone. -/
theorem storeBlock_apply_outside (cells : ℕ → α) {offset i : ℕ} {data : List α}
    (h : i < offset ∨ offset+data.length ≤ i) : storeBlock cells offset data i=cells i := by
  induction data generalizing cells offset with
  | nil => rfl
  | cons x data ih =>
    rw [List.length_cons] at h
    rw [storeBlock,ih _ (by omega),Function.update_of_ne (by omega)]

/-- A load of the stored block returns the data. -/
theorem loadBlock_storeBlock (cells : ℕ → α) (offset : ℕ) (data : List α) :
    loadBlock (storeBlock cells offset data) offset data.length=data := by
  induction data generalizing cells offset with
  | nil => rfl
  | cons x data ih =>
    rw [List.length_cons,Nat.add_comm,loadBlock_add,storeBlock,ih]
    have hfirst : storeBlock (Function.update cells offset x) (offset+1) data offset=x := by
      rw [storeBlock_apply_outside _ (Or.inl (Nat.lt_succ_self _)),Function.update_self]
    simp only [loadBlock,List.range_one,List.map_cons,List.map_nil,Nat.add_zero,hfirst,
      List.singleton_append]

/-- Storing two pieces one behind the other is storing their concatenation. -/
theorem storeBlock_append (cells : ℕ → α) (offset : ℕ) (first second : List α) :
    storeBlock cells offset (first++second)=
      storeBlock (storeBlock cells offset first) (offset+first.length) second := by
  induction first generalizing cells offset with
  | nil => rfl
  | cons x first ih =>
    rw [List.cons_append,storeBlock,storeBlock,ih,List.length_cons]
    congr 1
    omega

/-- A block with one more cell written behind it is loaded with that cell. -/
theorem loadBlock_update_end (cells : ℕ → α) (offset : ℕ) (data : List α) (x : α) :
    loadBlock (Function.update (storeBlock cells offset data) (offset+data.length) x) offset
      (data.length+1)=data++[x] := by
  have hstore : Function.update (storeBlock cells offset data) (offset+data.length) x=
      storeBlock cells offset (data++[x]) := by
    rw [storeBlock_append]
    rfl
  have hload := loadBlock_storeBlock cells offset (data++[x])
  rw [List.length_append,List.length_singleton] at hload
  rw [hstore,hload]

/-- The cells after single stores, in order. -/
def perform (cells : ℕ → α) (stores : List (ℕ × α)) : ℕ → α :=
  stores.foldl (fun cells store => Function.update cells store.1 store.2) cells

/-- Stores to other places leave a cell alone. -/
theorem perform_apply_outside (cells : ℕ → α) {stores : List (ℕ × α)} {i : ℕ}
    (h : ∀ store∈stores,store.1≠i) : perform cells stores i=cells i := by
  induction stores generalizing cells with
  | nil => rfl
  | cons store stores ih =>
    have hrest := ih (Function.update cells store.1 store.2)
      fun other hother => h other (List.mem_cons_of_mem _ hother)
    have hfirst : i≠store.1 := (h store List.mem_cons_self).symm
    rw [perform,List.foldl_cons,←perform,hrest,Function.update_of_ne hfirst]

/-- A cell that later stores leave alone holds what was stored first. -/
theorem perform_cons_self (cells : ℕ → α) (i : ℕ) (x : α) {stores : List (ℕ × α)}
    (h : ∀ store∈stores,store.1≠i) : perform cells ((i,x)::stores) i=x := by
  rw [perform,List.foldl_cons,←perform,perform_apply_outside _ h,Function.update_self]

end NetworkLayer.CellBlocks
