import Mathlib.Data.List.Basic
import Mathlib.Order.Bounds.Basic
import Mathlib.Order.Lattice
import Mathlib.Order.MinMax

/-!
# Cumulative acknowledgements

A sender keeps elements with consecutive numbers until they are acknowledged.
An acknowledgement names a number, and everything below it that is still there
goes. Numbers below the first element and beyond the last one are both met in
practice, so the amount that goes is cut off at both ends; two of these
acknowledgements are still one, of the greater number.
-/

namespace NetworkLayer.CumulativeAcks

/-- Elements with consecutive numbers, from the number of the first one on. -/
@[ext]
structure Unacked (α : Type*) where
  /-- Number of the first element. -/
  first : ℤ
  /-- The elements. -/
  items : List α

variable {α : Type*}

/-- How many elements an acknowledgement takes away. -/
def Unacked.acked (w : Unacked α) (ackNum : ℤ) : ℕ := min w.items.length (ackNum-w.first).toNat

/-- What is left after an acknowledgement. -/
def Unacked.acknowledge (w : Unacked α) (ackNum : ℤ) : Unacked α :=
  ⟨w.first+w.acked ackNum,w.items.drop (w.acked ackNum)⟩

/-- Two acknowledgements take away what the greater one does. -/
theorem acked_acknowledge (w : Unacked α) (a b : ℤ) :
    w.acked a+(w.acknowledge a).acked b=w.acked (max a b) := by
  simp only [Unacked.acknowledge,Unacked.acked,List.length_drop]
  omega

/-- They are one acknowledgement of the greater number. -/
theorem acknowledge_acknowledge (w : Unacked α) (a b : ℤ) :
    (w.acknowledge a).acknowledge b=w.acknowledge (max a b) := by
  have hcount := acked_acknowledge w a b
  apply Unacked.ext
  · change w.first+w.acked a+(w.acknowledge a).acked b=w.first+w.acked (max a b)
    omega
  · change (w.items.drop (w.acked a)).drop ((w.acknowledge a).acked b)=
      w.items.drop (w.acked (max a b))
    rw [List.drop_drop,hcount]

/-- Whatever comes after an acknowledgement adds to the greatest number. -/
theorem foldl_acknowledge_cons (w : Unacked α) {a greatest : ℤ} {rest : List ℤ}
    (h : IsGreatest {n | n∈a::rest} greatest) :
    rest.foldl Unacked.acknowledge (w.acknowledge a)=w.acknowledge greatest := by
  induction rest generalizing a with
  | nil =>
    obtain rfl : greatest=a := by simpa using h.1
    rfl
  | cons b rest ih =>
    have ha : a ≤ greatest := h.2 List.mem_cons_self
    have hb : b ≤ greatest := h.2 (List.mem_cons_of_mem _ List.mem_cons_self)
    have hmax : IsGreatest {n | n∈max a b::rest} greatest := by
      refine ⟨?_,?_⟩
      · rcases List.mem_cons.mp h.1 with rfl|hmem
        · rw [max_eq_left hb]
          exact List.mem_cons_self
        rcases List.mem_cons.mp hmem with rfl|hmem
        · rw [max_eq_right ha]
          exact List.mem_cons_self
        · exact List.mem_cons_of_mem _ hmem
      · intro n hn
        rcases List.mem_cons.mp hn with rfl|hmem
        · exact max_le ha hb
        · exact h.2 (List.mem_cons_of_mem _ (List.mem_cons_of_mem _ hmem))
    rw [List.foldl_cons,acknowledge_acknowledge,ih hmax]

/-- In any order and with any repetitions, the greatest number decides. -/
theorem foldl_acknowledge (w : Unacked α) {greatest : ℤ} {acks : List ℤ}
    (h : IsGreatest {n | n∈acks} greatest) :
    acks.foldl Unacked.acknowledge w=w.acknowledge greatest := by
  cases acks with
  | nil => cases h.1
  | cons a rest => exact foldl_acknowledge_cons w h

end NetworkLayer.CumulativeAcks
