import Mathlib.Data.List.Basic
import Mathlib.Data.List.OfFn
import Mathlib.Data.List.FinRange
import Mathlib.Data.List.TakeWhile

/-!
# Windows over a stream

A receiver holds the leading part of a byte stream plus a window of cells
for what comes next, some of them valid. `Agrees` says that every valid cell
holds the stream's own element. It survives storing elements of segments,
delivering a valid run from the left end and the in-place shift after it.
Where no stream is given, the delivered list and the window are compared as
relations between positions and elements.
-/

namespace NetworkLayer.WindowedStreams

variable {α : Type*} {n : ℕ}

/-- The data occur in the stream from the offset on. -/
def SegmentOf (stream : List α) (offset : ℕ) (data : List α) : Prop :=
  data<+:stream.drop offset

/-- Every valid cell holds the stream's element at the cell's place, cells
being counted from the offset. -/
def Agrees (stream : List α) (offset : ℕ) (cells : Fin n → α) (valid : Fin n → Bool) : Prop :=
  ∀ i,valid i=true → stream[offset+i.val]?=some (cells i)

/-- The length of the valid run at the left end of the window. -/
def filled (valid : Fin n → Bool) : ℕ := ((List.finRange n).takeWhile valid).length

/-- Cells after `m` rounds of the loop that copies cell `i+k` to cell `i`. -/
def copyRounds (k : ℕ) (cells : Fin n → α) : ℕ → Fin n → α
  | 0 => cells
  | m+1 =>
    let copied := copyRounds k cells m
    if h : m+k < n then
      Function.update copied ⟨m,(Nat.le_add_right m k).trans_lt h⟩ (copied ⟨m+k,h⟩)
    else copied

/-- The in-place shift by `k` cells, one copy per cell that has a source. -/
def copyDown (k : ℕ) (cells : Fin n → α) : Fin n → α := copyRounds k cells (n-k)

/-- Flags after clearing every flag from place `m` on. -/
def clearFrom (m : ℕ) (valid : Fin n → Bool) : Fin n → Bool :=
  fun i => if i.val < m then valid i else false

/-- A segment's elements are the stream's. -/
theorem SegmentOf.getElem? {stream data : List α} {offset i : ℕ} {x : α}
    (h : SegmentOf stream offset data) (hi : data[i]?=some x) : stream[offset+i]?=some x := by
  obtain ⟨rest,hrest⟩ := h
  have hlt : i < data.length := (List.getElem?_eq_some_iff.mp hi).1
  rw [←List.getElem?_drop,←hrest,List.getElem?_append_left hlt,hi]

/-- A segment stays one when the stream grows at its end. -/
theorem SegmentOf.append {stream data : List α} {offset : ℕ} (h : SegmentOf stream offset data)
    (more : List α) (ho : offset ≤ stream.length) : SegmentOf (stream++more) offset data := by
  rw [SegmentOf,List.drop_append_of_le_length ho]
  exact h.trans (List.prefix_append _ _)

/-- Agreement with a stream is agreement with every longer one. -/
theorem Agrees.append {stream : List α} {offset : ℕ} {cells : Fin n → α} {valid : Fin n → Bool}
    (h : Agrees stream offset cells valid) (more : List α) :
    Agrees (stream++more) offset cells valid := by
  intro i hi
  have hsome := h i hi
  have hlt := (List.getElem?_eq_some_iff.mp hsome).1
  rw [List.getElem?_append_left hlt,hsome]

/-- Storing the stream's element at a place keeps the window in agreement. -/
theorem Agrees.store {stream : List α} {offset : ℕ} {cells : Fin n → α} {valid : Fin n → Bool}
    (h : Agrees stream offset cells valid) {i : Fin n} {x : α}
    (hx : stream[offset+i.val]?=some x) :
    Agrees stream offset (Function.update cells i x) (Function.update valid i true) := by
  intro j hj
  by_cases he : j=i
  · subst he
    rw [Function.update_self,hx]
  · rw [Function.update_of_ne he] at hj ⊢
    exact h j hj

/-- After `m` rounds the first `m` cells hold their sources and the others
are untouched: a source is always read before it is overwritten. -/
theorem copyRounds_apply (k : ℕ) (cells : Fin n → α) {m : ℕ} (hm : m ≤ n-k) (i : Fin n) :
    copyRounds k cells m i=
      if h : i.val < m then cells ⟨i.val+k,by omega⟩ else cells i := by
  induction m generalizing i with
  | zero => simp [copyRounds]
  | succ m ih =>
    have hk : m+k < n := by omega
    simp only [copyRounds,dif_pos hk]
    by_cases hi : i.val=m
    · obtain ⟨j,hj⟩ := i
      obtain rfl : j=m := hi
      rw [Function.update_self,ih (by omega),dif_neg (by simp),dif_pos (by simp)]
    · rw [Function.update_of_ne (fun he => hi (congrArg Fin.val he)),ih (by omega)]
      by_cases hlt : i.val < m
      · rw [dif_pos hlt,dif_pos (by omega)]
      · rw [dif_neg hlt,dif_neg (by omega)]

/-- The in-place loop computes the simultaneous shift. -/
theorem copyDown_apply {k : ℕ} (cells : Fin n → α) {i : Fin n} (h : i.val+k < n) :
    copyDown k cells i=cells ⟨i.val+k,h⟩ := by
  rw [copyDown,copyRounds_apply k cells le_rfl,dif_pos (by omega)]

/-- Shifting the window forward together with its place in the stream keeps
the two in agreement; the flags without a source are cleared. -/
theorem Agrees.shift {stream : List α} {offset : ℕ} {cells : Fin n → α} {valid : Fin n → Bool}
    (h : Agrees stream offset cells valid) (k : ℕ) :
    Agrees stream (offset+k) (copyDown k cells) (clearFrom (n-k) (copyDown k valid)) := by
  intro i hi
  have hlt : i.val < n-k := by
    by_contra hn
    simp only [clearFrom,if_neg hn,Bool.false_eq_true] at hi
  have hk : i.val+k < n := by omega
  rw [clearFrom,if_pos hlt,copyDown_apply valid hk] at hi
  rw [copyDown_apply cells hk,←h ⟨i.val+k,hk⟩ hi]
  congr 1
  simp only
  omega

/-- The run at the left end is no longer than the window. -/
theorem filled_le (valid : Fin n → Bool) : filled valid ≤ n := by
  have h := (List.takeWhile_prefix valid (l:=List.finRange n)).length_le
  rwa [List.length_finRange] at h

/-- Every cell of the run at the left end is valid. -/
theorem valid_of_lt_filled {valid : Fin n → Bool} {i : Fin n} (hi : i.val < filled valid) :
    valid i=true := by
  have hp := List.takeWhile_prefix valid (l:=List.finRange n)
  have hlt : i.val < ((List.finRange n).takeWhile valid).length := hi
  have hget : ((List.finRange n).takeWhile valid)[i.val]=i := by
    rw [hp.getElem hlt,List.getElem_finRange]
    rfl
  have hmem : i∈(List.finRange n).takeWhile valid := by
    have := List.getElem_mem hlt
    rwa [hget] at this
  exact List.mem_takeWhile_imp hmem

/-- Delivering part of the valid run extends the delivered prefix by exactly
the stream's next elements. -/
theorem Agrees.deliver {stream delivered : List α} {cells : Fin n → α} {valid : Fin n → Bool}
    (hp : delivered<+:stream) (ha : Agrees stream delivered.length cells valid) {k : ℕ}
    (hk : k ≤ filled valid) : delivered++(List.ofFn cells).take k<+:stream := by
  obtain ⟨rest,rfl⟩ := hp
  refine (List.prefix_append_right_inj _).mpr ?_
  rw [List.prefix_iff_getElem?]
  intro i hi
  have hlen : i < k ∧ i < n := by
    simpa only [List.length_take,List.length_ofFn,Nat.lt_min] using hi
  have hvalid : valid ⟨i,hlen.2⟩=true := valid_of_lt_filled (by simp only; omega)
  have hsome := ha ⟨i,hlen.2⟩ hvalid
  rw [List.getElem?_append_right (Nat.le_add_right _ _),Nat.add_sub_cancel_left] at hsome
  rw [hsome,List.getElem_take,List.getElem_ofFn]

section Positions

/-- The list's elements stand at consecutive positions. -/
def Placed (first : ℤ) (xs : List α) (p : ℤ) (x : α) : Prop := ∃ i : ℕ,p=first+i ∧ xs[i]?=some x

/-- The window holds an element at a position: its cell there is valid. -/
def Held (first : ℤ) (cells : Fin n → α) (valid : Fin n → Bool) (p : ℤ) (x : α) : Prop :=
  ∃ i,p=first+(i.val : ℕ) ∧ valid i=true ∧ cells i=x

/-- A list has one element at a position. -/
theorem Placed.unique {first p : ℤ} {xs : List α} {x y : α} (hx : Placed first xs p x)
    (hy : Placed first xs p y) : x=y := by
  obtain ⟨i,hi,hx⟩ := hx
  obtain ⟨j,hj,hy⟩ := hy
  have hij : i=j := by omega
  rw [hij,hy] at hx
  exact (Option.some.inj hx).symm

/-- The first element and the elements behind it. -/
theorem placed_cons_iff {first p : ℤ} {a x : α} {xs : List α} :
    Placed first (a::xs) p x ↔ p=first ∧ a=x ∨ Placed (first+1) xs p x := by
  constructor
  · rintro ⟨i,hp,hx⟩
    cases i with
    | zero => exact Or.inl ⟨by simpa using hp,by simpa using hx⟩
    | succ i => exact Or.inr ⟨i,by omega,by simpa using hx⟩
  · rintro (⟨hp,hx⟩|⟨i,hp,hx⟩)
    · exact ⟨0,by simpa using hp,by simpa using hx⟩
    · exact ⟨i+1,by omega,by simpa using hx⟩

/-- Lists put together stand one behind the other. -/
theorem placed_append_iff {first p : ℤ} {xs ys : List α} {x : α} :
    Placed first (xs++ys) p x ↔ Placed first xs p x ∨ Placed (first+xs.length) ys p x := by
  induction xs generalizing first with
  | nil => simp [Placed]
  | cons a xs ih =>
    have hshift : first+1+(xs.length : ℤ)=first+((a::xs).length : ℤ) := by
      rw [List.length_cons]
      omega
    rw [List.cons_append,placed_cons_iff,placed_cons_iff,ih,hshift,or_assoc]

/-- Every position of a list has an element. -/
theorem exists_placed {first p : ℤ} {xs : List α} (hlow : first ≤ p)
    (hhigh : p < first+xs.length) : ∃ x,Placed first xs p x := by
  have hlt : (p-first).toNat < xs.length := by omega
  exact ⟨xs[(p-first).toNat],(p-first).toNat,by omega,List.getElem?_eq_getElem hlt⟩

/-- And no other position has. -/
theorem Placed.bounds {first p : ℤ} {xs : List α} {x : α} (h : Placed first xs p x) :
    first ≤ p ∧ p < first+xs.length := by
  obtain ⟨i,hp,hx⟩ := h
  have hlt := (List.getElem?_eq_some_iff.mp hx).1
  omega

/-- Storing into an invalid cell adds one position to the window. -/
theorem held_store_iff {first p : ℤ} {cells : Fin n → α} {valid : Fin n → Bool} {i : Fin n}
    (hi : valid i=false) {a x : α} :
    Held first (Function.update cells i a) (Function.update valid i true) p x ↔
      Held first cells valid p x ∨ p=first+(i.val : ℕ) ∧ a=x := by
  constructor
  · rintro ⟨j,hp,hv,hx⟩
    by_cases hji : j=i
    · subst hji
      rw [Function.update_self] at hx
      exact Or.inr ⟨hp,hx⟩
    · rw [Function.update_of_ne hji] at hv hx
      exact Or.inl ⟨j,hp,hv,hx⟩
  · rintro (⟨j,hp,hv,hx⟩|⟨hp,hx⟩)
    · have hji : j≠i := by
        rintro rfl
        rw [hi] at hv
        cases hv
      exact ⟨j,hp,by rwa [Function.update_of_ne hji],by rwa [Function.update_of_ne hji]⟩
    · exact ⟨i,hp,by rw [Function.update_self],by rw [Function.update_self,hx]⟩

/-- The shift by `k` cells keeps the positions behind the first `k`. -/
theorem held_shift_iff {first p : ℤ} {cells : Fin n → α} {valid : Fin n → Bool} {k : ℕ} {x : α} :
    Held (first+k) (copyDown k cells) (clearFrom (n-k) (copyDown k valid)) p x ↔
      Held first cells valid p x ∧ first+k ≤ p := by
  constructor
  · rintro ⟨i,hp,hv,hx⟩
    have hlt : i.val < n-k := by
      by_contra hn
      simp only [clearFrom,if_neg hn,Bool.false_eq_true] at hv
    have hk : i.val+k < n := by omega
    rw [clearFrom,if_pos hlt,copyDown_apply valid hk] at hv
    rw [copyDown_apply cells hk] at hx
    exact ⟨⟨⟨i.val+k,hk⟩,by simp only; omega,hv,hx⟩,by omega⟩
  · rintro ⟨⟨i,hp,hv,hx⟩,hle⟩
    have hik : i.val-k+k < n := by omega
    have hcell : (⟨i.val-k+k,hik⟩ : Fin n)=i := Fin.ext (by simp only; omega)
    refine ⟨⟨i.val-k,by omega⟩,by simp only; omega,?_,?_⟩
    · rw [clearFrom,if_pos (by simp only; omega),copyDown_apply valid hik,hcell,hv]
    · rw [copyDown_apply cells hik,hcell,hx]

/-- The first `k` cells of the valid run are the positions before the rest. -/
theorem placed_delivered_iff {first p : ℤ} {cells : Fin n → α} {valid : Fin n → Bool} {k : ℕ}
    (hk : k ≤ filled valid) {x : α} :
    Placed first ((List.ofFn cells).take k) p x ↔ Held first cells valid p x ∧ p < first+k := by
  have hn := filled_le valid
  constructor
  · rintro ⟨i,hp,hx⟩
    obtain ⟨hlt,hx⟩ := List.getElem?_eq_some_iff.mp hx
    have hbounds : i < k ∧ i < n := by
      simpa only [List.length_take,List.length_ofFn,Nat.lt_min] using hlt
    rw [List.getElem_take,List.getElem_ofFn] at hx
    have hvalid : valid ⟨i,hbounds.2⟩=true := valid_of_lt_filled (by simp only; omega)
    exact ⟨⟨⟨i,hbounds.2⟩,hp,hvalid,hx⟩,by omega⟩
  · rintro ⟨⟨i,hp,hv,hx⟩,hlt⟩
    have hik : i.val < k := by omega
    refine ⟨i.val,hp,?_⟩
    rw [List.getElem?_take_of_lt hik,List.getElem?_ofFn,dif_pos i.isLt,hx]

/-- Delivering from the left end and shifting moves elements out of the window
and loses none. -/
theorem delivered_or_held_iff {first p : ℤ} {cells : Fin n → α} {valid : Fin n → Bool} {k : ℕ}
    (hk : k ≤ filled valid) {x : α} :
    Placed first ((List.ofFn cells).take k) p x ∨
        Held (first+k) (copyDown k cells) (clearFrom (n-k) (copyDown k valid)) p x ↔
      Held first cells valid p x := by
  rw [placed_delivered_iff hk,held_shift_iff,←and_or_left]
  exact and_iff_left (lt_or_ge p _)

end Positions

end NetworkLayer.WindowedStreams
