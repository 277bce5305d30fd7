import NetworkLayer.WindowedStreams

/-!
# How far a stream gets

A stream is sent in segments that start where the part that passed so far
ends, or before. If only segments of a certain kind get through, a stream may
stop for good at some place. `Barrier` says where: segments of the kind never
lead beyond the part that passes, whatever the stream goes on with.
-/

namespace NetworkLayer.StreamBarriers

open WindowedStreams

variable {α : Type*}

/-- Where streams stop whose segments have to be of a certain kind. -/
structure Barrier (α : Type*) where
  /-- The part of a stream that can pass. -/
  passed : List α → List α
  /-- The segments that get through. -/
  fits : List α → Prop
  /-- What passes is the start of the stream. -/
  passed_prefix : ∀ stream,passed stream<+:stream
  /-- It stays when the stream grows. -/
  grows : ∀ stream more,passed stream<+:passed (stream++more)
  /-- A segment that starts in it and gets through does not leave it. -/
  segment : ∀ {stream offset data},offset ≤ (passed stream).length → fits data →
    SegmentOf stream offset data → SegmentOf (passed stream) offset data

/-- The part that passes is no longer than the stream. -/
theorem Barrier.length_le (barrier : Barrier α) (stream : List α) :
    (barrier.passed stream).length ≤ stream.length := (barrier.passed_prefix stream).length_le

/-- Elements of the part that passes are elements of the stream. -/
theorem Barrier.getElem?_passed (barrier : Barrier α) {stream : List α} {i : ℕ} {x : α}
    (h : (barrier.passed stream)[i]?=some x) : stream[i]?=some x := by
  obtain ⟨rest,hrest⟩ := barrier.passed_prefix stream
  rw [←hrest,List.getElem?_append_left (List.getElem?_eq_some_iff.mp h).1,h]

section Marks

variable (ends : α → Bool)

/-- The elements before the first mark. -/
def beforeMark (stream : List α) : List α := stream.takeWhile fun x => !ends x

theorem beforeMark_cons (x : α) (rest : List α) :
    beforeMark ends (x::rest)=if ends x=true then [] else x::beforeMark ends rest := by
  cases h : ends x <;> simp [beforeMark,h]

/-- A segment without mark that starts before the first mark, or at it, ends
before it. -/
theorem beforeMark_segment {stream data : List α} {offset : ℕ}
    (ho : offset ≤ (beforeMark ends stream).length) (hdata : ∀ x∈data,ends x=false)
    (h : SegmentOf stream offset data) : SegmentOf (beforeMark ends stream) offset data := by
  induction offset generalizing stream with
  | zero =>
    rw [SegmentOf,List.drop_zero] at h ⊢
    obtain ⟨rest,rfl⟩ := h
    rw [beforeMark,List.takeWhile_append_of_pos (by simpa using hdata)]
    exact List.prefix_append _ _
  | succ offset ih =>
    cases stream with
    | nil => simp [beforeMark] at ho
    | cons x rest =>
      rw [beforeMark_cons] at ho ⊢
      split at ho
      · simp at ho
      · next hx =>
        rw [if_neg hx]
        exact ih (by simpa using ho) h

/-- A mark is in no segment, so nothing from the first mark on passes. -/
def markBarrier : Barrier α where
  passed := beforeMark ends
  fits := fun data => ∀ x∈data,ends x=false
  passed_prefix := fun _ => List.takeWhile_prefix _
  grows := by
    intro stream more
    induction stream with
    | nil => exact List.nil_prefix
    | cons x rest ih =>
      rw [List.cons_append,beforeMark_cons,beforeMark_cons]
      split
      · exact List.nil_prefix
      · exact (List.prefix_cons_inj x).mpr ih
  segment := fun ho hdata h => beforeMark_segment ends ho hdata h

end Marks

section Sticking

variable (ends sticks : α → Bool) (width : ℕ)

/-- What passes when no segment contains a mark, is longer than the width or
starts with an element that sticks: such an element needs one that does not,
less than the width before it. The first argument counts how many more can
follow. -/
def passable : ℕ → List α → List α
  | _,[] => []
  | room,x::rest =>
    if ends x=true ∨ sticks x=true ∧ room=0 then []
    else x::passable (if sticks x=true then room-1 else width-1) rest

theorem passable_prefix (room : ℕ) (stream : List α) :
    passable ends sticks width room stream<+:stream := by
  induction stream generalizing room with
  | nil => exact List.nil_prefix
  | cons x rest ih =>
    rw [passable]
    split
    · exact List.nil_prefix
    · exact (List.prefix_cons_inj x).mpr (ih _)

theorem passable_grows (room : ℕ) (stream more : List α) :
    passable ends sticks width room stream<+:
      passable ends sticks width room (stream++more) := by
  induction stream generalizing room with
  | nil => exact List.nil_prefix
  | cons x rest ih =>
    rw [List.cons_append,passable,passable]
    split
    · exact List.nil_prefix
    · exact (List.prefix_cons_inj x).mpr (ih _)

/-- A start of the stream that is short enough and without mark passes. -/
theorem prefix_passable {room : ℕ} {data stream : List α} (hroom : data.length ≤ room)
    (hwidth : data.length ≤ width) (hends : ∀ x∈data,ends x=false) (h : data<+:stream) :
    data<+:passable ends sticks width room stream := by
  induction data generalizing room stream with
  | nil => exact List.nil_prefix
  | cons x data ih =>
    obtain ⟨rest,rfl⟩ := h
    rw [List.length_cons] at hroom hwidth
    have hx : ¬(ends x=true ∨ sticks x=true ∧ room=0) := by
      rw [hends x List.mem_cons_self]
      rintro (h|⟨_,h⟩)
      · cases h
      · omega
    rw [List.cons_append,passable,if_neg hx]
    refine (List.prefix_cons_inj x).mpr
      (ih ?_ (by omega) (fun y hy => hends y (List.mem_cons_of_mem x hy)) (List.prefix_append _ _))
    split <;> omega

/-- A segment that gets through and starts in the part that passes, or at its
end, stays in it. -/
theorem passable_segment {room offset : ℕ} {stream data : List α}
    (ho : offset ≤ (passable ends sticks width room stream).length)
    (hends : ∀ x∈data,ends x=false) (hwidth : data.length ≤ width)
    (hhead : ∀ x,data.head?=some x → sticks x=false) (h : SegmentOf stream offset data) :
    SegmentOf (passable ends sticks width room stream) offset data := by
  induction offset generalizing room stream with
  | zero =>
    rw [SegmentOf,List.drop_zero] at h ⊢
    cases data with
    | nil => exact List.nil_prefix
    | cons x data =>
      obtain ⟨rest,rfl⟩ := h
      have hx : ends x=false := hends x List.mem_cons_self
      have hstick : sticks x=false := hhead x rfl
      rw [List.length_cons] at hwidth
      rw [List.cons_append,passable,if_neg (by simp [hx,hstick]),hstick,if_neg (by simp)]
      exact (List.prefix_cons_inj x).mpr (prefix_passable ends sticks width (by omega) (by omega)
        (fun y hy => hends y (List.mem_cons_of_mem x hy)) (List.prefix_append _ _))
  | succ offset ih =>
    cases stream with
    | nil => simp [passable] at ho
    | cons x rest =>
      rw [passable] at ho ⊢
      split at ho
      · simp at ho
      · next hx =>
        rw [if_neg hx]
        exact ih (by simpa using ho) h

/-- Every element that passes stands less than the width behind one that does
not stick, or among the first `room`. -/
theorem covered_of_passable {room i : ℕ} {stream : List α} (hwidth : 0 < width)
    (hi : i < (passable ends sticks width room stream).length) :
    i < room ∨ ∃ k ≤ i,i < k+width ∧ ∃ x,stream[k]?=some x ∧ sticks x=false := by
  induction stream generalizing room i with
  | nil => simp [passable] at hi
  | cons x rest ih =>
    rw [passable] at hi
    split at hi
    · simp at hi
    next hx =>
    cases hstick : sticks x with
    | false =>
      cases i with
      | zero => exact Or.inr ⟨0,le_rfl,by omega,x,rfl,hstick⟩
      | succ i =>
        rw [hstick,if_neg (by simp),List.length_cons,Nat.add_lt_add_iff_right] at hi
        rcases ih hi with hroom|⟨k,hk,hlt,y,hy,hys⟩
        · exact Or.inr ⟨0,Nat.zero_le _,by omega,x,rfl,hstick⟩
        · exact Or.inr ⟨k+1,by omega,by omega,y,hy,hys⟩
    | true =>
      have hpos : room≠0 := fun h => hx (Or.inr ⟨hstick,h⟩)
      cases i with
      | zero => exact Or.inl (by omega)
      | succ i =>
        rw [hstick,if_pos rfl,List.length_cons,Nat.add_lt_add_iff_right] at hi
        rcases ih hi with hroom|⟨k,hk,hlt,y,hy,hys⟩
        · exact Or.inl (by omega)
        · exact Or.inr ⟨k+1,by omega,by omega,y,hy,hys⟩

/-- The barrier of segments of limited width that may not start with an
element that sticks. -/
def stickBarrier : Barrier α where
  passed := passable ends sticks width 0
  fits := fun data => (∀ x∈data,ends x=false) ∧ data.length ≤ width ∧
    ∀ x,data.head?=some x → sticks x=false
  passed_prefix := passable_prefix ends sticks width 0
  grows := passable_grows ends sticks width 0
  segment := fun ho hdata h => passable_segment ends sticks width ho hdata.1 hdata.2.1 hdata.2.2 h

end Sticking

end NetworkLayer.StreamBarriers
