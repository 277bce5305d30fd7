import NetworkLayer.ByteStrings
import NetworkLayer.CircularCells

/-!
# The array queue of a send window

The fields are the source's: head, tail, size, array and iterator are kept
separately and wrap by a conditional subtraction. The structure carries the
relation between them, so every queue represents a list of at most the
capacity, and each operation is that list's append, tail or lookup.
-/

namespace NetworkLayer.ArrayQueue

open ByteStrings CircularCells

/-- `DEFAULT_QUEUE_CAPACITY`. -/
abbrev queueCapacity : ℕ := 8192

/-- `QUEUE_EMPTY_ELEMENT`, the NUL character. -/
def queueEmptyElement : Byte := 0

/-- A queue with its separately kept indices. -/
structure Queue where
  /-- Place of the first element. -/
  head : Fin queueCapacity
  /-- Place of the last element. -/
  tail : Fin queueCapacity
  /-- Number of elements. -/
  size : ℕ
  /-- The cells, used ones and cleared ones. -/
  array : Fin queueCapacity → Byte
  /-- Distance of the iteration from the head. -/
  iterator : ℕ
  /-- The queue never holds more than its capacity. -/
  size_le : size ≤ queueCapacity
  /-- The next element goes behind the last one. -/
  next_tail : slot tail 1=slot head size

/-- The list of elements a queue stands for, first in first. -/
def Queue.toList (q : Queue) : List Byte := contents q.array q.head q.size

/-- An index plus one, wrapped by the conditional subtraction. -/
def nextIndex (i : Fin queueCapacity) : Fin queueCapacity := wrapped i 1 (by decide)

theorem nextIndex_eq_slot (i : Fin queueCapacity) : nextIndex i=slot i 1 := wrapped_eq_slot _ _ _

/-- `QueueCreate`: empty, with the tail one place before the head. -/
def queueCreate : Queue where
  head := ⟨0,by decide⟩
  tail := ⟨queueCapacity-1,by decide⟩
  size := 0
  array := fun _ => queueEmptyElement
  iterator := 0
  size_le := Nat.zero_le _
  next_tail := by decide

/-- `QueueIsFull`. -/
def Queue.queueIsFull (q : Queue) : Bool := q.size=queueCapacity

/-- `QueueIsEmpty`. -/
def Queue.queueIsEmpty (q : Queue) : Bool := q.size=0

/-- `enqueue`: the result and the queue afterwards. -/
def Queue.enqueue (q : Queue) (element : Byte) : Bool × Queue :=
  if h : q.queueIsFull=true then (false,q)
  else
    let tail := nextIndex q.tail
    (true,{q with
      tail := tail
      array := Function.update q.array tail element
      size := q.size+1
      size_le := by
        have hlt := q.size_le
        have hne : q.size≠queueCapacity := fun he => h (decide_eq_true he)
        omega
      next_tail := by
        have htail : tail=slot q.tail 1 := nextIndex_eq_slot q.tail
        rw [htail,q.next_tail,slot_slot]})

/-- `dequeue`: the element, or the empty element, and the queue afterwards. -/
def Queue.dequeue (q : Queue) : Byte × Queue :=
  if h : q.queueIsEmpty=true then (queueEmptyElement,q)
  else
    (q.array q.head,{q with
      array := Function.update q.array q.head queueEmptyElement
      head := nextIndex q.head
      size := q.size-1
      size_le := (Nat.sub_le _ _).trans q.size_le
      next_tail := by
        have hpos : 1+(q.size-1)=q.size := by
          have hne : q.size≠0 := fun he => h (decide_eq_true he)
          omega
        rw [nextIndex_eq_slot,q.next_tail,slot_slot,hpos]})

/-- `QueueGetFirst`: starts an iteration at the head of a nonempty queue. -/
def Queue.queueGetFirst (q : Queue) : Byte × Queue :=
  if q.queueIsEmpty=true then (queueEmptyElement,q)
  else (q.array q.head,{q with iterator := 0})

/-- `QueueGetNext`: the element after the iterator, or the empty element at
the end. -/
def Queue.queueGetNext (q : Queue) : Byte × Queue :=
  if h : q.iterator+1 ≥ q.size then (queueEmptyElement,q)
  else
    let index := wrapped q.head (q.iterator+1) (by have := q.size_le; omega)
    (q.array index,{q with iterator := q.iterator+1})

@[simp] theorem queueCreate_toList : queueCreate.toList=[] := rfl

@[simp] theorem length_toList (q : Queue) : q.toList.length=q.size := length_contents _ _ _

theorem queueIsFull_iff (q : Queue) : q.queueIsFull=true ↔ q.toList.length=queueCapacity := by
  rw [length_toList,Queue.queueIsFull,decide_eq_true_eq]

theorem queueIsEmpty_iff (q : Queue) : q.queueIsEmpty=true ↔ q.toList=[] := by
  rw [←List.length_eq_zero_iff,length_toList,Queue.queueIsEmpty,decide_eq_true_eq]

/-- A full queue refuses the element and stays as it is. -/
theorem enqueue_of_full {q : Queue} (h : q.queueIsFull=true) (element : Byte) :
    q.enqueue element=(false,q) := by
  rw [Queue.enqueue,dif_pos h]

/-- Any other queue takes the element in at the end of its list. -/
theorem enqueue_toList {q : Queue} (h : q.queueIsFull=false) (element : Byte) :
    (q.enqueue element).1=true ∧ (q.enqueue element).2.toList=q.toList++[element] := by
  have hnot : ¬q.queueIsFull=true := by simp [h]
  have hlt : q.size < queueCapacity := by
    have hle := q.size_le
    have hne : q.size≠queueCapacity := fun he => hnot (decide_eq_true he)
    omega
  rw [Queue.enqueue,dif_neg hnot]
  refine ⟨rfl,?_⟩
  simp only [Queue.toList,nextIndex_eq_slot,q.next_tail]
  exact contents_push q.array q.head hlt element

/-- An empty queue has nothing to give and stays as it is. -/
theorem dequeue_of_empty {q : Queue} (h : q.queueIsEmpty=true) :
    q.dequeue=(queueEmptyElement,q) := by
  rw [Queue.dequeue,dif_pos h]

/-- Any other queue gives the head of its list and keeps the rest. -/
theorem dequeue_toList {q : Queue} (h : q.queueIsEmpty=false) :
    q.toList=q.dequeue.1::q.dequeue.2.toList := by
  have hnot : ¬q.queueIsEmpty=true := by simp [h]
  have hpos : q.size=q.size-1+1 := by
    have hne : q.size≠0 := fun he => hnot (decide_eq_true he)
    omega
  have hlt : q.size-1 < queueCapacity := by
    have := q.size_le
    omega
  rw [Queue.dequeue,dif_neg hnot]
  simp only [Queue.toList,nextIndex_eq_slot,contents_clear q.array q.head hlt]
  conv_lhs => rw [hpos,contents_succ]

/-- Starting an iteration does not touch the elements. -/
@[simp] theorem queueGetFirst_toList (q : Queue) : q.queueGetFirst.2.toList=q.toList := by
  unfold Queue.queueGetFirst
  split <;> rfl

/-- Iterating does not touch the elements. -/
@[simp] theorem queueGetNext_toList (q : Queue) : q.queueGetNext.2.toList=q.toList := by
  unfold Queue.queueGetNext
  split <;> rfl

/-- The first element of a nonempty queue, with the iterator at it. -/
theorem queueGetFirst_spec {q : Queue} (h : 0 < q.size) :
    q.toList[0]?=some q.queueGetFirst.1 ∧ q.queueGetFirst.2.iterator=0 := by
  have hnot : ¬q.queueIsEmpty=true := by
    rw [Queue.queueIsEmpty,decide_eq_true_eq]
    omega
  rw [Queue.queueGetFirst,if_neg hnot,Queue.toList,getElem?_contents _ _ h,slot_zero]
  exact ⟨rfl,rfl⟩

/-- The iteration visits one element after the other. -/
theorem queueGetNext_spec {q : Queue} (h : q.iterator+1 < q.size) :
    q.toList[q.iterator+1]?=some q.queueGetNext.1 ∧
      q.queueGetNext.2.iterator=q.iterator+1 := by
  rw [Queue.queueGetNext,dif_neg (by omega),Queue.toList,getElem?_contents _ _ h,wrapped_eq_slot]
  exact ⟨rfl,rfl⟩

/-- Past the last element the iteration gives the empty element. -/
theorem queueGetNext_end {q : Queue} (h : q.size ≤ q.iterator+1) :
    q.queueGetNext=(queueEmptyElement,q) := by
  rw [Queue.queueGetNext,dif_pos h]

end NetworkLayer.ArrayQueue
