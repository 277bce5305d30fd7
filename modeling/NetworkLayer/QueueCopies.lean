import NetworkLayer.CursorLoops
import NetworkLayer.QueueRuns

/-!
# Copying a queue

The traversal of a queue ends at the empty element, which a queue without
empty elements gives only past its last one. The copy enqueues every visited
element into a new queue, whose head and tail are its own; it has room for
all of them, those of a full queue included.
-/

namespace NetworkLayer.QueueRuns

open ByteStrings CircularCells CursorLoops ArrayQueue StepRuns

/-- An element goes on with the loop unless it is the empty element. -/
def present (element : Byte) : Option Byte :=
  if element=queueEmptyElement then none else some element

/-- The step of `QUEUE_FOR_EACH` over the first of two queues. -/
def getNextOfFirst (r : Queue × Queue) : Option Byte × Queue × Queue :=
  (present r.1.queueGetNext.1,r.1.queueGetNext.2,r.2)

/-- `QueueCopy`: the copy and the queue afterwards. -/
def queueCopy (fuel : ℕ) (q : Queue) : Option (Queue × Queue) :=
  (cursorLoop getNextOfFirst (fun item r => (r.1,(r.2.enqueue item).2)) fuel
    (present q.queueGetFirst.1) (q.queueGetFirst.2,queueCreate)).map fun r => (r.2.2,r.2.1)

/-- Part of the list is copied, the iterator is on the first element of the
rest. -/
structure Copying (items rest : List Byte) (r : Queue × Queue) : Prop where
  /-- The queue is as it was. -/
  original : r.1.toList=items
  /-- The copy and the rest make up the list. -/
  split : r.2.toList++rest=items
  /-- The iterator is as far as the copy. -/
  iterator : rest≠[] → r.1.iterator=r.2.toList.length

/-- A queue's elements other than the empty one are visited. -/
theorem present_of_ne {element : Byte} (h : element≠queueEmptyElement) :
    present element=some element := if_neg h

/-- One round copies one element. -/
theorem Copying.step {items rest : List Byte} {item : Byte} {r : Queue × Queue}
    (hitems : ∀ b∈items,b≠queueEmptyElement) (h : Copying items (item::rest) r) :
    (getNextOfFirst (r.1,(r.2.enqueue item).2)).1=rest.head? ∧
      Copying items rest (getNextOfFirst (r.1,(r.2.enqueue item).2)).2 := by
  have hiterator := h.iterator (List.cons_ne_nil _ _)
  have hsize : r.1.size=r.2.toList.length+(rest.length+1) := by
    rw [←length_toList,h.original,←h.split,List.length_append,List.length_cons]
  have hroom : r.2.queueIsFull=false := by
    have hle := r.1.size_le
    rw [←Bool.not_eq_true,queueIsFull_iff]
    omega
  have hcopied : (r.2.enqueue item).2.toList=r.2.toList++[item] := (enqueue_toList hroom item).2
  have hsplit : (r.2.enqueue item).2.toList++rest=items := by
    rw [hcopied,List.append_assoc,List.singleton_append,h.split]
  have hkept : r.1.queueGetNext.2.toList=items := (queueGetNext_toList _).trans h.original
  cases rest with
  | nil =>
    rw [List.length_nil] at hsize
    have hend := queueGetNext_end (q:=r.1) (by omega)
    refine ⟨?_,hkept,hsplit,fun hne => absurd rfl hne⟩
    rw [getNextOfFirst,hend]
    rfl
  | cons b rest =>
    rw [List.length_cons] at hsize
    obtain ⟨hnext,hcursor⟩ := queueGetNext_spec (q:=r.1) (by omega)
    have helement : r.1.toList[r.1.iterator+1]?=some b := by
      rw [h.original,←hsplit,hcopied,hiterator,List.getElem?_append_right (by simp)]
      simp
    have hb : r.1.queueGetNext.1=b := Option.some.inj (hnext.symm.trans helement)
    have hne : b≠queueEmptyElement := hitems b (by rw [←hsplit]; simp)
    refine ⟨?_,hkept,hsplit,fun _ => ?_⟩
    · rw [getNextOfFirst,hb,present_of_ne hne,List.head?_cons]
    · rw [getNextOfFirst,hcopied,List.length_append,List.length_singleton]
      exact hcursor.trans (by rw [hiterator])

/-- The loop starts with nothing copied. -/
theorem copying_start {q : Queue} (h : ∀ b∈q.toList,b≠queueEmptyElement) :
    present q.queueGetFirst.1=q.toList.head? ∧
      Copying q.toList q.toList (q.queueGetFirst.2,queueCreate) := by
  have hkept := queueGetFirst_toList q
  by_cases hempty : q.queueIsEmpty=true
  · have hnil := (queueIsEmpty_iff q).mp hempty
    have hfirst : q.queueGetFirst=(queueEmptyElement,q) := by
      rw [Queue.queueGetFirst,if_pos hempty]
    refine ⟨?_,hkept,rfl,fun hne => absurd hnil hne⟩
    rw [hfirst,hnil]
    rfl
  · have hne : q.toList≠[] := fun hnil => hempty ((queueIsEmpty_iff q).mpr hnil)
    have hpos : 0 < q.size := by
      rw [←length_toList]
      exact List.length_pos_of_ne_nil hne
    obtain ⟨hfirst,hcursor⟩ := queueGetFirst_spec hpos
    have hmem := List.mem_of_getElem? hfirst
    refine ⟨?_,hkept,rfl,fun _ => hcursor⟩
    rw [present_of_ne (h _ hmem),List.head?_eq_getElem?,hfirst]

/-- A queue without empty elements is copied, and keeps its list. -/
theorem queueCopy_spec {q : Queue} (h : ∀ b∈q.toList,b≠queueEmptyElement) :
    ∃ copied after,(∀ fuel ≥ queueCapacity,queueCopy fuel q=some (copied,after)) ∧
      copied.toList=q.toList ∧ after.toList=q.toList := by
  obtain ⟨hfirst,hstart⟩ := copying_start h
  obtain ⟨last,hloop,hlast⟩ := cursorLoop_visits (P:=Copying q.toList)
    (fun item rest r hr => Copying.step h hr) hstart
  have hcopied := hlast.split
  rw [List.append_nil] at hcopied
  refine ⟨last.2,last.1,fun fuel hfuel => ?_,hcopied,hlast.original⟩
  have hsize : q.toList.length ≤ fuel := by
    rw [length_toList]
    exact q.size_le.trans hfuel
  rw [queueCopy,hfirst,hloop fuel hsize,Option.map_some]

/-- A call that puts an element in or takes one out. -/
def QueueCall.Alters : QueueCall → Prop
  | .enqueue _ => True
  | .dequeue => True
  | _ => False

/-- Queues of one list answer alike until one of them is iterated over. -/
theorem outputs_of_toList_eq {q q' : Queue} (h : q.toList=q'.toList) {calls : List QueueCall}
    (hcalls : ∀ call∈calls,call.Alters) :
    outputs queueAnswer queueStep q calls=outputs queueAnswer queueStep q' calls := by
  induction calls generalizing q q' with
  | nil => rfl
  | cons call rest ih =>
    have hq : Represents q ⟨q.toList,q.iterator⟩ := ⟨rfl,rfl⟩
    have hq' : Represents q' ⟨q.toList,q'.iterator⟩ := ⟨h.symm,rfl⟩
    have hrest : ∀ call∈rest,call.Alters :=
      fun other hother => hcalls other (List.mem_cons_of_mem _ hother)
    have hanswer : queueAnswer q call=queueAnswer q' call := by
      have hcall := hcalls call List.mem_cons_self
      rw [hq.answer call,hq'.answer call]
      cases call with
      | enqueue element => rfl
      | dequeue => rfl
      | queueGetFirst => exact hcall.elim
      | queueGetNext => exact hcall.elim
    have hlists : (queueStep q call).toList=(queueStep q' call).toList := by
      have hcall := hcalls call List.mem_cons_self
      rw [(hq.step call).items,(hq'.step call).items]
      cases call with
      | enqueue element =>
        simp only [listStep]
        split <;> rfl
      | dequeue => rfl
      | queueGetFirst => exact hcall.elim
      | queueGetNext => exact hcall.elim
    rw [outputs,outputs,hanswer,ih hlists hrest]

/-- Whatever calls led to a queue, `QueueCopy` returns a queue of the same
elements and leaves the list of the copied one alone, when none of them is
the empty element: the two give the same elements ever after. -/
theorem queueCopy_copies (calls : List QueueCall)
    (h : ∀ b∈(run queueStep queueCreate calls).toList,b≠queueEmptyElement) :
    let q := run queueStep queueCreate calls
    ∃ copied after,(∀ fuel ≥ queueCapacity,queueCopy fuel q=some (copied,after)) ∧
      (copied.toList=q.toList ∧ after.toList=q.toList) ∧
      ∀ later : List QueueCall,(∀ call∈later,call.Alters) →
        outputs queueAnswer queueStep copied later=outputs queueAnswer queueStep after later := by
  obtain ⟨copied,after,hcopy,hcopied,hafter⟩ := queueCopy_spec h
  exact ⟨copied,after,hcopy,⟨hcopied,hafter⟩,
    fun _ hlater => outputs_of_toList_eq (hcopied.trans hafter.symm) hlater⟩

theorem enqueue_head (q : Queue) (element : Byte) : (q.enqueue element).2.head=q.head := by
  unfold Queue.enqueue
  split <;> rfl

/-- A byte goes into a queue and comes out again, so many times. -/
def passings (n : ℕ) : List QueueCall := (List.replicate n [.enqueue 65,.dequeue]).flatten

/-- An empty queue is empty again after that, and its head has moved on. -/
theorem run_passings {q : Queue} (hempty : q.toList=[]) (n : ℕ) :
    (run queueStep q (passings n)).toList=[] ∧
      (run queueStep q (passings n)).head=slot q.head n := by
  induction n generalizing q with
  | zero => exact ⟨hempty,(slot_zero _).symm⟩
  | succ n ih =>
    have hroom : q.queueIsFull=false := by
      rw [Bool.eq_false_iff,Ne,queueIsFull_iff,hempty]
      exact fun h => absurd h (by decide)
    have hone : (q.enqueue 65).2.toList=[65] := by rw [(enqueue_toList hroom 65).2,hempty]; rfl
    have hfilled : (q.enqueue 65).2.queueIsEmpty=false := by
      rw [Bool.eq_false_iff,Ne,queueIsEmpty_iff,hone]
      exact List.cons_ne_nil _ _
    have hgone := dequeue_toList hfilled
    rw [hone] at hgone
    have hhead : (q.enqueue 65).2.dequeue.2.head=slot q.head 1 := by
      rw [Queue.dequeue,dif_neg (Bool.eq_false_iff.mp hfilled)]
      simp only [nextIndex_eq_slot,enqueue_head]
    obtain ⟨hlist,hmoved⟩ := ih (List.cons.inj hgone).2.symm
    refine ⟨hlist,hmoved.trans ?_⟩
    rw [hhead,slot_slot,Nat.add_comm]

/-- A queue of three bytes somewhere in the array. -/
theorem run_three (n : ℕ) :
    let q := run queueStep queueCreate (passings n++[.enqueue 66,.enqueue 67,.enqueue 68])
    q.toList=[66,67,68] ∧ q.head=slot queueCreate.head n := by
  obtain ⟨hlist,hhead⟩ := run_passings queueCreate_toList n
  rw [run_append]
  generalize run queueStep queueCreate (passings n)=q at hlist hhead
  have hroom : ∀ {q : Queue},q.toList.length < 3 → q.queueIsFull=false := by
    intro q hshort
    rw [Bool.eq_false_iff,Ne,queueIsFull_iff]
    exact fun hfull => absurd (hfull.symm.trans_lt hshort) (by decide)
  have hfirst := (enqueue_toList (hroom (q:=q) (by rw [hlist]; decide)) 66).2
  rw [hlist,List.nil_append] at hfirst
  have hsecond := (enqueue_toList (hroom (by rw [hfirst]; decide)) 67).2
  rw [hfirst,List.singleton_append] at hsecond
  have hthird := (enqueue_toList (hroom (by rw [hsecond]; decide)) 68).2
  rw [hsecond] at hthird
  refine ⟨hthird,?_⟩
  simp only [run_cons,run_nil,queueStep,enqueue_head,hhead]

/-- A copy of a queue of three bytes that goes around the end of the array. -/
theorem queueCopy_copies_moved :
    let calls := passings 8191++[.enqueue 66,.enqueue 67,.enqueue 68]
    let q := run queueStep queueCreate calls
    q.toList=[66,67,68] ∧ q.head=slot queueCreate.head 8191 ∧ ∃ copied after,
      (∀ fuel ≥ queueCapacity,queueCopy fuel q=some (copied,after)) ∧
      (copied.toList=q.toList ∧ after.toList=q.toList) ∧
      ∀ later : List QueueCall,(∀ call∈later,call.Alters) →
        outputs queueAnswer queueStep copied later=
          outputs queueAnswer queueStep after later := by
  obtain ⟨hlist,hhead⟩ := run_three 8191
  refine ⟨hlist,hhead,queueCopy_copies _ ?_⟩
  rw [hlist]
  decide +kernel

end NetworkLayer.QueueRuns
