import NetworkLayer.ArrayQueue
import NetworkLayer.StepRuns

/-!
# The array queue is a bounded list

Every sequence of calls on a new queue answers as a list of at most the
capacity does, with a cursor for the iteration. Calls that refuse change
nothing, and an iteration visits the list element by element, also while
bytes are enqueued behind it.
-/

namespace NetworkLayer.QueueRuns

open ByteStrings CircularCells ArrayQueue StepRuns

/-- One call on a queue. -/
inductive QueueCall
  /-- `enqueue`. -/
  | enqueue (element : Byte)
  /-- `dequeue`. -/
  | dequeue
  /-- `QueueGetFirst`. -/
  | queueGetFirst
  /-- `QueueGetNext`. -/
  | queueGetNext

/-- What a call returns. -/
inductive QueueAnswer
  | flag (result : Bool)
  | element (element : Byte)

/-- What the queue answers to a call. -/
def queueAnswer (q : Queue) : QueueCall → QueueAnswer
  | .enqueue element => .flag (q.enqueue element).1
  | .dequeue => .element q.dequeue.1
  | .queueGetFirst => .element q.queueGetFirst.1
  | .queueGetNext => .element q.queueGetNext.1

/-- The queue after a call. -/
def queueStep (q : Queue) : QueueCall → Queue
  | .enqueue element => (q.enqueue element).2
  | .dequeue => q.dequeue.2
  | .queueGetFirst => q.queueGetFirst.2
  | .queueGetNext => q.queueGetNext.2

/-- A list with the place an iteration has reached. -/
structure Listing where
  /-- The elements, first in first. -/
  items : List Byte
  /-- The place of the iteration. -/
  cursor : ℕ

/-- What the list answers to a call. -/
def listAnswer (l : Listing) : QueueCall → QueueAnswer
  | .enqueue _ => .flag (decide (l.items.length≠queueCapacity))
  | .dequeue => .element (l.items.headD queueEmptyElement)
  | .queueGetFirst => .element (l.items.headD queueEmptyElement)
  | .queueGetNext => .element (l.items.getD (l.cursor+1) queueEmptyElement)

/-- The list after a call. -/
def listStep (l : Listing) : QueueCall → Listing
  | .enqueue element =>
    if l.items.length=queueCapacity then l else {l with items := l.items++[element]}
  | .dequeue => {l with items := l.items.tail}
  | .queueGetFirst => if l.items=[] then l else {l with cursor := 0}
  | .queueGetNext =>
    if l.cursor+1 < l.items.length then {l with cursor := l.cursor+1} else l

/-- The queue stands for the listing. -/
structure Represents (q : Queue) (l : Listing) : Prop where
  /-- The elements agree. -/
  items : q.toList=l.items
  /-- So do the places. -/
  cursor : q.iterator=l.cursor

/-- A call that refuses: exactly on a full queue, or on an empty one, and it
leaves the queue as it is. -/
def Refuses (q : Queue) : QueueCall → Prop
  | .enqueue element => ((q.enqueue element).1=false ↔ q.size=queueCapacity) ∧
      ((q.enqueue element).1=false → (q.enqueue element).2=q)
  | .dequeue => q.dequeue=(queueEmptyElement,q) ↔ q.size=0
  | _ => True

/-- Neither of these touches the iteration. -/
theorem enqueue_iterator (q : Queue) (element : Byte) :
    (q.enqueue element).2.iterator=q.iterator := by
  unfold Queue.enqueue
  split <;> rfl

theorem dequeue_iterator (q : Queue) : q.dequeue.2.iterator=q.iterator := by
  unfold Queue.dequeue
  split <;> rfl

/-- A queue is full, or empty, as its list is. -/
theorem Represents.full_iff {q : Queue} {l : Listing} (h : Represents q l) :
    q.queueIsFull=true ↔ l.items.length=queueCapacity := by
  rw [queueIsFull_iff,h.items]

theorem Represents.empty_iff {q : Queue} {l : Listing} (h : Represents q l) :
    q.queueIsEmpty=true ↔ l.items=[] := by
  rw [queueIsEmpty_iff,h.items]

/-- `enqueue` is the list's. -/
theorem Represents.enqueue {q : Queue} {l : Listing} (h : Represents q l) (element : Byte) :
    queueAnswer q (.enqueue element)=listAnswer l (.enqueue element) ∧
      Represents (queueStep q (.enqueue element)) (listStep l (.enqueue element)) := by
  have hiterator := enqueue_iterator q element
  simp only [queueAnswer,listAnswer,queueStep,listStep]
  by_cases hfull : l.items.length=queueCapacity
  · rw [enqueue_of_full (h.full_iff.mpr hfull),if_pos hfull]
    exact ⟨by simp [hfull],h⟩
  · have hroom : q.queueIsFull=false := by
      rw [←Bool.not_eq_true,h.full_iff]
      exact hfull
    obtain ⟨htrue,hlist⟩ := enqueue_toList hroom element
    rw [if_neg hfull,htrue]
    exact ⟨by simp [hfull],by rw [hlist,h.items],hiterator.trans h.cursor⟩

/-- `dequeue` is the list's. -/
theorem Represents.dequeue {q : Queue} {l : Listing} (h : Represents q l) :
    queueAnswer q .dequeue=listAnswer l .dequeue ∧
      Represents (queueStep q .dequeue) (listStep l .dequeue) := by
  have hiterator := dequeue_iterator q
  simp only [queueAnswer,listAnswer,queueStep,listStep]
  by_cases hempty : q.queueIsEmpty=true
  · have hnil := h.empty_iff.mp hempty
    rw [dequeue_of_empty hempty,hnil]
    exact ⟨rfl,by rw [h.items,hnil]; rfl,h.cursor⟩
  · have hlist := dequeue_toList (q:=q) (by simpa using hempty)
    rw [←h.items,hlist]
    exact ⟨rfl,rfl,hiterator.trans h.cursor⟩

/-- `QueueGetFirst` is the list's. -/
theorem Represents.queueGetFirst {q : Queue} {l : Listing} (h : Represents q l) :
    queueAnswer q .queueGetFirst=listAnswer l .queueGetFirst ∧
      Represents (queueStep q .queueGetFirst) (listStep l .queueGetFirst) := by
  have hitems := queueGetFirst_toList q
  simp only [queueAnswer,listAnswer,queueStep,listStep]
  by_cases hempty : q.queueIsEmpty=true
  · have hnil := h.empty_iff.mp hempty
    have hsame : q.queueGetFirst=(queueEmptyElement,q) := by
      rw [Queue.queueGetFirst,if_pos hempty]
    rw [hsame,if_pos hnil,hnil]
    exact ⟨rfl,h⟩
  · have hne : l.items≠[] := fun hnil => hempty (h.empty_iff.mpr hnil)
    have hpos : 0 < q.size := by
      rw [←length_toList,h.items]
      exact List.length_pos_of_ne_nil hne
    obtain ⟨hfirst,hcursor⟩ := queueGetFirst_spec hpos
    rw [if_neg hne]
    refine ⟨?_,hitems.trans h.items,hcursor⟩
    rw [h.items] at hfirst
    cases hlist : l.items with
    | nil => exact absurd hlist hne
    | cons b rest =>
      rw [hlist,List.getElem?_cons_zero,Option.some.injEq] at hfirst
      rw [List.headD_cons,hfirst]

/-- `QueueGetNext` is the list's. -/
theorem Represents.queueGetNext {q : Queue} {l : Listing} (h : Represents q l) :
    queueAnswer q .queueGetNext=listAnswer l .queueGetNext ∧
      Represents (queueStep q .queueGetNext) (listStep l .queueGetNext) := by
  have hitems := queueGetNext_toList q
  have hsize : q.size=l.items.length := by rw [←length_toList,h.items]
  simp only [queueAnswer,listAnswer,queueStep,listStep,←h.cursor,←hsize]
  by_cases hmore : q.iterator+1 < q.size
  · obtain ⟨hnext,hcursor⟩ := queueGetNext_spec hmore
    rw [h.items] at hnext
    rw [if_pos hmore,List.getD_eq_getElem?_getD,hnext]
    exact ⟨rfl,hitems.trans h.items,hcursor⟩
  · have hpast : l.items[q.iterator+1]?=none := List.getElem?_eq_none (by omega)
    rw [queueGetNext_end (by omega),if_neg hmore,List.getD_eq_getElem?_getD,hpast]
    exact ⟨rfl,h⟩

/-- One call keeps the queue in step with the list. -/
theorem Represents.step {q : Queue} {l : Listing} (h : Represents q l) (call : QueueCall) :
    Represents (queueStep q call) (listStep l call) := by
  cases call with
  | enqueue element => exact (h.enqueue element).2
  | dequeue => exact h.dequeue.2
  | queueGetFirst => exact h.queueGetFirst.2
  | queueGetNext => exact h.queueGetNext.2

/-- Both answer alike. -/
theorem Represents.answer {q : Queue} {l : Listing} (h : Represents q l) (call : QueueCall) :
    queueAnswer q call=listAnswer l call := by
  cases call with
  | enqueue element => exact (h.enqueue element).1
  | dequeue => exact h.dequeue.1
  | queueGetFirst => exact h.queueGetFirst.1
  | queueGetNext => exact h.queueGetNext.1

/-- Every queue refuses so. -/
theorem refuses (q : Queue) (call : QueueCall) : Refuses q call := by
  cases call with
  | queueGetFirst => trivial
  | queueGetNext => trivial
  | enqueue element =>
    simp only [Refuses]
    by_cases hfull : q.queueIsFull=true
    · rw [enqueue_of_full hfull]
      exact ⟨iff_of_true rfl (of_decide_eq_true hfull),fun _ => rfl⟩
    · have htrue := (enqueue_toList (by simpa using hfull) element).1
      rw [htrue]
      refine ⟨iff_of_false (by decide) ?_,fun h => absurd h (by decide)⟩
      exact fun hsize => hfull (decide_eq_true hsize)
  | dequeue =>
    simp only [Refuses]
    constructor
    · intro hsame
      by_contra hne
      have hempty : q.queueIsEmpty=false := by simpa [Queue.queueIsEmpty] using hne
      have hlength := congrArg List.length (dequeue_toList hempty)
      simp only [hsame,List.length_cons] at hlength
      omega
    · exact fun hsize => dequeue_of_empty (decide_eq_true hsize)

/-- The call belongs to one iteration: it enqueues or asks for the next
element. -/
def QueueCall.Iterates : QueueCall → Prop
  | .enqueue _ => True
  | .queueGetNext => True
  | _ => False

/-- The answers of the `QueueGetNext` calls, each with the size of the queue
at that call. -/
def nexts : Queue → List QueueCall → List (ℕ × Byte)
  | _,[] => []
  | q,.queueGetNext::rest => (q.size,q.queueGetNext.1)::nexts q.queueGetNext.2 rest
  | q,call::rest => nexts (queueStep q call) rest

/-- During an iteration the list only grows at its end. -/
theorem prefix_of_iterates {q : Queue} {calls : List QueueCall}
    (h : ∀ call∈calls,call.Iterates) : q.toList<+:(run queueStep q calls).toList := by
  induction calls generalizing q with
  | nil => exact List.prefix_rfl
  | cons call rest ih =>
    have hrest := ih (q:=queueStep q call) fun other hother =>
      h other (List.mem_cons_of_mem _ hother)
    refine List.IsPrefix.trans ?_ hrest
    have hcall := h call List.mem_cons_self
    cases call with
    | dequeue => exact hcall.elim
    | queueGetFirst => exact hcall.elim
    | queueGetNext =>
      rw [queueStep,queueGetNext_toList]
    | enqueue element =>
      rw [queueStep]
      by_cases hfull : q.queueIsFull=true
      · rw [enqueue_of_full hfull]
      · rw [(enqueue_toList (by simpa using hfull) element).2]
        exact List.prefix_append _ _

/-- From a place on, the calls that come before the end is reached get one
element after the other. -/
theorem nexts_spec {q : Queue} {calls : List QueueCall} (h : ∀ call∈calls,call.Iterates) {k : ℕ}
    (hbelow : ∀ j ≤ k,∀ answer,(nexts q calls)[j]?=some answer → q.iterator+j+1 < answer.1)
    {answer : ℕ × Byte} (hk : (nexts q calls)[k]?=some answer) :
    (run queueStep q calls).toList[q.iterator+k+1]?=some answer.2 := by
  induction calls generalizing q k with
  | nil => cases hk
  | cons call rest ih =>
    have hrest : ∀ call∈rest,call.Iterates :=
      fun other hother => h other (List.mem_cons_of_mem _ hother)
    have hcall := h call List.mem_cons_self
    cases call with
    | dequeue => exact hcall.elim
    | queueGetFirst => exact hcall.elim
    | enqueue element =>
      have hiterator := enqueue_iterator q element
      have hnext := ih (q:=queueStep q (.enqueue element)) (k:=k) hrest
      simp only [queueStep,hiterator] at hnext
      exact hnext hbelow hk
    | queueGetNext =>
      have hmore : q.iterator+1 < q.size := hbelow 0 (Nat.zero_le _) _ rfl
      obtain ⟨hnext,hcursor⟩ := queueGetNext_spec hmore
      cases k with
      | zero =>
        obtain rfl : (q.size,q.queueGetNext.1)=answer := Option.some.inj hk
        have hlist : (queueStep q .queueGetNext).toList=q.toList := queueGetNext_toList q
        have hprefix := prefix_of_iterates (q:=queueStep q .queueGetNext) hrest
        rw [hlist] at hprefix
        have hlt := (List.getElem?_eq_some_iff.mp hnext).1
        obtain ⟨more,hsplit⟩ := hprefix
        rw [run_cons,←hsplit,Nat.add_zero,List.getElem?_append_left hlt]
        exact hnext
      | succ k =>
        have hstep := ih (q:=queueStep q .queueGetNext) (k:=k) hrest
        simp only [queueStep,hcursor] at hstep
        rw [run_cons,show q.iterator+(k+1)+1=q.iterator+1+k+1 by omega]
        refine hstep ?_ hk
        intro j hj other hother
        have hbound := hbelow (j+1) (by omega) other hother
        omega

/-- Every sequence of calls on a new queue answers as the bounded list does,
whose length is the size. Refusals change nothing. An iteration started on a
nonempty queue visits the elements in order: as long as the calls so far came
before the end of the list, call number `k` gets element `k`. All places are
in the array. -/
theorem queue_is_bounded_list (calls : List QueueCall) :
    let q := run queueStep queueCreate calls
    let l := run listStep ⟨[],0⟩ calls
    outputs queueAnswer queueStep queueCreate calls=outputs listAnswer listStep ⟨[],0⟩ calls ∧
      (q.toList=l.items ∧ q.size=l.items.length ∧ l.items.length ≤ queueCapacity) ∧
      EachStep queueStep Refuses queueCreate calls ∧
      (0 < q.size → q.toList[0]?=some q.queueGetFirst.1 ∧
        ∀ more,(∀ call∈more,call.Iterates) → ∀ k,
          (∀ j ≤ k,∀ answer,(nexts q.queueGetFirst.2 more)[j]?=some answer → j+1 < answer.1) →
          ∀ answer,(nexts q.queueGetFirst.2 more)[k]?=some answer →
            (run queueStep q.queueGetFirst.2 more).toList[k+1]?=some answer.2) ∧
      q.head.val < queueCapacity ∧ q.tail.val < queueCapacity ∧
      ∀ i < q.size,q.head.val+i-queueCapacity < queueCapacity := by
  have hempty : Represents queueCreate ⟨[],0⟩ := ⟨rfl,rfl⟩
  have hstep : ∀ q l call,Represents q l → Represents (queueStep q call) (listStep l call) :=
    fun _ _ call h => h.step call
  have hrun := run_related hstep hempty calls
  intro q l
  have hsize : q.size=l.items.length := by rw [←length_toList,hrun.items]
  refine ⟨?_,⟨hrun.items,hsize,by rw [←hsize]; exact q.size_le⟩,?_,?_,q.head.isLt,q.tail.isLt,?_⟩
  · exact outputs_eq_of_simulation hstep (fun _ _ call h => h.answer call) hempty calls
  · exact eachStep_of_invariant (P:=fun _ => True) (fun _ _ _ => trivial)
      (fun q call _ => refuses q call) trivial calls
  · intro hpos
    obtain ⟨hfirst,hcursor⟩ := queueGetFirst_spec hpos
    refine ⟨hfirst,?_⟩
    intro more hmore k hbelow answer hk
    have hspec := nexts_spec (q:=q.queueGetFirst.2) (k:=k) hmore
    simp only [hcursor,Nat.zero_add] at hspec
    exact hspec hbelow hk
  · intro i hi
    have hhead := q.head.isLt
    have hle := q.size_le
    omega

end NetworkLayer.QueueRuns
