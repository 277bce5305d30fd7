import NetworkLayer.CursorLoops
import NetworkLayer.Hashmap

/-!
# Iterating over the socket table

The cursor lies in the table. The first function sets it on the first
occupied slot, the next function moves it on, and both leave it where it is
when they find nothing. A loop whose body writes to the sockets and at most
removes the one it is at visits every identity present at its start once, in
slot order.
-/

namespace NetworkLayer.Hashmap

open ByteStrings CursorLoops SlotTables UtilTypes

variable {σ : Type*}

namespace HashMap

/-- `hashMapGetFirst`: the first stored identity, with the cursor on it. -/
def hashMapGetFirst (m : HashMap) : Option SocketID × HashMap :=
  match firstIndex fun i => (m.socketId i).isSome with
  | some i => (m.socketId i,{m with iteratorIndex := i.val})
  | none => (none,m)

/-- `hashMapGetNext`: the next stored identity after the cursor. -/
def hashMapGetNext (m : HashMap) : Option SocketID × HashMap :=
  if m.iteratorIndex ≥ hashMapDefaultSize then (none,m)
  else
    let m := {m with iteratorIndex := m.iteratorIndex+1}
    match firstIndex fun i => m.iteratorIndex ≤ (i.val : ℤ) && (m.socketId i).isSome with
    | some i => (m.socketId i,{m with iteratorIndex := i.val})
    | none => (none,m)

/-- The step of a loop over the table that carries more state along. -/
def getNextWith (r : HashMap × σ) : Option SocketID × HashMap × σ :=
  (r.1.hashMapGetNext.1,r.1.hashMapGetNext.2,r.2)

/-- `HASH_MAP_FOREACH`: the identities visited, the table and the rest of the
state where the loop ends. -/
def hashMapForeach (body : SocketID → HashMap × σ → HashMap × σ) (fuel : ℕ) (m : HashMap)
    (s : σ) : Option (List SocketID × HashMap × σ) :=
  cursorLoop getNextWith body fuel m.hashMapGetFirst.1 (m.hashMapGetFirst.2,s)

/-- The cursor is on the first of the identities still to visit, and the
others come behind it. -/
def CursorAt (m : HashMap) : List SocketID → Prop
  | [] => True
  | key::rest => ∃ i : Fin hashMapDefaultSize,m.iteratorIndex=i.val ∧ m.socketId i=some key ∧
      entriesFrom m.socketId (i.val+1)=rest

/-- The first function puts the cursor on the first identity. -/
theorem hashMapGetFirst_spec (m : HashMap) :
    m.hashMapGetFirst.1=(entriesFrom m.socketId 0).head? ∧
      m.hashMapGetFirst.2.CursorAt (entriesFrom m.socketId 0) := by
  have htest : (fun i : Fin hashMapDefaultSize => (m.socketId i).isSome)=
      fun i => decide (0 ≤ i.val) && (m.socketId i).isSome := by
    funext i
    rw [decide_eq_true (Nat.zero_le _),Bool.true_and]
  unfold hashMapGetFirst
  rw [htest]
  split
  · next i hi =>
    have hfound := firstIndex_spec hi
    rw [Bool.and_eq_true] at hfound
    obtain ⟨key,hkey⟩ := Option.isSome_iff_exists.mp hfound.2
    rw [entriesFrom_eq_cons hi hkey]
    exact ⟨hkey,i,rfl,hkey,rfl⟩
  · next hnone =>
    rw [entriesFrom_eq_nil hnone]
    exact ⟨rfl,trivial⟩

/-- The next function moves it to the next identity. -/
theorem hashMapGetNext_spec {m : HashMap} {i : Fin hashMapDefaultSize}
    (h : m.iteratorIndex=i.val) :
    m.hashMapGetNext.1=(entriesFrom m.socketId (i.val+1)).head? ∧
      m.hashMapGetNext.2.CursorAt (entriesFrom m.socketId (i.val+1)) := by
  have hinside : ¬m.iteratorIndex ≥ hashMapDefaultSize := by
    have hlt := i.isLt
    rw [h]
    omega
  have htest : (fun j : Fin hashMapDefaultSize =>
      decide (m.iteratorIndex+1 ≤ (j.val : ℤ)) && (m.socketId j).isSome)=
      fun j => decide (i.val+1 ≤ j.val) && (m.socketId j).isSome := by
    funext j
    rw [h,decide_eq_decide.mpr (by omega : ((i.val : ℤ)+1 ≤ j.val ↔ i.val+1 ≤ j.val))]
  unfold hashMapGetNext
  rw [if_neg hinside]
  simp only [htest]
  split
  · next j hj =>
    have hfound := firstIndex_spec hj
    rw [Bool.and_eq_true] at hfound
    obtain ⟨key,hkey⟩ := Option.isSome_iff_exists.mp hfound.2
    rw [entriesFrom_eq_cons hj hkey]
    exact ⟨hkey,j,rfl,hkey,rfl⟩
  · next hnone =>
    rw [entriesFrom_eq_nil hnone]
    exact ⟨rfl,trivial⟩

/-- A removal of the identity in a slot does not show behind that slot, and
does not move the cursor. -/
theorem hashmapRemove_behind {m : HashMap} {key : SocketID} {i : Fin hashMapDefaultSize}
    (h : m.socketId i=some key) :
    (∀ j,i < j → (m.hashmapRemove key).2.socketId j=m.socketId j) ∧
      (m.hashmapRemove key).2.iteratorIndex=m.iteratorIndex := by
  obtain ⟨socket,hsocket,hid⟩ := Option.map_eq_some_iff.mp ((m.socketId_eq i).symm.trans h)
  unfold hashmapRemove
  split
  · exact ⟨fun _ _ => rfl,rfl⟩
  · next k hk =>
    have hle : k ≤ i := by
      refine firstIndex_le hk ?_
      rw [hsocket,Option.any_some,compareKeys_iff,hid]
    split
    · refine ⟨fun j hj => ?_,rfl⟩
      exact Function.update_of_ne (hle.trans_lt hj).ne' _ _
    · exact ⟨fun _ _ => rfl,rfl⟩

/-- The identities present, in slot order. -/
def storedIds (m : HashMap) : List SocketID := entriesFrom m.socketId 0

/-- A table whose sockets were written to through pointers, with their
identities as they were. -/
structure SocketsWritten (m after : HashMap) : Prop where
  /-- The identities. -/
  socketId : after.socketId=m.socketId
  /-- The cursor. -/
  iteratorIndex : after.iteratorIndex=m.iteratorIndex

theorem SocketsWritten.refl (m : HashMap) : m.SocketsWritten m := ⟨rfl,rfl⟩

/-- All that a body does to the table at an identity: it writes to sockets, and
removes the visited one or not. -/
def Visited (key : SocketID) (m after : HashMap) : Prop :=
  ∃ first second,m.SocketsWritten first ∧
    (second=first ∨ second=(first.hashmapRemove key).2) ∧ second.SocketsWritten after

/-- Behind the visited slot this does not show. -/
theorem Visited.behind {m after : HashMap} {key : SocketID} (h : Visited key m after)
    {i : Fin hashMapDefaultSize} (hkey : m.socketId i=some key) :
    (∀ j,i < j → after.socketId j=m.socketId j) ∧ after.iteratorIndex=m.iteratorIndex := by
  obtain ⟨first,second,hfirst,hremoves,hafter⟩ := h
  have hsecond : (∀ j,i < j → second.socketId j=first.socketId j) ∧
      second.iteratorIndex=first.iteratorIndex := by
    rcases hremoves with rfl|rfl
    · exact ⟨fun _ _ => rfl,rfl⟩
    · exact hashmapRemove_behind (by rw [hfirst.socketId,hkey])
  refine ⟨fun j hj => ?_,?_⟩
  · rw [hafter.socketId,hsecond.1 j hj,hfirst.socketId]
  · rw [hafter.iteratorIndex,hsecond.2,hfirst.iteratorIndex]

/-- A loop whose body writes to sockets and at most removes the visited one
ends and visits the stored identities in slot order. -/
theorem hashMapForeach_visits {body : SocketID → HashMap × σ → HashMap × σ}
    (hbody : ∀ key r,Visited key r.1 (body key r).1) (m : HashMap) (s : σ) :
    ∃ last,∀ fuel ≥ hashMapDefaultSize,hashMapForeach body fuel m s=some (m.storedIds,last) := by
  obtain ⟨hfirst,hat⟩ := hashMapGetFirst_spec m
  have hstep : ∀ key rest (r : HashMap × σ),r.1.CursorAt (key::rest) →
      (body key r).1.hashMapGetNext.1=rest.head? ∧
        (body key r).1.hashMapGetNext.2.CursorAt rest := by
    rintro key rest r ⟨i,hcursor,hkey,hrest⟩
    obtain ⟨hbehind,hkept⟩ := (hbody key r).behind hkey
    have hentries : entriesFrom (body key r).1.socketId (i.val+1)=rest := by
      rw [←hrest]
      exact entriesFrom_congr fun j hj => hbehind j hj
    rw [←hentries]
    exact hashMapGetNext_spec (hkept.trans hcursor)
  have hcount : m.storedIds.length ≤ hashMapDefaultSize := by
    refine (List.length_filterMap_le _ _).trans ?_
    rw [List.length_finRange]
  have hvisits : ∃ last,(∀ fuel ≥ m.storedIds.length,cursorLoop getNextWith body fuel
      m.storedIds.head? (m.hashMapGetFirst.2,s)=some (m.storedIds,last)) ∧ last.1.CursorAt [] :=
    cursorLoop_visits (P:=fun rest (r : HashMap × σ) => r.1.CursorAt rest) hstep hat
  obtain ⟨last,hloop,_⟩ := hvisits
  refine ⟨last,fun fuel hfuel => ?_⟩
  rw [hashMapForeach,hfirst]
  exact hloop fuel (hcount.trans hfuel)

/-- The stored identities are those of the sockets in the table. -/
theorem mem_storedIds {m : HashMap} {key : SocketID} :
    key∈m.storedIds ↔ ∃ i socket,m.table i=some socket ∧ socket.id=key := by
  simp only [storedIds,entriesFrom,List.mem_filterMap,List.mem_finRange,true_and,Nat.zero_le,
    if_true,m.socketId_eq,Option.map_eq_some_iff]

/-- With unique keys no identity is stored twice. -/
theorem KeysUnique.nodup_storedIds {m : HashMap} (hu : m.KeysUnique) : m.storedIds.Nodup := by
  refine (List.nodup_finRange _).filterMap fun i j key hi hj => ?_
  simp only [Nat.zero_le,if_true,m.socketId_eq,Option.mem_def,Option.map_eq_some_iff] at hi hj
  obtain ⟨first,hfirst,rfl⟩ := hi
  obtain ⟨second,hsecond,hid⟩ := hj
  have hfound := (hu.indexOf_eq_some_iff).mpr ⟨first,hfirst,rfl⟩
  have hfound' := (hu.indexOf_eq_some_iff).mpr ⟨second,hsecond,hid⟩
  exact Option.some.inj (hfound.symm.trans hfound')

/-- Wherever the cursor was left before and whatever the body writes to the
sockets, the loop ends after at most as many rounds as there are slots, and
visits the identity of every stored socket exactly once, in slot order, and no
other. -/
theorem foreach_visits_once {m : HashMap} (hu : m.KeysUnique)
    {body : SocketID → HashMap × σ → HashMap × σ}
    (hbody : ∀ key r,Visited key r.1 (body key r).1) (s : σ) :
    (∃ last,∀ fuel ≥ hashMapDefaultSize,
      hashMapForeach body fuel m s=some (m.storedIds,last)) ∧
    (∀ key,key∈m.storedIds ↔ ∃ i socket,m.table i=some socket ∧ socket.id=key) ∧
    m.storedIds.Nodup :=
  ⟨hashMapForeach_visits hbody m s,fun _ => mem_storedIds,hu.nodup_storedIds⟩

/-- A write to the socket with a key, if there is one. -/
def modifySocket (m : HashMap) (key : SocketID) (change : Socket → Socket) : HashMap :=
  match m.indexOf key with
  | none => m
  | some i => ((m.table i).map fun socket => m.setSocket i (change socket)).getD m

theorem modifySocket_written (m : HashMap) (key : SocketID) (change : Socket → Socket)
    (hid : ∀ socket,(change socket).id=socket.id) :
    m.SocketsWritten (m.modifySocket key change) := by
  unfold modifySocket
  split
  · exact SocketsWritten.refl m
  · next i _ =>
    cases hsocket : m.table i with
    | none => exact SocketsWritten.refl m
    | some socket =>
      have hsome : (m.table i).isSome=true := by rw [hsocket]; rfl
      have hstored : m.socketId i=some (change socket).id := by
        rw [m.socketId_eq,hsocket,Option.map_some,hid]
      simp only [Option.map_some,Option.getD_some,setSocket,hsome,dif_pos]
      exact ⟨Function.update_eq_self_iff.mpr hstored.symm,rfl⟩

/-- Three sockets. -/
def threePorts : HashMap :=
  let portSocket (port : ℤ) : Socket := createNewSocket 0 ⟨port,0,CString.empty,emptyIp⟩ .closed
  (((createHashMap.insertSocket (portSocket 7)).2.insertSocket (portSocket 8)).2.insertSocket
    (portSocket 9)).2

/-- A loop that removes the second of three sockets and changes the others. -/
theorem foreach_visits_once_removing :
    let body : SocketID → HashMap × List ℤ → HashMap × List ℤ := fun key r =>
      (if key.srcPort=8 then (r.1.hashmapRemove key).2
        else r.1.modifySocket key fun socket => {socket with state := .listen},
      r.2++[key.srcPort])
    threePorts.storedIds.map SocketID.srcPort=[7,8,9] ∧
      (∃ last,∀ fuel ≥ hashMapDefaultSize,
        hashMapForeach body fuel threePorts []=some (threePorts.storedIds,last)) ∧
      (∀ key,key∈threePorts.storedIds ↔ ∃ i socket,threePorts.table i=some socket ∧
        socket.id=key) ∧ threePorts.storedIds.Nodup := by
  intro body
  have hu : threePorts.KeysUnique := KeysUnique.insertSocket (KeysUnique.insertSocket
    (KeysUnique.insertSocket (m:=createHashMap) distinctKeys_empty _) _) _
  refine ⟨by decide +kernel,foreach_visits_once hu (fun key r => ?_) []⟩
  simp only [body]
  split
  · exact ⟨r.1,_,SocketsWritten.refl _,Or.inr rfl,SocketsWritten.refl _⟩
  · have hwritten := modifySocket_written r.1 key (fun socket => {socket with state := .listen})
      fun _ => rfl
    exact ⟨_,_,hwritten,Or.inl rfl,SocketsWritten.refl _⟩

end HashMap

end NetworkLayer.Hashmap
