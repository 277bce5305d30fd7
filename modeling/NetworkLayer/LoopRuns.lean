import NetworkLayer.StepRuns
import NetworkLayer.IterationPlace
import NetworkLayer.ManagerLoop

/-!
# Runs of the manager's loop

A round visits the slots that are occupied when its visits begin, in order, up
to the first visit that adds or removes an identity; no visit uses one after
it was freed. So the whole loop serves one request after another, each
addressed to a socket that is there, and an invariant of the requests is one
of the loop.
-/

namespace NetworkLayer.LoopRuns

open ByteStrings FormattedText UtilTypes Hashmap SlotTables FifoUtils FifoReads TcpPackets
open IpPackets PacketHandlers PacketDispatch PacketFraming SocketRequests TableMoves BindRequests
open ManagerLoop StepRuns IterationPlace

/-- A request about one socket names a socket that is there. -/
def Addressed (manager : NetworkManager) : Request → Prop
  | .listen _ sockId _ | .connect _ sockId _ | .endFifo _ sockId _
  | .sendWindow _ sockId | .statusMessages _ sockId =>
    ∃ i,manager.sockets.socketId i=some sockId
  | _ => True

variable (libc : Libc)

/-- The packets that leave the manager while it serves requests. -/
def sentIn (manager : NetworkManager) (requests : List Request) : List (TCPPacket × CString) :=
  (outputs (fun manager request => (serve libc manager request).sent) (managerStep libc) manager
    requests).flatten

/-- The bytes that it writes to its users meanwhile. -/
def toUserIn (manager : NetworkManager) (requests : List Request) : List Byte :=
  (outputs (fun manager request => (serve libc manager request).toUser) (managerStep libc) manager
    requests).flatten

/-- From one point of the loop to another, requests are served one after
another; where the iteration is differs. -/
structure Serves (start done : Served) (requests : List Request) : Prop where
  /-- The manager. -/
  manager : ∃ cursor,done.manager=
    atCursor cursor (run (managerStep libc) start.manager requests)
  /-- The packets sent. -/
  sent : done.sent=start.sent++sentIn libc start.manager requests
  /-- The bytes written to users. -/
  toUser : done.toUser=start.toUser++toUserIn libc start.manager requests
  /-- Every request about a socket is about one that is there. -/
  addressed : EachStep (managerStep libc) Addressed start.manager requests

variable {libc} {start done : Served} {requests : List Request}

/-- No requests. -/
theorem Serves.refl (libc : Libc) (start : Served) : Serves libc start start [] where
  manager := ⟨start.manager.sockets.iteratorIndex,rfl⟩
  sent := (List.append_nil _).symm
  toUser := (List.append_nil _).symm
  addressed := trivial

/-- The iteration may go on. -/
theorem Serves.atCursor (h : Serves libc start done requests) (cursor : ℤ) :
    Serves libc start (servedAtCursor cursor done) requests := by
  obtain ⟨_,hmanager⟩ := h.manager
  refine ⟨⟨cursor,?_⟩,h.sent,h.toUser,h.addressed⟩
  rw [servedAtCursor,hmanager]
  rfl

/-- The value that is returned plays no part. -/
theorem Serves.withResult (h : Serves libc start done requests) (result : ℤ) :
    Serves libc start {done with result := result} requests :=
  ⟨h.manager,h.sent,h.toUser,h.addressed⟩

/-- One more request. -/
theorem Serves.snoc (h : Serves libc start done requests) {request : Request}
    (ha : Addressed done.manager request) :
    Serves libc start (after done (serve libc done.manager request)) (requests++[request]) := by
  obtain ⟨cursor,hmanager⟩ := h.manager
  have hserved : serve libc done.manager request=servedAtCursor cursor
      (serve libc (run (managerStep libc) start.manager requests) request) := by
    rw [hmanager,serve_atCursor]
  constructor
  · refine ⟨cursor,?_⟩
    rw [after,hserved,run_append]
    rfl
  · rw [after,hserved,sentIn,outputs_append,List.flatten_append,←List.append_assoc,h.sent,sentIn]
    simp only [outputs,List.flatten_cons,List.flatten_nil,List.append_nil]
    rfl
  · rw [after,hserved,toUserIn,outputs_append,List.flatten_append,←List.append_assoc,h.toUser,
      toUserIn]
    simp only [outputs,List.flatten_cons,List.flatten_nil,List.append_nil]
    rfl
  · refine h.addressed.append ⟨?_,trivial⟩
    rw [hmanager] at ha
    cases request <;> exact ha

/-- The clients do something to the files and one more request is served. -/
theorem Serves.serveAt (h : Serves libc start done requests) (moment : Moment) {request : Request}
    (ha : Addressed done.manager request) :
    Serves libc start (serveAt libc moment done request)
      (requests++[.clients (moment.clients done.manager.files)]++[request]) := by
  have hclients : Addressed done.manager (.clients (moment.clients done.manager.files)) := trivial
  have hrequest : Addressed (after done (serve libc done.manager
      (.clients (moment.clients done.manager.files)))).manager request := by
    cases request <;> exact ha
  have hboth := (h.snoc hclients).snoc hrequest
  have hsent : ∀ l : List (TCPPacket × CString),done.sent++[]++l=done.sent++l := by simp
  have htoUser : ∀ l : List Byte,done.toUser++[]++l=done.toUser++l := by simp
  simpa only [ManagerLoop.serveAt,after,serve,returned,hsent,htoUser] using hboth

/-- A call that only returns, after the clients did something to the files. -/
theorem Serves.returned (h : Serves libc start done requests) (result : ℤ) (files : Files) :
    Serves libc start (after done (returned result {done.manager with files := files}))
      (requests++[.clients files]) :=
  have hclients : Addressed done.manager (.clients files) := trivial
  (h.snoc hclients).withResult result

/-- The packets among requests. -/
def packetsOf (requests : List Request) : List IPPacket :=
  requests.filterMap fun
    | .packet _ packet => some packet
    | _ => none

/-- From one point of the loop to another, requests are served, among them
these packets in order. -/
def Handles (libc : Libc) (start done : Served) (packets : List IPPacket) : Prop :=
  ∃ requests,Serves libc start done requests ∧ packetsOf requests=packets

section Handles

variable {packets : List IPPacket}

theorem Handles.refl (libc : Libc) (start : Served) : Handles libc start start [] :=
  ⟨[],Serves.refl libc start,rfl⟩

theorem Handles.atCursor (h : Handles libc start done packets) (cursor : ℤ) :
    Handles libc start (servedAtCursor cursor done) packets := by
  obtain ⟨requests,hserves,hpackets⟩ := h
  exact ⟨requests,hserves.atCursor cursor,hpackets⟩

theorem Handles.withResult (h : Handles libc start done packets) (result : ℤ) :
    Handles libc start {done with result := result} packets := by
  obtain ⟨requests,hserves,hpackets⟩ := h
  exact ⟨requests,hserves.withResult result,hpackets⟩

theorem Handles.serveAt (h : Handles libc start done packets) (moment : Moment)
    {request : Request} (ha : Addressed done.manager request) :
    Handles libc start (serveAt libc moment done request) (packets++packetsOf [request]) := by
  obtain ⟨requests,hserves,rfl⟩ := h
  refine ⟨_,hserves.serveAt moment ha,?_⟩
  rw [packetsOf,List.filterMap_append,List.filterMap_append,List.append_assoc]
  rfl

theorem Handles.returned (h : Handles libc start done packets) (result : ℤ) (files : Files) :
    Handles libc start (after done (returned result {done.manager with files := files}))
      packets := by
  obtain ⟨requests,hserves,rfl⟩ := h
  refine ⟨_,hserves.returned result files,?_⟩
  rw [packetsOf,List.filterMap_append]
  exact List.append_nil _

end Handles

/-- The requests of a visit to a socket. -/
def OfVisit : Request → Prop
  | .bind _ _ | .packet _ _ => False
  | _ => True

theorem packetsOf_ofVisit {request : Request} (h : OfVisit request) : packetsOf [request]=[] := by
  cases request with
  | bind env request => exact h.elim
  | packet env packet => exact h.elim
  | _ => rfl

/-- The slots that are occupied stay so, and no others are. -/
def SameSlots (first second : NetworkManager) : Prop :=
  ∀ i,(second.sockets.table i).isSome=(first.sockets.table i).isSome

/-- A write to a socket changes no slot's occupation. -/
theorem isSome_update {table : Slots} {i : Fin hashMapDefaultSize} {socket : Socket}
    (hi : table i=some socket) (socket' : Socket) (j : Fin hashMapDefaultSize) :
    (Function.update table i (some socket') j).isSome=(table j).isSome := by
  by_cases hj : j=i
  · rw [hj,Function.update_self,hi]
    rfl
  · rw [Function.update_of_ne hj]

/-- The look at a closed socket breaks the iteration or returns 0. -/
theorem checkAndHandleClosedSocket_result (env : Env) (manager : NetworkManager)
    (socket : Socket) :
    (checkAndHandleClosedSocket env manager socket).result=breakIteration ∨
      (checkAndHandleClosedSocket env manager socket).result=0 := by
  unfold checkAndHandleClosedSocket
  split
  · exact Or.inl rfl
  · exact Or.inr rfl

/-- So does everything that a visit asks for. -/
theorem serve_result (libc : Libc) (manager : NetworkManager) {request : Request}
    (h : OfVisit request) :
    (serve libc manager request).result=breakIteration ∨
      (serve libc manager request).result=0 := by
  cases request with
  | bind env request => exact h.elim
  | packet env packet => exact h.elim
  | clients files => exact Or.inr rfl
  | listen env sockId request =>
    simp only [serve,checkAndHandleListenRequest]
    split
    · split <;> exact Or.inr rfl
    · exact Or.inr rfl
  | connect env sockId request =>
    rcases checkAndHandleConnectRequest_cases libc env manager sockId request with
      he|⟨i,s,k,dstIp,dstPort,_,_,_,_,hbreak,_⟩
    · exact Or.inr (by rw [serve,he]; rfl)
    · exact Or.inl hbreak
  | endFifo env sockId command =>
    simp only [serve,checkAndHandleSocketEndFifo]
    split
    · exact Or.inr rfl
    · split <;> exact checkAndHandleClosedSocket_result _ _ _
  | sendWindow env sockId =>
    simp only [serve,servePass]
    split <;> exact Or.inr rfl
  | statusMessages env sockId =>
    simp only [serve,servePass]
    split <;> exact Or.inr rfl

/-- A removal breaks the iteration. -/
theorem result_of_removedSlot (libc : Libc) {manager : NetworkManager} {request : Request}
    {i : Fin hashMapDefaultSize} (h : removedSlot manager request=some i) :
    (serve libc manager request).result=breakIteration := by
  rcases request with _|_|_|_|⟨env,sockId,_|_⟩|_|_|_
  case endFifo.false =>
    obtain ⟨⟨k,socket⟩,hpointer,hold⟩ := Option.bind_eq_some_iff.mp h
    simp only [Option.ite_none_right_eq_some] at hold
    simp only [serve,checkAndHandleSocketEndFifo,hpointer,Bool.false_eq_true,if_false,
      checkAndHandleClosedSocket,if_pos hold.1,returned]
  all_goals cases h

/-- So does a move under another key. -/
theorem result_of_movedSlot {libc : Libc} {manager : NetworkManager} {request : Request}
    {i : Fin hashMapDefaultSize} (h : movedSlot libc manager request=some i) :
    (serve libc manager request).result=breakIteration := by
  cases request with
  | connect env sockId request =>
    simp only [movedSlot,Option.ite_none_right_eq_some] at h
    exact h.1
  | _ => cases h

/-- Unless the iteration must break, a visit leaves the same slots occupied. -/
theorem serve_sameSlots (libc : Libc) (manager : NetworkManager) {request : Request}
    (h : OfVisit request) (hresult : (serve libc manager request).result=0) :
    SameSlots manager (serve libc manager request).manager := by
  have hnobreak : (serve libc manager request).result≠breakIteration := by
    rw [hresult]
    decide
  intro i
  have hmove := serve_move libc manager request
  rw [managerStep] at hmove
  generalize (serve libc manager request).manager.sockets.table=table at hmove ⊢
  cases hmove with
  | same => rfl
  | written _ _ _ k s s' hs => exact isSome_update hs s' i
  | bound => exact h.elim
  | accepted => exact h.elim
  | connected env sockId request k j s dstIp dstPort hpointer hclosed hmoved =>
    exact absurd (result_of_movedSlot hmoved) hnobreak
  | removed _ k s hremoved => exact absurd (result_of_removedSlot libc hremoved) hnobreak

/-- In the middle of a visit that began with a manager: requests were served,
no packets since the visit began, and the iteration must break or the same
slots are occupied. -/
structure Visiting (libc : Libc) (start : Served) (before : NetworkManager)
    (packets : List IPPacket) (done : Served) : Prop where
  /-- What was served since the start. -/
  served : Handles libc start done packets
  /-- Whether the iteration must break. -/
  goesOn : done.result=breakIteration ∨ done.result=0 ∧ SameSlots before done.manager

section Visits

variable {before : NetworkManager} {packets : List IPPacket} {i : Fin hashMapDefaultSize}

/-- A stage of the visit to an occupied slot finds an identity to work on. -/
theorem stage_spec (h : Visiting libc start before packets done)
    (hi : (before.sockets.table i).isSome=true) (moment : Moment)
    (request : SocketID → Request) (hvisit : ∀ sockId,OfVisit (request sockId))
    (haddressed : ∀ manager sockId,manager.sockets.socketId i=some sockId →
      Addressed manager (request sockId)) :
    ∃ next,stage libc i moment request done=some next ∧
      Visiting libc start before packets next := by
  unfold stage
  by_cases hresult : done.result=0
  · rw [if_neg (by simpa using hresult)]
    have hsame : SameSlots before done.manager := by
      rcases h.goesOn with hbreak|⟨_,hsame⟩
      · rw [hresult] at hbreak
        cases hbreak
      · exact hsame
    have hstored : (done.manager.sockets.socketId i).isSome=true := by
      rw [done.manager.sockets.socketId_eq,Option.isSome_map,hsame,hi]
    obtain ⟨sockId,hsockId⟩ := Option.isSome_iff_exists.mp hstored
    rw [hsockId,Option.map_some]
    have hserved := h.served.serveAt moment (haddressed _ _ hsockId)
    rw [packetsOf_ofVisit (hvisit sockId),List.append_nil] at hserved
    refine ⟨_,rfl,hserved,?_⟩
    rcases serve_result libc {done.manager with files := moment.clients done.manager.files}
      (hvisit sockId) with hbreak|hzero
    · exact Or.inl hbreak
    · refine Or.inr ⟨hzero,fun k => ?_⟩
      have hkept := serve_sameSlots libc _ (hvisit sockId) hzero k
      exact hkept.trans (hsame k)
  · rw [if_pos hresult]
    exact ⟨done,rfl,h⟩

/-- The visit to an occupied slot uses no identity after it was freed. -/
theorem handleSocketInNetwork_spec (hserves : Handles libc start done packets)
    (hi : (done.manager.sockets.table i).isSome=true) (visit : Visit) :
    ∃ next,handleSocketInNetwork libc visit i done=some next ∧
      Visiting libc start done.manager packets next := by
  have hstored : (done.manager.sockets.socketId i).isSome=true := by
    rw [done.manager.sockets.socketId_eq,Option.isSome_map,hi]
  obtain ⟨sockId,hsockId⟩ := Option.isSome_iff_exists.mp hstored
  have hbegins : Visiting libc start done.manager packets {done with result := 0} :=
    ⟨hserves.withResult 0,Or.inr ⟨rfl,fun _ => rfl⟩⟩
  have hrequested : ∃ next,
      handleBoundSocket libc visit i sockId {done with result := 0}=some next ∧
        Visiting libc start done.manager packets next := by
    unfold handleBoundSocket
    split
    · obtain ⟨listened,hlistened,hvisiting⟩ := stage_spec hbegins hi visit.listen
        (fun id => .listen visit.listen.env id visit.listenRequest) (fun _ => trivial)
        (fun _ _ hid => ⟨i,hid⟩)
      obtain ⟨next,hnext,hvisiting⟩ := stage_spec hvisiting hi visit.connect
        (fun id => .connect visit.connect.env id visit.connectRequest) (fun _ => trivial)
        (fun _ _ hid => ⟨i,hid⟩)
      exact ⟨next,by rw [hlistened]; exact hnext,hvisiting⟩
    · exact ⟨_,rfl,hbegins⟩
  obtain ⟨requested,hsome,hvisiting⟩ := hrequested
  obtain ⟨ended,hended,hvisiting⟩ := stage_spec hvisiting hi visit.endFifo
    (fun id => .endFifo visit.endFifo.env id visit.command) (fun _ => trivial)
    (fun _ _ hid => ⟨i,hid⟩)
  obtain ⟨resent,hresent,hvisiting⟩ := stage_spec hvisiting hi visit.sendWindow
    (fun id => .sendWindow visit.sendWindow.env id) (fun _ => trivial) (fun _ _ hid => ⟨i,hid⟩)
  obtain ⟨next,hnext,hvisiting⟩ := stage_spec hvisiting hi visit.statusMessages
    (fun id => .statusMessages visit.statusMessages.env id) (fun _ => trivial)
    (fun _ _ hid => ⟨i,hid⟩)
  refine ⟨next,?_,hvisiting⟩
  simp only [handleSocketInNetwork,hsockId,Option.bind_eq_bind,Option.bind_some]
  rw [hsome,Option.bind_some,hended,Option.bind_some,hresent,Option.bind_some,hnext]

end Visits

/-- Where the iteration is does not matter to a stage. -/
theorem stage_atCursor (cursor : ℤ) (i : Fin hashMapDefaultSize) (moment : Moment)
    (request : SocketID → Request) (done : Served) :
    stage libc i moment request (servedAtCursor cursor done)=
      (stage libc i moment request done).map (servedAtCursor cursor) := by
  have hserved : ∀ sockId,serveAt libc moment (servedAtCursor cursor done) (request sockId)=
      servedAtCursor cursor (serveAt libc moment done (request sockId)) := by
    intro sockId
    rw [serveAt,serveAt]
    exact congrArg (after done) (serve_atCursor cursor libc
      {done.manager with files := moment.clients done.manager.files} (request sockId))
  unfold stage
  simp only [hserved]
  change (if done.result≠0 then _ else (done.manager.sockets.socketId i).map _)=_
  split
  · rfl
  · rw [Option.map_map]
    rfl

/-- Nor to stages after others. -/
theorem bind_atCursor {cursor : ℤ} {stages : Served → Option Served}
    (h : ∀ done,stages (servedAtCursor cursor done)=(stages done).map (servedAtCursor cursor))
    (before : Option Served) :
    (before.map (servedAtCursor cursor)).bind stages=
      (before.bind stages).map (servedAtCursor cursor) := by
  cases before with
  | none => rfl
  | some done => exact h done

/-- Nor to a visit. -/
theorem handleSocketInNetwork_atCursor (cursor : ℤ) (visit : Visit) (i : Fin hashMapDefaultSize)
    (done : Served) :
    handleSocketInNetwork libc visit i (servedAtCursor cursor done)=
      (handleSocketInNetwork libc visit i done).map (servedAtCursor cursor) := by
  have hbound : ∀ sockId done,handleBoundSocket libc visit i sockId (servedAtCursor cursor done)=
      (handleBoundSocket libc visit i sockId done).map (servedAtCursor cursor) := by
    intro sockId done
    unfold handleBoundSocket
    split
    · rw [stage_atCursor]
      exact bind_atCursor (stage_atCursor cursor i _ _) _
    · rfl
  have hsocketId : (servedAtCursor cursor done).manager.sockets.socketId=
      done.manager.sockets.socketId := rfl
  have hbegins : {servedAtCursor cursor done with result := 0}=
      servedAtCursor cursor {done with result := 0} := rfl
  simp only [handleSocketInNetwork,Option.bind_eq_bind,hsocketId,hbegins]
  cases done.manager.sockets.socketId i with
  | none => rfl
  | some sockId =>
    rw [Option.bind_some,Option.bind_some,hbound]
    refine bind_atCursor (fun requested => ?_) _
    rw [stage_atCursor]
    refine bind_atCursor (fun ended => ?_) _
    rw [stage_atCursor]
    exact bind_atCursor (stage_atCursor cursor i _ _) _

/-- The occupied slots from one on, in order. -/
def occupiedSlots (m : HashMap) (k : ℕ) : List (Fin hashMapDefaultSize) :=
  entriesFrom (fun i => (m.table i).map fun _ => i) k

/-- A plain walk over slots that ends with the first visit that breaks. -/
def visitInOrder (libc : Libc) (visits : Fin hashMapDefaultSize → Visit) :
    List (Fin hashMapDefaultSize) → Served → Option (List (Fin hashMapDefaultSize) × Served)
  | [],done => some ([],{done with result := 0})
  | i::rest,done => do
    let visited ← handleSocketInNetwork libc (visits i) i done
    if visited.result=breakIteration then some ([i],{visited with result := 0})
    else
      let (slots,last) ← visitInOrder libc visits rest visited
      return (i::slots,last)

/-- An answer of the iteration that leads through slots. -/
def LeadsThrough (answer : Option SocketID × HashMap) (m : HashMap)
    (slots : List (Fin hashMapDefaultSize)) : Prop :=
  ∃ cursor,answer.2=onCursor cursor m ∧ (answer.1.isSome=true ↔ slots≠[]) ∧
    ∀ i rest,slots=i::rest → cursor=i.val ∧ rest=occupiedSlots m (i.val+1) ∧
      (m.table i).isSome=true

/-- The search of the iteration leads through the occupied slots from one on. -/
theorem search_leads (m : HashMap) (k : ℕ) (stay : ℤ) :
    LeadsThrough (match firstIndex fun j => decide (k ≤ j.val) && (m.socketId j).isSome with
      | some i => (m.socketId i,onCursor i.val m)
      | none => (none,onCursor stay m)) m (occupiedSlots m k) := by
  have htest : (fun j : Fin hashMapDefaultSize => decide (k ≤ j.val) && (m.socketId j).isSome)=
      fun j => decide (k ≤ j.val) && ((m.table j).map fun _ => j).isSome := by
    funext j
    rw [m.socketId_eq,Option.isSome_map,Option.isSome_map]
  rw [htest]
  split
  · next i hi =>
    have hfound := firstIndex_spec hi
    rw [Bool.and_eq_true,Option.isSome_map] at hfound
    obtain ⟨socket,hsocket⟩ := Option.isSome_iff_exists.mp hfound.2
    have hslots : occupiedSlots m k=i::occupiedSlots m (i.val+1) :=
      entriesFrom_eq_cons hi (by rw [hsocket,Option.map_some])
    refine ⟨i.val,rfl,?_,?_⟩
    · rw [m.socketId_eq,Option.isSome_map,hslots]
      exact iff_of_true hfound.2 (List.cons_ne_nil _ _)
    · intro j rest hj
      rw [hslots] at hj
      cases hj
      exact ⟨rfl,rfl,hfound.2⟩
  · next hnone =>
    have hslots : occupiedSlots m k=[] := entriesFrom_eq_nil hnone
    rw [hslots]
    refine ⟨stay,rfl,by simp,?_⟩
    intro j rest hj
    cases hj

/-- The first function leads through all occupied slots. -/
theorem hashMapGetFirst_leads (m : HashMap) :
    LeadsThrough m.hashMapGetFirst m (occupiedSlots m 0) := by
  have htest : (fun i : Fin hashMapDefaultSize => (m.socketId i).isSome)=
      fun i => decide (0 ≤ i.val) && (m.socketId i).isSome := by
    funext i
    rw [decide_eq_true (Nat.zero_le _),Bool.true_and]
  unfold HashMap.hashMapGetFirst
  rw [htest]
  exact search_leads m 0 m.iteratorIndex

/-- The next function leads through those behind the cursor. -/
theorem hashMapGetNext_leads {m : HashMap} {i : Fin hashMapDefaultSize}
    (h : m.iteratorIndex=i.val) :
    LeadsThrough m.hashMapGetNext m (occupiedSlots m (i.val+1)) := by
  have hinside : ¬m.iteratorIndex ≥ hashMapDefaultSize := by
    have hlt := i.isLt
    rw [h]
    omega
  have htest : (fun j : Fin hashMapDefaultSize =>
      decide (m.iteratorIndex+1 ≤ (j.val : ℤ)) && (m.socketId j).isSome)=
      fun j => decide (i.val+1 ≤ j.val) && (m.socketId j).isSome := by
    funext j
    rw [h,decide_eq_decide.mpr (by omega : ((i.val : ℤ)+1 ≤ j.val ↔ i.val+1 ≤ j.val))]
  unfold HashMap.hashMapGetNext
  rw [if_neg hinside]
  simp only [htest]
  exact search_leads m (i.val+1) (m.iteratorIndex+1)

/-- Tables with the same slots occupied. -/
theorem occupiedSlots_congr {first second : NetworkManager} (h : SameSlots first second) (k : ℕ) :
    occupiedSlots second.sockets k=occupiedSlots first.sockets k := by
  refine entriesFrom_congr fun i _ => ?_
  have hi := h i
  cases hfirst : first.sockets.table i <;> cases hsecond : second.sockets.table i <;>
    simp [hfirst,hsecond] at hi ⊢

/-- From an answer that leads through slots, the loop over the table is a
plain walk over these. -/
theorem visitLoop_eq (visits : Fin hashMapDefaultSize → Visit)
    {slots : List (Fin hashMapDefaultSize)} {done : Served} {rounds : ℕ}
    (hrounds : slots.length ≤ rounds) {answer : Option SocketID × HashMap}
    (hleads : LeadsThrough answer done.manager.sockets slots) :
    ∃ cursor,visitLoop libc visits rounds answer.1 (withSockets done answer.2)=
      (visitInOrder libc visits slots done).map fun r => (r.1,servedAtCursor cursor r.2) := by
  induction slots generalizing done rounds answer with
  | nil =>
    obtain ⟨cursor,htable,hnone,_⟩ := hleads
    have hends : answer.1=none := by simpa using hnone
    refine ⟨cursor,?_⟩
    rw [hends,htable,visitLoop,visitInOrder]
    rfl
  | cons i rest ih =>
    obtain ⟨cursor,htable,hsome,hslot⟩ := hleads
    obtain ⟨hcursor,hrest,hstored⟩ := hslot i rest rfl
    obtain ⟨sockId,hsockId⟩ := Option.isSome_iff_exists.mp (hsome.mpr (List.cons_ne_nil _ _))
    cases rounds with
    | zero => exact absurd hrounds (Nat.not_succ_le_zero _)
    | succ rounds =>
      have hplace : withSockets done answer.2=servedAtCursor cursor done := by
        rw [htable]
        rfl
      have hfound : cursorSlot (servedAtCursor cursor done).manager.sockets=some i := by
        have hindex : (servedAtCursor cursor done).manager.sockets.iteratorIndex=i.val := hcursor
        have hlt := i.isLt
        unfold cursorSlot
        rw [dif_pos (by rw [hindex]; omega),Option.some.injEq]
        exact Fin.ext (by simp only [hindex,Int.toNat_natCast])
      obtain ⟨visited,hvisited,hvisiting⟩ :=
        handleSocketInNetwork_spec (Handles.refl libc done) hstored (visits i)
      rw [hsockId,hplace,visitLoop,hfound,visitInOrder]
      simp only [Option.bind_eq_bind,Option.bind_some,handleSocketInNetwork_atCursor,hvisited,
        Option.map_some]
      have hresult : (servedAtCursor cursor visited).result=visited.result := rfl
      rw [hresult]
      by_cases hbreak : visited.result=breakIteration
      · rw [if_pos hbreak,if_pos hbreak]
        exact ⟨cursor,rfl⟩
      · obtain ⟨hzero,hsame⟩ := hvisiting.goesOn.resolve_left hbreak
        rw [if_neg hbreak,if_neg hbreak,if_neg (by rw [hzero]; decide)]
        have hnext : LeadsThrough (onCursor cursor visited.manager.sockets).hashMapGetNext
            visited.manager.sockets rest := by
          rw [hrest,←occupiedSlots_congr hsame]
          exact hashMapGetNext_leads (m:=onCursor cursor visited.manager.sockets) hcursor
        obtain ⟨last,hloop⟩ := ih (Nat.le_of_succ_le_succ hrounds) hnext
        refine ⟨last,?_⟩
        have hsame : withSockets (servedAtCursor cursor visited)
            (onCursor cursor visited.manager.sockets).hashMapGetNext.2=
            withSockets visited (onCursor cursor visited.manager.sockets).hashMapGetNext.2 := rfl
        change (visitLoop libc visits rounds
          (onCursor cursor visited.manager.sockets).hashMapGetNext.1
          (withSockets (servedAtCursor cursor visited)
            (onCursor cursor visited.manager.sockets).hashMapGetNext.2)).bind _=_
        rw [hsame,hloop,Option.bind_map,Option.map_bind]
        rfl

/-- The last stage of a round, on every table and whatever the visits do to
it: a plain walk over the slots that are occupied at its start. -/
theorem visitSockets_eq (libc : Libc) (visits : Fin hashMapDefaultSize → Visit) (done : Served) :
    ∃ cursor,visitSockets libc visits done=
      (visitInOrder libc visits (occupiedSlots done.manager.sockets 0) done).map
        fun r => (r.1,servedAtCursor cursor r.2) := by
  refine visitLoop_eq visits ?_ (hashMapGetFirst_leads _)
  refine (List.length_filterMap_le _ _).trans ?_
  rw [List.length_finRange]

/-- A walk over occupied slots comes to its end and serves requests. -/
theorem visitInOrder_spec (visits : Fin hashMapDefaultSize → Visit)
    {slots : List (Fin hashMapDefaultSize)} {packets : List IPPacket}
    (hserves : Handles libc start done packets)
    (hslots : ∀ i∈slots,(done.manager.sockets.table i).isSome=true) :
    ∃ visited last,visitInOrder libc visits slots done=some (visited,last) ∧ visited<+:slots ∧
      last.result=0 ∧ Handles libc start last packets := by
  induction slots generalizing done with
  | nil => exact ⟨[],_,rfl,List.nil_prefix,rfl,hserves.withResult 0⟩
  | cons i rest ih =>
    obtain ⟨next,hnext,hvisiting⟩ :=
      handleSocketInNetwork_spec hserves (hslots i List.mem_cons_self) (visits i)
    rw [visitInOrder,hnext]
    by_cases hbreak : next.result=breakIteration
    · refine ⟨[i],_,if_pos hbreak,?_,rfl,hvisiting.served.withResult 0⟩
      exact List.prefix_append [i] rest
    · obtain ⟨hzero,hsame⟩ := hvisiting.goesOn.resolve_left hbreak
      obtain ⟨visited,last,hvisited,hinitial,hrest⟩ := ih hvisiting.served fun k hk => by
        rw [hsame k,hslots k (List.mem_cons_of_mem _ hk)]
      refine ⟨i::visited,last,?_,List.cons_prefix_cons.mpr ⟨rfl,hinitial⟩,hrest⟩
      simp only [Option.bind_eq_bind,Option.bind_some,if_neg hbreak,hvisited]
      rfl

/-- The slots from which the iteration starts are occupied. -/
theorem mem_occupiedSlots {m : HashMap} {i : Fin hashMapDefaultSize} :
    i∈occupiedSlots m 0 ↔ (m.table i).isSome=true := by
  simp only [occupiedSlots,entriesFrom,List.mem_filterMap,List.mem_finRange,true_and,Nat.zero_le,
    if_true,Option.map_eq_some_iff,Option.isSome_iff_exists]
  constructor
  · rintro ⟨k,socket,hsocket,rfl⟩
    exact ⟨socket,hsocket⟩
  · rintro ⟨socket,hsocket⟩
    exact ⟨i,socket,hsocket,rfl⟩

/-- For every table and whatever is found at each socket: the visits of a
round come to their end without using a freed identity, and they are those of
a plain walk over the slots that are occupied at their start, in order, cut
behind the first that breaks. -/
theorem visitSockets_in_order (libc : Libc) (visits : Fin hashMapDefaultSize → Visit)
    (done : Served) :
    ∃ visited last cursor,
      visitSockets libc visits done=some (visited,servedAtCursor cursor last) ∧
      visitInOrder libc visits (occupiedSlots done.manager.sockets 0) done=some (visited,last) ∧
      visited<+:occupiedSlots done.manager.sockets 0 ∧ last.result=0 ∧
      ∃ requests,Serves libc done last requests ∧ packetsOf requests=[] := by
  obtain ⟨visited,last,hvisited,hinitial,hresult,hserves⟩ := visitInOrder_spec visits
    (Handles.refl libc done) fun i hi => mem_occupiedSlots.mp hi
  obtain ⟨cursor,hvisits⟩ := visitSockets_eq libc visits done
  rw [hvisited] at hvisits
  exact ⟨visited,last,cursor,hvisits,hvisited,hinitial,hresult,hserves⟩

section Rounds

variable {packets : List IPPacket}

/-- The bind stage serves the request that it reads, if any. -/
theorem handleBindFifo_handles (h : Handles libc start done packets) (env : Env)
    (fifo : FifoContent) (bindRequest : ℕ → Byte) (files : Files) :
    Handles libc start (after done (handleBindFifo libc env
      {done.manager with files := files} fifo bindRequest).1) packets := by
  simp only [handleBindFifo]
  split
  · exact h.returned (-1) files
  · split
    · exact h.returned 0 files
    · have hserved : ∀ request,Handles libc start
          (serveAt libc ⟨fun _ => files,env⟩ done (.bind env request)) packets := by
        intro request
        have hbind : Addressed done.manager (.bind env request) := trivial
        have hboth := h.serveAt ⟨fun _ => files,env⟩ hbind
        rwa [packetsOf,List.filterMap_cons,List.filterMap_nil,List.append_nil] at hboth
      exact hserved _

/-- A packet is a request of its own. -/
theorem handleNext_handles (moments : ℕ → Moment) {s : Served × ℕ}
    (h : Handles libc start s.1 packets) (packet : IPPacket) :
    Handles libc start (handleNext libc moments s packet).2.1 (packets++[packet]) := by
  have hpacket : Addressed s.1.manager (.packet (moments s.2).env packet) := trivial
  exact h.serveAt (moments s.2) hpacket

/-- So are several. -/
theorem handleAll_handles (moments : ℕ → Moment) {s : Served × ℕ}
    (h : Handles libc start s.1 packets) (handled : List IPPacket) :
    Handles libc start (handleAll (handleNext libc moments) s handled).1 (packets++handled) := by
  induction handled generalizing s packets with
  | nil => rwa [List.append_nil]
  | cons packet rest ih =>
    have hrest := ih (handleNext_handles moments h packet)
    rwa [List.append_assoc] at hrest

/-- However the packets of a round are read, some are handed on. -/
theorem handleRounds_handleAll {σ : Type*} {handle : σ → IPPacket → Bool × σ}
    {schedule : Schedule} {fuel : ℕ} {fresh : ℕ → ℕ → Byte} {rounds : ℕ} {s last : σ}
    {inbox rest : Fifo}
    (h : handleRounds libc schedule fuel fresh handle rounds s inbox=some (last,rest)) :
    ∃ handled,last=handleAll handle s handled := by
  induction rounds generalizing s inbox with
  | zero =>
    obtain ⟨rfl,rfl⟩ := Prod.mk.inj (Option.some.inj h)
    exact ⟨[],rfl⟩
  | succ rounds ih =>
    rw [handleRounds] at h
    split at h
    · cases h
    · obtain ⟨rfl,rfl⟩ := Prod.mk.inj (Option.some.inj h)
      exact ⟨[],rfl⟩
    · next packet next _ =>
      split at h
      · obtain ⟨handled,rfl⟩ := ih h
        exact ⟨packet::handled,rfl⟩
      · obtain ⟨rfl,rfl⟩ := Prod.mk.inj (Option.some.inj h)
        exact ⟨[packet],rfl⟩

/-- The manager is told to stop. -/
def Told (round : Round) : Prop :=
  shouldTerminateManager round.terminateSchedule round.terminateFifo=true

/-- The manager when it looks at the bind fifo. -/
def atBind (round : Round) (done : Served) : NetworkManager :=
  {done.manager with files := round.bind.clients done.manager.files}

/-- The bind stage of a round fails. -/
def BindFails (libc : Libc) (done : Served) (round : Round) : Prop :=
  (handleBindFifo libc round.bind.env (atBind round done) round.bindFifo
    round.bindRequest).1.result≠0

/-- The message in the bind fifo fits the buffer for it. -/
def BindFits (round : Round) : Prop :=
  (readMessageUntilChar round.bindFifo round.bindRequest 0).stored ≤ maxBindRequestSize

/-- What a round can come to. -/
inductive RoundOutcome (libc : Libc) (start done : Served) (round : Round) : Loop → Prop
  /-- The manager is told to stop. -/
  | told (h : Told round) : RoundOutcome libc start done round (.stopped 0 done)
  /-- The bind stage fails. -/
  | bindFails (h : ¬Told round) (hfails : BindFails libc done round) {last : Served}
    {packets : List IPPacket} (hhandles : Handles libc start last packets) :
    RoundOutcome libc start done round (.stopped (-1) last)
  /-- A packet is not read to its end. -/
  | reading (h : ¬Told round) (hfails : ¬BindFails libc done round) :
    RoundOutcome libc start done round .reading
  /-- The round is over. -/
  | ended (h : ¬Told round) (hfails : ¬BindFails libc done round) {last : Served}
    {packets : List IPPacket} (hhandles : Handles libc start last packets) (rest : Fifo) :
    RoundOutcome libc start done round (.running last rest)

/-- How the packets of a round are read from what the bind stage left. -/
def roundPackets (libc : Libc) (round : Round) (done : Served) (inbox : Fifo) :
    Option ((Served × ℕ) × Fifo) :=
  handleInPacketsFifo libc round.schedule round.fuel round.fresh (handleNext libc round.packets)
    (after done (handleBindFifo libc round.bind.env (atBind round done) round.bindFifo
      round.bindRequest).1,0) inbox

/-- A round in which the manager is not told to stop and the bind stage does
not fail. -/
theorem managerRound_eq {round : Round} (htold : ¬Told round)
    (hfails : ¬BindFails libc done round) (inbox : Fifo) :
    managerRound libc round done inbox=
      match roundPackets libc round done inbox with
      | none => .reading
      | some (handled,rest) =>
        match visitSockets libc round.visits handled.1 with
        | none => .dangling
        | some visited =>
          if visited.2.result=-1 then .stopped (-1) visited.2 else .running visited.2 rest :=
  (if_neg htold).trans (if_neg hfails)

/-- A round whose packets are read is over after the visits. -/
theorem managerRound_over {round : Round} {inbox rest : Fifo} {handled : Served × ℕ}
    (htold : ¬Told round) (hfails : ¬BindFails libc done round)
    (hpackets : roundPackets libc round done inbox=some (handled,rest))
    (h : Handles libc start handled.1 packets) :
    ∃ last,managerRound libc round done inbox=.running last rest ∧
      Handles libc start last packets := by
  obtain ⟨visited,last,hvisited,-,hresult,hhandles⟩ :=
    visitInOrder_spec round.visits h fun i hi => mem_occupiedSlots.mp hi
  obtain ⟨cursor,hvisits⟩ := visitSockets_eq libc round.visits handled.1
  rw [hvisited,Option.map_some] at hvisits
  have hgood : ¬(servedAtCursor cursor last).result=-1 := by
    change ¬last.result=-1
    rw [hresult]
    decide
  refine ⟨_,?_,hhandles.atCursor cursor⟩
  rw [managerRound_eq htold hfails,hpackets]
  simp only [hvisits,if_neg hgood]

/-- Every round has one of these outcomes. -/
theorem managerRound_outcome (h : Handles libc start done packets) (round : Round)
    (inbox : Fifo) :
    RoundOutcome libc start done round (managerRound libc round done inbox) := by
  have hbound := handleBindFifo_handles h round.bind.env round.bindFifo round.bindRequest
    (round.bind.clients done.manager.files)
  by_cases htold : Told round
  · have hround : managerRound libc round done inbox=.stopped 0 done := if_pos htold
    rw [hround]
    exact .told htold
  by_cases hfails : BindFails libc done round
  · have hround : managerRound libc round done inbox=.stopped (-1) (after done
        (handleBindFifo libc round.bind.env (atBind round done) round.bindFifo
          round.bindRequest).1) := (if_neg htold).trans (if_pos hfails)
    rw [hround]
    exact .bindFails htold hfails hbound
  cases hpackets : roundPackets libc round done inbox with
  | none =>
    rw [managerRound_eq htold hfails,hpackets]
    exact .reading htold hfails
  | some result =>
    obtain ⟨handled,rest⟩ := result
    obtain ⟨taken,rfl⟩ := handleRounds_handleAll hpackets
    obtain ⟨last,hround,hhandles⟩ :=
      managerRound_over htold hfails hpackets (handleAll_handles round.packets hbound taken)
    rw [hround]
    exact .ended htold hfails hhandles rest

end Rounds

/-- What the loop has come to after serving requests. -/
def Reached (libc : Libc) (start : Served) : Loop → Prop
  | .running done _ | .stopped _ done => ∃ requests,Serves libc start done requests
  | .reading => True
  | .dangling => False

/-- Whatever a round meets, requests are served one after another. -/
theorem Reached.step {loop : Loop} (h : Reached libc start loop) (round : Round) :
    Reached libc start (loopStep libc loop round) := by
  cases loop with
  | running done inbox =>
    obtain ⟨_,hserves⟩ := h
    have houtcome := managerRound_outcome ⟨_,hserves,rfl⟩ round inbox
    rw [loopStep]
    generalize managerRound libc round done inbox=next at houtcome ⊢
    cases houtcome with
    | told => exact ⟨_,hserves⟩
    | bindFails _ _ hlast =>
      obtain ⟨requests,hlast,_⟩ := hlast
      exact ⟨requests,hlast⟩
    | reading => trivial
    | ended _ _ hlast =>
      obtain ⟨requests,hlast,_⟩ := hlast
      exact ⟨requests,hlast⟩
  | stopped result done => exact h
  | reading => exact h
  | dangling => exact h

/-- A round in which the bind stage fails is one whose fifo holds no request
that can be answered. -/
theorem bindFails_iff (libc : Libc) (done : Served) {round : Round} (hfits : BindFits round) :
    BindFails libc done round ↔
      ¬Harmless libc round.bind.env (atBind round done) round.bindFifo := by
  have hstored : (handleBindFifo libc round.bind.env (atBind round done) round.bindFifo
      round.bindRequest).2 ≤ maxBindRequestSize := by
    simp only [handleBindFifo]
    split
    · exact hfits
    · split <;> exact hfits
  rw [←survives_iff_harmless libc round.bind.env (atBind round done) round.bindFifo
    round.bindRequest,survives_iff]
  simp only [hstored,true_and]
  exact Iff.rfl

end NetworkLayer.LoopRuns
