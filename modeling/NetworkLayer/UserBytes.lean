import NetworkLayer.FinNumbers
import NetworkLayer.PacketDispatch

/-!
# The bytes of the user on their way into packets

The user's bytes wait in the send fifo, move into the send window one pass
after the other, and leave in packets from the head of the window. The
iteration over the window ends at the element that marks its end, and the
loop over the fifo closes its descriptor, so neither takes all it may.
-/

namespace NetworkLayer.UserBytes

open ByteStrings ArrayQueue UtilTypes FifoUtils TcpPackets PacketHandlers SocketPasses SocketSteps
open PacketDispatch ClosingStates FinNumbers StepRuns

/-- The data of the next packet are the first bytes of the send window, as
many as fit, and are empty for an empty window only. -/
def PayloadExact (s : Socket) : Prop :=
  let data := (getNextSocketPacketData s.sendWindow).1
  data.chars=s.sendWindow.toList.take (min maxDataPerPacket s.sendWindow.size) ∧
    (s.sendWindow.queueIsEmpty=false → data.chars≠[])

/-- None of the bytes that are due for the next packet is NUL. -/
def DueNulFree (s : Socket) : Prop := queueEmptyElement∉s.sendWindow.toList.take maxDataPerPacket

/-- The first bytes of a queue, as many as fit and are there. -/
theorem take_min_size (q : Queue) (n : ℕ) : q.toList.take (min n q.size)=q.toList.take n := by
  rw [←length_toList,←List.take_take,List.take_length]

/-- The data are all that is due exactly when no NUL is due. -/
theorem payloadExact_iff (s : Socket) : PayloadExact s ↔ DueNulFree s := by
  obtain ⟨hchars,_⟩ := getNextSocketPacketData_spec s.sendWindow
  have hwhole : (getNextSocketPacketData s.sendWindow).1.chars=
      s.sendWindow.toList.take maxDataPerPacket ↔ DueNulFree s := by
    rw [hchars,List.takeWhile_eq_self_iff,DueNulFree]
    constructor
    · intro h hmem
      simpa using h _ hmem
    · intro h b hb
      have hne : b≠queueEmptyElement := fun he => h (he ▸ hb)
      simpa using hne
  rw [PayloadExact,take_min_size]
  constructor
  · exact fun h => hwhole.mp h.1
  · intro h
    have hdata := hwhole.mpr h
    refine ⟨hdata,fun hsome hnil => ?_⟩
    have hempty : s.sendWindow.toList=[] := by
      rw [hdata,List.take_eq_nil_iff] at hnil
      exact hnil.resolve_left (by decide)
    rw [(queueIsEmpty_iff _).mpr hempty] at hsome
    cases hsome

/-- A NUL at the head of the window keeps all that is behind it from ever
being sent: every packet is empty. -/
theorem payload_empty_iff (q : Queue) :
    (getNextSocketPacketData q).1.chars=[] ↔
      q.toList=[] ∨ q.toList.head?=some queueEmptyElement := by
  rw [(getNextSocketPacketData_spec q).1]
  cases q.toList with
  | nil => simp
  | cons b rest => simp [maxDataPerPacket]

/-- A packet takes acknowledged bytes off the front of the window, in any
state. -/
theorem handlePacket_window (env : Env) (manager : NetworkManager) (s : Socket)
    (packet : TCPPacket) (srcIp : CString) :
    ∃ j,(handlePacket env manager s packet srcIp).socket.sendWindow.toList=
      s.sendWindow.toList.drop j := by
  by_cases hl : s.state=.listen
  · refine ⟨0,?_⟩
    rw [handlePacket,if_neg (fun h => h.2 hl),if_neg (fun h => h.1 hl),hl]
    simp only [List.drop_zero]
    rcases (handlePacketListen_cases env manager s packet srcIp).2 with ⟨_,he,_⟩|⟨_,_,_,he,_⟩
    all_goals rw [he]
  · have houtcome := handlePacket_outcome env manager packet srcIp hl
    generalize handlePacket env manager s packet srcIp=handled at houtcome ⊢
    cases houtcome with
    | taken hstate _ hsyn hfin =>
      obtain ⟨j,hwindow,_⟩ := (handlePacketEstablished_step env manager hstate hsyn hfin).window
      exact ⟨j,by rw [hwindow,List.append_nil]⟩
    | ignored | reset | connected | accepted | finished | finAcked | finTaken | finAnswered =>
      exact ⟨0,rfl⟩

/-- Every event puts the user's bytes at the end of the window and takes
acknowledged ones off its front. -/
theorem socketStep_window (s : Socket) (event : Event) :
    ∃ j,(socketStep s event).sendWindow.toList=
      (s.sendWindow.toList++enqueued s event).drop j := by
  cases event with
  | packet env manager packet srcIp =>
    obtain ⟨clock,hclock⟩ := afterReply_frame env (handlePacket env manager s packet srcIp)
    obtain ⟨j,hj⟩ := handlePacket_window env manager s packet srcIp
    have hnone : enqueued s (.packet env manager packet srcIp)=[] := rfl
    exact ⟨j,by rw [socketStep,hclock,hj,hnone,List.append_nil]⟩
  | sendWindow env =>
    refine ⟨0,?_⟩
    rcases checkAndHandleSendWindow_cases env s with he|⟨_,q,clock,data,hlist,_,he⟩
    · simp [socketStep,enqueued,he,idle]
    · simp [socketStep,enqueued,he,hlist]
  | statusMessages env =>
    refine ⟨0,?_⟩
    have houtcome := checkAndHandleOutgoingStatusMessages_outcome env s
    simp only [socketStep,enqueued]
    generalize checkAndHandleOutgoingStatusMessages env s=passed at houtcome ⊢
    cases houtcome with
    | moves _ q moved left hlist => exact hlist
    | sends | timedOut | finishes | expires => simp [idle]
  | close env => exact ⟨0,by simp [socketStep,closeCommand,enqueued]⟩

/-- The bytes that the user sent and the event enqueues hold no NUL. -/
def SendsNoNul (s : Socket) (event : Event) : Prop := queueEmptyElement∉enqueued s event

/-- While the user sends no NUL, the window holds none. -/
theorem nulFree_step {s : Socket} {event : Event} (hs : queueEmptyElement∉s.sendWindow.toList)
    (hsend : SendsNoNul s event) : queueEmptyElement∉(socketStep s event).sendWindow.toList := by
  obtain ⟨j,hj⟩ := socketStep_window s event
  intro hmem
  rw [hj] at hmem
  rcases List.mem_append.mp (List.mem_of_mem_drop hmem) with h|h
  · exact hs h
  · exact hsend h

/-- In every run the packets take all that is due exactly while no NUL is due,
and they do while the user, from a window without one on, sends none. -/
theorem payload_exact_iff (s : Socket) (events : List Event) :
    (EachState socketStep PayloadExact s events ↔ EachState socketStep DueNulFree s events) ∧
      (queueEmptyElement∉s.sendWindow.toList → EachStep socketStep SendsNoNul s events →
        EachState socketStep PayloadExact s events) := by
  have hiff : EachState socketStep PayloadExact s events ↔
      EachState socketStep DueNulFree s events :=
    ⟨eachState_imp fun s => (payloadExact_iff s).mp,
      eachState_imp fun s => (payloadExact_iff s).mpr⟩
  refine ⟨hiff,fun hs hsends => hiff.mpr ?_⟩
  have hfree := eachState_of_guarded (P:=fun s => queueEmptyElement∉s.sendWindow.toList)
    (fun _ _ => nulFree_step) hs hsends
  exact eachState_imp (fun s hs hmem => hs (List.mem_of_mem_take hmem)) hfree

/-- The user of a new connection sends two letters and then one more. -/
def lettersSent : List Event :=
  [.statusMessages (smoothEnv 0 (some [97,98])),.statusMessages (smoothEnv 0 (some [98])),
    .sendWindow (smoothEnv 5000000 none),.statusMessages (smoothEnv 0 (some [99])),
    .sendWindow (smoothEnv 10000000 none)]

/-- Their packets are exact. -/
theorem payload_exact_iff_letters :
    EachState socketStep PayloadExact openSocket lettersSent ∧
      (run socketStep openSocket lettersSent).sendWindow.toList=[97,98,99] := by
  refine ⟨(payload_exact_iff openSocket lettersSent).2 (by decide) ⟨?_,?_,?_,?_,?_,trivial⟩,
    by decide +kernel⟩
  all_goals
    unfold SendsNoNul
    decide +kernel

/-- The user of a new connection sends one NUL. -/
def nulSent : List Event := [.statusMessages (smoothEnv 0 (some [0]))]

/-- It stays at the head of the window, and no packet has data any more. -/
theorem nulSent_stalls :
    (run socketStep openSocket nulSent).sendWindow.toList=[0] ∧
      (getNextSocketPacketData (run socketStep openSocket nulSent).sendWindow).1.chars=[] ∧
      ¬EachState socketStep PayloadExact openSocket nulSent := by
  have hwindow : (run socketStep openSocket nulSent).sendWindow.toList=[0] := by decide
  refine ⟨hwindow,(payload_empty_iff _).mpr (Or.inr (by rw [hwindow]; rfl)),fun h => ?_⟩
  have hdue : DueNulFree (run socketStep openSocket nulSent) := (payloadExact_iff _).mp h.last
  rw [DueNulFree,hwindow] at hdue
  exact absurd hdue (by decide)

/-- A call on the descriptor of the user's send fifo, and whether it is open
at that time. -/
inductive FifoCall
  /-- `read`. -/
  | read (isOpen : Bool)
  /-- `close`. -/
  | close (isOpen : Bool)
  deriving DecidableEq

/-- Whether the call is a `close`. -/
def FifoCall.closes : FifoCall → Bool
  | .read _ => false
  | .close _ => true

/-- The calls of the loop of `moveUserBytes` and of the `close` behind it. -/
def moveUserCalls : ℕ → Bool → Queue → List Byte → List FifoCall
  | 0,isOpen,_,_ => [.close isOpen]
  | rounds+1,isOpen,q,waiting =>
    if q.size ≥ queueCapacity then [.close isOpen]
    else match isOpen,waiting with
      | true,b::rest => .read true::.close true::moveUserCalls rounds false (q.enqueue b).2 rest
      | _,_ => [.read isOpen,.close isOpen]

/-- A pass moves all that it may from the bytes waiting, in order, leaves the
others in the fifo, reads on an open descriptor only and closes it once. -/
structure MovesAll (env : Env) (s : Socket) (waiting : List Byte) : Prop where
  /-- The bytes at the front of the fifo are moved. -/
  moved : (checkAndHandleOutgoingStatusMessages env s).moved=
    waiting.take (min (min maxDataPerPacket waiting.length) (queueCapacity-s.sendWindow.size))
  /-- They are at the end of the window. -/
  window : (checkAndHandleOutgoingStatusMessages env s).socket.sendWindow.toList=
    s.sendWindow.toList++
      waiting.take (min (min maxDataPerPacket waiting.length) (queueCapacity-s.sendWindow.size))
  /-- The others are left. -/
  left : (checkAndHandleOutgoingStatusMessages env s).left=
    waiting.drop (min (min maxDataPerPacket waiting.length) (queueCapacity-s.sendWindow.size))
  /-- The descriptor is open at every read. -/
  reads_open : ∀ isOpen,.read isOpen∈moveUserCalls maxDataPerPacket true s.sendWindow waiting →
    isOpen=true
  /-- It is closed once, while it is open. -/
  closed_once : (moveUserCalls maxDataPerPacket true s.sendWindow waiting).filter
    FifoCall.closes=[.close true]

/-- A full window takes nothing in. -/
theorem moveUserBytes_of_full {q : Queue} (h : q.size=queueCapacity) (rounds : ℕ)
    (waiting : List Byte) :
    moveUserBytes (rounds+1) true q waiting=(q,[],waiting) ∧
      moveUserCalls (rounds+1) true q waiting=[.close true] := by
  have hge : q.size ≥ queueCapacity := h.ge
  unfold moveUserBytes moveUserCalls
  rw [if_pos hge,if_pos hge]
  exact ⟨rfl,rfl⟩

/-- An empty fifo gives nothing. -/
theorem moveUserBytes_of_nothing {q : Queue} (h : q.size≠queueCapacity) (rounds : ℕ) :
    moveUserBytes (rounds+1) true q []=(q,[],[]) ∧
      moveUserCalls (rounds+1) true q []=[.read true,.close true] := by
  have hlt : ¬q.size ≥ queueCapacity := by
    have := q.size_le
    omega
  unfold moveUserBytes moveUserCalls
  rw [if_neg hlt,if_neg hlt]
  exact ⟨rfl,rfl⟩

/-- Behind the first `close` nothing moves, and the descriptor is closed once
more. -/
theorem moveUserBytes_closed (rounds : ℕ) (q : Queue) (waiting : List Byte) :
    moveUserBytes rounds false q waiting=(q,[],waiting) ∧
      FifoCall.close false∈moveUserCalls rounds false q waiting := by
  cases rounds with
  | zero => exact ⟨rfl,List.mem_singleton_self _⟩
  | succ rounds =>
    unfold moveUserBytes moveUserCalls
    split
    · exact ⟨rfl,List.mem_singleton_self _⟩
    · exact ⟨rfl,List.mem_cons_of_mem _ (List.mem_singleton_self _)⟩

/-- A window with room takes in the first byte that is waiting and no other. -/
theorem moveUserBytes_of_room {q : Queue} (h : q.size≠queueCapacity) (rounds : ℕ) (b : Byte)
    (rest : List Byte) :
    moveUserBytes (rounds+1) true q (b::rest)=((q.enqueue b).2,[b],rest) ∧
      FifoCall.close false∈moveUserCalls (rounds+1) true q (b::rest) := by
  have hlt : ¬q.size ≥ queueCapacity := by
    have := q.size_le
    omega
  obtain ⟨hmoved,hcalls⟩ := moveUserBytes_closed rounds (q.enqueue b).2 rest
  unfold moveUserBytes moveUserCalls
  rw [if_neg hlt,if_neg hlt]
  dsimp only
  rw [hmoved]
  exact ⟨rfl,List.mem_cons_of_mem _ (List.mem_cons_of_mem _ hcalls)⟩

section

variable {env : Env} {s : Socket} {waiting : List Byte} (hstate : s.state=.established)
  (hwaiting : env.waiting=some waiting)

include hstate hwaiting

/-- The pass over an established socket is the loop over its send fifo. -/
theorem statusMessages_established : checkAndHandleOutgoingStatusMessages env s=
    ⟨{s with sendWindow := (moveUserBytes maxDataPerPacket true s.sendWindow waiting).1},[],
      (moveUserBytes maxDataPerPacket true s.sendWindow waiting).2.1,
      (moveUserBytes maxDataPerPacket true s.sendWindow waiting).2.2⟩ := by
  simp only [checkAndHandleOutgoingStatusMessages,hstate,hwaiting]

/-- A pass that moves nothing moves all that it may where nothing may move. -/
theorem MovesAll.of_nothing (hmay : waiting=[] ∨ s.sendWindow.size=queueCapacity)
    (hmoved : moveUserBytes maxDataPerPacket true s.sendWindow waiting=(s.sendWindow,[],waiting))
    (hreads : ∀ isOpen,.read isOpen∈moveUserCalls maxDataPerPacket true s.sendWindow waiting →
      isOpen=true)
    (hcloses : (moveUserCalls maxDataPerPacket true s.sendWindow waiting).filter
      FifoCall.closes=[.close true]) : MovesAll env s waiting := by
  have hnone : min (min maxDataPerPacket waiting.length) (queueCapacity-s.sendWindow.size)=0 := by
    rcases hmay with h|h
    · simp [h]
    · simp [h]
  have hpassed := statusMessages_established hstate hwaiting
  rw [hmoved] at hpassed
  exact ⟨by rw [hpassed,hnone,List.take_zero],by rw [hpassed,hnone,List.take_zero,List.append_nil],
    by rw [hpassed,hnone,List.drop_zero],hreads,hcloses⟩

/-- A pass over the send fifo of an established socket moves all that it may,
with one `close` and no read behind it, exactly when nothing may move: no byte
is waiting or the window is full. -/
theorem moves_all_iff :
    MovesAll env s waiting ↔ waiting=[] ∨ s.sendWindow.size=queueCapacity := by
  constructor
  · intro h
    by_contra hnot
    rw [not_or] at hnot
    obtain ⟨b,rest,rfl⟩ := List.exists_cons_of_ne_nil hnot.1
    -- the descriptor is closed a second time
    have hcalls := (moveUserBytes_of_room hnot.2 127 b rest).2
    have hclose := List.mem_filter.mpr ⟨hcalls,(rfl : FifoCall.closes (.close false)=true)⟩
    have hmem := h.closed_once ▸ hclose
    simp at hmem
  · intro hmay
    by_cases hfull : s.sendWindow.size=queueCapacity
    · obtain ⟨hmoved,hcalls⟩ := moveUserBytes_of_full hfull 127 waiting
      refine MovesAll.of_nothing hstate hwaiting hmay hmoved ?_ ?_
      · rw [maxDataPerPacket,hcalls]
        simp
      · rw [maxDataPerPacket,hcalls]
        rfl
    · obtain rfl : waiting=[] := hmay.resolve_right hfull
      obtain ⟨hmoved,hcalls⟩ := moveUserBytes_of_nothing hfull 127
      refine MovesAll.of_nothing hstate hwaiting hmay hmoved ?_ ?_
      · rw [maxDataPerPacket,hcalls]
        simp
      · rw [maxDataPerPacket,hcalls]
        rfl

end

/-- Two bytes wait for a place in a window that has none. -/
theorem moves_all_iff_full : ∃ s : Socket,s.sendWindow.size=queueCapacity ∧
    MovesAll (smoothEnv 0 (some [98,99])) s [98,99] := by
  have hnext : CircularCells.slot (Fin.last 8191) 1=
      CircularCells.slot (0 : Fin queueCapacity) queueCapacity := by decide
  let full : Queue := ⟨0,Fin.last 8191,queueCapacity,fun _ => 97,0,le_rfl,hnext⟩
  exact ⟨{openSocket with sendWindow := full},rfl,(moves_all_iff rfl rfl).mpr (Or.inr rfl)⟩

/-- Of two bytes that are waiting the pass moves one, reads once more behind
the first `close`, and closes again. -/
theorem two_bytes_one_moves :
    (checkAndHandleOutgoingStatusMessages (smoothEnv 0 (some [97,98])) openSocket).moved=[97] ∧
      moveUserCalls maxDataPerPacket true openSocket.sendWindow [97,98]=
        [.read true,.close true,.read false,.close false] ∧
      ¬MovesAll (smoothEnv 0 (some [97,98])) openSocket [97,98] := by
  refine ⟨by decide,by decide,fun h => ?_⟩
  have hmoved := h.moved
  revert hmoved
  decide

end NetworkLayer.UserBytes
