import NetworkLayer.PacketHandlers

/-!
# The timer passes and the close command of one socket

On every round of its loop the manager lets each socket resend what is not
acknowledged, move bytes from its user's send fifo into the send window,
send the packets its state calls for, and obey a close command. A packet
handed to the network comes with the result of the attempt.
-/

namespace NetworkLayer.SocketPasses

open ByteStrings ArrayQueue UtilTypes FifoUtils TcpPackets PacketHandlers

/-- `CLOCKS_PER_SEC`. -/
def clocksPerSec : ℤ := 1000000

/-- `SOCKET_TIMEOUT`, in seconds. -/
def socketTimeout : ℤ := 10

/-- `SOCKET_SEND_AGAIN_TIME`, in seconds. -/
def socketSendAgainTime : ℤ := 3

/-- `SOCKET_FIN_RST_TIME`, in seconds. -/
def socketFinRstTime : ℤ := 8

/-- `SOCKET_TIME_WAIT_TIMEOUT`, in seconds. -/
def socketTimeWaitTimeout : ℤ := 1

/-- `MAX_DATA_PER_PACKET`. -/
def maxDataPerPacket : ℕ := 128

/-- `DIFF2SEC(clock() - since) > seconds`. -/
def elapsed (env : Env) (since seconds : ℤ) : Bool := env.now-since > seconds*clocksPerSec

/-- Outcome of a pass over one socket. -/
structure Passed where
  /-- The socket afterwards. -/
  socket : Socket
  /-- Packets handed to `send_TCP_packet`, each with its result. -/
  attempts : List (TCPPacket × SendResult)
  /-- Bytes moved from the user's send fifo into the send window. -/
  moved : List Byte
  /-- Bytes left waiting in the user's send fifo. -/
  left : List Byte

/-- A pass that leaves the socket as it is. -/
def idle (socket : Socket) : Passed := ⟨socket,[],[],[]⟩

/-- The packets that reached the network. -/
def Passed.sent (passed : Passed) : List TCPPacket :=
  (passed.attempts.filter fun attempt => attempt.2=.ok).map Prod.fst

/-- The loop of `get_next_socket_packet_data` with `room` bytes left in the
packet: it stops at the empty element and after the last free byte. -/
def collectData : ℕ → Byte → Queue → List Byte × Queue
  | 0,_,q => ([],q)
  | room+1,item,q =>
    if item=queueEmptyElement then ([],q)
    else
      let rest := if room=0 then ([],q) else collectData room q.queueGetNext.1 q.queueGetNext.2
      (item::rest.1,rest.2)

/-- `get_next_socket_packet_data`, with the queue after its iteration. -/
def getNextSocketPacketData (q : Queue) : CString × Queue :=
  let collected := collectData maxDataPerPacket q.queueGetFirst.1 q.queueGetFirst.2
  (CString.ofCells collected.1,collected.2)

/-- One attempt to send a packet: its clock moves only on success. -/
def attempt (env : Env) (site : ℕ) (socket : Socket) (packet : TCPPacket) : Passed :=
  ⟨if env.sendResult site=.ok then {socket with lastSendClock := env.now} else socket,
    [(packet,env.sendResult site)],[],[]⟩

/-- `check_and_handle_send_window`. -/
def checkAndHandleSendWindow (env : Env) (sock : Socket) : Passed :=
  if sock.state≠.established then idle sock
  else if elapsed env sock.lastSendClock socketSendAgainTime=true then
    let next := getNextSocketPacketData sock.sendWindow
    attempt env 0 {sock with sendWindow := next.2}
      (constructPacket sock next.1 ackFlag sock.id.dstPort)
  else idle sock

/-- The loop that reads the user's send fifo, for at most `rounds` bytes. It
closes the descriptor after the first byte, so later reads fail. -/
def moveUserBytes : ℕ → Bool → Queue → List Byte → Queue × List Byte × List Byte
  | 0,_,q,waiting => (q,[],waiting)
  | rounds+1,isOpen,q,waiting =>
    if q.size ≥ queueCapacity then (q,[],waiting)
    else match isOpen,waiting with
      | true,b::rest =>
        let others := moveUserBytes rounds false (q.enqueue b).2 rest
        (others.1,b::others.2.1,others.2.2)
      | _,_ => (q,[],waiting)

/-- The packet of a handshake state: its sequence number is one below the
send window's. -/
def handshakePacket (sock : Socket) (flags : Byte) : TCPPacket :=
  constructPacket {sock with seqOfFirstSendWindow := sock.seqOfFirstSendWindow-1}
    CString.empty flags sock.id.dstPort

/-- A packet without data in the socket's own numbers. -/
def bareControl (sock : Socket) (flags : Byte) : TCPPacket :=
  constructPacket sock CString.empty flags sock.id.dstPort

/-- `check_and_handle_outgoing_status_messages`. -/
def checkAndHandleOutgoingStatusMessages (env : Env) (sock : Socket) : Passed :=
  match sock.state with
  | .synSent =>
    if elapsed env sock.lastSendClock socketSendAgainTime=true then
      attempt env 0 sock (handshakePacket sock synFlag)
    else idle sock
  | .synReceived =>
    if elapsed env sock.lastSendClock socketSendAgainTime=true then
      attempt env 0 sock (handshakePacket sock (synFlag ||| ackFlag))
    else idle sock
  | .established =>
    match env.waiting with
    | none => idle sock
    | some waiting =>
      let moved := moveUserBytes maxDataPerPacket true sock.sendWindow waiting
      ⟨{sock with sendWindow := moved.1},[],moved.2.1,moved.2.2⟩
  | .finWait1 =>
    let reset := elapsed env sock.timeSinceFinSent socketFinRstTime
    let resets := if reset=true then [(bareControl sock rstFlag,env.sendResult 0)] else []
    if reset=true ∧ env.sendResult 0≠.error then ⟨{sock with state := .timeWait},resets,[],[]⟩
    else if elapsed env sock.lastSendClock socketSendAgainTime=true then
      let fin := attempt env 1 sock (bareControl sock finFlag)
      {fin with attempts := resets++fin.attempts}
    else ⟨sock,resets,[],[]⟩
  | .closeWait =>
    idle {sock with
      seqOfFirstSendWindow := sock.seqOfFirstSendWindow+sock.sendWindow.size
      state := .lastAck}
  | .closing =>
    if elapsed env sock.timeSinceFinSent socketFinRstTime=true then
      ⟨if env.sendResult 0=.ok then {sock with state := .timeWait} else sock,
        [(bareControl sock rstFlag,env.sendResult 0)],[],[]⟩
    else idle sock
  | .lastAck =>
    if elapsed env sock.lastSendClock socketSendAgainTime=true then
      attempt env 0 sock (bareControl sock (finFlag ||| ackFlag))
    else idle sock
  | .timeWait =>
    if elapsed env sock.lastSendClock socketTimeWaitTimeout=true then
      idle {sock with state := .closed}
    else idle sock
  | .closed => idle sock
  | .listen => idle sock
  | .finWait2 => idle sock

/-- `check_and_handle_close_command` once the user's command is there: a
socket still connecting gets its bound identity back. -/
def closeCommand (env : Env) (sock : Socket) : Socket :=
  {sock with
    id := if sock.state=.synSent then sock.id.boundOnly else sock.id
    seqOfFirstSendWindow := sock.seqOfFirstSendWindow+sock.sendWindow.size
    state := .finWait1
    timeSinceFinSent := env.now}

/-- The loop collects the elements from the iterator on, up to the free room
and up to the first element that equals the empty element. -/
theorem collectData_spec (room : ℕ) {item : Byte} {q : Queue}
    (hitem : q.toList[q.iterator]?=some item) :
    (collectData room item q).1=
        ((q.toList.drop q.iterator).take room).takeWhile (fun b => b != queueEmptyElement) ∧
      (collectData room item q).2.toList=q.toList := by
  induction room generalizing item q with
  | zero => exact ⟨by simp [collectData],rfl⟩
  | succ room ih =>
    obtain ⟨hlt,hget⟩ := List.getElem?_eq_some_iff.mp hitem
    have hdrop : q.toList.drop q.iterator=item::q.toList.drop (q.iterator+1) := by
      rw [List.drop_eq_getElem_cons hlt,hget]
    rw [collectData,hdrop,List.take_succ_cons]
    by_cases hend : item=queueEmptyElement
    · rw [if_pos hend,List.takeWhile_cons_of_neg (by simp [hend])]
      exact ⟨rfl,rfl⟩
    · rw [if_neg hend,List.takeWhile_cons_of_pos (by simp [hend])]
      by_cases hroom : room=0
      · subst hroom
        exact ⟨by simp,rfl⟩
      · simp only [if_neg hroom]
        by_cases hmore : q.iterator+1 < q.size
        · obtain ⟨hnext,hiter⟩ := queueGetNext_spec hmore
          have hnextItem : q.queueGetNext.2.toList[q.queueGetNext.2.iterator]?=
              some q.queueGetNext.1 := by
            rw [queueGetNext_toList,hiter,hnext]
          have hstep := ih hnextItem
          rw [queueGetNext_toList,hiter] at hstep
          exact ⟨by rw [hstep.1],hstep.2⟩
        · have hstop : collectData room q.queueGetNext.1 q.queueGetNext.2=([],q) := by
            rw [queueGetNext_end (by omega)]
            cases room with
            | zero => rfl
            | succ room => rw [collectData,if_pos rfl]
          have hnil : q.toList.drop (q.iterator+1)=[] := by
            rw [List.drop_eq_nil_iff,length_toList]
            omega
          rw [hstop,hnil]
          exact ⟨by simp,rfl⟩

/-- A packet's data are the first bytes of the send window, at most as many
as fit and none from the first NUL on; the window keeps its bytes. -/
theorem getNextSocketPacketData_spec (q : Queue) :
    (getNextSocketPacketData q).1.chars=
        (q.toList.take maxDataPerPacket).takeWhile (fun b => b != queueEmptyElement) ∧
      (getNextSocketPacketData q).2.toList=q.toList := by
  have hcells : ∀ cells : List Byte,
      (CString.ofCells (cells.takeWhile fun b => b != queueEmptyElement)).chars=
        cells.takeWhile fun b => b != queueEmptyElement := by
    intro cells
    simp only [CString.ofCells,queueEmptyElement,List.takeWhile_idem]
  unfold getNextSocketPacketData
  dsimp only
  by_cases hsize : 0 < q.size
  · obtain ⟨hfirst,hiter⟩ := queueGetFirst_spec hsize
    have hitem : q.queueGetFirst.2.toList[q.queueGetFirst.2.iterator]?=
        some q.queueGetFirst.1 := by
      rw [queueGetFirst_toList,hiter,hfirst]
    have hspec := collectData_spec maxDataPerPacket hitem
    rw [queueGetFirst_toList,hiter,List.drop_zero] at hspec
    rw [hspec.1,hcells]
    exact ⟨rfl,hspec.2⟩
  · have hempty : q.queueIsEmpty=true := by
      rw [Queue.queueIsEmpty,decide_eq_true_eq]
      omega
    have hnil : q.toList=[] := (queueIsEmpty_iff q).mp hempty
    rw [Queue.queueGetFirst,if_pos hempty]
    simp only [hnil,List.take_nil,List.takeWhile_nil]
    exact ⟨rfl,hnil⟩

/-- The bytes moved from the user's send fifo appear at the end of the send
window, in order. -/
theorem moveUserBytes_spec (rounds : ℕ) (isOpen : Bool) (q : Queue) (waiting : List Byte) :
    (moveUserBytes rounds isOpen q waiting).1.toList=
        q.toList++(moveUserBytes rounds isOpen q waiting).2.1 ∧
      waiting=(moveUserBytes rounds isOpen q waiting).2.1++
        (moveUserBytes rounds isOpen q waiting).2.2 := by
  induction rounds generalizing isOpen q waiting with
  | zero => exact ⟨by simp [moveUserBytes],by simp [moveUserBytes]⟩
  | succ rounds ih =>
    unfold moveUserBytes
    by_cases hroom : q.size ≥ queueCapacity
    · simp only [if_pos hroom]
      exact ⟨by simp,rfl⟩
    · simp only [if_neg hroom]
      cases isOpen with
      | false => exact ⟨by simp,rfl⟩
      | true =>
        cases waiting with
        | nil => exact ⟨by simp,rfl⟩
        | cons b rest =>
          obtain ⟨hlist,hrest⟩ := ih false (q.enqueue b).2 rest
          have hfull : q.queueIsFull=false := by
            rw [Queue.queueIsFull,decide_eq_false_iff_not]
            omega
          refine ⟨?_,by rw [List.cons_append,←hrest]⟩
          rw [hlist,(enqueue_toList hfull b).2,List.append_assoc,List.singleton_append]

/-- What reached the network was handed to it. -/
theorem sent_subset (passed : Passed) : ∀ p∈passed.sent,p∈passed.attempts.map Prod.fst := by
  intro p hp
  obtain ⟨attempt,hmem,rfl⟩ := List.mem_map.mp hp
  exact List.mem_map_of_mem (List.mem_filter.mp hmem).1

/-- An attempt moves at most the clock. -/
theorem attempt_frame (env : Env) (site : ℕ) (s : Socket) (packet : TCPPacket) :
    ∃ clock,attempt env site s packet=
      ⟨{s with lastSendClock := clock},[(packet,env.sendResult site)],[],[]⟩ := by
  unfold attempt
  split
  · exact ⟨env.now,rfl⟩
  · exact ⟨s.lastSendClock,rfl⟩

/-- The pass over the send window does nothing, or it sends the first bytes of
the window of an established socket. -/
theorem checkAndHandleSendWindow_cases (env : Env) (s : Socket) :
    checkAndHandleSendWindow env s=idle s ∨
      s.state=.established ∧ ∃ q clock data,q.toList=s.sendWindow.toList ∧
        data.chars<+:s.sendWindow.toList ∧ checkAndHandleSendWindow env s=
          ⟨{s with sendWindow := q,lastSendClock := clock},
            [(constructPacket s data ackFlag s.id.dstPort,env.sendResult 0)],[],[]⟩ := by
  obtain ⟨hchars,hlist⟩ := getNextSocketPacketData_spec s.sendWindow
  unfold checkAndHandleSendWindow
  split
  · exact Or.inl rfl
  next hstate =>
  rw [not_not] at hstate
  split
  · obtain ⟨clock,hclock⟩ := attempt_frame env 0
      {s with sendWindow := (getNextSocketPacketData s.sendWindow).2}
      (constructPacket s (getNextSocketPacketData s.sendWindow).1 ackFlag s.id.dstPort)
    refine Or.inr ⟨hstate,_,clock,_,hlist,?_,hclock⟩
    rw [hchars]
    exact (List.takeWhile_prefix _).trans (List.take_prefix _ _)
  · exact Or.inl rfl

/-- The packets of the timer pass, by the state that calls for them. -/
inductive StatusPacket (s : Socket) : TCPPacket → Prop
  /-- The SYN, sent again. -/
  | syn (hstate : s.state=.synSent) : StatusPacket s (handshakePacket s synFlag)
  /-- The SYN|ACK, sent again. -/
  | synAck (hstate : s.state=.synReceived) :
    StatusPacket s (handshakePacket s (synFlag ||| ackFlag))
  /-- A reset, after a timeout. -/
  | reset (hstate : s.state=.finWait1 ∨ s.state=.closing) : StatusPacket s (bareControl s rstFlag)
  /-- The FIN of a socket that closes first. -/
  | fin (hstate : s.state=.finWait1) : StatusPacket s (bareControl s finFlag)
  /-- The FIN of a socket that closes after its peer. -/
  | finAck (hstate : s.state=.lastAck) : StatusPacket s (bareControl s (finFlag ||| ackFlag))

/-- Everything the timer pass can do to a socket. -/
inductive PassOutcome (env : Env) (s : Socket) : Passed → Prop
  /-- It sends the packets that are due, if any. -/
  | sends (clock : ℤ) (attempts : List (TCPPacket × SendResult))
    (hpackets : ∀ p∈attempts.map Prod.fst,StatusPacket s p) :
    PassOutcome env s ⟨{s with lastSendClock := clock},attempts,[],[]⟩
  /-- The peer does not answer the FIN in time: it may be sent a reset. -/
  | timedOut (hstate : s.state=.finWait1 ∨ s.state=.closing)
    (helapsed : elapsed env s.timeSinceFinSent socketFinRstTime=true)
    (attempts : List (TCPPacket × SendResult))
    (hpackets : ∀ p∈attempts.map Prod.fst,StatusPacket s p) :
    PassOutcome env s ⟨{s with state := .timeWait},attempts,[],[]⟩
  /-- The user's bytes enter the window. -/
  | moves (hstate : s.state=.established) (q : Queue) (moved left : List Byte)
    (hlist : q.toList=s.sendWindow.toList++moved) :
    PassOutcome env s ⟨{s with sendWindow := q},[],moved,left⟩
  /-- The size of the window is added before the own FIN is sent. -/
  | finishes (hstate : s.state=.closeWait) :
    PassOutcome env s (idle {s with
      seqOfFirstSendWindow := s.seqOfFirstSendWindow+s.sendWindow.size
      state := .lastAck})
  /-- The last state times out. -/
  | expires (hstate : s.state=.timeWait)
    (helapsed : elapsed env s.lastSendClock socketTimeWaitTimeout=true) :
    PassOutcome env s (idle {s with state := .closed})

/-- And this is all. -/
theorem checkAndHandleOutgoingStatusMessages_outcome (env : Env) (s : Socket) :
    PassOutcome env s (checkAndHandleOutgoingStatusMessages env s) := by
  have hidle : PassOutcome env s (idle s) := .sends s.lastSendClock [] (by simp)
  have hattempt : ∀ site packet,StatusPacket s packet →
      PassOutcome env s (attempt env site s packet) := by
    intro site packet hpacket
    obtain ⟨clock,hclock⟩ := attempt_frame env site s packet
    rw [hclock]
    exact .sends clock _ (by simpa using hpacket)
  unfold checkAndHandleOutgoingStatusMessages
  cases hstate : s.state with
  | closed | listen | finWait2 => exact hidle
  | synSent =>
    simp only
    split
    · exact hattempt 0 _ (.syn hstate)
    · exact hidle
  | synReceived =>
    simp only
    split
    · exact hattempt 0 _ (.synAck hstate)
    · exact hidle
  | lastAck =>
    simp only
    split
    · exact hattempt 0 _ (.finAck hstate)
    · exact hidle
  | closeWait => exact .finishes hstate
  | timeWait =>
    simp only
    split
    · next helapsed => exact .expires hstate helapsed
    · exact hidle
  | established =>
    cases env.waiting with
    | none => exact hidle
    | some waiting =>
      have hlist := (moveUserBytes_spec maxDataPerPacket true s.sendWindow waiting).1
      have hmoves := @PassOutcome.moves env s hstate _ _
        (moveUserBytes maxDataPerPacket true s.sendWindow waiting).2.2 hlist
      rwa [hstate] at hmoves
  | closing =>
    have hreset : StatusPacket s (bareControl s rstFlag) := .reset (Or.inr hstate)
    simp only
    split
    · next helapsed =>
      split
      · exact .timedOut (Or.inr hstate) helapsed _ (by simpa using hreset)
      · exact .sends s.lastSendClock _ (by simpa using hreset)
    · exact hidle
  | finWait1 =>
    have hresets : ∀ p∈(if elapsed env s.timeSinceFinSent socketFinRstTime=true then
        [(bareControl s rstFlag,env.sendResult 0)] else []).map Prod.fst,StatusPacket s p := by
      intro p hp
      split at hp
      · obtain rfl : p=bareControl s rstFlag := by simpa using hp
        exact .reset (Or.inl hstate)
      · simp at hp
    simp only
    split
    · next helapsed => exact .timedOut (Or.inl hstate) helapsed.1 _ hresets
    split
    · obtain ⟨clock,hclock⟩ := attempt_frame env 1 s (bareControl s finFlag)
      rw [hclock]
      refine .sends clock _ ?_
      intro p hp
      rw [List.map_append,List.mem_append] at hp
      rcases hp with hp|hp
      · exact hresets p hp
      · obtain rfl : p=bareControl s finFlag := by simpa using hp
        exact .fin hstate
    · exact .sends s.lastSendClock _ hresets

end NetworkLayer.SocketPasses
