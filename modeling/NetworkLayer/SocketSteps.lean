import NetworkLayer.SocketPasses

/-!
# What one step can do to a connected socket

Facts about the loops of the handlers, and one summary, `SocketStep`, of
everything a step of a connected socket may change. Each way a socket moves
is proved to be such a step once; properties of whole connections are then
derived from the summary and never from the handlers themselves.
-/

namespace NetworkLayer.SocketSteps

open ByteStrings ArrayQueue UtilTypes FifoUtils TcpPackets PacketHandlers SocketPasses
open WindowedStreams

/-- The states of a connection after its handshake. -/
def Connected (state : TCPState) : Prop :=
  state≠.listen ∧ state≠.synSent ∧ state≠.synReceived

/-- Whether a socket takes the packet as its peer's FIN. -/
def acceptsFin (socket : Socket) (packet : TCPPacket) : Bool :=
  packet.has finFlag && !packet.has rstFlag && decide (packet.srcPort=socket.id.dstPort) &&
    (decide (socket.state=.established) && !packet.has synFlag ||
      decide (socket.state=.finWait1) || decide (socket.state=.finWait2))

/-- A FIN is accepted in three states only, and never with a reset or from a
foreign port. -/
theorem acceptsFin_cases {s : Socket} {fin : TCPPacket} (h : acceptsFin s fin=true) :
    fin.has finFlag=true ∧ fin.has rstFlag=false ∧ fin.srcPort=s.id.dstPort ∧
      (s.state=.established ∨ s.state=.finWait1 ∨ s.state=.finWait2) := by
  simp only [acceptsFin,Bool.and_eq_true,Bool.or_eq_true,Bool.not_eq_true',
    decide_eq_true_eq] at h
  obtain ⟨⟨⟨hfin,hrst⟩,hport⟩,hstate⟩ := h
  exact ⟨hfin,hrst,hport,by tauto⟩

theorem acceptsFin_of_noFin {socket : Socket} {packet : TCPPacket}
    (h : packet.has finFlag=false) : acceptsFin socket packet=false := by
  simp [acceptsFin,h]

theorem acceptsFin_of_reset {socket : Socket} {packet : TCPPacket}
    (h : packet.has rstFlag=true) : acceptsFin socket packet=false := by
  simp [acceptsFin,h]

/-- Everything `handle_packet` can do with a socket that does not listen. -/
inductive Outcome (env : Env) (manager : NetworkManager) (s : Socket) (packet : TCPPacket) :
    Handled → Prop
  /-- The packet is ignored. A user that could not be told of a connection may
  have cost files. -/
  | ignored (hno : acceptsFin s packet=false) (files : Files) :
    Outcome env manager s packet (quiet {manager with files := files} s)
  /-- A reset closes the connection. -/
  | reset (hrst : packet.has rstFlag=true) :
    Outcome env manager s packet (quiet manager {s with state := .closed})
  /-- A SYN|ACK for the own SYN establishes the connection. -/
  | connected (hstate : s.state=.synSent) (hsyn : packet.has synFlag=true)
    (hack : packet.has ackFlag=true) (files : Files) :
    Outcome env manager s packet (quiet {manager with files := files} {s with
      seqOfFirstRecvWindow := packet.seqNum+1
      state := .established})
  /-- So does the ACK of the SYN|ACK. -/
  | accepted (hstate : s.state=.synReceived) (hack : packet.has ackFlag=true) :
    Outcome env manager s packet (quiet manager {s with state := .established})
  /-- An established connection takes acknowledgements and data. -/
  | taken (hstate : s.state=.established) (hport : packet.srcPort=s.id.dstPort)
    (hsyn : packet.has synFlag=false) (hfin : packet.has finFlag=false) :
    Outcome env manager s packet (handlePacketEstablished env manager s packet)
  /-- And the peer's FIN, which adds the size of the window. -/
  | finished (hstate : s.state=.established) (haccepts : acceptsFin s packet=true) :
    Outcome env manager s packet (quiet manager {s with
      state := .closeWait
      seqOfFirstRecvWindow := packet.seqNum+1
      seqOfFirstSendWindow := s.seqOfFirstSendWindow+s.sendWindow.size})
  /-- The own FIN is acknowledged. -/
  | finAcked (state : TCPState) (clock : ℤ) (hno : acceptsFin s packet=false)
    (hedge : s.state=.finWait1 ∧ state=.finWait2 ∨ s.state=.closing ∧ state=.timeWait ∨
      s.state=.lastAck ∧ state=.closed)
    (hack : packet.has ackFlag=true ∧ s.seqOfFirstSendWindow < packet.ackNum) :
    Outcome env manager s packet (quiet manager {s with state := state,lastSendClock := clock})
  /-- In FIN_WAIT_1 a FIN is taken without an answer, which may acknowledge
  the own FIN as well. -/
  | finTaken (state : TCPState) (clock : ℤ) (hstate : s.state=.finWait1)
    (haccepts : acceptsFin s packet=true)
    (hedge : state=.closing ∨ state=.timeWait ∧ packet.has ackFlag=true ∧
      s.seqOfFirstSendWindow < packet.ackNum) :
    Outcome env manager s packet (quiet manager {s with
      seqOfFirstRecvWindow := packet.seqNum+1
      state := state
      timeSinceFinSent := env.now
      lastSendClock := clock})
  /-- In FIN_WAIT_2 it is answered. -/
  | finAnswered (hstate : s.state=.finWait2) (haccepts : acceptsFin s packet=true)
    (hport : packet.srcPort=s.id.dstPort) :
    Outcome env manager s packet {quiet manager {s with
        state := .timeWait
        seqOfFirstRecvWindow := packet.seqNum+1} with
      reply := some (constructPacket {s with
        state := .timeWait
        seqOfFirstRecvWindow := packet.seqNum+1} CString.empty ackFlag packet.srcPort)}

/-- Telling a user of its connection touches files only. -/
theorem notifyConnectClient_frame (env : Env) (manager : NetworkManager) (socket : Socket) :
    ∃ files,(notifyConnectClient env manager socket).2={manager with files := files} := by
  unfold notifyConnectClient
  dsimp only
  split <;> exact ⟨_,rfl⟩

/-- And this is all. -/
theorem handlePacket_outcome (env : Env) (manager : NetworkManager) {s : Socket}
    (packet : TCPPacket) (srcIp : CString) (hl : s.state≠.listen) :
    Outcome env manager s packet (handlePacket env manager s packet srcIp) := by
  have hignored : acceptsFin s packet=false → Outcome env manager s packet (quiet manager s) :=
    fun hno => .ignored hno manager.files
  unfold handlePacket
  by_cases hrst : packet.has rstFlag=true
  · rw [if_pos ⟨hrst,hl⟩]
    exact .reset hrst
  rw [if_neg (by simp [hrst])]
  by_cases hport : packet.srcPort=s.id.dstPort
  swap
  · rw [if_pos ⟨hl,hport⟩]
    exact hignored (by simp [acceptsFin,hport])
  rw [if_neg (by simp [hport])]
  have haccepts : acceptsFin s packet=(packet.has finFlag &&
      (decide (s.state=.established) && !packet.has synFlag ||
        decide (s.state=.finWait1) || decide (s.state=.finWait2))) := by
    simp [acceptsFin,hrst,hport]
  cases hstate : s.state with
  | listen => exact absurd hstate hl
  | closed | closeWait | timeWait => exact hignored (by simp [haccepts,hstate])
  | synSent =>
    have hno : acceptsFin s packet=false := by simp [haccepts,hstate]
    simp only [handlePacketSynSent]
    split
    · exact hignored hno
    next hsyn =>
    split
    · exact hignored hno
    next hack =>
    obtain ⟨files,hfiles⟩ := notifyConnectClient_frame env manager s
    rw [hfiles]
    split
    · rw [not_or] at hack
      exact .connected hstate (by simpa using hsyn) (by simpa using hack.1) files
    · exact .ignored hno files
  | synReceived =>
    have hno : acceptsFin s packet=false := by simp [haccepts,hstate]
    simp only [handlePacketSynReceived]
    split
    · exact hignored hno
    next hack =>
    split
    · exact hignored hno
    split
    · exact .accepted hstate (by simpa using hack)
    · exact hignored hno
  | established =>
    by_cases hsyn : packet.has synFlag=true
    · rw [handlePacketEstablished,if_pos hsyn]
      exact hignored (by simp [haccepts,hstate,hsyn])
    by_cases hfin : packet.has finFlag=true
    · rw [handlePacketEstablished,if_neg hsyn,if_pos hfin]
      exact .finished hstate (by simp [haccepts,hstate,hsyn,hfin])
    · exact .taken hstate hport (by simpa using hsyn) (by simpa using hfin)
  | lastAck =>
    have hno : acceptsFin s packet=false := by simp [haccepts,hstate]
    simp only [handlePacketLastAck]
    split
    · exact hignored hno
    next hack =>
    split
    · exact hignored hno
    next hnum =>
    exact .finAcked .closed s.lastSendClock hno (Or.inr (Or.inr ⟨hstate,rfl⟩))
      ⟨by simpa using hack,by omega⟩
  | closing =>
    have hno : acceptsFin s packet=false := by simp [haccepts,hstate]
    simp only [handlePacketClosing]
    split
    · next hack =>
      exact .finAcked .timeWait env.now hno (Or.inr (Or.inl ⟨hstate,rfl⟩)) hack
    · exact hignored hno
  | finWait2 =>
    simp only [handlePacketFinWait2]
    split
    · next hfin => exact .finAnswered hstate (by simp [haccepts,hstate,hfin]) hport
    · next hfin => exact hignored (by simp [haccepts,hfin])
  | finWait1 =>
    simp only [handlePacketFinWait1]
    by_cases hack : (packet.has ackFlag &&
        decide (packet.ackNum > s.seqOfFirstSendWindow))=true
    · have hacks : packet.has ackFlag=true ∧ s.seqOfFirstSendWindow < packet.ackNum := by
        simpa using hack
      simp only [hack,if_true]
      split
      · next hfin =>
        exact .finTaken .timeWait env.now hstate (by simp [haccepts,hstate,hfin])
          (Or.inr ⟨rfl,hacks⟩)
      · next hfin =>
        exact .finAcked .finWait2 s.lastSendClock (by simp [haccepts,hfin])
          (Or.inl ⟨hstate,rfl⟩) hacks
    · simp only [hack,Bool.false_eq_true,if_false]
      split
      · next hfin =>
        exact .finTaken .closing s.lastSendClock hstate (by simp [haccepts,hstate,hfin])
          (Or.inl rfl)
      · next hfin => exact hignored (by simp [haccepts,hfin])

/-- All replies there are: a reset by a listening socket, an ACK for data in an
established connection, and an ACK for the FIN in FIN_WAIT_2. -/
theorem handlePacket_reply_cases {env : Env} {manager : NetworkManager} {s : Socket}
    {packet r : TCPPacket} {srcIp : CString}
    (hr : (handlePacket env manager s packet srcIp).reply=some r) :
    (s.state=.listen ∧ packet.has synFlag=true ∧ r=generateRstPacket s packet.srcPort) ∨
      (packet.srcPort=s.id.dstPort ∧ r=constructPacket (handlePacket env manager s packet
          srcIp).socket CString.empty ackFlag packet.srcPort ∧
        (s.state=.established ∧ packet.data≠none ∨
          s.state=.finWait2 ∧ packet.has finFlag=true)) := by
  by_cases hl : s.state=.listen
  · rw [handlePacket,if_neg (fun h => h.2 hl),if_neg (fun h => h.1 hl),hl] at hr
    exact Or.inl ⟨hl,handlePacketListen_reply hr⟩
  right
  have houtcome := handlePacket_outcome env manager packet srcIp hl
  generalize handlePacket env manager s packet srcIp=handled at houtcome hr ⊢
  cases houtcome with
  | taken hstate hport =>
    obtain ⟨hreply,hdata⟩ := handlePacketEstablished_reply hr
    exact ⟨hport,hreply,Or.inl ⟨hstate,hdata⟩⟩
  | finAnswered hstate haccepts hport =>
    exact ⟨hport,(Option.some.inj hr).symm,Or.inr ⟨hstate,(acceptsFin_cases haccepts).1⟩⟩
  | ignored | reset | connected | accepted | finished | finAcked | finTaken => cases hr

/-- In every other state no packet is replied to. -/
theorem handlePacket_silent (env : Env) (manager : NetworkManager) {s : Socket}
    (packet : TCPPacket) (srcIp : CString)
    (hstate : s.state≠.listen ∧ s.state≠.established ∧ s.state≠.finWait2) :
    (handlePacket env manager s packet srcIp).reply=none := by
  by_contra hsome
  obtain ⟨r,hr⟩ := Option.ne_none_iff_exists'.mp hsome
  rcases handlePacket_reply_cases hr with ⟨hs,_⟩|⟨_,_,⟨hs,_⟩|⟨hs,_⟩⟩
  all_goals simp [hs] at hstate

/-- The acknowledgement loop drops as many bytes as are acknowledged and
there, and moves the first sequence number by as many. -/
theorem acknowledge_spec (ackNum : ℤ) (n : ℕ) (socket : Socket) :
    ∃ j q,acknowledge ackNum n socket={socket with
        sendWindow := q
        seqOfFirstSendWindow := socket.seqOfFirstSendWindow+(j : ℕ)} ∧
      q.toList=socket.sendWindow.toList.drop j ∧
      j=min (min n socket.sendWindow.size) (ackNum-socket.seqOfFirstSendWindow).toNat := by
  induction n generalizing socket with
  | zero => exact ⟨0,socket.sendWindow,by simp [acknowledge],rfl,by simp⟩
  | succ n ih =>
    rw [acknowledge]
    by_cases h : socket.seqOfFirstSendWindow < ackNum ∧ socket.sendWindow.queueIsEmpty=false
    · rw [if_pos h]
      obtain ⟨j,q,he,hq,hj⟩ := ih {socket with
        sendWindow := socket.sendWindow.dequeue.2
        seqOfFirstSendWindow := socket.seqOfFirstSendWindow+1}
      have hlist := dequeue_toList h.2
      have hsize : socket.sendWindow.size=socket.sendWindow.dequeue.2.size+1 := by
        rw [←length_toList,hlist,List.length_cons,length_toList]
      refine ⟨j+1,q,?_,?_,?_⟩
      · rw [he]
        simp only [Nat.cast_add,Nat.cast_one,Socket.mk.injEq,true_and,and_true]
        omega
      · rw [hq,hlist,List.drop_succ_cons]
      · simp only at hj
        omega
    · rw [if_neg h]
      refine ⟨0,socket.sendWindow,by simp,rfl,?_⟩
      rw [not_and_or] at h
      rcases h with h|h
      · omega
      · have hempty : socket.sendWindow.size=0 := by
          have hb : socket.sendWindow.queueIsEmpty=true := by simpa using h
          rw [←length_toList,(queueIsEmpty_iff _).mp hb,List.length_nil]
        omega

/-- A packet acknowledges some first bytes of the window, or none; the end of
the window stays where it is. -/
theorem acknowledged_cases (taken : Prop) [Decidable taken] (ackNum : ℤ) (s : Socket) :
    ∃ j q,(if taken then acknowledge ackNum s.sendWindow.size s else s)={s with
        sendWindow := q
        seqOfFirstSendWindow := s.seqOfFirstSendWindow+(j : ℕ)} ∧
      q.toList=s.sendWindow.toList.drop j ∧ q.size+j=s.sendWindow.size ∧
      (0 < j → s.seqOfFirstSendWindow+(j : ℕ) ≤ ackNum) := by
  split
  · obtain ⟨j,q,he,hq,hj⟩ := acknowledge_spec ackNum s.sendWindow.size s
    refine ⟨j,q,he,hq,?_,fun _ => by omega⟩
    rw [←length_toList,hq,List.length_drop,length_toList]
    omega
  · exact ⟨0,s.sendWindow,by simp,rfl,rfl,fun h => absurd h (Nat.lt_irrefl 0)⟩

/-- Storing a byte touches nothing but the two arrays of the window. -/
theorem storeByte_frame (currentByteSeq : ℤ) (b : Byte) (socket : Socket) :
    ∃ cells valid,storeByte currentByteSeq b socket=
      {socket with recvWindow := cells,recvWindowIsvalid := valid} := by
  unfold storeByte
  dsimp only
  split
  · split
    · exact ⟨_,_,rfl⟩
    · exact ⟨_,_,rfl⟩
  · exact ⟨_,_,rfl⟩

/-- Storing a byte that is the stream's at its sequence number keeps the
window in agreement with the stream. -/
theorem storeByte_agrees {stream : List Byte} {base : ℤ} {offset k : ℕ} {b : Byte}
    {socket : Socket} (hf : socket.seqOfFirstRecvWindow=base+offset)
    (ha : Agrees stream offset socket.recvWindow socket.recvWindowIsvalid)
    (hb : stream[k]?=some b) :
    Agrees stream offset (storeByte (base+k) b socket).recvWindow
      (storeByte (base+k) b socket).recvWindowIsvalid := by
  unfold storeByte
  dsimp only
  split
  · next hplace =>
    split
    · apply ha.store
      have hindex : offset+(base+k-socket.seqOfFirstRecvWindow).toNat=k := by omega
      rw [hindex,hb]
    · exact ha
  · exact ha

/-- The whole loop touches nothing but the two arrays of the window. -/
theorem storeBytes_frame (seqNum : ℤ) (bytes : List Byte) (socket : Socket) :
    ∃ cells valid,storeBytes seqNum bytes socket=
      {socket with recvWindow := cells,recvWindowIsvalid := valid} := by
  induction bytes generalizing seqNum socket with
  | nil => exact ⟨_,_,rfl⟩
  | cons b rest ih =>
    obtain ⟨cells,valid,hb⟩ := storeByte_frame seqNum b socket
    obtain ⟨cells',valid',hr⟩ := ih (seqNum+1) (storeByte seqNum b socket)
    exact ⟨cells',valid',by rw [storeBytes,hr,hb]⟩

/-- Storing a segment of the stream keeps the window in agreement with it. -/
theorem storeBytes_agrees {stream : List Byte} {base : ℤ} {offset k : ℕ} {bytes : List Byte}
    {socket : Socket} (hf : socket.seqOfFirstRecvWindow=base+offset)
    (ha : Agrees stream offset socket.recvWindow socket.recvWindowIsvalid)
    (hs : ∀ i b,bytes[i]?=some b → stream[k+i]?=some b) :
    Agrees stream offset (storeBytes (base+k) bytes socket).recvWindow
      (storeBytes (base+k) bytes socket).recvWindowIsvalid := by
  induction bytes generalizing k socket with
  | nil => exact ha
  | cons b rest ih =>
    have hb : stream[k]?=some b := by simpa using hs 0 b rfl
    obtain ⟨cells,valid,hframe⟩ := storeByte_frame (base+k) b socket
    have hplace : (storeByte (base+k) b socket).seqOfFirstRecvWindow=base+offset := by
      rw [hframe]
      exact hf
    have hrest : ∀ i c,rest[i]?=some c → stream[k+1+i]?=some c := by
      intro i c hc
      have := hs (i+1) c (by simpa using hc)
      rwa [show k+1+i=k+(i+1) by omega]
    have hnext := ih hplace (storeByte_agrees hf ha hb) hrest
    have hcast : (base+(k : ℤ))+1=base+((k+1 : ℕ) : ℤ) := by
      push_cast
      ring
    rw [storeBytes,hcast]
    exact hnext

/-- Handing bytes to the user moves the first expected number by as many
bytes as were written, out of the valid run of the window. -/
theorem updateRecvWindow_spec (env : Env) (socket : Socket) :
    ∃ cells valid,∃ n ≤ filled socket.recvWindowIsvalid,
      updateRecvWindow env socket=({socket with
        seqOfFirstRecvWindow := socket.seqOfFirstRecvWindow+(n : ℕ)
        recvWindow := cells
        recvWindowIsvalid := valid},(List.ofFn socket.recvWindow).take n) ∧
      ∀ stream offset,Agrees stream offset socket.recvWindow socket.recvWindowIsvalid →
        Agrees stream (offset+n) cells valid := by
  unfold updateRecvWindow writeStringToFifoName
  dsimp only
  cases env.taken with
  | none =>
    refine ⟨socket.recvWindow,socket.recvWindowIsvalid,0,Nat.zero_le _,?_,fun _ _ h => h⟩
    simp only [Option.map_none,Nat.cast_zero,Int.add_zero,List.take_zero]
  | some n =>
    exact ⟨_,_,min n (filled socket.recvWindowIsvalid),Nat.min_le_right _ _,rfl,
      fun _ _ h => h.shift _⟩

/-- Data touch nothing but the receive window. -/
theorem receiveNewData_frame (env : Env) (s : Socket) (packet : TCPPacket) (data : CString) :
    ∃ next cells valid,(receiveNewData env s packet data).1={s with
      seqOfFirstRecvWindow := next
      recvWindow := cells
      recvWindowIsvalid := valid} := by
  obtain ⟨_,_,hstore⟩ := storeBytes_frame packet.seqNum data.chars s
  obtain ⟨_,_,_,_,hupdate,_⟩ := updateRecvWindow_spec env (storeBytes packet.seqNum data.chars s)
  exact ⟨_,_,_,by rw [receiveNewData,hupdate,hstore]⟩

/-- Without a FIN the handler of the established state acknowledges, unless
there is a SYN, and touches nothing else but the receive window. -/
theorem handlePacketEstablished_frame (env : Env) (manager : NetworkManager) (s : Socket)
    {packet : TCPPacket} (hfin : packet.has finFlag=false) :
    ∃ next cells valid,(handlePacketEstablished env manager s packet).socket=
      {(if packet.has synFlag=false ∧ packet.has ackFlag=true then
        acknowledge packet.ackNum s.sendWindow.size s else s) with
        seqOfFirstRecvWindow := next
        recvWindow := cells
        recvWindowIsvalid := valid} := by
  unfold handlePacketEstablished
  cases hsyn : packet.has synFlag with
  | true => exact ⟨_,_,_,rfl⟩
  | false =>
    simp only [hfin,Bool.false_eq_true,if_false,true_and]
    cases packet.data with
    | none => exact ⟨_,_,_,rfl⟩
    | some data => exact receiveNewData_frame env _ packet data

/-- What a packet built by a socket says about it: it acknowledges what the
socket has received, a FIN is built outside the established state only, and
data are the first bytes of the send window of an established socket. -/
structure Emits (socket : Socket) (packet : TCPPacket) : Prop where
  /-- The acknowledgement number is the next expected one. -/
  ack : packet.ackNum=socket.seqOfFirstRecvWindow
  /-- No FIN is sent while the connection is established. -/
  fin : packet.has finFlag=true → socket.state≠.established
  /-- Data stand at the front of the send window. -/
  data : ∀ d,packet.data=some d → d.chars≠[] → socket.state=.established ∧
    packet.seqNum=socket.seqOfFirstSendWindow ∧ d.chars<+:socket.sendWindow.toList

/-- Everything a step of a connected socket may do. The step may handle an
input packet, may accept it as a FIN, moves bytes from its user into the
send window, writes bytes to its user and emits packets. -/
structure SocketStep (s s' : Socket) (input : Option TCPPacket) (accepts : Bool)
    (moved written : List Byte) (out : List TCPPacket) : Prop where
  /-- The connection stays past its handshake. -/
  connected : Connected s'.state
  /-- An established state is never entered. -/
  stays : s'.state=.established → s.state=.established
  /-- The send window gains moved bytes and loses acknowledged ones. -/
  window : ∃ j : ℕ,s'.sendWindow.toList=(s.sendWindow.toList++moved).drop j ∧
    s.seqOfFirstSendWindow+j ≤ s'.seqOfFirstSendWindow ∧
    (s'.state=.established → s'.seqOfFirstSendWindow=s.seqOfFirstSendWindow+j) ∧
    (0 < j → s.state=.established ∧ ∃ p,input=some p ∧ s.seqOfFirstSendWindow+j ≤ p.ackNum)
  /-- Bytes are moved in an established connection only. -/
  moved_established : moved≠[] → s'.state=.established
  /-- Leaving the established state, other than by a reset, moves the first
  sequence number past the window; later steps never move it back. -/
  ends : s'.state≠.established → s'.state≠.closed →
    (s.state≠.established ∧ s.state≠.closed ∧ s.seqOfFirstSendWindow ≤ s'.seqOfFirstSendWindow) ∨
      s.seqOfFirstSendWindow+s.sendWindow.toList.length ≤ s'.seqOfFirstSendWindow
  /-- Emitted packets describe the socket after the step. -/
  emits : ∀ p∈out,Emits s' p
  /-- Only a FIN is accepted as one. -/
  accepts_input : accepts=true → ∃ p,input=some p ∧ p.has finFlag=true
  /-- A FIN accepted ends the established state. -/
  accepts_leaves : accepts=true → s'.state≠.established
  /-- Without a FIN, the next expected number counts the bytes written. -/
  recv : accepts=false → s'.seqOfFirstRecvWindow=s.seqOfFirstRecvWindow+written.length
  /-- Bytes are written to the user in an established connection only. -/
  written_established : written≠[] → s.state=.established
  /-- Against any stream that the input's data are a segment of, the bytes
  written continue the delivered prefix and the window stays in agreement. -/
  deliver : s.state=.established → ∀ (base : ℤ) (stream del : List Byte),del<+:stream →
    s.seqOfFirstRecvWindow=base+del.length →
    Agrees stream del.length s.recvWindow s.recvWindowIsvalid →
    (∀ p d,input=some p → p.data=some d → ∃ k : ℕ,p.seqNum=base+k ∧
      ∀ i b,d.chars[i]?=some b → stream[k+i]?=some b) →
    del++written<+:stream ∧ (s'.state=.established →
      Agrees stream (del++written).length s'.recvWindow s'.recvWindowIsvalid)

/-- A packet without data, built from the socket's own numbers. -/
theorem emits_of_empty {socket : Socket} {packet : TCPPacket}
    (ha : packet.ackNum=socket.seqOfFirstRecvWindow)
    (hf : packet.has finFlag=true → socket.state≠.established)
    (hd : packet.data=some CString.empty) : Emits socket packet where
  ack := ha
  fin := hf
  data := by
    intro d hdata hne
    rw [hd,Option.some.injEq] at hdata
    exact absurd (by rw [←hdata]; rfl) hne

@[simp] theorem constructPacket_has (socket : Socket) (data : CString) (flags : Byte)
    (dstPort : ℤ) (flag : Byte) :
    (constructPacket socket data flags dstPort).has flag=(flags &&& flag != 0) := rfl

/-- A packet without data and without FIN. -/
theorem emits_control {socket : Socket} {flags : Byte} (h : (flags &&& finFlag != 0)=false)
    (dstPort : ℤ) : Emits socket (constructPacket socket CString.empty flags dstPort) :=
  emits_of_empty rfl (fun hf => by rw [constructPacket_has,h] at hf; cases hf) rfl

/-- A step that changes neither windows nor numbers. It may change the state
within the closing states, or reset the connection. -/
theorem SocketStep.frame {s s' : Socket} {input : Option TCPPacket} {out : List TCPPacket}
    (hc : Connected s'.state) (hw : s'.sendWindow.toList=s.sendWindow.toList)
    (hs : s'.seqOfFirstSendWindow=s.seqOfFirstSendWindow)
    (hr : s'.seqOfFirstRecvWindow=s.seqOfFirstRecvWindow)
    (hcells : s'.recvWindow=s.recvWindow) (hvalid : s'.recvWindowIsvalid=s.recvWindowIsvalid)
    (hstate : s'.state=s.state ∨ s'.state=.closed ∨
      s'.state≠.established ∧ s.state≠.established ∧ s.state≠.closed)
    (hout : ∀ p∈out,Emits s' p) : SocketStep s s' input false [] [] out where
  connected := hc
  stays := by
    intro h
    rcases hstate with he|he|he
    · rwa [←he]
    · rw [he] at h
      cases h
    · exact absurd h he.1
  window := ⟨0,by simp [hw],by simp [hs],by simp [hs],by simp⟩
  moved_established := by simp
  ends := by
    intro h1 h2
    left
    rcases hstate with he|he|he
    · exact ⟨he ▸ h1,he ▸ h2,hs.ge⟩
    · exact absurd he h2
    · exact ⟨he.2.1,he.2.2,hs.ge⟩
  emits := hout
  accepts_input := by simp
  accepts_leaves := by simp
  recv := by simp [hr]
  written_established := by simp
  deliver := by
    intro _ base stream del hp _ ha _
    rw [List.append_nil,hcells,hvalid]
    exact ⟨hp,fun _ => ha⟩

/-- A step that accepts a FIN. -/
theorem SocketStep.accept {s s' : Socket} {p : TCPPacket} {out : List TCPPacket}
    (hc : Connected s'.state) (hne : s'.state≠.established) (hfin : p.has finFlag=true)
    (hw : s'.sendWindow.toList=s.sendWindow.toList)
    (hs : (s.state≠.established ∧ s.state≠.closed ∧
        s'.seqOfFirstSendWindow=s.seqOfFirstSendWindow) ∨
      s'.seqOfFirstSendWindow=s.seqOfFirstSendWindow+s.sendWindow.toList.length)
    (hout : ∀ p∈out,Emits s' p) : SocketStep s s' (some p) true [] [] out where
  connected := hc
  stays := fun h => absurd h hne
  window := by
    refine ⟨0,by simp [hw],?_,fun h => absurd h hne,by simp⟩
    rcases hs with ⟨_,_,hs⟩|hs <;> simp [hs]
  moved_established := by simp
  ends := by
    intro _ _
    rcases hs with ⟨h1,h2,hs⟩|hs
    · exact Or.inl ⟨h1,h2,hs.ge⟩
    · exact Or.inr hs.ge
  emits := hout
  accepts_input := fun _ => ⟨p,rfl,hfin⟩
  accepts_leaves := fun _ => hne
  recv := by simp
  written_established := by simp
  deliver := by
    intro _ base stream del hp _ _ _
    rw [List.append_nil]
    exact ⟨hp,fun h => absurd h hne⟩

/-- The clock of the last packet plays no part in what a step may do. -/
theorem SocketStep.clock {s s' : Socket} {input : Option TCPPacket} {accepts : Bool}
    {moved written : List Byte} {out : List TCPPacket}
    (h : SocketStep s s' input accepts moved written out) (now : ℤ) :
    SocketStep s {s' with lastSendClock := now} input accepts moved written out where
  connected := h.connected
  stays := h.stays
  window := h.window
  moved_established := h.moved_established
  ends := h.ends
  emits := fun p hp => ⟨(h.emits p hp).ack,(h.emits p hp).fin,(h.emits p hp).data⟩
  accepts_input := h.accepts_input
  accepts_leaves := h.accepts_leaves
  recv := h.recv
  written_established := h.written_established
  deliver := h.deliver

/-- Without a FIN the handler of the established state keeps the state. -/
theorem handlePacketEstablished_state (env : Env) (manager : NetworkManager) (s : Socket)
    {packet : TCPPacket} (hfin : packet.has finFlag=false) :
    (handlePacketEstablished env manager s packet).socket.state=s.state := by
  obtain ⟨_,_,_,hframe⟩ := handlePacketEstablished_frame env manager s hfin
  obtain ⟨_,_,hacked,_⟩ := acknowledged_cases
    (packet.has synFlag=false ∧ packet.has ackFlag=true) packet.ackNum s
  rw [hframe,hacked]

/-- An established socket that gets neither SYN nor FIN nor RST processes the
acknowledgement and then the data. -/
theorem handlePacketEstablished_step (env : Env) (manager : NetworkManager) {s : Socket}
    {packet : TCPPacket} (he : s.state=.established) (hsyn : packet.has synFlag=false)
    (hfin : packet.has finFlag=false) :
    SocketStep s (handlePacketEstablished env manager s packet).socket (some packet) false []
      (handlePacketEstablished env manager s packet).toUser
      (handlePacketEstablished env manager s packet).reply.toList := by
  obtain ⟨j,q,hacked,hq,_,hj⟩ := acknowledged_cases (packet.has ackFlag=true) packet.ackNum s
  have hwindow : ∃ i : ℕ,q.toList=(s.sendWindow.toList++[]).drop i ∧
      s.seqOfFirstSendWindow+i ≤ s.seqOfFirstSendWindow+j ∧
      (s.state=.established → s.seqOfFirstSendWindow+(j : ℤ)=s.seqOfFirstSendWindow+i) ∧
      (0 < i → s.state=.established ∧ ∃ p,some packet=some p ∧
        s.seqOfFirstSendWindow+i ≤ p.ackNum) :=
    ⟨j,by rw [List.append_nil,hq],le_rfl,fun _ => rfl,fun h => ⟨he,packet,rfl,hj h⟩⟩
  unfold handlePacketEstablished
  simp only [hsyn,hfin,Bool.false_eq_true,if_false,hacked]
  cases hdata : packet.data with
  | none =>
    exact {
      connected := by
        rw [Connected]
        simp [quiet,he]
      stays := fun h => h
      window := hwindow
      moved_established := by simp
      ends := fun h => absurd he h
      emits := by simp [quiet]
      accepts_input := by simp
      accepts_leaves := by simp
      recv := by simp [quiet]
      written_established := by simp [quiet]
      deliver := by
        intro _ base stream del hp _ ha _
        simp only [quiet,List.append_nil]
        exact ⟨hp,fun _ => ha⟩}
  | some data =>
    simp only
    obtain ⟨cells,valid,hstore⟩ := storeBytes_frame packet.seqNum data.chars {s with
      sendWindow := q
      seqOfFirstSendWindow := s.seqOfFirstSendWindow+(j : ℤ)}
    obtain ⟨cells',valid',n,hn,hupdate,hshift⟩ := updateRecvWindow_spec env
      (storeBytes packet.seqNum data.chars {s with
        sendWindow := q
        seqOfFirstSendWindow := s.seqOfFirstSendWindow+(j : ℤ)})
    rw [receiveNewData,hupdate,hstore]
    rw [hstore] at hn hshift
    simp only at hn hshift
    have hlen : ((List.ofFn cells).take n).length=n := by
      have := filled_le valid
      rw [List.length_take,List.length_ofFn]
      omega
    exact {
      connected := by
        rw [Connected]
        simp [he]
      stays := fun h => h
      window := hwindow
      moved_established := by simp
      ends := fun h => absurd he h
      emits := by
        intro p hp
        simp only [Option.toList_some,List.mem_singleton] at hp
        subst hp
        exact emits_control (by decide) _
      accepts_input := by simp
      accepts_leaves := by simp
      recv := by
        intro _
        rw [hlen]
      written_established := fun _ => he
      deliver := by
        intro _ base stream del hp hf ha hin
        obtain ⟨k,hk,hseg⟩ := hin packet data rfl hdata
        have hagree : Agrees stream del.length
            (storeBytes (base+k) data.chars {s with
              sendWindow := q
              seqOfFirstSendWindow := s.seqOfFirstSendWindow+(j : ℤ)}).recvWindow
            (storeBytes (base+k) data.chars {s with
              sendWindow := q
              seqOfFirstSendWindow := s.seqOfFirstSendWindow+(j : ℤ)}).recvWindowIsvalid :=
          storeBytes_agrees hf ha hseg
        rw [←hk,hstore] at hagree
        refine ⟨Agrees.deliver hp hagree hn,fun _ => ?_⟩
        rw [List.length_append,hlen]
        exact hshift stream del.length hagree}

/-- A handler that only moves within the closing states, and answers nothing. -/
theorem quiet_step (manager : NetworkManager) {s s' : Socket} {input : Option TCPPacket}
    (hc : Connected s'.state) (hs : s'=s ∨ s'={s with state := s'.state} ∧
      (s'.state=.closed ∨ s'.state≠.established ∧ s.state≠.established ∧ s.state≠.closed)) :
    SocketStep s (quiet manager s').socket input false [] (quiet manager s').toUser
      (quiet manager s').reply.toList := by
  rcases hs with rfl|⟨he,hstate⟩
  · exact SocketStep.frame hc rfl rfl rfl rfl rfl (Or.inl rfl) (by simp)
  · have hfields : s'.sendWindow=s.sendWindow ∧
        s'.seqOfFirstSendWindow=s.seqOfFirstSendWindow ∧
        s'.seqOfFirstRecvWindow=s.seqOfFirstRecvWindow ∧ s'.recvWindow=s.recvWindow ∧
        s'.recvWindowIsvalid=s.recvWindowIsvalid := by
      rw [he]
      exact ⟨rfl,rfl,rfl,rfl,rfl⟩
    obtain ⟨hw,h1,h2,h3,h4⟩ := hfields
    exact SocketStep.frame hc (congrArg Queue.toList hw) h1 h2 h3 h4 (Or.inr hstate)
      (by simp)

/-- `handle_packet` on a connected socket, before the reply is handed on. -/
theorem handlePacket_socket_step (env : Env) (manager : NetworkManager) {s : Socket}
    (packet : TCPPacket) (srcIp : CString) (hc : Connected s.state) :
    SocketStep s (handlePacket env manager s packet srcIp).socket (some packet)
      (acceptsFin s packet) [] (handlePacket env manager s packet srcIp).toUser
      (handlePacket env manager s packet srcIp).reply.toList := by
  have houtcome := handlePacket_outcome env manager packet srcIp hc.1
  generalize handlePacket env manager s packet srcIp=handled at houtcome ⊢
  cases houtcome with
  | ignored hno files =>
    rw [hno]
    exact quiet_step _ hc (Or.inl rfl)
  | reset hrst =>
    rw [acceptsFin_of_reset hrst]
    exact quiet_step manager (by simp [Connected]) (Or.inr ⟨rfl,Or.inl rfl⟩)
  | connected hstate => exact absurd hstate hc.2.1
  | accepted hstate => exact absurd hstate hc.2.2
  | taken hstate _ hsyn hfin =>
    rw [acceptsFin_of_noFin hfin]
    exact handlePacketEstablished_step env manager hstate hsyn hfin
  | finished hstate haccepts =>
    rw [haccepts]
    exact SocketStep.accept (by simp [Connected]) (by simp) (acceptsFin_cases haccepts).1 rfl
      (Or.inr (by simp)) (by simp)
  | finAcked state clock hno hedge _ =>
    have hstep : SocketStep s (quiet manager {s with state := state}).socket (some packet)
        false [] [] [] := by
      rcases hedge with ⟨hs,rfl⟩|⟨hs,rfl⟩|⟨hs,rfl⟩
      · exact quiet_step manager (by simp [Connected]) (Or.inr ⟨rfl,Or.inr (by simp [hs])⟩)
      · exact quiet_step manager (by simp [Connected]) (Or.inr ⟨rfl,Or.inr (by simp [hs])⟩)
      · exact quiet_step manager (by simp [Connected]) (Or.inr ⟨rfl,Or.inl rfl⟩)
    rw [hno]
    exact hstep.clock clock
  | finTaken state clock hstate haccepts hedge =>
    have hafter : Connected state ∧ state≠.established := by
      rcases hedge with rfl|⟨rfl,_⟩
      · simp [Connected]
      · simp [Connected]
    rw [haccepts]
    exact SocketStep.accept hafter.1 hafter.2 (acceptsFin_cases haccepts).1 rfl
      (Or.inl (by simp [hstate])) (by simp)
  | finAnswered hstate haccepts _ =>
    rw [haccepts]
    refine SocketStep.accept (by simp [Connected]) (by simp) (acceptsFin_cases haccepts).1 rfl
      (Or.inl (by simp [hstate])) ?_
    intro p hp
    simp only [Option.toList_some,List.mem_singleton] at hp
    subst hp
    exact emits_control (by decide) _

/-- `handle_packet` on a connected socket, with its reply handed on. -/
theorem handlePacket_step (env : Env) (manager : NetworkManager) {s : Socket}
    (packet : TCPPacket) (srcIp : CString) (hc : Connected s.state) :
    SocketStep s ((handlePacket env manager s packet srcIp).afterReply env) (some packet)
      (acceptsFin s packet) [] (handlePacket env manager s packet srcIp).toUser
      (handlePacket env manager s packet srcIp).reply.toList := by
  unfold Handled.afterReply
  split
  · exact (handlePacket_socket_step env manager packet srcIp hc).clock env.now
  · exact handlePacket_socket_step env manager packet srcIp hc

/-- A step that closes the socket's own direction: the first sequence number
goes past the window, which keeps its bytes. -/
theorem SocketStep.finish {s s' : Socket} (hc : Connected s'.state) (hne : s'.state≠.established)
    (hw : s'.sendWindow=s.sendWindow)
    (hs : s'.seqOfFirstSendWindow=s.seqOfFirstSendWindow+s.sendWindow.size)
    (hr : s'.seqOfFirstRecvWindow=s.seqOfFirstRecvWindow) :
    SocketStep s s' none false [] [] [] where
  connected := hc
  stays := fun h => absurd h hne
  window := ⟨0,by simp [hw],by simp [hs],fun h => absurd h hne,by simp⟩
  moved_established := by simp
  ends := fun _ _ => Or.inr (by rw [hs,length_toList])
  emits := by simp
  accepts_input := by simp
  accepts_leaves := by simp
  recv := by simp [hr]
  written_established := by simp
  deliver := by
    intro _ base stream del hp _ _ _
    rw [List.append_nil]
    exact ⟨hp,fun h => absurd h hne⟩

/-- `check_and_handle_send_window` on a connected socket. -/
theorem checkAndHandleSendWindow_step (env : Env) {s : Socket} (hc : Connected s.state) :
    SocketStep s (checkAndHandleSendWindow env s).socket none false
      (checkAndHandleSendWindow env s).moved []
      ((checkAndHandleSendWindow env s).attempts.map Prod.fst) := by
  rcases checkAndHandleSendWindow_cases env s with he|⟨hstate,q,clock,data,hlist,hdata,he⟩
  · rw [he]
    exact SocketStep.frame hc rfl rfl rfl rfl rfl (Or.inl rfl) (by simp [idle])
  have hstep : SocketStep s {s with sendWindow := q} none false [] []
      [constructPacket s data ackFlag s.id.dstPort] := by
    refine SocketStep.frame hc hlist rfl rfl rfl rfl (Or.inl rfl) ?_
    intro p hp
    rw [List.mem_singleton] at hp
    subst hp
    refine ⟨rfl,fun hf => ?_,fun d hd _ => ⟨hstate,rfl,?_⟩⟩
    · rw [constructPacket_has] at hf
      exact absurd hf (by decide)
    · obtain rfl : data=d := by simpa only [constructPacket,Option.some.injEq] using hd
      rw [hlist]
      exact hdata
  rw [he]
  exact hstep.clock clock

/-- The packets of the timer pass describe the socket. -/
theorem emits_status {s t : Socket} {p : TCPPacket} (h : StatusPacket s p)
    (hnext : t.seqOfFirstRecvWindow=s.seqOfFirstRecvWindow)
    (hstate : t.state=.established → s.state=.established) : Emits t p := by
  have hcontrol : ∀ flags,s.state≠.established → Emits t (bareControl s flags) :=
    fun flags hne => emits_of_empty hnext.symm (fun _ he => hne (hstate he)) rfl
  cases h with
  | syn | synAck =>
    exact emits_of_empty hnext.symm (fun hf => absurd hf (by
      rw [handshakePacket,constructPacket_has]
      decide)) rfl
  | reset hs => exact hcontrol _ (by rcases hs with hs|hs <;> simp [hs])
  | fin hs | finAck hs => exact hcontrol _ (by simp [hs])

/-- `check_and_handle_outgoing_status_messages` on a connected socket. -/
theorem checkAndHandleOutgoingStatusMessages_step (env : Env) {s : Socket}
    (hc : Connected s.state) :
    SocketStep s (checkAndHandleOutgoingStatusMessages env s).socket none false
      (checkAndHandleOutgoingStatusMessages env s).moved []
      ((checkAndHandleOutgoingStatusMessages env s).attempts.map Prod.fst) := by
  have houtcome := checkAndHandleOutgoingStatusMessages_outcome env s
  generalize checkAndHandleOutgoingStatusMessages env s=passed at houtcome ⊢
  cases houtcome with
  | sends clock attempts hpackets =>
    have hstep : SocketStep s s none false [] [] (attempts.map Prod.fst) :=
      SocketStep.frame hc rfl rfl rfl rfl rfl (Or.inl rfl)
        (fun p hp => emits_status (hpackets p hp) rfl id)
    exact hstep.clock clock
  | timedOut hstate _ attempts hpackets =>
    have hne : s.state≠.established ∧ s.state≠.closed := by
      rcases hstate with hs|hs <;> simp [hs]
    refine SocketStep.frame (by simp [Connected]) rfl rfl rfl rfl rfl
      (Or.inr (Or.inr ⟨by simp,hne⟩)) ?_
    exact fun p hp => emits_status (hpackets p hp) rfl (by simp)
  | finishes hstate =>
    exact SocketStep.finish (by simp [Connected,idle]) (by simp [idle]) rfl rfl rfl
  | expires hstate =>
    exact SocketStep.frame (by simp [Connected,idle]) rfl rfl rfl rfl rfl
      (Or.inr (Or.inl (by simp [idle]))) (by simp [idle])
  | moves hstate q moved left hlist =>
    exact {
      connected := hc
      stays := id
      window := ⟨0,by rw [List.drop_zero,hlist],by simp,by simp,by simp⟩
      moved_established := fun _ => hstate
      ends := fun h => absurd hstate h
      emits := by simp
      accepts_input := by simp
      accepts_leaves := by simp
      recv := by simp
      written_established := by simp
      deliver := by
        intro _ base stream del hp _ ha _
        rw [List.append_nil]
        exact ⟨hp,fun _ => ha⟩}

/-- A close command closes the socket's own direction. -/
theorem closeCommand_step (env : Env) (s : Socket) :
    SocketStep s (closeCommand env s) none false [] [] [] :=
  SocketStep.finish (by simp [Connected,closeCommand]) (by simp [closeCommand]) rfl rfl rfl

end NetworkLayer.SocketSteps
