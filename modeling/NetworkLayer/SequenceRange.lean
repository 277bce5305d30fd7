import NetworkLayer.Endpoints
import NetworkLayer.NumberMoves
import NetworkLayer.PacketDispatch
import NetworkLayer.SocketRequests

/-!
# Sequence arithmetic and the range of `int`

A connection starts with a connect request and the SYN it sends. The client
counts from at most 2000 on, the listening socket's side from any value of
`rand`. Every byte moves a counter up, and a checksum adds two counters and
both ports as `int`s. While the ends of both send windows and the ports leave
ten below the greatest `int`, nothing either side computes is out of range.
-/

namespace NetworkLayer.SequenceRange

open ByteStrings FormattedText ArrayQueue UtilTypes FifoUtils TcpPackets PacketHandlers
open SocketPasses SocketSteps SocketRequests PacketDispatch Endpoints NumberMoves StepRuns

/-- An exact result that an `int` can hold. -/
def InInt (v : ℤ) : Prop := intMin ≤ v ∧ v ≤ intMax

/-- The number of a packet and the sums of its checksum, from left to right. -/
def packetInts (packet : TCPPacket) : List ℤ :=
  let ports := packet.srcPort+packet.dstPort
  [packet.seqNum,ports,ports+packet.seqNum,ports+packet.seqNum+packet.ackNum,
    checksumSum packet]

/-- Both counters of a socket. -/
def counters (s : Socket) : List ℤ := [s.seqOfFirstSendWindow,s.seqOfFirstRecvWindow]

/-- The values that `seq_of_first_send_window++` gives in the acknowledgement
loop. -/
def acknowledgeInts (ackNum : ℤ) : ℕ → Socket → List ℤ
  | 0,_ => []
  | n+1,socket =>
    if socket.seqOfFirstSendWindow < ackNum ∧ socket.sendWindow.queueIsEmpty=false then
      (socket.seqOfFirstSendWindow+1)::acknowledgeInts ackNum n {socket with
        sendWindow := socket.sendWindow.dequeue.2
        seqOfFirstSendWindow := socket.seqOfFirstSendWindow+1}
    else []

/-- The values of `packet->seq_num + i` in the loop over the data. -/
def dataInts (packet : TCPPacket) : List ℤ :=
  match packet.data with
  | none => []
  | some data => (List.range data.strlen).map fun i : ℕ => packet.seqNum+i

/-- Whether the handler of the established state gets to its loops. -/
def takesData (socket : Socket) (packet : TCPPacket) : Bool :=
  decide (socket.state=.established) && !packet.has rstFlag &&
    decide (packet.srcPort=socket.id.dstPort) && !packet.has synFlag && !packet.has finFlag

/-- What is computed with sequence numbers for a packet: its checksum is
checked, a handler runs, and the reply gets a checksum. -/
def receiptInts (env : Env) (manager : NetworkManager) (socket : Socket) (packet : TCPPacket) :
    List ℤ :=
  let handled := handlePacket env manager socket packet socket.id.srcIp
  packetInts packet++
    (if takesData socket packet=true then
      (if packet.has ackFlag=true then
        acknowledgeInts packet.ackNum socket.sendWindow.size socket else [])++dataInts packet
    else [])++
    counters handled.socket++handled.reply.toList.flatMap packetInts

/-- What is computed with sequence numbers in a pass. -/
def passInts (passed : Passed) : List ℤ :=
  counters passed.socket++(passed.attempts.map Prod.fst).flatMap packetInts

/-- What is computed with sequence numbers in a step. -/
def computedInts (w : World) (action : Action) : List ℤ :=
  match action with
  | .receive side _ env manager =>
    match w.input action with
    | none => []
    | some packet => receiptInts env manager (w side).socket packet
  | .sendWindow side env => passInts (checkAndHandleSendWindow env (w side).socket)
  | .statusMessages side env =>
    passInts (checkAndHandleOutgoingStatusMessages env (w side).socket)
  | .close side env => counters (closeCommand env (w side).socket)

/-- An acknowledgement removes the bytes numbered below it and no others. -/
def RemovesAcknowledged (w : World) (action : Action) : Prop :=
  ∀ side packet,Receives w action side packet → takesData (w side).socket packet=true →
    packet.has ackFlag=true → ∃ j : ℕ,
      (w.step action side).socket.sendWindow.toList=(w side).socket.sendWindow.toList.drop j ∧
      (w.step action side).socket.seqOfFirstSendWindow=
        (w side).socket.seqOfFirstSendWindow+j ∧
      ∀ k < (w side).socket.sendWindow.size,k < j ↔
        (w side).socket.seqOfFirstSendWindow+(k : ℕ) < packet.ackNum

/-- The ends of both send windows and the ports leave ten below the greatest
`int`: nine for the flags and one for a FIN. -/
def Fits (w : World) : Prop :=
  topNumber (w .left).socket+topNumber (w .right).socket+
    ((w .left).socket.id.srcPort+(w .right).socket.id.srcPort)+10 ≤ intMax

/-- Both ends after a connect request and the SYN it sends: the bound socket
is connecting as `check_and_handle_connect_request` leaves it, and the
listening socket has made the connection of `handle_packet_listen`. -/
def opening (connectEnv listenEnv : Env) (bound listener : Socket) (dstIp srcIp : CString) : World :=
  let client := connecting connectEnv bound dstIp listener.id.srcPort
  let syn := handshakePacket client synFlag
  fun
    | .left => ⟨client,[],[],[syn],[syn],[]⟩
    | .right => ⟨newConnection listenEnv listener (asReceived syn) srcIp,[],[],[],[],[]⟩

/-- What is computed with sequence numbers on the way there. -/
def openingInts (w : World) : List ℤ :=
  counters (w .left).socket++(w .left).emitted.flatMap packetInts++counters (w .right).socket

/-- The windows of a socket that was never connected. -/
structure Unused (s : Socket) : Prop where
  /-- Nothing is enqueued. -/
  sendWindow : s.sendWindow.size=0
  /-- Nothing was received. -/
  recvWindow : ∀ i,s.recvWindowIsvalid i=false

/-- A port that a socket can have. -/
def IsPort (port : ℤ) : Prop := 1 ≤ port ∧ port ≤ 65535

/-- What a packet in flight says, with the ends of the sender's window and of
its peer's. -/
structure PacketWithin (ports sndTop rcvTop : ℤ) (packet : TCPPacket) : Prop where
  /-- Its ports are at most those of the connection. -/
  ports : 0 ≤ packet.srcPort+packet.dstPort ∧ packet.srcPort+packet.dstPort ≤ ports
  /-- Its bytes are in the sender's window or before it. -/
  below : NumberedBelow sndTop packet
  /-- It acknowledges bytes of the peer and at most a FIN. -/
  ack : 0 ≤ packet.ackNum ∧ packet.ackNum ≤ rcvTop+1
  /-- At most two flags are set. -/
  flags : 0 ≤ charValue packet.flags ∧ charValue packet.flags ≤ 9

/-- The direction from `snd` to `rcv`. -/
structure Within (ports : ℤ) (snd rcv : Endpoint) : Prop where
  /-- The sender counts from zero or above. -/
  first : 0 ≤ snd.socket.seqOfFirstSendWindow
  /-- Its ports are those of the connection, or the partner's is blanked. -/
  id : 0 ≤ snd.socket.id.srcPort ∧ 0 ≤ snd.socket.id.dstPort ∧
    snd.socket.id.srcPort+snd.socket.id.dstPort ≤ ports
  /-- The connection is between the own ports of both ends. -/
  between : snd.socket.id.srcPort+rcv.socket.id.srcPort=ports
  /-- The sender is no listening socket. -/
  listens : snd.socket.state≠.listen
  /-- The receiver has received bytes of the sender's window or before it. -/
  received : ReceivedBelow (topNumber snd.socket) rcv.socket
  /-- So are the bytes of all packets in flight. -/
  packets : ∀ p∈snd.emitted,PacketWithin ports (topNumber snd.socket) (topNumber rcv.socket) p
  /-- What reached the network was emitted. -/
  sent : ∀ p∈snd.sent,p∈snd.emitted

/-- One end moves, and its history with it. -/
structure EndMove (e e' : Endpoint) (received : Option TCPPacket) (out : List TCPPacket) :
    Prop where
  /-- Its socket moves. -/
  numbers : NumbersMove e.socket e'.socket received out
  /-- The packets it builds are emitted. -/
  emitted : e'.emitted=e.emitted++out
  /-- Some of them reach the network. -/
  sent : ∀ p∈e'.sent,p∈e.sent ∨ p∈out

/-- A later end of a window admits what an earlier one does. -/
theorem receivedBelow_mono {bound bound' : ℤ} {s : Socket} (h : ReceivedBelow bound s)
    (hle : bound ≤ bound') : ReceivedBelow bound' s where
  next := ⟨h.next.1,h.next.2.trans (by omega)⟩
  fresh := h.fresh
  cells := fun he i hi => (h.cells he i hi).trans_le hle

/-- A packet within a window is within every later one. -/
theorem PacketWithin.mono {ports sndTop rcvTop sndTop' rcvTop' : ℤ} {packet : TCPPacket}
    (h : PacketWithin ports sndTop rcvTop packet) (hsnd : sndTop ≤ sndTop')
    (hrcv : rcvTop ≤ rcvTop') : PacketWithin ports sndTop' rcvTop' packet where
  ports := h.ports
  below := ⟨⟨h.below.number.1,h.below.number.2.trans hsnd⟩,
    fun d hd => (h.below.data d hd).trans hsnd⟩
  ack := ⟨h.ack.1,h.ack.2.trans (by omega)⟩
  flags := h.flags

/-- It arrives as such. -/
theorem PacketWithin.asReceived {ports sndTop rcvTop : ℤ} {packet : TCPPacket}
    (h : PacketWithin ports sndTop rcvTop packet) :
    PacketWithin ports sndTop rcvTop (asReceived packet) where
  ports := h.ports
  below := ⟨h.below.number,fun d hd => h.below.data d (Option.filter_eq_some_iff.mp hd).1⟩
  ack := h.ack
  flags := h.flags

/-- All sums for a packet within windows that fit are in range. -/
theorem PacketWithin.inInt {ports sndTop rcvTop : ℤ} {packet : TCPPacket}
    (h : PacketWithin ports sndTop rcvTop packet) (hports : 0 ≤ ports) (hsnd : 0 ≤ sndTop)
    (hrcv : 0 ≤ rcvTop) (hfits : sndTop+rcvTop+ports+10 ≤ intMax) :
    ∀ v∈packetInts packet,InInt v := by
  obtain ⟨hp,⟨hn,_⟩,ha,hf⟩ := h
  intro v hv
  simp only [packetInts,checksumSum,List.mem_cons,List.not_mem_nil,or_false] at hv
  unfold InInt intMin
  rcases hv with rfl|rfl|rfl|rfl|rfl
  all_goals omega

/-- The acknowledgement loop counts within the window. -/
theorem acknowledgeInts_within (ackNum : ℤ) (n : ℕ) (s : Socket) :
    ∀ v∈acknowledgeInts ackNum n s,s.seqOfFirstSendWindow < v ∧ v ≤ topNumber s := by
  induction n generalizing s with
  | zero => simp [acknowledgeInts]
  | succ n ih =>
    intro v hv
    rw [acknowledgeInts] at hv
    split at hv
    · next h =>
      have hlist := congrArg List.length (dequeue_toList h.2)
      rw [List.length_cons,length_toList,length_toList] at hlist
      rcases List.mem_cons.mp hv with rfl|hv
      · unfold topNumber
        omega
      · have hrest := ih _ v hv
        simp only [topNumber] at hrest ⊢
        omega
    · cases hv

section

variable {ports : ℤ} {snd rcv : Endpoint} {s' : Socket} {received : Option TCPPacket}
  {out : List TCPPacket}

/-- The end of a window is not negative. -/
theorem Within.top (h : Within ports snd rcv) : 0 ≤ topNumber snd.socket := by
  have := h.first
  unfold topNumber
  omega

/-- The packets that are built lie within the window before the step. -/
theorem Within.built (h : Within ports snd rcv) (hback : Within ports rcv snd)
    (hm : NumbersMove snd.socket s' received out)
    (hin : ∀ p,received=some p → NumberedBelow (topNumber rcv.socket) p) :
    ∀ p∈out,PacketWithin ports (topNumber snd.socket) (topNumber rcv.socket) p := by
  intro p hp
  have hb := hm.built p hp
  have hnext := (hm.received _ hback.received hin).next
  obtain ⟨d,hd,htop⟩ := hb.data
  obtain ⟨hsrc,hdst⟩ := hb.ports
  have hid := h.id
  have hfirst := h.first
  have hnumber := hb.number
  exact {
    ports := by
      rw [hsrc,hdst]
      omega
    below := {
      number := by omega
      data := by
        intro d' hd'
        obtain rfl : d=d' := by rwa [hd,Option.some.injEq] at hd'
        exact htop}
    ack := by
      rw [hb.ack]
      exact hnext
    flags := hb.flags}

/-- Both counters are within the windows before the step. -/
theorem Within.counters (h : Within ports snd rcv) (hback : Within ports rcv snd)
    (hm : NumbersMove snd.socket s' received out)
    (hin : ∀ p,received=some p → NumberedBelow (topNumber rcv.socket) p)
    (hfits : topNumber snd.socket+topNumber rcv.socket+ports+10 ≤ intMax) :
    ∀ v∈counters s',InInt v := by
  have hnext := (hm.received _ hback.received hin).next
  have hle := hm.first_le
  have htop := hm.le_top
  have hfirst := h.first
  have hrcv := hback.top
  have hid := h.id
  intro v hv
  simp only [SequenceRange.counters,List.mem_cons,List.not_mem_nil,or_false] at hv
  unfold InInt intMin
  unfold topNumber at *
  rcases hv with rfl|rfl
  · omega
  · omega

/-- The identity keeps its own port. -/
theorem srcPort_of_move (hm : NumbersMove snd.socket s' received out) :
    s'.id.srcPort=snd.socket.id.srcPort := by
  rcases hm.id with hid|hid
  · rw [hid]
  · rw [hid]
    rfl

/-- A step of the sender keeps the direction. -/
theorem Within.sender {snd' : Endpoint} (h : Within ports snd rcv) (hback : Within ports rcv snd)
    (hm : EndMove snd snd' received out)
    (hin : ∀ p,received=some p → NumberedBelow (topNumber rcv.socket) p) :
    Within ports snd' rcv where
  first := h.first.trans hm.numbers.first_le
  id := by
    have hid := h.id
    rcases hm.numbers.id with he|he
    · rwa [he]
    · rw [he]
      simp only [SocketID.boundOnly,emptyPort]
      omega
  between := by
    rw [srcPort_of_move hm.numbers]
    exact h.between
  listens := hm.numbers.listens h.listens
  received := receivedBelow_mono h.received hm.numbers.top_le
  packets := by
    intro p hp
    rw [hm.emitted,List.mem_append] at hp
    rcases hp with hp|hp
    · exact (h.packets p hp).mono hm.numbers.top_le le_rfl
    · exact (h.built hback hm.numbers hin p hp).mono hm.numbers.top_le le_rfl
  sent := by
    intro p hp
    rw [hm.emitted,List.mem_append]
    exact (hm.sent p hp).imp_left (h.sent p)

/-- A step of the receiver keeps the direction. -/
theorem Within.receiver {rcv' : Endpoint} (h : Within ports snd rcv)
    (hm : EndMove rcv rcv' received out)
    (hin : ∀ p,received=some p → NumberedBelow (topNumber snd.socket) p) :
    Within ports snd rcv' where
  first := h.first
  id := h.id
  between := by
    rw [srcPort_of_move hm.numbers]
    exact h.between
  listens := h.listens
  received := hm.numbers.received _ h.received hin
  packets := fun p hp => (h.packets p hp).mono le_rfl hm.numbers.top_le
  sent := h.sent

end

/-- Both directions. -/
def BothWithin (ports : ℤ) (w : World) : Prop := ∀ side : Side,Within ports (w side) (w side.other)

section

variable {ports : ℤ} {w : World}

/-- A packet that arrives was sent by the other end. -/
theorem BothWithin.arriving (h : BothWithin ports w) {side : Side} {p q : TCPPacket}
    (hq : q∈(w side.other).sent) (hp : p=asReceived q) :
    PacketWithin ports (topNumber (w side.other).socket) (topNumber (w side).socket) p := by
  have hback := h side.other
  rw [Side.other_other] at hback
  rw [hp]
  exact (hback.packets q (hback.sent q hq)).asReceived

/-- Every step leaves the world as it is or moves one end. -/
theorem BothWithin.step_cases (h : BothWithin ports w) (action : Action) :
    w.step action=w ∨ ∃ side after received out,
      w.step action=Function.update w side after ∧ EndMove (w side) after received out ∧
      ∀ p,received=some p → ∃ q∈(w side.other).sent,p=asReceived q := by
  have hpass : ∀ side (passed : Passed),NumbersMove (w side).socket passed.socket none
      (passed.attempts.map Prod.fst) →
      EndMove (w side) ((w side).pass passed) none (passed.attempts.map Prod.fst) := by
    intro side passed hm
    refine ⟨hm,rfl,?_⟩
    intro p hp
    exact (List.mem_append.mp hp).imp_right (sent_subset passed p)
  cases action with
  | receive side index env manager =>
    cases hpacket : (w side.other).sent[index]? with
    | none =>
      left
      simp only [World.step,hpacket]
    | some packet =>
      right
      refine ⟨side,(w side).receive env manager (asReceived packet),some (asReceived packet),_,
        by simp only [World.step,hpacket],
        ⟨afterReply_numbers env manager (asReceived packet) _ (h side).listens,rfl,?_⟩,?_⟩
      · intro p hp
        exact (List.mem_append.mp hp).imp_right (sentReply_subset env _ p)
      · intro p hp
        exact ⟨packet,List.mem_of_getElem? hpacket,(Option.some.inj hp).symm⟩
  | sendWindow side env =>
    exact Or.inr ⟨side,_,none,_,rfl,hpass side _ (checkAndHandleSendWindow_numbers env _),by simp⟩
  | statusMessages side env =>
    exact Or.inr ⟨side,_,none,_,rfl,
      hpass side _ (checkAndHandleOutgoingStatusMessages_numbers env _),by simp⟩
  | close side env =>
    refine Or.inr ⟨side,(w side).close env,none,[],rfl,
      ⟨closeCommand_numbers env (w side).socket,by simp [Endpoint.close],?_⟩,by simp⟩
    intro p hp
    exact Or.inl hp

/-- Every step keeps both directions. -/
theorem BothWithin.step (h : BothWithin ports w) (action : Action) :
    BothWithin ports (w.step action) := by
  rcases h.step_cases action with hsame|⟨side,after,received,out,hw,hm,hin⟩
  · rwa [hsame]
  have hbelow : ∀ p,received=some p → NumberedBelow (topNumber (w side.other).socket) p := by
    intro p hp
    obtain ⟨q,hq,hpq⟩ := hin p hp
    exact (h.arriving hq hpq).below
  have hback := h side.other
  rw [Side.other_other] at hback
  rw [hw]
  intro other
  by_cases ho : other=side
  · subst ho
    rw [Function.update_self,Function.update_of_ne (Side.other_ne other)]
    exact (h other).sender hback hm hbelow
  · obtain rfl : other=side.other := by
      cases other <;> cases side <;> simp_all [Side.other]
    rw [Function.update_of_ne ho,Side.other_other,Function.update_self]
    exact hback.receiver hm hbelow

/-- What fits is seen so from both sides. -/
theorem BothWithin.fits (h : BothWithin ports w) (hf : Fits w) (side : Side) :
    topNumber (w side).socket+topNumber (w side.other).socket+ports+10 ≤ intMax := by
  have hbetween := (h .left).between
  unfold Fits at hf
  simp only [Side.other] at hbetween
  cases side with
  | left =>
    simp only [Side.other]
    omega
  | right =>
    simp only [Side.other]
    omega

/-- The packets built in a step have all their sums in range. -/
theorem BothWithin.built_inInt (h : BothWithin ports w) (hf : Fits w) {side : Side} {s' : Socket}
    {received : Option TCPPacket} {out : List TCPPacket}
    (hm : NumbersMove (w side).socket s' received out)
    (hin : ∀ p,received=some p → NumberedBelow (topNumber (w side.other).socket) p) :
    ∀ v∈counters s'++out.flatMap packetInts,InInt v := by
  have hback := h side.other
  rw [Side.other_other] at hback
  have hid := (h side).id
  intro v hv
  rcases List.mem_append.mp hv with hv|hv
  · exact (h side).counters hback hm hin (h.fits hf side) v hv
  · obtain ⟨p,hp,hv⟩ := List.mem_flatMap.mp hv
    exact ((h side).built hback hm hin p hp).inInt (by omega) (h side).top hback.top
      (h.fits hf side) v hv

/-- Everything computed in a step is in range. -/
theorem BothWithin.computed_inInt (h : BothWithin ports w) (hf : Fits w) (action : Action) :
    ∀ v∈computedInts w action,InInt v := by
  cases action with
  | sendWindow side env =>
    exact h.built_inInt hf (checkAndHandleSendWindow_numbers env _) (by simp)
  | statusMessages side env =>
    exact h.built_inInt hf (checkAndHandleOutgoingStatusMessages_numbers env _) (by simp)
  | close side env =>
    intro v hv
    exact h.built_inInt hf (closeCommand_numbers env (w side).socket) (by simp) v
      (List.mem_append_left _ hv)
  | receive side index env manager =>
    intro v hv
    simp only [computedInts] at hv
    split at hv
    · cases hv
    next packet hinput =>
    obtain ⟨q,hq,hpacket⟩ := Option.map_eq_some_iff.mp hinput
    have hwithin := h.arriving (List.mem_of_getElem? hq) hpacket.symm
    have hback := h side.other
    rw [Side.other_other] at hback
    have hid := (h side).id
    have hfits := h.fits hf side
    have htop := (h side).top
    have hfirst := (h side).first
    have hm := handlePacket_numbers env manager packet (w side).socket.id.srcIp (h side).listens
    simp only [receiptInts,List.mem_append] at hv
    rcases hv with ((hv|hv)|hv)|hv
    · exact hwithin.inInt (by omega) hback.top htop (by omega) v hv
    · split at hv
      · rcases List.mem_append.mp hv with hv|hv
        · split at hv
          · have hrange := acknowledgeInts_within _ _ _ v hv
            unfold InInt intMin
            have := hback.top
            omega
          · cases hv
        · have hbelow := hwithin.below
          have := hback.top
          unfold dataInts at hv
          split at hv
          · cases hv
          · next d hd =>
            obtain ⟨i,hi,rfl⟩ := List.mem_map.mp hv
            have hlast := hbelow.data d hd
            have hnumber := hbelow.number
            rw [List.mem_range] at hi
            unfold InInt intMin
            omega
      · cases hv
    · exact h.built_inInt hf hm (by
        intro p hp
        obtain rfl := Option.some.inj hp
        exact hwithin.below) v (List.mem_append_left _ hv)
    · exact h.built_inInt hf hm (by
        intro p hp
        obtain rfl := Option.some.inj hp
        exact hwithin.below) v (List.mem_append_right _ hv)

end

/-- Data taken after an acknowledgement leave the send window as the loop
left it. -/
theorem handlePacketEstablished_acknowledged (env : Env) (manager : NetworkManager) {s : Socket}
    {packet : TCPPacket} (hsyn : packet.has synFlag=false) (hfin : packet.has finFlag=false)
    (hack : packet.has ackFlag=true) :
    let acked := acknowledge packet.ackNum s.sendWindow.size s
    let s' := (handlePacketEstablished env manager s packet).socket
    s'.sendWindow=acked.sendWindow ∧ s'.seqOfFirstSendWindow=acked.seqOfFirstSendWindow := by
  intro acked s'
  obtain ⟨_,_,_,hframe⟩ := handlePacketEstablished_frame env manager s hfin
  rw [if_pos ⟨hsyn,hack⟩] at hframe
  simp only [s']
  rw [hframe]
  exact ⟨rfl,rfl⟩

/-- The loop removes the bytes below the acknowledged number, in any world. -/
theorem removesAcknowledged (w : World) (action : Action) : RemovesAcknowledged w action := by
  intro side packet hr htakes hack
  obtain ⟨env,manager,hstep,_⟩ := hr.step
  simp only [takesData,Bool.and_eq_true,decide_eq_true_eq,Bool.not_eq_true'] at htakes
  obtain ⟨⟨⟨⟨hstate,hrst⟩,hport⟩,hsyn⟩,hfin⟩ := htakes
  obtain ⟨j,q,heq,hq,hj⟩ := acknowledge_spec packet.ackNum (w side).socket.sendWindow.size
    (w side).socket
  have hafter : (w.step action side).socket.sendWindow=q ∧
      (w.step action side).socket.seqOfFirstSendWindow=
        (w side).socket.seqOfFirstSendWindow+(j : ℕ) := by
    have hkeeps : ∀ handled : Handled,
        (handled.afterReply env).sendWindow=handled.socket.sendWindow ∧
        (handled.afterReply env).seqOfFirstSendWindow=handled.socket.seqOfFirstSendWindow := by
      intro handled
      unfold Handled.afterReply
      split
      · exact ⟨rfl,rfl⟩
      · exact ⟨rfl,rfl⟩
    have hacked := handlePacketEstablished_acknowledged env manager (s:=(w side).socket) hsyn hfin
      hack
    rw [heq] at hacked
    rw [hstep,Function.update_self]
    simp only [Endpoint.receive]
    rw [(hkeeps _).1,(hkeeps _).2,handlePacket,if_neg (by simp [hrst]),if_neg (by simp [hport])]
    simp only [hstate]
    exact hacked
  obtain ⟨hwindow,hfirst⟩ := hafter
  refine ⟨j,by rw [hwindow,hq],hfirst,?_⟩
  intro k hk
  omega

/-- The windows and packets of a connection that opens. -/
theorem opening_within (connectEnv listenEnv : Env) {bound listener : Socket}
    (dstIp srcIp : CString) (hunused : Unused bound) (hclient : IsPort bound.id.srcPort)
    (hserver : IsPort listener.id.srcPort) :
    BothWithin (bound.id.srcPort+listener.id.srcPort)
      (opening connectEnv listenEnv bound listener dstIp srcIp) := by
  obtain ⟨hc,_⟩ := hclient
  obtain ⟨hs,_⟩ := hserver
  have hsize := hunused.sendWindow
  have hrand : 0 ≤ (connectEnv.rand.val : ℤ)%2000 := Int.emod_nonneg _ (by decide)
  intro side
  cases side with
  | left =>
    exact {
      first := by simp only [opening,connecting]; omega
      id := by simp only [opening,connecting]; omega
      between := rfl
      listens := by simp [opening,connecting]
      received := {
        next := by
          simp only [opening,Side.other,newConnection,topNumber,connecting,asReceived,
            handshakePacket,constructPacket]
          omega
        fresh := fun _ _ => rfl
        cells := by simp [opening,Side.other,newConnection,createNewSocket]}
      packets := by
        intro p hp
        obtain rfl := List.mem_singleton.mp hp
        exact {
          ports := by simp only [handshakePacket,constructPacket,connecting]; omega
          below := {
            number := by
              simp only [opening,handshakePacket,constructPacket,connecting,topNumber]
              omega
            data := by
              intro d hd
              obtain rfl : CString.empty=d := by
                simpa only [handshakePacket,constructPacket,Option.some.injEq] using hd
              simp only [opening,handshakePacket,constructPacket,connecting,topNumber,
                CString.strlen,CString.empty,List.length_nil]
              omega}
          ack := by
            simp only [opening,Side.other,handshakePacket,constructPacket,connecting,topNumber,
              newConnection]
            omega
          flags := by simp only [handshakePacket,constructPacket]; decide}
      sent := fun p hp => hp}
  | right =>
    exact {
      first := by simp only [opening,newConnection]; omega
      id := by
        simp only [opening,newConnection,createNewSocket,connectionId,asReceived,
          handshakePacket,constructPacket,connecting]
        omega
      between := add_comm _ _
      listens := by simp [opening,newConnection,createNewSocket]
      received := {
        next := by
          simp only [opening,Side.other,newConnection,topNumber,connecting]
          omega
        fresh := fun _ => hunused.recvWindow
        cells := by simp [opening,Side.other,connecting]}
      packets := by simp [opening]
      sent := by simp [opening]}

/-- Every connection that opens, with any numbers that `rand` gives, and every
run of both ends and the network between them: while the windows and the ports
fit before each step, nothing that a step computes with sequence numbers is
out of the range of `int`, and acknowledgements remove exactly the bytes
below them. -/
theorem ints_fit (connectEnv listenEnv : Env) {bound listener : Socket} (dstIp srcIp : CString)
    (hunused : Unused bound) (hclient : IsPort bound.id.srcPort)
    (hserver : IsPort listener.id.srcPort) {actions : List Action}
    (hfits : EachStep World.step (fun w _ => Fits w)
      (opening connectEnv listenEnv bound listener dstIp srcIp) actions) :
    (∀ v∈openingInts (opening connectEnv listenEnv bound listener dstIp srcIp),InInt v) ∧
      EachStep World.step
        (fun w action => (∀ v∈computedInts w action,InInt v) ∧ RemovesAcknowledged w action)
        (opening connectEnv listenEnv bound listener dstIp srcIp) actions := by
  have hwithin := opening_within connectEnv listenEnv dstIp srcIp hunused hclient hserver
  refine ⟨?_,eachStep_of_guarded (fun w action h _ => h.step action)
    (fun w action h hf => ⟨h.computed_inInt hf action,removesAcknowledged w action⟩)
    hwithin hfits⟩
  obtain ⟨hc,hc'⟩ := hclient
  obtain ⟨hs,hs'⟩ := hserver
  have hrand : 0 ≤ (connectEnv.rand.val : ℤ)%2000 ∧ (connectEnv.rand.val : ℤ)%2000 < 2000 :=
    ⟨Int.emod_nonneg _ (by decide),Int.emod_lt_of_pos _ (by decide)⟩
  have hlisten := listenEnv.rand.isLt
  intro v hv
  simp only [openingInts,opening,counters,packetInts,checksumSum,handshakePacket,constructPacket,
    connecting,newConnection,asReceived,List.flatMap_cons,List.flatMap_nil,List.mem_append,
    List.mem_cons,List.not_mem_nil,or_false] at hv
  have hflag : charValue synFlag=8 := by decide
  unfold InInt intMin intMax
  omega

/-- A socket bound to port 5000. -/
def bound5000 : Socket := createNewSocket 0 ⟨5000,emptyPort,onesIp,emptyIp⟩ .closed

theorem bound5000_unused : Unused bound5000 := ⟨rfl,fun _ => rfl⟩

/-- With the greatest value of `rand`, the checksum of the first SYN and ACK
is out of range. -/
theorem greatestRand_overflows :
    Unused bound5000 ∧ IsPort bound5000.id.srcPort ∧ IsPort listener80.id.srcPort ∧
      ¬EachStep World.step (fun w action => ∀ v∈computedInts w action,InInt v)
        (opening (smoothEnv 0 none) {smoothEnv 0 none with rand := 2147483647} bound5000
          listener80 onesIp onesIp) [.statusMessages .right (smoothEnv 5000000 none)] := by
  refine ⟨bound5000_unused,⟨by decide,by decide⟩,⟨by decide,by decide⟩,?_⟩
  intro h
  have hsum : (2147488726 : ℤ)∈computedInts (opening (smoothEnv 0 none)
      {smoothEnv 0 none with rand := 2147483647} bound5000 listener80 onesIp onesIp)
      (.statusMessages .right (smoothEnv 5000000 none)) := by
    decide +kernel
  exact absurd (h.1 _ hsum).2 (by decide)

/-- Both ends finish the handshake and the client sends one byte. -/
theorem ints_fit_handshake :
    let start := opening (smoothEnv 0 none) (smoothEnv 0 none) bound5000 listener80 onesIp onesIp
    let actions := [.statusMessages .right (smoothEnv 5000000 none),
      arrives .left 0 (smoothEnv 6000000 none),.statusMessages .left (smoothEnv 7000000 (some [120])),
      .sendWindow .left (smoothEnv 10000000 none),arrives .right 1 (smoothEnv 11000000 none)]
    (∀ v∈openingInts start,InInt v) ∧
      EachStep World.step
        (fun w action => (∀ v∈computedInts w action,InInt v) ∧ RemovesAcknowledged w action)
        start actions := by
  intro start actions
  refine ints_fit (smoothEnv 0 none) (smoothEnv 0 none) onesIp onesIp bound5000_unused
    ⟨by decide,by decide⟩ ⟨by decide,by decide⟩ ?_
  simp only [actions,EachStep,Fits]
  decide +kernel

end NetworkLayer.SequenceRange
