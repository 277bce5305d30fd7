import NetworkLayer.PacketDispatch

/-!
# Replies are not replied to

A handler answers at once with an RST or an ACK, without data in either case.
No handler of any state answers a packet without data, SYN and FIN, nor a
reset that is no SYN, and only a SYN makes a connection. So an exchange of
immediate replies ends after the first one, unless the text of that reply is
read back as another packet: a number that is wider than its field moves what
follows it.
-/

namespace NetworkLayer.ReplyChains

open ByteStrings FormattedText UtilTypes FifoUtils TcpPackets TcpCodec
open PacketHandlers SocketPasses SocketSteps PacketDispatch

/-- A socket of some manager that a packet is handed to, with what the world
answers meanwhile. -/
structure Responder where
  /-- What the world answers. -/
  env : Env
  /-- The manager. -/
  manager : NetworkManager
  /-- The socket, in any state. -/
  socket : Socket
  /-- The ip that is handed to the handler. -/
  srcIp : CString

/-- What the responder does with a packet. -/
def Responder.handles (responder : Responder) (packet : TCPPacket) : Handled :=
  handlePacket responder.env responder.manager responder.socket packet responder.srcIp

/-- No socket in any state answers the packet, and none makes a connection
for it. -/
def Unanswered (packet : TCPPacket) : Prop :=
  ∀ responder : Responder,(responder.handles packet).reply=none ∧
    (responder.handles packet).manager.sockets=responder.manager.sockets

/-- The packet has nothing that a handler answers to. -/
structure Unanswerable (packet : TCPPacket) : Prop where
  /-- It is no SYN. -/
  syn : packet.has synFlag=false
  /-- Unless it is a reset, it carries no data and is no FIN. -/
  content : packet.has rstFlag=true ∨ packet.data=none ∧ packet.has finFlag=false

/-- Nobody replies to such a packet. -/
theorem Unanswerable.reply_none {packet : TCPPacket} (h : Unanswerable packet)
    (responder : Responder) : (responder.handles packet).reply=none := by
  by_contra hsome
  obtain ⟨r,hr⟩ := Option.ne_none_iff_exists'.mp hsome
  have hlisten : responder.socket.state≠.listen := by
    intro hl
    rcases handlePacket_reply_cases hr with ⟨_,hsyn,_⟩|⟨_,_,⟨hs,_⟩|⟨hs,_⟩⟩
    · exact absurd hsyn (by simp [h.syn])
    · simp [hl] at hs
    · simp [hl] at hs
  rcases h.content with hrst|⟨hdata,hfin⟩
  · rw [Responder.handles,handlePacket,if_pos ⟨hrst,hlisten⟩] at hr
    cases hr
  · rcases handlePacket_reply_cases hr with ⟨hl,_⟩|⟨_,_,⟨_,hsome⟩|⟨_,hsome⟩⟩
    · exact hlisten hl
    · exact hsome hdata
    · exact absurd hsome (by simp [hfin])

/-- Without a SYN no connection is made. -/
theorem handles_sockets {packet : TCPPacket} (hsyn : packet.has synFlag=false)
    (responder : Responder) :
    (responder.handles packet).manager.sockets=responder.manager.sockets := by
  obtain ⟨env,manager,s,srcIp⟩ := responder
  simp only [Responder.handles]
  by_cases hl : s.state=.listen
  · have hlisten : handlePacket env manager s packet srcIp=quiet manager s := by
      unfold handlePacket
      rw [if_neg (fun h' => h'.2 hl),if_neg (fun h' => h'.1 hl),hl]
      simp only [handlePacketListen,if_pos hsyn]
    rw [hlisten]
    rfl
  · exact (handlePacket_confined env manager packet srcIp hl).2.1

/-- The peer of a packet's sender, in some state and with room for nobody. -/
def peerOf (packet : TCPPacket) (state : TCPState) : Responder where
  env := smoothEnv 0 none
  manager := createNetworkManager emptyIp fun _ => false
  socket := createNewSocket 0 ⟨emptyPort,packet.srcPort,emptyIp,emptyIp⟩ state
  srcIp := emptyIp

/-- What nobody answers has nothing to answer to: a full listener would reject
its SYN, a peer in FIN_WAIT_2 would acknowledge its FIN and an established one
its data. -/
theorem Unanswered.unanswerable {packet : TCPPacket} (h : Unanswered packet) :
    Unanswerable packet := by
  have hsyn : packet.has synFlag=false := by
    by_contra hsyn
    have hreply := (h (peerOf packet .listen)).1
    rw [Responder.handles,handlePacket,if_neg (fun h => h.2 rfl),if_neg (fun h => h.1 rfl)] at hreply
    simp [peerOf,createNewSocket,handlePacketListen,hsyn] at hreply
  refine ⟨hsyn,or_iff_not_imp_left.mpr fun hrst => ?_⟩
  have hfin : packet.has finFlag=false := by
    by_contra hfin
    have hreply := (h (peerOf packet .finWait2)).1
    rw [Responder.handles,handlePacket,if_neg (fun h => hrst h.1),if_neg (fun h => h.2 rfl)]
      at hreply
    rw [Bool.not_eq_false] at hfin
    simp [peerOf,createNewSocket,handlePacketFinWait2,hfin] at hreply
  refine ⟨?_,hfin⟩
  by_contra hsome
  obtain ⟨data,hdata⟩ := Option.ne_none_iff_exists'.mp hsome
  have hreply := (h (peerOf packet .established)).1
  rw [Responder.handles,handlePacket,if_neg (fun h => hrst h.1),if_neg (fun h => h.2 rfl)]
    at hreply
  simp [peerOf,createNewSocket,handlePacketEstablished,hsyn,hfin,hdata] at hreply

/-- A packet is answered by nobody exactly when it has nothing to answer to. -/
theorem unanswered_iff (packet : TCPPacket) : Unanswered packet ↔ Unanswerable packet :=
  ⟨Unanswered.unanswerable,fun h responder =>
    ⟨h.reply_none responder,handles_sockets h.syn responder⟩⟩

/-- A reset or an acknowledgement without data. -/
def Bare (r : TCPPacket) : Prop :=
  ∃ sender dstPort,r=constructPacket sender CString.empty rstFlag dstPort ∨
    r=constructPacket sender CString.empty ackFlag dstPort

/-- Every reply is an RST or an ACK without data. -/
theorem bare_of_reply {responder : Responder} {packet r : TCPPacket}
    (hr : (responder.handles packet).reply=some r) : Bare r := by
  rcases handlePacket_reply_cases hr with ⟨_,_,he⟩|⟨_,he,_⟩
  · exact ⟨_,_,Or.inl he⟩
  · exact ⟨_,_,Or.inr he⟩

/-- Such a packet cannot be answered once it arrives. -/
theorem Bare.unanswerable {r : TCPPacket} (h : Bare r) : Unanswerable (asReceived r) := by
  obtain ⟨sender,dstPort,rfl|rfl⟩ := h
  · exact ⟨by rw [asReceived_has,constructPacket_has]; decide,
      Or.inl (by rw [asReceived_has,constructPacket_has]; decide)⟩
  · exact ⟨by rw [asReceived_has,constructPacket_has]; decide,
      Or.inr ⟨rfl,by rw [asReceived_has,constructPacket_has]; decide⟩⟩

/-- Its text form, where all its numbers fit their fields, is read back with
NULL for its data. -/
theorem Bare.decoded {r : TCPPacket} (h : Bare r) (hr : Printable r) (libc : Libc) :
    strToTcp libc (tcpToStr r)=some (asReceived r) := by
  obtain ⟨sender,dstPort,he⟩ := h
  have hempty : ∀ flags,ChecksumApart (constructPacket sender CString.empty flags dstPort)
      CString.empty := by
    intro flags
    refine Or.inr ?_
    intro b hb
    cases hb
  rcases he with rfl|rfl
  · exact strToTcp_of_apart libc hr rfl rfl (hempty rstFlag)
  · exact strToTcp_of_apart libc hr rfl rfl (hempty ackFlag)

/-- The text of the packet is not read back, or as one that nothing answers. -/
def ReadBackBare (libc : Libc) (r : TCPPacket) : Prop :=
  ∀ received,strToTcp libc (tcpToStr r)=some received → Unanswerable received

/-- A reply whose numbers fit their fields is. -/
theorem Bare.readBack {r : TCPPacket} (h : Bare r) (hr : Printable r) (libc : Libc) :
    ReadBackBare libc r := by
  intro received hreceived
  rw [h.decoded hr libc] at hreceived
  exact Option.some.inj hreceived ▸ h.unanswerable

/-- The packets sent when each reply is encoded, decoded and handed to the
next responder. -/
def immediateReplies (libc : Libc) : List Responder → TCPPacket → List TCPPacket
  | [],_ => []
  | responder::rest,packet =>
    match (responder.handles packet).reply with
    | none => []
    | some reply =>
      reply::match strToTcp libc (tcpToStr reply) with
        | none => []
        | some received => immediateReplies libc rest received

/-- The reply to a packet, encoded and decoded, is answered by nobody, and no
chain of immediate replies that it starts is longer than one. -/
def RepliesEnd (libc : Libc) (first : Responder) (packet : TCPPacket) : Prop :=
  (∀ r,(first.handles packet).reply=some r →
    ∀ received,strToTcp libc (tcpToStr r)=some received → Unanswered received) ∧
  ∀ rest,(immediateReplies libc (first::rest) packet).length ≤ 1

/-- Once nobody answers the decoded reply, the chain is at its end. -/
theorem immediateReplies_length {libc : Libc} {first : Responder} {packet : TCPPacket}
    (h : ∀ r,(first.handles packet).reply=some r →
      ∀ received,strToTcp libc (tcpToStr r)=some received → Unanswered received)
    (rest : List Responder) : (immediateReplies libc (first::rest) packet).length ≤ 1 := by
  rw [immediateReplies]
  cases hr : (first.handles packet).reply with
  | none => exact Nat.zero_le _
  | some r =>
    cases hd : strToTcp libc (tcpToStr r) with
    | none => simp only [hd,List.length_singleton,Nat.le_refl]
    | some received =>
      cases rest with
      | nil => simp only [hd,immediateReplies,List.length_singleton,Nat.le_refl]
      | cons second others =>
        have hquiet := (h r hr received hd second).1
        simp only [hd,immediateReplies,hquiet,List.length_singleton,Nat.le_refl]

/-- An established socket whose numbers are far below zero, the next one to
send one below the next expected; its peer uses the same port. -/
def belowZero : Responder where
  env := smoothEnv 0 none
  manager := createNetworkManager onesIp fun _ => false
  socket := {createNewSocket 0 ⟨8080,8080,onesIp,onesIp⟩ .established with
    seqOfFirstSendWindow := -900000001
    seqOfFirstRecvWindow := -900000000}
  srcIp := onesIp

/-- Its ACK, as it is read back: the checksum of eleven characters leaves its
last digit to the data. -/
def readBackAck : TCPPacket :=
  ⟨8080,8080,-900000001,-900000000,ackFlag,-179998384,some ⟨[48],by decide⟩⟩

/-- It answers what it would itself have sent. -/
theorem belowZero_answers : (belowZero.handles readBackAck).reply=
    some (constructPacket belowZero.socket CString.empty ackFlag 8080) := by
  decide +kernel

theorem belowZero_readBack :
    strToTcp zeroLibc (tcpToStr (constructPacket belowZero.socket CString.empty ackFlag 8080))=
      some readBackAck := by
  decide +kernel

end NetworkLayer.ReplyChains
