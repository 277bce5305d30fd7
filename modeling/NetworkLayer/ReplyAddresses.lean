import NetworkLayer.PeerIdentity
import NetworkLayer.TableMoves

/-!
# Where replies go

The manager sends a reply to the second ip of the key it looked the socket up
by. A socket that is found by the bound key only is replied for to the empty
ip. The packets that are replied to at all are worked out first.
-/

namespace NetworkLayer.ReplyAddresses

open ByteStrings FormattedText UtilTypes Hashmap FifoUtils TcpPackets TcpCodec IpPackets
open PacketHandlers SocketPasses SocketSteps PacketDispatch PeerIdentity
open TableMoves

/-- A socket replies to the packet: a full listener to a SYN, an established
connection to data, and one in FIN_WAIT_2 to a FIN. -/
def Answers (s : Socket) (packet : TCPPacket) : Prop :=
  s.state=.listen ∧ packet.has synFlag=true ∧ s.maxConnections=0 ∨
    packet.has rstFlag=false ∧ packet.srcPort=s.id.dstPort ∧
      (s.state=.established ∧ packet.has synFlag=false ∧ packet.has finFlag=false ∧
          packet.data≠none ∨
        s.state=.finWait2 ∧ packet.has finFlag=true)

/-- A full listener replies to a SYN, with a reset. -/
theorem handlePacketListen_reply_iff (env : Env) (manager : NetworkManager) (s : Socket)
    (packet : TCPPacket) (srcIp : CString) :
    (handlePacketListen env manager s packet srcIp).reply≠none ↔
      packet.has synFlag=true ∧ s.maxConnections=0 := by
  rw [handlePacketListen_eq]
  by_cases hsyn : packet.has synFlag=false
  · simp [hsyn]
  rw [if_neg hsyn]
  by_cases hmax : s.maxConnections=0
  · simp [hmax,hsyn]
  rw [if_neg hmax]
  dsimp only
  split
  · simp [hmax]
  · split
    · simp [hmax]
    · simp [hmax]

/-- An established connection replies to data, without SYN and FIN. -/
theorem handlePacketEstablished_reply_iff (env : Env) (manager : NetworkManager) (s : Socket)
    (packet : TCPPacket) :
    (handlePacketEstablished env manager s packet).reply≠none ↔
      packet.has synFlag=false ∧ packet.has finFlag=false ∧ packet.data≠none := by
  unfold handlePacketEstablished
  cases packet.has synFlag with
  | true => simp
  | false =>
    cases packet.has finFlag with
    | true => simp
    | false => cases packet.data <;> simp

/-- All replies there are. -/
theorem handlePacket_reply_iff (env : Env) (manager : NetworkManager) (s : Socket)
    (packet : TCPPacket) (srcIp : CString) :
    (handlePacket env manager s packet srcIp).reply≠none ↔ Answers s packet := by
  by_cases hl : s.state=.listen
  · have hlisten : handlePacket env manager s packet srcIp=
        handlePacketListen env manager s packet srcIp := by
      rw [handlePacket,if_neg (fun h => h.2 hl),if_neg (fun h => h.1 hl),hl]
    rw [hlisten,handlePacketListen_reply_iff,Answers]
    simp [hl]
  by_cases hopen : s.state=.established ∨ s.state=.finWait2
  swap
  · rw [not_or] at hopen
    rw [handlePacket_silent env manager packet srcIp ⟨hl,hopen⟩,Answers]
    simp [hl,hopen]
  by_cases hrst : packet.has rstFlag=true
  · rw [handlePacket,if_pos ⟨hrst,hl⟩,Answers]
    simp [hl,hrst]
  by_cases hport : packet.srcPort=s.id.dstPort
  swap
  · rw [handlePacket,if_neg (fun h => hrst h.1),if_pos ⟨hl,hport⟩,Answers]
    simp [hl,hport]
  rw [handlePacket,if_neg (fun h => hrst h.1),if_neg (fun h => h.2 hport),Answers]
  rcases hopen with hs|hs
  · rw [hs]
    simp only
    rw [handlePacketEstablished_reply_iff]
    simp [hrst,hport]
  · rw [hs]
    simp only [handlePacketFinWait2]
    split
    · simp [*]
    · simp [*]

/-- A world in which sending never fails, so that what is handed to
`send_TCP_packet` is what is sent. -/
def sending (env : Env) : Env := {env with sendResult := fun _ => .ok}

/-- The reply of the socket that the packet is handed to, if there is one, is
sent to the ip and the port that the packet came from. -/
def RepliesToSender (libc : Libc) (env : Env) (manager : NetworkManager) (packet : IPPacket)
    (tcpPacket : TCPPacket) : Prop :=
  ∀ i s reply,receiver libc manager packet=some i → manager.sockets.table i=some s →
    (handlePacket (sending env) manager s tcpPacket manager.ip).reply=some reply →
      (handleIncomingIpPacket libc (sending env) manager packet).sent=[(reply,packet.srcIp)] ∧
        reply.dstPort=tcpPacket.srcPort

/-- Every reply goes back to the port of the packet. -/
theorem reply_dstPort {env : Env} {manager : NetworkManager} {s : Socket}
    {packet reply : TCPPacket} {srcIp : CString}
    (h : (handlePacket env manager s packet srcIp).reply=some reply) :
    reply.dstPort=packet.srcPort := by
  rcases handlePacket_reply_cases h with ⟨_,_,rfl⟩|⟨_,rfl,_⟩
  · rfl
  · rfl

section

variable {libc : Libc} {manager : NetworkManager} {packet : IPPacket} {tcpPacket : TCPPacket}
  (h : Checked libc manager packet tcpPacket) (env : Env)

include h

/-- The reply of the socket goes to the second ip of the key it was found by. -/
theorem sent_of_reply {key : SocketID} {i : Fin hashMapDefaultSize} {s : Socket}
    {reply : TCPPacket} (hs : manager.sockets.table i=some s) (hkey : key.srcIp=manager.ip)
    (hdispatch : dispatch (sending env) manager (receiverId packet.srcIp manager.ip tcpPacket)
      tcpPacket=handOver (sending env) manager i key tcpPacket)
    (hreply : (handlePacket (sending env) manager s tcpPacket manager.ip).reply=some reply) :
    (handleIncomingIpPacket libc (sending env) manager packet).sent=[(reply,key.dstIp)] := by
  have hsent : (handlePacket (sending env) manager s tcpPacket manager.ip).sentReply
      (sending env)=[reply] := by
    rw [Handled.sentReply,hreply]
    rfl
  rw [h.dispatched (sending env),hdispatch,handOver_sent (sending env) key tcpPacket hs,hkey,hsent]
  rfl

/-- A checked packet is replied to at its sender exactly if a socket has its
whole key, its source is the empty ip, or the bound socket does not reply. -/
theorem replies_to_sender_iff : RepliesToSender libc env manager packet tcpPacket ↔
    manager.sockets.hasKey (receiverId packet.srcIp manager.ip tcpPacket)=true ∨
      packet.srcIp=emptyIp ∨
      ∀ i s,manager.sockets.indexOf (receiverId packet.srcIp manager.ip tcpPacket).boundOnly=
        some i → manager.sockets.table i=some s → ¬Answers s tcpPacket := by
  have hreceiver : receiver libc manager packet=
      (manager.sockets.indexOf (receiverId packet.srcIp manager.ip tcpPacket)).or
        (manager.sockets.indexOf (receiverId packet.srcIp manager.ip tcpPacket).boundOnly) := by
    rw [receiver,h.decoded,Option.bind_some,h.toUs]
  cases hexact : manager.sockets.indexOf (receiverId packet.srcIp manager.ip tcpPacket) with
  | some i =>
    have hkey : manager.sockets.hasKey (receiverId packet.srcIp manager.ip tcpPacket)=true := by
      rw [HashMap.hasKey,hexact]
      rfl
    rw [hexact,Option.some_or] at hreceiver
    refine iff_of_true ?_ (Or.inl hkey)
    intro j s reply hj hs hreply
    obtain rfl : i=j := Option.some.inj (hreceiver.symm.trans hj)
    exact ⟨sent_of_reply h env hs rfl (dispatch_exact _ tcpPacket hexact) hreply,
      reply_dstPort hreply⟩
  | none =>
    have hkey : manager.sockets.hasKey (receiverId packet.srcIp manager.ip tcpPacket)=false := by
      rw [HashMap.hasKey,hexact]
      rfl
    rw [hexact,Option.none_or] at hreceiver
    rw [hkey,RepliesToSender,hreceiver]
    simp only [Bool.false_eq_true,false_or]
    constructor
    · intro hreplies
      by_contra hnot
      rw [not_or] at hnot
      obtain ⟨hsrc,hanswers⟩ := hnot
      simp only [not_forall,not_not] at hanswers
      obtain ⟨i,s,hi,hs,hanswer⟩ := hanswers
      obtain ⟨reply,hreply⟩ := Option.ne_none_iff_exists'.mp
        ((handlePacket_reply_iff (sending env) manager s tcpPacket manager.ip).mpr hanswer)
      have hsent := sent_of_reply h env hs rfl (dispatch_fallback _ tcpPacket hexact hi) hreply
      rw [(hreplies i s reply hi hs hreply).1] at hsent
      exact hsrc (Prod.mk.inj (List.head_eq_of_cons_eq hsent)).2
    · intro hcases i s reply hi hs hreply
      refine ⟨?_,reply_dstPort hreply⟩
      have hsent := sent_of_reply h env hs rfl (dispatch_fallback _ tcpPacket hexact hi) hreply
      rcases hcases with hsrc|hsilent
      · rw [hsent,hsrc]
        rfl
      · have hanswers : Answers s tcpPacket := (handlePacket_reply_iff (sending env) manager s
          tcpPacket manager.ip).mp (by simp [hreply])
        exact absurd hanswers (hsilent i s hi hs)

end

/-- The manager of the first ip, whose socket on port 80 listens without room. -/
def fullManager : NetworkManager :=
  ⟨listener80.id.srcIp,(createHashMap.insertSocket {listener80 with maxConnections := 0}).2,
    fun _ => false⟩

/-- A SYN from the second ip passes its checks. -/
theorem fullManager_checked (libc : Libc) :
    Checked libc fullManager (synPacket 2) (asReceived syn90) := by
  have hchecked := (synPacket_reaches libc 2).toChecked
  exact ⟨hchecked.header,hchecked.toUs,hchecked.decoded,hchecked.checksum⟩

/-- The equivalence for this SYN. -/
theorem replies_to_sender_iff_full :
    let libc := zeroLibc
    let key := receiverId (synPacket 2).srcIp fullManager.ip (asReceived syn90)
    RepliesToSender libc (smoothEnv 0 none) fullManager (synPacket 2) (asReceived syn90) ↔
      fullManager.sockets.hasKey key=true ∨ (synPacket 2).srcIp=emptyIp ∨
        ∀ i s,fullManager.sockets.indexOf key.boundOnly=some i →
          fullManager.sockets.table i=some s → ¬Answers s (asReceived syn90) :=
  replies_to_sender_iff (fullManager_checked _) _

/-- The reset that answers it goes to the empty ip. -/
theorem full_listener_resets_nobody :
    let libc := zeroLibc
    let s := {listener80 with maxConnections := 0}
    (handleIncomingIpPacket libc (smoothEnv 0 none) fullManager (synPacket 2)).sent=
        [(generateRstPacket s 90,emptyIp)] ∧
      ¬RepliesToSender libc (smoothEnv 0 none) fullManager (synPacket 2)
        (asReceived syn90) := by
  intro libc s
  have hindex : fullManager.sockets.indexOf
      (receiverId (digitIp 2) fullManager.ip (asReceived syn90))=none := by
    decide +kernel
  have hbound : fullManager.sockets.indexOf
      (receiverId (digitIp 2) fullManager.ip (asReceived syn90)).boundOnly=some 0 := by
    decide +kernel
  have hs : fullManager.sockets.table 0=some s := rfl
  have hreply : (handlePacket (sending (smoothEnv 0 none)) fullManager s (asReceived syn90)
      fullManager.ip).reply=some (generateRstPacket s 90) := by
    decide +kernel
  have hsent := sent_of_reply (fullManager_checked libc) (smoothEnv 0 none) hs rfl
    (dispatch_fallback _ (asReceived syn90) hindex hbound) hreply
  have hreceiver : receiver libc fullManager (synPacket 2)=some 0 := by
    decide +kernel
  refine ⟨hsent,fun hreplies => ?_⟩
  have hsender := (hreplies 0 s _ hreceiver hs hreply).1
  have hip : emptyIp=digitIp 2 :=
    (Prod.mk.inj (List.head_eq_of_cons_eq (hsent.symm.trans hsender))).2
  exact absurd hip (by decide)

end NetworkLayer.ReplyAddresses
