import NetworkLayer.SocketRequests

/-!
# Whom an accepted connection belongs to

A SYN that finds no socket for its whole key goes to the listening socket on
its port, which makes a connection for it. The listener is told an ip together
with the packet: it is the first ip of the key, the manager's own, and not the
sender's. Connections from another ip are therefore kept under a key that no
packet of their peer looks up.
-/

namespace NetworkLayer.PeerIdentity

open ByteStrings FormattedText UtilTypes Hashmap FifoUtils TcpPackets TcpCodec IpPackets
open PacketHandlers SocketPasses PacketDispatch SocketRequests

/-- A SYN that has no socket of its own and reaches a listening socket with
room on its port. -/
structure ReachesListener (libc : Libc) (manager : NetworkManager) (packet : IPPacket)
    (tcpPacket : TCPPacket) (i : Fin hashMapDefaultSize) (listener : Socket) : Prop
    extends Checked libc manager packet tcpPacket where
  /-- It asks for a connection. -/
  syn : tcpPacket.has synFlag=true
  /-- No socket has the whole key. -/
  noExact : manager.sockets.indexOf (receiverId packet.srcIp manager.ip tcpPacket)=none
  /-- The second lookup finds a socket. -/
  found : manager.sockets.indexOf (receiverId packet.srcIp manager.ip tcpPacket).boundOnly=some i
  /-- That socket is in the slot. -/
  stored : manager.sockets.table i=some listener
  /-- It listens. -/
  listens : listener.state=.listen
  /-- It may accept another connection. -/
  room : 0 < listener.maxConnections

/-- Only the socket in this slot has the key. -/
def OnlyHolder (m : HashMap) (i : Fin hashMapDefaultSize) (key : SocketID) : Prop :=
  (∃ socket,m.table i=some socket ∧ socket.id=key) ∧
    ∀ j other,j≠i → m.table j=some other → other.id≠key

theorem OnlyHolder.indexOf {m : HashMap} {i : Fin hashMapDefaultSize} {key : SocketID}
    (h : OnlyHolder m i key) : m.indexOf key=some i := by
  obtain ⟨⟨socket,hsocket,hid⟩,honly⟩ := h
  exact HashMap.indexOf_of_only hsocket hid honly

/-- Every connection that the packet makes is its sender's: it has the key
under which the sender's packets are looked up, they are handed to it, and its
SYN|ACK goes to the sender's ip. -/
def Identified (libc : Libc) (env : Env) (manager : NetworkManager) (packet : IPPacket)
    (tcpPacket : TCPPacket) : Prop :=
  let after := (handleIncomingIpPacket libc env manager packet).manager
  ∀ j conn,manager.sockets.table j=none → after.sockets.table j=some conn →
    conn.id=receiverId packet.srcIp manager.ip tcpPacket ∧
    OnlyHolder after.sockets j conn.id ∧
    (∀ env' later next tcpNext,later.ip=manager.ip → OnlyHolder later.sockets j conn.id →
      Checked libc later next tcpNext → next.srcIp=packet.srcIp →
      tcpNext.srcPort=tcpPacket.srcPort → tcpNext.dstPort=tcpPacket.dstPort →
      handleIncomingIpPacket libc env' later next=handOver env' later j conn.id tcpNext) ∧
    ∀ env',elapsed env' conn.lastSendClock socketSendAgainTime=true → env'.sendResult 0=.ok →
      (serve libc after (.statusMessages env' conn.id)).sent=
        [(handshakePacket conn (synFlag ||| ackFlag),packet.srcIp)]

section

variable {libc : Libc} {manager : NetworkManager} {packet : IPPacket} {tcpPacket : TCPPacket}
variable {i : Fin hashMapDefaultSize} {listener : Socket}

/-- The key of the connection that is made: both its ips are the manager's. -/
theorem ReachesListener.connectionId_eq
    (h : ReachesListener libc manager packet tcpPacket i listener) :
    connectionId listener tcpPacket manager.ip=receiverId manager.ip manager.ip tcpPacket := by
  obtain ⟨socket,hsocket,hid⟩ := HashMap.indexOf_spec h.found
  obtain rfl := Option.some.inj (h.stored.symm.trans hsocket)
  rw [connectionId,hid]
  rfl

/-- What the packet does to the table: nothing new, or one new connection. -/
theorem ReachesListener.outcome
    (h : ReachesListener libc manager packet tcpPacket i listener) (env : Env) :
    let after := (handleIncomingIpPacket libc env manager packet).manager
    ∃ listener',listener'.id=listener.id ∧
      ((after.sockets.table=Function.update manager.sockets.table i (some listener') ∧
        ¬Admits env manager (receiverId manager.ip manager.ip tcpPacket)) ∨
      (Admits env manager (receiverId manager.ip manager.ip tcpPacket) ∧
        ∃ j,j≠i ∧ manager.sockets.table j=none ∧
          after.sockets.table=Function.update (Function.update manager.sockets.table j
            (some (newConnection env listener tcpPacket manager.ip))) i (some listener'))) := by
  intro after
  have hafter : after=(handOver env manager i
      (receiverId packet.srcIp manager.ip tcpPacket).boundOnly tcpPacket).manager := by
    unfold after
    rw [h.dispatched env,dispatch_fallback env tcpPacket h.noExact h.found]
  obtain ⟨listener',hid,_,_,hcases⟩ := handOver_listen env
    (receiverId packet.srcIp manager.ip tcpPacket).boundOnly tcpPacket h.stored h.listens
  have hmax : listener.maxConnections≠0 := by
    have := h.room
    omega
  have hkey := h.connectionId_eq
  rw [hafter]
  refine ⟨listener',hid,?_⟩
  rcases hcases with ⟨htable,_,hrefused⟩|⟨_,_,hadmits,_,hnew⟩
  · refine Or.inl ⟨htable,?_⟩
    rw [←hkey]
    exact hrefused h.syn hmax
  · refine Or.inr ⟨?_,hnew⟩
    rw [←hkey]
    exact hadmits

/-- A new connection whose key is the sender's is found by all that the sender
sends, and sends to the sender. -/
theorem ReachesListener.identified_of_own
    (h : ReachesListener libc manager packet tcpPacket i listener) (env : Env)
    (hown : packet.srcIp=manager.ip) : Identified libc env manager packet tcpPacket := by
  unfold Identified
  intro after j conn hfree hconn
  obtain ⟨listener',hid,⟨htable,_⟩|⟨hadmits,k,hki,hk,htable⟩⟩ := h.outcome env
  · have hji : j≠i := by
      rintro rfl
      rw [h.stored] at hfree
      cases hfree
    rw [htable,Function.update_of_ne hji,hfree] at hconn
    cases hconn
  have hji : j≠i := by
    rintro rfl
    rw [h.stored] at hfree
    cases hfree
  have hjk : j=k := by
    by_contra hjk
    rw [htable,Function.update_of_ne hji,Function.update_of_ne hjk,hfree] at hconn
    cases hconn
  subst hjk
  have hnew : newConnection env listener tcpPacket manager.ip=conn := by
    rw [htable,Function.update_of_ne hji,Function.update_self] at hconn
    exact Option.some.inj hconn
  have hconnId : conn.id=receiverId packet.srcIp manager.ip tcpPacket := by
    rw [←hnew,hown,←h.connectionId_eq]
    rfl
  have hholder : OnlyHolder after.sockets j conn.id := by
    refine ⟨⟨conn,hconn,rfl⟩,?_⟩
    intro k other hkj hother
    rw [hconnId,hown]
    have hfresh : ∀ s l,manager.sockets.table l=some s →
        s.id≠receiverId manager.ip manager.ip tcpPacket := by
      intro s l hs
      exact HashMap.ne_id_of_hasKey_false hadmits.2.2 hs
    by_cases hk' : k=i
    · rw [hk',htable,Function.update_self] at hother
      obtain rfl := Option.some.inj hother
      rw [hid]
      exact hfresh _ _ h.stored
    · rw [htable,Function.update_of_ne hk',Function.update_of_ne hkj] at hother
      exact hfresh _ _ hother
  refine ⟨hconnId,hholder,?_,?_⟩
  · intro env' later next tcpNext hip hlater hchecked hsrc hsrcPort hdstPort
    have hkey : receiverId next.srcIp later.ip tcpNext=conn.id := by
      rw [hconnId,receiverId,receiverId,hip,hsrc,hsrcPort,hdstPort]
    rw [hchecked.dispatched env',hkey]
    exact dispatch_exact env' tcpNext hlater.indexOf
  · intro env' helapsed hok
    have hpointer : pointerTo after.sockets conn.id=some (j,conn) := by
      rw [pointerTo,hholder.indexOf,Option.bind_some,hconn,Option.map_some]
    have hstate : conn.state=.synReceived := by rw [←hnew]; rfl
    have hdst : conn.id.dstIp=packet.srcIp := by rw [hconnId]; rfl
    simp only [serve,servePass,hpointer,checkAndHandleOutgoingStatusMessages,hstate,if_pos helapsed,
      attempt,Passed.sent,hok,hdst]
    rfl

/-- An accepted connection is its peer's exactly if the peer has the manager's
own ip; otherwise only if no connection is made, because its fifos cannot be
made, the table is full or its wrong key is taken. -/
theorem identified_iff (h : ReachesListener libc manager packet tcpPacket i listener) (env : Env) :
    Identified libc env manager packet tcpPacket ↔
      packet.srcIp=manager.ip ∨
        ¬Admits env manager (receiverId manager.ip manager.ip tcpPacket) := by
  constructor
  · intro hidentified
    by_contra hneither
    rw [not_or,not_not] at hneither
    obtain ⟨hother,hadmits⟩ := hneither
    obtain ⟨listener',_,⟨_,hrefused⟩|⟨_,j,hji,hj,htable⟩⟩ := h.outcome env
    · exact hrefused hadmits
    · have hconn : (handleIncomingIpPacket libc env manager packet).manager.sockets.table j=
          some (newConnection env listener tcpPacket manager.ip) := by
        rw [htable,Function.update_of_ne hji,Function.update_self]
      have hid := (hidentified j _ hj hconn).1
      have hkey : (newConnection env listener tcpPacket manager.ip).id=
          receiverId manager.ip manager.ip tcpPacket := h.connectionId_eq
      rw [hkey] at hid
      exact hother (congrArg SocketID.dstIp hid).symm
  · rintro (hown|hrefused)
    · exact h.identified_of_own env hown
    · unfold Identified
      intro after j conn hfree hconn
      obtain ⟨listener',_,⟨htable,_⟩|⟨hadmits,_⟩⟩ := h.outcome env
      · have hji : j≠i := by
          rintro rfl
          rw [h.stored] at hfree
          cases hfree
        rw [htable,Function.update_of_ne hji,hfree] at hconn
        cases hconn
      · exact absurd hadmits hrefused

end

/-- The ip of one digit, sixteen times. -/
def digitIp (d : Fin 10) : CString :=
  ⟨List.replicate 16 (digitByte d),fun h => by
    have hzero := List.eq_of_mem_replicate h
    have hbyte := toNat_digitByte d.isLt
    rw [←hzero] at hbyte
    have hnat : (0 : Byte).toNat=0 := rfl
    omega⟩

/-- The manager of the first ip, with this socket only. -/
def manager80 : NetworkManager :=
  ⟨digitIp 1,(createHashMap.insertSocket listener80).2,fun _ => false⟩

/-- The SYN of a socket that connects from port 90. -/
def syn90 : TCPPacket :=
  handshakePacket {createNewSocket 0 ⟨90,80,digitIp 2,digitIp 1⟩ .synSent with
    seqOfFirstSendWindow := 1} synFlag

/-- This SYN as it comes from some ip. -/
def synPacket (d : Fin 10) : IPPacket :=
  ⟨50+(tcpToStr syn90).strlen,digitIp d,digitIp 1,5,some (tcpToStr syn90)⟩

/-- The SYN of a socket on the manager's own ip. -/
def ownSyn : IPPacket := synPacket 1

/-- From any of the ips, this SYN reaches the listening socket. -/
theorem synPacket_reaches (libc : Libc) (d : Fin 10) :
    ReachesListener libc manager80 (synPacket d) (asReceived syn90) 0 listener80 := by
  have hcreate : createIpPacket (digitIp d) manager80.ip (tcpToStr syn90)=some (synPacket d) := by
    rw [createIpPacket,if_neg (by revert d; decide)]
    rfl
  have hprintable : Printable syn90 := ⟨by decide,by decide,by decide,by decide,by decide,by decide⟩
  have hchecked := (checked_of_sent libc hcreate hprintable (constructPacket_checksum _ _ _ _) rfl
    (Or.inr (by simp [CString.empty]))).1
  have hnone : ∀ d : Fin 10,manager80.sockets.indexOf
      (receiverId (digitIp d) manager80.ip (asReceived syn90))=none := by
    decide +kernel
  have hfound : ∀ d : Fin 10,manager80.sockets.indexOf
      (receiverId (digitIp d) manager80.ip (asReceived syn90)).boundOnly=some 0 := by
    decide +kernel
  exact {
    toChecked := hchecked
    syn := by decide
    noExact := hnone d
    found := hfound d
    stored := rfl
    listens := rfl
    room := by decide}

/-- A SYN from the manager's own ip. -/
theorem identified_iff_own :
    let libc := zeroLibc
    Identified libc (smoothEnv 0 none) manager80 (synPacket 1) (asReceived syn90) ↔
      (synPacket 1).srcIp=manager80.ip ∨ ¬Admits (smoothEnv 0 none) manager80
        (receiverId manager80.ip manager80.ip (asReceived syn90)) :=
  identified_iff (synPacket_reaches _ 1) _

/-- A SYN from another ip makes a connection that is not its sender's. -/
theorem foreignSyn_unidentified :
    let libc := zeroLibc
    ReachesListener libc manager80 (synPacket 2) (asReceived syn90) 0 listener80 ∧
      ¬Identified libc (smoothEnv 0 none) manager80 (synPacket 2) (asReceived syn90) := by
  intro libc
  refine ⟨synPacket_reaches libc 2,?_⟩
  intro hidentified
  have hadmits : Admits (smoothEnv 0 none) manager80
      (receiverId manager80.ip manager80.ip (asReceived syn90)) :=
    ⟨⟨⟨rfl,rfl⟩,rfl,rfl⟩,by decide +kernel,by decide +kernel⟩
  obtain ⟨listener',_,⟨_,hrefused⟩|⟨_,j,hji,hj,htable⟩⟩ :=
    (synPacket_reaches libc 2).outcome (smoothEnv 0 none)
  · exact hrefused hadmits
  · have hconn := congrFun htable j
    rw [Function.update_of_ne hji,Function.update_self] at hconn
    have hid := congrArg SocketID.dstIp (hidentified j _ hj hconn).1
    exact absurd hid (by decide)

end NetworkLayer.PeerIdentity
