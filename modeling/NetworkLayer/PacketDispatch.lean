import NetworkLayer.IpPackets
import NetworkLayer.SocketSteps
import NetworkLayer.TcpCodec

/-!
# Handing an incoming packet to its socket

The manager checks an incoming IP packet, decodes the TCP packet in it and
looks for the socket it is for: first by the whole key as the receiver sees
it, then by the key with its partner blanked, which is a listener's. The
socket found handles the packet, and its reply is sent to the ip in the key
that was looked up last.
-/

namespace NetworkLayer.PacketDispatch

open ByteStrings FormattedText UtilTypes Hashmap FifoUtils TcpPackets TcpCodec IpPackets
open PacketHandlers SocketSteps

/-- Outcome of one call of a function of the manager. -/
structure Served where
  /-- The value that is returned. -/
  result : ℤ
  /-- The manager afterwards. -/
  manager : NetworkManager
  /-- The packets that reached the network, each with the ip it was sent to. -/
  sent : List (TCPPacket × CString)
  /-- Bytes written to a user's receive fifo. -/
  toUser : List Byte

/-- A call that sends nothing and writes nothing to a user. -/
def returned (result : ℤ) (manager : NetworkManager) : Served := ⟨result,manager,[],[]⟩

/-- Writes through the pointer to the socket in a slot. -/
def storeSocket (manager : NetworkManager) (i : Fin hashMapDefaultSize) (socket : Socket) :
    NetworkManager :=
  {manager with sockets := manager.sockets.setSocket i socket}

/-- The identity of the receiving socket: the packet's addresses, swapped. -/
def receiverId (srcIp dstIp : CString) (packet : TCPPacket) : SocketID :=
  ⟨packet.dstPort,packet.srcPort,dstIp,srcIp⟩

/-- The socket found handles the packet. It is given the first ip of the key,
and its reply goes to the second one. -/
def handOver (env : Env) (manager : NetworkManager) (i : Fin hashMapDefaultSize) (id : SocketID)
    (packet : TCPPacket) : Served :=
  match manager.sockets.table i with
  | none => returned 0 manager
  | some sock =>
    let handled := handlePacket env manager sock packet id.srcIp
    ⟨0,storeSocket handled.manager i (handled.afterReply env),
      (handled.sentReply env).map fun reply => (reply,id.dstIp),handled.toUser⟩

/-- The part of `handle_incoming_ip_packet` behind its checks: both lookups,
the handler and the reply. -/
def dispatch (env : Env) (manager : NetworkManager) (id : SocketID) (packet : TCPPacket) :
    Served :=
  match manager.sockets.indexOf id with
  | some i => handOver env manager i id packet
  | none =>
    match manager.sockets.indexOf id.boundOnly with
    | some i => handOver env manager i id.boundOnly packet
    | none => returned 0 manager

/-- `handle_incoming_ip_packet`. Packets without data never get as far as the
decoder in the model; the source hands the NULL pointer to `sscanf`. -/
def handleIncomingIpPacket (libc : Libc) (env : Env) (manager : NetworkManager)
    (packet : IPPacket) : Served :=
  if calcIpChecksum packet≠packet.headerChecksum then returned 0 manager
  else if packet.dstIp≠manager.ip then returned 0 manager
  else match packet.data.bind (strToTcp libc) with
    | none => returned (-1) manager
    | some tcpPacket =>
      if calcChecksum tcpPacket≠tcpPacket.checksum then returned 0 manager
      else dispatch env manager (receiverId packet.srcIp packet.dstIp tcpPacket) tcpPacket

/-- A packet that passes all checks of the manager. -/
structure Checked (libc : Libc) (manager : NetworkManager) (packet : IPPacket)
    (tcpPacket : TCPPacket) : Prop where
  /-- The header's checksum is right. -/
  header : packet.headerChecksum=calcIpChecksum packet
  /-- It is meant for this manager. -/
  toUs : packet.dstIp=manager.ip
  /-- It carries a TCP packet. -/
  decoded : packet.data.bind (strToTcp libc)=some tcpPacket
  /-- The checksum of the TCP packet is right. -/
  checksum : tcpPacket.checksum=calcChecksum tcpPacket

/-- A packet that passes the checks is dispatched. -/
theorem Checked.dispatched {libc : Libc} {manager : NetworkManager} {packet : IPPacket}
    {tcpPacket : TCPPacket} (h : Checked libc manager packet tcpPacket) (env : Env) :
    handleIncomingIpPacket libc env manager packet=
      dispatch env manager (receiverId packet.srcIp manager.ip tcpPacket) tcpPacket := by
  rw [handleIncomingIpPacket,if_neg (by simp [h.header]),if_neg (by simp [h.toUs]),h.decoded]
  simp only
  rw [if_neg (by simp [h.checksum]),h.toUs]

/-- What `send_TCP_packet` puts on the wire passes the checks of the manager
with that ip, as the packet that its receiver should get. -/
theorem checked_of_sent (libc : Libc) {manager : NetworkManager} {srcIp : CString}
    {packet : IPPacket} {tcpPacket : TCPPacket} {data : CString}
    (hcreate : createIpPacket srcIp manager.ip (tcpToStr tcpPacket)=some packet)
    (h : Printable tcpPacket) (hsum : tcpPacket.checksum=calcChecksum tcpPacket)
    (hdata : tcpPacket.data=some data) (hapart : ChecksumApart tcpPacket data) :
    Checked libc manager packet (asReceived tcpPacket) ∧ packet.srcIp=srcIp := by
  unfold createIpPacket at hcreate
  split at hcreate
  · cases hcreate
  · obtain rfl := Option.some.inj hcreate
    exact ⟨⟨rfl,rfl,strToTcp_of_apart libc h hsum hdata hapart,hsum⟩,rfl⟩

/-- And whatever the data are, what is put on the wire arrives so or is
dropped. -/
theorem dispatched_or_dropped (libc : Libc) (env : Env) {manager : NetworkManager}
    {srcIp : CString} {packet : IPPacket} {tcpPacket : TCPPacket} {data : CString}
    (hcreate : createIpPacket srcIp manager.ip (tcpToStr tcpPacket)=some packet)
    (h : Printable tcpPacket) (hsum : tcpPacket.checksum=calcChecksum tcpPacket)
    (hdata : tcpPacket.data=some data) :
    handleIncomingIpPacket libc env manager packet=dispatch env manager
        (receiverId srcIp manager.ip (asReceived tcpPacket)) (asReceived tcpPacket) ∨
      handleIncomingIpPacket libc env manager packet=returned 0 manager := by
  unfold createIpPacket at hcreate
  split at hcreate
  · cases hcreate
  obtain rfl := Option.some.inj hcreate
  have hdecode := strToTcp_tcpToStr libc h hsum hdata
  obtain ⟨decoded,hdecoded⟩ : ∃ decoded,strToTcp libc (tcpToStr tcpPacket)=some decoded :=
    ⟨_,hdecode⟩
  rcases decoded_or_dropped libc h hsum hdata hdecoded with rfl|hwrong
  · left
    refine Checked.dispatched ?_ env
    exact ⟨rfl,rfl,hdecoded,hsum⟩
  · right
    rw [handleIncomingIpPacket,if_neg (by simp [calcIpChecksum]),if_neg (by simp)]
    simp only [Option.bind_some,hdecoded]
    rw [if_pos hwrong]

/-- The key of the connection that a listening socket makes for a packet. -/
def connectionId (socket : Socket) (packet : TCPPacket) (srcIp : CString) : SocketID :=
  {socket.id with dstIp := srcIp,dstPort := packet.srcPort}

/-- The connection that a listening socket makes for a packet. -/
def newConnection (env : Env) (socket : Socket) (packet : TCPPacket) (srcIp : CString) : Socket :=
  {createNewSocket env.now (connectionId socket packet srcIp) .synReceived with
    seqOfFirstSendWindow := (env.rand.val : ℤ)
    seqOfFirstRecvWindow := packet.seqNum+1}

/-- Both end fifos of a socket can be made: neither exists, and making them
works. -/
def EndFifosFree (env : Env) (files : Files) (id : SocketID) : Prop :=
  (env.mkfifoWorks (getEndFifoReadEndName id)=true ∧ files (getEndFifoReadEndName id)=false) ∧
    env.mkfifoWorks (getEndFifoWriteEndName id)=true ∧ files (getEndFifoWriteEndName id)=false

/-- Both fifo names of a socket differ. -/
theorem endFifoNames_ne (id : SocketID) :
    getEndFifoReadEndName id≠getEndFifoWriteEndName id := by
  intro h
  have hlen := congrArg List.length h
  have hread : (text "vnetwork_end_socket_read_").length=25 := by decide
  have hwrite : (text "vnetwork_end_socket_write_").length=26 := by decide
  simp only [getEndFifoReadEndName,getEndFifoWriteEndName,constructFullSocketFifoName,
    constructFullFifoName,addFolderPrefix,List.length_append,hread,hwrite] at hlen
  omega

/-- The end fifos are made exactly when both names are free and making them
works. -/
theorem createSocketEndFifos_iff (env : Env) (files : Files) (id : SocketID) :
    (createSocketEndFifos env files id).1=true ↔ EndFifosFree env files id := by
  have hne := endFifoNames_ne id
  unfold createSocketEndFifos EndFifosFree mkfifo
  by_cases hread : env.mkfifoWorks (getEndFifoReadEndName id)=true ∧
      files (getEndFifoReadEndName id)=false
  · simp only [if_pos hread,Function.update_of_ne hne.symm]
    by_cases hwrite : env.mkfifoWorks (getEndFifoWriteEndName id)=true ∧
        files (getEndFifoWriteEndName id)=false
    · simp [hread,hwrite]
    · simp [hread,hwrite]
  · simp [hread]

/-- A listening socket with room answers a SYN with a new connection, if its
fifos can be made, its key is new and the table is not full. -/
def Admits (env : Env) (manager : NetworkManager) (id : SocketID) : Prop :=
  EndFifosFree env manager.files id ∧ manager.sockets.numberOfSockets≠hashMapDefaultSize ∧
    manager.sockets.hasKey id=false

/-- The handler of a listening socket in terms of the connection it makes. -/
theorem handlePacketListen_eq (env : Env) (manager : NetworkManager) (socket : Socket)
    (packet : TCPPacket) (srcIp : CString) :
    handlePacketListen env manager socket packet srcIp=
      if packet.has synFlag=false then quiet manager socket
      else if socket.maxConnections=0 then
        {quiet manager socket with reply := some (generateRstPacket socket packet.srcPort)}
      else
        let created := createSocketEndFifos env manager.files (connectionId socket packet srcIp)
        if created.1=false then quiet {manager with files := created.2} socket
        else
          let inserted := manager.sockets.insertSocket (newConnection env socket packet srcIp)
          if inserted.1=false then
            quiet {manager with
              files := unlinkSocketFifos created.2 (connectionId socket packet srcIp)} socket
          else
            quiet {manager with sockets := inserted.2,files := created.2}
              {socket with maxConnections := socket.maxConnections-1} := rfl

/-- What a listening socket does with a packet, as far as sockets go: nothing,
or one new connection. -/
theorem handlePacketListen_cases (env : Env) (manager : NetworkManager) (socket : Socket)
    (packet : TCPPacket) (srcIp : CString) :
    let handled := handlePacketListen env manager socket packet srcIp
    handled.manager.ip=manager.ip ∧
    ((handled.manager.sockets=manager.sockets ∧ handled.socket=socket ∧
      (packet.has synFlag=true → socket.maxConnections≠0 →
        ¬Admits env manager (connectionId socket packet srcIp))) ∨
    (packet.has synFlag=true ∧ socket.maxConnections≠0 ∧
      Admits env manager (connectionId socket packet srcIp) ∧
      handled.socket={socket with maxConnections := socket.maxConnections-1} ∧
      ∃ j,∃ h : manager.sockets.table j=none,
        handled.manager.sockets=
          manager.sockets.fill j h (newConnection env socket packet srcIp))) := by
  intro handled
  have hfifos := createSocketEndFifos_iff env manager.files (connectionId socket packet srcIp)
  have hkey : (newConnection env socket packet srcIp).id=connectionId socket packet srcIp := rfl
  unfold handled
  rw [handlePacketListen_eq]
  by_cases hsyn : packet.has synFlag=false
  · rw [if_pos hsyn]
    exact ⟨rfl,Or.inl ⟨rfl,rfl,fun h => absurd (hsyn.symm.trans h) (by decide)⟩⟩
  rw [if_neg hsyn]
  by_cases hmax : socket.maxConnections=0
  · rw [if_pos hmax]
    exact ⟨rfl,Or.inl ⟨rfl,rfl,fun _ h => absurd hmax h⟩⟩
  rw [if_neg hmax]
  dsimp only
  by_cases hcreated : (createSocketEndFifos env manager.files
      (connectionId socket packet srcIp)).1=false
  · rw [if_pos hcreated]
    refine ⟨rfl,Or.inl ⟨rfl,rfl,fun _ _ hadmits => ?_⟩⟩
    have htrue := hfifos.mpr hadmits.1
    rw [hcreated] at htrue
    cases htrue
  rw [if_neg hcreated]
  rcases manager.sockets.insertSocket_cases (newConnection env socket packet srcIp) with
    ⟨he,hrefused⟩|⟨j,hj,he,hroom,hnew⟩
  · rw [if_pos (by rw [he])]
    refine ⟨rfl,Or.inl ⟨rfl,rfl,fun _ _ hadmits => ?_⟩⟩
    rcases hrefused with hfull|htaken
    · exact hadmits.2.1 hfull
    · rw [hkey,hadmits.2.2] at htaken
      cases htaken
  · have htable := congrArg Prod.snd he
    rw [if_neg (by simp [he])]
    refine ⟨rfl,Or.inr ⟨by simpa using hsyn,hmax,⟨?_,hroom,hnew⟩,rfl,j,hj,htable⟩⟩
    exact hfifos.mp (by simpa using hcreated)

/-- What a handler leaves alone: the socket's identity, and of the manager
everything but its files. -/
def Confined (manager : NetworkManager) (socket : Socket) (handled : Handled) : Prop :=
  handled.socket.id=socket.id ∧ handled.manager.sockets=manager.sockets ∧
    handled.manager.ip=manager.ip

/-- Acknowledging, storing and handing on bytes keep the identity. -/
theorem handlePacketEstablished_confined (env : Env) (manager : NetworkManager)
    (socket : Socket) (packet : TCPPacket) :
    Confined manager socket (handlePacketEstablished env manager socket packet) := by
  have hmanager : (handlePacketEstablished env manager socket packet).manager=manager := by
    unfold handlePacketEstablished
    dsimp only
    split
    · rfl
    split
    · rfl
    cases packet.data with
    | none => rfl
    | some data => rfl
  refine ⟨?_,by rw [hmanager],by rw [hmanager]⟩
  cases hfin : packet.has finFlag with
  | true =>
    simp only [handlePacketEstablished,hfin,if_true]
    split
    · rfl
    · rfl
  | false =>
    obtain ⟨_,_,_,hframe⟩ := handlePacketEstablished_frame env manager socket hfin
    obtain ⟨_,_,hacked,_⟩ := acknowledged_cases
      (packet.has synFlag=false ∧ packet.has ackFlag=true) packet.ackNum socket
    rw [hframe,hacked]

/-- Unless the socket listens, handling a packet changes no identity and no
other slot of the table. -/
theorem handlePacket_confined (env : Env) (manager : NetworkManager) {socket : Socket}
    (packet : TCPPacket) (srcIp : CString) (h : socket.state≠.listen) :
    Confined manager socket (handlePacket env manager socket packet srcIp) := by
  have houtcome := handlePacket_outcome env manager packet srcIp h
  generalize handlePacket env manager socket packet srcIp=handled at houtcome ⊢
  cases houtcome with
  | taken => exact handlePacketEstablished_confined env manager socket packet
  | ignored | reset | connected | accepted | finished | finAcked | finTaken | finAnswered =>
    exact ⟨rfl,rfl,rfl⟩

/-- Sending a reply moves at most a clock. -/
theorem afterReply_frame (env : Env) (handled : Handled) :
    ∃ clock,handled.afterReply env={handled.socket with lastSendClock := clock} := by
  unfold Handled.afterReply
  split <;> exact ⟨_,rfl⟩

@[simp] theorem afterReply_id (env : Env) (handled : Handled) :
    (handled.afterReply env).id=handled.socket.id := by
  obtain ⟨clock,hclock⟩ := afterReply_frame env handled
  rw [hclock]

@[simp] theorem storeSocket_ip (manager : NetworkManager) (i : Fin hashMapDefaultSize)
    (socket : Socket) : (storeSocket manager i socket).ip=manager.ip := rfl

/-- A packet with a socket for its whole key goes to that socket. -/
theorem dispatch_exact (env : Env) {manager : NetworkManager} {id : SocketID}
    {i : Fin hashMapDefaultSize} (packet : TCPPacket) (h : manager.sockets.indexOf id=some i) :
    dispatch env manager id packet=handOver env manager i id packet := by
  rw [dispatch,h]

/-- A packet without one goes to the socket bound to its port. -/
theorem dispatch_fallback (env : Env) {manager : NetworkManager} {id : SocketID}
    {i : Fin hashMapDefaultSize} (packet : TCPPacket) (h : manager.sockets.indexOf id=none)
    (hb : manager.sockets.indexOf id.boundOnly=some i) :
    dispatch env manager id packet=handOver env manager i id.boundOnly packet := by
  rw [dispatch,h,hb]

/-- A packet without any socket is ignored. -/
theorem dispatch_nobody (env : Env) {manager : NetworkManager} {id : SocketID}
    (packet : TCPPacket) (h : manager.sockets.indexOf id=none)
    (hb : manager.sockets.indexOf id.boundOnly=none) :
    dispatch env manager id packet=returned 0 manager := by
  rw [dispatch,h,hb]

section

variable (env : Env) {manager : NetworkManager} {i : Fin hashMapDefaultSize} {socket : Socket}
variable (key : SocketID) (packet : TCPPacket)

/-- What the handler and the reply make of the socket. -/
def handledSocket (env : Env) (manager : NetworkManager) (socket : Socket) (key : SocketID)
    (packet : TCPPacket) : Socket :=
  (handlePacket env manager socket packet key.srcIp).afterReply env

/-- A socket that does not listen changes in its own slot only. -/
theorem handOver_other (h : manager.sockets.table i=some socket) (hl : socket.state≠.listen) :
    (handOver env manager i key packet).manager.sockets.table=
        Function.update manager.sockets.table i
          (some (handledSocket env manager socket key packet)) ∧
      (handledSocket env manager socket key packet).id=socket.id ∧
      (handOver env manager i key packet).manager.ip=manager.ip := by
  obtain ⟨hid,hsockets,hip⟩ := handlePacket_confined env manager packet key.srcIp hl
  have htable : (handlePacket env manager socket packet key.srcIp).manager.sockets.table i=
      some socket := by rw [hsockets,h]
  have hstore := HashMap.setSocket_table htable (handledSocket env manager socket key packet)
  have hkey : (handledSocket env manager socket key packet).id=socket.id := by
    rw [handledSocket,afterReply_id,hid]
  refine ⟨?_,hkey,?_⟩
  · simp only [handOver,h]
    rw [hsockets] at hstore
    rw [←hstore,storeSocket,hsockets]
    rfl
  · simp only [handOver,h,storeSocket_ip,hip]

/-- All that is sent is the reply, to the second ip of the key. -/
theorem handOver_sent (h : manager.sockets.table i=some socket) :
    (handOver env manager i key packet).sent=
      ((handlePacket env manager socket packet key.srcIp).sentReply env).map
        fun reply => (reply,key.dstIp) := by
  simp only [handOver,h]

/-- A listening socket changes nothing, or it makes one new connection in a
free slot and counts it off. -/
theorem handOver_listen (h : manager.sockets.table i=some socket) (hl : socket.state=.listen) :
    ∃ listener,listener.id=socket.id ∧ listener.state=.listen ∧
      (handOver env manager i key packet).manager.ip=manager.ip ∧
      (((handOver env manager i key packet).manager.sockets.table=
          Function.update manager.sockets.table i (some listener) ∧
        listener.maxConnections=socket.maxConnections ∧
        (packet.has synFlag=true → socket.maxConnections≠0 →
          ¬Admits env manager (connectionId socket packet key.srcIp))) ∨
      (packet.has synFlag=true ∧ socket.maxConnections≠0 ∧
        Admits env manager (connectionId socket packet key.srcIp) ∧
        listener.maxConnections=socket.maxConnections-1 ∧
        ∃ j,j≠i ∧ manager.sockets.table j=none ∧
          (handOver env manager i key packet).manager.sockets.table=
            Function.update (Function.update manager.sockets.table j
              (some (newConnection env socket packet key.srcIp))) i (some listener))) := by
  have hlisten : handlePacket env manager socket packet key.srcIp=
      handlePacketListen env manager socket packet key.srcIp := by
    unfold handlePacket
    rw [if_neg (fun h' => h'.2 hl),if_neg (fun h' => h'.1 hl),hl]
  obtain ⟨hip,hcases⟩ := handlePacketListen_cases env manager socket packet key.srcIp
  obtain ⟨clock,hclock⟩ := afterReply_frame env
    (handlePacketListen env manager socket packet key.srcIp)
  refine ⟨(handlePacketListen env manager socket packet key.srcIp).afterReply env,?_⟩
  have hmanager : (handOver env manager i key packet).manager=
      storeSocket (handlePacketListen env manager socket packet key.srcIp).manager i
        ((handlePacketListen env manager socket packet key.srcIp).afterReply env) := by
    simp only [handOver,h,hlisten]
  rw [hmanager]
  rcases hcases with ⟨hsockets,hsocket,hrefused⟩|⟨hsyn,hmax,hadmits,hsocket,j,hj,hsockets⟩
  · have hstore := HashMap.setSocket_table (m:=manager.sockets) h
      ((handlePacketListen env manager socket packet key.srcIp).afterReply env)
    rw [storeSocket,hsockets]
    refine ⟨by rw [hclock,hsocket],by rw [hclock,hsocket]; exact hl,hip,Or.inl ⟨hstore,?_,hrefused⟩⟩
    rw [hclock,hsocket]
  · have hne : j≠i := by
      rintro rfl
      rw [h] at hj
      cases hj
    have hfilled : (manager.sockets.fill j hj
        (newConnection env socket packet key.srcIp)).table i=some socket := by
      rw [HashMap.fill_table,Function.update_of_ne hne.symm,h]
    have hstore := HashMap.setSocket_table hfilled
      ((handlePacketListen env manager socket packet key.srcIp).afterReply env)
    rw [storeSocket,hsockets]
    refine ⟨by rw [hclock,hsocket],by rw [hclock,hsocket]; exact hl,hip,
      Or.inr ⟨hsyn,hmax,hadmits,by rw [hclock,hsocket],j,hne,hj,hstore⟩⟩

/-- No packet changes the manager's ip. -/
theorem handOver_ip : (handOver env manager i key packet).manager.ip=manager.ip := by
  cases hstored : manager.sockets.table i with
  | none =>
    rw [handOver,hstored]
    rfl
  | some socket =>
    by_cases hl : socket.state=.listen
    · obtain ⟨_,_,_,hip,_⟩ := handOver_listen env key packet hstored hl
      exact hip
    · exact (handOver_other env key packet hstored hl).2.2

theorem dispatch_ip (id : SocketID) : (dispatch env manager id packet).manager.ip=manager.ip := by
  unfold dispatch
  split
  · exact handOver_ip env id packet
  · split
    · exact handOver_ip env id.boundOnly packet
    · rfl

end

end NetworkLayer.PacketDispatch
