import NetworkLayer.FifoUtils
import NetworkLayer.Hashmap
import NetworkLayer.TcpPackets
import NetworkLayer.WindowedStreams

/-!
# What a socket does with a packet

One handler for each state of the connection, and the function that selects
it. A handler returns what the source changes through its pointers: the
manager, the socket, the packet to reply with and the bytes written to the
user's receive fifo.
-/

namespace NetworkLayer.PacketHandlers

open ByteStrings ArrayQueue UtilTypes Hashmap FifoUtils TcpPackets WindowedStreams

/-- A manager: its ip, its socket table and the fifo files of its host. -/
structure NetworkManager where
  /-- The ip this manager is in charge of. -/
  ip : CString
  /-- All sockets on this ip. -/
  sockets : HashMap
  /-- The existing fifo files. -/
  files : Files

/-- `createNetworkManager` with the empty table its loop starts from. -/
def createNetworkManager (ip : CString) (files : Files) : NetworkManager :=
  ⟨ip,createHashMap,files⟩

/-- Outcome of handling one packet. -/
structure Handled where
  /-- The manager afterwards, the handled socket's own slot apart. -/
  manager : NetworkManager
  /-- The socket afterwards. -/
  socket : Socket
  /-- The packet to send back at once, if any. -/
  reply : Option TCPPacket
  /-- Bytes written to the user's receive fifo. -/
  toUser : List Byte

/-- A socket change without a reply. -/
def quiet (manager : NetworkManager) (socket : Socket) : Handled := ⟨manager,socket,none,[]⟩

@[simp] theorem quiet_manager (manager : NetworkManager) (socket : Socket) :
    (quiet manager socket).manager=manager := rfl

@[simp] theorem quiet_socket (manager : NetworkManager) (socket : Socket) :
    (quiet manager socket).socket=socket := rfl

@[simp] theorem quiet_reply (manager : NetworkManager) (socket : Socket) :
    (quiet manager socket).reply=none := rfl

@[simp] theorem quiet_toUser (manager : NetworkManager) (socket : Socket) :
    (quiet manager socket).toUser=[] := rfl

/-- `notify_connect_client`: creates the end fifos of the connection, then
writes the grant to the fifo of the bound socket. -/
def notifyConnectClient (env : Env) (manager : NetworkManager) (socket : Socket) :
    Bool × NetworkManager :=
  let created := createSocketEndFifos env manager.files socket.id
  if created.1=true then
    (env.writeWorks (getConnectFifoReadEndName socket.id.boundOnly),
      {manager with files := created.2})
  else (false,{manager with files := created.2})

/-- `notify_accept_client`: writes the partner's address to the accept fifo
of the bound socket. -/
def notifyAcceptClient (env : Env) (socket : Socket) : Bool :=
  env.writeWorks (getAcceptFifoWriteEndName socket.id.boundOnly)

/-- `update_recv_window`: hands the valid run at the left end to the user's
fifo and shifts both arrays by the number of bytes it took. -/
def updateRecvWindow (env : Env) (socket : Socket) : Socket × List Byte :=
  let validRecvs := filled socket.recvWindowIsvalid
  match writeStringToFifoName env validRecvs with
  | none => (socket,[])
  | some bytesWrittenToUser =>
    ({socket with
      seqOfFirstRecvWindow := socket.seqOfFirstRecvWindow+bytesWrittenToUser
      recvWindow := copyDown bytesWrittenToUser socket.recvWindow
      recvWindowIsvalid := clearFrom (maxWindowSize-bytesWrittenToUser)
        (copyDown bytesWrittenToUser socket.recvWindowIsvalid)},
      (List.ofFn socket.recvWindow).take bytesWrittenToUser)

/-- One round of the loop of `receiveNewData`: a byte is stored if its place
is inside the window and still missing. -/
def storeByte (currentByteSeq : ℤ) (b : Byte) (socket : Socket) : Socket :=
  let placeInWindow := currentByteSeq-socket.seqOfFirstRecvWindow
  if h : 0 ≤ placeInWindow ∧ placeInWindow < maxWindowSize then
    let place : Fin maxWindowSize := ⟨placeInWindow.toNat,by omega⟩
    if socket.recvWindowIsvalid place=false then
      {socket with
        recvWindow := Function.update socket.recvWindow place b
        recvWindowIsvalid := Function.update socket.recvWindowIsvalid place true}
    else socket
  else socket

/-- The loop of `receiveNewData` from one sequence number on. -/
def storeBytes (seqNum : ℤ) : List Byte → Socket → Socket
  | [],socket => socket
  | b::rest,socket => storeBytes (seqNum+1) rest (storeByte seqNum b socket)

/-- `receiveNewData`. -/
def receiveNewData (env : Env) (socket : Socket) (packet : TCPPacket) (data : CString) :
    Socket × List Byte :=
  updateRecvWindow env (storeBytes packet.seqNum data.chars socket)

/-- The acknowledgement loop: drop bytes below the acknowledged number while
there are any. Each round dequeues, so the size bounds the rounds. -/
def acknowledge (ackNum : ℤ) : ℕ → Socket → Socket
  | 0,socket => socket
  | n+1,socket =>
    if socket.seqOfFirstSendWindow < ackNum ∧ socket.sendWindow.queueIsEmpty=false then
      acknowledge ackNum n {socket with
        sendWindow := socket.sendWindow.dequeue.2
        seqOfFirstSendWindow := socket.seqOfFirstSendWindow+1}
    else socket

/-- `generate_rst_packet`. -/
def generateRstPacket (socket : Socket) (dstPort : ℤ) : TCPPacket :=
  constructPacket socket CString.empty rstFlag dstPort

/-- `handle_packet_closed`. -/
def handlePacketClosed (manager : NetworkManager) (socket : Socket) : Handled :=
  quiet manager socket

/-- `handle_packet_listen`: a SYN makes a new connection, whose partner ip is
the given one and whose partner port is the packet's source port. -/
def handlePacketListen (env : Env) (manager : NetworkManager) (socket : Socket)
    (packet : TCPPacket) (srcIp : CString) : Handled :=
  if packet.has synFlag=false then quiet manager socket
  else if socket.maxConnections=0 then
    {quiet manager socket with reply := some (generateRstPacket socket packet.srcPort)}
  else
    let newConnId := {socket.id with dstIp := srcIp,dstPort := packet.srcPort}
    let created := createSocketEndFifos env manager.files newConnId
    if created.1=false then quiet {manager with files := created.2} socket
    else
      let newConn := {createNewSocket env.now newConnId .synReceived with
        seqOfFirstSendWindow := (env.rand.val : ℤ)
        seqOfFirstRecvWindow := packet.seqNum+1}
      let inserted := manager.sockets.insertSocket newConn
      if inserted.1=false then
        quiet {manager with files := unlinkSocketFifos created.2 newConnId} socket
      else
        quiet {manager with sockets := inserted.2,files := created.2}
          {socket with maxConnections := socket.maxConnections-1}

/-- `handle_packet_syn_sent`. -/
def handlePacketSynSent (env : Env) (manager : NetworkManager) (socket : Socket)
    (packet : TCPPacket) : Handled :=
  if packet.has synFlag=false then quiet manager socket
  else if packet.has ackFlag=false ∨ packet.ackNum≠socket.seqOfFirstSendWindow then
    quiet manager socket
  else
    let notified := notifyConnectClient env manager socket
    if notified.1=true then
      quiet notified.2 {socket with
        seqOfFirstRecvWindow := packet.seqNum+1
        state := .established}
    else quiet notified.2 socket

/-- `handle_packet_syn_received`. -/
def handlePacketSynReceived (env : Env) (manager : NetworkManager) (socket : Socket)
    (packet : TCPPacket) : Handled :=
  if packet.has ackFlag=false then quiet manager socket
  else if packet.ackNum≠socket.seqOfFirstSendWindow then quiet manager socket
  else if notifyAcceptClient env socket=true then
    quiet manager {socket with state := .established}
  else quiet manager socket

/-- `handle_packet_established`. -/
def handlePacketEstablished (env : Env) (manager : NetworkManager) (socket : Socket)
    (packet : TCPPacket) : Handled :=
  if packet.has synFlag=true then quiet manager socket
  else if packet.has finFlag=true then
    quiet manager {socket with
      state := .closeWait
      seqOfFirstRecvWindow := packet.seqNum+1
      seqOfFirstSendWindow := socket.seqOfFirstSendWindow+socket.sendWindow.size}
  else
    let acked := if packet.has ackFlag=true then
        acknowledge packet.ackNum socket.sendWindow.size socket
      else socket
    match packet.data with
    | some data =>
      let received := receiveNewData env acked packet data
      ⟨manager,received.1,some (constructPacket received.1 CString.empty ackFlag packet.srcPort),
        received.2⟩
    | none => quiet manager acked

/-- `handle_packet_close_wait` ignores all packets. -/
def handlePacketCloseWait (manager : NetworkManager) (socket : Socket) : Handled :=
  quiet manager socket

/-- `handle_packet_last_ack`. -/
def handlePacketLastAck (manager : NetworkManager) (socket : Socket) (packet : TCPPacket) :
    Handled :=
  if packet.has ackFlag=false then quiet manager socket
  else if packet.ackNum ≤ socket.seqOfFirstSendWindow then quiet manager socket
  else quiet manager {socket with state := .closed}

/-- `handle_packet_fin_wait_1`. -/
def handlePacketFinWait1 (env : Env) (manager : NetworkManager) (socket : Socket)
    (packet : TCPPacket) : Handled :=
  let receivedAckForOwnFin :=
    packet.has ackFlag && decide (packet.ackNum > socket.seqOfFirstSendWindow)
  let acked := if receivedAckForOwnFin=true then {socket with state := .finWait2} else socket
  if packet.has finFlag=true then
    let closing := {acked with
      seqOfFirstRecvWindow := packet.seqNum+1
      state := .closing
      timeSinceFinSent := env.now}
    if receivedAckForOwnFin=true then
      quiet manager {closing with lastSendClock := env.now,state := .timeWait}
    else quiet manager closing
  else quiet manager acked

/-- `handle_packet_fin_wait_2`. -/
def handlePacketFinWait2 (manager : NetworkManager) (socket : Socket) (packet : TCPPacket) :
    Handled :=
  if packet.has finFlag=true then
    let finished := {socket with
      state := .timeWait
      seqOfFirstRecvWindow := packet.seqNum+1}
    {quiet manager finished with
      reply := some (constructPacket finished CString.empty ackFlag packet.srcPort)}
  else quiet manager socket

/-- `handle_packet_closing`. -/
def handlePacketClosing (env : Env) (manager : NetworkManager) (socket : Socket)
    (packet : TCPPacket) : Handled :=
  if packet.has ackFlag=true ∧ packet.ackNum > socket.seqOfFirstSendWindow then
    quiet manager {socket with lastSendClock := env.now,state := .timeWait}
  else quiet manager socket

/-- `handle_packet_time_wait` ignores all packets. -/
def handlePacketTimeWait (manager : NetworkManager) (socket : Socket) : Handled :=
  quiet manager socket

/-- `handle_packet`: resets and foreign ports are dealt with first, except
for a listening socket; then the state's own handler runs. -/
def handlePacket (env : Env) (manager : NetworkManager) (socket : Socket) (packet : TCPPacket)
    (srcIp : CString) : Handled :=
  if packet.has rstFlag=true ∧ socket.state≠.listen then
    quiet manager {socket with state := .closed}
  else if socket.state≠.listen ∧ packet.srcPort≠socket.id.dstPort then quiet manager socket
  else match socket.state with
    | .closed => handlePacketClosed manager socket
    | .listen => handlePacketListen env manager socket packet srcIp
    | .synSent => handlePacketSynSent env manager socket packet
    | .synReceived => handlePacketSynReceived env manager socket packet
    | .established => handlePacketEstablished env manager socket packet
    | .closeWait => handlePacketCloseWait manager socket
    | .lastAck => handlePacketLastAck manager socket packet
    | .finWait1 => handlePacketFinWait1 env manager socket packet
    | .finWait2 => handlePacketFinWait2 manager socket packet
    | .closing => handlePacketClosing env manager socket packet
    | .timeWait => handlePacketTimeWait manager socket

/-- The socket after its reply was handed to the network: the clock of the
last packet moves when the reply was sent. -/
def Handled.afterReply (env : Env) (handled : Handled) : Socket :=
  if handled.reply.isSome=true ∧ env.sendResult 0=.ok then
    {handled.socket with lastSendClock := env.now}
  else handled.socket

@[simp] theorem afterReply_state (env : Env) (handled : Handled) :
    (handled.afterReply env).state=handled.socket.state := by
  unfold Handled.afterReply
  split <;> rfl

/-- The reply, if it reached the network. -/
def Handled.sentReply (env : Env) (handled : Handled) : List TCPPacket :=
  if env.sendResult 0=.ok then handled.reply.toList else []

/-- A listening socket replies to a SYN only, with a reset. -/
theorem handlePacketListen_reply {env : Env} {manager : NetworkManager} {s : Socket}
    {packet r : TCPPacket} {srcIp : CString}
    (hr : (handlePacketListen env manager s packet srcIp).reply=some r) :
    packet.has synFlag=true ∧ r=generateRstPacket s packet.srcPort := by
  unfold handlePacketListen at hr
  dsimp only at hr
  split at hr
  · cases hr
  next hsyn =>
  split at hr
  · exact ⟨by simpa using hsyn,(Option.some.inj hr).symm⟩
  split at hr
  · cases hr
  split at hr <;> cases hr

/-- An established socket replies to data only, with an ACK. -/
theorem handlePacketEstablished_reply {env : Env} {manager : NetworkManager} {s : Socket}
    {packet r : TCPPacket} (hr : (handlePacketEstablished env manager s packet).reply=some r) :
    r=constructPacket (handlePacketEstablished env manager s packet).socket CString.empty ackFlag
        packet.srcPort ∧ packet.data≠none := by
  unfold handlePacketEstablished at hr ⊢
  dsimp only at hr ⊢
  split at hr
  · cases hr
  next hsyn =>
  split at hr
  · cases hr
  next hfin =>
  rw [if_neg hsyn,if_neg hfin]
  cases hdata : packet.data with
  | none =>
    simp only [hdata] at hr
    cases hr
  | some data =>
    simp only [hdata] at hr
    exact ⟨(Option.some.inj hr).symm,by simp⟩

end NetworkLayer.PacketHandlers
