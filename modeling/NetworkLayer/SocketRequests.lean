import NetworkLayer.PacketDispatch

/-!
# Requests to the manager

Users ask the manager through fifos to bind a port, to listen, to connect and
to close; the manager also removes sockets that stayed closed and runs its
timer passes. Each function looks its socket up by the key it is given and
then works through the pointer, so a close command on a connecting socket
rewrites a key in place.
-/

namespace NetworkLayer.SocketRequests

open ByteStrings FormattedText UtilTypes Hashmap FifoUtils TcpPackets IpPackets
open PacketHandlers SocketPasses PacketDispatch

/-- `BREAK_ITERATION`. -/
def breakIteration : ℤ := 2

/-- The pointer that `getSocket` returns: the slot and the socket in it. -/
def pointerTo (m : HashMap) (key : SocketID) : Option (Fin hashMapDefaultSize × Socket) :=
  (m.indexOf key).bind fun i => (m.table i).map fun socket => (i,socket)

/-- `remove_and_destroy_socket`. -/
def removeAndDestroySocket (manager : NetworkManager) (sockId : SocketID) : NetworkManager :=
  match manager.sockets.getSocket sockId with
  | none => manager
  | some toRemove => {manager with
      sockets := (manager.sockets.hashmapRemove sockId).2
      files := unlinkSocketFifosServerSide manager.files toRemove.id}

/-- `can_bind_new_socket`. -/
def canBindNewSocket (manager : NetworkManager) (sockId : SocketID) : Bool :=
  (manager.sockets.getSocket sockId).isNone

/-- `create_bound_socket`. -/
def createBoundSocket (env : Env) (files : Files) (sockId : SocketID) : Option Socket × Files :=
  let created := createSocketEndFifos env files sockId
  if created.1=true then (some (createNewSocket env.now sockId .closed),created.2)
  else (none,created.2)

/-- `bind_new_socket`; the fifos stay where the insertion is refused. -/
def bindNewSocket (env : Env) (manager : NetworkManager) (sockId : SocketID) :
    ℤ × NetworkManager :=
  let bound := createBoundSocket env manager.files sockId
  match bound.1 with
  | none => (-1,{manager with files := bound.2})
  | some newSocket =>
    let inserted := manager.sockets.insertSocket newSocket
    if inserted.1=true then (0,{manager with sockets := inserted.2,files := bound.2})
    else (-1,{manager with files := bound.2})

/-- The three numbers of a bind request, between underscores. -/
def scanBindRequest (libc : Libc) (request : CString) : Option (ℤ × ℤ × ℤ) := do
  let (port,rest) ← scanInt libc request.strlen request.chars
  let rest ← scanLiteral 95 rest
  let (pid,rest) ← scanInt libc rest.length rest
  let rest ← scanLiteral 95 rest
  let (socketCounter,_) ← scanInt libc rest.length rest
  return (port,pid,socketCounter)

/-- The key of a socket bound to a port of this manager. -/
def boundId (manager : NetworkManager) (port : ℤ) : SocketID :=
  ⟨port,emptyPort,manager.ip,emptyIp⟩

/-- `handle_bind_request`. A granted bind is taken back when the client does
not get its reply. -/
def handleBindRequest (libc : Libc) (env : Env) (manager : NetworkManager) (request : CString) :
    Served :=
  match scanBindRequest libc request with
  | none => returned (-1) manager
  | some (port,pid,socketCounter) =>
    let sockId := boundId manager port
    let replied := env.writeWorks (getClientFifoName pid socketCounter)
    if canBindNewSocket manager sockId=true then
      let bound := bindNewSocket env manager sockId
      if bound.1≠0 then returned (-1) bound.2
      else if replied=true then returned 0 bound.2
      else returned breakIteration (removeAndDestroySocket bound.2 sockId)
    else returned (if replied=true then 0 else -1) manager

/-- `check_and_handle_listen_request`, with the limit read from the socket's
listen fifo, if it can be opened and holds one. -/
def checkAndHandleListenRequest (env : Env) (manager : NetworkManager) (sockId : SocketID)
    (request : Option Byte) : Served :=
  match pointerTo manager.sockets sockId,request with
  | some (i,sock),some limit =>
    if sock.state=.listen then returned 0 manager
    else
      let made := mkfifo env manager.files (getAcceptFifoWriteEndName sockId)
      let replied := env.writeWorks (getListenFifoReadEndName sockId)
      returned 0 (storeSocket {manager with files := made.2} i {sock with
        state := if made.1=true ∧ replied=true then .listen else .closed
        maxConnections := charValue limit})
  | _,_ => returned 0 manager

/-- The address in a connect request: a word before the first underscore and
a number behind it. -/
def scanConnectRequest (libc : Libc) (request : CString) : Option (CString × ℤ) := do
  let rest ← scanLiteral 95 (request.chars.dropWhile fun b => b != 95)
  let (dstPort,_) ← scanInt libc rest.length rest
  let (dstIp,_) ← scanWord (request.chars.takeWhile fun b => b != 95)
  return (CString.ofCells dstIp,dstPort)

/-- The socket that a connect request makes of a closed one. -/
def connecting (env : Env) (sock : Socket) (dstIp : CString) (dstPort : ℤ) : Socket :=
  {sock with
    id := {sock.id with dstIp := dstIp,dstPort := dstPort}
    state := .synSent
    seqOfFirstSendWindow := (env.rand.val : ℤ)%2000+1
    seqOfFirstRecvWindow := 0}

/-- `check_and_handle_connect_request`, with the request read from the
socket's connect fifo, if it can be opened and holds one. -/
def checkAndHandleConnectRequest (libc : Libc) (env : Env) (manager : NetworkManager)
    (sockId : SocketID) (request : Option CString) : Served :=
  match pointerTo manager.sockets sockId,request.bind (scanConnectRequest libc) with
  | some (_,sock),some (dstIp,dstPort) =>
    if sock.state≠.closed then returned 0 manager
    else if (manager.sockets.getSocket
        {sockId with dstIp := dstIp,dstPort := dstPort}).isSome=true then returned 0 manager
    else
      let removed := manager.sockets.hashmapRemove sockId
      if removed.1=false then returned (-1) manager
      else
        let inserted := removed.2.insertSocket (connecting env sock dstIp dstPort)
        if inserted.1=true then
          returned breakIteration {manager with sockets := inserted.2}
        else returned 0 {manager with sockets := removed.2}
  | _,_ => returned 0 manager

/-- `check_and_handle_closed_socket`. -/
def checkAndHandleClosedSocket (env : Env) (manager : NetworkManager) (socketToClose : Socket) :
    Served :=
  if socketToClose.state=.closed ∧ elapsed env socketToClose.creationTime socketTimeout=true then
    returned breakIteration (removeAndDestroySocket manager socketToClose.id)
  else returned 0 manager

/-- `check_and_handle_socket_end_fifo`, with whether a close command is read
from the end fifo. -/
def checkAndHandleSocketEndFifo (env : Env) (manager : NetworkManager) (sockId : SocketID)
    (command : Bool) : Served :=
  match pointerTo manager.sockets sockId with
  | none => returned 0 manager
  | some (i,socketToClose) =>
    if command=true then
      checkAndHandleClosedSocket env (storeSocket manager i (closeCommand env socketToClose))
        (closeCommand env socketToClose)
    else checkAndHandleClosedSocket env manager socketToClose

/-- A timer pass over the socket with a key: the packets that are sent go to
the ip in the key. -/
def servePass (pass : Socket → Passed) (manager : NetworkManager) (sockId : SocketID) : Served :=
  match pointerTo manager.sockets sockId with
  | none => returned 0 manager
  | some (i,sock) =>
    ⟨0,storeSocket manager i (pass sock).socket,
      (pass sock).sent.map fun packet => (packet,sockId.dstIp),[]⟩

/-- One thing the manager does, or that its users do to the fifo files. -/
inductive Request
  /-- A bind request is handled. -/
  | bind (env : Env) (request : CString)
  /-- The listen fifo of a socket is looked at. -/
  | listen (env : Env) (sockId : SocketID) (request : Option Byte)
  /-- The connect fifo of a socket is looked at. -/
  | connect (env : Env) (sockId : SocketID) (request : Option CString)
  /-- An incoming packet is handled. -/
  | packet (env : Env) (packet : IPPacket)
  /-- The end fifo of a socket is looked at, and a closed one may be removed. -/
  | endFifo (env : Env) (sockId : SocketID) (command : Bool)
  /-- `check_and_handle_send_window` runs. -/
  | sendWindow (env : Env) (sockId : SocketID)
  /-- `check_and_handle_outgoing_status_messages` runs. -/
  | statusMessages (env : Env) (sockId : SocketID)
  /-- Client processes create and unlink fifo files. -/
  | clients (files : Files)

/-- The manager serves a request. -/
def serve (libc : Libc) (manager : NetworkManager) : Request → Served
  | .bind env request => handleBindRequest libc env manager request
  | .listen env sockId request => checkAndHandleListenRequest env manager sockId request
  | .connect env sockId request => checkAndHandleConnectRequest libc env manager sockId request
  | .packet env packet => handleIncomingIpPacket libc env manager packet
  | .endFifo env sockId command => checkAndHandleSocketEndFifo env manager sockId command
  | .sendWindow env sockId => servePass (checkAndHandleSendWindow env) manager sockId
  | .statusMessages env sockId =>
    servePass (checkAndHandleOutgoingStatusMessages env) manager sockId
  | .clients files => returned 0 {manager with files := files}

/-- The manager after serving a request. -/
def managerStep (libc : Libc) (manager : NetworkManager) (request : Request) : NetworkManager :=
  (serve libc manager request).manager

/-- The pointer leads to a socket with the key. -/
theorem pointerTo_spec {m : HashMap} {key : SocketID} {i : Fin hashMapDefaultSize}
    {socket : Socket} (h : pointerTo m key=some (i,socket)) :
    m.indexOf key=some i ∧ m.table i=some socket ∧ socket.id=key := by
  unfold pointerTo at h
  obtain ⟨k,hk,hmap⟩ := Option.bind_eq_some_iff.mp h
  obtain ⟨stored,hstored,hpair⟩ := Option.map_eq_some_iff.mp hmap
  obtain ⟨rfl,rfl⟩ := Prod.mk.inj hpair
  obtain ⟨other,hother,hid⟩ := HashMap.indexOf_spec hk
  obtain rfl := Option.some.inj (hstored.symm.trans hother)
  exact ⟨hk,hstored,hid⟩

/-- With unique keys, the pointer to a stored socket is its slot. -/
theorem pointerTo_stored {m : HashMap} (hu : m.KeysUnique) {i : Fin hashMapDefaultSize}
    {socket : Socket} (h : m.table i=some socket) : pointerTo m socket.id=some (i,socket) := by
  have hindex : m.indexOf socket.id=some i := hu.indexOf_eq_some_iff.mpr ⟨socket,h,rfl⟩
  rw [pointerTo,hindex,Option.bind_some,h,Option.map_some]

/-- Passes never rewrite the identity of the socket. -/
theorem checkAndHandleSendWindow_id (env : Env) (sock : Socket) :
    (checkAndHandleSendWindow env sock).socket.id=sock.id := by
  rcases checkAndHandleSendWindow_cases env sock with he|⟨_,q,clock,data,_,_,he⟩ <;> rw [he]
  rfl

theorem checkAndHandleOutgoingStatusMessages_id (env : Env) (sock : Socket) :
    (checkAndHandleOutgoingStatusMessages env sock).socket.id=sock.id := by
  have houtcome := checkAndHandleOutgoingStatusMessages_outcome env sock
  generalize checkAndHandleOutgoingStatusMessages env sock=passed at houtcome ⊢
  cases houtcome with
  | sends | timedOut | moves | finishes | expires => rfl

end NetworkLayer.SocketRequests
