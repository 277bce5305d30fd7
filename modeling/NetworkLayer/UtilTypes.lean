import NetworkLayer.ArrayQueue

/-!
# Sockets and their identities

The records shared by all modules of the manager. A socket keeps its
identity, its state in the connection automaton, both windows with their
sequence numbers and the clocks of its timers. Descriptor fields that the
manager sets once and only closes at shutdown are left out.
-/

namespace NetworkLayer.UtilTypes

open ByteStrings ArrayQueue

/-- `MAX_WINDOW_SIZE`, the size of every receive window. -/
abbrev maxWindowSize : ℕ := 1024

/-- `MAX_IP_LENGTH`. -/
def maxIpLength : ℕ := 16

/-- `EMPTY_PORT`. -/
def emptyPort : ℤ := 0

/-- The states of a connection. -/
inductive TCPState
  | closed | listen | synSent | synReceived | established | closeWait
  | lastAck | finWait1 | finWait2 | closing | timeWait
  deriving DecidableEq,Repr

/-- What identifies a socket: its own address and its partner's. -/
structure SocketID where
  /-- Own port. -/
  srcPort : ℤ
  /-- The partner's port, or the empty port. -/
  dstPort : ℤ
  /-- Own ip. -/
  srcIp : CString
  /-- The partner's ip, or the empty ip. -/
  dstIp : CString
  deriving DecidableEq

/-- A socket as the manager keeps it. -/
structure Socket where
  /-- The identity, which is also its key in the socket table. -/
  id : SocketID
  /-- State of the connection. -/
  state : TCPState
  /-- Bytes enqueued by the user and not yet acknowledged. -/
  sendWindow : Queue
  /-- Sequence number of the first byte in the send window. -/
  seqOfFirstSendWindow : ℤ
  /-- Received bytes, with holes. -/
  recvWindow : Fin maxWindowSize → Byte
  /-- Sequence number of the next byte to hand to the user. -/
  seqOfFirstRecvWindow : ℤ
  /-- Which cells of the receive window hold a received byte. -/
  recvWindowIsvalid : Fin maxWindowSize → Bool
  /-- Connections a listening socket may still accept. -/
  maxConnections : ℤ
  /-- Clock of the last packet that was sent. -/
  lastSendClock : ℤ
  /-- Clock at creation. -/
  creationTime : ℤ
  /-- Clock of the close command or of the peer's FIN. -/
  timeSinceFinSent : ℤ

/-- `ip_set_empty`: the ip of sixteen `e` characters. -/
def emptyIp : CString := ⟨List.replicate 16 101,nulFree_replicate 16 (by decide)⟩

/-- The ip of sixteen digits one. -/
def onesIp : CString := ⟨List.replicate 16 49,nulFree_ones⟩

/-- `is_empty_ip` looks at the first character only. -/
def isEmptyIp (ip : CString) : Bool := ip.chars.head?=some 101

/-- The identity with its partner blanked, as a bound socket has it. -/
def SocketID.boundOnly (id : SocketID) : SocketID := {id with dstIp := emptyIp,dstPort := emptyPort}

/-- `is_socket_connected`. -/
def isSocketConnected (id : SocketID) : Bool :=
  !isEmptyIp id.dstIp && id.dstPort != emptyPort && !isEmptyIp id.srcIp && id.srcPort != emptyPort

/-- `is_socket_bound_only`. -/
def isSocketBoundOnly (id : SocketID) : Bool :=
  isEmptyIp id.dstIp && id.dstPort == emptyPort && !isEmptyIp id.srcIp && id.srcPort != emptyPort

/-- `is_socket_empty`. -/
def isSocketEmpty (id : SocketID) : Bool :=
  isEmptyIp id.dstIp && id.dstPort == emptyPort && isEmptyIp id.srcIp && id.srcPort == emptyPort

/-- What `get_socket_state` tells identities apart by. -/
inductive SocketState
  | connected | boundOnly | empty | invalid
  deriving DecidableEq,Repr

/-- `get_socket_state`. -/
def getSocketState (id : SocketID) : SocketState :=
  if isSocketConnected id=true then .connected
  else if isSocketBoundOnly id=true then .boundOnly
  else if isSocketEmpty id=true then .empty
  else .invalid

/-- `create_new_socket` for a given identity and state: empty windows, zero
sequence numbers. The fields it leaves uninitialised are set by the code
before it reads them. -/
def createNewSocket (now : ℤ) (id : SocketID) (state : TCPState) : Socket where
  id := id
  state := state
  sendWindow := queueCreate
  seqOfFirstSendWindow := 0
  recvWindow := fun _ => 0
  seqOfFirstRecvWindow := 0
  recvWindowIsvalid := fun _ => false
  maxConnections := 0
  lastSendClock := now
  creationTime := now
  timeSinceFinSent := 0

/-- A socket that listens on port 80 of that ip, with room for five. -/
def listener80 : Socket :=
  {createNewSocket 0 ⟨80,emptyPort,onesIp,emptyIp⟩ .listen with maxConnections := 5}

end NetworkLayer.UtilTypes
