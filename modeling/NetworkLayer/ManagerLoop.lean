import NetworkLayer.BindRequests
import NetworkLayer.PacketFraming
import NetworkLayer.SocketIteration

/-!
# The manager's loop

In every round the manager looks whether it is told to stop, handles one bind
request and up to ten incoming packets, and visits its sockets. A visit is
given the identity that the iteration points to. It lies in the memory of the
socket, so it changes when the socket's own does and is gone when the socket
is destroyed; each stage reads it anew.
-/

namespace NetworkLayer.ManagerLoop

open ByteStrings FormattedText UtilTypes Hashmap FifoUtils FifoReads TcpPackets IpPackets
open PacketHandlers PacketDispatch PacketFraming SocketRequests BindRequests

/-- What happens outside up to and during one call: what client processes have
done to the fifo files, and the answers of the system. -/
structure Moment where
  /-- The files as the clients leave them. -/
  clients : Files → Files
  /-- The answers. -/
  env : Env

/-- What is found at the visit to one socket. -/
structure Visit where
  /-- When the listen fifo is looked at. -/
  listen : Moment
  /-- The limit in it, if it can be opened and holds one. -/
  listenRequest : Option Byte
  /-- When the connect fifo is looked at. -/
  connect : Moment
  /-- The request in it, if it can be opened and holds one. -/
  connectRequest : Option CString
  /-- When the end fifo is looked at. -/
  endFifo : Moment
  /-- Whether a close command is read from it. -/
  command : Bool
  /-- When unacknowledged data are sent again. -/
  sendWindow : Moment
  /-- When the status messages are sent. -/
  statusMessages : Moment

/-- A call after others, with what these sent and wrote in front. -/
def after (done served : Served) : Served :=
  ⟨served.result,served.manager,done.sent++served.sent,done.toUser++served.toUser⟩

/-- The clients do something to the files, then the manager serves a request. -/
def serveAt (libc : Libc) (moment : Moment) (done : Served) (request : Request) : Served :=
  after done (serve libc {done.manager with files := moment.clients done.manager.files} request)

/-- One stage of the visit to the socket in a slot: it runs while the results
are zero, on the identity that the pointer leads to. None is a pointer into
memory that was freed. -/
def stage (libc : Libc) (i : Fin hashMapDefaultSize) (moment : Moment)
    (request : SocketID → Request) (done : Served) : Option Served :=
  if done.result≠0 then some done
  else (done.manager.sockets.socketId i).map fun sockId => serveAt libc moment done (request sockId)

/-- The first stages: a bound socket may be told to listen and to connect. -/
def handleBoundSocket (libc : Libc) (visit : Visit) (i : Fin hashMapDefaultSize)
    (sockId : SocketID) (done : Served) : Option Served :=
  if getSocketState sockId=.boundOnly then do
    let listened ← stage libc i visit.listen
      (fun id => .listen visit.listen.env id visit.listenRequest) done
    stage libc i visit.connect (fun id => .connect visit.connect.env id visit.connectRequest)
      listened
  else some done

/-- `handle_socket_in_network`. The stage for the out fifo of connected sockets
does nothing. -/
def handleSocketInNetwork (libc : Libc) (visit : Visit) (i : Fin hashMapDefaultSize)
    (done : Served) : Option Served := do
  let sockId ← done.manager.sockets.socketId i
  let requested ← handleBoundSocket libc visit i sockId {done with result := 0}
  let ended ← stage libc i visit.endFifo (fun id => .endFifo visit.endFifo.env id visit.command)
    requested
  let resent ← stage libc i visit.sendWindow (fun id => .sendWindow visit.sendWindow.env id) ended
  stage libc i visit.statusMessages (fun id => .statusMessages visit.statusMessages.env id) resent

/-- The slot of the identity that the iteration over the table is at. -/
def cursorSlot (m : HashMap) : Option (Fin hashMapDefaultSize) :=
  if h : 0 ≤ m.iteratorIndex ∧ m.iteratorIndex < hashMapDefaultSize then
    some ⟨m.iteratorIndex.toNat,by omega⟩
  else none

/-- The manager with another table. -/
def withSockets (done : Served) (sockets : HashMap) : Served :=
  {done with manager := {done.manager with sockets := sockets}}

variable (libc : Libc)

/-- `HASH_MAP_FOREACH` over the sockets from an answer of the iteration on,
with the slots visited. There are no more rounds than slots. -/
def visitLoop (visits : Fin hashMapDefaultSize → Visit) :
    ℕ → Option SocketID → Served → Option (List (Fin hashMapDefaultSize) × Served)
  | _,none,done => some ([],{done with result := 0})
  | 0,some _,_ => none
  | rounds+1,some _,done => do
    let i ← cursorSlot done.manager.sockets
    let visited ← handleSocketInNetwork libc (visits i) i done
    if visited.result=breakIteration then some ([i],{visited with result := 0})
    else if visited.result=-1 then some ([i],visited)
    else
      let next := visited.manager.sockets.hashMapGetNext
      let (slots,last) ← visitLoop visits rounds next.1 (withSockets visited next.2)
      return (i::slots,last)

/-- The last stage of a round. -/
def visitSockets (visits : Fin hashMapDefaultSize → Visit) (done : Served) :
    Option (List (Fin hashMapDefaultSize) × Served) :=
  let first := done.manager.sockets.hashMapGetFirst
  visitLoop libc visits hashMapDefaultSize first.1 (withSockets done first.2)

/-- An incoming packet is handled, as one of several; going on takes a result
of zero. -/
def handleNext (moments : ℕ → Moment) (s : Served × ℕ) (packet : IPPacket) : Bool × Served × ℕ :=
  let served := serveAt libc (moments s.2) s.1 (.packet (moments s.2).env packet)
  (served.result=0,served,s.2+1)

/-- `should_terminate_manager`. -/
def shouldTerminateManager (schedule : Schedule) (fifo : Fifo) : Bool :=
  (readEntireMessage schedule 0 0 1 (fun _ => 0) fifo).any fun reading => reading.result=1

/-- What one round of the loop meets. -/
structure Round where
  /-- How the terminate fifo is read. -/
  terminateSchedule : Schedule
  /-- The terminate fifo. -/
  terminateFifo : Fifo
  /-- When the bind fifo is looked at. -/
  bind : Moment
  /-- What is in it. -/
  bindFifo : FifoContent
  /-- What the buffer for the bind request holds before. -/
  bindRequest : ℕ → Byte
  /-- How the incoming packets are read. -/
  schedule : Schedule
  /-- How often the reading of one of them may go round. -/
  fuel : ℕ
  /-- The memory that is allocated for them. -/
  fresh : ℕ → ℕ → Byte
  /-- When each of them is handled. -/
  packets : ℕ → Moment
  /-- What is found at each socket. -/
  visits : Fin hashMapDefaultSize → Visit

/-- Where the loop is. -/
inductive Loop
  /-- At the start of a round, with all that was done and the incoming fifo. -/
  | running (done : Served) (inbox : Fifo)
  /-- The loop returned. -/
  | stopped (result : ℤ) (done : Served)
  /-- The reading of a packet goes on. -/
  | reading
  /-- An identity was used after it was freed. -/
  | dangling

/-- One round of `managerLoop`. -/
def managerRound (round : Round) (done : Served) (inbox : Fifo) : Loop :=
  if shouldTerminateManager round.terminateSchedule round.terminateFifo=true then .stopped 0 done
  else
    let manager := {done.manager with files := round.bind.clients done.manager.files}
    let bound := after done
      (handleBindFifo libc round.bind.env manager round.bindFifo round.bindRequest).1
    if bound.result≠0 then .stopped (-1) bound
    else match handleInPacketsFifo libc round.schedule round.fuel round.fresh
        (handleNext libc round.packets) (bound,0) inbox with
      | none => .reading
      | some (handled,rest) =>
        match visitSockets libc round.visits handled.1 with
        | none => .dangling
        | some visited =>
          if visited.2.result=-1 then .stopped (-1) visited.2 else .running visited.2 rest

/-- The loop goes through a round, unless it has come to its end. -/
def loopStep : Loop → Round → Loop
  | .running done inbox,round => managerRound libc round done inbox
  | loop,_ => loop

end NetworkLayer.ManagerLoop
