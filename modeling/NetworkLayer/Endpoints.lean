import NetworkLayer.SocketSteps
import NetworkLayer.StepRuns

/-!
# Two connected endpoints and the network between them

Each side has its socket and the history of its side: what its user handed
over, what was written to its user, the packets it emitted and those that
reached the network, and the FINs it accepted. A packet that reached the
network may be handed to the other side any number of times, at any later
time, in any order, or never. Sequence numbers are the source's `int`s below
overflow.
-/

namespace NetworkLayer.Endpoints

open ByteStrings UtilTypes FifoUtils TcpPackets PacketHandlers SocketPasses SocketSteps StepRuns

/-- The two ends of the connection. -/
inductive Side
  | left | right
  deriving DecidableEq,Repr

/-- The opposite end. -/
def Side.other : Side → Side
  | .left => .right
  | .right => .left

@[simp] theorem Side.other_other (side : Side) : side.other.other=side := by
  cases side <;> rfl

@[simp] theorem Side.other_ne (side : Side) : side.other≠side := by
  cases side <;> decide

/-- One end: its socket and the history of its side. -/
structure Endpoint where
  /-- The socket. -/
  socket : Socket
  /-- All bytes moved from the user into the send window so far. -/
  enqueued : List Byte
  /-- All bytes written to the user's receive fifo so far. -/
  delivered : List Byte
  /-- All packets handed to `send_TCP_packet` so far. -/
  emitted : List TCPPacket
  /-- Those of them that reached the network. -/
  sent : List TCPPacket
  /-- The FINs accepted so far, each with the state it was accepted in. -/
  accepted : List (TCPState × TCPPacket)

/-- Both ends. -/
abbrev World := Side → Endpoint

/-- `handle_packet` at one end, its reply handed on. -/
def Endpoint.receive (env : Env) (manager : NetworkManager) (packet : TCPPacket)
    (endpoint : Endpoint) : Endpoint :=
  let handled := handlePacket env manager endpoint.socket packet endpoint.socket.id.srcIp
  {endpoint with
    socket := handled.afterReply env
    delivered := endpoint.delivered++handled.toUser
    emitted := endpoint.emitted++handled.reply.toList
    sent := endpoint.sent++handled.sentReply env
    accepted := endpoint.accepted++
      if acceptsFin endpoint.socket packet=true then [(endpoint.socket.state,packet)] else []}

/-- A pass of the manager's loop over one end. -/
def Endpoint.pass (passed : Passed) (endpoint : Endpoint) : Endpoint :=
  {endpoint with
    socket := passed.socket
    enqueued := endpoint.enqueued++passed.moved
    emitted := endpoint.emitted++passed.attempts.map Prod.fst
    sent := endpoint.sent++passed.sent}

/-- A close command at one end. -/
def Endpoint.close (env : Env) (endpoint : Endpoint) : Endpoint :=
  {endpoint with socket := closeCommand env endpoint.socket}

/-- What can happen next, with everything the world outside answers. -/
inductive Action
  /-- The packet of this index among those the other side sent arrives. -/
  | receive (side : Side) (index : ℕ) (env : Env) (manager : NetworkManager)
  /-- `check_and_handle_send_window` runs. -/
  | sendWindow (side : Side) (env : Env)
  /-- `check_and_handle_outgoing_status_messages` runs. -/
  | statusMessages (side : Side) (env : Env)
  /-- The user's close command is read. -/
  | close (side : Side) (env : Env)

/-- The packet an action hands to its side, if it is a receipt. -/
def World.input (world : World) : Action → Option TCPPacket
  | .receive side index _ _ => ((world side.other).sent[index]?).map asReceived
  | _ => none

/-- One step. A receipt without a packet changes nothing. -/
def World.step (world : World) : Action → World
  | .receive side index env manager =>
    match (world side.other).sent[index]? with
    | none => world
    | some packet =>
      Function.update world side ((world side).receive env manager (asReceived packet))
  | .sendWindow side env =>
    Function.update world side
      ((world side).pass (checkAndHandleSendWindow env (world side).socket))
  | .statusMessages side env =>
    Function.update world side
      ((world side).pass (checkAndHandleOutgoingStatusMessages env (world side).socket))
  | .close side env => Function.update world side ((world side).close env)

/-- Both ends established, each expecting the other's next byte, nothing in
the windows and nothing in flight. -/
structure Aligned (world : World) : Prop where
  /-- Both are established. -/
  established : ∀ side,(world side).socket.state=.established
  /-- The next byte one side expects is the first of the other's window. -/
  expected : ∀ side,(world side.other).socket.seqOfFirstRecvWindow=
    (world side).socket.seqOfFirstSendWindow
  /-- Nothing waits to be sent or acknowledged. -/
  sendWindow : ∀ side,(world side).socket.sendWindow.toList=[]
  /-- Nothing was received out of order. -/
  recvWindow : ∀ side i,(world side).socket.recvWindowIsvalid i=false
  /-- The histories start here. -/
  history : ∀ side,(world side).enqueued=[] ∧ (world side).delivered=[] ∧
    (world side).emitted=[] ∧ (world side).sent=[] ∧ (world side).accepted=[]

/-- One end moves by a step of its socket, and its history with it. -/
def Moves (before after : Endpoint) (input : Option TCPPacket) : Prop :=
  ∃ moved written out sent,
    SocketStep before.socket after.socket input (input.any (acceptsFin before.socket)) moved
      written out ∧
    (∀ p∈sent,p∈out) ∧
    after.enqueued=before.enqueued++moved ∧ after.delivered=before.delivered++written ∧
    after.emitted=before.emitted++out ∧ after.sent=before.sent++sent ∧
    after.accepted=before.accepted++
      if input.any (acceptsFin before.socket)=true then
        input.toList.map fun p => (before.socket.state,p)
      else []

theorem sentReply_subset (env : Env) (handled : Handled) :
    ∀ p∈handled.sentReply env,p∈handled.reply.toList := by
  intro p hp
  unfold Handled.sentReply at hp
  split at hp
  · exact hp
  · simp at hp

/-- Receiving a packet moves the end. -/
theorem receive_moves (env : Env) (manager : NetworkManager) (packet : TCPPacket)
    {endpoint : Endpoint} (hc : Connected endpoint.socket.state) :
    Moves endpoint (endpoint.receive env manager packet) (some packet) :=
  ⟨[],_,_,_,
    handlePacket_step env manager packet endpoint.socket.id.srcIp hc,sentReply_subset env _,
    by simp [Endpoint.receive],rfl,rfl,rfl,rfl⟩

/-- A pass moves the end when it steps the socket. -/
theorem pass_moves {passed : Passed} {endpoint : Endpoint}
    (hstep : SocketStep endpoint.socket passed.socket none false passed.moved []
      (passed.attempts.map Prod.fst)) : Moves endpoint (endpoint.pass passed) none :=
  ⟨passed.moved,[],_,_,hstep,sent_subset passed,rfl,by simp [Endpoint.pass],rfl,rfl,
    by simp [Endpoint.pass]⟩

/-- A close command moves the end. -/
theorem close_moves (env : Env) (endpoint : Endpoint) :
    Moves endpoint (endpoint.close env) none :=
  ⟨[],[],[],[],closeCommand_step env endpoint.socket,by simp,by simp [Endpoint.close],
    by simp [Endpoint.close],by simp [Endpoint.close],by simp [Endpoint.close],
    by simp [Endpoint.close]⟩

/-- The action is the receipt of the packet at the side. -/
def Receives (world : World) (action : Action) (side : Side) (packet : TCPPacket) : Prop :=
  ∃ index env manager,action=.receive side index env manager ∧ world.input action=some packet

/-- A receipt runs the side's handler on a packet the other side sent. -/
theorem Receives.step {world : World} {action : Action} {side : Side} {packet : TCPPacket}
    (h : Receives world action side packet) : ∃ env manager,
      world.step action=
        Function.update world side ((world side).receive env manager packet) ∧
      ∃ q∈(world side.other).sent,packet=asReceived q := by
  obtain ⟨index,env,manager,rfl,hinput⟩ := h
  obtain ⟨q,hq,hpacket⟩ := Option.map_eq_some_iff.mp hinput
  refine ⟨env,manager,?_,q,List.mem_of_getElem? hq,hpacket.symm⟩
  simp only [World.step,hq,hpacket]

/-- Every step leaves the world as it is or moves one end, on a packet the
other end sent if on any. -/
theorem step_cases {world : World} (hc : ∀ side,Connected (world side).socket.state)
    (action : Action) :
    world.step action=world ∨ ∃ side after input,
      world.step action=Function.update world side after ∧ Moves (world side) after input ∧
      ∀ p,input=some p → Receives world action side p ∧
        ∃ q∈(world side.other).sent,p=asReceived q := by
  cases action with
  | receive side index env manager =>
    cases hpacket : (world side.other).sent[index]? with
    | none =>
      left
      simp only [World.step,hpacket]
    | some packet =>
      right
      refine ⟨side,_,_,by simp only [World.step,hpacket],
        receive_moves env manager (asReceived packet) (hc side),?_⟩
      intro p hp
      rw [Option.some.injEq] at hp
      subst hp
      exact ⟨⟨index,env,manager,rfl,by simp only [World.input,hpacket,Option.map_some]⟩,
        packet,List.mem_of_getElem? hpacket,rfl⟩
  | sendWindow side env =>
    exact Or.inr ⟨side,_,none,rfl,pass_moves (checkAndHandleSendWindow_step env (hc side)),
      by simp⟩
  | statusMessages side env =>
    exact Or.inr ⟨side,_,none,rfl,
      pass_moves (checkAndHandleOutgoingStatusMessages_step env (hc side)),by simp⟩
  | close side env =>
    exact Or.inr ⟨side,_,none,rfl,close_moves env (world side),by simp⟩

/-- An established socket on one host whose numbers are the given ones. -/
def startSocket (srcPort dstPort send recv : ℤ) : Socket :=
  {createNewSocket 0 ⟨srcPort,dstPort,onesIp,onesIp⟩ .established with
    seqOfFirstSendWindow := send
    seqOfFirstRecvWindow := recv}

/-- An aligned start between two ports of one host. -/
def startWorld : World
  | .left => ⟨startSocket 8080 8081 1000 5000,[],[],[],[],[]⟩
  | .right => ⟨startSocket 8081 8080 5000 1000,[],[],[],[],[]⟩

/-- A packet of the given index arrives at a side of that start. -/
def arrives (side : Side) (index : ℕ) (env : Env) : Action :=
  .receive side index env (createNetworkManager onesIp fun _ => false)

theorem startWorld_aligned : Aligned startWorld where
  established := by rintro (_ | _) <;> rfl
  expected := by rintro (_ | _) <;> rfl
  sendWindow := by rintro (_ | _) <;> rfl
  recvWindow := by rintro (_ | _) _ <;> rfl
  history := by rintro (_ | _) <;> exact ⟨rfl,rfl,rfl,rfl,rfl⟩

end NetworkLayer.Endpoints
