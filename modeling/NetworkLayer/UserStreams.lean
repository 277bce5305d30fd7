import NetworkLayer.SocketReceive
import NetworkLayer.StreamWalls

/-!
# The stream as its users see it

`SocketSend` puts bytes into the send fifo, whose descriptor it keeps open.
`SocketRecv` opens the receive fifo, reads once and closes it. The manager
writes to this fifo only while a call has it open, and closes it at once: what
the one read of a call does not take is gone with the call. Everything else is
handed on in order. When a socket is removed, its manager writes one byte more
to the receive fifo of the partner, between two bytes of the stream.
-/

namespace NetworkLayer.UserStreams

open ByteStrings CellBlocks UtilTypes FifoUtils TcpPackets PacketHandlers SocketPasses SocketSteps
open StepRuns WindowedStreams StreamBarriers Endpoints Flows FifoReads SocketReceive StreamWalls

/-- A call of `SocketRecv` that waits for bytes. -/
structure Call where
  /-- The byte in front of the buffer. -/
  before : Byte
  /-- The length of the buffer. -/
  bufferLen : ℕ
  /-- The buffer. -/
  buf : ℕ → Byte
  /-- The bytes in the receive fifo since the call opened it. -/
  fifo : List Byte

/-- One read of a call, from its `open` to its `close`. -/
structure Session where
  /-- The bytes in the receive fifo at the read. -/
  found : List Byte
  /-- The length of the buffer. -/
  bufferLen : ℕ
  /-- Whether the read failed. -/
  failed : Bool

/-- The user of one end, and the history of its calls. -/
structure User where
  /-- The bytes waiting in its send fifo. -/
  sendFifo : List Byte
  /-- All bytes that its calls of `SocketSend` have written. -/
  handed : List Byte
  /-- Its call of `SocketRecv`, while there is one. -/
  call : Option Call
  /-- Its calls that have returned, in order. -/
  results : List Received
  /-- Their reads, in order. -/
  sessions : List Session
  /-- The close marks that were written to its receive fifo. -/
  marks : List Byte

/-- `SocketSend`: what it returns, and the send fifo afterwards. The message is
written as far as `write` accepts it, if it does. -/
def socketSend (sockid : SocketID) (opens : Bool) (accepted : Option ℕ) (message fifo : List Byte) :
    ℤ × List Byte :=
  if isSocketConnected sockid=false then (-1,fifo)
  else if opens=false then (-1,fifo)
  else match accepted with
    | none => (-1,fifo)
    | some n => ((message.take n).length,fifo++message.take n)

/-- The start of `SocketRecv`, up to its `open`. -/
def User.startRecv (sockid : SocketID) (opens : Bool) (before : Byte) (bufferLen : ℤ)
    (buf : ℕ → Byte) (user : User) : User :=
  if bufferLen ≤ 0 ∨ isSocketConnected sockid=false ∨ opens=false then
    {user with results := user.results++[⟨some (-1),false,buf,[]⟩]}
  else {user with call := some ⟨before,bufferLen.toNat,buf,[]⟩}

/-- The read of a session: what it returns to the call. -/
def Session.read (session : Session) : ReadResult :=
  if session.failed=true then .failed else .bytes (session.found.take session.bufferLen)

/-- The session that a call ends with a read. -/
def Call.session (call : Call) (failed : Bool) : Session := ⟨call.fifo,call.bufferLen,failed⟩

/-- A call reads and closes the fifo. It returns, or opens the fifo again, or
fails to. -/
def User.recv (failed reopens : Bool) (user : User) : User :=
  match user.call with
  | none => user
  | some call =>
    let session := call.session failed
    let received := (recvLoop call.before [session.read] call.buf).1
    if received.result=none ∧ reopens=true then
      {user with
        call := some {call with buf := received.buf,fifo := []}
        sessions := user.sessions++[session]}
    else
      {user with
        call := none
        results := user.results++[{received with result := some (received.result.getD (-1))}]
        sessions := user.sessions++[session]}

/-- The removal of a connected socket writes `CONN_CLOSED` to the receive fifo
of its partner, if it has sent anything and the fifo can be opened. -/
def partnerMark (sock : Socket) (opens : Bool) : List Byte :=
  if sock.seqOfFirstSendWindow≠0 ∧ opens=true then [connClosed] else []

/-- The mark stays in the fifo if a call has it open. -/
def User.mark (mark : List Byte) (user : User) : User :=
  match user.call with
  | none => user
  | some call =>
    {user with call := some {call with fifo := call.fifo++mark},marks := user.marks++mark}

/-- The manager finds the fifos as the user has left them: the send fifo holds
what was handed over, and the receive fifo can be opened during a call only. -/
def User.meets (user : User) (env : Env) : Env :=
  {env with
    taken := if user.call.isSome=true then env.taken else none
    waiting := env.waiting.map fun _ => user.sendFifo}

/-- What a step of its end leaves in the fifos of a user. -/
def User.follow (user : User) (before after : Endpoint) : User :=
  {user with
    sendFifo := user.sendFifo.drop (after.enqueued.length-before.enqueued.length)
    call := user.call.map fun call =>
      {call with fifo := call.fifo++after.delivered.drop before.delivered.length}}

/-- Two connected ends and their users. -/
structure Connection where
  /-- The ends. -/
  world : World
  /-- Their users. -/
  user : Side → User
  /-- Whether the manager has removed the socket of an end, and unlinked its
  fifos. -/
  removed : Side → Bool

/-- What can happen next. -/
inductive Event
  /-- A step of the ends and the network. -/
  | network (action : Action)
  /-- A call of `SocketSend`. -/
  | send (side : Side) (opens : Bool) (accepted : Option ℕ) (message : List Byte)
  /-- A call of `SocketRecv`. A side has one at a time. -/
  | startRecv (side : Side) (opens : Bool) (before : Byte) (bufferLen : ℤ) (buf : ℕ → Byte)
  /-- The read of such a call. -/
  | recv (side : Side) (failed reopens : Bool)
  /-- The manager visits the socket, and removes it if it is closed for long. -/
  | visit (side : Side) (env : Env) (opens : Bool)
  /-- The manager terminates, and removes the socket. -/
  | terminate (side : Side) (opens : Bool)

/-- The action as it meets the users' fifos. -/
def Connection.meets (connection : Connection) : Action → Action
  | .receive side index env manager =>
    .receive side index ((connection.user side).meets env) manager
  | .sendWindow side env => .sendWindow side ((connection.user side).meets env)
  | .statusMessages side env => .statusMessages side ((connection.user side).meets env)
  | .close side env => .close side ((connection.user side).meets env)

/-- The side whose socket an action is about. -/
def actor : Action → Side
  | .receive side _ _ _ | .sendWindow side _ | .statusMessages side _ | .close side _ => side

/-- `unlink_socket_fifos_server_side` as the users see it: the end is gone, and
the partner may find a close mark. -/
def Connection.remove (connection : Connection) (side : Side) (opens : Bool) : Connection :=
  let mark := partnerMark (connection.world side).socket (opens && !connection.removed side.other)
  {connection with
    user := Function.update connection.user side.other ((connection.user side.other).mark mark)
    removed := Function.update connection.removed side true}

variable (ids : Side → SocketID)

/-- One step. Nothing happens to an end that was removed, and its fifos cannot
be opened any more. -/
def Connection.step (connection : Connection) : Event → Connection
  | .network action =>
    let after := connection.world.step (connection.meets action)
    if connection.removed (actor action)=true then connection
    else {connection with
      world := after
      user := fun side => (connection.user side).follow (connection.world side) (after side)}
  | .send side opens accepted message =>
    let user := connection.user side
    let sent := socketSend (ids side) (opens && !connection.removed side) accepted message
      user.sendFifo
    let after := {user with
      sendFifo := sent.2
      handed := user.handed++message.take sent.1.toNat}
    {connection with user := Function.update connection.user side after}
  | .startRecv side opens before bufferLen buf =>
    let user := connection.user side
    let started := user.startRecv (ids side) (opens && !connection.removed side) before bufferLen
      buf
    if user.call.isSome=true then connection
    else {connection with user := Function.update connection.user side started}
  | .recv side failed reopens =>
    let received := (connection.user side).recv failed (reopens && !connection.removed side)
    {connection with user := Function.update connection.user side received}
  | .visit side env opens =>
    let sock := (connection.world side).socket
    if connection.removed side=false ∧ sock.state=.closed ∧
        elapsed env sock.creationTime socketTimeout=true then connection.remove side opens
    else connection
  | .terminate side opens =>
    if connection.removed side=false then connection.remove side opens else connection

/-- The bytes that the calls of `SocketRecv` returned. -/
def User.returned (user : User) : List Byte := user.results.flatMap Received.bytes

/-- The bytes that their reads found. -/
def User.found (user : User) : List Byte := user.sessions.flatMap Session.found

/-- The bytes that wait for the call that is open. -/
def User.waiting (user : User) : List Byte :=
  match user.call with
  | none => []
  | some call => call.fifo

/-- The read takes all that it finds, and the last byte is not taken for the
end of the connection. -/
def Session.Whole (session : Session) : Prop :=
  session.found=[] ∨ session.failed=false ∧ session.found.length ≤ session.bufferLen ∧
    session.found.getLast?≠some connClosed

/-- The bytes of a session that are returned. -/
def Session.kept (session : Session) : List Byte :=
  if session.failed=true then []
  else if (session.found.take session.bufferLen).getLast?=some connClosed then []
  else session.found.take session.bufferLen

theorem Session.kept_sublist (session : Session) : session.kept.Sublist session.found := by
  unfold Session.kept
  split
  · exact List.nil_sublist _
  split
  · exact List.nil_sublist _
  · exact List.take_sublist _ _

/-- All that a read finds is returned exactly if the session is whole. -/
theorem Session.kept_eq_iff (session : Session) : session.kept=session.found ↔ session.Whole := by
  unfold Session.kept Session.Whole
  cases hfound : session.found with
  | nil => simp
  | cons b rest =>
    cases session.failed with
    | true => simp
    | false =>
      simp only [Bool.false_eq_true,if_false,List.cons_ne_nil,false_or,true_and]
      by_cases hle : (b::rest).length ≤ session.bufferLen
      · rw [List.take_of_length_le hle]
        by_cases hlast : (b::rest).getLast?=some connClosed
        · simp [hlast]
        · rw [if_neg hlast]
          exact iff_of_true rfl ⟨hle,hlast⟩
      · refine iff_of_false (fun h => ?_) (fun h => hle h.1)
        have hlen := congrArg List.length h
        split at hlen
        · simp at hlen
        · rw [List.length_take] at hlen
          omega

/-- Parts of several lists, put together, are all of these lists only if each
part is all of its list. -/
theorem flatMap_eq_iff_of_sublist {α β : Type*} {f g : α → List β} {l : List α}
    (h : ∀ a∈l,(f a).Sublist (g a)) : l.flatMap f=l.flatMap g ↔ ∀ a∈l,f a=g a := by
  induction l with
  | nil => simp
  | cons a rest ih =>
    have hfirst := h a List.mem_cons_self
    have hrest : ∀ b∈rest,(f b).Sublist (g b) := fun b hb => h b (List.mem_cons_of_mem a hb)
    rw [List.flatMap_cons,List.flatMap_cons,List.forall_mem_cons,←ih hrest]
    constructor
    · intro heq
      have hlen := congrArg List.length heq
      rw [List.length_append,List.length_append] at hlen
      have h1 := hfirst.length_le
      have h2 := (List.Sublist.flatMap_right rest hrest).length_le
      have hsame : f a=g a := hfirst.eq_of_length (by omega)
      rw [hsame] at heq
      exact ⟨hsame,List.append_cancel_left heq⟩
    · rintro ⟨h1,h2⟩
      rw [h1,h2]

/-- A call hands on what is kept of its read, if it returns with it. -/
theorem recvLoop_read (session : Session) (before : Byte) (buf : ℕ → Byte) :
    let received := (recvLoop before [session.read] buf).1
    (if received.result=none then [] else received.bytes)=session.kept := by
  unfold Session.read Session.kept
  cases session.failed with
  | true => rfl
  | false =>
    simp only [Bool.false_eq_true,if_false]
    generalize session.found.take session.bufferLen=data
    cases data with
    | nil =>
      simp only [recvLoop,List.getLast?_nil]
      split <;> rfl
    | cons b rest =>
      have hlast := cellAt_last before buf (List.cons_ne_nil b rest)
      simp only [recvLoop,List.cons_ne_nil,if_false,hlast,Option.some.injEq]
      split
      · rfl
      · exact bytes_stored buf (b::rest) _

/-- Without a call that has the fifo open nothing is written to it. -/
theorem toUser_of_none {env : Env} (manager : NetworkManager) {s : Socket} (packet : TCPPacket)
    (srcIp : CString) (hl : s.state≠.listen) (htaken : env.taken=none) :
    (handlePacket env manager s packet srcIp).toUser=[] := by
  have houtcome := handlePacket_outcome env manager packet srcIp hl
  generalize handlePacket env manager s packet srcIp=handled at houtcome ⊢
  cases houtcome with
  | taken hstate hport hsyn hfin =>
    unfold handlePacketEstablished
    simp only [hsyn,hfin,Bool.false_eq_true,if_false]
    cases packet.data with
    | none => rfl
    | some data =>
      simp only [receiveNewData,updateRecvWindow,writeStringToFifoName,htaken,Option.map_none]
  | ignored | reset | connected | accepted | finished | finAcked | finTaken | finAnswered => rfl

/-- The bytes that enter the send window are the first of the send fifo. -/
theorem moved_of_waiting (env : Env) (s : Socket) (waiting : List Byte)
    (hwaiting : ∀ bytes,env.waiting=some bytes → bytes=waiting) :
    (checkAndHandleOutgoingStatusMessages env s).moved<+:waiting := by
  have hattempt : ∀ site (t : Socket) packet,(attempt env site t packet).moved<+:waiting :=
    fun _ _ _ => List.nil_prefix
  unfold checkAndHandleOutgoingStatusMessages
  cases s.state with
  | established =>
    cases hsome : env.waiting with
    | none => exact List.nil_prefix
    | some bytes =>
      obtain rfl := hwaiting bytes hsome
      exact ⟨_,((moveUserBytes_spec maxDataPerPacket true s.sendWindow bytes).2).symm⟩
  | closed | listen | finWait2 | closeWait => exact List.nil_prefix
  | synSent | synReceived | lastAck | timeWait | closing =>
    simp only
    split
    · first | exact hattempt _ _ _ | exact List.nil_prefix
    · exact List.nil_prefix
  | finWait1 =>
    simp only
    split
    · exact List.nil_prefix
    split
    · exact List.nil_prefix
    · exact List.nil_prefix

/-- What a step moves into the send window comes from the front of the send
fifo, and it writes to the receive fifo during a call only. -/
theorem meets_moves (connection : Connection)
    (hc : ∀ side,Connected (connection.world side).socket.state) (action : Action) (side : Side) :
    ∃ moved written,
      (connection.world.step (connection.meets action) side).enqueued=
        (connection.world side).enqueued++moved ∧
      (connection.world.step (connection.meets action) side).delivered=
        (connection.world side).delivered++written ∧
      moved<+:(connection.user side).sendFifo ∧
      ((connection.user side).call=none → written=[]) := by
  have hsame : ∃ moved written,
      (connection.world side).enqueued=(connection.world side).enqueued++moved ∧
      (connection.world side).delivered=(connection.world side).delivered++written ∧
      moved<+:(connection.user side).sendFifo ∧
      ((connection.user side).call=none → written=[]) :=
    ⟨[],[],(List.append_nil _).symm,(List.append_nil _).symm,List.nil_prefix,fun _ => rfl⟩
  have hupdate : ∀ (actor : Side) (after : Endpoint) (moved written : List Byte),
      after.enqueued=(connection.world actor).enqueued++moved →
      after.delivered=(connection.world actor).delivered++written →
      moved<+:(connection.user actor).sendFifo →
      ((connection.user actor).call=none → written=[]) →
      ∃ moved written,
        (Function.update connection.world actor after side).enqueued=
          (connection.world side).enqueued++moved ∧
        (Function.update connection.world actor after side).delivered=
          (connection.world side).delivered++written ∧
        moved<+:(connection.user side).sendFifo ∧
        ((connection.user side).call=none → written=[]) := by
    intro actor after moved written henq hdel hmoved hwritten
    by_cases ha : side=actor
    · subst ha
      rw [Function.update_self]
      exact ⟨moved,written,henq,hdel,hmoved,hwritten⟩
    · rw [Function.update_of_ne ha]
      exact hsame
  cases action with
  | receive actor index env manager =>
    cases hpacket : (connection.world actor.other).sent[index]? with
    | none =>
      simp only [Connection.meets,World.step,hpacket]
      exact hsame
    | some q =>
      simp only [Connection.meets,World.step,hpacket]
      refine hupdate actor _ [] _ (List.append_nil _).symm rfl List.nil_prefix fun hnone => ?_
      exact toUser_of_none manager _ _ (hc actor).1 (by simp [User.meets,hnone])
  | sendWindow actor env =>
    refine hupdate actor _ [] [] ?_ (List.append_nil _).symm List.nil_prefix fun _ => rfl
    rcases checkAndHandleSendWindow_cases ((connection.user actor).meets env)
      (connection.world actor).socket with he|⟨_,_,_,_,_,_,he⟩
    all_goals simp only [Endpoint.pass,he,idle]
  | statusMessages actor env =>
    refine hupdate actor _ _ [] rfl (List.append_nil _).symm (moved_of_waiting _ _ _ ?_)
      fun _ => rfl
    intro bytes hbytes
    obtain ⟨_,_,rfl⟩ := Option.map_eq_some_iff.mp hbytes
    rfl
  | close actor env =>
    exact hupdate actor _ [] [] (List.append_nil _).symm (List.append_nil _).symm List.nil_prefix
      fun _ => rfl

/-- What the history of a user says about its end. -/
structure UserSound (endpoint : Endpoint) (user : User) : Prop where
  /-- What was handed over is in the send window's history or still waits. -/
  handed : endpoint.enqueued++user.sendFifo=user.handed
  /-- What was written to the receive fifo, and the mark at some place in it,
  was found there or still waits. -/
  found : ∃ first second,first++second=endpoint.delivered ∧
    user.found++user.waiting=first++user.marks++second
  /-- Of what was found, the calls returned what their sessions kept. -/
  returned : user.returned=user.sessions.flatMap Session.kept

theorem UserSound.follow {before after : Endpoint} {user : User} (h : UserSound before user)
    {moved written : List Byte} (henq : after.enqueued=before.enqueued++moved)
    (hdel : after.delivered=before.delivered++written) (hmoved : moved<+:user.sendFifo)
    (hwritten : user.call=none → written=[]) : UserSound after (user.follow before after) where
  handed := by
    obtain ⟨rest,hrest⟩ := hmoved
    have hlen : after.enqueued.length-before.enqueued.length=moved.length := by
      rw [henq,List.length_append]
      omega
    have hhanded := h.handed
    simp only [User.follow,hlen]
    rw [←hrest] at hhanded ⊢
    rw [List.drop_left,henq,List.append_assoc]
    exact hhanded
  found := by
    obtain ⟨first,second,hdelivered,hfound⟩ := h.found
    cases hcall : user.call with
    | none =>
      refine ⟨first,second,by rw [hdel,hwritten hcall,List.append_nil,hdelivered],?_⟩
      simpa [User.waiting,User.follow,User.found,hcall] using hfound
    | some call =>
      refine ⟨first,second++written,by rw [hdel,←hdelivered,List.append_assoc],?_⟩
      simp only [User.waiting,hcall] at hfound
      simp only [User.waiting,User.follow,hcall,Option.map_some]
      rw [hdel,List.drop_left,←List.append_assoc,←List.append_assoc,←hfound]
      rfl
  returned := h.returned

theorem UserSound.send {endpoint : Endpoint} {user : User} (h : UserSound endpoint user)
    (sockid : SocketID) (opens : Bool) (accepted : Option ℕ) (message : List Byte) :
    UserSound endpoint {user with
      sendFifo := (socketSend sockid opens accepted message user.sendFifo).2
      handed := user.handed++
        message.take (socketSend sockid opens accepted message user.sendFifo).1.toNat} where
  handed := by
    have hhanded := h.handed
    unfold socketSend
    split
    · simpa using hhanded
    split
    · simpa using hhanded
    cases accepted with
    | none => simpa using hhanded
    | some n =>
      simp only [Int.toNat_natCast,←hhanded,List.append_assoc,List.append_cancel_left_eq]
      rw [List.length_take,List.take_eq_take_min]
  found := h.found
  returned := h.returned

theorem UserSound.startRecv {endpoint : Endpoint} {user : User} (h : UserSound endpoint user)
    (hcall : user.call=none) (sockid : SocketID) (opens : Bool) (before : Byte) (bufferLen : ℤ)
    (buf : ℕ → Byte) :
    UserSound endpoint (user.startRecv sockid opens before bufferLen buf) := by
  have hfound := h.found
  simp only [User.waiting,hcall] at hfound
  unfold User.startRecv
  split
  · exact {
      handed := h.handed
      found := h.found
      returned := by
        have hnothing : (⟨some (-1),false,buf,[]⟩ : Received).bytes=[] := rfl
        rw [User.returned,List.flatMap_append,List.flatMap_singleton,hnothing,List.append_nil]
        exact h.returned}
  · exact ⟨h.handed,hfound,h.returned⟩

/-- A call that ends without a read to return gives its user nothing. -/
theorem bytes_getD (received : Received) :
    Received.bytes {received with result := some (received.result.getD (-1))}=
      if received.result=none then [] else received.bytes := by
  cases hresult : received.result with
  | none => rfl
  | some n =>
    rw [if_neg (by simp),Received.bytes,Received.bytes,hresult]
    rfl

theorem UserSound.recv {endpoint : Endpoint} {user : User} (h : UserSound endpoint user)
    (failed reopens : Bool) : UserSound endpoint (user.recv failed reopens) := by
  unfold User.recv
  cases hcall : user.call with
  | none => exact h
  | some call =>
    obtain ⟨first,second,hdelivered,hfound⟩ := h.found
    simp only [User.waiting,hcall] at hfound
    have hread := recvLoop_read (call.session failed) call.before call.buf
    simp only at hread ⊢
    have hadded : (user.sessions++[call.session failed]).flatMap Session.found=
        first++user.marks++second := by
      rw [List.flatMap_append,List.flatMap_singleton]
      exact hfound
    have hkept : (user.sessions++[call.session failed]).flatMap Session.kept=
        user.returned++(call.session failed).kept := by
      rw [List.flatMap_append,List.flatMap_singleton,h.returned]
    split
    · next hnone =>
      rw [if_pos hnone.1] at hread
      exact {
        handed := h.handed
        found := ⟨first,second,hdelivered,by simpa [User.found,User.waiting] using hadded⟩
        returned := by
          rw [hkept,←hread,List.append_nil]
          rfl}
    · exact {
        handed := h.handed
        found := ⟨first,second,hdelivered,by simpa [User.found,User.waiting] using hadded⟩
        returned := by
          rw [hkept,User.returned,List.flatMap_append,List.flatMap_singleton,bytes_getD,hread]
          rfl}

/-- A close mark comes behind what was delivered up to then. -/
theorem UserSound.mark {endpoint : Endpoint} {user : User} (h : UserSound endpoint user)
    (hmarks : user.marks=[]) (mark : List Byte) : UserSound endpoint (user.mark mark) := by
  unfold User.mark
  cases hcall : user.call with
  | none => exact h
  | some call =>
    obtain ⟨first,second,hdelivered,hfound⟩ := h.found
    simp only [User.waiting,hcall,hmarks,List.append_nil] at hfound
    refine ⟨h.handed,⟨endpoint.delivered,[],List.append_nil _,?_⟩,h.returned⟩
    simp only [User.waiting,hmarks,List.nil_append,List.append_nil]
    rw [←List.append_assoc,←hdelivered,←hfound]
    rfl

/-- A removal writes one mark or none. -/
theorem mark_marks (user : User) (sock : Socket) (opens : Bool) :
    (user.mark (partnerMark sock opens)).marks=user.marks ∨
      (user.mark (partnerMark sock opens)).marks=user.marks++[connClosed] := by
  unfold User.mark partnerMark
  split
  · exact Or.inl rfl
  · split
    · exact Or.inr rfl
    · exact Or.inl (List.append_nil _)

/-- Only the removal of the other end's socket leaves a close mark, and only
one. -/
def MarkSound (user : User) (removed : Bool) : Prop :=
  user.marks=[] ∨ user.marks=[connClosed] ∧ removed=true

/-- The ends are sound, and so are their users. -/
structure ConnectionSound (base : Side → ℤ) (connection : Connection) : Prop where
  /-- The ends. -/
  world : BothWalled nulBarrier base connection.world
  /-- The users. -/
  users : ∀ side,UserSound (connection.world side) (connection.user side)
  /-- The close marks. -/
  marks : ∀ side,MarkSound (connection.user side.other) (connection.removed side)

/-- What an actor does by itself leaves the close marks as they are. -/
theorem ConnectionSound.act {base : Side → ℤ} {connection : Connection}
    (h : ConnectionSound base connection) (actor : Side) {after : User}
    (hafter : UserSound (connection.world actor) after)
    (hmarks : after.marks=(connection.user actor).marks) :
    ConnectionSound base {connection with user := Function.update connection.user actor after} where
  world := h.world
  users := by
    intro side
    by_cases ha : side=actor
    · subst ha
      simpa only [Function.update_self] using hafter
    · simpa only [Function.update_of_ne ha] using h.users side
  marks := by
    intro side
    have hside := h.marks side
    by_cases ha : side.other=actor
    · subst ha
      simpa only [MarkSound,Function.update_self,hmarks] using hside
    · simpa only [MarkSound,Function.update_of_ne ha] using hside

/-- The removal of a socket leaves at most one mark. -/
theorem ConnectionSound.remove {base : Side → ℤ} {connection : Connection}
    (h : ConnectionSound base connection) {side : Side} (hnot : connection.removed side=false)
    (opens : Bool) : ConnectionSound base (connection.remove side opens) := by
  have hnone : (connection.user side.other).marks=[] := by
    rcases h.marks side with hnone|⟨_,hremoved⟩
    · exact hnone
    · rw [hnot] at hremoved
      cases hremoved
  refine ⟨h.world,fun other => ?_,fun other => ?_⟩
  · by_cases ho : other=side.other
    · subst ho
      simpa only [Connection.remove,Function.update_self] using
        (h.users side.other).mark hnone _
    · simpa only [Connection.remove,Function.update_of_ne ho] using h.users other
  · by_cases ho : other=side
    · subst ho
      simp only [MarkSound,Connection.remove,Function.update_self]
      rcases mark_marks (connection.user other.other) (connection.world other).socket
        (opens && !connection.removed other.other) with he|he
      · exact Or.inl (he.trans hnone)
      · exact Or.inr ⟨by rw [he,hnone]; rfl,trivial⟩
    · have hother : other.other≠side.other := fun he => ho (by cases other <;> cases side <;>
        first | rfl | cases he)
      simpa only [MarkSound,Connection.remove,Function.update_of_ne ho,
        Function.update_of_ne hother] using h.marks other

/-- Every step keeps that. -/
theorem ConnectionSound.step {base : Side → ℤ} {connection : Connection}
    (h : ConnectionSound base connection) (event : Event) :
    ConnectionSound base (connection.step ids event) := by
  cases event with
  | network action =>
    simp only [Connection.step]
    split
    · exact h
    refine ⟨h.world.step (through_nulBarrier _ _),fun side => ?_,h.marks⟩
    obtain ⟨moved,written,henq,hdel,hmoved,hwritten⟩ := meets_moves connection
      (fun side => (h.world.1 side).connected) action side
    exact (h.users side).follow henq hdel hmoved hwritten
  | send side opens accepted message =>
    exact h.act side ((h.users side).send (ids side) _ accepted message) rfl
  | startRecv side opens before bufferLen buf =>
    simp only [Connection.step]
    cases hcall : (connection.user side).call with
    | some call =>
      simp only [Option.isSome_some,if_true]
      exact h
    | none =>
      simp only [Option.isSome_none,Bool.false_eq_true,if_false]
      refine h.act side ((h.users side).startRecv hcall (ids side) _ before bufferLen buf) ?_
      unfold User.startRecv
      split <;> rfl
  | recv side failed reopens =>
    refine h.act side ((h.users side).recv failed _) ?_
    unfold User.recv
    split
    · rfl
    · dsimp only
      split <;> rfl
  | visit side env opens =>
    simp only [Connection.step]
    split
    · next hremoves => exact h.remove hremoves.1 opens
    · exact h
  | terminate side opens =>
    simp only [Connection.step]
    split
    · next hnot => exact h.remove hnot opens
    · exact h

/-- A user before its first call. -/
def freshUser : User := ⟨[],[],none,[],[],[]⟩

/-- What a side gets of what the other handed over. -/
structure Streams (snd rcv : User) (enqueued : List Byte) (removed : Bool) : Prop where
  /-- The reads have found, or the open call will find, the first bytes that
  were handed over, up to the first NUL, with the close marks somewhere in
  between. -/
  found : ∃ first second,first++second<+:beforeNul snd.handed ∧
    rcv.found++rcv.waiting=first++rcv.marks++second
  /-- There is at most one mark, and none before the sender's socket is
  removed. -/
  marks : rcv.marks=[] ∨ rcv.marks=[connClosed] ∧ removed=true
  /-- What is handed over and not yet moved waits in the send fifo. -/
  handed : enqueued++snd.sendFifo=snd.handed
  /-- What the calls return is part of what their reads found. -/
  returned : rcv.returned.Sublist rcv.found
  /-- All of it, exactly if every session was whole. -/
  whole : rcv.returned=rcv.found ↔ ∀ session∈rcv.sessions,session.Whole

/-- Two bytes are handed over, moved in two passes and sent in one packet; the
peer's call has room for one of them. Then the sender's manager terminates
while the peer's next call waits. -/
def shortBuffer : List Event :=
  let env := smoothEnv 5000000 (some [])
  [.send .left true (some 2) [120,121],.network (.statusMessages .left env),
    .network (.statusMessages .left env),.network (.sendWindow .left env),
    .startRecv .right true 0 1 fun _ => 0,.network (arrives .right 0 env),.recv .right false true,
    .startRecv .right true 0 1 fun _ => 0,.terminate .left true,.recv .right false true]

/-- Two users of the start. -/
def startConnection : Connection := ⟨startWorld,fun _ => freshUser,fun _ => false⟩

/-- The addresses of the start. -/
def startIds : Side → SocketID := fun side => (startWorld side).socket.id

/-- In that run the second byte is found and lost, and the close mark is found
and kept from the user. -/
example :
    let final := run (Connection.step startIds) startConnection shortBuffer
    (final.user .left).handed=[120,121] ∧ (final.user .right).found=[120,121,1] ∧
      (final.user .right).returned=[120] := by
  decide +kernel

end NetworkLayer.UserStreams
