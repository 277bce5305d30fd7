import NetworkLayer.CallCourses
import NetworkLayer.Rekeying
import NetworkLayer.SilentSockets

/-!
# The loop when calls do not come back

Any call of the manager may wait for ever: a client that opens one end of a
fifo only leaves the manager in an open without `O_NONBLOCK`, and a full fifo
leaves it in a write. Some requests end the process: one that overruns the
buffer it is read into, a granted listen whose accept fifo cannot be made,
which frees a name twice, and a packet without data. Up to there the loop does
what it does when every call comes back.
-/

namespace NetworkLayer.HaltingLoop

open ByteStrings FormattedText UtilTypes Hashmap FifoUtils FifoNames FifoReads TcpPackets
open IpPackets PacketHandlers SocketPasses PacketDispatch PacketFraming SocketRequests BindRequests
open ManagerLoop SlotTables IterationPlace StepRuns LoopRuns Rekeying SilentSockets CallCourses

/-- Which calls of a round do not come back, whatever they are asked for. -/
structure Mishaps where
  /-- The look at the bind fifo and the answer to its request. -/
  bind : Option Halt
  /-- The reading and handling of an incoming packet, by its place. -/
  packets : ℕ → Option Halt
  /-- `check_and_handle_listen_request`, by the slot of the socket. -/
  listen : Fin hashMapDefaultSize → Option Halt
  /-- `check_and_handle_connect_request`, also where it reads more bytes than
  its buffer has and no terminator. -/
  connect : Fin hashMapDefaultSize → Option Halt
  /-- `check_and_handle_socket_end_fifo`. -/
  endFifo : Fin hashMapDefaultSize → Option Halt
  /-- `check_and_handle_send_window`. -/
  sendWindow : Fin hashMapDefaultSize → Option Halt
  /-- `check_and_handle_outgoing_status_messages`. -/
  statusMessages : Fin hashMapDefaultSize → Option Halt

/-- Whether the process dies in serving a request, or writes outside an array:
`accept_fifo_name` is freed again after its `mkfifo` failed; a connect request
is longer than `request`, or its ip longer than `dst_ip`; `sscanf` is handed
the data of a packet that has none. -/
def dies (manager : NetworkManager) : Request → Bool
  | .listen env sockId (some _) =>
    (pointerTo manager.sockets sockId).any fun (_,sock) =>
      sock.state≠.listen && !(mkfifo env manager.files (getAcceptFifoWriteEndName sockId)).1
  | .connect _ sockId (some request) =>
    (pointerTo manager.sockets sockId).any fun (_,sock) =>
      sock.state=.closed && (maxSocketStringReprSize ≤ request.strlen ||
        maxIpLength+1 < dstIpStored request)
  | .packet _ packet =>
    calcIpChecksum packet=packet.headerChecksum && packet.dstIp=manager.ip && packet.data.isNone
  | _ => false

variable (libc : Libc)

/-- `serveAt` when the call may not come back. -/
def serveCourse (mishap : Option Halt) (moment : Moment) (done : Served) (request : Request) :
    Course Served Served :=
  match mishap with
  | some halt => .halted halt done
  | none =>
    if dies {done.manager with files := moment.clients done.manager.files} request=true then
      .halted .dies done
    else .returned (serveAt libc moment done request)

/-- `stage` when its call may not come back. -/
def stageCourse (mishap : Option Halt) (i : Fin hashMapDefaultSize) (moment : Moment)
    (request : SocketID → Request) (done : Served) : Course Served (Option Served) :=
  if done.result≠0 then .returned (some done)
  else match done.manager.sockets.socketId i with
    | none => .returned none
    | some sockId =>
      (serveCourse libc mishap moment done (request sockId)).bind fun served =>
        .returned (some served)

/-- The first stages of a visit. -/
def boundSocketCourse (mishaps : Mishaps) (visit : Visit) (i : Fin hashMapDefaultSize)
    (sockId : SocketID) (done : Served) : Course Served (Option Served) :=
  if getSocketState sockId=.boundOnly then
    (stageCourse libc (mishaps.listen i) i visit.listen
      (fun id => .listen visit.listen.env id visit.listenRequest) done).andThen
    (stageCourse libc (mishaps.connect i) i visit.connect
      (fun id => .connect visit.connect.env id visit.connectRequest))
  else .returned (some done)

/-- The whole visit. -/
def socketCourse (mishaps : Mishaps) (visit : Visit) (i : Fin hashMapDefaultSize) (done : Served) :
    Course Served (Option Served) :=
  match done.manager.sockets.socketId i with
  | none => .returned none
  | some sockId =>
    (((boundSocketCourse libc mishaps visit i sockId {done with result := 0}).andThen
      (stageCourse libc (mishaps.endFifo i) i visit.endFifo
        fun id => .endFifo visit.endFifo.env id visit.command)).andThen
      (stageCourse libc (mishaps.sendWindow i) i visit.sendWindow
        fun id => .sendWindow visit.sendWindow.env id)).andThen
      (stageCourse libc (mishaps.statusMessages i) i visit.statusMessages
        fun id => .statusMessages visit.statusMessages.env id)

/-- `visitLoop`. -/
def visitCourse (mishaps : Mishaps) (visits : Fin hashMapDefaultSize → Visit) :
    ℕ → Option SocketID → Served →
      Course Served (Option (List (Fin hashMapDefaultSize) × Served))
  | _,none,done => .returned (some ([],{done with result := 0}))
  | 0,some _,_ => .returned none
  | rounds+1,some _,done =>
    match cursorSlot done.manager.sockets with
    | none => .returned none
    | some i =>
      (socketCourse libc mishaps (visits i) i done).andThen fun visited =>
        if visited.result=breakIteration then .returned (some ([i],{visited with result := 0}))
        else if visited.result=-1 then .returned (some ([i],visited))
        else
          let next := visited.manager.sockets.hashMapGetNext
          (visitCourse mishaps visits rounds next.1 (withSockets visited next.2)).andThen
            fun (slots,last) => .returned (some (i::slots,last))

/-- The last stage of a round. -/
def socketsCourse (mishaps : Mishaps) (visits : Fin hashMapDefaultSize → Visit) (done : Served) :
    Course Served (Option (List (Fin hashMapDefaultSize) × Served)) :=
  let first := done.manager.sockets.hashMapGetFirst
  visitCourse libc mishaps visits hashMapDefaultSize first.1 (withSockets done first.2)

/-- `handleNext`; behind a call that does not come back no packet is handled. -/
def nextCourse (mishaps : ℕ → Option Halt) (moments : ℕ → Moment)
    (course : Course Served (Served × ℕ)) (packet : IPPacket) : Bool × Course Served (Served × ℕ) :=
  match course with
  | .halted halt before => (false,.halted halt before)
  | .returned s =>
    match serveCourse libc (mishaps s.2) (moments s.2) s.1 (.packet (moments s.2).env packet) with
    | .halted halt before => (false,.halted halt before)
    | .returned served => (served.result=0,.returned (served,s.2+1))

/-- The bind stage. Its buffer may be overrun. -/
def bindCourse (mishap : Option Halt) (round : Round) (done : Served) : Course Served Served :=
  let bound := handleBindFifo libc round.bind.env (atBind round done) round.bindFifo
    round.bindRequest
  match mishap with
  | some halt => .halted halt done
  | none =>
    if maxBindRequestSize < bound.2 then .halted .dies done else .returned (after done bound.1)

/-- One round. -/
def roundCourse (mishaps : Mishaps) (round : Round) (done : Served) (inbox : Fifo) :
    Course Served Loop :=
  if shouldTerminateManager round.terminateSchedule round.terminateFifo=true then
    .returned (.stopped 0 done)
  else (bindCourse libc mishaps.bind round done).bind fun bound =>
    if bound.result≠0 then .returned (.stopped (-1) bound)
    else match handleInPacketsFifo libc round.schedule round.fuel round.fresh
        (nextCourse libc mishaps.packets round.packets) (.returned (bound,0)) inbox with
      | none => .returned .reading
      | some (handled,rest) =>
        handled.bind fun s => (socketsCourse libc mishaps round.visits s.1).bind fun
          | none => .returned .dangling
          | some visited =>
            if visited.2.result=-1 then .returned (.stopped (-1) visited.2)
            else .returned (.running visited.2 rest)

/-- `managerLoop` goes through a round, unless it has come to its end. -/
def loopCourse (course : Course Served Loop) (round : Round × Mishaps) : Course Served Loop :=
  match course with
  | .returned (.running done inbox) => roundCourse libc round.2 round.1 done inbox
  | course => course

/-- The loop did not come back from a call in one of some ways, and requests
had been served before. -/
def CutShort (libc : Libc) (start : Served) (ways : Halt → Prop) (halt : Halt) (before : Served) :
    Prop :=
  (∃ packets,Handles libc start before packets) ∧ ways halt

variable {libc} {start done : Served} {packets : List IPPacket} {ways : Halt → Prop}

/-- A call follows the one that comes back. -/
theorem serveCourse_follows (h : Handles libc start done packets) {mishap : Option Halt}
    (moment : Moment) (request : Request) (hmishap : ∀ halt,mishap=some halt → ways halt)
    (hdies : ∀ manager,dies manager request=true → ways .dies) :
    Follows (CutShort libc start ways) (serveAt libc moment done request)
      (serveCourse libc mishap moment done request) := by
  unfold serveCourse
  cases mishap with
  | some halt =>
    exact ⟨⟨packets,h⟩,hmishap halt rfl⟩
  | none =>
    simp only
    split
    · next hfatal => exact ⟨⟨packets,h⟩,hdies _ hfatal⟩
    · exact Follows.returned _ _

/-- So does a stage. -/
theorem stageCourse_follows (h : Handles libc start done packets) {mishap : Option Halt}
    (i : Fin hashMapDefaultSize) (moment : Moment) (request : SocketID → Request)
    (hmishap : ∀ halt,mishap=some halt → ways halt)
    (hdies : ∀ manager sockId,dies manager (request sockId)=true → ways .dies) :
    Follows (CutShort libc start ways) (stage libc i moment request done)
      (stageCourse libc mishap i moment request done) := by
  unfold stage stageCourse
  split
  · exact Follows.returned _ _
  · cases done.manager.sockets.socketId i with
    | none => exact Follows.returned _ _
    | some sockId =>
      exact (serveCourse_follows h moment (request sockId) hmishap
        fun manager => hdies manager sockId).bind (Follows.returned _ _)

/-- All mishaps of a round are of some ways. -/
structure Mishaps.Each (ways : Halt → Prop) (mishaps : Mishaps) : Prop where
  bind : ∀ halt,mishaps.bind=some halt → ways halt
  packets : ∀ n halt,mishaps.packets n=some halt → ways halt
  listen : ∀ i halt,mishaps.listen i=some halt → ways halt
  connect : ∀ i halt,mishaps.connect i=some halt → ways halt
  endFifo : ∀ i halt,mishaps.endFifo i=some halt → ways halt
  sendWindow : ∀ i halt,mishaps.sendWindow i=some halt → ways halt
  statusMessages : ∀ i halt,mishaps.statusMessages i=some halt → ways halt

section Visits

variable {before : NetworkManager} {i : Fin hashMapDefaultSize}

/-- Up to some point of a visit the calls follow those that come back, and the
visit is under way. -/
def FollowsVisit (libc : Libc) (start : Served) (before : NetworkManager)
    (packets : List IPPacket) (ways : Halt → Prop) (result : Option Served)
    (course : Course Served (Option Served)) : Prop :=
  Follows (CutShort libc start ways) result course ∧
    ∀ next,result=some next → Visiting libc start before packets next

/-- One more stage. -/
theorem FollowsVisit.stage {result : Option Served} {course : Course Served (Option Served)}
    (h : FollowsVisit libc start before packets ways result course)
    (hi : (before.sockets.table i).isSome=true) {mishap : Option Halt} (moment : Moment)
    (request : SocketID → Request) (hvisit : ∀ sockId,OfVisit (request sockId))
    (haddressed : ∀ manager sockId,manager.sockets.socketId i=some sockId →
      Addressed manager (request sockId))
    (hmishap : ∀ halt,mishap=some halt → ways halt)
    (hdies : ∀ manager sockId,dies manager (request sockId)=true → ways .dies) :
    FollowsVisit libc start before packets ways
      (result.bind (ManagerLoop.stage libc i moment request))
      (course.andThen (stageCourse libc mishap i moment request)) := by
  refine ⟨h.1.andThen fun b hb =>
    stageCourse_follows (h.2 b hb).served i moment request hmishap hdies,?_⟩
  intro next hnext
  obtain ⟨b,hb,hstage⟩ := Option.bind_eq_some_iff.mp hnext
  obtain ⟨other,hother,hvisiting⟩ := stage_spec (h.2 b hb) hi moment request hvisit haddressed
  rw [hstage] at hother
  exact Option.some.inj hother ▸ hvisiting

/-- A visit follows the one whose calls come back. -/
theorem socketCourse_follows (h : Handles libc start done packets) (i : Fin hashMapDefaultSize)
    {mishaps : Mishaps} (visit : Visit) (heach : mishaps.Each ways)
    (hsilent : ways .dies ∨ Silent visit) :
    FollowsVisit libc start done.manager packets ways (handleSocketInNetwork libc visit i done)
      (socketCourse libc mishaps visit i done) := by
  unfold handleSocketInNetwork socketCourse
  cases hsockId : done.manager.sockets.socketId i with
  | none => exact ⟨Follows.returned _ _,fun _ hnext => by cases hnext⟩
  | some sockId =>
    have hi : (done.manager.sockets.table i).isSome=true := by
      rw [←Option.isSome_map,←done.manager.sockets.socketId_eq,hsockId]
      rfl
    have hbegins : FollowsVisit libc start done.manager packets ways
        (some {done with result := 0}) (.returned (some {done with result := 0})) := by
      refine ⟨Follows.returned _ _,?_⟩
      rintro _ ⟨⟩
      exact ⟨h.withResult 0,Or.inr ⟨rfl,fun _ => rfl⟩⟩
    have hbound : FollowsVisit libc start done.manager packets ways
        (handleBoundSocket libc visit i sockId {done with result := 0})
        (boundSocketCourse libc mishaps visit i sockId {done with result := 0}) := by
      unfold handleBoundSocket boundSocketCourse
      split
      · have hlistened := hbegins.stage hi visit.listen
          (fun id => .listen visit.listen.env id visit.listenRequest)
          (fun _ => trivial) (fun _ _ hid => ⟨i,hid⟩) (heach.listen i)
          (fun _ _ hdies => hsilent.elim id fun hs => by simp [hs.listen,dies] at hdies)
        exact hlistened.stage hi visit.connect
          (fun id => .connect visit.connect.env id visit.connectRequest)
          (fun _ => trivial) (fun _ _ hid => ⟨i,hid⟩) (heach.connect i)
          (fun _ _ hdies => hsilent.elim id fun hs => by simp [hs.connect,dies] at hdies)
      · exact hbegins
    have hended := hbound.stage hi visit.endFifo
      (fun id => .endFifo visit.endFifo.env id visit.command) (fun _ => trivial)
      (fun _ _ hid => ⟨i,hid⟩) (heach.endFifo i) (fun _ _ => nofun)
    have hresent := hended.stage hi visit.sendWindow
      (fun id => .sendWindow visit.sendWindow.env id) (fun _ => trivial)
      (fun _ _ hid => ⟨i,hid⟩) (heach.sendWindow i) (fun _ _ => nofun)
    have hlast := hresent.stage hi visit.statusMessages
      (fun id => .statusMessages visit.statusMessages.env id) (fun _ => trivial)
      (fun _ _ hid => ⟨i,hid⟩) (heach.statusMessages i) (fun _ _ => nofun)
    simp only [Option.bind_assoc] at hlast
    exact hlast

/-- The iteration only moves its cursor. -/
theorem hashMapGetNext_onCursor (m : HashMap) : ∃ cursor,m.hashMapGetNext.2=onCursor cursor m := by
  unfold HashMap.hashMapGetNext
  split
  · exact ⟨m.iteratorIndex,rfl⟩
  · dsimp only
    split
    · exact ⟨_,rfl⟩
    · exact ⟨_,rfl⟩

theorem hashMapGetFirst_onCursor (m : HashMap) :
    ∃ cursor,m.hashMapGetFirst.2=onCursor cursor m := by
  unfold HashMap.hashMapGetFirst
  split
  · exact ⟨_,rfl⟩
  · exact ⟨m.iteratorIndex,rfl⟩

/-- The visits follow those whose calls come back. -/
theorem visitCourse_follows {mishaps : Mishaps} {visits : Fin hashMapDefaultSize → Visit}
    (heach : mishaps.Each ways) (hsilent : ways .dies ∨ ∀ i,Silent (visits i)) (rounds : ℕ)
    (answer : Option SocketID) (h : Handles libc start done packets) :
    Follows (CutShort libc start ways) (visitLoop libc visits rounds answer done)
      (visitCourse libc mishaps visits rounds answer done) := by
  induction rounds generalizing answer done with
  | zero => cases answer <;> exact Follows.returned _ _
  | succ rounds ih =>
    cases answer with
    | none => exact Follows.returned _ _
    | some sockId =>
      rw [visitLoop,visitCourse]
      cases hslot : cursorSlot done.manager.sockets with
      | none => exact Follows.returned _ _
      | some i =>
        have hvisit := socketCourse_follows h i (visits i) heach
          (hsilent.imp_right fun hs => hs i)
        refine hvisit.1.andThen fun visited hvisited => ?_
        split
        · exact Follows.returned _ _
        split
        · exact Follows.returned _ _
        obtain ⟨cursor,hcursor⟩ := hashMapGetNext_onCursor visited.manager.sockets
        have hnext : Handles libc start
            (withSockets visited visited.manager.sockets.hashMapGetNext.2) packets := by
          rw [hcursor]
          exact (hvisit.2 visited hvisited).served.atCursor cursor
        exact (ih visited.manager.sockets.hashMapGetNext.1 hnext).andThen
          fun _ _ => Follows.returned _ _

/-- So does the last stage of a round. -/
theorem socketsCourse_follows {mishaps : Mishaps} {visits : Fin hashMapDefaultSize → Visit}
    (heach : mishaps.Each ways) (hsilent : ways .dies ∨ ∀ i,Silent (visits i))
    (h : Handles libc start done packets) :
    Follows (CutShort libc start ways) (visitSockets libc visits done)
      (socketsCourse libc mishaps visits done) := by
  obtain ⟨cursor,hcursor⟩ := hashMapGetFirst_onCursor done.manager.sockets
  have hfirst : Handles libc start
      (withSockets done done.manager.sockets.hashMapGetFirst.2) packets := by
    rw [hcursor]
    exact h.atCursor cursor
  exact visitCourse_follows heach hsilent _ _ hfirst

end Visits

/-- Handling one packet follows the handling that comes back. -/
theorem nextCourse_cases {mishaps : ℕ → Option Halt}
    (hmishaps : ∀ n halt,mishaps n=some halt → ways halt) (hdies : ways .dies)
    (moments : ℕ → Moment) {s : Served × ℕ} (h : Handles libc start s.1 packets)
    (packet : IPPacket) :
    nextCourse libc mishaps moments (.returned s) packet=
        ((handleNext libc moments s packet).1,.returned (handleNext libc moments s packet).2) ∨
      ∃ halt before,nextCourse libc mishaps moments (.returned s) packet=
        (false,.halted halt before) ∧ CutShort libc start ways halt before := by
  have hfollows := serveCourse_follows h (moments s.2) (.packet (moments s.2).env packet)
    (hmishaps s.2) fun _ _ => hdies
  unfold nextCourse
  rcases hfollows.cases with hserved|⟨halt,before,hhalted,hcut⟩
  · left
    simp only [hserved]
    rfl
  · right
    refine ⟨halt,before,?_,hcut⟩
    simp only [hhalted]

/-- Handling the packets of an epoch follows the handling in which every call
comes back. -/
theorem handleRounds_follows {mishaps : ℕ → Option Halt} (moments : ℕ → Moment)
    {schedule : Schedule} {fuel : ℕ} {fresh : ℕ → ℕ → Byte} {s : Served × ℕ}
    {inbox : Fifo} (h : Handles libc start s.1 packets)
    (hmishaps : ∀ n halt,mishaps n=some halt → ways halt)
    (hunread : ways .dies ∨
      ∃ rest,readIpPacketFromFile libc schedule fuel fresh inbox=some (none,rest))
    (rounds : ℕ) :
    (handleRounds libc schedule fuel fresh (nextCourse libc mishaps moments) rounds
        (.returned s) inbox=none ∧
      handleRounds libc schedule fuel fresh (handleNext libc moments) rounds s inbox=none) ∨
    ∃ course rest,handleRounds libc schedule fuel fresh (nextCourse libc mishaps moments) rounds
        (.returned s) inbox=some (course,rest) ∧
      ((∃ halt before,course=.halted halt before ∧ CutShort libc start ways halt before) ∨
        ∃ last,course=.returned last ∧ handleRounds libc schedule fuel fresh
          (handleNext libc moments) rounds s inbox=some (last,rest)) := by
  induction rounds generalizing s packets inbox with
  | zero => exact Or.inr ⟨_,_,rfl,Or.inr ⟨s,rfl,rfl⟩⟩
  | succ rounds ih =>
    rw [handleRounds,handleRounds]
    cases hread : readIpPacketFromFile libc schedule fuel fresh inbox with
    | none => exact Or.inl ⟨rfl,rfl⟩
    | some reading =>
      obtain ⟨packet,next⟩ := reading
      cases packet with
      | none => exact Or.inr ⟨_,_,rfl,Or.inr ⟨s,rfl,rfl⟩⟩
      | some packet =>
        have hdies : ways .dies := by
          refine hunread.resolve_right ?_
          rintro ⟨rest,hrest⟩
          rw [hread] at hrest
          cases hrest
        rcases nextCourse_cases hmishaps hdies moments h packet with
          hnext|⟨halt,before,hnext,hcut⟩
        · simp only [hnext]
          split
          · exact ih (handleNext_handles moments h packet) (Or.inl hdies)
          · exact Or.inr ⟨_,_,rfl,Or.inr ⟨_,rfl,rfl⟩⟩
        · simp only [hnext]
          exact Or.inr ⟨_,_,rfl,Or.inl ⟨halt,before,rfl,hcut⟩⟩

section Rounds

variable {round : Round} {mishaps : Mishaps} {inbox : Fifo}

theorem handleBindFifo_stored (libc : Libc) (env : Env) (manager : NetworkManager)
    (fifo : FifoContent) (bindRequest : ℕ → Byte) :
    (handleBindFifo libc env manager fifo bindRequest).2=
      (readMessageUntilChar fifo bindRequest 0).stored := by
  simp only [handleBindFifo]
  split
  · rfl
  · split <;> rfl

/-- The bind stage comes back: nothing befalls it, and the message fits its
buffer. -/
def BindReturns (round : Round) (mishaps : Mishaps) : Prop :=
  mishaps.bind=none ∧ BindFits round

/-- Then it does what it does. -/
theorem bindCourse_of_returns (h : BindReturns round mishaps) (libc : Libc) (done : Served) :
    bindCourse libc mishaps.bind round done=.returned (after done (handleBindFifo libc
      round.bind.env (atBind round done) round.bindFifo round.bindRequest).1) := by
  have hfits : ¬maxBindRequestSize < (handleBindFifo libc round.bind.env (atBind round done)
      round.bindFifo round.bindRequest).2 := by
    rw [handleBindFifo_stored]
    exact Nat.not_lt.mpr h.2
  simp only [bindCourse,h.1,if_neg hfits]

/-- Otherwise nothing is done. -/
theorem bindCourse_of_not (h : ¬BindReturns round mishaps) (libc : Libc) (done : Served) :
    ∃ halt,bindCourse libc mishaps.bind round done=.halted halt done ∧
      (mishaps.bind=some halt ∨ halt=.dies ∧ ¬BindFits round) := by
  unfold bindCourse
  cases hbind : mishaps.bind with
  | some halt => exact ⟨halt,rfl,Or.inl rfl⟩
  | none =>
    have hlong : ¬BindFits round := fun hfits => h ⟨hbind,hfits⟩
    refine ⟨.dies,if_pos ?_,Or.inr ⟨rfl,hlong⟩⟩
    rw [handleBindFifo_stored]
    exact Nat.not_le.mp hlong

/-- Nothing that the round is asked for is fatal: its message fits, no packet
is read, and the visits are silent. -/
structure Mild (libc : Libc) (round : Round) (inbox : Fifo) : Prop where
  /-- The bind stage. -/
  fits : BindFits round
  /-- The incoming packets. -/
  unread : ∃ rest,readIpPacketFromFile libc round.schedule round.fuel round.fresh inbox=
    some (none,rest)
  /-- The visits. -/
  silent : ∀ i,Silent (round.visits i)

/-- A round follows the one whose calls come back. -/
theorem roundCourse_follows (h : Handles libc start done packets) (round : Round) (inbox : Fifo)
    (heach : mishaps.Each ways) (hmild : ways .dies ∨ Mild libc round inbox) :
    Follows (CutShort libc start ways) (managerRound libc round done inbox)
      (roundCourse libc mishaps round done inbox) := by
  by_cases htold : Told round
  · have hplain : managerRound libc round done inbox=.stopped 0 done := if_pos htold
    have hcourse : roundCourse libc mishaps round done inbox=.returned (.stopped 0 done) :=
      if_pos htold
    rw [hplain,hcourse]
    exact Follows.returned _ _
  have hbound := handleBindFifo_handles h round.bind.env round.bindFifo round.bindRequest
    (round.bind.clients done.manager.files)
  have hbind : Follows (CutShort libc start ways) (after done (handleBindFifo libc round.bind.env
      (atBind round done) round.bindFifo round.bindRequest).1)
      (bindCourse libc mishaps.bind round done) := by
    by_cases hreturns : BindReturns round mishaps
    · rw [bindCourse_of_returns hreturns]
      exact Follows.returned _ _
    · obtain ⟨halt,hhalted,hwhy⟩ := bindCourse_of_not hreturns libc done
      rw [hhalted]
      refine ⟨⟨packets,h⟩,?_⟩
      rcases hwhy with hmishap|⟨rfl,hlong⟩
      · exact heach.bind halt hmishap
      · exact hmild.resolve_right fun hm => hlong hm.fits
  have hcourse : roundCourse libc mishaps round done inbox=
      (bindCourse libc mishaps.bind round done).bind _ := if_neg htold
  rw [hcourse]
  refine hbind.bind ?_
  by_cases hfails : BindFails libc done round
  · have hplain : managerRound libc round done inbox=.stopped (-1) (after done
        (handleBindFifo libc round.bind.env (atBind round done) round.bindFifo
          round.bindRequest).1) := (if_neg htold).trans (if_pos hfails)
    rw [hplain,if_pos (show (after done (handleBindFifo libc round.bind.env (atBind round done)
      round.bindFifo round.bindRequest).1).result≠0 from hfails)]
    exact Follows.returned _ _
  have hgood : ¬(after done (handleBindFifo libc round.bind.env (atBind round done)
    round.bindFifo round.bindRequest).1).result≠0 := hfails
  rw [managerRound_eq htold hfails,if_neg hgood]
  have hpackets : Handles libc start (after done (handleBindFifo libc round.bind.env
    (atBind round done) round.bindFifo round.bindRequest).1,0).1 packets := hbound
  rcases handleRounds_follows round.packets hpackets heach.packets
      (hmild.imp_right Mild.unread) maxHandlesPerEpoch with
    ⟨hcourse,hplain⟩|⟨course,rest,hcourse,⟨halt,before,rfl,hcut⟩|⟨last,rfl,hplain⟩⟩
  · rw [roundPackets,handleInPacketsFifo,handleInPacketsFifo,hcourse,hplain]
    exact Follows.returned _ _
  · rw [handleInPacketsFifo,hcourse]
    exact hcut
  · obtain ⟨handled,hlast⟩ := handleRounds_handleAll hplain
    have hhandled : Handles libc start last.1 (packets++handled) := by
      rw [hlast]
      exact handleAll_handles round.packets (s:=(_,0)) hbound handled
    rw [roundPackets,handleInPacketsFifo,handleInPacketsFifo,hcourse,hplain]
    refine (socketsCourse_follows heach (hmild.imp_right Mild.silent) hhandled).bind ?_
    dsimp only
    cases visitSockets libc round.visits last.1 with
    | none => exact Follows.returned _ _
    | some visited =>
      dsimp only
      split <;> exact Follows.returned _ _

/-- Every mishap is of some way. -/
theorem each_true (mishaps : Mishaps) : mishaps.Each fun _ => True :=
  ⟨fun _ _ => trivial,fun _ _ _ => trivial,fun _ _ _ => trivial,fun _ _ _ => trivial,
    fun _ _ _ => trivial,fun _ _ _ => trivial,fun _ _ _ => trivial⟩

/-- What the loop has come to, or had come to before a call that did not come
back, after serving requests. -/
def CourseReached (libc : Libc) (start : Served) : Course Served Loop → Prop
  | .returned loop => Reached libc start loop
  | .halted _ before => ∃ requests,Serves libc start before requests

/-- Whatever a round meets and whichever calls come back, requests are served
one after another. -/
theorem CourseReached.step {course : Course Served Loop} (h : CourseReached libc start course)
    (round : Round × Mishaps) : CourseReached libc start (loopCourse libc course round) := by
  cases course with
  | halted halt before => exact h
  | returned loop =>
    cases loop with
    | stopped result done => exact h
    | reading => exact h
    | dangling => exact h
    | running done inbox =>
      obtain ⟨requests,hserves⟩ := h
      rw [loopCourse]
      have hreached : Reached libc start (.running done inbox) := ⟨requests,hserves⟩
      rcases (roundCourse_follows ⟨requests,hserves,rfl⟩ round.1 inbox (each_true round.2)
        (Or.inl trivial)).cases with hround|⟨halt,before,hround,hcut⟩
      · rw [hround]
        exact hreached.step round.1
      · rw [hround]
        obtain ⟨_,requests,hserves,_⟩ := hcut.1
        exact ⟨requests,hserves⟩

/-- The loop after rounds. -/
abbrev courseAfter (libc : Libc) (start : Served) (inbox : Fifo)
    (rounds : List (Round × Mishaps)) : Course Served Loop :=
  run (loopCourse libc) (.returned (.running start inbox)) rounds

/-- A round is reached in which the manager is not told to stop, and whose bind
stage comes back though the bind fifo holds something that cannot be answered. -/
def MeetsHarm (libc : Libc) (start : Served) (inbox : Fifo) (rounds : List (Round × Mishaps)) :
    Prop :=
  ∃ before round mishaps later done rest,rounds=before++(round,mishaps)::later ∧
    courseAfter libc start inbox before=.returned (.running done rest) ∧ ¬Told round ∧
    BindReturns round mishaps ∧
    ¬Harmless libc round.bind.env (atBind round done) round.bindFifo

/-- A loop that is running was running before. -/
theorem running_of_run {course : Course Served Loop} {rounds : List (Round × Mishaps)}
    {done : Served} {rest : Fifo} (h : run (loopCourse libc) course rounds=
      .returned (.running done rest)) :
    ∃ start inbox,course=.returned (.running start inbox) := by
  have hended : (∀ round,loopCourse libc course round=course) →
      course=.returned (.running done rest) := fun hfixed => (run_of_fixed _ hfixed _).symm.trans h
  cases course with
  | halted halt before => cases hended fun _ => rfl
  | returned loop =>
    cases loop with
    | running start inbox => exact ⟨start,inbox,rfl⟩
    | stopped result last => cases hended fun _ => rfl
    | reading => cases hended fun _ => rfl
    | dangling => cases hended fun _ => rfl

/-- Such a round is the first one or a later one. -/
theorem meetsHarm_cons (start : Served) (inbox : Fifo) (round : Round) (mishaps : Mishaps)
    (rest : List (Round × Mishaps)) :
    MeetsHarm libc start inbox ((round,mishaps)::rest) ↔
      (¬Told round ∧ BindReturns round mishaps ∧
        ¬Harmless libc round.bind.env (atBind round start) round.bindFifo) ∨
      ∃ done left,roundCourse libc mishaps round start inbox=.returned (.running done left) ∧
        MeetsHarm libc done left rest := by
  constructor
  · rintro ⟨before,bad,misfortune,later,done,left,hrounds,hrun,htold,hreturns,hharm⟩
    cases before with
    | nil =>
      obtain ⟨hfirst,rfl⟩ := List.cons.inj hrounds
      obtain ⟨rfl,rfl⟩ := Prod.mk.inj hfirst
      obtain ⟨rfl,rfl⟩ := Loop.running.inj (Course.returned.inj hrun)
      exact Or.inl ⟨htold,hreturns,hharm⟩
    | cons first before =>
      obtain ⟨rfl,rfl⟩ := List.cons.inj hrounds
      rw [courseAfter,run_cons] at hrun
      obtain ⟨next,inbox',hnext⟩ := running_of_run hrun
      rw [hnext] at hrun
      exact Or.inr ⟨next,inbox',hnext,before,bad,misfortune,later,done,left,rfl,hrun,htold,
        hreturns,hharm⟩
  · rintro (⟨htold,hreturns,hharm⟩|⟨done,left,hround,before,bad,misfortune,later,last,left',rfl,
      hrun,hbad⟩)
    · exact ⟨[],round,mishaps,rest,start,inbox,rfl,rfl,htold,hreturns,hharm⟩
    · refine ⟨(round,mishaps)::before,bad,misfortune,later,last,left',rfl,?_,hbad⟩
      rw [courseAfter,run_cons,loopCourse,hround]
      exact hrun

/-- The loop returns -1 exactly if it comes to such a round. -/
theorem stopped_iff (start : Served) (inbox : Fifo) (rounds : List (Round × Mishaps)) :
    (∃ last,courseAfter libc start inbox rounds=.returned (.stopped (-1) last)) ↔
      MeetsHarm libc start inbox rounds := by
  induction rounds generalizing start inbox with
  | nil =>
    refine iff_of_false (by simp) ?_
    rintro ⟨before,round,mishaps,later,done,rest,hrounds,_⟩
    exact List.append_ne_nil_of_right_ne_nil before (List.cons_ne_nil _ _) hrounds.symm
  | cons round rest ih =>
    obtain ⟨round,mishaps⟩ := round
    rw [meetsHarm_cons,courseAfter,run_cons,loopCourse]
    dsimp only
    by_cases htold : Told round
    · have hround : roundCourse libc mishaps round start inbox=.returned (.stopped 0 start) :=
        if_pos htold
      rw [hround,run_of_fixed _ fun _ => rfl]
      simp [htold]
    have hbind : roundCourse libc mishaps round start inbox=
      (bindCourse libc mishaps.bind round start).bind _ := if_neg htold
    by_cases hreturns : BindReturns round mishaps
    swap
    · obtain ⟨halt,hhalted,_⟩ := bindCourse_of_not hreturns libc start
      rw [hhalted,Course.bind_halted] at hbind
      rw [hbind,run_of_fixed _ fun _ => rfl]
      simp [hreturns]
    have hfails := bindFails_iff libc start hreturns.2
    rcases (roundCourse_follows (Handles.refl libc start) round inbox (each_true mishaps)
      (Or.inl trivial)).cases with hround|⟨halt,before,hround,_⟩
    · have houtcome := managerRound_outcome (Handles.refl libc start) round inbox
      rw [hround,←hfails]
      generalize managerRound libc round start inbox=next at houtcome ⊢
      cases houtcome with
      | told h => exact absurd h htold
      | bindFails _ hbad =>
        rw [run_of_fixed _ fun _ => rfl]
        simp [htold,hreturns,hbad]
      | reading _ hgood =>
        rw [run_of_fixed _ fun _ => rfl]
        simp [hgood]
      | ended _ hgood hhandles left =>
        refine (ih _ left).trans ?_
        simp [hgood]
    · -- a bind stage that comes back and fails would have ended the loop
      have hgood : ¬BindFails libc start round := by
        intro hbad
        rw [bindCourse_of_returns hreturns,Course.bind_returned] at hbind
        have hstopped := hbind.trans (if_pos hbad)
        rw [hround] at hstopped
        cases hstopped
      rw [hround,run_of_fixed _ fun _ => rfl,←hfails]
      simp [hgood]

end Rounds

section Silence

variable (libc : Libc) {rounds : ℕ → Round} {mishaps : ℕ → Mishaps}

/-- The loop after so many rounds. -/
def courseAt (rounds : ℕ → Round) (mishaps : ℕ → Mishaps) (start : Course Served Loop) :
    ℕ → Course Served Loop
  | 0 => start
  | n+1 => loopCourse libc (courseAt rounds mishaps start n) (rounds n,mishaps n)

/-- In a quiet round nothing is asked for that is fatal. -/
theorem mild_of_quiet {round : Round} {inbox : Fifo} (hquiet : Quiet round)
    (hempty : inbox.waiting=[]) : Mild libc round inbox where
  fits := by
    have hstored : (readMessageUntilChar round.bindFifo round.bindRequest 0).stored=0 := by
      simp only [readMessageUntilChar,hquiet.unbound,readLoop]
      rw [if_neg fun h => hquiet.readable h.2,if_pos trivial]
    rw [BindFits,hstored]
    exact Nat.zero_le _
  unread := ⟨_,readIpPacketFromFile_empty libc round.fresh round.fuel hquiet.steady hempty⟩
  silent := hquiet.silent

/-- Through quiet rounds the loop does what it does when every call comes
back, or one of their mishaps cuts it short. -/
theorem courseAt_quiet (hquiet : ∀ n,Quiet (rounds n)) (heach : ∀ n,(mishaps n).Each ways)
    {done : Served} {inbox : Fifo} (hu : done.manager.sockets.KeysUnique)
    (hempty : inbox.waiting=[]) (n : ℕ) :
    courseAt libc rounds mishaps (.returned (.running done inbox)) n=
        .returned (loopAt libc rounds (.running done inbox) n) ∨
      ∃ halt before,courseAt libc rounds mishaps (.returned (.running done inbox)) n=
        .halted halt before ∧ ways halt := by
  obtain ⟨later,rest,_,hloop⟩ := loopAt_quiet libc hquiet hu hempty
  induction n with
  | zero => exact Or.inl rfl
  | succ n ih =>
    rw [courseAt]
    rcases ih with hcourse|⟨halt,before,hcourse,hway⟩
    · rw [hcourse,loopAt,(hloop n).1,loopCourse]
      rcases (roundCourse_follows (Handles.refl libc (later n)) (rounds n) (rest n) (heach n)
          (Or.inr (mild_of_quiet libc (hquiet n) (hloop n).2.1))).cases with
        hround|⟨halt,before,hround,hcut⟩
      · exact Or.inl hround
      · exact Or.inr ⟨halt,before,hround,hcut.2⟩
    · rw [hcourse]
      exact Or.inr ⟨halt,before,rfl,hway⟩

end Silence

/-- A socket that waits for the answer to its FIN and one that listens. -/
def managerWaiting : NetworkManager :=
  let ended := createNewSocket 0 ⟨8080,8081,emptyIp,emptyIp⟩ .finWait1
  let listens := createNewSocket 0 ⟨8082,emptyPort,emptyIp,emptyIp⟩ .listen
  ⟨emptyIp,((createHashMap.insertSocket ended).2.insertSocket listens).2,fun _ => false⟩

/-- A round in which nothing happens, so many seconds after the start. -/
def idleRound (n : ℕ) : Round :=
  let moment : Moment := ⟨id,smoothEnv (n*clocksPerSec) none⟩
  let nothing : Schedule := fun _ => ⟨[],0,true,false⟩
  ⟨nothing,⟨[],0⟩,moment,⟨[],.again⟩,fun _ => 0,nothing,1,fun _ _ => 0,fun _ => moment,
    fun _ => ⟨moment,none,moment,none,moment,false,moment,moment⟩⟩

/-- Nothing befalls a call. -/
def noMishaps : Mishaps :=
  ⟨none,fun _ => none,fun _ => none,fun _ => none,fun _ => none,fun _ => none,fun _ => none⟩

theorem noMishaps_each (ways : Halt → Prop) : noMishaps.Each ways :=
  ⟨nofun,fun _ => nofun,fun _ => nofun,fun _ => nofun,fun _ => nofun,fun _ => nofun,
    fun _ => nofun⟩

end NetworkLayer.HaltingLoop
