import NetworkLayer.LoopRuns
import NetworkLayer.TimedRuns

/-!
# Sockets that nobody speaks to

When no packet arrives and no user asks for anything, only the clock moves the
sockets of a manager. A visit then removes a socket that is closed for long
enough, and the timer passes lead some states there. Which sockets are removed
by silence alone, and which stay for as long as the manager runs, is worked
out here.
-/

namespace NetworkLayer.SilentSockets

open FormattedText UtilTypes Hashmap SlotTables FifoUtils FifoReads PacketHandlers SocketPasses
open PacketDispatch PacketFraming SocketRequests TableMoves BindRequests ManagerLoop
open IterationPlace LoopRuns TimedRuns

/-- At a visit nothing is asked of the socket. -/
structure Silent (visit : Visit) : Prop where
  /-- Its listen fifo is empty. -/
  listen : visit.listenRequest=none
  /-- So is its connect fifo. -/
  connect : visit.connectRequest=none
  /-- No close command is there. -/
  command : visit.command=false

/-- What a visit leaves of a socket of which nothing is asked. -/
def visitedInSilence (visit : Visit) (s : Socket) : Option Socket :=
  if s.state=.closed ∧ elapsed visit.endFifo.env s.creationTime socketTimeout=true then none
  else
    let resent := (checkAndHandleSendWindow visit.sendWindow.env s).socket
    some (checkAndHandleOutgoingStatusMessages visit.statusMessages.env resent).socket

section Visits

variable (libc : Libc) {i : Fin hashMapDefaultSize} {before : NetworkManager} {s : Socket}
  {x : Option Socket} {done : Served}

/-- Since some manager the slot got a new content and the other slots none; a
removal breaks the iteration. -/
structure Leaves (i : Fin hashMapDefaultSize) (before : NetworkManager) (x : Option Socket)
    (done : Served) : Prop where
  /-- The table. -/
  table : done.manager.sockets.table=Function.update before.sockets.table i x
  /-- What is returned. -/
  result : done.result=if x.isNone=true then breakIteration else 0
  /-- The keys. -/
  unique : done.manager.sockets.KeysUnique

/-- A stage that runs does to the slot what its request does. -/
theorem stage_leaves (h : Leaves i before (some s) done) (moment : Moment)
    (request : SocketID → Request)
    (hserve : ∀ manager : NetworkManager,manager.sockets.KeysUnique →
      manager.sockets.table i=some s → Leaves i manager x (serve libc manager (request s.id))) :
    ∃ next,stage libc i moment request done=some next ∧ Leaves i before x next := by
  have hresult : done.result=0 := h.result
  have hs : done.manager.sockets.table i=some s := by rw [h.table,Function.update_self]
  have hid : done.manager.sockets.socketId i=some s.id := by
    rw [done.manager.sockets.socketId_eq,hs,Option.map_some]
  have hserved := hserve {done.manager with files := moment.clients done.manager.files} h.unique hs
  refine ⟨serveAt libc moment done (request s.id),?_,?_,hserved.result,hserved.unique⟩
  · rw [stage,if_neg (not_not.mpr hresult),hid,Option.map_some]
  · have htable : (serveAt libc moment done (request s.id)).manager.sockets.table=
        Function.update done.manager.sockets.table i x := hserved.table
    rw [htable,h.table,Function.update_idem]

/-- A stage after a removal does nothing. -/
theorem stage_removed (h : Leaves i before none done) (moment : Moment)
    (request : SocketID → Request) : stage libc i moment request done=some done := by
  have hresult : done.result=breakIteration := h.result
  rw [stage,if_pos (by rw [hresult]; decide)]

variable {manager : NetworkManager} (hu : manager.sockets.KeysUnique)
  (hs : manager.sockets.table i=some s)

include hu hs

/-- A call that only returns leaves the slot as it is. -/
theorem leaves_returned : Leaves i manager (some s) (returned 0 manager) :=
  ⟨by rw [←hs,Function.update_eq_self]; rfl,rfl,hu⟩

/-- An empty listen fifo changes nothing. -/
theorem listen_leaves (env : Env) :
    Leaves i manager (some s) (serve libc manager (.listen env s.id none)) := by
  have hnothing : serve libc manager (.listen env s.id none)=returned 0 manager := by
    simp only [serve,checkAndHandleListenRequest,pointerTo_stored hu hs]
  rw [hnothing]
  exact leaves_returned hu hs

/-- Nor does an empty connect fifo. -/
theorem connect_leaves (env : Env) :
    Leaves i manager (some s) (serve libc manager (.connect env s.id none)) := by
  have hnothing : serve libc manager (.connect env s.id none)=returned 0 manager := by
    simp only [serve,checkAndHandleConnectRequest,pointerTo_stored hu hs,Option.bind_none]
  rw [hnothing]
  exact leaves_returned hu hs

/-- Without a close command a socket that is closed for long enough goes. -/
theorem endFifo_leaves (env : Env) :
    Leaves i manager
      (if s.state=.closed ∧ elapsed env s.creationTime socketTimeout=true then none else some s)
      (serve libc manager (.endFifo env s.id false)) := by
  have hlooks : serve libc manager (.endFifo env s.id false)=
      checkAndHandleClosedSocket env manager s := by
    simp only [serve,checkAndHandleSocketEndFifo,pointerTo_stored hu hs,Bool.false_eq_true,
      if_false]
  rw [hlooks,checkAndHandleClosedSocket]
  split
  · have hremoved : removeAndDestroySocket manager s.id={manager with
        sockets := (manager.sockets.hashmapRemove s.id).2
        files := unlinkSocketFifosServerSide manager.files s.id} := by
      rw [removeAndDestroySocket,hu.getSocket_self hs]
    rw [hremoved]
    exact ⟨(HashMap.hashmapRemove_of_found (hu.indexOf_eq_some_iff.mpr ⟨s,hs,rfl⟩)).2,rfl,
      hu.hashmapRemove s.id⟩
  · exact leaves_returned hu hs

/-- A timer pass changes the socket. -/
theorem servePass_leaves {pass : Socket → Passed} (hid : (pass s).socket.id=s.id) :
    Leaves i manager (some (pass s).socket) (servePass pass manager s.id) := by
  rw [servePass,pointerTo_stored hu hs]
  exact ⟨HashMap.setSocket_table hs _,rfl,hu.setSocket hs hid⟩

omit hu hs

/-- In silence a bound socket is told nothing. -/
theorem handleBoundSocket_leaves {visit : Visit} (hsilent : Silent visit) (sockId : SocketID)
    (h : Leaves i before (some s) done) :
    ∃ next,handleBoundSocket libc visit i sockId done=some next ∧
      Leaves i before (some s) next := by
  unfold handleBoundSocket
  split
  · obtain ⟨listened,hlistened,hleaves⟩ := stage_leaves libc h visit.listen
      (fun id => .listen visit.listen.env id visit.listenRequest)
      fun _ hu hs => by rw [hsilent.listen]; exact listen_leaves libc hu hs _
    obtain ⟨next,hnext,hleaves⟩ := stage_leaves libc hleaves visit.connect
      (fun id => .connect visit.connect.env id visit.connectRequest)
      fun _ hu hs => by rw [hsilent.connect]; exact connect_leaves libc hu hs _
    exact ⟨next,by rw [hlistened]; exact hnext,hleaves⟩
  · exact ⟨done,rfl,h⟩

/-- The whole visit, in silence. -/
theorem handleSocketInNetwork_leaves {visit : Visit} (hsilent : Silent visit)
    (hu : done.manager.sockets.KeysUnique) (hs : done.manager.sockets.table i=some s) :
    ∃ next,handleSocketInNetwork libc visit i done=some next ∧
      Leaves i done.manager (visitedInSilence visit s) next := by
  have hid : done.manager.sockets.socketId i=some s.id := by
    rw [done.manager.sockets.socketId_eq,hs,Option.map_some]
  have hbegins : Leaves i done.manager (some s) {done with result := 0} :=
    ⟨by rw [←hs,Function.update_eq_self],rfl,hu⟩
  obtain ⟨requested,hrequested,hleaves⟩ :=
    handleBoundSocket_leaves libc hsilent s.id hbegins
  obtain ⟨ended,hended,hleaves⟩ := stage_leaves libc hleaves visit.endFifo
    (fun id => .endFifo visit.endFifo.env id visit.command)
    fun _ hu hs => by rw [hsilent.command]; exact endFifo_leaves libc hu hs _
  simp only [handleSocketInNetwork,Option.bind_eq_bind,hid,Option.bind_some,hrequested,hended]
  by_cases hgone : s.state=.closed ∧ elapsed visit.endFifo.env s.creationTime socketTimeout=true
  · rw [if_pos hgone] at hleaves
    rw [visitedInSilence,if_pos hgone,stage_removed libc hleaves,Option.bind_some,
      stage_removed libc hleaves]
    exact ⟨ended,rfl,hleaves⟩
  · rw [if_neg hgone] at hleaves
    rw [visitedInSilence,if_neg hgone]
    obtain ⟨resent,hresent,hleaves⟩ := stage_leaves libc hleaves visit.sendWindow
      (fun id => .sendWindow visit.sendWindow.env id)
      fun _ hu hs => servePass_leaves hu hs (checkAndHandleSendWindow_id _ _)
    rw [hresent,Option.bind_some]
    refine stage_leaves libc hleaves visit.statusMessages
      (fun id => .statusMessages visit.statusMessages.env id) fun _ hu hs => ?_
    exact servePass_leaves hu hs (checkAndHandleOutgoingStatusMessages_id _ _)

end Visits

section Rounds

variable (libc : Libc) {visits : Fin hashMapDefaultSize → Visit}

/-- What the visits of a round do to the sockets in silence: each slot is
visited or not, and none is left out unless a socket is removed. -/
structure SilentRound (visits : Fin hashMapDefaultSize → Visit) (before after : Slots) : Prop where
  /-- Each slot. -/
  each : ∀ i,after i=before i ∨ after i=(before i).bind (visitedInSilence (visits i))
  /-- All slots. -/
  all : (∀ i,after i=(before i).bind (visitedInSilence (visits i))) ∨
    ∃ i,(before i).isSome=true ∧ after i=none

/-- A walk over occupied slots, in silence. -/
theorem visitInOrder_silent (hsilent : ∀ i,Silent (visits i))
    {slots : List (Fin hashMapDefaultSize)} (hnodup : slots.Nodup) {done : Served}
    (hu : done.manager.sockets.KeysUnique)
    (hslots : ∀ i∈slots,(done.manager.sockets.table i).isSome=true) :
    ∃ visited last,visitInOrder libc visits slots done=some (visited,last) ∧ last.result=0 ∧
      last.manager.sockets.KeysUnique ∧
      (∀ i,last.manager.sockets.table i=if i∈visited then
        (done.manager.sockets.table i).bind (visitedInSilence (visits i))
        else done.manager.sockets.table i) ∧
      visited ⊆ slots ∧ (visited=slots ∨ ∃ i∈slots,last.manager.sockets.table i=none) := by
  induction slots generalizing done with
  | nil =>
    refine ⟨[],_,rfl,rfl,hu,fun i => ?_,List.Subset.refl _,Or.inl rfl⟩
    rw [if_neg List.not_mem_nil]
  | cons i rest ih =>
    obtain ⟨hi,hnodup⟩ := List.nodup_cons.mp hnodup
    obtain ⟨s,hs⟩ := Option.isSome_iff_exists.mp (hslots i List.mem_cons_self)
    obtain ⟨next,hnext,hleaves⟩ := handleSocketInNetwork_leaves libc (hsilent i) hu hs
    have hresult := hleaves.result
    rw [visitInOrder,hnext]
    cases hx : visitedInSilence (visits i) s with
    | none =>
      -- the walk is cut behind the removal
      rw [hx] at hresult
      rw [hx] at hleaves
      have hbreak : next.result=breakIteration := hresult
      refine ⟨[i],_,if_pos hbreak,rfl,hleaves.unique,fun k => ?_,by simp,
        Or.inr ⟨i,List.mem_cons_self,?_⟩⟩
      · rw [hleaves.table]
        by_cases hk : k=i
        · rw [hk,if_pos List.mem_cons_self,Function.update_self,hs,Option.bind_some,hx]
        · rw [if_neg (by simpa using hk),Function.update_of_ne hk]
      · rw [hleaves.table,Function.update_self]
    | some s' =>
      rw [hx] at hresult
      rw [hx] at hleaves
      have hzero : next.result=0 := hresult
      have hrest : ∀ k∈rest,next.manager.sockets.table k=done.manager.sockets.table k := by
        intro k hk
        rw [hleaves.table,Function.update_of_ne (fun heq : k=i => hi (heq ▸ hk))]
      obtain ⟨visited,last,hvisited,hlast,hunique,htable,hinside,hall⟩ := ih hnodup hleaves.unique
        fun k hk => by rw [hrest k hk]; exact hslots k (List.mem_cons_of_mem _ hk)
      have hnobreak : ¬next.result=breakIteration := by
        rw [hzero]
        decide
      refine ⟨i::visited,last,?_,hlast,hunique,fun k => ?_,List.cons_subset_cons i hinside,?_⟩
      · simp only [Option.bind_eq_bind,Option.bind_some,if_neg hnobreak,hvisited]
        rfl
      · rw [htable]
        by_cases hk : k=i
        · subst hk
          rw [if_neg fun hmem => hi (hinside hmem),if_pos List.mem_cons_self,hleaves.table,
            Function.update_self,hs,Option.bind_some,hx]
        · have hmem : k∈i::visited ↔ k∈visited := by simp [hk]
          rw [hleaves.table,Function.update_of_ne hk,if_congr hmem rfl rfl]
      · rcases hall with rfl|⟨k,hk,hnone⟩
        · exact Or.inl rfl
        · exact Or.inr ⟨k,List.mem_cons_of_mem _ hk,hnone⟩

/-- No slot is twice among the occupied ones. -/
theorem nodup_occupiedSlots (m : HashMap) (k : ℕ) : (occupiedSlots m k).Nodup := by
  refine (List.nodup_finRange _).filterMap fun i j slot hi hj => ?_
  simp only [Option.mem_def,Option.ite_none_right_eq_some,Option.map_eq_some_iff] at hi hj
  obtain ⟨_,_,_,rfl⟩ := hi
  obtain ⟨_,_,_,rfl⟩ := hj
  rfl

/-- The visits of a round, in silence. -/
theorem visitSockets_silent (hsilent : ∀ i,Silent (visits i)) {done : Served}
    (hu : done.manager.sockets.KeysUnique) :
    ∃ visited last,visitSockets libc visits done=some (visited,last) ∧ last.result=0 ∧
      last.manager.sockets.KeysUnique ∧
      SilentRound visits done.manager.sockets.table last.manager.sockets.table := by
  have hmem : ∀ i,i∈occupiedSlots done.manager.sockets 0 ↔
      (done.manager.sockets.table i).isSome=true := fun i => mem_occupiedSlots
  obtain ⟨visited,last,hvisited,hlast,hunique,htable,_,hall⟩ := visitInOrder_silent libc hsilent
    (nodup_occupiedSlots done.manager.sockets 0) hu fun i hi => (hmem i).mp hi
  obtain ⟨cursor,hvisits⟩ := visitSockets_eq libc visits done
  rw [hvisited] at hvisits
  refine ⟨visited,servedAtCursor cursor last,hvisits,hlast,hunique,fun i => ?_,?_⟩
  · have hi := htable i
    by_cases hin : i∈visited
    · rw [if_pos hin] at hi
      exact Or.inr hi
    · rw [if_neg hin] at hi
      exact Or.inl hi
  · rcases hall with rfl|⟨i,hi,hnone⟩
    · refine Or.inl fun i => (htable i).trans ?_
      by_cases hin : i∈occupiedSlots done.manager.sockets 0
      · rw [if_pos hin]
      · rw [if_neg hin]
        have hempty := mt (hmem i).mpr hin
        rw [Option.not_isSome_iff_eq_none] at hempty
        rw [hempty,Option.bind_none]
    · exact Or.inr ⟨i,(hmem i).mp hi,hnone⟩

/-- Nobody asks the manager for anything in a round: it is not told to stop,
nothing is in its fifos and none of its sockets is asked for anything. -/
structure Quiet (round : Round) : Prop where
  /-- The terminate fifo. -/
  goesOn : ¬Told round
  /-- No bytes are in the bind fifo. -/
  unbound : round.bindFifo.bytes=[]
  /-- It can be read. -/
  readable : round.bindFifo.ending≠.failed
  /-- No packets arrive. -/
  steady : Steady round.schedule
  /-- The sockets. -/
  silent : ∀ i,Silent (round.visits i)

/-- An empty bind fifo asks for nothing. -/
theorem handleBindFifo_quiet {round : Round} (hquiet : Quiet round) (env : Env)
    (manager : NetworkManager) :
    (handleBindFifo libc env manager round.bindFifo round.bindRequest).1=returned 0 manager := by
  have hread : readMessageUntilChar round.bindFifo round.bindRequest 0=
      ⟨0,round.bindRequest,0⟩ := by
    simp only [readMessageUntilChar,hquiet.unbound,readLoop]
    rw [if_neg fun h => hquiet.readable h.2,if_pos trivial]
  simp only [handleBindFifo,hread]
  rfl

/-- A quiet round goes on to the next one, and its visits are all it does to
the sockets. -/
theorem managerRound_quiet {round : Round} (hquiet : Quiet round) {done : Served} {inbox : Fifo}
    (hu : done.manager.sockets.KeysUnique) (hempty : inbox.waiting=[]) :
    ∃ next rest,managerRound libc round done inbox=.running next rest ∧ rest.waiting=[] ∧
      next.manager.sockets.KeysUnique ∧
      SilentRound round.visits done.manager.sockets.table next.manager.sockets.table := by
  have hread := readIpPacketFromFile_empty libc round.fresh round.fuel hquiet.steady hempty
  have hpackets : ∀ s : Served × ℕ,handleInPacketsFifo libc round.schedule round.fuel round.fresh
      (handleNext libc round.packets) s inbox=some (s,⟨[],inbox.reads+1⟩) := by
    intro s
    rw [handleInPacketsFifo,maxHandlesPerEpoch,handleRounds,hread]
  have hgoesOn : ¬shouldTerminateManager round.terminateSchedule round.terminateFifo=true :=
    hquiet.goesOn
  rw [managerRound,if_neg hgoesOn]
  simp only [handleBindFifo_quiet libc hquiet,hpackets]
  generalize hbound : after done (returned 0
    {done.manager with files := round.bind.clients done.manager.files})=bound
  have hsockets : bound.manager.sockets=done.manager.sockets := by rw [←hbound]; rfl
  have hzero : bound.result=0 := by rw [←hbound]; rfl
  obtain ⟨visited,last,hvisited,hlast,hunique,hround⟩ :=
    visitSockets_silent libc hquiet.silent (hsockets ▸ hu)
  rw [hsockets] at hround
  refine ⟨last,⟨[],inbox.reads+1⟩,?_,rfl,hunique,hround⟩
  rw [if_neg (not_not.mpr hzero),hvisited]
  simp only [hlast]
  rfl

/-- The loop after so many rounds. -/
def loopAt (rounds : ℕ → Round) (start : Loop) : ℕ → Loop
  | 0 => start
  | n+1 => loopStep libc (loopAt rounds start n) (rounds n)

/-- Through quiet rounds the loop goes on, and its visits are all that happens
to the sockets. -/
theorem loopAt_quiet {rounds : ℕ → Round} (hquiet : ∀ n,Quiet (rounds n)) {done : Served}
    {inbox : Fifo} (hu : done.manager.sockets.KeysUnique) (hempty : inbox.waiting=[]) :
    ∃ (later : ℕ → Served) (rest : ℕ → Fifo),later 0=done ∧ ∀ n,
      loopAt libc rounds (.running done inbox) n=.running (later n) (rest n) ∧
      (rest n).waiting=[] ∧ SilentRound (rounds n).visits (later n).manager.sockets.table
        (later (n+1)).manager.sockets.table := by
  have hruns : ∀ n,∃ later rest,loopAt libc rounds (.running done inbox) n=.running later rest ∧
      rest.waiting=[] ∧ later.manager.sockets.KeysUnique := by
    intro n
    induction n with
    | zero => exact ⟨done,inbox,rfl,hempty,hu⟩
    | succ n ih =>
      obtain ⟨later,rest,hloop,hrest,hunique⟩ := ih
      obtain ⟨next,rest',hround,hrest',hunique',_⟩ :=
        managerRound_quiet libc (hquiet n) hunique hrest
      exact ⟨next,rest',by rw [loopAt,hloop,loopStep,hround],hrest',hunique'⟩
  choose later rest hloop hrest hunique using hruns
  refine ⟨later,rest,(Loop.running.inj (hloop 0)).1.symm,fun n => ⟨hloop n,hrest n,?_⟩⟩
  obtain ⟨next,rest',hround,_,_,hsilent⟩ :=
    managerRound_quiet libc (hquiet n) (hunique n) (hrest n)
  have hnext := hloop (n+1)
  rw [loopAt,hloop n,loopStep,hround] at hnext
  rw [←(Loop.running.inj hnext).1]
  exact hsilent

end Rounds

/-- The states that silence does not end, by the answer to a reset. A socket
that sent its FIN first takes any answer but an error, one whose peer sent a
FIN too only success. -/
def lasts (answer : SendResult) : TCPState → Bool
  | .closed | .timeWait => false
  | .finWait1 => answer=.error
  | .closing => answer≠.ok
  | _ => true

/-- How many deadlines are between a state and the removal. -/
def rank : TCPState → ℕ
  | .finWait1 | .closing => 2
  | .timeWait => 1
  | _ => 0

/-- The next of them. -/
def deadline (s : Socket) : ℤ :=
  match s.state with
  | .finWait1 | .closing => s.timeSinceFinSent+socketFinRstTime*clocksPerSec
  | .timeWait => s.lastSendClock+socketTimeWaitTimeout*clocksPerSec
  | _ => s.creationTime+socketTimeout*clocksPerSec

/-- The wait for the removal of what is in a slot. -/
def untilRemoved (answer : SendResult) : Wait (Option Socket) where
  Waiting x := ∃ s,x=some s ∧ lasts answer s.state=false
  Done x := x=none
  rank x := x.elim 0 fun s => rank s.state
  deadline x := x.elim 0 deadline

/-- The first of the clocks that a visit looks at. -/
def visitClock (visit : Visit) : ℤ := min visit.endFifo.env.now visit.statusMessages.env.now

section Sockets

variable {visit : Visit} {answer : SendResult} {s : Socket}

/-- The pass over the send window keeps the state. -/
theorem checkAndHandleSendWindow_state (env : Env) (s : Socket) :
    (checkAndHandleSendWindow env s).socket.state=s.state := by
  rcases checkAndHandleSendWindow_cases env s with he|⟨_,_,_,_,_,_,he⟩ <;> rw [he]
  rfl

/-- Only established sockets send from their window. -/
theorem checkAndHandleSendWindow_idle (env : Env) (h : s.state≠.established) :
    checkAndHandleSendWindow env s=idle s := by
  rw [checkAndHandleSendWindow,if_pos h]

/-- Behind an unanswered FIN a socket waits for the last state until the reset
is sent and does not fail. -/
theorem statusMessages_finSent (env : Env) (h : s.state=.finWait1 ∨ s.state=.closing) :
    let after := (checkAndHandleOutgoingStatusMessages env s).socket
    after.timeSinceFinSent=s.timeSinceFinSent ∧
      after.state=if elapsed env s.timeSinceFinSent socketFinRstTime=true ∧
        lasts (env.sendResult 0) s.state=false then .timeWait else s.state := by
  intro after
  rcases h with h|h
  · by_cases hreset : elapsed env s.timeSinceFinSent socketFinRstTime=true ∧
        env.sendResult 0≠.error
    · have hafter : after={s with state := .timeWait} := by
        simp only [after,checkAndHandleOutgoingStatusMessages,h,if_pos hreset]
      have hlasts : elapsed env s.timeSinceFinSent socketFinRstTime=true ∧
          lasts (env.sendResult 0) s.state=false := by simpa [lasts,h] using hreset
      rw [hafter,if_pos hlasts]
      exact ⟨rfl,rfl⟩
    · have hafter : after.timeSinceFinSent=s.timeSinceFinSent ∧ after.state=.finWait1 := by
        simp only [after,checkAndHandleOutgoingStatusMessages,h,if_neg hreset]
        split
        · obtain ⟨clock,hclock⟩ := attempt_frame env 1 s (bareControl s TcpPackets.finFlag)
          rw [hclock]
          exact ⟨rfl,h⟩
        · exact ⟨rfl,h⟩
      have hlasts : ¬(elapsed env s.timeSinceFinSent socketFinRstTime=true ∧
          lasts (env.sendResult 0) s.state=false) := by simpa [lasts,h] using hreset
      rwa [if_neg hlasts,h]
  · by_cases hreset : elapsed env s.timeSinceFinSent socketFinRstTime=true ∧
        env.sendResult 0=.ok
    · have hafter : after={s with state := .timeWait} := by
        simp only [after,checkAndHandleOutgoingStatusMessages,h,if_pos hreset.1,if_pos hreset.2]
      have hlasts : elapsed env s.timeSinceFinSent socketFinRstTime=true ∧
          lasts (env.sendResult 0) s.state=false := by simpa [lasts,h] using hreset
      rw [hafter,if_pos hlasts]
      exact ⟨rfl,rfl⟩
    · have hafter : after=s := by
        simp only [after,checkAndHandleOutgoingStatusMessages,h]
        split
        · next helapsed => exact if_neg fun hok => hreset ⟨helapsed,hok⟩
        · rfl
      have hlasts : ¬(elapsed env s.timeSinceFinSent socketFinRstTime=true ∧
          lasts (env.sendResult 0) s.state=false) := by simpa [lasts,h] using hreset
      rw [hafter,if_neg hlasts]
      exact ⟨rfl,rfl⟩

/-- The timer pass keeps a state that lasts, or leads to one. -/
theorem lasts_statusMessages {env : Env} (hanswer : env.sendResult 0=answer)
    (h : lasts answer s.state=true) :
    lasts answer (checkAndHandleOutgoingStatusMessages env s).socket.state=true := by
  by_cases hsent : s.state=.finWait1 ∨ s.state=.closing
  · rw [(statusMessages_finSent env hsent).2,hanswer,h,if_neg (by simp),h]
  have houtcome := checkAndHandleOutgoingStatusMessages_outcome env s
  generalize checkAndHandleOutgoingStatusMessages env s=passed at houtcome ⊢
  cases houtcome with
  | sends | moves => exact h
  | timedOut hstate => exact absurd hstate hsent
  | finishes => rfl
  | expires hstate =>
    rw [hstate] at h
    cases h

/-- A socket whose state lasts survives the visit. -/
theorem visitedInSilence_lasting (hanswer : visit.statusMessages.env.sendResult 0=answer)
    (h : lasts answer s.state=true) :
    ∃ s',visitedInSilence visit s=some s' ∧ s'.id=s.id ∧ lasts answer s'.state=true := by
  have hopen : s.state≠.closed := by
    intro hclosed
    rw [hclosed] at h
    cases h
  refine ⟨_,by rw [visitedInSilence,if_neg fun hclosed => hopen hclosed.1],?_,?_⟩
  · rw [checkAndHandleOutgoingStatusMessages_id,checkAndHandleSendWindow_id]
  · exact lasts_statusMessages hanswer (by rw [checkAndHandleSendWindow_state,h])

/-- A clock that is not yet past a deadline. -/
theorem le_of_not_elapsed {env : Env} {since seconds : ℤ} (h : ¬elapsed env since seconds=true) :
    env.now ≤ since+seconds*clocksPerSec := by
  simp only [elapsed,decide_eq_true_eq] at h
  omega

/-- Any other socket is removed, comes nearer to it or waits for a deadline
that has not passed. -/
theorem visitedInSilence_waiting (hanswer : visit.statusMessages.env.sendResult 0=answer)
    (h : lasts answer s.state=false) :
    visitedInSilence visit s=none ∨ ∃ s',visitedInSilence visit s=some s' ∧
      lasts answer s'.state=false ∧ (rank s'.state < rank s.state ∨ rank s'.state=rank s.state ∧
        deadline s'=deadline s ∧ visitClock visit ≤ deadline s) := by
  have hidle : (checkAndHandleSendWindow visit.sendWindow.env s).socket=s := by
    rw [checkAndHandleSendWindow_idle _ fun hstate => by rw [hstate] at h; cases h]
    rfl
  have hfirst : visitClock visit ≤ visit.endFifo.env.now := min_le_left _ _
  have hsecond : visitClock visit ≤ visit.statusMessages.env.now := min_le_right _ _
  by_cases hgone : s.state=.closed ∧
    elapsed visit.endFifo.env s.creationTime socketTimeout=true
  · exact Or.inl (by rw [visitedInSilence,if_pos hgone])
  refine Or.inr ⟨_,by rw [visitedInSilence,if_neg hgone],?_⟩
  rw [hidle]
  by_cases hsent : s.state=.finWait1 ∨ s.state=.closing
  · -- the reset is due, or the socket waits for it
    have hdeadline : deadline s=s.timeSinceFinSent+socketFinRstTime*clocksPerSec := by
      rcases hsent with hstate|hstate <;> rw [deadline,hstate]
    have hrank : rank s.state=2 := by
      rcases hsent with hstate|hstate <;> rw [hstate] <;> rfl
    obtain ⟨hsince,hafter⟩ := statusMessages_finSent visit.statusMessages.env hsent
    generalize (checkAndHandleOutgoingStatusMessages visit.statusMessages.env s).socket=next at *
    rw [hanswer,h] at hafter
    by_cases helapsed : elapsed visit.statusMessages.env s.timeSinceFinSent socketFinRstTime=true
    · rw [if_pos ⟨helapsed,rfl⟩] at hafter
      rw [hafter,hrank]
      exact ⟨rfl,Or.inl (by decide)⟩
    · rw [if_neg fun hboth => helapsed hboth.1] at hafter
      have hlate := le_of_not_elapsed helapsed
      have hnext : deadline next=deadline s := by
        rw [hdeadline,←hsince]
        rcases hsent with hstate|hstate <;> rw [deadline,hafter,hstate]
      rw [hafter]
      exact ⟨h,Or.inr ⟨rfl,hnext,by omega⟩⟩
  · cases hstate : s.state with
    | finWait1 => exact absurd (Or.inl hstate) hsent
    | closing => exact absurd (Or.inr hstate) hsent
    | closed =>
      have hpass : checkAndHandleOutgoingStatusMessages visit.statusMessages.env s=idle s := by
        simp only [checkAndHandleOutgoingStatusMessages,hstate]
      have hlate := le_of_not_elapsed fun helapsed => hgone ⟨hstate,helapsed⟩
      have hdeadline : deadline s=s.creationTime+socketTimeout*clocksPerSec := by
        rw [deadline,hstate]
      rw [hpass]
      exact ⟨h,Or.inr ⟨congrArg rank hstate,rfl,by omega⟩⟩
    | timeWait =>
      by_cases helapsed : elapsed visit.statusMessages.env s.lastSendClock
        socketTimeWaitTimeout=true
      · have hpass : checkAndHandleOutgoingStatusMessages visit.statusMessages.env s=
            idle {s with state := .closed} := by
          simp only [checkAndHandleOutgoingStatusMessages,hstate,if_pos helapsed]
        rw [hpass]
        exact ⟨rfl,Or.inl Nat.zero_lt_one⟩
      · have hpass : checkAndHandleOutgoingStatusMessages visit.statusMessages.env s=idle s := by
          simp only [checkAndHandleOutgoingStatusMessages,hstate,if_neg helapsed]
        have hlate := le_of_not_elapsed helapsed
        have hdeadline : deadline s=s.lastSendClock+socketTimeWaitTimeout*clocksPerSec := by
          rw [deadline,hstate]
        rw [hpass]
        exact ⟨h,Or.inr ⟨congrArg rank hstate,rfl,by omega⟩⟩
    | _ =>
      rw [hstate] at h
      cases h

end Sockets

section Runs

variable {visits : ℕ → Fin hashMapDefaultSize → Visit} {tables : ℕ → Slots}
  {answer : Fin hashMapDefaultSize → SendResult}
  (hrounds : ∀ n,SilentRound (visits n) (tables n) (tables (n+1)))
  (hanswers : ∀ n i,(visits n i).statusMessages.env.sendResult 0=answer i)

include hrounds

/-- A round fills no slot. -/
theorem round_empty (n : ℕ) (i : Fin hashMapDefaultSize) (h : tables n i=none) :
    tables (n+1) i=none := by
  rcases (hrounds n).each i with hi|hi
  · rw [hi,h]
  · rw [hi,h,Option.bind_none]

/-- An empty slot stays empty. -/
theorem empty_stays {n m : ℕ} (hle : n ≤ m) {i : Fin hashMapDefaultSize}
    (h : tables n i=none) : tables m i=none :=
  stays_done (fun k => round_empty hrounds k i) hle h

include hanswers

/-- A socket whose state lasts stays under its key. -/
theorem lasting_stays {i : Fin hashMapDefaultSize} {s : Socket} (h : tables 0 i=some s)
    (hlasts : lasts (answer i) s.state=true) (n : ℕ) :
    ∃ s',tables n i=some s' ∧ s'.id=s.id ∧ lasts (answer i) s'.state=true := by
  induction n with
  | zero => exact ⟨s,h,rfl,hlasts⟩
  | succ n ih =>
    obtain ⟨s',hs',hid,hlasts'⟩ := ih
    rcases (hrounds n).each i with hi|hi
    · exact ⟨s',by rw [hi,hs'],hid,hlasts'⟩
    · obtain ⟨s'',hs'',hid',hlasts''⟩ := visitedInSilence_lasting (hanswers n i) hlasts'
      exact ⟨s'',by rw [hi,hs',Option.bind_some,hs''],hid'.trans hid,hlasts''⟩

/-- A slot with a socket that is to be removed holds such a one, or none. -/
theorem waiting_stays {i : Fin hashMapDefaultSize} {s : Socket} (h : tables 0 i=some s)
    (hwaits : lasts (answer i) s.state=false) (n : ℕ) :
    tables n i=none ∨ ∃ s',tables n i=some s' ∧ lasts (answer i) s'.state=false := by
  induction n with
  | zero => exact Or.inr ⟨s,h,hwaits⟩
  | succ n ih =>
    rcases ih with hnone|⟨s',hs',hwaits'⟩
    · exact Or.inl (round_empty hrounds n i hnone)
    rcases (hrounds n).each i with hi|hi
    · exact Or.inr ⟨s',by rw [hi,hs'],hwaits'⟩
    · rw [hi,hs',Option.bind_some]
      rcases visitedInSilence_waiting (hanswers n i) hwaits' with hgone|⟨s'',hs'',hwaits'',_⟩
      · exact Or.inl hgone
      · exact Or.inr ⟨s'',hs'',hwaits''⟩

/-- Once no more sockets are removed, none is to be removed. -/
theorem settled_lasting (hclocks : ∀ i,Passes fun n => visitClock (visits n i)) {first : ℕ}
    (hsettled : ∀ n ≥ first,∀ i,tables n i=none → tables first i=none)
    {i : Fin hashMapDefaultSize} {s : Socket} (h : tables first i=some s) :
    lasts (answer i) s.state=true := by
  by_contra hwaits
  rw [Bool.not_eq_true] at hwaits
  -- no round is cut short any more
  have hall : ∀ n ≥ first,∀ k,tables (n+1) k=(tables n k).bind (visitedInSilence (visits n k)) := by
    intro n hn
    rcases (hrounds n).all with hall|⟨k,hsome,hnone⟩
    · exact hall
    · have hfirst := hsettled (n+1) (by omega) k hnone
      have hearlier : tables n k=none := empty_stays hrounds hn hfirst
      rw [hearlier] at hsome
      cases hsome
  have hobeyed : (untilRemoved (answer i)).Obeyed (fun n => visitClock (visits n i))
      (fun n => tables n i) first := by
    rintro n hn ⟨s',hs',hwaits'⟩
    dsimp only at hs' ⊢
    have hnext := hall n hn i
    rw [hs',Option.bind_some] at hnext
    rcases visitedInSilence_waiting (hanswers n i) hwaits' with hgone|⟨s'',hs'',hwaits'',hmoves⟩
    · exact Or.inl (hnext.trans hgone)
    · refine Or.inr ⟨⟨s'',hnext.trans hs'',hwaits''⟩,?_⟩
      simp only [untilRemoved,hs',hnext,hs'',Option.elim_some]
      exact hmoves
  obtain ⟨m,hm,hdone⟩ := hobeyed.eventually_done (hclocks i) le_rfl ⟨s,h,hwaits⟩
  rw [hsettled m hm i hdone] at h
  cases h

/-- From some time on the sockets whose state lasts are the only ones left. -/
theorem eventually_lasting (hclocks : ∀ i,Passes fun n => visitClock (visits n i)) :
    ∃ first,∀ n ≥ first,∀ i,(tables n i).map Socket.id=
      ((tables 0 i).filter fun s => lasts (answer i) s.state).map Socket.id := by
  obtain ⟨first,hsettled⟩ := eventually_settles (round_empty hrounds)
  refine ⟨first,fun n hn i => ?_⟩
  cases hs : tables 0 i with
  | none =>
    have hnone : tables n i=none := empty_stays hrounds (Nat.zero_le n) hs
    rw [hnone]
    rfl
  | some s =>
    cases hlasts : lasts (answer i) s.state with
    | true =>
      obtain ⟨s',hs',hid,_⟩ := lasting_stays hrounds hanswers hs hlasts n
      rw [hs',Option.filter_some,if_pos hlasts,Option.map_some,Option.map_some,hid]
    | false =>
      have hfirst : tables first i=none := by
        rcases waiting_stays hrounds hanswers hs hlasts first with hnone|⟨s',hs',hwaits'⟩
        · exact hnone
        · rw [settled_lasting hrounds hanswers hclocks hsettled hs'] at hwaits'
          cases hwaits'
      have hnone : tables n i=none := empty_stays hrounds hn hfirst
      rw [hnone,Option.filter_some,if_neg (by rw [hlasts]; decide),Option.map_none]

end Runs

/-- A manager that nobody asks for anything, under clocks that pass every
bound and with the same answer to every reset of a socket: its loop goes on,
and from some round on exactly the sockets are left, each under its key, whose
state at the start lasts. -/
theorem silence_removes (libc : Libc) {rounds : ℕ → Round} (hquiet : ∀ n,Quiet (rounds n))
    {answer : Fin hashMapDefaultSize → SendResult}
    (hanswers : ∀ n i,((rounds n).visits i).statusMessages.env.sendResult 0=answer i)
    (hclocks : ∀ i,Passes fun n => visitClock ((rounds n).visits i)) {done : Served} {inbox : Fifo}
    (hu : done.manager.sockets.KeysUnique) (hempty : inbox.waiting=[]) :
    ∃ first,∀ n ≥ first,∃ later rest,
      loopAt libc rounds (.running done inbox) n=.running later rest ∧
      ∀ i,(later.manager.sockets.table i).map Socket.id=
        ((done.manager.sockets.table i).filter fun s => lasts (answer i) s.state).map
          Socket.id := by
  obtain ⟨later,rest,hstart,hloop⟩ := loopAt_quiet libc hquiet hu hempty
  have hrounds := fun n => (hloop n).2.2
  obtain ⟨first,hfirst⟩ := eventually_lasting hrounds hanswers hclocks
  refine ⟨first,fun n hn => ⟨later n,rest n,(hloop n).1,fun i => ?_⟩⟩
  rw [hfirst n hn i,hstart]

end NetworkLayer.SilentSockets
