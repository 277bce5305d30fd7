import NetworkLayer.ClosingStates
import NetworkLayer.Flows

/-!
# Closing a connection

An endpoint concludes that its FIN was acknowledged from one comparison of an
acknowledgement number with its own first sequence number. The comparison is
never misled by acknowledgements of data. What it does not ensure is that the
peer had all bytes when it accepted the FIN.
-/

namespace NetworkLayer.ClosingExchange

open ByteStrings UtilTypes FifoUtils TcpPackets PacketHandlers SocketPasses SocketSteps StepRuns
open Endpoints Flows ClosingStates

/-- The state changes by which an endpoint concludes that its FIN was
acknowledged. -/
def concludes : TCPState → TCPState → Bool
  | .finWait1,.finWait2 => true
  | .finWait1,.timeWait => true
  | .closing,.timeWait => true
  | .lastAck,.closed => true
  | _,_ => false

/-- The action is a packet, not a reset, from which the side concludes that
its FIN was acknowledged. -/
def Concludes (world : World) (action : Action) (side : Side) : Prop :=
  ∃ packet,Receives world action side packet ∧ packet.has rstFlag=false ∧
    concludes (world side).socket.state (world.step action side).socket.state=true

/-- The conclusion is drawn from an acknowledgement above the socket's first
sequence number, in a state after its close. -/
theorem concludes_ack (env : Env) (manager : NetworkManager) {s : Socket} {packet : TCPPacket}
    (srcIp : CString) (hrst : packet.has rstFlag=false)
    (h : concludes s.state (handlePacket env manager s packet srcIp).socket.state=true) :
    packet.has ackFlag=true ∧ s.seqOfFirstSendWindow < packet.ackNum ∧
      s.state≠.established ∧ s.state≠.closed := by
  have hstays : concludes s.state s.state=false := by
    cases s.state <;> rfl
  by_cases hl : s.state=.listen
  · rw [hl] at h
    cases h
  have houtcome := handlePacket_outcome env manager packet srcIp hl
  generalize handlePacket env manager s packet srcIp=handled at houtcome h
  cases houtcome with
  | ignored =>
    rw [quiet_socket,hstays] at h
    cases h
  | reset hreset =>
    rw [hrst] at hreset
    cases hreset
  | taken hstate | connected hstate | accepted hstate | finished hstate | finAnswered hstate =>
    rw [hstate] at h
    cases h
  | finAcked state clock _ hedge hack =>
    refine ⟨hack.1,hack.2,?_⟩
    rcases hedge with ⟨hs,_⟩|⟨hs,_⟩|⟨hs,_⟩
    all_goals simp [hs]
  | finTaken state clock hstate _ hedge =>
    rcases hedge with rfl|⟨_,hack⟩
    · rw [hstate] at h
      cases h
    · exact ⟨hack.1,hack.2,by simp [hstate]⟩

/-- An acknowledgement above a closed sender's number is never one of data:
its emitter had accepted a FIN. -/
theorem accepted_of_ack {base : ℤ} {snd rcv : Endpoint} (h : Flow base snd rcv)
    (hne : snd.socket.state≠.established) (hopen : snd.socket.state≠.closed) {p : TCPPacket}
    (hp : p∈rcv.emitted) (hack : snd.socket.seqOfFirstSendWindow < p.ackNum) :
    rcv.accepted≠[] := by
  intro hnil
  have h1 := h.acks hnil p hp
  have h2 := h.closedEnd hne hopen
  have h3 := h.delivered.length_le
  omega

/-- A side that concludes has had its FIN accepted. -/
theorem Concludes.accepted {base : Side → ℤ} {world : World} (h : BothDirections base world)
    {action : Action} {side : Side} (hc : Concludes world action side) :
    (world side.other).accepted≠[] := by
  obtain ⟨packet,hreceives,hrst,hstate⟩ := hc
  obtain ⟨env,manager,hstep,q,hq,rfl⟩ := hreceives.step
  rw [hstep,Function.update_self] at hstate
  simp only [Endpoint.receive,afterReply_state] at hstate
  obtain ⟨_,hack,hne,hopen⟩ := concludes_ack env manager _ hrst hstate
  exact accepted_of_ack (h side) hne hopen ((h side.other).sent q hq) hack

/-- In every run from an aligned start, a side that concludes that its FIN
was acknowledged has a peer that accepted a FIN this side sent. -/
theorem no_false_fin_ack {world : World} (h : Aligned world) (actions : List Action) :
    EachStep World.step (fun world action => ∀ side,Concludes world action side →
      ∃ a∈(world side.other).accepted,a.2.has finFlag=true ∧
        ∃ q∈(world side).sent,a.2=asReceived q) world actions := by
  refine eachStep_of_invariant (fun _ action hf => hf.step action) ?_
    (bothDirections_of_aligned h) actions
  intro world action hf side hc
  obtain ⟨a,ha⟩ := List.exists_mem_of_ne_nil _ (hc.accepted hf)
  exact ⟨a,ha,(hf side).acceptedFins a ha⟩

/-- A byte is delivered and acknowledged before its user closes, the peer
closes after it, and the acknowledgement of the byte comes once more. -/
def deliveredClose : List Action :=
  let env := smoothEnv 5000000 (some [120])
  let later := smoothEnv 10000000 none
  [.statusMessages .left env,.sendWindow .left env,arrives .right 0 env,arrives .left 0 env,
    .close .left later,.statusMessages .left later,arrives .left 0 later,arrives .right 1 later,
    .statusMessages .right later,.statusMessages .right later,arrives .left 1 later]

theorem no_false_fin_ack_delivered :
    EachStep World.step (fun world action => ∀ side,Concludes world action side →
      ∃ a∈(world side.other).accepted,a.2.has finFlag=true ∧
        ∃ q∈(world side).sent,a.2=asReceived q) startWorld deliveredClose :=
  no_false_fin_ack startWorld_aligned deliveredClose

/-- A side that concludes has had all its user's bytes written to the peer's
user. -/
def Reliable (world : World) (action : Action) : Prop :=
  ∀ side,Concludes world action side → (world side.other).delivered=(world side).enqueued

/-- A FIN is accepted only when the acceptor's next expected number has come
past all bytes its peer enqueued, counted from the peer's first number. -/
def NothingMissing (base : Side → ℤ) (world : World) (action : Action) : Prop :=
  ∀ side packet,Receives world action side packet →
    acceptsFin (world side).socket packet=true →
    base side.other+(world side.other).enqueued.length ≤ (world side).socket.seqOfFirstRecvWindow

/-- Once a FIN was accepted, the stream it closes is complete. -/
def Complete (snd rcv : Endpoint) : Prop :=
  rcv.accepted≠[] → rcv.delivered=snd.enqueued

/-- A step of the sender keeps a closed stream complete. -/
theorem Complete.sender {base : ℤ} {snd rcv snd' : Endpoint} {input : Option TCPPacket}
    (h : Complete snd rcv) (hf : Flow base snd rcv) (hm : Moves snd snd' input) :
    Complete snd' rcv := by
  intro hacc
  obtain ⟨moved,written,out,sent,hstep,_,henq,_,_,_,_⟩ := hm
  have hmoved : moved=[] := by
    by_contra hne
    exact hacc (hf.accepted_nil (hstep.stays (hstep.moved_established hne)))
  rw [henq,hmoved,List.append_nil]
  exact h hacc

/-- A step of the receiver completes the stream or keeps it complete, when a
FIN is accepted with no byte missing. -/
theorem Complete.receiver {base : ℤ} {snd rcv rcv' : Endpoint} {input : Option TCPPacket}
    (h : Complete snd rcv) (hf : Flow base snd rcv) (hf' : Flow base snd rcv')
    (hm : Moves rcv rcv' input)
    (hmissing : input.any (acceptsFin rcv.socket)=true →
      base+snd.enqueued.length ≤ rcv.socket.seqOfFirstRecvWindow) : Complete snd rcv' := by
  intro hacc
  obtain ⟨moved,written,out,sent,hstep,_,_,hdel,_,_,hacc'⟩ := hm
  by_cases hold : rcv.accepted=[]
  · have haccepts : input.any (acceptsFin rcv.socket)=true := by
      by_contra hno
      rw [hacc',hold,if_neg hno] at hacc
      exact hacc rfl
    have hlen : snd.enqueued.length ≤ rcv'.delivered.length := by
      have h1 := hmissing haccepts
      have h2 := hf.expected hold
      have h3 : rcv.delivered.length ≤ rcv'.delivered.length := by simp [hdel]
      omega
    exact hf'.delivered.eq_of_length (le_antisymm hf'.delivered.length_le hlen)
  · have hwritten : written=[] := by
      by_contra hne
      exact hold (hf.unaccepted (hstep.written_established hne))
    rw [hdel,hwritten,List.append_nil]
    exact h hold

/-- Both directions hold, and every closed stream is complete. -/
def BothComplete (base : Side → ℤ) (world : World) : Prop :=
  BothDirections base world ∧ ∀ side,Complete (world side) (world side.other)

/-- A step that misses nothing keeps closed streams complete. -/
theorem BothComplete.step {base : Side → ℤ} {world : World} (h : BothComplete base world)
    (action : Action) (hmissing : NothingMissing base world action) :
    BothComplete base (world.step action) := by
  obtain ⟨hf,hcomplete⟩ := h
  have hf' := hf.step action
  refine ⟨hf',?_⟩
  rcases step_cases (fun side => (hf side).connected) action with hsame|⟨side,after,input,hw,hm,hin⟩
  · rwa [hsame]
  intro other
  by_cases ho : other=side
  · subst ho
    rw [hw,Function.update_self,Function.update_of_ne (Side.other_ne other)]
    exact (hcomplete other).sender (hf other) hm
  · obtain rfl : other.other=side := by
      cases other <;> cases side <;> simp_all [Side.other]
    have hflow := hf' other
    rw [hw,Function.update_of_ne ho,Function.update_self] at hflow ⊢
    refine (hcomplete other).receiver (hf other) hflow hm ?_
    intro haccepts
    obtain ⟨p,hp,hacc⟩ := (Option.any_eq_true _ _).mp haccepts
    have := hmissing other.other p (hin p hp).1 hacc
    rwa [Side.other_other] at this

/-- In every run from an aligned start in which no FIN is accepted while
bytes before it are missing, a side that concludes that its FIN was
acknowledged has had all its bytes delivered. -/
theorem reliable_of_nothingMissing {world : World} (h : Aligned world) {actions : List Action}
    (hmissing : EachStep World.step
      (NothingMissing fun side => (world side).socket.seqOfFirstSendWindow) world actions) :
    EachStep World.step Reliable world actions := by
  refine eachStep_of_guarded
    (P:=BothComplete fun side => (world side).socket.seqOfFirstSendWindow)
    (fun _ action hb hc => hb.step action hc) ?_
    ⟨bothDirections_of_aligned h,fun side hacc => absurd (h.history side.other).2.2.2.2 hacc⟩
    hmissing
  intro world action hb _ side hc
  exact hb.2 side (hc.accepted hb.1)

/-- Every end stops with nothing left to send: a close command finds it
established, and the send window is empty then, as it is when an established
end accepts a FIN. -/
structure Drained (world : World) (action : Action) : Prop where
  /-- The close commands. -/
  close : ∀ side env,action=.close side env →
    (world side).socket.state=.established ∧ (world side).socket.sendWindow.toList=[]
  /-- The FINs. -/
  fin : ∀ side packet,Receives world action side packet → (world side).socket.state=.established →
    acceptsFin (world side).socket packet=true → (world side).socket.sendWindow.toList=[]

/-- The states in which a FIN can be accepted. -/
def takesFin : TCPState → Bool
  | .established | .finWait1 | .finWait2 => true
  | _ => false

/-- Every FIN of the later end was emitted by the earlier one. -/
def NoNewFin (before after : Endpoint) : Prop :=
  ∀ p∈after.emitted,p.has finFlag=true → p∈before.emitted

theorem noNewFin_append {before after : Endpoint} {out : List TCPPacket}
    (hem : after.emitted=before.emitted++out) (hout : ∀ p∈out,p.has finFlag=false) :
    NoNewFin before after := by
  intro p hp hfin
  rw [hem,List.mem_append] at hp
  refine hp.resolve_right fun hnew => ?_
  rw [hout p hnew] at hfin
  cases hfin

/-- What a step does to the end that it moves, or to one it leaves alone, where
the ends stop with nothing left to send. -/
structure Stops (before after : Endpoint) : Prop where
  /-- An established end is left with an empty window or by a reset. -/
  established : before.socket.state=.established → after.socket.state=.established ∨
    before.socket.sendWindow.toList=[] ∨ after.socket.state=.closed ∧ NoNewFin before after
  /-- A closed end stays closed and sends no FIN. -/
  closed : before.socket.state=.closed → after.socket.state=.closed ∧ NoNewFin before after
  /-- An end that has accepted a FIN accepts no other. -/
  takes : takesFin after.socket.state=true →
    takesFin before.socket.state=true ∧ after.accepted=before.accepted

theorem Stops.refl (endpoint : Endpoint) : Stops endpoint endpoint :=
  ⟨Or.inl,fun h => ⟨h,fun _ hp _ => hp⟩,fun h => ⟨h,rfl⟩⟩

/-- No reply is a FIN. -/
theorem reply_noFin {env : Env} {manager : NetworkManager} {s : Socket} {packet r : TCPPacket}
    {srcIp : CString} (hr : r∈(handlePacket env manager s packet srcIp).reply.toList) :
    r.has finFlag=false := by
  have hrst : (rstFlag &&& finFlag != 0)=false := by decide
  have hack : (ackFlag &&& finFlag != 0)=false := by decide
  rcases handlePacket_reply_cases (Option.mem_toList.mp hr) with ⟨_,_,rfl⟩|⟨_,rfl,_⟩
  · exact hrst
  · exact hack

/-- Receiving a packet stops an end so. -/
theorem stops_receive (env : Env) (manager : NetworkManager) (packet : TCPPacket)
    {endpoint : Endpoint} (hc : Connected endpoint.socket.state)
    (hfin : endpoint.socket.state=.established → acceptsFin endpoint.socket packet=true →
      endpoint.socket.sendWindow.toList=[]) :
    Stops endpoint (endpoint.receive env manager packet) := by
  have hnew : NoNewFin endpoint (endpoint.receive env manager packet) :=
    noNewFin_append rfl fun r hr => reply_noFin hr
  have hchange := handlePacket_change env manager endpoint.socket packet endpoint.socket.id.srcIp
  have houtcome := handlePacket_outcome env manager packet endpoint.socket.id.srcIp hc.1
  have hstate : (endpoint.receive env manager packet).socket.state=
      (handlePacket env manager endpoint.socket packet endpoint.socket.id.srcIp).socket.state :=
    afterReply_state env _
  have haccepted : acceptsFin endpoint.socket packet=false →
      (endpoint.receive env manager packet).accepted=endpoint.accepted := by
    intro hno
    simp only [Endpoint.receive,hno,Bool.false_eq_true,if_false,List.append_nil]
  refine ⟨fun he => ?_,fun hclosed => ?_,fun htakes => ?_⟩
  · rw [hstate]
    rcases hchange with h|⟨_,h⟩|⟨hedge,haccepts⟩|⟨_,_,h,_⟩
    · exact Or.inl (h.trans he)
    · exact Or.inr (Or.inr ⟨h,hnew⟩)
    · have hwait : (handlePacket env manager endpoint.socket packet
          endpoint.socket.id.srcIp).socket.state=.closeWait := by
        revert hedge
        rw [he]
        generalize (handlePacket _ _ _ _ _).socket.state=state
        cases state <;> simp [packetEdge]
      exact Or.inr (Or.inl (hfin he (haccepts hwait)))
    · rw [he] at h
      cases h
  · rw [hstate]
    rcases hchange with h|⟨_,h⟩|⟨hedge,_⟩|⟨_,_,h,_⟩
    · exact ⟨h.trans hclosed,hnew⟩
    · exact ⟨h,hnew⟩
    · rw [hclosed] at hedge
      cases hedge
    · rw [hclosed] at h
      cases h
  · rw [hstate] at htakes
    generalize handlePacket env manager endpoint.socket packet endpoint.socket.id.srcIp=handled
      at houtcome htakes
    cases houtcome with
    | ignored hno => exact ⟨htakes,haccepted hno⟩
    | connected hs => exact absurd hs hc.2.1
    | accepted hs => exact absurd hs hc.2.2
    | taken hs _ _ hnofin => exact ⟨by rw [hs]; rfl,haccepted (acceptsFin_of_noFin hnofin)⟩
    | finAcked state clock hno hedge =>
      rcases hedge with ⟨hs,rfl⟩|⟨_,rfl⟩|⟨_,rfl⟩
      · exact ⟨by rw [hs]; rfl,haccepted hno⟩
      · cases htakes
      · cases htakes
    | finTaken state clock _ _ hedge =>
      rcases hedge with rfl|⟨rfl,_⟩ <;> cases htakes
    | reset | finished | finAnswered => cases htakes

/-- So does a pass of the timer. -/
theorem stops_statusMessages (env : Env) (endpoint : Endpoint) :
    Stops endpoint
      (endpoint.pass (checkAndHandleOutgoingStatusMessages env endpoint.socket)) := by
  have houtcome := checkAndHandleOutgoingStatusMessages_outcome env endpoint.socket
  generalize checkAndHandleOutgoingStatusMessages env endpoint.socket=passed at houtcome
  cases houtcome with
  | sends clock attempts hpackets =>
    refine ⟨Or.inl,fun hclosed => ⟨hclosed,noNewFin_append rfl fun p hp => ?_⟩,
      fun h => ⟨h,rfl⟩⟩
    have hpacket := hpackets p hp
    cases hpacket with
    | reset =>
      have hrst : (rstFlag &&& finFlag != 0)=false := by decide
      exact hrst
    | syn h | synAck h | fin h | finAck h =>
      rw [hclosed] at h
      cases h
  | timedOut hstate _ attempts hpackets =>
    refine ⟨fun he => ?_,fun hclosed => ?_,nofun⟩
    · simp [he] at hstate
    · simp [hclosed] at hstate
  | moves hstate q moved left hlist =>
    refine ⟨Or.inl,fun hclosed => ?_,fun h => ⟨h,rfl⟩⟩
    rw [hclosed] at hstate
    cases hstate
  | finishes hstate | expires hstate =>
    refine ⟨fun he => ?_,fun hclosed => ?_,nofun⟩
    · rw [he] at hstate
      cases hstate
    · rw [hclosed] at hstate
      cases hstate

/-- And a pass of the send window. -/
theorem stops_sendWindow (env : Env) (endpoint : Endpoint) :
    Stops endpoint (endpoint.pass (checkAndHandleSendWindow env endpoint.socket)) := by
  have hstate : (endpoint.pass (checkAndHandleSendWindow env endpoint.socket)).socket.state=
      endpoint.socket.state := sendWindow_state env endpoint.socket
  refine ⟨fun he => Or.inl (hstate.trans he),fun hclosed => ⟨hstate.trans hclosed,?_⟩,
    fun h => ⟨by rwa [hstate] at h,rfl⟩⟩
  rcases checkAndHandleSendWindow_cases env endpoint.socket with hidle|⟨he,_⟩
  · have hem : (endpoint.pass (checkAndHandleSendWindow env endpoint.socket)).emitted=
        endpoint.emitted++[] := by simp [Endpoint.pass,hidle,idle]
    exact noNewFin_append hem fun p hp => absurd hp List.not_mem_nil
  · rw [hclosed] at he
    cases he

/-- Every step of a world whose ends stop with nothing left to send. -/
theorem Drained.stops {world : World} {action : Action} (h : Drained world action)
    (hc : ∀ side,Connected (world side).socket.state) (side : Side) :
    Stops (world side) (world.step action side) := by
  have hupdate : ∀ actor after,Stops (world actor) after →
      Stops (world side) (Function.update world actor after side) := by
    intro actor after hafter
    by_cases ha : side=actor
    · subst ha
      rwa [Function.update_self]
    · rw [Function.update_of_ne ha]
      exact Stops.refl _
  cases action with
  | receive actor index env manager =>
    simp only [World.step]
    cases hpacket : (world actor.other).sent[index]? with
    | none => exact Stops.refl _
    | some packet =>
      refine hupdate actor _ (stops_receive env manager _ (hc actor) (h.fin actor _ ?_))
      exact ⟨index,env,manager,rfl,by simp only [World.input,hpacket,Option.map_some]⟩
  | sendWindow actor env => exact hupdate actor _ (stops_sendWindow env _)
  | statusMessages actor env => exact hupdate actor _ (stops_statusMessages env _)
  | close actor env =>
    obtain ⟨he,hempty⟩ := h.close actor env rfl
    refine hupdate actor _ ⟨fun _ => Or.inr (Or.inl hempty),fun hclosed => ?_,
      fun _ => ⟨by rw [he]; rfl,rfl⟩⟩
    rw [he] at hclosed
    cases hclosed

/-- An end that is no longer established was reset before it could send a FIN,
or has had all its bytes delivered, and an end that can accept a FIN has
accepted none. -/
structure Settled (snd rcv : Endpoint) : Prop where
  /-- The sender's stream. -/
  stream : snd.socket.state=.established ∨
    (snd.socket.state=.closed ∧ ∀ p∈snd.emitted,p.has finFlag=false) ∨
    rcv.delivered=snd.enqueued
  /-- The sender's own part as a receiver. -/
  unaccepted : takesFin snd.socket.state=true → snd.accepted=[]

/-- A step of the sender keeps that. -/
theorem Settled.sender {base : ℤ} {snd rcv snd' : Endpoint} {input : Option TCPPacket}
    (h : Settled snd rcv) (hf : Flow base snd rcv) (hm : Moves snd snd' input)
    (hs : Stops snd snd') : Settled snd' rcv := by
  refine ⟨?_,fun htakes => ?_⟩
  · by_cases he' : snd'.socket.state=.established
    · exact Or.inl he'
    have hnofin : (∀ p∈snd.emitted,p.has finFlag=false) → NoNewFin snd snd' →
        ∀ p∈snd'.emitted,p.has finFlag=false := by
      intro hno hnew p hp
      by_contra hfin
      rw [Bool.not_eq_false] at hfin
      rw [hno p (hnew p hp hfin)] at hfin
      cases hfin
    rcases h.stream with he|⟨hclosed,hno⟩|hdelivered
    · rcases hs.established he with hstays|hempty|⟨hclosed,hnew⟩
      · exact absurd hstays he'
      · obtain ⟨moved,_,_,_,hstep,_,henq,_⟩ := hm
        obtain ⟨k,hk,hwindow,_⟩ := hf.acked
        have hmoved : moved=[] := by
          by_contra hne
          exact he' (hstep.moved_established hne)
        rw [hempty,eq_comm,List.drop_eq_nil_iff] at hwindow
        refine Or.inr (Or.inr ?_)
        rw [henq,hmoved,List.append_nil]
        exact hf.delivered.eq_of_length (le_antisymm hf.delivered.length_le (hwindow.trans hk))
      · refine Or.inr (Or.inl ⟨hclosed,hnofin (fun p hp => ?_) hnew⟩)
        by_contra hfin
        rw [Bool.not_eq_false] at hfin
        exact hf.fins p hp hfin he
    · obtain ⟨hclosed',hnew⟩ := hs.closed hclosed
      exact Or.inr (Or.inl ⟨hclosed',hnofin hno hnew⟩)
    · obtain ⟨moved,_,_,_,hstep,_,henq,_⟩ := hm
      have hmoved : moved=[] := by
        by_contra hne
        exact he' (hstep.moved_established hne)
      refine Or.inr (Or.inr ?_)
      rw [henq,hmoved,List.append_nil,hdelivered]
  · obtain ⟨hbefore,hsame⟩ := hs.takes htakes
    rw [hsame,h.unaccepted hbefore]

/-- And so does one of the receiver. -/
theorem Settled.receiver {base : ℤ} {snd rcv rcv' : Endpoint} {input : Option TCPPacket}
    (h : Settled snd rcv) (hf' : Flow base snd rcv') (hm : Moves rcv rcv' input) :
    Settled snd rcv' := by
  refine ⟨h.stream.imp_right fun hrest => hrest.imp_right fun hdelivered => ?_,h.unaccepted⟩
  obtain ⟨_,written,_,_,_,_,_,hdel,_⟩ := hm
  refine hf'.delivered.eq_of_length (le_antisymm hf'.delivered.length_le ?_)
  rw [←hdelivered,hdel,List.length_append]
  omega

/-- Both directions hold and are settled. -/
def BothSettled (base : Side → ℤ) (world : World) : Prop :=
  BothDirections base world ∧ ∀ side,Settled (world side) (world side.other)

theorem BothSettled.step {base : Side → ℤ} {world : World} (h : BothSettled base world)
    {action : Action} (hdrained : Drained world action) :
    BothSettled base (world.step action) := by
  obtain ⟨hf,hsettled⟩ := h
  have hf' := hf.step action
  refine ⟨hf',?_⟩
  have hstops := hdrained.stops fun side => (hf side).connected
  rcases step_cases (fun side => (hf side).connected) action with hsame|⟨side,after,input,hw,hm,_⟩
  · rwa [hsame]
  intro other
  by_cases ho : other=side
  · subst ho
    have hstop := hstops other
    rw [hw,Function.update_self] at hstop ⊢
    rw [Function.update_of_ne (Side.other_ne other)]
    exact (hsettled other).sender (hf other) hm hstop
  · obtain rfl : other.other=side := by
      cases other <;> cases side <;> simp_all [Side.other]
    have hflow := hf' other
    rw [hw,Function.update_of_ne ho,Function.update_self] at hflow ⊢
    exact (hsettled other).receiver hflow hm

/-- A FIN that arrives then misses nothing. -/
theorem BothSettled.nothingMissing {base : Side → ℤ} {world : World} (h : BothSettled base world)
    (action : Action) : NothingMissing base world action := by
  intro side packet hreceives haccepts
  obtain ⟨hf,hsettled⟩ := h
  obtain ⟨_,_,_,q,hq,rfl⟩ := hreceives.step
  obtain ⟨hfin,_,_,hstate⟩ := acceptsFin_cases haccepts
  rw [asReceived_has] at hfin
  have hemitted := (hf side.other).sent q hq
  have htakes : takesFin (world side).socket.state=true := by
    rcases hstate with hs|hs|hs <;> rw [hs] <;> rfl
  have hexpected := (hf side.other).expected
  have hstream := (hsettled side.other).stream
  rw [Side.other_other] at hexpected hstream
  rcases hstream with he|⟨_,hno⟩|hdelivered
  · exact absurd he ((hf side.other).fins q hemitted hfin)
  · rw [hno q hemitted] at hfin
    cases hfin
  · rw [hexpected ((hsettled side).unaccepted htakes),hdelivered]

/-- Where every end stops with nothing left to send, no FIN is accepted while
bytes before it are missing. -/
theorem nothingMissing_of_drained {world : World} (h : Aligned world) {actions : List Action}
    (hdrained : EachStep World.step Drained world actions) :
    EachStep World.step (NothingMissing fun side => (world side).socket.seqOfFirstSendWindow)
      world actions := by
  refine eachStep_of_guarded
    (P:=BothSettled fun side => (world side).socket.seqOfFirstSendWindow)
    (fun _ _ hb hc => hb.step hc) (fun _ action hb _ => hb.nothingMissing action)
    ⟨bothDirections_of_aligned h,fun side => ⟨Or.inl (h.established side),fun _ => ?_⟩⟩ hdrained
  exact (h.history side).2.2.2.2

/-- That run misses nothing. -/
theorem reliable_of_nothingMissing_delivered :
    EachStep World.step Reliable startWorld deliveredClose := by
  have hpass : ∀ world side env,Drained world (.statusMessages side env) ∧
      Drained world (.sendWindow side env) := fun _ _ _ =>
    ⟨⟨nofun,by rintro _ _ ⟨_,_,_,⟨⟩,_⟩⟩,⟨nofun,by rintro _ _ ⟨_,_,_,⟨⟩,_⟩⟩⟩
  have harrives : ∀ (world : World) side index env,
      (((world side.other).sent[index]?).all fun q =>
        !acceptsFin (world side).socket (asReceived q) ||
          (world side).socket.sendWindow.size==0)=true →
      Drained world (arrives side index env) := by
    intro world side index env hall
    refine ⟨nofun,?_⟩
    rintro _ packet ⟨_,_,_,⟨⟩,hin⟩ _ haccepts
    obtain ⟨q,hq,rfl⟩ := Option.map_eq_some_iff.mp hin
    rw [hq,Option.all_some,haccepts,Bool.not_true,Bool.false_or,beq_iff_eq] at hall
    rw [List.eq_nil_iff_length_eq_zero,ArrayQueue.length_toList,hall]
  refine reliable_of_nothingMissing startWorld_aligned
    (nothingMissing_of_drained startWorld_aligned
      ⟨(hpass _ _ _).1,(hpass _ _ _).2,harrives _ _ _ _ ?_,harrives _ _ _ _ ?_,⟨?_,?_⟩,
        (hpass _ _ _).1,harrives _ _ _ _ ?_,harrives _ _ _ _ ?_,(hpass _ _ _).1,
        (hpass _ _ _).1,harrives _ _ _ _ ?_,trivial⟩)
  · decide +kernel
  · decide +kernel
  · rintro _ _ ⟨⟩
    exact ⟨by decide +kernel,by decide +kernel⟩
  · rintro _ _ ⟨_,_,_,⟨⟩,_⟩
  · decide +kernel
  · decide +kernel
  · decide +kernel

/-- In that run the left side concludes last, with its byte delivered. -/
example :
    ((run World.step startWorld (deliveredClose.take 10)) .left).socket.state=.finWait1 ∧
      ((run World.step startWorld deliveredClose) .left).socket.state=.timeWait ∧
      ((run World.step startWorld deliveredClose) .right).delivered=[120] := by
  decide +kernel

/-- A user hands over one byte and closes; the FIN arrives, the byte never
was sent. -/
def hastyClose : List Action :=
  let env := smoothEnv 5000000 (some [120])
  [.statusMessages .left env,.close .left env,.statusMessages .left env,arrives .right 0 env,
    .statusMessages .right env,.statusMessages .right env,arrives .left 0 env]

/-- In that run no reset is emitted, the FIN is taken for acknowledged, and
the byte is lost. -/
theorem hastyClose_unreliable : Aligned startWorld ∧
    (∀ side,∀ p∈((run World.step startWorld hastyClose) side).emitted,p.has rstFlag=false) ∧
    ¬EachStep World.step Reliable startWorld hastyClose := by
  refine ⟨startWorld_aligned,by rintro (_ | _) <;> decide,fun h => ?_⟩
  have hlast := h.2.2.2.2.2.2.1 .left ⟨_,⟨0,_,_,rfl,rfl⟩,by decide,by decide⟩
  exact absurd hlast (by decide)

end NetworkLayer.ClosingExchange
