import NetworkLayer.ClosingStates
import NetworkLayer.Flows

/-!
# Acknowledging an accepted FIN

A FIN accepted in FIN_WAIT_2 is acknowledged by the reply to it. In
FIN_WAIT_1 there is no reply, and no later state sends one, so the peer may
stay in LAST_ACK. As long as no FIN arrives in FIN_WAIT_1, no side is left
there without an acknowledgement having been sent.
-/

namespace NetworkLayer.FinAcknowledgement

open ByteStrings UtilTypes FifoUtils TcpPackets PacketHandlers SocketPasses SocketSteps StepRuns
open Endpoints Flows ClosingStates

/-- The action is the receipt of a FIN that the side accepts. -/
def AcceptsFin (world : World) (action : Action) (side : Side) (fin : TCPPacket) : Prop :=
  Receives world action side fin ∧ acceptsFin (world side).socket fin=true

/-- The packet is an ACK of the FIN. -/
def acknowledges (packet fin : TCPPacket) : Bool :=
  packet.has ackFlag && decide (packet.ackNum=fin.seqNum+1)

/-- A FIN accepted in FIN_WAIT_1 or FIN_WAIT_2 is acknowledged by a packet
that the side emits in the same step. -/
def Answered (world : World) (action : Action) : Prop :=
  ∀ side fin,AcceptsFin world action side fin →
    (world side).socket.state=.finWait1 ∨ (world side).socket.state=.finWait2 →
    ∃ q∈((world.step action) side).emitted.drop (world side).emitted.length,
      acknowledges q fin=true

/-- No side is in LAST_ACK while the other, after the exchange of FINs, is
done and never sent an ACK of its FIN. -/
def NotStranded (world : World) : Prop :=
  ∀ side,(world side).socket.state=.lastAck →
    (world side.other).socket.state=.timeWait ∨ (world side.other).socket.state=.closed →
    ∀ a∈(world side.other).accepted,∃ q∈(world side.other).emitted,acknowledges q a.2=true

/-- No FIN is accepted in FIN_WAIT_1. -/
def NotInFinWait1 (world : World) (action : Action) : Prop :=
  ∀ side fin,AcceptsFin world action side fin → (world side).socket.state≠.finWait1

/-- The reply to a FIN in FIN_WAIT_2 acknowledges it. -/
theorem reply_finWait2 (env : Env) (manager : NetworkManager) {s : Socket} {fin : TCPPacket}
    (srcIp : CString) (h : acceptsFin s fin=true) (hstate : s.state=.finWait2) :
    ∃ q∈(handlePacket env manager s fin srcIp).reply.toList,acknowledges q fin=true := by
  obtain ⟨hfin,hrst,hport,_⟩ := acceptsFin_cases h
  unfold handlePacket
  rw [if_neg (by simp [hrst]),if_neg (by simp [hport])]
  simp only [hstate,handlePacketFinWait2,if_pos hfin]
  refine ⟨_,by simp; rfl,?_⟩
  rw [acknowledges,constructPacket_has,Bool.and_eq_true,decide_eq_true_eq]
  exact ⟨by decide,rfl⟩

/-- A step answers its FIN exactly when it accepts none in FIN_WAIT_1. -/
theorem answered_iff (world : World) (action : Action) :
    Answered world action ↔ NotInFinWait1 world action := by
  constructor
  · intro h side fin haccepts hstate
    obtain ⟨q,hq,_⟩ := h side fin haccepts (Or.inl hstate)
    obtain ⟨env,manager,hstep,_⟩ := haccepts.1.step
    have hsilent : (world side).socket.state≠.listen ∧
        (world side).socket.state≠.established ∧ (world side).socket.state≠.finWait2 := by
      simp [hstate]
    rw [hstep,Function.update_self] at hq
    simp only [Endpoint.receive,handlePacket_silent env manager fin _ hsilent,
      Option.toList_none,List.append_nil,List.drop_length,List.not_mem_nil] at hq
  · intro h side fin haccepts hstate
    obtain ⟨env,manager,hstep,_⟩ := haccepts.1.step
    rw [hstep,Function.update_self]
    simp only [Endpoint.receive,List.drop_left]
    exact reply_finWait2 env manager _ haccepts.2
      (hstate.resolve_left (h side fin haccepts))

/-- The states in which the peer's FIN waits for the own one. -/
def answering (state : TCPState) : Bool := state=.closeWait || state=.lastAck

/-- These states are entered by accepting a FIN while established. -/
theorem answering_step (s : Socket) (event : Event)
    (h : answering (socketStep s event).state=true) :
    answering s.state=true ∨ ∃ env manager packet srcIp,
      event=.packet env manager packet srcIp ∧ s.state=.established ∧
      acceptsFin s packet=true := by
  cases event with
  | packet env manager packet srcIp =>
    have hafter : (socketStep s (.packet env manager packet srcIp)).state=
        (handlePacket env manager s packet srcIp).socket.state := afterReply_state env _
    have hchange := handlePacket_change env manager s packet srcIp
    rw [hafter] at h
    simp only at hchange
    generalize (handlePacket env manager s packet srcIp).socket.state=after at h hchange
    rcases hchange with he|⟨_,he⟩|⟨hedge,hacc⟩|⟨_,_,_,he⟩
    · exact Or.inl (he ▸ h)
    · simp [he,answering] at h
    · refine Or.inr ⟨env,manager,packet,srcIp,rfl,?_⟩
      have hentered : s.state=.established ∧ after=.closeWait := by
        revert h hedge
        generalize s.state=before
        cases before <;> cases after <;> simp [answering,packetEdge]
      exact ⟨hentered.1,hacc hentered.2⟩
    · simp [he,answering] at h
  | sendWindow env =>
    left
    rwa [show (socketStep s (.sendWindow env)).state=s.state from sendWindow_state env s] at h
  | statusMessages env =>
    left
    rcases statusMessages_change env s with he|⟨hb,_⟩|⟨_,he,_⟩|⟨_,he,_⟩
    · exact he ▸ h
    · simp [hb,answering]
    · simp only [socketStep,he] at h
      simp [answering] at h
    · simp only [socketStep,he] at h
      simp [answering] at h
  | close env => simp [socketStep,closeCommand,answering] at h

/-- A side that waits with the peer's FIN accepted it while established, and
FINs accepted later on were acknowledged. -/
structure Answers (endpoint : Endpoint) : Prop where
  /-- The waiting states follow an acceptance while established. -/
  entered : answering endpoint.socket.state=true →
    ∃ a∈endpoint.accepted,a.1=.established
  /-- Every other acceptance was acknowledged. -/
  acknowledged : ∀ a∈endpoint.accepted,a.1≠.established →
    ∃ q∈endpoint.emitted,acknowledges q a.2=true

/-- A packet keeps this, unless a FIN is accepted in FIN_WAIT_1. -/
theorem Answers.receive {endpoint : Endpoint} (h : Answers endpoint) (env : Env)
    (manager : NetworkManager) (packet : TCPPacket)
    (hstate : acceptsFin endpoint.socket packet=true → endpoint.socket.state≠.finWait1) :
    Answers (endpoint.receive env manager packet) where
  entered := by
    intro ha
    rcases answering_step endpoint.socket
      (.packet env manager packet endpoint.socket.id.srcIp) ha with hb|⟨_,_,_,_,he,hb,hacc⟩
    · obtain ⟨a,hmem,hest⟩ := h.entered hb
      exact ⟨a,List.mem_append_left _ hmem,hest⟩
    · cases he
      refine ⟨(endpoint.socket.state,packet),List.mem_append_right _ ?_,hb⟩
      rw [if_pos hacc]
      exact List.mem_singleton_self _
  acknowledged := by
    intro a ha hne
    simp only [Endpoint.receive,List.mem_append] at ha ⊢
    rcases ha with ha|ha
    · obtain ⟨q,hq,hack⟩ := h.acknowledged a ha hne
      exact ⟨q,Or.inl hq,hack⟩
    · split at ha
      · next hacc =>
        rw [List.mem_singleton] at ha
        subst ha
        obtain ⟨_,_,_,hcases⟩ := acceptsFin_cases hacc
        have hfin2 := (hcases.resolve_left hne).resolve_left (hstate hacc)
        obtain ⟨q,hq,hack⟩ := reply_finWait2 env manager endpoint.socket.id.srcIp hacc hfin2
        exact ⟨q,Or.inr hq,hack⟩
      · simp at ha

/-- A pass keeps this. -/
theorem Answers.pass {endpoint : Endpoint} (h : Answers endpoint) {passed : Passed}
    (hstate : answering passed.socket.state=true → answering endpoint.socket.state=true) :
    Answers (endpoint.pass passed) where
  entered := fun ha => h.entered (hstate ha)
  acknowledged := by
    intro a ha hne
    obtain ⟨q,hq,hack⟩ := h.acknowledged a ha hne
    exact ⟨q,List.mem_append_left _ hq,hack⟩

/-- No side accepted a FIN while established after the other did. -/
def NotBoth (world : World) : Prop :=
  ∀ side,(∃ a∈(world side).accepted,a.1=.established) →
    ∀ a∈(world side.other).accepted,a.1≠.established

/-- Acceptances in one step: none, or one in the state the side is in. -/
theorem step_accepted (world : World) (action : Action) (side : Side) :
    ((world.step action) side).accepted=(world side).accepted ∨
      ∃ fin,AcceptsFin world action side fin ∧ ((world.step action) side).accepted=
        (world side).accepted++[((world side).socket.state,fin)] := by
  have hupdate : ∀ other (after : Endpoint),after.accepted=(world other).accepted →
      (Function.update world other after side).accepted=(world side).accepted := by
    intro other after ha
    by_cases ho : side=other
    · subst ho
      rw [Function.update_self,ha]
    · rw [Function.update_of_ne ho]
  cases action with
  | sendWindow other env => exact Or.inl (hupdate other _ rfl)
  | statusMessages other env => exact Or.inl (hupdate other _ rfl)
  | close other env => exact Or.inl (hupdate other _ rfl)
  | receive other index env manager =>
    cases hq : (world other.other).sent[index]? with
    | none =>
      left
      simp only [World.step,hq]
    | some q =>
      simp only [World.step,hq]
      by_cases ho : side=other
      · subst ho
        rw [Function.update_self]
        by_cases hacc : acceptsFin (world side).socket (asReceived q)=true
        · refine Or.inr ⟨asReceived q,⟨⟨index,env,manager,rfl,?_⟩,hacc⟩,?_⟩
          · simp only [World.input,hq,Option.map_some]
          · simp only [Endpoint.receive,if_pos hacc]
        · left
          simp only [Endpoint.receive,hacc,Bool.false_eq_true,if_false,List.append_nil]
      · left
        rw [Function.update_of_ne ho]

/-- Two sides do not both accept while established: a FIN is sent by a side
that no longer is. -/
theorem NotBoth.step {base : Side → ℤ} {world : World} (h : NotBoth world)
    (hf : BothDirections base world) (action : Action) : NotBoth (world.step action) := by
  have hnew : ∀ side fin,AcceptsFin world action side fin →
      (world side).socket.state=.established → (world side.other).accepted=[] :=
    fun side _ _ he => (hf side).accepted_nil he
  have hone : ∀ side fin,AcceptsFin world action side fin →
      ((world.step action) side.other).accepted=(world side.other).accepted := by
    intro side fin hacc
    obtain ⟨env,manager,hstep,_⟩ := hacc.1.step
    rw [hstep,Function.update_of_ne (Side.other_ne side)]
  intro side ⟨a,ha,hest⟩ b hb
  rcases step_accepted world action side with hs|⟨fin,hacc,hs⟩
  · rw [hs] at ha
    rcases step_accepted world action side.other with ho|⟨fin,hacc,ho⟩
    · rw [ho] at hb
      exact h side ⟨a,ha,hest⟩ b hb
    · rw [ho,List.mem_append,List.mem_singleton] at hb
      rcases hb with hb|rfl
      · exact h side ⟨a,ha,hest⟩ b hb
      · intro he
        have hnil := hnew side.other fin hacc he
        rw [Side.other_other] at hnil
        rw [hnil] at ha
        cases ha
  · rw [hone side fin hacc] at hb
    rw [hs,List.mem_append,List.mem_singleton] at ha
    rcases ha with ha|rfl
    · exact h side ⟨a,ha,hest⟩ b hb
    · rw [hnew side fin hacc hest] at hb
      cases hb

/-- What holds in every state while no FIN is accepted in FIN_WAIT_1. -/
structure Exchange (base : Side → ℤ) (world : World) : Prop where
  /-- Both directions hold. -/
  directions : BothDirections base world
  /-- Both sides answer. -/
  answers : ∀ side,Answers (world side)
  /-- They did not both accept while established. -/
  notBoth : NotBoth world

/-- A step without a FIN in FIN_WAIT_1 keeps the exchange. -/
theorem Exchange.step {base : Side → ℤ} {world : World} (h : Exchange base world)
    (action : Action) (hc : NotInFinWait1 world action) : Exchange base (world.step action) where
  directions := h.directions.step action
  notBoth := h.notBoth.step h.directions action
  answers := by
    have hupdate : ∀ other (after : Endpoint),Answers after →
        ∀ side,Answers (Function.update world other after side) := by
      intro other after ha side
      by_cases ho : side=other
      · subst ho
        rwa [Function.update_self]
      · rw [Function.update_of_ne ho]
        exact h.answers side
    have hquiet : ∀ s event,(∀ env manager packet srcIp,
          event≠.packet env manager packet srcIp) →
        answering (socketStep s event).state=true → answering s.state=true := by
      intro s event hne ha
      rcases answering_step s event ha with hb|⟨env,manager,packet,srcIp,he,_⟩
      · exact hb
      · exact absurd he (hne env manager packet srcIp)
    cases action with
    | sendWindow other env =>
      exact hupdate other _ ((h.answers other).pass (hquiet _ (.sendWindow env) (by simp)))
    | statusMessages other env =>
      exact hupdate other _ ((h.answers other).pass (hquiet _ (.statusMessages env) (by simp)))
    | close other env =>
      refine hupdate other _ ⟨fun ha => ?_,(h.answers other).acknowledged⟩
      exact (h.answers other).entered (hquiet _ (.close env) (by simp) ha)
    | receive other index env manager =>
      cases hq : (world other.other).sent[index]? with
      | none =>
        simp only [World.step,hq]
        exact h.answers
      | some q =>
        simp only [World.step,hq]
        refine hupdate other _ ((h.answers other).receive env manager (asReceived q) ?_)
        intro hacc
        refine hc other (asReceived q) ⟨⟨index,env,manager,rfl,?_⟩,hacc⟩
        simp only [World.input,hq,Option.map_some]

/-- In an exchange nobody is stranded. -/
theorem Exchange.notStranded {base : Side → ℤ} {world : World} (h : Exchange base world) :
    NotStranded world := by
  intro side hlast _ a ha
  have hest := (h.answers side).entered (by rw [hlast]; rfl)
  exact (h.answers side.other).acknowledged a ha (h.notBoth side hest a ha)

/-- In a run from an aligned start every FIN accepted in FIN_WAIT_1 or
FIN_WAIT_2 is acknowledged at once, and nobody is stranded in LAST_ACK,
exactly when no FIN is accepted in FIN_WAIT_1. -/
theorem fin_acknowledged_iff {world : World} (h : Aligned world) (actions : List Action) :
    EachStep World.step Answered world actions ∧
        EachState World.step NotStranded world actions ↔
      EachStep World.step NotInFinWait1 world actions := by
  rw [eachStep_congr answered_iff]
  refine ⟨fun hboth => hboth.1,fun hc => ⟨hc,?_⟩⟩
  have hstart : Exchange (fun side => (world side).socket.seqOfFirstSendWindow) world := by
    refine ⟨bothDirections_of_aligned h,fun side => ⟨fun ha => ?_,?_⟩,?_⟩
    · rw [h.established side] at ha
      cases ha
    · simp [(h.history side).2.2.2.2]
    · rintro side ⟨a,ha,_⟩
      rw [(h.history side).2.2.2.2] at ha
      cases ha
  exact eachState_imp (fun _ => Exchange.notStranded) (eachState_of_guarded
    (P:=Exchange fun side => (world side).socket.seqOfFirstSendWindow)
    (fun _ action he hn => he.step action hn) hstart hc)

/-- The left side closes; the right side's FIN|ACK arrives before any other
answer, in FIN_WAIT_1. -/
def plainClose : List Action :=
  let env := smoothEnv 5000000 none
  [.close .left env,.statusMessages .left env,arrives .right 0 env,.statusMessages .right env,
    .statusMessages .right env,arrives .left 0 env]

/-- In that run no reset is emitted; it ends with the left side in TIME_WAIT
and the right side in LAST_ACK, and the left side never sent an ACK. -/
theorem plainClose_strands : Aligned startWorld ∧
    (∀ side,∀ p∈((run World.step startWorld plainClose) side).emitted,p.has rstFlag=false) ∧
    (∀ p∈((run World.step startWorld plainClose) .left).emitted,p.has ackFlag=false) ∧
    ¬EachStep World.step Answered startWorld plainClose ∧
    ¬NotStranded (run World.step startWorld plainClose) := by
  refine ⟨startWorld_aligned,by rintro (_ | _) <;> decide,by decide,fun h => ?_,fun h => ?_⟩
  · exact absurd (h.2.2.2.2.2.1 .left _ ⟨⟨0,_,_,rfl,rfl⟩,by decide⟩ (by decide)) (by decide)
  · exact absurd (h .right (by decide) (by decide)) (by decide)

/-- The run up to the point where the right side accepts the FIN. -/
theorem fin_acknowledged_iff_start :
    EachStep World.step Answered startWorld (plainClose.take 3) ∧
        EachState World.step NotStranded startWorld (plainClose.take 3) ↔
      EachStep World.step NotInFinWait1 startWorld (plainClose.take 3) :=
  fin_acknowledged_iff startWorld_aligned _

end NetworkLayer.FinAcknowledgement
