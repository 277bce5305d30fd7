import NetworkLayer.SocketSteps
import NetworkLayer.StepRuns

/-!
# The states of one connection

Packets, timer passes and close commands move one socket between the states
of `TCPState`, whose comments document the intended edges with what triggers
them. Three steps of the code leave them: a close command does not look at
the state, the timer takes CLOSE_WAIT to LAST_ACK without one, and a FIN that
also acknowledges the own FIN takes FIN_WAIT_1 to TIME_WAIT.
-/

namespace NetworkLayer.ClosingStates

open ByteStrings UtilTypes FifoUtils TcpPackets PacketHandlers SocketPasses SocketSteps StepRuns

/-- One thing that happens to a connection's socket. -/
inductive Event
  /-- A packet is handed to `handle_packet` and its reply handed on. -/
  | packet (env : Env) (manager : NetworkManager) (packet : TCPPacket) (srcIp : CString)
  /-- `check_and_handle_send_window` runs. -/
  | sendWindow (env : Env)
  /-- `check_and_handle_outgoing_status_messages` runs. -/
  | statusMessages (env : Env)
  /-- The user's close command is read. -/
  | close (env : Env)

/-- The socket after the event. -/
def socketStep (socket : Socket) : Event → Socket
  | .packet env manager packet srcIp =>
    (handlePacket env manager socket packet srcIp).afterReply env
  | .sendWindow env => (checkAndHandleSendWindow env socket).socket
  | .statusMessages env => (checkAndHandleOutgoingStatusMessages env socket).socket
  | .close env => closeCommand env socket

/-- Whether a packet acknowledges the socket's own FIN. -/
def acksFin (socket : Socket) (packet : TCPPacket) : Bool :=
  packet.has ackFlag && decide (socket.seqOfFirstSendWindow < packet.ackNum)

/-- The edges documented for receiving a packet, each with what it asks of
the packet. -/
def packetEdge (socket : Socket) (packet : TCPPacket) : TCPState → TCPState → Bool
  | .listen,.synReceived => packet.has synFlag
  | .synSent,.synReceived => packet.has synFlag
  | .synSent,.established => packet.has synFlag && packet.has ackFlag
  | .synReceived,.established => packet.has ackFlag
  | .established,.closeWait => packet.has finFlag
  | .finWait1,.finWait2 => acksFin socket packet
  | .finWait1,.closing => packet.has finFlag
  | .finWait2,.timeWait => packet.has finFlag
  | .closing,.timeWait => acksFin socket packet
  | .lastAck,.closed => acksFin socket packet
  | _,_ => false

/-- The edges documented for the user's close. -/
def closeEdge : TCPState → TCPState → Bool
  | .established,.finWait1 => true
  | .closeWait,.lastAck => true
  | _,_ => false

/-- How a packet may change the state. CLOSE_WAIT is entered by accepting a
FIN, and one packet that carries a FIN and the ACK for the own FIN takes two
documented edges at once. -/
theorem handlePacket_change (env : Env) (manager : NetworkManager) (s : Socket)
    (packet : TCPPacket) (srcIp : CString) :
    let after := (handlePacket env manager s packet srcIp).socket.state
    after=s.state ∨ packet.has rstFlag=true ∧ after=.closed ∨
      packetEdge s packet s.state after=true ∧ (after=.closeWait → acceptsFin s packet=true) ∨
      acceptsFin s packet=true ∧ acksFin s packet=true ∧ s.state=.finWait1 ∧
        after=.timeWait := by
  intro after
  by_cases hl : s.state=.listen
  · left
    unfold after
    rw [handlePacket,if_neg (fun h => h.2 hl),if_neg (fun h => h.1 hl),hl]
    simp only [handlePacketListen]
    split
    · exact hl
    split
    · exact hl
    split
    · exact hl
    split <;> exact hl
  have hacks : packet.has ackFlag=true ∧ s.seqOfFirstSendWindow < packet.ackNum →
      acksFin s packet=true := by
    intro h
    rwa [acksFin,Bool.and_eq_true,decide_eq_true_eq]
  have houtcome := handlePacket_outcome env manager packet srcIp hl
  unfold after
  generalize handlePacket env manager s packet srcIp=handled at houtcome ⊢
  cases houtcome with
  | ignored => exact Or.inl rfl
  | reset hrst => exact Or.inr (Or.inl ⟨hrst,rfl⟩)
  | connected hstate hsyn hack =>
    refine Or.inr (Or.inr (Or.inl ⟨?_,by simp⟩))
    rw [hstate]
    exact Bool.and_eq_true_iff.mpr ⟨hsyn,hack⟩
  | accepted hstate hack =>
    refine Or.inr (Or.inr (Or.inl ⟨?_,by simp⟩))
    rwa [hstate]
  | taken hstate _ hsyn hfin =>
    exact Or.inl (handlePacketEstablished_state env manager s hfin)
  | finished hstate haccepts | finAnswered hstate haccepts =>
    refine Or.inr (Or.inr (Or.inl ⟨?_,fun _ => haccepts⟩))
    rw [hstate]
    exact (acceptsFin_cases haccepts).1
  | finAcked state clock _ hedge hack =>
    refine Or.inr (Or.inr (Or.inl ?_))
    rcases hedge with ⟨hs,rfl⟩|⟨hs,rfl⟩|⟨hs,rfl⟩
    all_goals
      rw [hs]
      exact ⟨hacks hack,by simp⟩
  | finTaken state clock hstate haccepts hedge =>
    rcases hedge with rfl|⟨rfl,hack⟩
    · refine Or.inr (Or.inr (Or.inl ⟨?_,fun _ => haccepts⟩))
      rw [hstate]
      exact (acceptsFin_cases haccepts).1
    · exact Or.inr (Or.inr (Or.inr ⟨haccepts,hacks hack,hstate,rfl⟩))

/-- A FIN that also acknowledges the own FIN goes past CLOSING at once. -/
theorem handlePacket_finAck (env : Env) (manager : NetworkManager) {s : Socket}
    {packet : TCPPacket} (srcIp : CString) (hstate : s.state=.finWait1)
    (haccepts : acceptsFin s packet=true) (hacks : acksFin s packet=true) :
    (handlePacket env manager s packet srcIp).socket.state=.timeWait := by
  obtain ⟨hfin,hrst,hport,_⟩ := acceptsFin_cases haccepts
  unfold handlePacket
  rw [if_neg (by simp [hrst]),if_neg (by simp [hport])]
  have hacked : (packet.has ackFlag && decide (packet.ackNum > s.seqOfFirstSendWindow))=true :=
    hacks
  simp only [hstate,handlePacketFinWait1,hacked,hfin,if_true,quiet_socket]

/-- How a timer pass may change the state: along the one documented edge it
takes by itself, or by a timeout. -/
theorem statusMessages_change (env : Env) (s : Socket) :
    let after := (checkAndHandleOutgoingStatusMessages env s).socket.state
    after=s.state ∨ s.state=.closeWait ∧ after=.lastAck ∨
      (s.state=.finWait1 ∨ s.state=.closing) ∧ after=.timeWait ∧
        elapsed env s.timeSinceFinSent socketFinRstTime=true ∨
      s.state=.timeWait ∧ after=.closed ∧
        elapsed env s.lastSendClock socketTimeWaitTimeout=true := by
  intro after
  have houtcome := checkAndHandleOutgoingStatusMessages_outcome env s
  unfold after
  generalize checkAndHandleOutgoingStatusMessages env s=passed at houtcome ⊢
  cases houtcome with
  | sends | moves => exact Or.inl rfl
  | finishes hstate => exact Or.inr (Or.inl ⟨hstate,rfl⟩)
  | timedOut hstate helapsed => exact Or.inr (Or.inr (Or.inl ⟨hstate,rfl,helapsed⟩))
  | expires hstate helapsed => exact Or.inr (Or.inr (Or.inr ⟨hstate,rfl,helapsed⟩))

/-- The send window's pass does not change the state. -/
theorem sendWindow_state (env : Env) (s : Socket) :
    (checkAndHandleSendWindow env s).socket.state=s.state := by
  rcases checkAndHandleSendWindow_cases env s with he|⟨_,q,clock,data,_,_,he⟩ <;> rw [he]
  rfl

/-- A change of state takes an edge documented in the comments of `TCPState`
by what is documented for it, or is a reset to CLOSED, or a timeout to
TIME_WAIT or CLOSED. -/
def Allowed (s : Socket) (event : Event) : Prop :=
  let after := (socketStep s event).state
  after=s.state ∨
    match event with
    | .packet _ _ packet _ =>
        packetEdge s packet s.state after=true ∨ packet.has rstFlag=true ∧ after=.closed
    | .sendWindow _ => False
    | .statusMessages env =>
        elapsed env s.timeSinceFinSent socketFinRstTime=true ∧ after=.timeWait ∨
        elapsed env s.lastSendClock socketTimeWaitTimeout=true ∧ after=.closed
    | .close _ => closeEdge s.state after=true

/-- A step that goes forward: its change of state is allowed, and a close
command takes its documented edge. -/
def Forward (s : Socket) (event : Event) : Prop :=
  Allowed s event ∧
    ∀ env,event=.close env →
      (s.state=.established → (socketStep s event).state=.finWait1) ∧
      (s.state=.closeWait → (socketStep s event).state=.lastAck)

/-- The step is none of the three that leave the documented edges: a close
command finds the socket established, or already waiting for the answer to
its close; the timer does not pass in CLOSE_WAIT; and in FIN_WAIT_1 no packet
carries the FIN together with the ACK for the own FIN. -/
def Orderly (s : Socket) : Event → Prop
  | .packet _ _ packet _ =>
    ¬(s.state=.finWait1 ∧ acceptsFin s packet=true ∧ acksFin s packet=true)
  | .sendWindow _ => True
  | .statusMessages _ => s.state≠.closeWait
  | .close _ => s.state=.established ∨ s.state=.finWait1

/-- A packet goes forward unless it acknowledges two things at once. -/
theorem allowed_packet (env : Env) (manager : NetworkManager) (s : Socket) (packet : TCPPacket)
    (srcIp : CString) :
    Allowed s (.packet env manager packet srcIp) ↔
      ¬(s.state=.finWait1 ∧ acceptsFin s packet=true ∧ acksFin s packet=true) := by
  have hafter : (socketStep s (.packet env manager packet srcIp)).state=
      (handlePacket env manager s packet srcIp).socket.state := afterReply_state env _
  constructor
  · rintro hallowed ⟨hstate,haccepts,hacks⟩
    rw [Allowed,hafter,handlePacket_finAck env manager srcIp hstate haccepts hacks,
      hstate] at hallowed
    simp [packetEdge] at hallowed
  · intro horderly
    have hchange := handlePacket_change env manager s packet srcIp
    simp only [←hafter] at hchange
    rcases hchange with h|⟨hrst,h⟩|⟨h,_⟩|⟨haccepts,hacks,hstate,_⟩
    · exact Or.inl h
    · exact Or.inr (Or.inr ⟨hrst,h⟩)
    · exact Or.inr (Or.inl h)
    · exact absurd ⟨hstate,haccepts,hacks⟩ horderly

/-- A timer pass goes forward outside CLOSE_WAIT, which it leaves for
LAST_ACK. -/
theorem allowed_statusMessages (env : Env) (s : Socket) :
    Allowed s (.statusMessages env) ↔ s.state≠.closeWait := by
  have hafter : (socketStep s (.statusMessages env)).state=
      (checkAndHandleOutgoingStatusMessages env s).socket.state := rfl
  constructor
  · intro hallowed hstate
    have hlast : (checkAndHandleOutgoingStatusMessages env s).socket.state=.lastAck := by
      simp [checkAndHandleOutgoingStatusMessages,hstate,idle]
    rw [Allowed,hafter,hlast,hstate] at hallowed
    simp at hallowed
  · intro hstate
    have hchange := statusMessages_change env s
    simp only [←hafter] at hchange
    rcases hchange with h|⟨hb,_⟩|⟨_,ha,he⟩|⟨_,ha,he⟩
    · exact Or.inl h
    · exact absurd hb hstate
    · exact Or.inr (Or.inl ⟨he,ha⟩)
    · exact Or.inr (Or.inr ⟨he,ha⟩)

/-- A close command goes forward from two states only: it enters FIN_WAIT_1
from every state. -/
theorem forward_close (env : Env) (s : Socket) :
    Forward s (.close env) ↔ s.state=.established ∨ s.state=.finWait1 := by
  have hafter : (socketStep s (.close env)).state=.finWait1 := rfl
  constructor
  · rintro ⟨h|h,_⟩
    · exact Or.inr (h.symm.trans hafter)
    · have hedge : closeEdge s.state .finWait1=true := h
      revert hedge
      generalize s.state=before
      cases before <;> decide
  · rintro (h|h)
    · refine ⟨Or.inr (by rw [hafter,h]; rfl),?_⟩
      rintro _ ⟨⟩
      exact ⟨fun _ => hafter,by simp [h]⟩
    · refine ⟨Or.inl (hafter.trans h.symm),?_⟩
      rintro _ ⟨⟩
      exact ⟨by simp [h],by simp [h]⟩

/-- For every other event, going forward is the allowed change of state. -/
theorem forward_of_noClose {s : Socket} {event : Event} (h : ∀ env,event≠.close env) :
    Forward s event ↔ Allowed s event :=
  and_iff_left fun env he => absurd he (h env)

/-- A step goes forward exactly when it is orderly. -/
theorem forward_iff (s : Socket) (event : Event) : Forward s event ↔ Orderly s event := by
  cases event with
  | packet env manager packet srcIp =>
    rw [forward_of_noClose (by simp)]
    exact allowed_packet env manager s packet srcIp
  | sendWindow env =>
    rw [forward_of_noClose (by simp)]
    exact iff_of_true (Or.inl (sendWindow_state env s)) trivial
  | statusMessages env =>
    rw [forward_of_noClose (by simp)]
    exact allowed_statusMessages env s
  | close env => exact forward_close env s

/-- The states after the own close was answered, or the connection ended. -/
def settled : TCPState → Bool
  | .lastAck | .finWait2 | .closing | .timeWait | .closed => true
  | _ => false

/-- No allowed change of state leaves the settled states. -/
theorem settled_of_allowed {s : Socket} {event : Event} (h : Allowed s event)
    (hs : settled s.state=true) : settled (socketStep s event).state=true := by
  unfold Allowed at h
  generalize (socketStep s event).state=after at h ⊢
  rcases h with rfl|h
  · exact hs
  cases event with
  | packet env manager packet srcIp =>
    rcases h with h|⟨_,rfl⟩
    · revert hs h
      generalize s.state=before
      cases before <;> cases after <;> simp [settled,packetEdge]
    · rfl
  | sendWindow env => exact h.elim
  | statusMessages env =>
    rcases h with ⟨_,rfl⟩|⟨_,rfl⟩
    · rfl
    · rfl
  | close env =>
    have hedge : closeEdge s.state after=true := h
    revert hs hedge
    generalize s.state=before
    cases before <;> cases after <;> decide

/-- A settled socket never enters FIN_WAIT_1 for the rest of the run. -/
def NeverReenters (s : Socket) (events : List Event) : Prop :=
  ∀ first rest,events=first++rest → settled (run socketStep s first).state=true →
    EachState socketStep (fun s => s.state≠.finWait1) (run socketStep s first) rest

/-- While every step goes forward, a settled socket stays settled. -/
theorem neverReenters_of_forward {s : Socket} {events : List Event}
    (h : EachStep socketStep Forward s events) : NeverReenters s events := by
  rintro first rest rfl hs
  have hsettled := eachState_of_guarded (P:=fun s => settled s.state=true)
    (fun s event hs (hf : Forward s event) => settled_of_allowed hf.1 hs) hs h.of_append
  refine eachState_imp ?_ hsettled
  intro s hs hstate
  rw [hstate] at hs
  cases hs

/-- A run of one connection's socket goes forward in every step, and a
settled socket never enters FIN_WAIT_1 again, exactly when every step is
orderly. -/
theorem closes_forward_iff (s : Socket) (events : List Event) :
    EachStep socketStep Forward s events ∧ NeverReenters s events ↔
      EachStep socketStep Orderly s events := by
  rw [←eachStep_congr forward_iff]
  exact ⟨fun h => h.1,fun h => ⟨h,neverReenters_of_forward h⟩⟩

/-- The peer's FIN arrives at an established socket, its ACK is on its way in
LAST_ACK, and then the user closes. -/
def closeAfterFin : List Event :=
  let env := smoothEnv 5000000 none
  let fin : TCPPacket := ⟨8081,8080,5000,1000,finFlag,0,none⟩
  [.packet env (createNetworkManager emptyIp fun _ => false) fin emptyIp,.statusMessages env,
    .close env]

/-- The socket of that run is established between the ports of the FIN. -/
def openSocket : Socket := createNewSocket 0 ⟨8080,8081,emptyIp,emptyIp⟩ .established

/-- The close command takes LAST_ACK back to FIN_WAIT_1. -/
theorem closeAfterFin_backwards :
    (run socketStep openSocket (closeAfterFin.take 2)).state=.lastAck ∧
      (run socketStep openSocket closeAfterFin).state=.finWait1 ∧
      ¬(EachStep socketStep Forward openSocket closeAfterFin ∧
        NeverReenters openSocket closeAfterFin) := by
  refine ⟨by decide,by decide,fun h => ?_⟩
  have hclose := (forward_close _ _).mp h.1.2.2.1
  exact absurd hclose (by decide)

end NetworkLayer.ClosingStates
