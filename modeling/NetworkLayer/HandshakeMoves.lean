import NetworkLayer.ClosingStates
import NetworkLayer.PacketDispatch

/-!
# What one step does to a socket of a handshake

A connecting socket, a socket that waits for its acknowledgement and an
established one differ in what packets, passes and close commands do to their
numbers and in what they send. One structure says all that the handshake needs
to know about a step.
-/

namespace NetworkLayer.HandshakeMoves

open ByteStrings UtilTypes FifoUtils TcpPackets PacketHandlers SocketPasses SocketSteps
open ClosingStates PacketDispatch

/-- The states that a connection reaches only through the established one. -/
def Opened (state : TCPState) : Prop :=
  state=.established ∨ state=.closeWait ∨ state=.lastAck

/-- Both numbers of a socket stay. -/
def SameNumbers (s s' : Socket) : Prop :=
  s'.seqOfFirstSendWindow=s.seqOfFirstSendWindow ∧
    s'.seqOfFirstRecvWindow=s.seqOfFirstRecvWindow

theorem SameNumbers.refl (s : Socket) : SameNumbers s s := ⟨rfl,rfl⟩

/-- A packet as the handshake sees it: a SYN of a connecting socket, a SYN|ACK
of one that waits for its acknowledgement, or a packet without SYN. It has an
ACK in an opened connection only, or in answer to a FIN. -/
inductive Sends (incoming : Option TCPPacket) (s : Socket) (r : TCPPacket) : Prop
  /-- The SYN, numbered one below the send window. -/
  | syn (hstate : s.state=.synSent) (hflags : r.flags=synFlag)
    (hseq : r.seqNum=s.seqOfFirstSendWindow-1)
  /-- The SYN|ACK, numbered one below the send window. -/
  | synAck (hstate : s.state=.synReceived) (hflags : r.flags=synFlag ||| ackFlag)
    (hseq : r.seqNum=s.seqOfFirstSendWindow-1)
  /-- Any other packet. -/
  | other (hsyn : r.has synFlag=false) (hsent : s.state≠.synSent)
    (hreceived : s.state≠.synReceived)
    (hack : r.has ackFlag=true → Opened s.state ∨
      ∃ p,incoming=some p ∧ p.has finFlag=true)

/-- What a step of a socket that does not listen may do, in terms of the
handshake. The step may handle an incoming packet. -/
structure Moved (incoming : Option TCPPacket) (s s' : Socket) (out : List TCPPacket) :
    Prop where
  /-- The identity stays. -/
  id : s'.id=s.id
  /-- A connecting socket is reset, stays, or is established by a SYN|ACK that
  acknowledges its first number. -/
  synSent : s.state=.synSent → s'.state=.closed ∨ s'.state=.synSent ∧ SameNumbers s s' ∨
    s'.state=.established ∧ s'.seqOfFirstSendWindow=s.seqOfFirstSendWindow ∧
      ∃ p,incoming=some p ∧ p.has synFlag=true ∧ p.has ackFlag=true ∧
        s'.seqOfFirstRecvWindow=p.seqNum+1
  /-- A waiting socket is reset or closed, stays, or is established by an ACK. -/
  synReceived : s.state=.synReceived → s'.state=.closed ∨ s'.state=.finWait1 ∨
    SameNumbers s s' ∧ (s'.state=.synReceived ∨
      s'.state=.established ∧ ∃ p,incoming=some p ∧ p.has ackFlag=true)
  /-- Without a packet, and with one that has a SYN, an established socket
  keeps its numbers while it stays established. -/
  established : s.state=.established →
    (∀ p,incoming=some p → p.has synFlag=true) → s'.state=.established → SameNumbers s s'
  /-- The established state is entered from the handshake only. -/
  entered : s'.state=.established → s.state=.established ∨ s.state=.synSent ∨
    s.state=.synReceived
  /-- The states behind it are entered from opened ones only. -/
  opened : s'.state=.closeWait ∨ s'.state=.lastAck → Opened s.state
  /-- The first states are never entered. -/
  first : s'.state=.synSent ∨ s'.state=.synReceived ∨ s'.state=.listen → s'.state=s.state
  /-- Packets carry the socket's ports. -/
  ports : ∀ r∈out,r.srcPort=s.id.srcPort ∧ r.dstPort=s.id.dstPort
  /-- And they are of one of the three kinds. -/
  sends : ∀ r∈out,Sends incoming s r

section

variable {incoming : Option TCPPacket} {s s' : Socket}

/-- A socket that is still connecting kept its numbers. -/
theorem Moved.connecting {out : List TCPPacket} (h : Moved incoming s s' out)
    (hstate : s'.state=.synSent) : s.state=.synSent ∧ SameNumbers s s' := by
  have hbefore : s.state=.synSent := (h.first (Or.inl hstate)).symm.trans hstate
  refine ⟨hbefore,?_⟩
  rcases h.synSent hbefore with hc|⟨_,hnum⟩|⟨he,_⟩
  · rw [hc] at hstate
    cases hstate
  · exact hnum
  · rw [he] at hstate
    cases hstate

/-- So did one that still waits for its acknowledgement. -/
theorem Moved.waiting {out : List TCPPacket} (h : Moved incoming s s' out)
    (hstate : s'.state=.synReceived) : s.state=.synReceived ∧ SameNumbers s s' := by
  have hbefore : s.state=.synReceived :=
    (h.first (Or.inr (Or.inl hstate))).symm.trans hstate
  refine ⟨hbefore,?_⟩
  rcases h.synReceived hbefore with hc|hf|⟨hnum,_⟩
  · rw [hc] at hstate
    cases hstate
  · rw [hf] at hstate
    cases hstate
  · exact hnum

/-- A connecting socket is established by a SYN with an ACK. -/
theorem Moved.connected {out : List TCPPacket} (h : Moved incoming s s' out)
    (hbefore : s.state=.synSent) (he : s'.state=.established) :
    s'.seqOfFirstSendWindow=s.seqOfFirstSendWindow ∧ ∃ p,incoming=some p ∧
      p.has synFlag=true ∧ p.has ackFlag=true ∧ s'.seqOfFirstRecvWindow=p.seqNum+1 := by
  rcases h.synSent hbefore with hc|⟨hs,_⟩|⟨_,hrest⟩
  · rw [hc] at he
    cases he
  · rw [hs] at he
    cases he
  · exact hrest

/-- A waiting one is established by an ACK. -/
theorem Moved.accepted {out : List TCPPacket} (h : Moved incoming s s' out)
    (hbefore : s.state=.synReceived) (he : s'.state=.established) :
    ∃ p,incoming=some p ∧ p.has ackFlag=true := by
  rcases h.synReceived hbefore with hc|hf|⟨_,hr|⟨_,hack⟩⟩
  · rw [hc] at he
    cases he
  · rw [hf] at he
    cases he
  · rw [hr] at he
    cases he
  · exact hack

/-- A step that keeps state and numbers and sends nothing. -/
theorem Moved.stay (incoming : Option TCPPacket) (hid : s'.id=s.id) (hstate : s'.state=s.state)
    (hnum : SameNumbers s s') : Moved incoming s s' [] where
  id := hid
  synSent := fun h => Or.inr (Or.inl ⟨hstate.trans h,hnum⟩)
  synReceived := fun h => Or.inr (Or.inr ⟨hnum,Or.inl (hstate.trans h)⟩)
  established := fun _ _ _ => hnum
  entered := fun h => Or.inl (hstate.symm.trans h)
  opened := by
    intro h
    rw [hstate] at h
    exact Or.inr h
  first := fun _ => hstate
  ports := fun r hr => absurd hr List.not_mem_nil
  sends := fun r hr => absurd hr List.not_mem_nil

/-- What is sent besides. -/
theorem Moved.sending {out : List TCPPacket} (h : Moved incoming s s' [])
    (hports : ∀ r∈out,r.srcPort=s.id.srcPort ∧ r.dstPort=s.id.dstPort)
    (hsends : ∀ r∈out,Sends incoming s r) : Moved incoming s s' out :=
  {h with ports := hports,sends := hsends}

/-- A step into a state outside the handshake and the opened states. -/
theorem Moved.leave (incoming : Option TCPPacket) (hid : s'.id=s.id)
    (hstate : s'.state=.closed ∨ s'.state=.finWait1 ∨ s'.state=.finWait2 ∨ s'.state=.closing ∨
      s'.state=.timeWait) (hsent : s.state=.synSent → s'.state=.closed)
    (hreceived : s.state=.synReceived → s'.state=.closed ∨ s'.state=.finWait1) :
    Moved incoming s s' [] where
  id := hid
  synSent := fun h => Or.inl (hsent h)
  synReceived := by
    intro h
    rcases hreceived h with hc|hf
    · exact Or.inl hc
    · exact Or.inr (Or.inl hf)
  established := by
    intro _ _ h
    rw [h] at hstate
    simp at hstate
  entered := by
    intro h
    rw [h] at hstate
    simp at hstate
  opened := by
    intro h
    rcases h with h|h <;> rw [h] at hstate <;> simp at hstate
  first := by
    intro h
    rcases h with h|h|h <;> rw [h] at hstate <;> simp at hstate
  ports := fun r hr => absurd hr List.not_mem_nil
  sends := fun r hr => absurd hr List.not_mem_nil

/-- A step outside the handshake and the established state. -/
theorem Moved.later (incoming : Option TCPPacket) (hid : s'.id=s.id)
    (hsent : s.state≠.synSent) (hreceived : s.state≠.synReceived) (he : s.state≠.established)
    (hstate : s'.state=s.state ∨ s'.state=.lastAck ∧ s.state=.closeWait ∨ s'.state=.finWait2 ∨
      s'.state=.closing ∨ s'.state=.timeWait ∨ s'.state=.closed) : Moved incoming s s' [] where
  id := hid
  synSent := fun h => absurd h hsent
  synReceived := fun h => absurd h hreceived
  established := fun h => absurd h he
  entered := by
    intro h
    rw [h] at hstate
    simp only [reduceCtorEq,false_and,or_false] at hstate
    exact Or.inl hstate.symm
  opened := by
    intro h
    rcases hstate with hs|⟨_,hs⟩|hs|hs|hs|hs
    · rw [hs] at h
      exact Or.inr h
    · exact Or.inr (Or.inl hs)
    all_goals rw [hs] at h; simp at h
  first := by
    intro h
    rcases hstate with hs|⟨hs,_⟩|hs|hs|hs|hs
    · exact hs
    all_goals rw [hs] at h; simp at h
  ports := fun r hr => absurd hr List.not_mem_nil
  sends := fun r hr => absurd hr List.not_mem_nil

end

/-- A close command that does not meet a connecting socket. -/
theorem closeCommand_moved (env : Env) {s : Socket} (h : s.state≠.synSent) :
    Moved none s (closeCommand env s) [] := by
  refine Moved.leave none ?_ (Or.inr (Or.inl rfl)) (fun hs => absurd hs h)
    (fun _ => Or.inr rfl)
  rw [closeCommand]
  exact if_neg h

/-- The clock plays no part in the handshake. -/
theorem Moved.clock {incoming : Option TCPPacket} {s s' : Socket} {out : List TCPPacket}
    (h : Moved incoming s s' out) (clock : ℤ) :
    Moved incoming s {s' with lastSendClock := clock} out :=
  ⟨h.id,h.synSent,h.synReceived,h.established,h.entered,h.opened,h.first,h.ports,h.sends⟩

/-- A packet without SYN that a socket outside the handshake builds. -/
theorem sends_control {s : Socket} (data : CString) {flags : Byte} (dstPort : ℤ)
    (hsyn : (flags &&& synFlag != 0)=false) (hsent : s.state≠.synSent)
    (hreceived : s.state≠.synReceived)
    (hack : (flags &&& ackFlag != 0)=true → Opened s.state) :
    Sends none s (constructPacket s data flags dstPort) :=
  .other hsyn hsent hreceived fun h => Or.inl (hack h)

/-- The pass over the send window sends an ACK in the established state. -/
theorem checkAndHandleSendWindow_moved (env : Env) (s : Socket) :
    Moved none s (checkAndHandleSendWindow env s).socket (checkAndHandleSendWindow env s).sent := by
  have hsent := sent_subset (checkAndHandleSendWindow env s)
  rcases checkAndHandleSendWindow_cases env s with he|⟨hstate,q,clock,data,_,_,he⟩
  · rw [he]
    exact Moved.stay none rfl rfl (SameNumbers.refl s)
  rw [he] at hsent ⊢
  refine Moved.sending (Moved.stay none rfl rfl ⟨rfl,rfl⟩) ?_ ?_
  · intro r hr
    rw [List.mem_singleton.mp (hsent r hr)]
    exact ⟨rfl,rfl⟩
  · intro r hr
    rw [List.mem_singleton.mp (hsent r hr)]
    exact sends_control _ _ rfl (by rw [hstate]; decide) (by rw [hstate]; decide)
      (fun _ => Or.inl hstate)

/-- The packets of the timer pass, as the handshake sees them. -/
theorem sends_status {s : Socket} {r : TCPPacket} (h : StatusPacket s r) :
    (r.srcPort=s.id.srcPort ∧ r.dstPort=s.id.dstPort) ∧ Sends none s r := by
  cases h with
  | syn hs => exact ⟨⟨rfl,rfl⟩,.syn hs rfl rfl⟩
  | synAck hs => exact ⟨⟨rfl,rfl⟩,.synAck hs rfl rfl⟩
  | reset hs =>
    refine ⟨⟨rfl,rfl⟩,sends_control _ _ rfl ?_ ?_ (fun h => absurd h (by decide))⟩
    all_goals rcases hs with hs|hs <;> simp [hs]
  | fin hs =>
    exact ⟨⟨rfl,rfl⟩,sends_control _ _ rfl (by simp [hs]) (by simp [hs])
      (fun h => absurd h (by decide))⟩
  | finAck hs =>
    exact ⟨⟨rfl,rfl⟩,sends_control _ _ rfl (by simp [hs]) (by simp [hs])
      (fun _ => Or.inr (Or.inr hs))⟩

/-- The timer pass resends what the state calls for. -/
theorem checkAndHandleOutgoingStatusMessages_moved (env : Env) (s : Socket) :
    Moved none s (checkAndHandleOutgoingStatusMessages env s).socket
      (checkAndHandleOutgoingStatusMessages env s).sent := by
  have houtcome := checkAndHandleOutgoingStatusMessages_outcome env s
  have hsent := sent_subset (checkAndHandleOutgoingStatusMessages env s)
  generalize checkAndHandleOutgoingStatusMessages env s=passed at houtcome hsent ⊢
  have hsends : (∀ p∈passed.attempts.map Prod.fst,StatusPacket s p) →
      Moved none s passed.socket [] → Moved none s passed.socket passed.sent := by
    intro hpackets hmoved
    exact hmoved.sending (fun r hr => (sends_status (hpackets r (hsent r hr))).1)
      (fun r hr => (sends_status (hpackets r (hsent r hr))).2)
  cases houtcome with
  | sends clock attempts hpackets =>
    exact hsends hpackets (Moved.stay none rfl rfl ⟨rfl,rfl⟩)
  | timedOut hstate _ attempts hpackets =>
    refine hsends hpackets (Moved.later none rfl ?_ ?_ ?_ (by simp))
    all_goals rcases hstate with hs|hs <;> simp [hs]
  | moves hstate => exact Moved.stay none rfl rfl ⟨rfl,rfl⟩
  | finishes hstate =>
    exact Moved.later none rfl (by simp [hstate]) (by simp [hstate]) (by simp [hstate])
      (Or.inr (Or.inl ⟨rfl,hstate⟩))
  | expires hstate =>
    exact Moved.leave none rfl (Or.inl rfl) (fun _ => rfl) (fun _ => Or.inl rfl)

/-- Packets without SYN may do anything to the numbers of an established
socket, which stays established or has accepted a FIN. -/
theorem Moved.fromEstablished {packet : TCPPacket} {s s' : Socket} (he : s.state=.established)
    (hsyn : packet.has synFlag=false) (hid : s'.id=s.id)
    (hstate : s'.state=.established ∨ s'.state=.closeWait) : Moved (some packet) s s' [] where
  id := hid
  synSent := by
    intro h
    rw [he] at h
    cases h
  synReceived := by
    intro h
    rw [he] at h
    cases h
  established := by
    intro _ hall _
    have hhas := hall packet rfl
    rw [hsyn] at hhas
    cases hhas
  entered := fun _ => Or.inl he
  opened := fun _ => Or.inl he
  first := by
    intro h
    rcases hstate with hs|hs <;> rw [hs] at h <;> simp at h
  ports := fun r hr => absurd hr List.not_mem_nil
  sends := fun r hr => absurd hr List.not_mem_nil

/-- Handling a packet, up to the reply. -/
theorem handlePacket_moved_quietly (env : Env) (manager : NetworkManager) {s : Socket}
    (packet : TCPPacket) (srcIp : CString) (hl : s.state≠.listen) :
    Moved (some packet) s (handlePacket env manager s packet srcIp).socket [] := by
  have houtcome := handlePacket_outcome env manager packet srcIp hl
  generalize handlePacket env manager s packet srcIp=handled at houtcome ⊢
  cases houtcome with
  | ignored => exact Moved.stay _ rfl rfl (SameNumbers.refl s)
  | reset => exact Moved.leave _ rfl (Or.inl rfl) (fun _ => rfl) (fun _ => Or.inl rfl)
  | connected hstate hsyn hack =>
    exact {
      id := rfl
      synSent := fun _ => Or.inr (Or.inr ⟨rfl,rfl,packet,rfl,hsyn,hack,rfl⟩)
      synReceived := fun h => by rw [hstate] at h; cases h
      established := fun h => by rw [hstate] at h; cases h
      entered := fun _ => Or.inr (Or.inl hstate)
      opened := fun h => by rcases h with h|h <;> cases h
      first := fun h => by rcases h with h|h|h <;> cases h
      ports := fun r hr => absurd hr List.not_mem_nil
      sends := fun r hr => absurd hr List.not_mem_nil}
  | accepted hstate hack =>
    exact {
      id := rfl
      synSent := fun h => by rw [hstate] at h; cases h
      synReceived := fun _ => Or.inr (Or.inr ⟨⟨rfl,rfl⟩,Or.inr ⟨rfl,packet,rfl,hack⟩⟩)
      established := fun h => by rw [hstate] at h; cases h
      entered := fun _ => Or.inr (Or.inr hstate)
      opened := fun h => by rcases h with h|h <;> cases h
      first := fun h => by rcases h with h|h|h <;> cases h
      ports := fun r hr => absurd hr List.not_mem_nil
      sends := fun r hr => absurd hr List.not_mem_nil}
  | taken hstate _ hsyn hfin =>
    refine Moved.fromEstablished hstate hsyn
      (handlePacketEstablished_confined env manager s packet).1 (Or.inl ?_)
    rw [handlePacketEstablished_state env manager s hfin,hstate]
  | finished hstate haccepts =>
    have hsyn : packet.has synFlag=false := by
      simp only [acceptsFin,hstate,Bool.and_eq_true] at haccepts
      simpa using haccepts.2
    exact Moved.fromEstablished hstate hsyn rfl (Or.inr rfl)
  | finAcked state clock _ hedge =>
    have hstates : Moved (some packet) s {s with state := state} [] := by
      rcases hedge with ⟨hs,rfl⟩|⟨hs,rfl⟩|⟨hs,rfl⟩
      all_goals exact Moved.later _ rfl (by simp [hs]) (by simp [hs]) (by simp [hs]) (by simp)
    exact hstates.clock clock
  | finTaken state clock hstate _ hedge =>
    refine Moved.later _ rfl (by simp [hstate]) (by simp [hstate]) (by simp [hstate]) ?_
    rcases hedge with rfl|⟨rfl,_⟩
    all_goals simp
  | finAnswered hstate =>
    exact Moved.later _ rfl (by simp [hstate]) (by simp [hstate]) (by simp [hstate]) (by simp)

/-- An ACK that a socket outside the handshake builds. -/
theorem sends_ack {incoming : Option TCPPacket} {s t : Socket} {data : CString} {dstPort : ℤ}
    (hsent : s.state≠.synSent) (hreceived : s.state≠.synReceived)
    (hack : Opened s.state ∨ ∃ p,incoming=some p ∧ p.has finFlag=true) :
    Sends incoming s (constructPacket t data ackFlag dstPort) := by
  refine .other ?_ hsent hreceived (fun _ => hack)
  rw [constructPacket_has]
  decide

/-- A reply is an ACK, to data in an established connection or to a FIN. -/
theorem handlePacket_reply (env : Env) (manager : NetworkManager) {s : Socket}
    {packet r : TCPPacket} (srcIp : CString) (hl : s.state≠.listen)
    (hr : (handlePacket env manager s packet srcIp).reply=some r) :
    (r.srcPort=s.id.srcPort ∧ r.dstPort=s.id.dstPort) ∧ Sends (some packet) s r := by
  have hid := (handlePacket_confined env manager packet srcIp hl).1
  rcases handlePacket_reply_cases hr with ⟨hlisten,_⟩|⟨hsrc,he,hanswer⟩
  · exact absurd hlisten hl
  rw [he]
  refine ⟨⟨by rw [←hid]; rfl,hsrc⟩,?_⟩
  rcases hanswer with ⟨hstate,_⟩|⟨hstate,hfin⟩
  · exact sends_ack (by rw [hstate]; decide) (by rw [hstate]; decide) (Or.inl (Or.inl hstate))
  · exact sends_ack (by rw [hstate]; decide) (by rw [hstate]; decide)
      (Or.inr ⟨packet,rfl,hfin⟩)

/-- Handling a packet, with the reply. -/
theorem handlePacket_moved (env : Env) (manager : NetworkManager) {s : Socket}
    (packet : TCPPacket) (srcIp : CString) (hl : s.state≠.listen) :
    Moved (some packet) s ((handlePacket env manager s packet srcIp).afterReply env)
      ((handlePacket env manager s packet srcIp).sentReply env) := by
  obtain ⟨clock,hclock⟩ := afterReply_frame env (handlePacket env manager s packet srcIp)
  have hmem : ∀ r∈(handlePacket env manager s packet srcIp).sentReply env,
      (handlePacket env manager s packet srcIp).reply=some r := by
    intro r hr
    unfold Handled.sentReply at hr
    split at hr
    · exact Option.mem_toList.mp hr
    · cases hr
  rw [hclock]
  refine Moved.clock ((handlePacket_moved_quietly env manager packet srcIp hl).sending ?_ ?_) clock
  · exact fun r hr => (handlePacket_reply env manager srcIp hl (hmem r hr)).1
  · exact fun r hr => (handlePacket_reply env manager srcIp hl (hmem r hr)).2

end NetworkLayer.HandshakeMoves
