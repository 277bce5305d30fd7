import NetworkLayer.Endpoints

/-!
# One direction of a connection

`Flow` relates a sender, its receiver and everything in flight between them,
in both of their histories. A step of either end keeps it, whatever the step
is; both directions together are an invariant of every run from an aligned
start.
-/

namespace NetworkLayer.Flows

open ByteStrings UtilTypes FifoUtils TcpPackets PacketHandlers SocketPasses SocketSteps StepRuns
open WindowedStreams Endpoints

/-- The direction from `snd` to `rcv`, whose first byte has number `base`. -/
structure Flow (base : ℤ) (snd rcv : Endpoint) : Prop where
  /-- The sender is past its handshake. -/
  connected : Connected snd.socket.state
  /-- What was delivered is a prefix of what was enqueued. -/
  delivered : rcv.delivered<+:snd.enqueued
  /-- The send window lacks delivered bytes only, and its first number
  counts them while the sender is established. -/
  acked : ∃ k ≤ rcv.delivered.length,
    snd.socket.sendWindow.toList=snd.enqueued.drop k ∧
    base+(k : ℕ) ≤ snd.socket.seqOfFirstSendWindow ∧
    (snd.socket.state=.established → snd.socket.seqOfFirstSendWindow=base+(k : ℕ))
  /-- A sender that has closed stands past all enqueued bytes. -/
  closedEnd : snd.socket.state≠.established → snd.socket.state≠.closed →
    base+snd.enqueued.length ≤ snd.socket.seqOfFirstSendWindow
  /-- Until a FIN is accepted, the next expected number counts the delivered
  bytes. -/
  expected : rcv.accepted=[] → rcv.socket.seqOfFirstRecvWindow=base+rcv.delivered.length
  /-- The receive window holds bytes of the stream. -/
  window : rcv.socket.state=.established →
    Agrees snd.enqueued rcv.delivered.length rcv.socket.recvWindow
      rcv.socket.recvWindowIsvalid
  /-- An established receiver has accepted no FIN. -/
  unaccepted : rcv.socket.state=.established → rcv.accepted=[]
  /-- Data ever emitted are a segment of the stream. -/
  data : ∀ p∈snd.emitted,∀ d,p.data=some d → d.chars≠[] →
    ∃ k ≤ snd.enqueued.length,p.seqNum=base+(k : ℕ) ∧ SegmentOf snd.enqueued k d.chars
  /-- A FIN in flight comes from a sender that is no longer established. -/
  fins : ∀ p∈snd.emitted,p.has finFlag=true → snd.socket.state≠.established
  /-- Until a FIN is accepted, delivered bytes only are acknowledged. -/
  acks : rcv.accepted=[] → ∀ p∈rcv.emitted,p.ackNum ≤ base+rcv.delivered.length
  /-- Accepted FINs were sent. -/
  acceptedFins : ∀ a∈rcv.accepted,a.2.has finFlag=true ∧ ∃ q∈snd.sent,a.2=asReceived q
  /-- What reached the network was emitted. -/
  sent : ∀ p∈snd.sent,p∈snd.emitted

/-- Data as they arrive are a segment of the stream. -/
theorem Flow.arriving {base : ℤ} {snd rcv : Endpoint} (h : Flow base snd rcv)
    {input : Option TCPPacket} (hin : ∀ p,input=some p → ∃ q∈snd.sent,p=asReceived q) :
    ∀ p d,input=some p → p.data=some d → ∃ k : ℕ,p.seqNum=base+k ∧
      ∀ i b,d.chars[i]?=some b → snd.enqueued[k+i]?=some b := by
  intro p d hp hd
  obtain ⟨q,hq,rfl⟩ := hin p hp
  simp only [asReceived,Option.filter_eq_some_iff] at hd
  have hne : d.chars≠[] := by
    intro he
    simp [CString.strlen,he] at hd
  obtain ⟨k,_,hseq,hseg⟩ := h.data q (h.sent q hq) d hd.1 hne
  exact ⟨k,hseq,fun i b hi => hseg.getElem? hi⟩

/-- No FIN of an established sender was accepted. -/
theorem Flow.accepted_nil {base : ℤ} {snd rcv : Endpoint} (h : Flow base snd rcv)
    (he : snd.socket.state=.established) : rcv.accepted=[] := by
  by_contra hne
  obtain ⟨a,ha⟩ := List.exists_mem_of_ne_nil _ hne
  obtain ⟨hfin,q,hq,hqa⟩ := h.acceptedFins a ha
  rw [hqa,asReceived_has] at hfin
  exact h.fins q (h.sent q hq) hfin he

/-- A step of the sender keeps the direction. -/
theorem Flow.sender {base : ℤ} {snd rcv snd' : Endpoint} {input : Option TCPPacket}
    (h : Flow base snd rcv) (hm : Moves snd snd' input)
    (hin : ∀ p,input=some p → ∃ q∈rcv.emitted,p.ackNum=q.ackNum) : Flow base snd' rcv := by
  obtain ⟨moved,written,out,sent,hstep,hsub,henq,_,hem,hsent,_⟩ := hm
  obtain ⟨k,hk,hwindow,hbase,hest⟩ := h.acked
  obtain ⟨j,hwindow',hbase',hest',hj⟩ := hstep.window
  have hklen : k ≤ snd.enqueued.length := hk.trans h.delivered.length_le
  have hkj : k+j ≤ rcv.delivered.length := by
    rcases Nat.eq_zero_or_pos j with h0|hpos
    · omega
    · obtain ⟨he,p,hp,hle⟩ := hj hpos
      obtain ⟨q,hq,hack⟩ := hin p hp
      have hbound := h.acks (h.accepted_nil he) q hq
      have := hest he
      omega
  have hlist : snd'.socket.sendWindow.toList=snd'.enqueued.drop (k+j) := by
    rw [hwindow',hwindow,henq,←List.drop_append_of_le_length hklen,List.drop_drop]
  exact {
    connected := hstep.connected
    delivered := by
      rw [henq]
      exact h.delivered.trans (List.prefix_append _ _)
    acked := by
      refine ⟨k+j,hkj,hlist,by push_cast; omega,fun he => ?_⟩
      have h1 := hest (hstep.stays he)
      have h2 := hest' he
      push_cast
      omega
    closedEnd := by
      intro hne hopen
      have hmoved : moved=[] := by
        by_contra hm
        exact hne (hstep.moved_established hm)
      rw [henq,hmoved,List.append_nil]
      rcases hstep.ends hne hopen with ⟨h1,h2,h3⟩|h3
      · have := h.closedEnd h1 h2
        omega
      · rw [hwindow,List.length_drop] at h3
        omega
    expected := h.expected
    window := by
      intro he
      rw [henq]
      exact (h.window he).append moved
    unaccepted := h.unaccepted
    data := by
      intro p hp d hd hne
      rw [hem,List.mem_append] at hp
      rcases hp with hp|hp
      · obtain ⟨i,hi,hseq,hseg⟩ := h.data p hp d hd hne
        rw [henq]
        exact ⟨i,hi.trans (by simp),hseq,hseg.append moved hi⟩
      · obtain ⟨he,hseq,hfront⟩ := (hstep.emits p hp).data d hd hne
        refine ⟨k+j,?_,?_,?_⟩
        · rw [henq,List.length_append]
          exact hkj.trans (h.delivered.length_le.trans (Nat.le_add_right _ _))
        · have h1 := hest (hstep.stays he)
          have h2 := hest' he
          push_cast
          omega
        · rw [SegmentOf,←hlist]
          exact hfront
    fins := by
      intro p hp hfin
      rw [hem,List.mem_append] at hp
      rcases hp with hp|hp
      · exact fun he => h.fins p hp hfin (hstep.stays he)
      · exact (hstep.emits p hp).fin hfin
    acks := h.acks
    acceptedFins := by
      intro a ha
      obtain ⟨hfin,q,hq,hqa⟩ := h.acceptedFins a ha
      exact ⟨hfin,q,by rw [hsent]; exact List.mem_append_left _ hq,hqa⟩
    sent := by
      intro p hp
      rw [hsent,List.mem_append] at hp
      rw [hem,List.mem_append]
      exact hp.imp (h.sent p) (hsub p)}

/-- A step of the receiver keeps the direction. -/
theorem Flow.receiver {base : ℤ} {snd rcv rcv' : Endpoint} {input : Option TCPPacket}
    (h : Flow base snd rcv) (hm : Moves rcv rcv' input)
    (hin : ∀ p,input=some p → ∃ q∈snd.sent,p=asReceived q) : Flow base snd rcv' := by
  obtain ⟨moved,written,out,sent,hstep,_,_,hdel,hem,_,hacc⟩ := hm
  generalize input.any (acceptsFin rcv.socket)=accepts at hstep hacc
  have hgrow : rcv.delivered.length ≤ rcv'.delivered.length := by simp [hdel]
  have hprefix : rcv'.delivered<+:snd.enqueued := by
    rw [hdel]
    by_cases hw : written=[]
    · rw [hw,List.append_nil]
      exact h.delivered
    · have he := hstep.written_established hw
      exact (hstep.deliver he base _ _ h.delivered (h.expected (h.unaccepted he)) (h.window he)
        (h.arriving hin)).1
  have hrefused : rcv'.accepted=[] → accepts=false ∧ rcv.accepted=[] := by
    intro hnil
    rw [hacc,List.append_eq_nil_iff] at hnil
    refine ⟨?_,hnil.1⟩
    by_contra ha
    rw [Bool.not_eq_false] at ha
    obtain ⟨p,hp,_⟩ := hstep.accepts_input ha
    simp [ha,hp] at hnil
  have hexpected : rcv'.accepted=[] →
      rcv'.socket.seqOfFirstRecvWindow=base+rcv'.delivered.length := by
    intro hnil
    obtain ⟨ha,hnil⟩ := hrefused hnil
    have h1 := hstep.recv ha
    have h2 := h.expected hnil
    rw [hdel,List.length_append]
    push_cast
    omega
  exact {
    connected := h.connected
    delivered := hprefix
    acked := by
      obtain ⟨k,hk,hrest⟩ := h.acked
      exact ⟨k,hk.trans hgrow,hrest⟩
    closedEnd := h.closedEnd
    expected := hexpected
    window := by
      intro he'
      have he := hstep.stays he'
      rw [hdel]
      exact (hstep.deliver he base _ _ h.delivered (h.expected (h.unaccepted he)) (h.window he)
        (h.arriving hin)).2 he'
    unaccepted := by
      intro he'
      have ha : ¬accepts=true := fun ha => hstep.accepts_leaves ha he'
      rw [hacc,if_neg ha,List.append_nil]
      exact h.unaccepted (hstep.stays he')
    data := h.data
    fins := h.fins
    acks := by
      intro hnil p hp
      have hlen := hexpected hnil
      rw [hem,List.mem_append] at hp
      rcases hp with hp|hp
      · have := h.acks (hrefused hnil).2 p hp
        omega
      · rw [(hstep.emits p hp).ack,hlen]
    acceptedFins := by
      intro a ha
      rw [hacc,List.mem_append] at ha
      rcases ha with ha|ha
      · exact h.acceptedFins a ha
      · split at ha
        · next haccepts =>
          obtain ⟨p,hp,hfin⟩ := hstep.accepts_input haccepts
          obtain ⟨q,hq,hpq⟩ := hin p hp
          obtain rfl : a=(rcv.socket.state,p) := by simpa [hp] using ha
          exact ⟨hfin,q,hq,hpq⟩
        · simp at ha
    sent := h.sent}

/-- Both directions of the connection, each from its own first number. -/
def BothDirections (base : Side → ℤ) (world : World) : Prop :=
  ∀ side,Flow (base side) (world side) (world side.other)

/-- Both directions hold at an aligned start. -/
theorem bothDirections_of_aligned {world : World} (h : Aligned world) :
    BothDirections (fun side => (world side).socket.seqOfFirstSendWindow) world := by
  intro side
  obtain ⟨henq,_,hem,hsent,_⟩ := h.history side
  obtain ⟨_,hdel,hem',_,hacc⟩ := h.history side.other
  exact {
    connected := by
      rw [Connected,h.established side]
      decide
    delivered := by rw [hdel]; exact List.nil_prefix
    acked := ⟨0,Nat.zero_le _,by rw [h.sendWindow,henq]; rfl,by simp,by simp⟩
    closedEnd := fun hne => absurd (h.established side) hne
    expected := fun _ => by rw [h.expected,hdel]; simp
    window := by
      intro _ i hi
      rw [h.recvWindow] at hi
      cases hi
    unaccepted := fun _ => hacc
    data := by simp [hem]
    fins := by simp [hem]
    acks := by simp [hem']
    acceptedFins := by simp [hacc]
    sent := by simp [hsent]}

/-- Every step keeps both directions. -/
theorem BothDirections.step {base : Side → ℤ} {world : World} (h : BothDirections base world)
    (action : Action) : BothDirections base (world.step action) := by
  rcases step_cases (fun side => (h side).connected) action with hsame|⟨side,after,input,hw,hm,hin⟩
  · rwa [hsame]
  · rw [hw]
    intro other
    by_cases ho : other=side
    · subst ho
      rw [Function.update_self,Function.update_of_ne (Side.other_ne other)]
      refine (h other).sender hm (fun p hp => ?_)
      obtain ⟨_,q,hq,rfl⟩ := hin p hp
      exact ⟨q,(h other.other).sent q hq,rfl⟩
    · obtain rfl : other.other=side := by
        cases other <;> cases side <;> simp_all [Side.other]
      rw [Function.update_of_ne ho,Function.update_self]
      refine (h other).receiver hm (fun p hp => ?_)
      rw [Side.other_other] at hin
      exact (hin p hp).2

/-- Both directions hold in every state of every run from an aligned start. -/
theorem run_bothDirections {world : World} (h : Aligned world) (actions : List Action) :
    EachState World.step (BothDirections fun side => (world side).socket.seqOfFirstSendWindow)
      world actions :=
  eachState_of_invariant (fun _ action hf => hf.step action) (bothDirections_of_aligned h) actions

end NetworkLayer.Flows
