import NetworkLayer.Flows
import NetworkLayer.NumberMoves
import NetworkLayer.StreamBarriers
import NetworkLayer.TcpCodec

/-!
# Where a stream stops

Bytes leave the send window from its front only, as strings, and a packet
whose data start with a digit may not be read back. So a NUL stops its
direction for good, and so do digits that are too many to stand behind
another byte in one packet. Both are barriers that hold in every run.
-/

namespace NetworkLayer.StreamWalls

open ByteStrings ArrayQueue DecimalWords FormattedText UtilTypes FifoUtils TcpPackets TcpCodec
open PacketHandlers SocketPasses SocketSteps StepRuns WindowedStreams StreamBarriers Endpoints
open Flows NumberMoves

/-- The bytes before the first NUL. -/
def beforeNul (bytes : List Byte) : List Byte := beforeMark (fun b => b==queueEmptyElement) bytes

/-- A NUL is in no packet's data. -/
def nulBarrier : Barrier Byte := markBarrier fun b => b==queueEmptyElement

/-- And where numbers are short, a packet's data do not start with a digit. -/
def digitBarrier : Barrier Byte :=
  stickBarrier (fun b => b==queueEmptyElement) isDigit maxDataPerPacket

/-- Behind a barrier nothing of a direction is known to its receiver, and no
packet starts there. -/
structure Walled (barrier : Barrier Byte) (base : ℤ) (snd rcv : Endpoint) : Prop where
  /-- What was delivered passed the barrier. -/
  delivered : rcv.delivered<+:barrier.passed snd.enqueued
  /-- What waits in the receive window passed it. -/
  window : rcv.socket.state=.established →
    Agrees (barrier.passed snd.enqueued) rcv.delivered.length rcv.socket.recvWindow
      rcv.socket.recvWindowIsvalid
  /-- Data ever emitted start before it, or at it. -/
  data : ∀ p∈snd.emitted,∀ d,p.data=some d → d.chars≠[] →
    ∃ k ≤ (barrier.passed snd.enqueued).length,p.seqNum=base+(k : ℕ) ∧
      SegmentOf snd.enqueued k d.chars

variable {barrier : Barrier Byte} {base : ℤ} {snd rcv : Endpoint}

/-- A step of the sender keeps the barrier. -/
theorem Walled.sender {snd' : Endpoint} {input : Option TCPPacket}
    (h : Walled barrier base snd rcv) (hf' : Flow base snd' rcv) (hm : Moves snd snd' input) :
    Walled barrier base snd' rcv := by
  obtain ⟨moved,written,out,sent,hstep,_,henq,_,hem,_,_⟩ := hm
  have hgrows : barrier.passed snd.enqueued<+:barrier.passed snd'.enqueued := by
    rw [henq]
    exact barrier.grows _ _
  have hdelivered : rcv.delivered<+:barrier.passed snd'.enqueued := h.delivered.trans hgrows
  exact {
    delivered := hdelivered
    window := by
      intro he
      obtain ⟨more,hmore⟩ := hgrows
      rw [←hmore]
      exact (h.window he).append more
    data := by
      intro p hp d hd hne
      rw [hem,List.mem_append] at hp
      rcases hp with hp|hp
      · obtain ⟨k,hk,hseq,hseg⟩ := h.data p hp d hd hne
        rw [henq]
        refine ⟨k,hk.trans ?_,hseq,hseg.append moved (hk.trans (barrier.length_le _))⟩
        rw [←henq]
        exact hgrows.length_le
      · -- new data start where the window starts: at most behind what was delivered
        obtain ⟨he,hseq,hfront⟩ := (hstep.emits p hp).data d hd hne
        obtain ⟨k,hk,hwindow,_,hest⟩ := hf'.acked
        exact ⟨k,hk.trans hdelivered.length_le,hseq.trans (hest he),by
          rw [SegmentOf,←hwindow]
          exact hfront⟩}

/-- A step of the receiver keeps the barrier, when what arrives gets through. -/
theorem Walled.receiver {rcv' : Endpoint} {input : Option TCPPacket}
    (h : Walled barrier base snd rcv) (hf : Flow base snd rcv) (hm : Moves rcv rcv' input)
    (hin : ∀ p,input=some p → ∃ q∈snd.sent,p=asReceived q ∧
      ∀ d,p.data=some d → barrier.fits d.chars) : Walled barrier base snd rcv' := by
  obtain ⟨moved,written,out,sent,hstep,_,_,hdel,_,_,_⟩ := hm
  have harriving : ∀ p d,input=some p → p.data=some d → ∃ k : ℕ,p.seqNum=base+k ∧
      ∀ i b,d.chars[i]?=some b → (barrier.passed snd.enqueued)[k+i]?=some b := by
    intro p d hp hd
    obtain ⟨q,hq,rfl,hfits⟩ := hin p hp
    have hd' := hd
    simp only [asReceived,Option.filter_eq_some_iff] at hd'
    have hne : d.chars≠[] := by
      intro he
      simp [CString.strlen,he] at hd'
    obtain ⟨k,hk,hseq,hseg⟩ := h.data q (hf.sent q hq) d hd'.1 hne
    exact ⟨k,hseq,fun i b hi => (barrier.segment hk (hfits d hd) hseg).getElem? hi⟩
  have hdeliver : rcv.socket.state=.established →
      rcv.delivered++written<+:barrier.passed snd.enqueued ∧
        (rcv'.socket.state=.established → Agrees (barrier.passed snd.enqueued)
          (rcv.delivered++written).length rcv'.socket.recvWindow rcv'.socket.recvWindowIsvalid) :=
    fun he => hstep.deliver he base _ _ h.delivered (hf.expected (hf.unaccepted he)) (h.window he)
      harriving
  exact {
    delivered := by
      rw [hdel]
      by_cases hw : written=[]
      · rw [hw,List.append_nil]
        exact h.delivered
      · exact (hdeliver (hstep.written_established hw)).1
    window := by
      intro he'
      rw [hdel]
      exact (hdeliver (hstep.stays he')).2 he'
    data := h.data}

/-- Both directions are walled. -/
def BothWalled (barrier : Barrier Byte) (base : Side → ℤ) (world : World) : Prop :=
  BothDirections base world ∧
    ∀ side,Walled barrier (base side) (world side) (world side.other)

/-- Both directions are walled at an aligned start. -/
theorem bothWalled_of_aligned (barrier : Barrier Byte) {world : World} (h : Aligned world) :
    BothWalled barrier (fun side => (world side).socket.seqOfFirstSendWindow) world := by
  refine ⟨bothDirections_of_aligned h,fun side => ?_⟩
  obtain ⟨_,_,hem,_,_⟩ := h.history side
  obtain ⟨_,hdel,_,_,_⟩ := h.history side.other
  exact {
    delivered := by
      rw [hdel]
      exact List.nil_prefix
    window := by
      intro _ i hi
      rw [h.recvWindow] at hi
      cases hi
    data := by simp [hem]}

/-- What arrives gets through. -/
def Through (barrier : Barrier Byte) (world : World) (action : Action) : Prop :=
  ∀ side p d,Receives world action side p → p.data=some d → barrier.fits d.chars

/-- Every step on which what arrives gets through keeps the walls. -/
theorem BothWalled.step {base : Side → ℤ} {world : World} (h : BothWalled barrier base world)
    {action : Action} (hthrough : Through barrier world action) :
    BothWalled barrier base (world.step action) := by
  obtain ⟨hf,hwalled⟩ := h
  have hf' := hf.step action
  refine ⟨hf',?_⟩
  rcases step_cases (fun side => (hf side).connected) action with hsame|⟨side,after,input,hw,hm,hin⟩
  · rwa [hsame]
  intro other
  have hflow := hf' other
  by_cases ho : other=side
  · subst ho
    rw [hw,Function.update_self,Function.update_of_ne (Side.other_ne other)] at hflow ⊢
    exact (hwalled other).sender hflow hm
  · obtain rfl : other.other=side := by
      cases other <;> cases side <;> simp_all [Side.other]
    rw [hw,Function.update_of_ne ho,Function.update_self]
    refine (hwalled other).receiver (hf other) hm (fun p hp => ?_)
    obtain ⟨hreceives,q,hq,hpq⟩ := hin p hp
    rw [Side.other_other] at hq
    exact ⟨q,hq,hpq,fun d hd => hthrough _ p d hreceives hd⟩

/-- Nothing is stopped by the NULs' barrier: no packet's data contain one. -/
theorem through_nulBarrier (world : World) (action : Action) :
    Through nulBarrier world action := by
  intro side p d _ _ b hb
  rw [beq_eq_false_iff_ne]
  rintro rfl
  exact d.nulFree hb

/-- In every run, whatever is lost, repeated or reordered and whoever closes,
nothing from the first NUL on is ever delivered, and it never leaves the send
window. -/
theorem nul_wall {world : World} (h : Aligned world) (actions : List Action) :
    EachState World.step (fun world => ∀ side,
      (world side.other).delivered<+:beforeNul (world side).enqueued ∧
      (world side).enqueued.drop (beforeNul (world side).enqueued).length<:+
        (world side).socket.sendWindow.toList) world actions := by
  refine eachState_imp (P:=BothWalled nulBarrier fun side =>
    (world side).socket.seqOfFirstSendWindow) ?_ (eachState_of_invariant ?_
      (bothWalled_of_aligned nulBarrier h) actions)
  · rintro world ⟨hf,hwalled⟩ side
    have hdelivered := (hwalled side).delivered
    obtain ⟨k,hk,hwindow,_⟩ := (hf side).acked
    have hle : k ≤ (beforeNul (world side).enqueued).length := hk.trans hdelivered.length_le
    refine ⟨hdelivered,?_⟩
    rw [hwindow,←Nat.add_sub_of_le hle,←List.drop_drop]
    exact List.drop_suffix _ _
  · exact fun world action hb => hb.step (through_nulBarrier world action)

/-- A NUL that enters the window at its front. -/
theorem nul_wall_start :
    EachState World.step (fun world => ∀ side,
      (world side.other).delivered<+:beforeNul (world side).enqueued ∧
      (world side).enqueued.drop (beforeNul (world side).enqueued).length<:+
        (world side).socket.sendWindow.toList) startWorld
      [.statusMessages .left (smoothEnv 5000000 (some [0])),
        .statusMessages .left (smoothEnv 5000000 (some [120])),
        .sendWindow .left (smoothEnv 5000000 none),arrives .right 0 (smoothEnv 5000000 none)] :=
  nul_wall startWorld_aligned _

/-- The data of a packet are no longer than a packet takes. -/
theorem payload_length_le (q : Queue) :
    (getNextSocketPacketData q).1.chars.length ≤ maxDataPerPacket := by
  rw [(getNextSocketPacketData_spec q).1]
  exact (List.takeWhile_prefix _).length_le.trans (List.length_take_le _ _)

/-- A packet as a connected socket hands it to the network. -/
structure Handed (s : Socket) (p : TCPPacket) : Prop where
  /-- Its data are no longer than a packet takes. -/
  data : ∃ d,p.data=some d ∧ d.chars.length ≤ maxDataPerPacket
  /-- It comes from the socket's port. -/
  port : p.srcPort=s.id.srcPort
  /-- While the connection is established, it is an ACK. -/
  flags : s.state=.established → p.flags=ackFlag

theorem reply_handed {env : Env} {manager : NetworkManager} {s : Socket} {packet r : TCPPacket}
    {srcIp : CString} (hl : s.state≠.listen)
    (hr : (handlePacket env manager s packet srcIp).reply=some r) : Handed s r := by
  have hport := ((handlePacket_numbers env manager packet srcIp hl).built r
    (Option.mem_toList.mpr hr)).ports.1
  rcases handlePacket_reply_cases hr with ⟨hstate,_⟩|⟨_,rfl,_⟩
  · exact absurd hstate hl
  · exact ⟨⟨CString.empty,rfl,Nat.zero_le _⟩,hport,fun _ => rfl⟩

theorem sendWindow_handed (env : Env) (s : Socket) :
    ∀ p∈(checkAndHandleSendWindow env s).attempts.map Prod.fst,Handed s p := by
  intro p hp
  unfold checkAndHandleSendWindow at hp
  split at hp
  · simp [idle] at hp
  split at hp
  · obtain rfl := List.mem_singleton.mp hp
    exact ⟨⟨_,rfl,payload_length_le _⟩,rfl,fun _ => rfl⟩
  · simp [idle] at hp

theorem status_handed {s : Socket} {p : TCPPacket} (h : StatusPacket s p) : Handed s p := by
  have hempty : ∃ d,some CString.empty=some d ∧ d.chars.length ≤ maxDataPerPacket :=
    ⟨CString.empty,rfl,Nat.zero_le _⟩
  cases h with
  | syn hstate | synAck hstate | fin hstate | finAck hstate =>
    exact ⟨hempty,rfl,fun he => by simp [hstate] at he⟩
  | reset hstate =>
    refine ⟨hempty,rfl,fun he => ?_⟩
    rcases hstate with hs|hs <;> simp [hs] at he

theorem statusMessages_handed (env : Env) (s : Socket) :
    ∀ p∈(checkAndHandleOutgoingStatusMessages env s).attempts.map Prod.fst,Handed s p := by
  intro p hp
  have houtcome := checkAndHandleOutgoingStatusMessages_outcome env s
  generalize checkAndHandleOutgoingStatusMessages env s=passed at houtcome hp
  cases houtcome with
  | sends _ _ hpackets | timedOut _ _ _ hpackets => exact status_handed (hpackets p hp)
  | moves | finishes | expires => simp [idle] at hp

/-- Everything an end emits in a step. -/
theorem emitted_cases {world : World} (hc : ∀ side,Connected (world side).socket.state)
    (action : Action) (side : Side) {p : TCPPacket} (hp : p∈(world.step action side).emitted) :
    p∈(world side).emitted ∨ Handed (world side).socket p := by
  have hupdate : ∀ (actor : Side) (after : Endpoint) (out : List TCPPacket),
      after.emitted=(world actor).emitted++out → (∀ p∈out,Handed (world actor).socket p) →
      p∈(Function.update world actor after side).emitted →
      p∈(world side).emitted ∨ Handed (world side).socket p := by
    intro actor after out hafter hout hp
    by_cases ha : side=actor
    · subst ha
      rw [Function.update_self,hafter,List.mem_append] at hp
      exact hp.imp_right (hout p)
    · rw [Function.update_of_ne ha] at hp
      exact Or.inl hp
  cases action with
  | receive actor index env manager =>
    cases hpacket : (world actor.other).sent[index]? with
    | none =>
      simp only [World.step,hpacket] at hp
      exact Or.inl hp
    | some packet =>
      simp only [World.step,hpacket] at hp
      exact hupdate actor _ _ rfl
        (fun r hr => reply_handed (hc actor).1 (Option.mem_toList.mp hr)) hp
  | sendWindow actor env => exact hupdate actor _ _ rfl (sendWindow_handed env _) hp
  | statusMessages actor env => exact hupdate actor _ _ rfl (statusMessages_handed env _) hp
  | close actor env =>
    exact hupdate actor ((world actor).close env) [] (List.append_nil _).symm (by simp) hp

/-- A packet that every libc reads back has its checksum apart from its data. -/
theorem apart_of_roundTrips {p : TCPPacket} {d : CString} (h : Printable p)
    (hdata : p.data=some d) (hall : ∀ libc,RoundTrips libc p) : ChecksumApart p d := by
  by_contra hnot
  obtain ⟨decoded,hdecoded,rfl,hsum⟩ := hall ⟨fun _ => -1,fun _ => by decide⟩
  have hown : p.checksum=calcChecksum p := hsum.symm
  have hlt := lt_of_not_checksumApart h hown hnot
  have hpos := h.checksum_int
  rw [strToTcp_tcpToStr _ h hown hdata,Option.some.injEq] at hdecoded
  have hstored := congrArg TCPPacket.checksum hdecoded
  simp only [storeInt,asReceived] at hstored
  split at hstored <;> omega

/-- What arrives has a checksum that leaves room in its field, and is read back
by every libc. -/
def ShortArrivals (world : World) (action : Action) : Prop :=
  ∀ side index env manager,action=.receive side index env manager →
    ∀ q,(world side.other).sent[index]?=some q →
      Printable q ∧ q.checksum < 10^9 ∧ ∀ libc,RoundTrips libc q

/-- Both directions are walled, and all packets have the size of one. -/
def SizedWalled (base : Side → ℤ) (world : World) : Prop :=
  BothWalled digitBarrier base world ∧ ∀ side,∀ p∈(world side).emitted,∃ d,
    p.data=some d ∧ d.chars.length ≤ maxDataPerPacket

/-- What arrives with short numbers gets through the digits' barrier. -/
theorem SizedWalled.through {base : Side → ℤ} {world : World} (h : SizedWalled base world)
    {action : Action} (hshort : ShortArrivals world action) :
    Through digitBarrier world action := by
  rintro side p d ⟨index,env,manager,rfl,hinput⟩ hd
  obtain ⟨q,hq,rfl⟩ := Option.map_eq_some_iff.mp hinput
  obtain ⟨hprintable,hsum,hall⟩ := hshort side index env manager rfl q hq
  simp only [asReceived,Option.filter_eq_some_iff] at hd
  obtain ⟨d',hd',hsize⟩ := h.2 side.other q ((h.1.1 side.other).sent q (List.mem_of_getElem? hq))
  obtain rfl : d=d' := Option.some.inj (hd.1.symm.trans hd')
  refine ⟨fun b hb => ?_,hsize,fun b hb => ?_⟩
  · rw [beq_eq_false_iff_ne]
    rintro rfl
    exact d.nulFree hb
  · exact ((apart_of_roundTrips hprintable hd' hall).resolve_left (by omega)) b hb

/-- While the checksums of the packets that arrive are shorter than their
field, a digit is delivered only if a byte that is none was delivered with it
or before it, less than a packet's data away: more digits in a row than that
are never passed. -/
theorem digit_wall {world : World} (h : Aligned world) {actions : List Action}
    (hshort : EachStep World.step ShortArrivals world actions) :
    EachState World.step (fun world => ∀ (side : Side) (i : ℕ),
      i < (world side.other).delivered.length →
      ∃ k ≤ i,i < k+maxDataPerPacket ∧
        ∃ b,(world side.other).delivered[k]?=some b ∧ isDigit b=false) world actions := by
  refine eachState_imp (P:=SizedWalled fun side => (world side).socket.seqOfFirstSendWindow) ?_
    (eachState_of_guarded ?_ ⟨bothWalled_of_aligned digitBarrier h,fun side => ?_⟩ hshort)
  · rintro world ⟨⟨_,hwalled⟩,_⟩ side i hi
    obtain ⟨rest,hrest⟩ := (hwalled side).delivered
    have hlen : i < (digitBarrier.passed (world side).enqueued).length := by
      rw [←hrest,List.length_append]
      omega
    have hpos : 0 < maxDataPerPacket := by decide
    rcases covered_of_passable _ _ _ hpos hlen with h0|⟨k,hk,hlt,b,hb,hdigit⟩
    · omega
    · refine ⟨k,hk,hlt,b,?_,hdigit⟩
      have hdel : (world side.other).delivered<+:(world side).enqueued :=
        (hwalled side).delivered.trans (digitBarrier.passed_prefix _)
      obtain ⟨more,hmore⟩ := hdel
      rwa [←hmore,List.getElem?_append_left (by omega)] at hb
  · intro world action hb hc
    refine ⟨hb.1.step (hb.through hc),fun side p hp => ?_⟩
    rcases emitted_cases (fun side => (hb.1.1 side).connected) action side hp with hold|hnew
    · exact hb.2 side p hold
    · exact hnew.data
  · obtain ⟨_,_,hem,_,_⟩ := h.history side
    simp [hem]

/-- A letter and a digit behind it arrive in one packet. -/
theorem digit_wall_letter :
    let env := smoothEnv 5000000 (some [120])
    let digit := smoothEnv 5000000 (some [53])
    EachState World.step (fun world => ∀ (side : Side) (i : ℕ),
      i < (world side.other).delivered.length →
      ∃ k ≤ i,i < k+maxDataPerPacket ∧
        ∃ b,(world side.other).delivered[k]?=some b ∧ isDigit b=false) startWorld
      [.statusMessages .left env,.statusMessages .left digit,.sendWindow .left env,
        arrives .right 0 env] := by
  intro env digit
  refine digit_wall startWorld_aligned ⟨?_,?_,?_,?_,trivial⟩
  all_goals rintro side index env' manager heq q hq
  · cases heq
  · cases heq
  · cases heq
  · obtain ⟨rfl,rfl,_,_⟩ := Action.receive.inj heq
    obtain rfl : constructPacket (startSocket 8080 8081 1000 5000) ⟨[120,53],by decide⟩ ackFlag
        8081=q := Option.some.inj hq
    have hprintable : Printable (constructPacket (startSocket 8080 8081 1000 5000)
        ⟨[120,53],by decide⟩ ackFlag 8081) :=
      ⟨by decide,by decide,by decide,by decide,by decide,by decide⟩
    refine ⟨hprintable,by decide,fun libc => ⟨_,strToTcp_of_apart libc hprintable rfl rfl ?_,
      rfl,rfl⟩⟩
    exact Or.inr (by decide +kernel)

end NetworkLayer.StreamWalls
