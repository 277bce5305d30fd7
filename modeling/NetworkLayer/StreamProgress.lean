import NetworkLayer.StreamWalls

/-!
# Delivery stays possible

As long as no user closes, nothing that was lost, repeated or reordered can
keep a direction from completing: from every state three steps, a packet, its
arrival and its acknowledgement, take the front of the send window further,
until it stands at the first NUL or nothing is left. Packets are read back
from the wire all the way, if their numbers fit and no digit sticks.
-/

namespace NetworkLayer.StreamProgress

open ByteStrings ArrayQueue DecimalWords FormattedText UtilTypes FifoUtils TcpPackets TcpCodec
open PacketHandlers SocketPasses SocketSteps StepRuns WindowedStreams StreamBarriers Endpoints
open Flows StreamWalls

/-- The action is a close command. -/
def closes : Action → Bool
  | .close _ _ => true
  | _ => false

/-- Each end's partner port is the port of the other end. -/
def Paired (world : World) : Prop :=
  ∀ side,(world side.other).socket.id.dstPort=(world side).socket.id.srcPort

/-- Both ends are established and have only sent ACKs so far. -/
structure Open (base : Side → ℤ) (world : World) : Prop where
  /-- Both directions are sound, and walled at their first NUL. -/
  walled : BothWalled nulBarrier base world
  /-- Both ends are established. -/
  established : ∀ side,(world side).socket.state=.established
  /-- The ports are each other's. -/
  paired : Paired world
  /-- All packets ever sent are ACKs from the right port. -/
  acks : ∀ side,∀ p∈(world side).emitted,
    p.flags=ackFlag ∧ p.srcPort=(world side).socket.id.srcPort

/-- What arrives at an open end is handled by the established state. -/
theorem handlePacket_of_ack (env : Env) (manager : NetworkManager) {s : Socket} {p : TCPPacket}
    (srcIp : CString) (hs : s.state=.established) (hflags : p.flags=ackFlag)
    (hport : p.srcPort=s.id.dstPort) :
    handlePacket env manager s p srcIp=handlePacketEstablished env manager s p ∧
      p.has synFlag=false ∧ p.has finFlag=false ∧ p.has ackFlag=true := by
  have hrst : p.has rstFlag=false := by
    rw [TCPPacket.has,hflags]
    decide
  refine ⟨?_,?_,?_,?_⟩
  · rw [handlePacket,if_neg (by simp [hrst]),if_neg (by simp [hport]),hs]
  all_goals
    rw [TCPPacket.has,hflags]
    decide

/-- What an end keeps while it is open. -/
def Keeps (s s' : Socket) : Prop := s'.state=.established ∧ s'.id=s.id

theorem handlePacket_keeps (env : Env) (manager : NetworkManager) {s : Socket} {p : TCPPacket}
    (srcIp : CString) (hs : s.state=.established) (hflags : p.flags=ackFlag)
    (hport : p.srcPort=s.id.dstPort) :
    Keeps s ((handlePacket env manager s p srcIp).afterReply env) := by
  obtain ⟨hhandled,_,hfin,_⟩ := handlePacket_of_ack env manager srcIp hs hflags hport
  obtain ⟨_,_,_,hframe⟩ := handlePacketEstablished_frame env manager s hfin
  obtain ⟨_,_,hacked,_⟩ := acknowledged_cases
    (p.has synFlag=false ∧ p.has ackFlag=true) p.ackNum s
  have hkeeps : Keeps s (handlePacketEstablished env manager s p).socket := by
    rw [hframe,hacked]
    exact ⟨hs,rfl⟩
  rw [hhandled]
  unfold Handled.afterReply
  split
  · exact hkeeps
  · exact hkeeps

theorem sendWindow_keeps (env : Env) {s : Socket} (hs : s.state=.established) :
    Keeps s (checkAndHandleSendWindow env s).socket := by
  rcases checkAndHandleSendWindow_cases env s with he|⟨_,_,_,_,_,_,he⟩
  all_goals
    rw [he]
    exact ⟨hs,rfl⟩

theorem statusMessages_keeps (env : Env) {s : Socket} (hs : s.state=.established) :
    Keeps s (checkAndHandleOutgoingStatusMessages env s).socket := by
  have houtcome := checkAndHandleOutgoingStatusMessages_outcome env s
  generalize checkAndHandleOutgoingStatusMessages env s=passed at houtcome ⊢
  cases houtcome with
  | sends | moves => exact ⟨hs,rfl⟩
  | timedOut hstate => rcases hstate with h|h <;> simp [h] at hs
  | finishes hstate | expires hstate => simp [hstate] at hs

/-- Every step without a close command keeps both ends. -/
theorem Open.keeps {base : Side → ℤ} {world : World} (h : Open base world) {action : Action}
    (hno : closes action=false) (side : Side) :
    Keeps (world side).socket (world.step action side).socket := by
  have hsame : Keeps (world side).socket (world side).socket := ⟨h.established side,rfl⟩
  have hupdate : ∀ (actor : Side) (after : Endpoint),Keeps (world actor).socket after.socket →
      Keeps (world side).socket (Function.update world actor after side).socket := by
    intro actor after hafter
    by_cases ha : side=actor
    · subst ha
      rwa [Function.update_self]
    · rwa [Function.update_of_ne ha]
  cases action with
  | receive actor index env manager =>
    cases hpacket : (world actor.other).sent[index]? with
    | none =>
      simp only [World.step,hpacket]
      exact hsame
    | some q =>
      have hsent := (h.walled.1 actor.other).sent q (List.mem_of_getElem? hpacket)
      obtain ⟨hflags,hport⟩ := h.acks actor.other q hsent
      simp only [World.step,hpacket]
      refine hupdate actor _ (handlePacket_keeps env manager _ (h.established actor) hflags ?_)
      have hpaired := h.paired actor.other
      rw [Side.other_other] at hpaired
      exact hport.trans hpaired.symm
  | sendWindow actor env => exact hupdate actor _ (sendWindow_keeps env (h.established actor))
  | statusMessages actor env =>
    exact hupdate actor _ (statusMessages_keeps env (h.established actor))
  | close actor env => cases hno

/-- And the ends stay open. -/
theorem Open.step {base : Side → ℤ} {world : World} (h : Open base world) {action : Action}
    (hno : closes action=false) : Open base (world.step action) where
  walled := h.walled.step (through_nulBarrier world action)
  established := fun side => (h.keeps hno side).1
  paired := by
    intro side
    rw [(h.keeps hno side).2,(h.keeps hno side.other).2]
    exact h.paired side
  acks := by
    intro side p hp
    rw [(h.keeps hno side).2]
    rcases emitted_cases (fun side => (h.walled.1 side).connected) action side hp with hold|hnew
    · exact h.acks side p hold
    · exact ⟨hnew.flags (h.established side),hnew.port⟩

/-- The streams of both ends and their ports, which no packet changes. -/
def SameStreams (world after : World) : Prop :=
  ∀ side,(after side).enqueued=(world side).enqueued ∧
    (after side).socket.id=(world side).socket.id

/-- The numbers of the connection are `int`s, and so is every checksum; where
checksums may be shorter than their field, no digit comes before the first
NUL. -/
structure Fits (base : Side → ℤ) (world : World) : Prop where
  /-- Proper ports. -/
  ports : ∀ side,1 ≤ (world side).socket.id.srcPort ∧ (world side).socket.id.srcPort ≤ 65535
  /-- Numbers start at zero or above. -/
  low : ∀ side,0 ≤ base side
  /-- All numbers of both directions fit together. -/
  high : ∀ side,base side+(world side).enqueued.length+
    (base side.other+(world side.other).enqueued.length)+
    (world side).socket.id.srcPort+(world side.other).socket.id.srcPort < intMax
  /-- No packet's data are taken for digits of its checksum. -/
  apart : ∀ side,10^9 ≤ base side+base side.other ∨
    ∀ b∈beforeNul (world side).enqueued,isDigit b=false

theorem Fits.of_same {base : Side → ℤ} {world after : World} (h : Fits base world)
    (hsame : SameStreams world after) : Fits base after where
  ports := by
    intro side
    rw [(hsame side).2]
    exact h.ports side
  low := h.low
  high := by
    intro side
    rw [(hsame side).1,(hsame side).2,(hsame side.other).1,(hsame side.other).2]
    exact h.high side
  apart := by
    intro side
    rw [(hsame side).1]
    exact h.apart side

/-- What is sent at this moment would be read back by every libc. -/
theorem roundTrips_of_fits {base : Side → ℤ} {world : World} (h : Open base world)
    (hfits : Fits base world) (side : Side) {d : CString}
    (hhead : ∀ b,d.chars.head?=some b → b∈beforeNul (world side).enqueued) (libc : Libc) :
    RoundTrips libc (constructPacket (world side).socket d ackFlag
      (world side).socket.id.dstPort) := by
  obtain ⟨hflow,_⟩ := h.walled
  obtain ⟨k,hk,_,_,hfirst⟩ := (hflow side).acked
  have hback := hflow side.other
  have hnext := hback.expected
  rw [Side.other_other] at hnext hback
  replace hfirst := hfirst (h.established side)
  replace hnext := hnext (hback.unaccepted (h.established side))
  have hlen := hk.trans (hflow side).delivered.length_le
  have hlen' := hback.delivered.length_le
  have hpaired := h.paired side.other
  rw [Side.other_other] at hpaired
  have hport := hfits.ports side
  have hport' := hfits.ports side.other
  have hlow := hfits.low side
  have hlow' := hfits.low side.other
  have hhigh := hfits.high side
  have hack : charValue ackFlag=1 := by decide
  have hsum : checksumSum (constructPacket (world side).socket d ackFlag
      (world side).socket.id.dstPort)=(world side).socket.id.srcPort+
        (world side.other).socket.id.srcPort+(base side+k)+
        (base side.other+(world side).delivered.length)+1 := by
    rw [checksumSum]
    simp only [constructPacket,hack,hfirst,hnext,hpaired]
  have hprintable : Printable (constructPacket (world side).socket d ackFlag
      (world side).socket.id.dstPort) := {
    srcPort := hport
    dstPort := by simp only [constructPacket,hpaired]; exact hport'
    seqNum := by simp only [constructPacket,hfirst]; omega
    ackNum := by simp only [constructPacket,hnext]; omega
    flags := by simp only [constructPacket]; decide
    checksum := by rw [hsum]; omega}
  have hown := constructPacket_checksum (world side).socket d ackFlag
    (world side).socket.id.dstPort
  refine ⟨_,strToTcp_of_apart libc hprintable hown rfl ?_,rfl,hown.symm⟩
  rcases hfits.apart side with hlarge|hdigit
  · left
    have hint : intMin ≤ checksumSum (constructPacket (world side).socket d ackFlag
        (world side).socket.id.dstPort) := by
      unfold intMin
      omega
    rw [hown,calcChecksum,wrapInt_of_int hint hprintable.checksum,hsum]
    omega
  · exact Or.inr fun b hb => hdigit b (hhead b hb)

/-- A first cell that is valid is handed over. -/
theorem filled_pos {n : ℕ} {valid : Fin (n+1) → Bool} (h : valid 0=true) : 0 < filled valid := by
  rw [filled,List.finRange_succ,List.takeWhile_cons_of_pos h,List.length_cons]
  exact Nat.succ_pos _

/-- Storing bytes invalidates no cell. -/
theorem storeByte_keeps_valid {seqNum : ℤ} {b : Byte} {s : Socket} {i : Fin maxWindowSize}
    (h : s.recvWindowIsvalid i=true) : (storeByte seqNum b s).recvWindowIsvalid i=true := by
  unfold storeByte
  dsimp only
  split
  · split
    · dsimp only
      by_cases hi : i=⟨(seqNum-s.seqOfFirstRecvWindow).toNat,by omega⟩
      · rw [hi,Function.update_self]
      · rw [Function.update_of_ne hi,h]
    · exact h
  · exact h

theorem storeBytes_keeps_valid {seqNum : ℤ} {bytes : List Byte} {s : Socket}
    {i : Fin maxWindowSize} (h : s.recvWindowIsvalid i=true) :
    (storeBytes seqNum bytes s).recvWindowIsvalid i=true := by
  induction bytes generalizing seqNum s with
  | nil => exact h
  | cons b rest ih => exact ih (storeByte_keeps_valid h)

/-- The byte that is expected next makes the first cell valid. -/
theorem storeByte_first_valid (b : Byte) (s : Socket) :
    (storeByte s.seqOfFirstRecvWindow b s).recvWindowIsvalid 0=true := by
  unfold storeByte
  simp only [Int.sub_self]
  rw [dif_pos (by decide)]
  split
  · show Function.update s.recvWindowIsvalid 0 true 0=true
    rw [Function.update_self]
  · next hvalid => simpa using hvalid

/-- Data with the expected number bring the user at least one byte, if its
fifo takes all there is. -/
theorem receiveNewData_gives {env : Env} {s : Socket} {p : TCPPacket} {d : CString}
    (htaken : env.taken=some maxWindowSize) (hseq : p.seqNum=s.seqOfFirstRecvWindow)
    (hne : d.chars≠[]) : (receiveNewData env s p d).2≠[] := by
  obtain ⟨b,rest,hd⟩ := List.exists_cons_of_ne_nil hne
  have hpos : 0 < filled (storeBytes p.seqNum d.chars s).recvWindowIsvalid := by
    rw [hseq,hd,storeBytes]
    exact filled_pos (storeBytes_keeps_valid (storeByte_first_valid b s))
  have hle := filled_le (storeBytes p.seqNum d.chars s).recvWindowIsvalid
  rw [receiveNewData,updateRecvWindow,writeStringToFifoName,htaken]
  simp only [Option.map_some,Nat.min_eq_right hle]
  intro hnil
  have hlen := congrArg List.length hnil
  rw [List.length_take,List.length_ofFn,List.length_nil] at hlen
  omega

/-- The action is a pass over a send window or the arrival of a packet. -/
def networkOnly : Action → Bool
  | .receive _ _ _ _ => true
  | .sendWindow _ _ => true
  | _ => false

theorem networkOnly_open {action : Action} (h : networkOnly action=true) :
    closes action=false := by
  cases action <;> first | rfl | cases h

/-- What arrives is read back by every libc. -/
def ReadBack (world : World) (action : Action) : Prop :=
  ∀ side index env manager,action=.receive side index env manager →
    ∀ q,(world side.other).sent[index]?=some q → ∀ libc,RoundTrips libc q

/-- The network alone can lead from one world to another. -/
def Leads (world after : World) : Prop :=
  ∃ actions,(∀ action∈actions,networkOnly action=true) ∧
    EachStep World.step ReadBack world actions ∧ run World.step world actions=after

theorem Leads.refl (world : World) : Leads world world := ⟨[],by simp,trivial,rfl⟩

theorem Leads.trans {first second third : World} (h : Leads first second)
    (h' : Leads second third) : Leads first third := by
  obtain ⟨actions,honly,hread,rfl⟩ := h
  obtain ⟨actions',honly',hread',rfl⟩ := h'
  refine ⟨actions++actions',?_,hread.append hread',run_append _ _ _ _⟩
  intro action ha
  exact (List.mem_append.mp ha).elim (honly action) (honly' action)

/-- One such step. -/
theorem Leads.single {world : World} {action : Action} (honly : networkOnly action=true)
    (hread : ReadBack world action) : Leads world (world.step action) :=
  ⟨[action],by simpa using honly,⟨hread,trivial⟩,rfl⟩

/-- On the way the ends stay open, the streams stay the same and no front of a
send window goes back. -/
structure Follows (base : Side → ℤ) (world after : World) : Prop where
  /-- The ends are open. -/
  isOpen : Open base after
  /-- The streams are those of the start. -/
  same : SameStreams world after
  /-- The send windows' first numbers do not go back. -/
  fronts : ∀ side,(world side).socket.seqOfFirstSendWindow ≤
    (after side).socket.seqOfFirstSendWindow

theorem Open.follows_step {base : Side → ℤ} {world : World} (h : Open base world)
    {action : Action} (honly : networkOnly action=true) : Follows base world (world.step action) := by
  have hno := networkOnly_open honly
  refine ⟨h.step hno,fun side => ⟨?_,(h.keeps hno side).2⟩,fun side => ?_⟩
  · have hupdate : ∀ (actor : Side) (after : Endpoint),after.enqueued=(world actor).enqueued →
        (Function.update world actor after side).enqueued=(world side).enqueued := by
      intro actor after hafter
      by_cases ha : side=actor
      · subst ha
        rw [Function.update_self,hafter]
      · rw [Function.update_of_ne ha]
    cases action with
    | receive actor index env manager =>
      cases hpacket : (world actor.other).sent[index]? with
      | none => simp only [World.step,hpacket]
      | some q =>
        simp only [World.step,hpacket]
        exact hupdate actor _ rfl
    | sendWindow actor env =>
      refine hupdate actor _ ?_
      rcases checkAndHandleSendWindow_cases env (world actor).socket with he|⟨_,_,_,_,_,_,he⟩
      all_goals
        rw [he]
        exact List.append_nil _
    | statusMessages | close => cases honly
  · rcases step_cases (fun side => (h.walled.1 side).connected) action with
      hsame|⟨actor,after,input,hw,hm,_⟩
    · rw [hsame]
    · rw [hw]
      by_cases ha : side=actor
      · subst ha
        obtain ⟨moved,written,out,sent,hstep,_⟩ := hm
        obtain ⟨j,_,hle,_⟩ := hstep.window
        rw [Function.update_self]
        omega
      · rw [Function.update_of_ne ha]

/-- So it is on every way. -/
theorem Open.follows {base : Side → ℤ} {world after : World} (h : Open base world)
    (hleads : Leads world after) : Follows base world after := by
  obtain ⟨actions,honly,hread,rfl⟩ := hleads
  clear hread
  induction actions generalizing world with
  | nil => exact ⟨h,fun _ => ⟨rfl,rfl⟩,fun _ => le_rfl⟩
  | cons action rest ih =>
    have hfirst := h.follows_step (honly action List.mem_cons_self)
    have hrest := ih hfirst.isOpen fun a ha => honly a (List.mem_cons_of_mem _ ha)
    exact {
      isOpen := hrest.isOpen
      same := fun side => ⟨(hrest.same side).1.trans (hfirst.same side).1,
        (hrest.same side).2.trans (hfirst.same side).2⟩
      fronts := fun side => (hfirst.fronts side).trans (hrest.fronts side)}

/-- A moment at which the send window's packet is due. -/
def dueEnv (s : Socket) : Env :=
  smoothEnv (s.lastSendClock+socketSendAgainTime*clocksPerSec+1) none

/-- The packet that carries the data at the front of the window. -/
def duePacket (s : Socket) : TCPPacket :=
  constructPacket s (getNextSocketPacketData s.sendWindow).1 ackFlag s.id.dstPort

/-- The pass over the send window hands it to the network then. -/
theorem sendWindow_due {s : Socket} (hs : s.state=.established) : ∃ q,
    checkAndHandleSendWindow (dueEnv s) s=⟨{s with
      sendWindow := q
      lastSendClock := (dueEnv s).now},[(duePacket s,.ok)],[],[]⟩ := by
  refine ⟨(getNextSocketPacketData s.sendWindow).2,?_⟩
  have helapsed : elapsed (dueEnv s) s.lastSendClock socketSendAgainTime=true := by
    rw [elapsed,decide_eq_true_eq]
    simp only [dueEnv,smoothEnv]
    omega
  rw [checkAndHandleSendWindow,if_neg (by simp [hs]),if_pos helapsed]
  rfl

/-- While the front stands before the first NUL, the packet has data, which
start with a byte before the first NUL. -/
theorem due_data {base : Side → ℤ} {world : World} (h : Open base world) {side : Side} {k : ℕ}
    (hfront : (world side).socket.seqOfFirstSendWindow=base side+k)
    (hk : k < (beforeNul (world side).enqueued).length) :
    (getNextSocketPacketData (world side).socket.sendWindow).1.chars≠[] ∧
      ∀ b,(getNextSocketPacketData (world side).socket.sendWindow).1.chars.head?=some b →
        b∈beforeNul (world side).enqueued := by
  obtain ⟨k',_,hwindow,_,hest⟩ := (h.walled.1 side).acked
  obtain rfl : k'=k := by
    have := hest (h.established side)
    omega
  have hbyte := List.getElem_mem hk
  have hnext : (world side).enqueued[k']?=some (beforeNul (world side).enqueued)[k'] :=
    nulBarrier.getElem?_passed (List.getElem?_eq_getElem hk)
  generalize (beforeNul (world side).enqueued)[k']=b at hbyte hnext
  have hb : b≠queueEmptyElement := by
    have := List.mem_takeWhile_imp hbyte
    simpa using this
  have hdrop : (world side).socket.sendWindow.toList=b::(world side).enqueued.drop (k'+1) := by
    obtain ⟨hlt,hget⟩ := List.getElem?_eq_some_iff.mp hnext
    rw [hwindow,List.drop_eq_getElem_cons hlt,hget]
  have hchars : (getNextSocketPacketData (world side).socket.sendWindow).1.chars=
      b::(((world side).enqueued.drop (k'+1)).take 127).takeWhile
        fun b => b != queueEmptyElement := by
    rw [(getNextSocketPacketData_spec _).1,hdrop,maxDataPerPacket,List.take_succ_cons,
      List.takeWhile_cons_of_pos (by simpa using hb)]
  rw [hchars]
  refine ⟨List.cons_ne_nil _ _,fun c hc => ?_⟩
  rw [List.head?_cons,Option.some.injEq] at hc
  rwa [←hc]

/-- The due packet reaches the network. -/
theorem Open.sends {base : Side → ℤ} {world : World} (h : Open base world) (side : Side) :
    let action := Action.sendWindow side (dueEnv (world side).socket)
    ((world.step action) side).sent=(world side).sent++[duePacket (world side).socket] ∧
      (world.step action) side.other=world side.other := by
  intro action
  obtain ⟨q,hpass⟩ := sendWindow_due (h.established side)
  simp only [action,World.step,Function.update_self,hpass]
  exact ⟨rfl,Function.update_of_ne (Side.other_ne side) _ _⟩

/-- Data that arrive are answered with an ACK; with the expected number they
bring the user something. -/
theorem Open.answers {base : Side → ℤ} {world : World} (h : Open base world) {side : Side}
    {index : ℕ} {q : TCPPacket} {d : CString} (hq : (world side.other).sent[index]?=some q)
    (hd : q.data=some d) (hne : d.chars≠[]) :
    let after := world.step (arrives side index (smoothEnv 0 none))
    (after side).sent=(world side).sent++[constructPacket (after side).socket CString.empty
        ackFlag q.srcPort] ∧
      (after side.other)=world side.other ∧ (world side).delivered<+:(after side).delivered ∧
      (q.seqNum=(world side).socket.seqOfFirstRecvWindow →
        (world side).delivered.length < (after side).delivered.length) := by
  intro after
  have hsent := (h.walled.1 side.other).sent q (List.mem_of_getElem? hq)
  obtain ⟨hflags,hport⟩ := h.acks side.other q hsent
  have hpaired := h.paired side.other
  rw [Side.other_other] at hpaired
  have hdata : (asReceived q).data=some d := by
    simp only [asReceived,hd,Option.filter_some]
    rw [if_pos (by simpa [CString.strlen] using hne)]
  obtain ⟨hhandled,hsyn,hfin,hack⟩ := handlePacket_of_ack (smoothEnv 0 none)
    (createNetworkManager onesIp fun _ => false) (p:=asReceived q)
    (world side).socket.id.srcIp (h.established side) hflags (hport.trans hpaired.symm)
  obtain ⟨j,w,hacked,_⟩ := acknowledged_cases ((asReceived q).has ackFlag=true)
    (asReceived q).ackNum (world side).socket
  generalize hs : {(world side).socket with
    sendWindow := w
    seqOfFirstSendWindow := (world side).socket.seqOfFirstSendWindow+(j : ℤ)}=acked at hacked
  have hestablished : handlePacketEstablished (smoothEnv 0 none)
      (createNetworkManager onesIp fun _ => false) (world side).socket (asReceived q)=
      ⟨createNetworkManager onesIp fun _ => false,
        (receiveNewData (smoothEnv 0 none) acked (asReceived q) d).1,
        some (constructPacket (receiveNewData (smoothEnv 0 none) acked (asReceived q) d).1
          CString.empty ackFlag q.srcPort),
        (receiveNewData (smoothEnv 0 none) acked (asReceived q) d).2⟩ := by
    unfold handlePacketEstablished
    simp only [hsyn,hfin,hdata,hacked,Bool.false_eq_true,if_false]
    rfl
  have hafter : after=Function.update world side ((world side).receive (smoothEnv 0 none)
      (createNetworkManager onesIp fun _ => false) (asReceived q)) := by
    simp only [after,arrives,World.step,hq]
  rw [hafter,Function.update_self,Function.update_of_ne (Side.other_ne side)]
  have hok : (smoothEnv 0 none).sendResult 0=.ok := rfl
  unfold Endpoint.receive
  simp only [hhandled,hestablished,Handled.afterReply,Handled.sentReply,hok,Option.isSome_some,
    and_self,if_true,Option.toList_some]
  generalize hgot : receiveNewData (smoothEnv 0 none) acked (asReceived q) d=received
  refine ⟨rfl,trivial,List.prefix_append _ _,fun hseq => ?_⟩
  have hgives : (receiveNewData (smoothEnv 0 none) acked (asReceived q) d).2≠[] :=
    receiveNewData_gives rfl (by rw [←hs]; exact hseq) hne
  rw [hgot] at hgives
  have hpos := List.length_pos_iff.mpr hgives
  rw [List.length_append]
  omega

/-- An acknowledgement without data takes the front as far as it says, if so
many bytes are in the window. -/
theorem Open.acknowledges {base : Side → ℤ} {world : World} (h : Open base world) {side : Side}
    {index : ℕ} {q : TCPPacket} (hq : (world side.other).sent[index]?=some q)
    (hd : q.data=some CString.empty) :
    let after := world.step (arrives side index (smoothEnv 0 none))
    (after side).socket.seqOfFirstSendWindow=(world side).socket.seqOfFirstSendWindow+
      min (world side).socket.sendWindow.size
        (q.ackNum-(world side).socket.seqOfFirstSendWindow).toNat := by
  intro after
  have hsent := (h.walled.1 side.other).sent q (List.mem_of_getElem? hq)
  obtain ⟨hflags,hport⟩ := h.acks side.other q hsent
  have hpaired := h.paired side.other
  rw [Side.other_other] at hpaired
  have hdata : (asReceived q).data=none := by
    simp only [asReceived,hd]
    rfl
  obtain ⟨hhandled,hsyn,hfin,hack⟩ := handlePacket_of_ack (smoothEnv 0 none)
    (createNetworkManager onesIp fun _ => false) (p:=asReceived q)
    (world side).socket.id.srcIp (h.established side) hflags (hport.trans hpaired.symm)
  have hestablished : handlePacketEstablished (smoothEnv 0 none)
      (createNetworkManager onesIp fun _ => false) (world side).socket (asReceived q)=
      quiet (createNetworkManager onesIp fun _ => false) (acknowledge q.ackNum
        (world side).socket.sendWindow.size (world side).socket) := by
    unfold handlePacketEstablished
    simp only [hsyn,hfin,hack,hdata,Bool.false_eq_true,if_false,if_true]
    rfl
  have hafter : after=Function.update world side ((world side).receive (smoothEnv 0 none)
      (createNetworkManager onesIp fun _ => false) (asReceived q)) := by
    simp only [after,arrives,World.step,hq]
  obtain ⟨j,w,hacked,_,hj⟩ := acknowledge_spec q.ackNum (world side).socket.sendWindow.size
    (world side).socket
  rw [hafter,Function.update_self]
  unfold Endpoint.receive
  simp only [hhandled,hestablished,hacked,Handled.afterReply,quiet_reply,quiet_socket]
  rw [if_neg (by simp)]
  simp only
  omega

/-- The next expected number of an open end counts what it has delivered. -/
theorem Open.expected {base : Side → ℤ} {world : World} (h : Open base world) (side : Side) :
    (world side.other).socket.seqOfFirstRecvWindow=
      base side+(world side.other).delivered.length :=
  (h.walled.1 side).expected ((h.walled.1 side).unaccepted (h.established side.other))

/-- The window of an open end starts at the number its front stands at. -/
theorem Open.front {base : Side → ℤ} {world : World} (h : Open base world) (side : Side) :
    ∃ k ≤ (world side.other).delivered.length,
      (world side).socket.sendWindow.toList=(world side).enqueued.drop k ∧
      (world side).socket.seqOfFirstSendWindow=base side+(k : ℕ) := by
  obtain ⟨k,hk,hwindow,_,hest⟩ := (h.walled.1 side).acked
  exact ⟨k,hk,hwindow,hest (h.established side)⟩

/-- A packet, its arrival and its acknowledgement take the front further,
wherever it stands before the first NUL. -/
theorem Open.round {base : Side → ℤ} {world : World} (h : Open base world)
    (hfits : Fits base world) {side : Side} {k : ℕ}
    (hfront : (world side).socket.seqOfFirstSendWindow=base side+k)
    (hk : k < (beforeNul (world side).enqueued).length) :
    ∃ after,Leads world after ∧ ∃ m,k < m ∧
      (after side).socket.seqOfFirstSendWindow=base side+(m : ℕ) := by
  obtain ⟨hne,hhead⟩ := due_data h hfront hk
  -- the packet
  obtain ⟨hsent,hother⟩ := h.sends side
  have hread : ReadBack world (.sendWindow side (dueEnv (world side).socket)) := by
    rintro _ _ _ _ heq
    cases heq
  have hlead : Leads world (world.step (.sendWindow side (dueEnv (world side).socket))) :=
    Leads.single rfl hread
  generalize world.step (.sendWindow side (dueEnv (world side).socket))=first at *
  have hfirst := h.follows hlead
  have hq : (first side.other.other).sent[(world side).sent.length]?=
      some (duePacket (world side).socket) := by
    rw [Side.other_other,hsent,List.getElem?_append_right le_rfl,Nat.sub_self]
    rfl
  -- its arrival
  obtain ⟨hanswer,hstill,hinitial,hgrows⟩ := hfirst.isOpen.answers hq rfl hne
  have hread' : ReadBack first
      (arrives side.other (world side).sent.length (smoothEnv 0 none)) := by
    rintro _ _ _ _ heq q' hq' libc
    obtain ⟨rfl,rfl,_,_⟩ := Action.receive.inj heq
    obtain rfl := Option.some.inj (hq.symm.trans hq')
    exact roundTrips_of_fits h hfits side hhead libc
  have hlead' : Leads first (first.step
      (arrives side.other (world side).sent.length (smoothEnv 0 none))) :=
    Leads.single rfl hread'
  generalize first.step (arrives side.other (world side).sent.length (smoothEnv 0 none))=second at *
  have hsecond := h.follows (hlead.trans hlead')
  have hdst : (second side.other).socket.id.dstPort=(duePacket (world side).socket).srcPort :=
    (hsecond.isOpen.paired side).trans (congrArg SocketID.srcPort (hsecond.same side).2)
  have hr : (second side.other).sent[(first side.other).sent.length]?=some (constructPacket
      (second side.other).socket CString.empty ackFlag
      (second side.other).socket.id.dstPort) := by
    rw [hanswer,List.getElem?_append_right le_rfl,Nat.sub_self,hdst]
    rfl
  -- its acknowledgement
  have hacks := hsecond.isOpen.acknowledges hr rfl
  have hread'' : ReadBack second
      (arrives side (first side.other).sent.length (smoothEnv 0 none)) := by
    rintro _ _ _ _ heq q' hq' libc
    obtain ⟨rfl,rfl,_,_⟩ := Action.receive.inj heq
    obtain rfl := Option.some.inj (hr.symm.trans hq')
    exact roundTrips_of_fits hsecond.isOpen (hfits.of_same hsecond.same) side.other
      (by simp [CString.empty]) libc
  have hlead'' : Leads second (second.step
      (arrives side (first side.other).sent.length (smoothEnv 0 none))) :=
    Leads.single rfl hread''
  generalize second.step (arrives side (first side.other).sent.length (smoothEnv 0 none))=third at *
  refine ⟨third,(hlead.trans hlead').trans hlead'',(second side.other).delivered.length,?_,?_⟩
  · obtain ⟨k',hk',_,hfront'⟩ := h.front side
    have hexpected := h.expected side
    have hle := hinitial.length_le
    rw [hother] at hle hgrows
    by_cases hmore : k < (world side.other).delivered.length
    · omega
    · have hlt := hgrows (by
        simp only [duePacket,constructPacket]
        omega)
      omega
  · obtain ⟨k',hk',hwindow,hfront'⟩ := hsecond.isOpen.front side
    have hexpected := hsecond.isOpen.expected side
    have hlen := (hsecond.isOpen.walled.1 side).delivered.length_le
    have hsize := congrArg List.length hwindow
    rw [length_toList,List.length_drop] at hsize
    rw [hacks]
    simp only [constructPacket]
    omega

/-- So the network can take the front to the first NUL, or to the end. -/
theorem Open.drains {base : Side → ℤ} {world : World} (h : Open base world)
    (hfits : Fits base world) (side : Side) :
    ∃ after,Leads world after ∧ (after side).socket.seqOfFirstSendWindow=
      base side+(beforeNul (world side).enqueued).length := by
  obtain ⟨k,hk,-,hfront⟩ := h.front side
  have hle : k ≤ (beforeNul (world side).enqueued).length :=
    hk.trans (h.walled.2 side).delivered.length_le
  generalize hleft : (beforeNul (world side).enqueued).length-k=left
  induction left using Nat.strongRecOn generalizing world k with
  | ind left ih =>
    by_cases hdone : k=(beforeNul (world side).enqueued).length
    · exact ⟨world,Leads.refl world,by rw [hfront,hdone]⟩
    · obtain ⟨middle,hlead,m,hkm,hfront'⟩ := h.round hfits hfront (by omega)
      have hfollows := h.follows hlead
      have hsame : (beforeNul (middle side).enqueued).length=
          (beforeNul (world side).enqueued).length := by rw [(hfollows.same side).1]
      obtain ⟨m',hm',-,hfront''⟩ := hfollows.isOpen.front side
      have hwall := (hfollows.isOpen.walled.2 side).delivered.length_le
      obtain rfl : m'=m := by omega
      have hm : m' ≤ (beforeNul (middle side).enqueued).length := hm'.trans hwall
      obtain ⟨after,hrest,hafter⟩ := ih (left-(m'-k)) (by omega) hfollows.isOpen
        (hfits.of_same hfollows.same) m' hm' hfront' hm (by omega)
      exact ⟨after,hlead.trans hrest,by rw [hafter,hsame]⟩

/-- The ends are open in every state of a run without close commands from an
aligned start. -/
theorem run_open {world : World} (h : Aligned world) (hpaired : Paired world)
    {actions : List Action} (hno : ∀ action∈actions,closes action=false) :
    Open (fun side => (world side).socket.seqOfFirstSendWindow)
      (run World.step world actions) := by
  have hstart : Open (fun side => (world side).socket.seqOfFirstSendWindow) world := {
    walled := bothWalled_of_aligned nulBarrier h
    established := h.established
    paired := hpaired
    acks := by
      intro side
      obtain ⟨_,_,hem,_,_⟩ := h.history side
      simp [hem]}
  generalize (fun side => (world side).socket.seqOfFirstSendWindow)=base at hstart ⊢
  clear h hpaired
  induction actions generalizing world with
  | nil => exact hstart
  | cons action rest ih =>
    exact ih (fun a ha => hno a (List.mem_cons_of_mem _ ha))
      (hstart.step (hno action List.mem_cons_self))

/-- From every state of a run without close commands, whatever was lost,
repeated or reordered, some packets and arrivals complete both directions:
all bytes before the first NUL are delivered, and the send windows hold the
rest. What arrives on the way is read back by every libc. -/
theorem delivery_possible {world : World} (h : Aligned world) (hpaired : Paired world)
    {actions : List Action} (hno : ∀ action∈actions,closes action=false)
    (hfits : Fits (fun side => (world side).socket.seqOfFirstSendWindow)
      (run World.step world actions)) :
    ∃ after,Leads (run World.step world actions) after ∧ ∀ side,
      (after side).enqueued=(run World.step world actions side).enqueued ∧
      (after side.other).delivered=beforeNul (after side).enqueued ∧
      (after side).socket.sendWindow.toList=
        (after side).enqueued.drop (beforeNul (after side).enqueued).length := by
  have hopen := run_open h hpaired hno
  generalize run World.step world actions=reached at *
  obtain ⟨middle,hlead,hleft⟩ := hopen.drains hfits .left
  have hmiddle := hopen.follows hlead
  obtain ⟨after,hlead',hright⟩ := hmiddle.isOpen.drains (hfits.of_same hmiddle.same) .right
  have hafter := hmiddle.isOpen.follows hlead'
  have hsame : ∀ side,(after side).enqueued=(reached side).enqueued := fun side =>
    ((hafter.same side).1).trans (hmiddle.same side).1
  have hfront : ∀ side,(world side).socket.seqOfFirstSendWindow+
      (beforeNul (after side).enqueued).length ≤ (after side).socket.seqOfFirstSendWindow := by
    rintro (_ | _)
    · rw [hsame,←hleft]
      exact hafter.fronts .left
    · rw [(hafter.same .right).1,←hright]
  refine ⟨after,hlead.trans hlead',fun side => ⟨hsame side,?_⟩⟩
  obtain ⟨k,hk,hwindow,hstands⟩ := hafter.isOpen.front side
  have hdelivered := (hafter.isOpen.walled.2 side).delivered
  have hle := hdelivered.length_le
  have hreached := hfront side
  obtain rfl : k=(beforeNul (after side).enqueued).length := by
    have : (nulBarrier.passed (after side).enqueued).length=
      (beforeNul (after side).enqueued).length := rfl
    omega
  exact ⟨hdelivered.eq_of_length (le_antisymm hle hk),hwindow⟩

/-- A byte enters the window, and its packet is lost. -/
def lostPacket : List Action :=
  let env := smoothEnv 5000000 (some [120])
  [.statusMessages .left env,.sendWindow .left {env with sendResult := fun _ => .error}]

theorem delivery_possible_lost :
    ∃ after,Leads (run World.step startWorld lostPacket) after ∧ ∀ side,
      (after side).enqueued=(run World.step startWorld lostPacket side).enqueued ∧
      (after side.other).delivered=beforeNul (after side).enqueued ∧
      (after side).socket.sendWindow.toList=
        (after side).enqueued.drop (beforeNul (after side).enqueued).length := by
  refine delivery_possible startWorld_aligned (by rintro (_ | _) <;> rfl) (by decide) ?_
  exact {
    ports := by rintro (_ | _) <;> decide
    low := by rintro (_ | _) <;> decide
    high := by rintro (_ | _) <;> decide
    apart := by rintro (_ | _) <;> exact Or.inr (by decide +kernel)}

end NetworkLayer.StreamProgress
