import NetworkLayer.ClosingStates

/-!
# The sequence number of a FIN

A FIN carries the first sequence number of the send window. That is the number
behind the last enqueued byte once the size of the window was added to it. The
handler of a FIN, the CLOSE_WAIT pass and the close command all add it, and
none of them empties the window, so a second addition counts its bytes again.
-/

namespace NetworkLayer.FinNumbers

open ByteStrings ArrayQueue UtilTypes FifoUtils TcpPackets PacketHandlers SocketPasses SocketSteps
open ClosingStates StepRuns

/-- The bytes that the event enqueues. -/
def enqueued (s : Socket) : Event → List Byte
  | .statusMessages env => (checkAndHandleOutgoingStatusMessages env s).moved
  | _ => []

/-- The packets that the event hands to the network. -/
def handedOut (s : Socket) : Event → List TCPPacket
  | .packet env manager packet srcIp => (handlePacket env manager s packet srcIp).reply.toList
  | .sendWindow env => (checkAndHandleSendWindow env s).attempts.map Prod.fst
  | .statusMessages env => (checkAndHandleOutgoingStatusMessages env s).attempts.map Prod.fst
  | .close _ => []

/-- The event adds the size of the send window to its first sequence number:
a FIN is accepted while established, the CLOSE_WAIT pass runs, or the close
command is read. -/
def addsSize (s : Socket) : Event → Bool
  | .packet _ _ packet _ => decide (s.state=.established) && acceptsFin s packet
  | .sendWindow _ => false
  | .statusMessages _ => s.state=.closeWait
  | .close _ => true

/-- A socket and what has happened to it since the run began. -/
structure Tracked where
  /-- The socket. -/
  socket : Socket
  /-- Number of bytes enqueued so far. -/
  total : ℤ
  /-- The size of the window was added. -/
  counted : Bool
  /-- The size of a window with bytes in it was added again. -/
  recounted : Bool

/-- The event happens. -/
def trackedStep (t : Tracked) (event : Event) : Tracked where
  socket := socketStep t.socket event
  total := t.total+(enqueued t.socket event).length
  counted := t.counted || addsSize t.socket event
  recounted := t.recounted ||
    t.counted && addsSize t.socket event && !t.socket.sendWindow.queueIsEmpty

/-- The start of a run: the bytes in the window are the ones enqueued so far. -/
def Tracked.start (s : Socket) : Tracked := ⟨s,s.sendWindow.size,false,false⟩

/-- The event sends a FIN from FIN_WAIT_1 or LAST_ACK. -/
def SendsFin (s : Socket) (event : Event) (fin : TCPPacket) : Prop :=
  (s.state=.finWait1 ∨ s.state=.lastAck) ∧ fin∈handedOut s event ∧ fin.has finFlag=true

/-- Every FIN that is sent has the number behind the last enqueued byte. -/
def FinBehindAll (base : ℤ) (t : Tracked) (event : Event) : Prop :=
  ∀ fin,SendsFin t.socket event fin → fin.seqNum=base+t.total

/-- No FIN is sent after bytes were counted again. -/
def NoFinAfterRecount (t : Tracked) (event : Event) : Prop :=
  ∀ fin,SendsFin t.socket event fin → t.recounted=false

/-- What a step does to the window and to its first sequence number. -/
inductive WindowMove (s s' : Socket) (moved : List Byte) : Bool → Prop
  /-- The connection stays established: acknowledged bytes leave the window,
  enqueued ones enter it. -/
  | stays (he : s.state=.established) (he' : s'.state=.established)
    (hsum : s'.seqOfFirstSendWindow+s'.sendWindow.size=
      s.seqOfFirstSendWindow+s.sendWindow.size+moved.length) : WindowMove s s' moved false
  /-- It does not: the window keeps its size, which may be added. Where it is
  not, a reset connection stays reset and an established one is reset. -/
  | leaves (adds : Bool) (hne : s'.state≠.established) (hmoved : moved=[])
    (hsize : s'.sendWindow.size=s.sendWindow.size)
    (hfirst : s'.seqOfFirstSendWindow=
      s.seqOfFirstSendWindow+(if adds=true then s.sendWindow.size else 0 : ℕ))
    (hreset : adds=false → s.state=.established ∨ s.state=.closed → s'.state=.closed) :
    WindowMove s s' moved adds

/-- A socket that keeps window and number, and its state where that matters. -/
theorem WindowMove.same {s s' : Socket} (hsize : s'.sendWindow.size=s.sendWindow.size)
    (hfirst : s'.seqOfFirstSendWindow=s.seqOfFirstSendWindow)
    (hstate : s'.state=s.state ∨ s'.state=.closed ∨
      s'.state≠.established ∧ s.state≠.established ∧ s.state≠.closed) :
    WindowMove s s' [] false := by
  have hleaves : s'.state≠.established → (s.state=.established ∨ s.state=.closed →
      s'.state=.closed) → WindowMove s s' [] false := by
    intro hne hreset
    exact .leaves false hne rfl hsize (by simp [hfirst]) fun _ => hreset
  rcases hstate with he|he|⟨hne,hb,hc⟩
  · by_cases hestablished : s.state=.established
    · exact .stays hestablished (he.trans hestablished) (by simp [hsize,hfirst])
    · refine hleaves (he ▸ hestablished) ?_
      intro h
      exact he.trans (h.resolve_left hestablished)
  · exact hleaves (by rw [he]; decide) fun _ => he
  · refine hleaves hne ?_
    intro h
    rcases h with h|h
    · exact absurd h hb
    · exact absurd h hc

/-- The clock of the last packet plays no part in it. -/
theorem WindowMove.clock {s s' : Socket} {moved : List Byte} {adds : Bool}
    (h : WindowMove s s' moved adds) (now : ℤ) :
    WindowMove s {s' with lastSendClock := now} moved adds := by
  cases h with
  | stays he he' hsum => exact .stays he he' hsum
  | leaves _ hne hmoved hsize hfirst hreset => exact .leaves _ hne hmoved hsize hfirst hreset

/-- An established socket that gets no FIN. -/
theorem handlePacketEstablished_window (env : Env) (manager : NetworkManager) {s : Socket}
    {packet : TCPPacket} (hfin : packet.has finFlag=false) :
    let s' := (handlePacketEstablished env manager s packet).socket
    s'.seqOfFirstSendWindow+s'.sendWindow.size=s.seqOfFirstSendWindow+s.sendWindow.size := by
  obtain ⟨_,_,_,hframe⟩ := handlePacketEstablished_frame env manager s hfin
  obtain ⟨j,q,hacked,_,hsize,_⟩ := acknowledged_cases
    (packet.has synFlag=false ∧ packet.has ackFlag=true) packet.ackNum s
  rw [hframe,hacked]
  simp only
  omega

/-- A packet acknowledges bytes while the connection stays established, and
adds the size if its FIN ends that state. -/
theorem handlePacket_windowMove (env : Env) (manager : NetworkManager) {s : Socket}
    (packet : TCPPacket) (srcIp : CString) (hc : Connected s.state) :
    WindowMove s (handlePacket env manager s packet srcIp).socket []
      (decide (s.state=.established) && acceptsFin s packet) := by
  have houtcome := handlePacket_outcome env manager packet srcIp hc.1
  generalize handlePacket env manager s packet srcIp=handled at houtcome ⊢
  cases houtcome with
  | ignored hno files =>
    rw [hno,Bool.and_false]
    exact .same rfl rfl (Or.inl rfl)
  | reset hrst =>
    rw [acceptsFin_of_reset hrst,Bool.and_false]
    exact .same rfl rfl (Or.inr (Or.inl rfl))
  | connected hstate => exact absurd hstate hc.2.1
  | accepted hstate => exact absurd hstate hc.2.2
  | taken hstate _ hsyn hfin =>
    rw [acceptsFin_of_noFin hfin,Bool.and_false]
    refine .stays hstate ?_ ?_
    · rw [handlePacketEstablished_state env manager s hfin,hstate]
    · rw [handlePacketEstablished_window env manager hfin]
      simp
  | finished hstate haccepts =>
    rw [haccepts,hstate]
    exact .leaves true (by simp) rfl rfl (by simp) (by simp)
  | finAcked state clock hno hedge _ =>
    rw [hno,Bool.and_false]
    refine .same rfl rfl (Or.inr ?_)
    rcases hedge with ⟨hs,rfl⟩|⟨hs,rfl⟩|⟨hs,rfl⟩
    · exact Or.inr (by simp [hs])
    · exact Or.inr (by simp [hs])
    · exact Or.inl rfl
  | finTaken state clock hstate haccepts hedge =>
    have hafter : state≠.established := by
      rcases hedge with rfl|⟨rfl,_⟩
      · simp
      · simp
    rw [hstate]
    exact .same rfl rfl (Or.inr (Or.inr ⟨hafter,by simp [hstate]⟩))
  | finAnswered hstate =>
    rw [hstate]
    exact .same rfl rfl (Or.inr (Or.inr (by simp [hstate])))

/-- A timer pass moves the user's bytes into the window of an established
connection, and adds the size in CLOSE_WAIT. -/
theorem statusMessages_windowMove (env : Env) (s : Socket) :
    WindowMove s (checkAndHandleOutgoingStatusMessages env s).socket
      (checkAndHandleOutgoingStatusMessages env s).moved (decide (s.state=.closeWait)) := by
  by_cases hwait : s.state=.closeWait
  · rw [checkAndHandleOutgoingStatusMessages,hwait]
    exact .leaves true (by simp [idle]) rfl rfl (by simp [idle]) (by simp)
  rw [decide_eq_false hwait]
  have houtcome := checkAndHandleOutgoingStatusMessages_outcome env s
  generalize checkAndHandleOutgoingStatusMessages env s=passed at houtcome ⊢
  cases houtcome with
  | sends => exact .same rfl rfl (Or.inl rfl)
  | timedOut hstate =>
    refine .same rfl rfl (Or.inr (Or.inr ⟨by simp,?_⟩))
    rcases hstate with hs|hs <;> simp [hs]
  | moves hstate q moved _ hlist =>
    refine .stays hstate hstate ?_
    simp only
    rw [←length_toList,hlist,List.length_append,length_toList]
    push_cast
    ring
  | finishes hstate => exact absurd hstate hwait
  | expires => exact .same rfl rfl (Or.inr (Or.inl rfl))

/-- What an event does to the window of a connected socket. -/
theorem socketStep_windowMove {s : Socket} (hc : Connected s.state) (event : Event) :
    WindowMove s (socketStep s event) (enqueued s event) (addsSize s event) := by
  cases event with
  | packet env manager packet srcIp =>
    have hmove := handlePacket_windowMove env manager packet srcIp hc
    simp only [socketStep,Handled.afterReply]
    split
    · exact hmove.clock env.now
    · exact hmove
  | sendWindow env =>
    rcases checkAndHandleSendWindow_cases env s with he|⟨_,q,clock,data,hlist,_,he⟩
    · simp only [socketStep,enqueued,addsSize,he,idle]
      exact .same rfl rfl (Or.inl rfl)
    · have hsize := congrArg List.length hlist
      rw [length_toList,length_toList] at hsize
      simp only [socketStep,enqueued,addsSize,he]
      exact .same hsize rfl (Or.inl rfl)
  | statusMessages env => exact statusMessages_windowMove env s
  | close env =>
    exact .leaves true (by simp [socketStep,closeCommand]) rfl rfl
      (by simp [socketStep,closeCommand]) (by simp)

/-- No event takes a connected socket back into its handshake. -/
theorem socketStep_connected {s : Socket} (hc : Connected s.state) (event : Event) :
    Connected (socketStep s event).state := by
  cases event with
  | packet env manager packet srcIp =>
    exact (handlePacket_step env manager packet srcIp hc).connected
  | sendWindow env => exact (checkAndHandleSendWindow_step env hc).connected
  | statusMessages env => exact (checkAndHandleOutgoingStatusMessages_step env hc).connected
  | close env => exact (closeCommand_step env s).connected

/-- What the first sequence number says at any time. -/
structure Numbered (base : ℤ) (t : Tracked) : Prop where
  /-- The connection is past its handshake. -/
  connected : Connected t.socket.state
  /-- Until the size is added, the connection is established or was reset. -/
  open_or_reset : t.counted=false → t.socket.state=.established ∨ t.socket.state=.closed
  /-- Then the established state is over. -/
  ended : t.counted=true → t.socket.state≠.established
  /-- With the window counted once, the number is behind all enqueued bytes. -/
  once : t.recounted=false → t.socket.seqOfFirstSendWindow+
    (if t.counted=true then 0 else t.socket.sendWindow.size : ℕ)=base+t.total
  /-- With bytes counted again, it is too high. -/
  again : t.recounted=true → t.counted=true ∧ 0 < t.socket.sendWindow.size ∧
    base+t.total < t.socket.seqOfFirstSendWindow

/-- The start of a run of an established connection. -/
theorem Numbered.start {s : Socket} (he : s.state=.established) :
    Numbered s.seqOfFirstSendWindow (Tracked.start s) where
  connected := by
    rw [Connected]
    simp [Tracked.start,he]
  open_or_reset := fun _ => Or.inl he
  ended := by simp [Tracked.start]
  once := by simp [Tracked.start]
  again := by simp [Tracked.start]

/-- A step that does not add the size keeps the meaning of the number. -/
theorem Numbered.without {base : ℤ} {t : Tracked} {event : Event} (h : Numbered base t)
    (hadds : addsSize t.socket event=false) : Numbered base (trackedStep t event) := by
  have hconnected := socketStep_connected h.connected event
  have hmove := socketStep_windowMove h.connected event
  have hcounted : (trackedStep t event).counted=t.counted := by simp [trackedStep,hadds]
  have hrecounted : (trackedStep t event).recounted=t.recounted := by simp [trackedStep,hadds]
  rw [hadds] at hmove
  cases hmove with
  | stays he he' hsum =>
    have hnot : t.counted=false := by
      by_contra hc
      exact h.ended (by simpa using hc) he
    have hfresh : t.recounted=false := by
      by_contra hr
      have hagain := (h.again (by simpa using hr)).1
      rw [hnot] at hagain
      cases hagain
    have honce := h.once hfresh
    rw [hnot] at hcounted honce
    rw [hfresh] at hrecounted
    refine ⟨hconnected,fun _ => Or.inl he',by simp [hcounted],?_,by simp [hrecounted]⟩
    intro _
    rw [hcounted]
    simp only [Bool.false_eq_true,if_false] at honce ⊢
    simp only [trackedStep]
    omega
  | leaves _ hne hmoved hsize hfirst hreset =>
    have htotal : (trackedStep t event).total=t.total := by simp [trackedStep,hmoved]
    have hsame : (trackedStep t event).socket.seqOfFirstSendWindow=
        t.socket.seqOfFirstSendWindow := by
      simpa [trackedStep] using hfirst
    refine ⟨hconnected,?_,fun _ => hne,?_,?_⟩
    · intro hc
      rw [hcounted] at hc
      exact Or.inr (hreset rfl (h.open_or_reset hc))
    · intro hr
      rw [hrecounted] at hr
      rw [hcounted,htotal,hsame,show (trackedStep t event).socket.sendWindow.size=
        t.socket.sendWindow.size from hsize]
      exact h.once hr
    · intro hr
      rw [hrecounted] at hr
      rw [hcounted,htotal,hsame,show (trackedStep t event).socket.sendWindow.size=
        t.socket.sendWindow.size from hsize]
      exact h.again hr

/-- So does a step that adds it. -/
theorem Numbered.adding {base : ℤ} {t : Tracked} {event : Event} (h : Numbered base t)
    (hadds : addsSize t.socket event=true) : Numbered base (trackedStep t event) := by
  have hconnected := socketStep_connected h.connected event
  have hmove := socketStep_windowMove h.connected event
  have hcounted : (trackedStep t event).counted=true := by simp [trackedStep,hadds]
  have hrecounted : (trackedStep t event).recounted=
      (t.recounted || t.counted && !t.socket.sendWindow.queueIsEmpty) := by
    simp [trackedStep,hadds]
  have hempty : t.socket.sendWindow.queueIsEmpty=decide (t.socket.sendWindow.size=0) := rfl
  rw [hadds] at hmove
  cases hmove with
  | leaves _ hne hmoved hsize hfirst _ =>
    have htotal : (trackedStep t event).total=t.total := by simp [trackedStep,hmoved]
    have hsum : (trackedStep t event).socket.seqOfFirstSendWindow=
        t.socket.seqOfFirstSendWindow+t.socket.sendWindow.size := by
      simpa [trackedStep] using hfirst
    have hwindow : (trackedStep t event).socket.sendWindow.size=t.socket.sendWindow.size := hsize
    refine ⟨hconnected,by simp [hcounted],fun _ => hne,?_,?_⟩
    · intro hr
      rw [hrecounted,hempty] at hr
      simp only [Bool.or_eq_false_iff,Bool.and_eq_false_iff,Bool.not_eq_false',
        decide_eq_true_eq] at hr
      obtain ⟨hfresh,hfirstTime⟩ := hr
      have honce := h.once hfresh
      rw [hcounted,htotal,hsum]
      simp only [if_true]
      rcases hfirstTime with hnot|hzero
      · simp only [hnot,Bool.false_eq_true,if_false] at honce
        omega
      · split at honce <;> omega
    · intro hr
      rw [hcounted,htotal,hsum,hwindow]
      refine ⟨rfl,?_⟩
      by_cases hbefore : t.recounted=true
      · obtain ⟨_,hpos,hlt⟩ := h.again hbefore
        omega
      · rw [Bool.not_eq_true] at hbefore
        rw [hrecounted,hempty,hbefore] at hr
        simp only [Bool.false_or,Bool.and_eq_true,Bool.not_eq_true',decide_eq_false_iff_not] at hr
        have honce := h.once hbefore
        simp only [hr.1,if_true] at honce
        omega

/-- Every event keeps the meaning of the number. -/
theorem Numbered.step {base : ℤ} {t : Tracked} (h : Numbered base t) (event : Event) :
    Numbered base (trackedStep t event) := by
  cases hadds : addsSize t.socket event with
  | false => exact h.without hadds
  | true => exact h.adding hadds

/-- A FIN has the first sequence number of the send window. -/
theorem SendsFin.seqNum {s : Socket} {event : Event} {fin : TCPPacket}
    (h : SendsFin s event fin) : fin.seqNum=s.seqOfFirstSendWindow := by
  obtain ⟨hstate,hfin,_⟩ := h
  have hpackets : ∀ p,StatusPacket s p → p.seqNum=s.seqOfFirstSendWindow := by
    intro p hp
    cases hp with
    | syn hs | synAck hs => simp [hs] at hstate
    | reset | fin | finAck => rfl
  cases event with
  | packet env manager packet srcIp =>
    have hsilent : s.state≠.listen ∧ s.state≠.established ∧ s.state≠.finWait2 := by
      rcases hstate with hs|hs <;> simp [hs]
    rw [handedOut,handlePacket_silent env manager packet srcIp hsilent] at hfin
    cases hfin
  | sendWindow env =>
    have hidle : s.state≠.established := by
      rcases hstate with hs|hs <;> simp [hs]
    rw [handedOut,checkAndHandleSendWindow,if_pos hidle] at hfin
    cases hfin
  | close env => cases hfin
  | statusMessages env =>
    have houtcome := checkAndHandleOutgoingStatusMessages_outcome env s
    rw [handedOut] at hfin
    generalize checkAndHandleOutgoingStatusMessages env s=passed at houtcome hfin
    cases houtcome with
    | sends _ _ hsent => exact hpackets fin (hsent fin hfin)
    | timedOut _ _ _ hsent => exact hpackets fin (hsent fin hfin)
    | moves | finishes | expires => cases hfin

/-- A FIN has the right number exactly if no bytes were counted again. -/
theorem Numbered.fin_iff {base : ℤ} {t : Tracked} (h : Numbered base t) (event : Event) :
    FinBehindAll base t event ↔ NoFinAfterRecount t event := by
  have hright : ∀ fin,SendsFin t.socket event fin →
      (fin.seqNum=base+t.total ↔ t.recounted=false) := by
    intro fin hfin
    have hcounted : t.counted=true := by
      by_contra hc
      have hopen := h.open_or_reset (by simpa using hc)
      rcases hfin.1 with hs|hs <;> rw [hs] at hopen <;> simp at hopen
    rw [hfin.seqNum]
    constructor
    · intro hseq
      by_contra hr
      have hagain := h.again (by simpa using hr)
      omega
    · intro hr
      have honce := h.once hr
      simp only [hcounted,if_true] at honce
      omega
  exact forall₂_congr hright

/-- In every run of an established connection, every FIN from FIN_WAIT_1 or
LAST_ACK has the number behind all enqueued bytes, each counted once, exactly
if no FIN follows a second addition of the size of a window with bytes. -/
theorem fin_behind_all_iff {s : Socket} (he : s.state=.established) (events : List Event) :
    EachStep trackedStep (FinBehindAll s.seqOfFirstSendWindow) (Tracked.start s) events ↔
      EachStep trackedStep NoFinAfterRecount (Tracked.start s) events :=
  eachStep_congr_of_invariant (P:=Numbered s.seqOfFirstSendWindow)
    (C:=FinBehindAll s.seqOfFirstSendWindow) (Q:=NoFinAfterRecount)
    (fun _ event h => h.step event) (fun _ event h => h.fin_iff event) (Numbered.start he) events

/-- The user sends one byte, the peer's FIN comes before its acknowledgement,
and the connection goes through CLOSE_WAIT and LAST_ACK. -/
def finBeforeAck : List Event :=
  let env := smoothEnv 5000000 none
  let fin : TCPPacket := ⟨8081,8080,5000,1000,finFlag,0,none⟩
  [.statusMessages (smoothEnv 0 (some [120])),
    .packet env (createNetworkManager emptyIp fun _ => false) fin emptyIp,.statusMessages env,
    .statusMessages env]

/-- The FIN of this run counts the byte twice. -/
theorem finBeforeAck_counts_twice :
    openSocket.state=.established ∧ ¬EachStep trackedStep
      (FinBehindAll openSocket.seqOfFirstSendWindow) (Tracked.start openSocket) finBeforeAck := by
  refine ⟨rfl,?_⟩
  intro h
  have hsent := h.2.2.2.1
  have hfin := hsent (bareControl (run socketStep openSocket (finBeforeAck.take 3))
    (finFlag ||| ackFlag)) ⟨by decide,List.mem_singleton_self _,by decide⟩
  exact absurd hfin (by decide)

/-- A connection that is closed with a byte in its window. -/
theorem fin_behind_all_iff_closing :
    let events := [.statusMessages (smoothEnv 0 (some [120])),.close (smoothEnv 0 none),
      .statusMessages (smoothEnv 5000000 none)]
    EachStep trackedStep (FinBehindAll openSocket.seqOfFirstSendWindow)
        (Tracked.start openSocket) events ↔
      EachStep trackedStep NoFinAfterRecount (Tracked.start openSocket) events :=
  fin_behind_all_iff rfl _

end NetworkLayer.FinNumbers
