import NetworkLayer.SocketSteps

/-!
# What one step does to the sequence numbers

`NumbersMove` is a summary of everything a step of a connection's socket, its
handshake included, may do to both counters, to the places of received bytes
and to the numbers of the packets it builds. The send counter never passes the
number behind the last byte in the window, and what was received stays below
any bound that all incoming packets stay below.
-/

namespace NetworkLayer.NumberMoves

open ByteStrings ArrayQueue UtilTypes FifoUtils TcpPackets PacketHandlers SocketPasses SocketSteps
open WindowedStreams

/-- The number behind the last byte in the send window. -/
def topNumber (s : Socket) : ℤ := s.seqOfFirstSendWindow+s.sendWindow.size

/-- The packet has no byte at the bound or beyond. -/
structure NumberedBelow (bound : ℤ) (packet : TCPPacket) : Prop where
  /-- Its own number may be the bound: a FIN's or that of a packet without
  data. It is negative only for a handshake packet of a counter at zero. -/
  number : -1 ≤ packet.seqNum ∧ packet.seqNum ≤ bound
  /-- The bytes are numbered from there on. -/
  data : ∀ d,packet.data=some d → packet.seqNum+d.strlen ≤ bound

/-- The socket has received no byte at the bound or beyond. -/
structure ReceivedBelow (bound : ℤ) (s : Socket) : Prop where
  /-- The next expected number may be behind a FIN at the bound. -/
  next : 0 ≤ s.seqOfFirstRecvWindow ∧ s.seqOfFirstRecvWindow ≤ bound+1
  /-- During the handshake the receive window is empty. -/
  fresh : s.state=.synSent ∨ s.state=.synReceived → ∀ i,s.recvWindowIsvalid i=false
  /-- The places of an established socket are below the bound. -/
  cells : s.state=.established → ∀ i,s.recvWindowIsvalid i=true →
    s.seqOfFirstRecvWindow+(i.val : ℕ) < bound

/-- What the packets that a socket builds say about it, with the next number
it expects. -/
structure BuiltBy (s : Socket) (next : ℤ) (packet : TCPPacket) : Prop where
  /-- They carry the ports of its identity. -/
  ports : packet.srcPort=s.id.srcPort ∧ packet.dstPort=s.id.dstPort
  /-- A handshake packet is numbered one below the send counter. -/
  number : s.seqOfFirstSendWindow-1 ≤ packet.seqNum
  /-- The bytes are in the send window. -/
  data : ∃ d,packet.data=some d ∧ packet.seqNum+d.strlen ≤ topNumber s
  /-- They acknowledge what was received. -/
  ack : packet.ackNum=next
  /-- At most two flags are set, SYN and ACK being the greatest ones. -/
  flags : 0 ≤ charValue packet.flags ∧ charValue packet.flags ≤ 9

/-- The states in which neither a SYN nor data are taken. -/
def Settled (state : TCPState) : Prop := Connected state ∧ state≠.established

/-- What a step of a connection's socket does to its numbers: the packet it
receives, if any, and the packets it builds. -/
structure NumbersMove (s s' : Socket) (received : Option TCPPacket) (out : List TCPPacket) :
    Prop where
  /-- The send counter never goes back. -/
  first_le : s.seqOfFirstSendWindow ≤ s'.seqOfFirstSendWindow
  /-- It never passes the window. -/
  le_top : s'.seqOfFirstSendWindow ≤ topNumber s
  /-- The end of the window never goes back. -/
  top_le : topNumber s ≤ topNumber s'
  /-- The identity stays or loses its partner. -/
  id : s'.id=s.id ∨ s'.id=s.id.boundOnly
  /-- A connection never listens. -/
  listens : s.state≠.listen → s'.state≠.listen
  /-- What is received stays below every bound on what comes in. -/
  received : ∀ bound,ReceivedBelow bound s → (∀ p,received=some p → NumberedBelow bound p) →
    ReceivedBelow bound s'
  /-- The packets are built from the socket's numbers. -/
  built : ∀ p∈out,BuiltBy s s'.seqOfFirstRecvWindow p

/-- In a settled state only the next expected number counts. -/
theorem receivedBelow_of_settled {bound : ℤ} {s : Socket} (hs : Settled s.state)
    (hnext : 0 ≤ s.seqOfFirstRecvWindow ∧ s.seqOfFirstRecvWindow ≤ bound+1) :
    ReceivedBelow bound s where
  next := hnext
  fresh := by
    rintro (h|h)
    · exact absurd h hs.1.2.1
    · exact absurd h hs.1.2.2
  cells := fun h => absurd h hs.2

/-- A step that keeps window and numbers, and leaves the state where it is or
settles it. -/
theorem NumbersMove.same {s s' : Socket} {received : Option TCPPacket} {out : List TCPPacket}
    (hsize : s'.sendWindow.size=s.sendWindow.size)
    (hfirst : s'.seqOfFirstSendWindow=s.seqOfFirstSendWindow)
    (hnext : s'.seqOfFirstRecvWindow=s.seqOfFirstRecvWindow)
    (hvalid : s'.recvWindowIsvalid=s.recvWindowIsvalid) (hid : s'.id=s.id)
    (hstate : s'.state=s.state ∨ Settled s'.state)
    (hbuilt : ∀ p∈out,BuiltBy s s.seqOfFirstRecvWindow p) : NumbersMove s s' received out where
  first_le := hfirst.ge
  le_top := by
    rw [hfirst,topNumber]
    omega
  top_le := by rw [topNumber,topNumber,hfirst,hsize]
  id := Or.inl hid
  listens := by
    intro hl
    rcases hstate with he|hs
    · rwa [he]
    · exact hs.1.1
  received := by
    intro bound h _
    rcases hstate with he|hs
    · exact {
        next := by rw [hnext]; exact h.next
        fresh := by rw [he,hvalid]; exact h.fresh
        cells := by rw [he,hvalid,hnext]; exact h.cells}
    · exact receivedBelow_of_settled hs (by rw [hnext]; exact h.next)
  built := by
    rw [hnext]
    exact hbuilt

/-- A step that takes the packet's number for the last one received: the send
counter may go to the end of the window. -/
theorem NumbersMove.finish {s s' : Socket} {packet : TCPPacket} {out : List TCPPacket}
    (hsize : s'.sendWindow.size=s.sendWindow.size)
    (hfirst : s'.seqOfFirstSendWindow=s.seqOfFirstSendWindow ∨
      s'.seqOfFirstSendWindow=topNumber s)
    (hnext : s'.seqOfFirstRecvWindow=packet.seqNum+1) (hid : s'.id=s.id)
    (hstate : Settled s'.state) (hbuilt : ∀ p∈out,BuiltBy s (packet.seqNum+1) p) :
    NumbersMove s s' (some packet) out where
  first_le := by
    unfold topNumber at hfirst
    omega
  le_top := by
    unfold topNumber at hfirst ⊢
    omega
  top_le := by
    unfold topNumber at hfirst ⊢
    omega
  id := Or.inl hid
  listens := fun _ => hstate.1.1
  received := by
    intro bound _ hp
    have hnumber := (hp packet rfl).number
    refine receivedBelow_of_settled hstate ?_
    rw [hnext]
    omega
  built := by
    rw [hnext]
    exact hbuilt

/-- The clock of the last packet plays no part in it. -/
theorem NumbersMove.clock {s s' : Socket} {received : Option TCPPacket} {out : List TCPPacket}
    (h : NumbersMove s s' received out) (now : ℤ) :
    NumbersMove s {s' with lastSendClock := now} received out where
  first_le := h.first_le
  le_top := h.le_top
  top_le := h.top_le
  id := h.id
  listens := h.listens
  received := by
    intro bound hs hp
    have hafter := h.received bound hs hp
    exact ⟨hafter.next,hafter.fresh,hafter.cells⟩
  built := h.built

/-- A packet without data, numbered within the window. -/
theorem builtBy_control {s t : Socket} {next : ℤ} {flags : Byte} (hid : t.id=s.id)
    (hnext : t.seqOfFirstRecvWindow=next) (hlow : s.seqOfFirstSendWindow-1 ≤ t.seqOfFirstSendWindow)
    (htop : t.seqOfFirstSendWindow ≤ topNumber s)
    (hflags : 0 ≤ charValue flags ∧ charValue flags ≤ 9) :
    BuiltBy s next (constructPacket t CString.empty flags s.id.dstPort) where
  ports := ⟨congrArg SocketID.srcPort hid,rfl⟩
  number := hlow
  data := ⟨CString.empty,rfl,by simpa [constructPacket,CString.strlen,CString.empty] using htop⟩
  ack := hnext
  flags := hflags

/-- A control packet in the socket's own numbers. -/
theorem builtBy_bareControl {s : Socket} {flags : Byte}
    (hflags : 0 ≤ charValue flags ∧ charValue flags ≤ 9) :
    BuiltBy s s.seqOfFirstRecvWindow (bareControl s flags) :=
  builtBy_control rfl rfl (by omega) (by unfold topNumber; omega) hflags

/-- A packet of the handshake. -/
theorem builtBy_handshakePacket {s : Socket} {flags : Byte}
    (hflags : 0 ≤ charValue flags ∧ charValue flags ≤ 9) :
    BuiltBy s s.seqOfFirstRecvWindow (handshakePacket s flags) :=
  builtBy_control rfl rfl le_rfl (by unfold topNumber; simp only; omega) hflags

/-- Storing a byte below the bound keeps all places below it. -/
theorem storeByte_below {bound seqNum : ℤ} {b : Byte} {s : Socket}
    (h : ∀ i,s.recvWindowIsvalid i=true → s.seqOfFirstRecvWindow+(i.val : ℕ) < bound)
    (hb : seqNum < bound) : ∀ i,(storeByte seqNum b s).recvWindowIsvalid i=true →
      s.seqOfFirstRecvWindow+(i.val : ℕ) < bound := by
  intro i hi
  unfold storeByte at hi
  dsimp only at hi
  split at hi
  · next hplace =>
    split at hi
    · by_cases he : i=⟨(seqNum-s.seqOfFirstRecvWindow).toNat,by omega⟩
      · rw [he]
        simp only
        omega
      · simp only [Function.update_of_ne he] at hi
        exact h i hi
    · exact h i hi
  · exact h i hi

/-- So does the whole loop. -/
theorem storeBytes_below {bound seqNum : ℤ} {bytes : List Byte} {s : Socket}
    (h : ∀ i,s.recvWindowIsvalid i=true → s.seqOfFirstRecvWindow+(i.val : ℕ) < bound)
    (hb : seqNum+bytes.length ≤ bound) : ∀ i,(storeBytes seqNum bytes s).recvWindowIsvalid i=true →
      s.seqOfFirstRecvWindow+(i.val : ℕ) < bound := by
  induction bytes generalizing seqNum s with
  | nil => exact h
  | cons b rest ih =>
    rw [List.length_cons] at hb
    obtain ⟨cells,valid,hframe⟩ := storeByte_frame seqNum b s
    have hnext : (storeByte seqNum b s).seqOfFirstRecvWindow=s.seqOfFirstRecvWindow := by
      rw [hframe]
    have hstored := storeByte_below (b:=b) h (by omega : seqNum < bound)
    rw [←hnext] at hstored
    have hb' : seqNum+1+(rest.length : ℤ) ≤ bound := by
      push_cast at hb
      omega
    have hrest := ih hstored hb'
    rwa [hnext] at hrest

/-- Handing bytes to the user counts bytes that are below every bound on the
places, and leaves the others where they are. -/
theorem updateRecvWindow_below (env : Env) (s : Socket) :
    ∃ cells valid,∃ n : ℕ,(updateRecvWindow env s).1={s with
        seqOfFirstRecvWindow := s.seqOfFirstRecvWindow+(n : ℕ)
        recvWindow := cells
        recvWindowIsvalid := valid} ∧
      ∀ bound,(∀ i,s.recvWindowIsvalid i=true → s.seqOfFirstRecvWindow+(i.val : ℕ) < bound) →
        (0 < n → s.seqOfFirstRecvWindow+(n : ℕ) ≤ bound) ∧
        ∀ i,valid i=true → s.seqOfFirstRecvWindow+(n : ℕ)+(i.val : ℕ) < bound := by
  unfold updateRecvWindow writeStringToFifoName
  dsimp only
  cases env.taken with
  | none =>
    refine ⟨s.recvWindow,s.recvWindowIsvalid,0,by simp,?_⟩
    intro bound h
    exact ⟨by simp,by simpa using h⟩
  | some m =>
    have hle := filled_le s.recvWindowIsvalid
    have hmin : min m (filled s.recvWindowIsvalid) ≤ filled s.recvWindowIsvalid :=
      Nat.min_le_right _ _
    simp only [Option.map_some]
    generalize min m (filled s.recvWindowIsvalid)=n at hmin
    refine ⟨_,_,n,rfl,?_⟩
    intro bound h
    constructor
    · intro hn
      have hlast := h ⟨n-1,by omega⟩ (valid_of_lt_filled (by simp only; omega))
      simp only at hlast
      omega
    · intro i hi
      have hin : i.val < maxWindowSize-n := by
        by_contra hno
        simp only [clearFrom,if_neg hno,Bool.false_eq_true] at hi
      rw [clearFrom,if_pos hin,copyDown_apply s.recvWindowIsvalid (by omega)] at hi
      have := h _ hi
      simp only at this
      omega

/-- An established socket that gets neither SYN nor FIN. -/
theorem handlePacketEstablished_numbers (env : Env) (manager : NetworkManager) {s : Socket}
    {packet : TCPPacket} (he : s.state=.established) (hsyn : packet.has synFlag=false)
    (hfin : packet.has finFlag=false) (hport : packet.srcPort=s.id.dstPort) :
    NumbersMove s (handlePacketEstablished env manager s packet).socket (some packet)
      (handlePacketEstablished env manager s packet).reply.toList := by
  obtain ⟨j,q,heq,_,hsize,_⟩ := acknowledged_cases (packet.has ackFlag=true) packet.ackNum s
  obtain ⟨acked,hdef⟩ : ∃ acked,acked=(if packet.has ackFlag=true then
    acknowledge packet.ackNum s.sendWindow.size s else s) := ⟨_,rfl⟩
  rw [←hdef] at heq
  simp only [handlePacketEstablished,hsyn,hfin,Bool.false_eq_true,if_false,←hdef]
  cases hdata : packet.data with
  | none =>
    rw [heq]
    exact {
      first_le := by simp
      le_top := by simp only [quiet_socket,topNumber]; omega
      top_le := by simp only [quiet_socket,topNumber]; omega
      id := Or.inl rfl
      listens := id
      received := fun _ h _ => ⟨h.next,h.fresh,h.cells⟩
      built := by simp}
  | some data =>
    obtain ⟨cells,valid,hstore⟩ := storeBytes_frame packet.seqNum data.chars acked
    have hkeeps : ∀ bound,ReceivedBelow bound s → NumberedBelow bound packet → ∀ i,
        (storeBytes packet.seqNum data.chars acked).recvWindowIsvalid i=true →
          acked.seqOfFirstRecvWindow+(i.val : ℕ) < bound := by
      intro bound hs hp
      apply storeBytes_below
      · rw [heq]
        exact hs.cells he
      · exact hp.data data hdata
    obtain ⟨cells',valid',n,hupdate,hbelow⟩ :=
      updateRecvWindow_below env (storeBytes packet.seqNum data.chars acked)
    have hnext : (storeBytes packet.seqNum data.chars acked).seqOfFirstRecvWindow=
        acked.seqOfFirstRecvWindow := by rw [hstore]
    rw [hnext] at hbelow
    simp only [receiveNewData,hupdate]
    rw [hstore,heq,hport]
    rw [heq] at hbelow hkeeps
    exact {
      first_le := by simp
      le_top := by simp only [topNumber]; omega
      top_le := by simp only [topNumber]; omega
      id := Or.inl rfl
      listens := id
      received := by
        intro bound hs hp
        obtain ⟨hn,hvalid⟩ := hbelow bound (hkeeps bound hs (hp packet rfl))
        have hstart := hs.next
        exact {
          next := by
            simp only at hn ⊢
            rcases Nat.eq_zero_or_pos n with h0|hpos
            · omega
            · have := hn hpos
              omega
          fresh := by
            rintro (h|h)
            · rw [he] at h
              cases h
            · rw [he] at h
              cases h
          cells := fun _ => hvalid}
      built := by
        intro p hp
        rw [Option.toList_some,List.mem_singleton] at hp
        subst hp
        exact builtBy_control rfl rfl (by simp only; omega)
          (by simp only [topNumber]; omega) (by decide)}

/-- A packet handed to a connection's socket. -/
theorem handlePacket_numbers (env : Env) (manager : NetworkManager) {s : Socket}
    (packet : TCPPacket) (srcIp : CString) (hl : s.state≠.listen) :
    NumbersMove s (handlePacket env manager s packet srcIp).socket (some packet)
      (handlePacket env manager s packet srcIp).reply.toList := by
  have houtcome := handlePacket_outcome env manager packet srcIp hl
  generalize handlePacket env manager s packet srcIp=handled at houtcome ⊢
  cases houtcome with
  | ignored => exact .same rfl rfl rfl rfl rfl (Or.inl rfl) (by simp)
  | reset =>
    exact .same rfl rfl rfl rfl rfl (Or.inr (by simp [Settled,Connected])) (by simp)
  | connected hstate =>
    exact {
      first_le := le_rfl
      le_top := by simp only [quiet_socket,topNumber]; omega
      top_le := le_rfl
      id := Or.inl rfl
      listens := by simp
      received := by
        intro bound hs hp
        have hnumber := (hp packet rfl).number
        exact {
          next := by simp only [quiet_socket]; omega
          fresh := by simp
          cells := by
            intro _ i hi
            rw [quiet_socket,hs.fresh (Or.inl hstate) i] at hi
            cases hi}
      built := by simp}
  | accepted hstate =>
    exact {
      first_le := le_rfl
      le_top := by simp only [quiet_socket,topNumber]; omega
      top_le := le_rfl
      id := Or.inl rfl
      listens := by simp
      received := by
        intro bound hs _
        exact {
          next := hs.next
          fresh := by simp
          cells := by
            intro _ i hi
            rw [quiet_socket,hs.fresh (Or.inr hstate) i] at hi
            cases hi}
      built := by simp}
  | taken hstate hport hsyn hfin =>
    exact handlePacketEstablished_numbers env manager hstate hsyn hfin hport
  | finished =>
    exact .finish rfl (Or.inr rfl) rfl rfl (by simp [Settled,Connected]) (by simp)
  | finAcked state clock _ hedge =>
    refine .same rfl rfl rfl rfl rfl (Or.inr ?_) (by simp)
    rcases hedge with ⟨_,rfl⟩|⟨_,rfl⟩|⟨_,rfl⟩
    all_goals simp [Settled,Connected]
  | finTaken state clock _ _ hedge =>
    refine .finish rfl (Or.inl rfl) rfl rfl ?_ (by simp)
    rcases hedge with rfl|⟨rfl,_⟩
    all_goals simp [Settled,Connected]
  | finAnswered _ _ hport =>
    refine .finish rfl (Or.inl rfl) rfl rfl (by simp [Settled,Connected]) ?_
    intro p hp
    simp only [Option.toList_some,List.mem_singleton] at hp
    subst hp
    rw [hport]
    exact builtBy_control rfl rfl (by simp only; omega) (by simp only [topNumber]; omega)
      (by decide)

/-- The same with the reply handed on. -/
theorem afterReply_numbers (env : Env) (manager : NetworkManager) {s : Socket}
    (packet : TCPPacket) (srcIp : CString) (hl : s.state≠.listen) :
    NumbersMove s ((handlePacket env manager s packet srcIp).afterReply env) (some packet)
      (handlePacket env manager s packet srcIp).reply.toList := by
  have hmove := handlePacket_numbers env manager packet srcIp hl
  unfold Handled.afterReply
  split
  · exact hmove.clock env.now
  · exact hmove

/-- `check_and_handle_send_window`. -/
theorem checkAndHandleSendWindow_numbers (env : Env) (s : Socket) :
    NumbersMove s (checkAndHandleSendWindow env s).socket none
      ((checkAndHandleSendWindow env s).attempts.map Prod.fst) := by
  rcases checkAndHandleSendWindow_cases env s with he|⟨_,q,clock,data,hlist,hdata,he⟩
  · rw [he]
    exact .same rfl rfl rfl rfl rfl (Or.inl rfl) (by simp [idle])
  have hsize : q.size=s.sendWindow.size := by rw [←length_toList,hlist,length_toList]
  have hlen := hdata.length_le
  rw [length_toList] at hlen
  rw [he]
  refine .same hsize rfl rfl rfl rfl (Or.inl rfl) ?_
  intro p hp
  obtain rfl := List.mem_singleton.mp hp
  exact {
    ports := ⟨rfl,rfl⟩
    number := by simp only [constructPacket]; omega
    data := ⟨data,rfl,by simp only [constructPacket,topNumber,CString.strlen]; omega⟩
    ack := rfl
    flags := by simp only [constructPacket]; decide}

/-- The packets of the timer pass. -/
theorem builtBy_status {s : Socket} {p : TCPPacket} (h : StatusPacket s p) :
    BuiltBy s s.seqOfFirstRecvWindow p := by
  cases h with
  | syn | synAck => exact builtBy_handshakePacket (by decide)
  | reset | fin | finAck => exact builtBy_bareControl (by decide)

/-- `check_and_handle_outgoing_status_messages`. -/
theorem checkAndHandleOutgoingStatusMessages_numbers (env : Env) (s : Socket) :
    NumbersMove s (checkAndHandleOutgoingStatusMessages env s).socket none
      ((checkAndHandleOutgoingStatusMessages env s).attempts.map Prod.fst) := by
  have houtcome := checkAndHandleOutgoingStatusMessages_outcome env s
  generalize checkAndHandleOutgoingStatusMessages env s=passed at houtcome ⊢
  cases houtcome with
  | sends _ _ hpackets =>
    exact .same rfl rfl rfl rfl rfl (Or.inl rfl) (fun p hp => builtBy_status (hpackets p hp))
  | timedOut _ _ _ hpackets =>
    exact .same rfl rfl rfl rfl rfl (Or.inr (by simp [Settled,Connected]))
      (fun p hp => builtBy_status (hpackets p hp))
  | expires =>
    exact .same rfl rfl rfl rfl rfl (Or.inr (by simp [Settled,Connected,idle])) (by simp [idle])
  | finishes =>
    exact {
      first_le := by simp [idle]
      le_top := le_rfl
      top_le := by simp [idle,topNumber]
      id := Or.inl rfl
      listens := by simp [idle]
      received := fun _ h _ => receivedBelow_of_settled (by simp [Settled,Connected,idle]) h.next
      built := by simp [idle]}
  | moves hstate q moved left hlist =>
    have hsize := congrArg List.length hlist
    rw [List.length_append,length_toList,length_toList] at hsize
    exact {
      first_le := le_rfl
      le_top := by simp only [topNumber]; omega
      top_le := by simp only [topNumber]; omega
      id := Or.inl rfl
      listens := id
      received := fun _ h _ => ⟨h.next,h.fresh,h.cells⟩
      built := by simp}

/-- A close command. -/
theorem closeCommand_numbers (env : Env) (s : Socket) :
    NumbersMove s (closeCommand env s) none [] where
  first_le := by simp [closeCommand]
  le_top := le_rfl
  top_le := by simp [closeCommand,topNumber]
  id := by
    simp only [closeCommand]
    split
    · exact Or.inr rfl
    · exact Or.inl rfl
  listens := by simp [closeCommand]
  received := fun _ h _ =>
    receivedBelow_of_settled (by simp [Settled,Connected,closeCommand]) h.next
  built := by simp

end NetworkLayer.NumberMoves
