import NetworkLayer.SocketSteps
import NetworkLayer.StepRuns

/-!
# Reassembly in any order

A receiver takes data packets in the order they come, with repetitions and
overlaps, while its user's fifo takes as much of the valid run as it likes.
As long as no two of them disagree, what it has delivered and what its window
holds are together the union of the first window and of all packets.
-/

namespace NetworkLayer.Reassembly

open ByteStrings UtilTypes FifoUtils TcpPackets PacketHandlers SocketSteps WindowedStreams StepRuns

/-- A socket and all bytes it has handed to its user. -/
structure Receiver where
  /-- The receiving socket. -/
  socket : Socket
  /-- The bytes delivered so far. -/
  delivered : List Byte

/-- A packet with data is received. -/
def receive (r : Receiver) (arrival : Env×TCPPacket) : Receiver :=
  match arrival.2.data with
  | none => r
  | some data =>
    let received := receiveNewData arrival.1 r.socket arrival.2 data
    ⟨received.1,r.delivered++received.2⟩

/-- The packet has a byte at a sequence number. -/
def Carries (packet : TCPPacket) (p : ℤ) (b : Byte) : Prop :=
  ∃ data,packet.data=some data ∧ Placed packet.seqNum data.chars p b

/-- The window of the socket has a byte at a sequence number. -/
def InWindow (socket : Socket) (p : ℤ) (b : Byte) : Prop :=
  Held socket.seqOfFirstRecvWindow socket.recvWindow socket.recvWindowIsvalid p b

/-- The union of the socket's window and the packets, from the next expected
number on. -/
def Known (socket : Socket) (packets : List TCPPacket) (p : ℤ) (b : Byte) : Prop :=
  socket.seqOfFirstRecvWindow ≤ p ∧ (InWindow socket p b ∨ ∃ packet∈packets,Carries packet p b)

/-- What the receiver has, delivered since `first` or still in its window. -/
def Receiver.Has (r : Receiver) (first p : ℤ) (b : Byte) : Prop :=
  Placed first r.delivered p b ∨ InWindow r.socket p b

/-- The delivered bytes are known ones, one for each sequence number from
`first` up to the next expected one. -/
def Receiver.DeliversFrom (r : Receiver) (first : ℤ) (known : ℤ → Byte → Prop) : Prop :=
  r.socket.seqOfFirstRecvWindow=first+r.delivered.length ∧
    ∀ p b,Placed first r.delivered p b → known p b

/-- The places in the arrays that the loop of `receiveNewData` uses. -/
def storeIndices (seqNum : ℤ) : List Byte → Socket → List ℤ
  | [],_ => []
  | b::rest,socket =>
    let placeInWindow := seqNum-socket.seqOfFirstRecvWindow
    (if 0 ≤ placeInWindow ∧ placeInWindow < maxWindowSize then [placeInWindow] else [])++
      storeIndices (seqNum+1) rest (storeByte seqNum b socket)

/-- The places in the arrays that `update_recv_window` uses: those it scans
and writes to the fifo, the source and the target of each copy, and those it
clears. -/
def updateIndices (env : Env) (socket : Socket) : List ℤ :=
  let validRecvs := filled socket.recvWindowIsvalid
  (List.range (min (validRecvs+1) maxWindowSize)).map (fun i : ℕ => (i : ℤ))++
    match writeStringToFifoName env validRecvs with
    | none => []
    | some bytesWrittenToUser =>
      (List.range (maxWindowSize-bytesWrittenToUser : ℤ).toNat).flatMap
          (fun i : ℕ => [(i : ℤ),i+bytesWrittenToUser])++
        (List.range bytesWrittenToUser).map fun i : ℕ => (maxWindowSize-bytesWrittenToUser : ℤ)+i

/-- The places in the arrays that are used for a packet. -/
def receiveIndices (r : Receiver) (arrival : Env×TCPPacket) : List ℤ :=
  match arrival.2.data with
  | none => []
  | some data => storeIndices arrival.2.seqNum data.chars r.socket++
      updateIndices arrival.1 (storeBytes arrival.2.seqNum data.chars r.socket)

/-- The places of stored bytes are in the window. -/
theorem storeIndices_inside (seqNum : ℤ) (bytes : List Byte) (socket : Socket) :
    ∀ i∈storeIndices seqNum bytes socket,0 ≤ i ∧ i < maxWindowSize := by
  induction bytes generalizing seqNum socket with
  | nil => simp [storeIndices]
  | cons b rest ih =>
    intro i hi
    rw [storeIndices,List.mem_append] at hi
    rcases hi with hi|hi
    · split at hi
      · next hplace =>
        obtain rfl := List.mem_singleton.mp hi
        exact hplace
      · cases hi
    · exact ih _ _ i hi

/-- So are the places of the shift. -/
theorem updateIndices_inside (env : Env) (socket : Socket) :
    ∀ i∈updateIndices env socket,0 ≤ i ∧ i < maxWindowSize := by
  intro i hi
  have hfilled := filled_le socket.recvWindowIsvalid
  rw [updateIndices,List.mem_append] at hi
  rcases hi with hi|hi
  · obtain ⟨k,hk,rfl⟩ := List.mem_map.mp hi
    rw [List.mem_range] at hk
    omega
  · rw [writeStringToFifoName] at hi
    cases htaken : env.taken with
    | none =>
      rw [htaken] at hi
      cases hi
    | some n =>
      rw [htaken,Option.map_some] at hi
      simp only [List.mem_append] at hi
      rcases hi with hi|hi
      · obtain ⟨k,hk,hik⟩ := List.mem_flatMap.mp hi
        rw [List.mem_range] at hk
        simp only [List.mem_cons,List.not_mem_nil,or_false] at hik
        omega
      · obtain ⟨k,hk,rfl⟩ := List.mem_map.mp hi
        rw [List.mem_range] at hk
        omega

/-- And all places used for a packet. -/
theorem receiveIndices_inside (r : Receiver) (arrival : Env×TCPPacket) :
    ∀ i∈receiveIndices r arrival,0 ≤ i ∧ i < maxWindowSize := by
  intro i hi
  unfold receiveIndices at hi
  split at hi
  · cases hi
  · rcases List.mem_append.mp hi with hi|hi
    · exact storeIndices_inside _ _ _ i hi
    · exact updateIndices_inside _ _ i hi

section

variable {known : ℤ → Byte → Prop} {first : ℤ} {delivered : List Byte}

/-- One byte that is known adds itself, if it is from `first` on. -/
theorem storeByte_has (hunique : ∀ p b c,known p b → known p c → b=c) {seqNum : ℤ} {b : Byte}
    {socket : Socket} (hnext : socket.seqOfFirstRecvWindow=first+delivered.length)
    (hhas : ∀ p c,Receiver.Has ⟨socket,delivered⟩ first p c → known p c)
    (hbyte : first ≤ seqNum → known seqNum b) (hhigh : seqNum < first+maxWindowSize) :
    ∀ p c,Receiver.Has ⟨storeByte seqNum b socket,delivered⟩ first p c ↔
      Receiver.Has ⟨socket,delivered⟩ first p c ∨ first ≤ p ∧ p=seqNum ∧ b=c := by
  intro p c
  have hsame : (first ≤ p → p=seqNum → b=c → Receiver.Has ⟨socket,delivered⟩ first p c) →
      (Receiver.Has ⟨socket,delivered⟩ first p c ↔
        Receiver.Has ⟨socket,delivered⟩ first p c ∨ first ≤ p ∧ p=seqNum ∧ b=c) := by
    intro h
    constructor
    · exact Or.inl
    · rintro (h'|⟨hle,hp,hb⟩)
      · exact h'
      · exact h hle hp hb
  unfold storeByte
  dsimp only
  split
  · next hplace =>
    split
    · next hfree =>
      simp only [Receiver.Has,InWindow]
      rw [held_store_iff hfree,←or_assoc]
      apply or_congr_right
      constructor
      · rintro ⟨hp,hc⟩
        simp only at hp
        exact ⟨by omega,by omega,hc⟩
      · rintro ⟨_,hp,hc⟩
        exact ⟨by simp only; omega,hc⟩
    · next htaken =>
      apply hsame
      rintro hle rfl rfl
      have hheld : InWindow socket p (socket.recvWindow
          ⟨(p-socket.seqOfFirstRecvWindow).toNat,by omega⟩) :=
        ⟨_,by simp only; omega,by simpa using htaken,rfl⟩
      have hcell := hunique p _ _ (hbyte hle) (hhas p _ (Or.inr hheld))
      rw [hcell]
      exact Or.inr hheld
  · next hplace =>
    apply hsame
    rintro hle rfl rfl
    have hpast : p < first+delivered.length := by omega
    obtain ⟨c,hc⟩ := exists_placed hle hpast
    rw [hunique p _ _ (hbyte hle) (hhas p c (Or.inl hc))]
    exact Or.inl hc

/-- Storing the bytes of a known segment adds them from `first` on. -/
theorem storeBytes_has (hunique : ∀ p b c,known p b → known p c → b=c) {seqNum : ℤ}
    {bytes : List Byte} {socket : Socket}
    (hnext : socket.seqOfFirstRecvWindow=first+delivered.length)
    (hhas : ∀ p c,Receiver.Has ⟨socket,delivered⟩ first p c → known p c)
    (hbytes : ∀ p c,Placed seqNum bytes p c →
      (first ≤ p → known p c) ∧ p < first+maxWindowSize) :
    ∀ p c,Receiver.Has ⟨storeBytes seqNum bytes socket,delivered⟩ first p c ↔
      Receiver.Has ⟨socket,delivered⟩ first p c ∨ first ≤ p ∧ Placed seqNum bytes p c := by
  induction bytes generalizing seqNum socket with
  | nil => simp [storeBytes,Placed]
  | cons b rest ih =>
    obtain ⟨hknown,hhigh⟩ := hbytes seqNum b (placed_cons_iff.mpr (Or.inl ⟨rfl,rfl⟩))
    have hstore := storeByte_has hunique hnext hhas hknown hhigh
    obtain ⟨cells,valid,hframe⟩ := storeByte_frame seqNum b socket
    have hnext' : (storeByte seqNum b socket).seqOfFirstRecvWindow=first+delivered.length := by
      rw [hframe]
      exact hnext
    have hhas' : ∀ p c,Receiver.Has ⟨storeByte seqNum b socket,delivered⟩ first p c →
        known p c := by
      intro p c hpc
      rcases (hstore p c).mp hpc with h|⟨hle,rfl,rfl⟩
      · exact hhas p c h
      · exact hknown hle
    have hrest := ih hnext' hhas' fun p c h => hbytes p c (placed_cons_iff.mpr (Or.inr h))
    intro p c
    rw [storeBytes,hrest p c,hstore p c,placed_cons_iff,or_assoc,←and_or_left]

/-- Handing bytes to the user loses and adds nothing. -/
theorem updateRecvWindow_has (env : Env) {socket : Socket}
    (hnext : socket.seqOfFirstRecvWindow=first+delivered.length) :
    let updated := updateRecvWindow env socket
    updated.1.seqOfFirstRecvWindow=first+(delivered++updated.2).length ∧
      ∀ p c,Receiver.Has ⟨updated.1,delivered++updated.2⟩ first p c ↔
        Receiver.Has ⟨socket,delivered⟩ first p c := by
  intro updated
  cases htaken : env.taken with
  | none =>
    have hupdated : updated=(socket,[]) := by
      simp only [updated,updateRecvWindow,writeStringToFifoName,htaken,Option.map_none]
    rw [hupdated]
    simp only [List.append_nil]
    exact ⟨hnext,fun _ _ => trivial⟩
  | some n =>
    have hk : min n (filled socket.recvWindowIsvalid) ≤ filled socket.recvWindowIsvalid :=
      Nat.min_le_right _ _
    generalize hm : min n (filled socket.recvWindowIsvalid)=k at hk
    have hupdated : updated=({socket with
        seqOfFirstRecvWindow := socket.seqOfFirstRecvWindow+k
        recvWindow := copyDown k socket.recvWindow
        recvWindowIsvalid := clearFrom (maxWindowSize-k) (copyDown k socket.recvWindowIsvalid)},
        (List.ofFn socket.recvWindow).take k) := by
      simp only [updated,updateRecvWindow,writeStringToFifoName,htaken,Option.map_some,hm]
    have hlen : ((List.ofFn socket.recvWindow).take k).length=k := by
      have := filled_le socket.recvWindowIsvalid
      rw [List.length_take,List.length_ofFn]
      omega
    rw [hupdated]
    refine ⟨?_,?_⟩
    · simp only [List.length_append,hlen]
      omega
    · intro p c
      simp only [Receiver.Has,InWindow]
      rw [placed_append_iff,←hnext,or_assoc,delivered_or_held_iff hk]

/-- A received packet adds its bytes from `first` on. -/
theorem receive_has (hunique : ∀ p b c,known p b → known p c → b=c) {r : Receiver}
    {arrival : Env×TCPPacket}
    (hnext : r.socket.seqOfFirstRecvWindow=first+r.delivered.length)
    (hhas : ∀ p c,r.Has first p c → known p c)
    (hbytes : ∀ p c,Carries arrival.2 p c → (first ≤ p → known p c) ∧ p < first+maxWindowSize) :
    (receive r arrival).socket.seqOfFirstRecvWindow=first+(receive r arrival).delivered.length ∧
      ∀ p c,(receive r arrival).Has first p c ↔
        r.Has first p c ∨ first ≤ p ∧ Carries arrival.2 p c := by
  unfold receive
  cases hdata : arrival.2.data with
  | none =>
    refine ⟨hnext,fun p c => ⟨Or.inl,?_⟩⟩
    rintro (h|⟨_,data,hsome,_⟩)
    · exact h
    · rw [hdata] at hsome
      cases hsome
  | some data =>
    have hcarries : ∀ p c,Carries arrival.2 p c ↔ Placed arrival.2.seqNum data.chars p c := by
      intro p c
      constructor
      · rintro ⟨data',hsome,h⟩
        rw [hdata] at hsome
        obtain rfl := Option.some.inj hsome
        exact h
      · exact fun h => ⟨data,hdata,h⟩
    have hsegment : ∀ p c,Placed arrival.2.seqNum data.chars p c →
        (first ≤ p → known p c) ∧ p < first+maxWindowSize := by
      intro p c h
      exact hbytes p c ((hcarries p c).mpr h)
    have hstored := storeBytes_has hunique hnext hhas hsegment
    obtain ⟨cells,valid,hframe⟩ := storeBytes_frame arrival.2.seqNum data.chars r.socket
    have hnext' : (storeBytes arrival.2.seqNum data.chars r.socket).seqOfFirstRecvWindow=
        first+r.delivered.length := by
      rw [hframe]
      exact hnext
    obtain ⟨hafter,hupdated⟩ := updateRecvWindow_has arrival.1 hnext'
    refine ⟨hafter,?_⟩
    intro p c
    exact (hupdated p c).trans ((hstored p c).trans (or_congr_right (by rw [hcarries])))

end

/-- A run of arrivals delivers known bytes all along and adds exactly the bytes
of the packets that come. -/
theorem run_has {known : ℤ → Byte → Prop} {first : ℤ}
    (hunique : ∀ p b c,known p b → known p c → b=c) {r : Receiver}
    (hnext : r.socket.seqOfFirstRecvWindow=first+r.delivered.length)
    (hhas : ∀ p c,r.Has first p c → known p c) {arrivals : List (Env×TCPPacket)}
    (hbytes : ∀ arrival∈arrivals,∀ p c,Carries arrival.2 p c →
      (first ≤ p → known p c) ∧ p < first+maxWindowSize) :
    EachState receive (fun r => r.DeliversFrom first known) r arrivals ∧
      ∀ p c,(run receive r arrivals).Has first p c ↔
        r.Has first p c ∨ first ≤ p ∧ ∃ arrival∈arrivals,Carries arrival.2 p c := by
  have hdelivers : r.DeliversFrom first known := ⟨hnext,fun p c h => hhas p c (Or.inl h)⟩
  induction arrivals generalizing r with
  | nil => exact ⟨hdelivers,fun p c => by simp⟩
  | cons arrival rest ih =>
    have hfirst := hbytes arrival List.mem_cons_self
    obtain ⟨hnext',hadds⟩ := receive_has hunique hnext hhas hfirst
    have hhas' : ∀ p c,(receive r arrival).Has first p c → known p c := by
      intro p c h
      rcases (hadds p c).mp h with h|⟨hle,h⟩
      · exact hhas p c h
      · exact (hfirst p c h).1 hle
    obtain ⟨hall,hrun⟩ := ih hnext' hhas'
      (fun a ha => hbytes a (List.mem_cons_of_mem _ ha))
      ⟨hnext',fun p c h => hhas' p c (Or.inl h)⟩
    refine ⟨⟨hdelivers,hall⟩,?_⟩
    intro p c
    rw [run_cons,hrun p c,hadds p c,or_assoc,←and_or_left]
    simp only [List.mem_cons,exists_eq_or_imp]

/-- Every socket, with any window, and every list of packets whose bytes lie
below the end of the window and agree where they and the window meet: in
whatever order the packets come, however often, and however much the user's
fifo takes each time, the delivered bytes are always the known ones from the
next expected number on, without gap or repetition; at the end the delivered
bytes and the window are exactly what is known; and no place outside the
arrays is used. -/
theorem order_independent (socket : Socket) {packets : List TCPPacket}
    (hbelow : ∀ packet∈packets,∀ p b,Carries packet p b →
      p < socket.seqOfFirstRecvWindow+maxWindowSize)
    (hagree : ∀ p b c,Known socket packets p b → Known socket packets p c → b=c)
    {arrivals : List (Env×TCPPacket)}
    (hsame : ∀ packet,packet∈arrivals.map Prod.snd ↔ packet∈packets) :
    EachState receive (fun r => r.DeliversFrom socket.seqOfFirstRecvWindow (Known socket packets))
        ⟨socket,[]⟩ arrivals ∧
      (∀ p b,(run receive ⟨socket,[]⟩ arrivals).Has socket.seqOfFirstRecvWindow p b ↔
        Known socket packets p b) ∧
      EachStep receive (fun r arrival => ∀ i∈receiveIndices r arrival,0 ≤ i ∧ i < maxWindowSize)
        ⟨socket,[]⟩ arrivals := by
  have hstart : ∀ p c,Receiver.Has ⟨socket,[]⟩ socket.seqOfFirstRecvWindow p c ↔
      InWindow socket p c := by
    intro p c
    simp [Receiver.Has,Placed]
  have hwindow : ∀ p c,InWindow socket p c → Known socket packets p c := by
    rintro p c ⟨i,hp,hcell⟩
    exact ⟨by omega,Or.inl ⟨i,hp,hcell⟩⟩
  have hcarried : ∀ p c,(∃ arrival∈arrivals,Carries arrival.2 p c) ↔
      ∃ packet∈packets,Carries packet p c := by
    intro p c
    simp only [←hsame,List.mem_map,exists_exists_and_eq_and]
  have hbytes : ∀ arrival∈arrivals,∀ p c,Carries arrival.2 p c →
      (socket.seqOfFirstRecvWindow ≤ p → Known socket packets p c) ∧
        p < socket.seqOfFirstRecvWindow+maxWindowSize := by
    intro arrival ha p c h
    have hmem := (hsame arrival.2).mp (List.mem_map_of_mem ha)
    exact ⟨fun hle => ⟨hle,Or.inr ⟨arrival.2,hmem,h⟩⟩,hbelow arrival.2 hmem p c h⟩
  obtain ⟨hall,hrun⟩ := run_has hagree (r:=⟨socket,[]⟩) (by simp)
    (fun p c h => hwindow p c ((hstart p c).mp h)) hbytes
  refine ⟨hall,?_,eachStep_of_invariant (P:=fun _ => True) (fun _ _ _ => trivial)
    (fun r a _ => receiveIndices_inside r a) trivial arrivals⟩
  intro p b
  rw [hrun p b,hstart p b,hcarried p b,Known,and_or_left]
  exact or_congr_left ⟨fun h => ⟨(hwindow p b h).1,h⟩,fun h => h.2⟩

/-- A packet with two bytes of the stream 1, 2, 3 from sequence number 0 on. -/
def twoBytes (p : Fin 2) : TCPPacket :=
  ⟨90,80,p.val,0,ackFlag,0,some (CString.ofCells (if p=0 then [1,2] else [2,3]))⟩

/-- Both packets come in the wrong order, one of them twice. -/
theorem order_independent_two :
    let socket := createNewSocket 0 ⟨80,90,emptyIp,emptyIp⟩ .established
    let packets := [twoBytes 0,twoBytes 1]
    let arrivals := [(smoothEnv 0 none,twoBytes 1),({smoothEnv 0 none with taken := some 1},
      twoBytes 0),(smoothEnv 0 none,twoBytes 1)]
    EachState receive (fun r => r.DeliversFrom socket.seqOfFirstRecvWindow (Known socket packets))
        ⟨socket,[]⟩ arrivals ∧
      (∀ p b,(run receive ⟨socket,[]⟩ arrivals).Has socket.seqOfFirstRecvWindow p b ↔
        Known socket packets p b) ∧
      EachStep receive (fun r arrival => ∀ i∈receiveIndices r arrival,0 ≤ i ∧ i < maxWindowSize)
        ⟨socket,[]⟩ arrivals := by
  intro socket packets arrivals
  have hstream : ∀ packet∈packets,∀ p b,Carries packet p b → Placed (0 : ℤ) [1,2,3] p b := by
    intro packet hm p b hb
    simp only [packets,List.mem_cons,List.not_mem_nil,or_false] at hm
    obtain ⟨data,hdata,hplaced⟩ := hb
    rcases hm with rfl|rfl
    · obtain rfl := Option.some.inj hdata
      exact placed_append_iff.mpr (Or.inl hplaced)
    · obtain rfl := Option.some.inj hdata
      exact placed_cons_iff.mpr (Or.inr hplaced)
  have hempty : ∀ p b,¬InWindow socket p b := by
    rintro p b ⟨i,_,hv,_⟩
    cases hv
  refine order_independent socket ?_ ?_ ?_
  · intro packet hm p b hb
    have hbounds := (hstream packet hm p b hb).bounds
    simp only [List.length_cons,List.length_nil] at hbounds
    have hnext : socket.seqOfFirstRecvWindow=0 := rfl
    have hsize : maxWindowSize=1024 := rfl
    omega
  · rintro p b c ⟨_,hb|⟨first,hfirst,hb⟩⟩ ⟨_,hc|⟨second,hsecond,hc⟩⟩
    · exact absurd hb (hempty p b)
    · exact absurd hb (hempty p b)
    · exact absurd hc (hempty p c)
    · exact (hstream first hfirst p b hb).unique (hstream second hsecond p c hc)
  · intro packet
    simp only [arrivals,packets,List.map_cons,List.map_nil,List.mem_cons,List.not_mem_nil,or_false]
    tauto

end NetworkLayer.Reassembly
