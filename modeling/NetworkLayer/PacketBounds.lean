import NetworkLayer.AccessLogs
import NetworkLayer.PacketAgreement
import NetworkLayer.PacketDispatch

/-!
# Which bytes the reading of a packet accesses

The functions that read, decode and validate a packet once more, with every
byte of a buffer that they index. A terminator is stored one byte behind the
array of the header; a header is copied even to a buffer that is too small
for it; and a packet without data is decoded from NULL. Everything else is in
bounds, whatever the fifo holds.
-/

namespace NetworkLayer.PacketBounds

open ByteStrings CellBlocks FormattedText AccessLogs UtilTypes FifoReads IpPackets TcpPackets
open PacketHandlers PacketFraming ReadingEnds PacketAgreement PacketDispatch

/-- The buffers of the functions. -/
inductive Buffer
  /-- `total_length_str`. -/
  | totalLengthStr
  /-- `packet_str`. -/
  | packetStr
  /-- `src_ip` of an IP packet. -/
  | srcIp
  /-- `dst_ip` of an IP packet. -/
  | dstIp
  /-- `data` of an IP packet; there is nothing behind NULL. -/
  | data
  /-- `ip` of the manager. -/
  | managerIp
  /-- `data` of a TCP packet. -/
  | tcpData
  deriving DecidableEq

section

variable (schedule : Schedule) (buffer : Buffer) (size : ℤ)

/-- `readRest` into a buffer of a size. -/
def readRestLogged (start len : ℕ) : ℕ → ℕ → (ℕ → Byte) → Fifo → Logged Buffer Reading
  | _,0,buf,fifo => pure ⟨len,buf,fifo⟩
  | 0,_+1,_,_ => diverge
  | fuel+1,bytesLeft+1,buf,fifo =>
    match FifoReads.read schedule fifo (bytesLeft+1) with
    | (.again,next) => pure ⟨0,buf,next⟩
    | (.failed,next) => pure ⟨-1,buf,next⟩
    | (.bytes data,next) => do
      touch (touches buffer size (start+len-(bytesLeft+1) : ℕ) data.length)
      readRestLogged start len fuel (bytesLeft+1-data.length)
        (storeBlock buf (start+len-(bytesLeft+1)) data) next

/-- `read_entire_message` into a buffer of a size. -/
def readEntireMessageLogged (fuel start : ℕ) (len : ℤ) (buf : ℕ → Byte) (fifo : Fifo) :
    Logged Buffer Reading :=
  if len < 0 then pure ⟨-1,buf,fifo⟩
  else match FifoReads.read schedule fifo len.toNat with
    | (.bytes [],next) => pure ⟨0,buf,next⟩
    | (.again,next) => pure ⟨0,buf,next⟩
    | (.failed,next) => pure ⟨-1,buf,next⟩
    | (.bytes data,next) => do
      touch (touches buffer size start data.length)
      readRestLogged schedule buffer size start len.toNat fuel (len.toNat-data.length)
        (storeBlock buf start data) next

/-- `read_nonzero_entire_message` into a buffer of a size. -/
def readNonzeroEntireMessageLogged (start : ℕ) (len : ℤ) :
    ℕ → (ℕ → Byte) → Fifo → Logged Buffer Reading
  | 0,_,_ => diverge
  | fuel+1,buf,fifo => do
    let reading ← readEntireMessageLogged schedule buffer size fuel start len buf fifo
    if reading.result=0 then
      readNonzeroEntireMessageLogged start len fuel reading.buf reading.fifo
    else pure reading

end

/-- `strcpy1` from a place in `packet_str` to the start of another buffer:
each round reads a character and stores it, the last one being the
terminator. -/
def strcpy1Logged (dest : Buffer) (destSize size : ℤ) (s : CString) (offset count : ℕ) :
    Logged Buffer CString := do
  let rounds := ((s.chars.drop offset++[0]).take count).length
  touch (touches .packetStr size offset rounds)
  touch (touches dest destSize 0 rounds)
  pure (copied s offset count)

/-- `str_to_ip` of the string in a `packet_str` of a size. -/
def strToIpLogged (size : ℤ) (s : CString) : Logged Buffer (Option IPPacket) := do
  -- `strlen` reads up to the terminator
  touch (touches .packetStr size 0 (s.strlen+1))
  if s.strlen < 50 then pure none
  else
    touch (touches .packetStr size 0 10)
    let totalLength := strToInt (s.chars.take 10)
    let srcIp ← strcpy1Logged .srcIp 17 size s 10 16
    let dstIp ← strcpy1Logged .dstIp 17 size s 26 16
    touch [⟨.srcIp,17,16⟩,⟨.dstIp,17,16⟩]
    touch (touches .packetStr size 42 8)
    let headerChecksum := strToInt ((s.chars.drop 42).take 8)
    let dataSize := wrapInt (totalLength-50)
    if dataSize > 0 then
      let data ← strcpy1Logged .data (dataSize+1) size s 50 dataSize.toNat
      touch [⟨.data,dataSize+1,dataSize⟩]
      pure (some ⟨totalLength,srcIp,dstIp,headerChecksum,some data⟩)
    else pure (some ⟨totalLength,srcIp,dstIp,headerChecksum,none⟩)

section

variable (libc : Libc) (schedule : Schedule) (fuel : ℕ) (fresh : ℕ → ℕ → Byte)

/-- `read_ip_packet_from_file` once its `sscanf` gave a length. -/
def readBodyLogged (header : List Byte) (totalLength : ℤ) (cells : ℕ → Byte) (fifo : Fifo) :
    Logged Buffer (Option IPPacket × Fifo) := do
  let size := wrapInt (totalLength+1)
  if size < 0 then pure (none,fifo)
  else
    touch (touches .totalLengthStr 11 0 10)
    touch (touches .packetStr size 0 10)
    let packetStr := storeBlock cells 0 header
    let body ← readNonzeroEntireMessageLogged schedule .packetStr size 10 (totalLength-10) fuel
      packetStr fifo
    if body.result≠totalLength-10 then pure (none,body.fifo)
    else
      touch [⟨.packetStr,size,totalLength⟩]
      let packetStr := Function.update body.buf totalLength.toNat 0
      let packet ← strToIpLogged size
        (CString.ofCells (loadBlock packetStr 0 (totalLength.toNat+1)))
      pure (packet,body.fifo)

/-- `read_ip_packet_from_file`. -/
def readIpPacketFromFileLogged (fifo : Fifo) : Logged Buffer (Option IPPacket × Fifo) := do
  touch (touches .totalLengthStr 11 0 11)
  let header ← readEntireMessageLogged schedule .totalLengthStr 11 fuel 0 10 (fun _ => 0) fifo
  if header.result≠10 then pure (none,header.fifo)
  else
    touch [⟨.totalLengthStr,11,11⟩]
    let totalLengthStr := CString.ofCells (loadBlock header.buf 0 11)
    -- `sscanf` reads up to the terminator
    touch (touches .totalLengthStr 11 0 (totalLengthStr.strlen+1))
    match scanInt libc totalLengthStr.strlen totalLengthStr.chars with
    | none => pure (none,header.fifo)
    | some (totalLength,_) =>
      readBodyLogged schedule fuel (loadBlock header.buf 0 10) totalLength (fresh fifo.reads)
        header.fifo

end

/-- How many places of two strings `strcmp` reads: up to the first difference,
or the terminators. -/
def compared : List Byte → List Byte → ℕ
  | a::s,b::t => if a=b then compared s t+1 else 1
  | _,_ => 1

/-- `str_to_tcp` of a string in a buffer of a size. -/
def strToTcpLogged (libc : Libc) (size : ℤ) (s : CString) : Logged Buffer (Option TCPPacket) := do
  -- `sscanf` reads up to the terminator
  touch (touches .data size 0 (s.strlen+1))
  match strToTcp libc s with
  | none => pure none
  | some tcpPacket =>
    touch (touches .data size 0 (s.strlen+1))
    if s.strlen > 41 then
      let dataLength := s.strlen-41
      touch (touches .data size 41 dataLength)
      touch (touches .tcpData (dataLength+1) 0 dataLength)
      touch [⟨.tcpData,dataLength+1,dataLength⟩]
      pure (some tcpPacket)
    else pure (some tcpPacket)

/-- `handle_incoming_ip_packet` up to its last check: the TCP packet, if all
of them pass. -/
def handleIncomingIpPacketLogged (libc : Libc) (manager : NetworkManager) (packet : IPPacket) :
    Logged Buffer (Option TCPPacket) := do
  if calcIpChecksum packet≠packet.headerChecksum then pure none
  else
    let positions := compared packet.dstIp.chars manager.ip.chars
    touch (touches .dstIp 17 0 positions)
    touch (touches .managerIp (manager.ip.strlen+1) 0 positions)
    if packet.dstIp≠manager.ip then
      -- both are printed
      touch (touches .dstIp 17 0 (packet.dstIp.strlen+1))
      touch (touches .managerIp (manager.ip.strlen+1) 0 (manager.ip.strlen+1))
      pure none
    else match packet.data with
      | none =>
        -- `sscanf` of NULL
        touch [⟨.data,0,0⟩]
        pure none
      | some data =>
        let tcpPacket ← strToTcpLogged libc (wrapInt (packet.totalLength-50)+1) data
        pure (tcpPacket.filter fun tcpPacket => calcChecksum tcpPacket=tcpPacket.checksum)

/-- One packet is read from the fifo, decoded and validated. -/
def receiveLogged (libc : Libc) (schedule : Schedule) (fuel : ℕ) (fresh : ℕ → ℕ → Byte)
    (manager : NetworkManager) (fifo : Fifo) : Logged Buffer (Option TCPPacket × Fifo) := do
  let (packet,next) ← readIpPacketFromFileLogged libc schedule fuel fresh fifo
  match packet with
  | none => pure (none,next)
  | some packet =>
    let tcpPacket ← handleIncomingIpPacketLogged libc manager packet
    pure (tcpPacket,next)

/-- The string at the start of a buffer ends at a terminator. -/
theorem strlen_loaded_le {cells : ℕ → Byte} {n : ℕ} (h : cells n=0) :
    (CString.ofCells (loadBlock cells 0 (n+1))).strlen ≤ n := by
  have hlast : loadBlock cells (0+n) 1=[0] := by
    rw [loadBlock,List.range_one,List.map_singleton,Nat.add_zero,Nat.zero_add,h]
  have hle := CString.strlen_ofCells_le (loadBlock cells 0 n)
  rwa [length_loadBlock,←hlast,←loadBlock_add] at hle

/-- `strcmp` reads no further than the terminator of either string. -/
theorem compared_le (s t : List Byte) : compared s t ≤ s.length+1 ∧ compared s t ≤ t.length+1 := by
  induction s generalizing t with
  | nil => simp [compared]
  | cons a s ih =>
    cases t with
    | nil => simp [compared]
    | cons b t =>
      obtain ⟨hs,ht⟩ := ih t
      rw [compared,List.length_cons,List.length_cons]
      split <;> omega

/-- The TCP packet of a packet that passes all checks. -/
def validated (libc : Libc) (manager : NetworkManager) (packet : IPPacket) : Option TCPPacket :=
  if calcIpChecksum packet≠packet.headerChecksum then none
  else if packet.dstIp≠manager.ip then none
  else (packet.data.bind (strToTcp libc)).filter fun tcpPacket =>
    calcChecksum tcpPacket=tcpPacket.checksum

/-- It is the one that is dispatched. -/
theorem validated_iff {libc : Libc} {manager : NetworkManager} {packet : IPPacket}
    {tcpPacket : TCPPacket} :
    validated libc manager packet=some tcpPacket ↔ Checked libc manager packet tcpPacket := by
  unfold validated
  constructor
  · intro h
    split at h
    · cases h
    · next hheader =>
      split at h
      · cases h
      · next hip =>
        obtain ⟨hdecoded,hsum⟩ := Option.filter_eq_some_iff.mp h
        exact ⟨(not_not.mp hheader).symm,not_not.mp hip,hdecoded,(of_decide_eq_true hsum).symm⟩
  · rintro ⟨hheader,hip,hdecoded,hsum⟩
    rw [if_neg (by simp [hheader]),if_neg (by simp [hip]),Option.filter_eq_some_iff]
    exact ⟨hdecoded,decide_eq_true hsum.symm⟩

section

variable {schedule : Schedule} {buffer : Buffer} {size : ℤ}

/-- With its log left out the loop is the loop of the reading. -/
theorem readRestLogged_value (start len fuel bytesLeft : ℕ) (buf : ℕ → Byte) (fifo : Fifo) :
    (readRestLogged schedule buffer size start len fuel bytesLeft buf fifo).value=
      readRest schedule start len fuel bytesLeft buf fifo := by
  induction fuel generalizing bytesLeft buf fifo with
  | zero => cases bytesLeft <;> rfl
  | succ fuel ih =>
    cases bytesLeft with
    | zero => rfl
    | succ left =>
      rw [readRestLogged,readRest]
      rcases FifoReads.read schedule fifo (left+1) with ⟨result,next⟩
      cases result with
      | again => rfl
      | failed => rfl
      | bytes data => simp only [value_bind,value_touch,Option.bind_some,ih]

theorem readEntireMessageLogged_value (fuel start : ℕ) (len : ℤ) (buf : ℕ → Byte) (fifo : Fifo) :
    (readEntireMessageLogged schedule buffer size fuel start len buf fifo).value=
      readEntireMessage schedule fuel start len buf fifo := by
  rw [readEntireMessageLogged,readEntireMessage]
  split
  · rfl
  · rcases FifoReads.read schedule fifo len.toNat with ⟨result,next⟩
    cases result with
    | again => rfl
    | failed => rfl
    | bytes data =>
      cases data with
      | nil => rfl
      | cons b data =>
        simp only [value_bind,value_touch,Option.bind_some,readRestLogged_value]

theorem readNonzeroEntireMessageLogged_value (start : ℕ) (len : ℤ) (fuel : ℕ) (buf : ℕ → Byte)
    (fifo : Fifo) :
    (readNonzeroEntireMessageLogged schedule buffer size start len fuel buf fifo).value=
      readNonzeroEntireMessage schedule start len fuel buf fifo := by
  induction fuel generalizing buf fifo with
  | zero => rfl
  | succ fuel ih =>
    rw [readNonzeroEntireMessageLogged,readNonzeroEntireMessage]
    simp only [value_bind,readEntireMessageLogged_value]
    cases readEntireMessage schedule fuel start len buf fifo with
    | none => rfl
    | some reading =>
      rw [Option.bind_some]
      split
      · rename_i hzero
        simp only [if_pos hzero,ih]
      · rename_i hzero
        simp only [if_neg hzero,value_pure]

variable {property : Access Buffer → Prop}
  (hproperty : ∀ access : Access Buffer,access.InBounds → property access)

include hproperty

/-- A row of accesses within a buffer. -/
theorem touches_property {first : ℤ} {count : ℕ} (h : count=0 ∨ 0 ≤ first ∧ first+count ≤ size) :
    ∀ access∈touches buffer size first count,property access := fun access hmem =>
  hproperty access ((touches_inBounds_iff buffer size first count).mpr h access hmem)

/-- The loop stores the rest of the message only. -/
theorem readRestLogged_keeps {start len : ℕ} (hsize : (start+len : ℕ) ≤ size) (fuel : ℕ)
    {bytesLeft : ℕ} (hle : bytesLeft ≤ len) (buf : ℕ → Byte) (fifo : Fifo) :
    Keeps property (readRestLogged schedule buffer size start len fuel bytesLeft buf fifo) := by
  induction fuel generalizing bytesLeft buf fifo with
  | zero =>
    cases bytesLeft with
    | zero => exact keeps_pure _
    | succ left => exact keeps_diverge
  | succ fuel ih =>
    cases bytesLeft with
    | zero => exact keeps_pure _
    | succ left =>
      rw [readRestLogged]
      rcases hread : FifoReads.read schedule fifo (left+1) with ⟨result,next⟩
      cases result with
      | again => exact keeps_pure _
      | failed => exact keeps_pure _
      | bytes data =>
        have hdata := read_length_le hread
        exact (keeps_touch (touches_property hproperty (by omega))).bind fun _ =>
          ih (by omega) _ _

/-- So does the reading of a message. -/
theorem readEntireMessageLogged_keeps {start : ℕ} {len : ℤ} (hsize : len < 0 ∨ start+len ≤ size)
    (fuel : ℕ) (buf : ℕ → Byte) (fifo : Fifo) :
    Keeps property (readEntireMessageLogged schedule buffer size fuel start len buf fifo) := by
  rw [readEntireMessageLogged]
  split
  · exact keeps_pure _
  · rcases hread : FifoReads.read schedule fifo len.toNat with ⟨result,next⟩
    cases result with
    | again => exact keeps_pure _
    | failed => exact keeps_pure _
    | bytes data =>
      cases data with
      | nil => exact keeps_pure _
      | cons b data =>
        have hdata := read_length_le hread
        exact (keeps_touch (touches_property hproperty (by omega))).bind fun _ =>
          readRestLogged_keeps hproperty (by omega) fuel (Nat.sub_le _ _) _ _

theorem readNonzeroEntireMessageLogged_keeps {start : ℕ} {len : ℤ}
    (hsize : len < 0 ∨ start+len ≤ size) (fuel : ℕ) (buf : ℕ → Byte) (fifo : Fifo) :
    Keeps property
      (readNonzeroEntireMessageLogged schedule buffer size start len fuel buf fifo) := by
  induction fuel generalizing buf fifo with
  | zero => exact keeps_diverge
  | succ fuel ih =>
    rw [readNonzeroEntireMessageLogged]
    refine (readEntireMessageLogged_keeps hproperty hsize fuel buf fifo).bind fun reading => ?_
    split
    · exact ih _ _
    · exact keeps_pure _

end

section

variable {property : Access Buffer → Prop}
  (hproperty : ∀ access : Access Buffer,access.InBounds → property access)

include hproperty

/-- One access within a buffer. -/
theorem touch_property {buffer : Buffer} {size index : ℤ} (h : 0 ≤ index ∧ index < size) :
    ∀ access∈[(⟨buffer,size,index⟩ : Access Buffer)],property access := by
  intro access hmem
  rw [List.mem_singleton.mp hmem]
  exact hproperty _ h

/-- A copy reads no further than the terminator and stores no more than its
count. -/
theorem strcpy1Logged_runs {dest : Buffer} {destSize size : ℤ} {s : CString} {offset count : ℕ}
    (hs : (s.strlen : ℤ) < size) (hoffset : offset ≤ s.strlen) (hcount : (count : ℤ) ≤ destSize) :
    Runs property (strcpy1Logged dest destSize size s offset count) (copied s offset count)
      True := by
  have hrounds : ((s.chars.drop offset++[0]).take count).length ≤ count ∧
      offset+((s.chars.drop offset++[0]).take count).length ≤ s.strlen+1 := by
    unfold CString.strlen at hoffset ⊢
    simp only [List.length_take,List.length_append,List.length_drop,List.length_singleton]
    omega
  refine (runs_touch _).then_of (touches_property hproperty (.inr ?_)) ?_
  · omega
  refine (runs_touch _).then_of (touches_property hproperty (.inr ?_)) (runs_pure _)
  omega

/-- The decoder stays in bounds whatever the string is, if it ends within its
buffer. -/
theorem strToIpLogged_runs {size : ℤ} {s : CString} (hs : (s.strlen : ℤ) < size) :
    Runs property (strToIpLogged size s) (strToIp s) True := by
  unfold strToIpLogged strToIp
  refine (runs_touch _).then_of (touches_property hproperty (by omega)) ?_
  by_cases hshort : s.strlen < 50
  · rw [if_pos hshort,if_pos hshort]
    exact runs_pure _
  rw [if_neg hshort,if_neg hshort]
  have hends : ∀ access∈[(⟨.srcIp,17,16⟩ : Access Buffer),⟨.dstIp,17,16⟩],property access := by
    simp only [List.mem_cons,List.not_mem_nil,or_false,forall_eq_or_imp,forall_eq]
    exact ⟨hproperty _ ⟨by norm_num,by norm_num⟩,hproperty _ ⟨by norm_num,by norm_num⟩⟩
  refine (runs_touch _).then_of (touches_property hproperty (by omega)) ?_
  refine (strcpy1Logged_runs hproperty hs (by omega) (by norm_num)).then_of trivial ?_
  refine (strcpy1Logged_runs hproperty hs (by omega) (by norm_num)).then_of trivial ?_
  refine (runs_touch _).then_of hends ?_
  refine (runs_touch _).then_of (touches_property hproperty (by omega)) ?_
  by_cases hdata : wrapInt (strToInt (s.chars.take 10)-50) > 0
  · simp only [if_pos hdata]
    refine (strcpy1Logged_runs hproperty hs (by omega) (by omega)).then_of trivial ?_
    exact (runs_touch _).then_of (touch_property hproperty (by omega)) (runs_pure _)
  · simp only [if_neg hdata]
    exact runs_pure _

/-- The TCP decoder stays in bounds if its string ends within the buffer. -/
theorem strToTcpLogged_runs (libc : Libc) {size : ℤ} {s : CString} (hs : (s.strlen : ℤ) < size) :
    Runs property (strToTcpLogged libc size s) (strToTcp libc s) True := by
  unfold strToTcpLogged
  refine (runs_touch _).then_of (touches_property hproperty (by omega)) ?_
  cases hscan : strToTcp libc s with
  | none => exact runs_pure _
  | some tcpPacket =>
    refine (runs_touch _).then_of (touches_property hproperty (by omega)) ?_
    by_cases hlong : s.strlen > 41
    · rw [if_pos hlong]
      refine (runs_touch _).then_of (touches_property hproperty (by omega)) ?_
      refine (runs_touch _).then_of (touches_property hproperty (by omega)) ?_
      exact (runs_touch _).then_of (touch_property hproperty (by omega)) (runs_pure _)
    · rw [if_neg hlong]
      exact runs_pure _

end

/-- The terminator that is stored behind the array of the header. -/
def headerTerminator : Access Buffer := ⟨.totalLengthStr,11,11⟩

/-- The packet has no data and passes the checks in front of the decoder. -/
structure DecodesNull (manager : NetworkManager) (packet : IPPacket) : Prop where
  /-- There are no data. -/
  data : packet.data=none
  /-- The checksum of the header is right. -/
  header : calcIpChecksum packet=packet.headerChecksum
  /-- The packet is meant for this manager. -/
  toUs : packet.dstIp=manager.ip

/-- What the decoder puts into a packet fits its buffers. -/
theorem fits_of_strToIp {s : CString} {packet : IPPacket} (h : strToIp s=some packet) :
    packet.dstIp.strlen ≤ 16 ∧ ∀ data,packet.data=some data →
      (data.strlen : ℤ) ≤ wrapInt (packet.totalLength-50) := by
  have hcopied : ∀ offset count,(copied s offset count).strlen ≤ count := fun offset count => by
    rw [CString.strlen,copied,List.length_take]
    omega
  unfold strToIp at h
  split at h
  · cases h
  obtain rfl := Option.some.inj h
  refine ⟨hcopied 26 16,fun data hdata => ?_⟩
  simp only at hdata ⊢
  split at hdata
  · obtain rfl := Option.some.inj hdata
    have hle := hcopied 50 (wrapInt (strToInt (s.chars.take 10)-50)).toNat
    omega
  · cases hdata

section

variable {property : Access Buffer → Prop}
  (hproperty : ∀ access≠headerTerminator,property access ↔ access.InBounds)

include hproperty

/-- The terminator behind the array is not in bounds, all else decides the
property. -/
theorem property_of_inBounds (access : Access Buffer) (h : access.InBounds) :
    property access := by
  by_cases hterminator : access=headerTerminator
  · rw [hterminator] at h
    exact absurd h.2 (lt_irrefl 11)
  · exact (hproperty access hterminator).mpr h

/-- The checks of the manager stay in bounds, and use NULL exactly for a packet
without data that passes those in front of the decoder. -/
theorem handleIncomingIpPacketLogged_runs (libc : Libc) (manager : NetworkManager)
    {packet : IPPacket} (hdst : packet.dstIp.strlen ≤ 16) (hdata : ∀ data,packet.data=some data →
      (data.strlen : ℤ) ≤ wrapInt (packet.totalLength-50)) :
    Runs property (handleIncomingIpPacketLogged libc manager packet)
      (validated libc manager packet) (¬DecodesNull manager packet) := by
  have hbounds := property_of_inBounds hproperty
  obtain ⟨hdstPositions,hipPositions⟩ := compared_le packet.dstIp.chars manager.ip.chars
  unfold handleIncomingIpPacketLogged validated
  by_cases hheader : calcIpChecksum packet≠packet.headerChecksum
  · rw [if_pos hheader,if_pos hheader]
    exact (runs_pure _).congr (iff_of_true trivial fun h => hheader h.header)
  rw [if_neg hheader,if_neg hheader]
  refine (runs_touch _).then_of (touches_property hbounds (.inr ?_)) ?_
  · unfold CString.strlen at hdst
    omega
  refine (runs_touch _).then_of (touches_property hbounds (.inr ?_)) ?_
  · unfold CString.strlen
    omega
  by_cases hip : packet.dstIp≠manager.ip
  · rw [if_pos hip,if_pos hip]
    refine (runs_touch _).then_of (touches_property hbounds (by omega)) ?_
    refine (runs_touch _).then_of (touches_property hbounds (by omega)) ?_
    exact (runs_pure _).congr (iff_of_true trivial fun h => hip h.toUs)
  rw [if_neg hip,if_neg hip]
  cases hpacket : packet.data with
  | none =>
    have hnull : ¬∀ access∈[(⟨.data,0,0⟩ : Access Buffer)],property access := by
      intro h
      have hnot := (hproperty ⟨.data,0,0⟩ (by decide)).mp (h _ List.mem_cons_self)
      exact lt_irrefl 0 hnot.2
    have hdecodes : DecodesNull manager packet := ⟨hpacket,not_not.mp hheader,not_not.mp hip⟩
    change Runs property (do touch [⟨.data,0,0⟩]; pure none) none _
    exact ((runs_touch _).bind (runs_pure none)).congr
      (iff_of_false (fun h => hnull h.1) fun h => h hdecodes)
  | some data =>
    have hle := hdata data hpacket
    refine (strToTcpLogged_runs hbounds libc (by omega)).then_of trivial ?_
    refine (runs_pure _).congr (iff_of_true trivial fun h => ?_)
    rw [h.data] at hpacket
    cases hpacket

/-- The header fits a buffer of one byte more than its length exactly for nine
bytes or more. -/
theorem headerCopy_iff (totalLength : ℤ) :
    (∀ access∈touches .packetStr (totalLength+1) 0 10,property access) ↔ 9 ≤ totalLength := by
  have hother : ∀ access∈touches .packetStr (totalLength+1) 0 10,access≠headerTerminator := by
    rintro access hmem rfl
    obtain ⟨_,_,he⟩ := List.mem_map.mp hmem
    cases congrArg Access.buffer he
  have hiff : (∀ access∈touches .packetStr (totalLength+1) 0 10,property access) ↔
      ∀ access∈touches Buffer.packetStr (totalLength+1) 0 10,access.InBounds :=
    forall₂_congr fun access hmem => hproperty access (hother access hmem)
  rw [hiff,touches_inBounds_iff]
  omega

/-- Behind a body that was read everything is in bounds. -/
theorem bodyLogged_runs {totalLength : ℤ} {body : Reading} (hnine : 9 ≤ totalLength) :
    Runs property (do
      touch [⟨.packetStr,totalLength+1,totalLength⟩]
      let packet ← strToIpLogged (totalLength+1) (CString.ofCells
        (loadBlock (Function.update body.buf totalLength.toNat 0) 0 (totalLength.toNat+1)))
      pure (packet,body.fifo))
      (strToIp (CString.ofCells
        (loadBlock (Function.update body.buf totalLength.toNat 0) 0 (totalLength.toNat+1))),
        body.fifo) True := by
  have hbounds := property_of_inBounds hproperty
  have hterminated : Function.update body.buf totalLength.toNat 0 totalLength.toNat=0 :=
    Function.update_self _ _ _
  have hstring := strlen_loaded_le hterminated
  refine (runs_touch _).then_of (touch_property hbounds (by omega)) ?_
  exact (strToIpLogged_runs hbounds (by omega)).then_of trivial (runs_pure _)

/-- From its `sscanf` on the reading stays in bounds exactly if no buffer is
had or there is room for the header. -/
theorem readBodyLogged_runs {schedule : Schedule} {fuel : ℕ} {header : List Byte}
    {totalLength : ℤ} (hint : IsInt totalLength) {cells : ℕ → Byte} {fifo next : Fifo}
    {packet : Option IPPacket}
    (h : readBody schedule fuel header totalLength cells fifo=some (packet,next)) :
    Runs property (readBodyLogged schedule fuel header totalLength cells fifo) (packet,next)
      (wrapInt (totalLength+1) < 0 ∨ 9 ≤ totalLength) := by
  have hbounds := property_of_inBounds hproperty
  unfold readBodyLogged
  rw [readBody] at h
  by_cases hrefused : wrapInt (totalLength+1) < 0
  · rw [if_pos hrefused] at h ⊢
    obtain ⟨rfl,rfl⟩ := Prod.mk.inj (Option.some.inj h)
    exact (runs_pure _).congr (iff_of_true trivial (.inl hrefused))
  rw [if_neg hrefused] at h ⊢
  have hmax : intMax=2147483647 := rfl
  have hmin : intMin=-2147483648 := rfl
  obtain ⟨hlow,hhigh⟩ := hint
  have hlt : totalLength < intMax := by
    by_contra hnot
    obtain rfl : totalLength=intMax := by omega
    exact hrefused (by decide)
  have hsize : wrapInt (totalLength+1)=totalLength+1 := wrapInt_of_int (by omega) (by omega)
  rw [hsize] at hrefused ⊢
  cases hbody : readNonzeroEntireMessage schedule 10 (totalLength-10) fuel
      (storeBlock cells 0 header) fifo with
  | none =>
    rw [hbody] at h
    cases h
  | some body =>
    rw [hbody] at h
    simp only at h
    have hkeeps : Keeps property (readNonzeroEntireMessageLogged schedule .packetStr
        (totalLength+1) 10 (totalLength-10) fuel (storeBlock cells 0 header) fifo) :=
      readNonzeroEntireMessageLogged_keeps hbounds (by omega) _ _ _
    have hread := hkeeps.runs ((readNonzeroEntireMessageLogged_value _ _ _ _ _).trans hbody)
    refine (runs_touch _).then_of (touches_property hbounds (by omega)) ?_
    refine Runs.congr ((runs_touch _).before (hread.before ?_)) ?_
    · by_cases hresult : body.result≠totalLength-10
      · rw [if_pos hresult] at h ⊢
        obtain ⟨rfl,rfl⟩ := Prod.mk.inj (Option.some.inj h)
        exact runs_pure _
      rw [if_neg hresult] at h ⊢
      obtain ⟨rfl,rfl⟩ := Prod.mk.inj (Option.some.inj h)
      -- a negative length makes the reading return -1, which is what nine leave
      have hnine : 9 ≤ totalLength := by
        by_contra hsmall
        have hnegative := readNonzeroEntireMessage_negative (show totalLength-10 < 0 by omega) hbody
        omega
      exact bodyLogged_runs hproperty hnine
    · rw [headerCopy_iff hproperty]
      exact ⟨Or.inr,fun h => h.resolve_left hrefused⟩

/-- Without a whole header the reading stays in bounds. -/
theorem readIpPacketFromFileLogged_short (libc : Libc) {schedule : Schedule} {fuel : ℕ}
    (fresh : ℕ → ℕ → Byte) {fifo : Fifo} {header : Reading}
    (hheader : readEntireMessage schedule fuel 0 10 (fun _ => 0) fifo=some header)
    (hshort : header.result≠10) :
    Runs property (readIpPacketFromFileLogged libc schedule fuel fresh fifo)
      (none,header.fifo) True := by
  have hbounds := property_of_inBounds hproperty
  have hkeeps : Keeps property (readEntireMessageLogged schedule .totalLengthStr 11 fuel 0 10
      (fun _ => 0) fifo) := readEntireMessageLogged_keeps hbounds (by omega) _ _ _
  have hread := hkeeps.runs ((readEntireMessageLogged_value _ _ _ _ _).trans hheader)
  unfold readIpPacketFromFileLogged
  refine (runs_touch _).then_of (touches_property hbounds (by omega)) (hread.then_of trivial ?_)
  rw [if_pos hshort]
  exact runs_pure _

/-- With one it stores the terminator, and the rest depends on the length that
the header announces. -/
theorem readIpPacketFromFileLogged_runs (libc : Libc) {schedule : Schedule} {fuel : ℕ}
    {fresh : ℕ → ℕ → Byte} {fifo next : Fifo} {packet : Option IPPacket} {header : Reading}
    (hheader : readEntireMessage schedule fuel 0 10 (fun _ => 0) fifo=some header)
    (hlong : header.result=10)
    (h : readIpPacketFromFile libc schedule fuel fresh fifo=some (packet,next)) :
    Runs property (readIpPacketFromFileLogged libc schedule fuel fresh fifo) (packet,next)
      (property headerTerminator ∧ ∀ totalLength,
        announced libc (loadBlock header.buf 0 10)=some totalLength →
          wrapInt (totalLength+1) < 0 ∨ 9 ≤ totalLength) := by
  have hbounds := property_of_inBounds hproperty
  have hkeeps : Keeps property (readEntireMessageLogged schedule .totalLengthStr 11 fuel 0 10
      (fun _ => 0) fifo) := readEntireMessageLogged_keeps hbounds (by omega) _ _ _
  have hread := hkeeps.runs ((readEntireMessageLogged_value _ _ _ _ _).trans hheader)
  have hzero : header.buf 10=0 := readEntireMessage_frame (by norm_num) hheader
  have hcells : loadBlock header.buf 0 11=loadBlock header.buf 0 10++[0] := by
    rw [show 11=10+1 from rfl,loadBlock_add]
    simp only [loadBlock,List.range_one,List.map_singleton,Nat.zero_add,Nat.add_zero,hzero]
  have hstring : (CString.ofCells (loadBlock header.buf 0 11)).strlen ≤ 10 := strlen_loaded_le hzero
  have hterminator : (∀ access∈[(⟨.totalLengthStr,11,11⟩ : Access Buffer)],property access) ↔
      property headerTerminator := by
    rw [headerTerminator,List.forall_mem_singleton]
  have hscanned : announced libc (loadBlock header.buf 0 10)=
      (scanInt libc (CString.ofCells (loadBlock header.buf 0 11)).strlen
        (CString.ofCells (loadBlock header.buf 0 11)).chars).map Prod.fst := by
    rw [announced,←hcells]
  have hnot : ¬header.result≠10 := not_not.mpr hlong
  rw [readIpPacketFromFile,hheader] at h
  simp only [if_neg hnot] at h
  unfold readIpPacketFromFileLogged
  refine (runs_touch _).then_of (touches_property hbounds (by omega)) (hread.then_of trivial ?_)
  rw [if_neg hnot]
  cases hscan : scanInt libc (CString.ofCells (loadBlock header.buf 0 11)).strlen
    (CString.ofCells (loadBlock header.buf 0 11)).chars with
  | none =>
    rw [hscan] at h hscanned
    obtain ⟨rfl,rfl⟩ := Prod.mk.inj (Option.some.inj h)
    refine Runs.congr ((runs_touch _).before
      ((runs_touch _).then_of (touches_property hbounds (by omega)) ?_)) ?_
    · rw [hscan]
      exact runs_pure _
    · rw [hterminator,hscanned]
      simp
  | some scanned =>
    obtain ⟨totalLength,rest⟩ := scanned
    rw [hscan] at h hscanned
    refine Runs.congr ((runs_touch _).bind
      ((runs_touch _).then_of (touches_property hbounds (by omega))
        (?_ : Runs property _ _ (wrapInt (totalLength+1) < 0 ∨ 9 ≤ totalLength)))) ?_
    · rw [hscan]
      exact readBodyLogged_runs hproperty (announced_int libc hscanned) h
    · rw [hterminator,hscanned]
      simp

/-- There is room for the header wherever it announces a length for which a
buffer is had. -/
def RoomForHeader (libc : Libc) (content : List Byte) : Prop :=
  ∀ totalLength,announced libc (content.take 10)=some totalLength →
    wrapInt (totalLength+1) < 0 ∨ 9 ≤ totalLength

/-- Receiving a packet stays in bounds, or not, by the content of the fifo. -/
theorem receiveLogged_runs (libc : Libc) {schedule : Schedule} (h : Steady schedule) {fuel : ℕ}
    {fresh : ℕ → ℕ → Byte} (manager : NetworkManager) {fifo next : Fifo}
    {packet : Option IPPacket}
    (hread : readIpPacketFromFile libc schedule fuel fresh fifo=some (packet,next)) :
    Runs property (receiveLogged libc schedule fuel fresh manager fifo)
      (packet.bind (validated libc manager),next) (fifo.waiting.length < 10 ∨
        (property headerTerminator ∧ RoomForHeader libc fifo.waiting) ∧
          ∀ p,packet=some p → ¬DecodesNull manager p) := by
  obtain ⟨header,hheader⟩ : ∃ header,
      readEntireMessage schedule fuel 0 10 (fun _ => 0) fifo=some header := by
    rw [←Option.ne_none_iff_exists']
    intro hnone
    rw [readIpPacketFromFile,hnone] at hread
    cases hread
  have hten : ((10 : ℕ) : ℤ)=10 := rfl
  unfold receiveLogged
  by_cases hshort : fifo.waiting.length < 10
  · have hzero := (h.readEntireMessage_short (.inr hshort) (hten.symm ▸ hheader)).1
    have hresult : header.result≠10 := by omega
    have hpair := hread
    rw [readIpPacketFromFile,hheader] at hpair
    simp only [if_pos hresult] at hpair
    obtain ⟨rfl,rfl⟩ := Prod.mk.inj (Option.some.inj hpair)
    have hshortRun := readIpPacketFromFileLogged_short hproperty libc fresh hheader hresult
    refine Runs.congr (hshortRun.before ?_) (iff_of_true trivial (Or.inl hshort))
    exact runs_pure _
  obtain ⟨hresult,hcells⟩ :=
    h.readEntireMessage_long (by norm_num) (Nat.not_lt.mp hshort) (hten.symm ▸ hheader)
  have hreading := readIpPacketFromFileLogged_runs hproperty libc hheader hresult hread
  rw [hcells] at hreading
  refine Runs.congr (hreading.bind (?_ : Runs property _ _
    (∀ p,packet=some p → ¬DecodesNull manager p))) ?_
  · cases packet with
    | none => exact (runs_pure _).congr (iff_of_true trivial (by simp))
    | some p =>
      obtain ⟨_,_,_,hdecoded⟩ := readIpPacketFromFile_some libc h hread
      obtain ⟨hdst,hdata⟩ := fits_of_strToIp hdecoded
      have hhandled := handleIncomingIpPacketLogged_runs hproperty libc manager hdst hdata
      change Runs property (handleIncomingIpPacketLogged libc manager p >>= fun tcpPacket =>
        pure (tcpPacket,next)) (validated libc manager p,next) _
      refine (hhandled.before (runs_pure (validated libc manager p,next))).congr ?_
      simp
  · exact ⟨Or.inr,fun hcondition => hcondition.resolve_left hshort⟩

end

/-- Whenever the reading of a packet returned on a fifo into which nothing is
written meanwhile, it has stayed in bounds exactly if there were fewer than
ten bytes: a whole header is terminated behind its array. All other accesses
of reading, decoding and validating are in bounds, whatever the fifo holds,
unless the header announces a length of less than nine for which a buffer is
had, or the packet has no data and passes the checks in front of its decoder. -/
theorem accesses_inBounds_iff (libc : Libc) {schedule : Schedule} (h : Steady schedule) {fuel : ℕ}
    {fresh : ℕ → ℕ → Byte} (manager : NetworkManager) {fifo next : Fifo}
    {packet : Option IPPacket}
    (hread : readIpPacketFromFile libc schedule fuel fresh fifo=some (packet,next)) :
    ∃ log,(receiveLogged libc schedule fuel fresh manager fifo).run=
        some ((packet.bind (validated libc manager),next),log) ∧
      ((∀ access∈log,access.InBounds) ↔ fifo.waiting.length < 10) ∧
      ((∀ access∈log,access≠headerTerminator → access.InBounds) ↔
        fifo.waiting.length < 10 ∨ RoomForHeader libc fifo.waiting ∧
          ∀ p rest,nextPacket libc fifo.waiting=some (p,rest) → ¬DecodesNull manager p) := by
  have hout : ¬headerTerminator.InBounds := fun hin => lt_irrefl 11 hin.2
  have hall : ∀ access : Access Buffer,access≠headerTerminator →
      (access.InBounds ↔ access.InBounds) := fun _ _ => Iff.rfl
  have hothers : ∀ access : Access Buffer,access≠headerTerminator →
      ((access≠headerTerminator → access.InBounds) ↔ access.InBounds) :=
    fun access hne => ⟨fun hin => hin hne,fun hin _ => hin⟩
  obtain ⟨log,hreturned,hall⟩ := receiveLogged_runs hall libc h manager hread
  obtain ⟨log',hreturned',hothers⟩ := receiveLogged_runs hothers libc h manager hread
  obtain rfl : log=log' := (Prod.mk.inj (Option.some.inj (hreturned.symm.trans hreturned'))).2
  have hnext := (readIpPacketFromFile_next libc h fresh hread).1
  have hpackets : (∀ p,packet=some p → ¬DecodesNull manager p) ↔
      ∀ p rest,nextPacket libc fifo.waiting=some (p,rest) → ¬DecodesNull manager p := by
    rw [hnext]
    simp [Option.map_eq_some_iff]
  refine ⟨log,hreturned,?_,?_⟩
  · rw [hall]
    simp [hout]
  · rw [hothers,←hpackets]
    simp

/-- A packet of sixty bytes is read with one access out of bounds, the one
behind the array of its header. -/
theorem accesses_inBounds_iff_sixty :
    ∃ result log,(receiveLogged zeroLibc closedReads 61 (fun _ _ => 0)
        (createNetworkManager emptyIp fun _ => false) ⟨sixty "0000000060",0⟩).run=
        some (result,log) ∧
      (¬∀ access∈log,access.InBounds) ∧
      ∀ access∈log,access≠headerTerminator → access.InBounds := by
  have hdecoded : strToIp (CString.ofCells (sixty "0000000060"++[0]))=
      some (onesPacket 60 (some tenOnes)) := by decide +kernel
  obtain ⟨next,hread,_⟩ := sixty_read "0000000060" (by decide) (by decide) hdecoded
  obtain ⟨log,hreturned,hall,hothers⟩ := accesses_inBounds_iff zeroLibc
    closedReads_drained.steady (createNetworkManager emptyIp fun _ => false) hread
  have hannounced : announced zeroLibc ((sixty "0000000060").take 10)=some 60 := by decide
  have hpacket : (nextPacket zeroLibc (sixty "0000000060")).all (fun next =>
      next.1.data.isSome)=true := by decide +kernel
  refine ⟨_,log,hreturned,fun hin => absurd (hall.mp hin) (by decide),
    hothers.mpr (Or.inr ⟨fun totalLength h => ?_,fun p rest hnext hnull => ?_⟩)⟩
  · obtain rfl := Option.some.inj (hannounced.symm.trans h)
    exact Or.inr (by decide)
  · rw [hnext,Option.all_some,hnull.data] at hpacket
    cases hpacket

/-- A packet of sixty bytes as it should be is read with an access behind the
array of its header. -/
theorem sixty_out_of_bounds :
    ∃ result log,(receiveLogged zeroLibc closedReads 61 (fun _ _ => 0)
        (createNetworkManager emptyIp fun _ => false) ⟨sixty "0000000060",0⟩).run=
        some (result,log) ∧ ¬∀ access∈log,access.InBounds := by
  have hdecoded : strToIp (CString.ofCells (sixty "0000000060"++[0]))=
      some (onesPacket 60 (some tenOnes)) := by decide +kernel
  obtain ⟨next,hread,_⟩ := sixty_read "0000000060" (by decide) (by decide) hdecoded
  have hsame : ∀ access : Access Buffer,access≠headerTerminator →
      (access.InBounds ↔ access.InBounds) := fun _ _ => Iff.rfl
  obtain ⟨log,hreturned,hall⟩ := receiveLogged_runs hsame zeroLibc closedReads_drained.steady
    (createNetworkManager emptyIp fun _ => false) hread
  refine ⟨_,log,hreturned,fun hin => ?_⟩
  rcases hall.mp hin with hshort|⟨⟨hterminator,_⟩,_⟩
  · exact absurd hshort (by decide)
  · exact lt_irrefl 11 hterminator.2

end NetworkLayer.PacketBounds
