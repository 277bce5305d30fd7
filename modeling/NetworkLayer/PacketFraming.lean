import NetworkLayer.FifoReads
import NetworkLayer.IpPackets

/-!
# Packets out of the incoming fifo

The manager reads the ten digits of a length and then as many bytes as are
missing. However short the reads are, the packets that were written come
back one by one, and epochs of ten hand every one of them on, once and in
order.
-/

namespace NetworkLayer.PacketFraming

open ByteStrings CellBlocks DecimalWords FormattedText FifoReads IpPackets

/-- `MAX_HANDLES_PER_EPOCH`. -/
def maxHandlesPerEpoch : ℕ := 10

variable (libc : Libc) (schedule : Schedule) (fuel : ℕ) (fresh : ℕ → ℕ → Byte)

/-- `read_ip_packet_from_file`: NULL or a packet. The buffer for the packet is
fresh memory; its size is computed as an `int`, and `malloc` refuses a negative
one. -/
def readIpPacketFromFile (fifo : Fifo) : Option (Option IPPacket × Fifo) :=
  match readEntireMessage schedule fuel 0 10 (fun _ => 0) fifo with
  | none => none
  | some header =>
    if header.result≠10 then some (none,header.fifo)
    else
      let totalLengthStr := CString.ofCells (loadBlock header.buf 0 11)
      match scanInt libc totalLengthStr.strlen totalLengthStr.chars with
      | none => some (none,header.fifo)
      | some (totalLength,_) =>
        if wrapInt (totalLength+1) < 0 then some (none,header.fifo)
        else
          let packetStr := storeBlock (fresh fifo.reads) 0 (loadBlock header.buf 0 10)
          match readNonzeroEntireMessage schedule 10 (totalLength-10) fuel packetStr header.fifo with
          | none => none
          | some body =>
            if body.result≠totalLength-10 then some (none,body.fifo)
            else
              let packetStr := Function.update body.buf totalLength.toNat 0
              some (strToIp (CString.ofCells (loadBlock packetStr 0 (totalLength.toNat+1))),
                body.fifo)

/-- The results of so many calls in a row. -/
def readRepeatedly : ℕ → Fifo → Option (List (Option IPPacket) × Fifo)
  | 0,fifo => some ([],fifo)
  | calls+1,fifo => do
    let (packet,next) ← readIpPacketFromFile libc schedule fuel fresh fifo
    let (rest,last) ← readRepeatedly calls next
    return (packet::rest,last)

variable {σ : Type*} (handle : σ → IPPacket → Bool × σ)

/-- The loop of `handle_in_packets_fifo` for so many rounds: it ends when no
packet is there, and after a packet whose handling fails. -/
def handleRounds : ℕ → σ → Fifo → Option (σ × Fifo)
  | 0,s,fifo => some (s,fifo)
  | rounds+1,s,fifo =>
    match readIpPacketFromFile libc schedule fuel fresh fifo with
    | none => none
    | some (none,next) => some (s,next)
    | some (some packet,next) =>
      if (handle s packet).1=true then handleRounds rounds (handle s packet).2 next
      else some ((handle s packet).2,next)

/-- `handle_in_packets_fifo`. -/
def handleInPacketsFifo (s : σ) (fifo : Fifo) : Option (σ × Fifo) :=
  handleRounds libc schedule fuel fresh handle maxHandlesPerEpoch s fifo

/-- So many epochs of the manager's loop, as far as incoming packets go. -/
def epochs : ℕ → σ → Fifo → Option (σ × Fifo)
  | 0,s,fifo => some (s,fifo)
  | n+1,s,fifo => do
    let (next,fifo) ← handleInPacketsFifo libc schedule fuel fresh handle s fifo
    epochs n next fifo

variable {schedule fuel}

/-- More fuel changes nothing once a packet's reading has ended. -/
theorem readIpPacketFromFile_mono {more : ℕ} {fifo : Fifo} {result : Option IPPacket × Fifo}
    (hle : fuel ≤ more) (h : readIpPacketFromFile libc schedule fuel fresh fifo=some result) :
    readIpPacketFromFile libc schedule more fresh fifo=some result := by
  rw [readIpPacketFromFile] at h ⊢
  cases hheader : readEntireMessage schedule fuel 0 10 (fun _ => 0) fifo with
  | none =>
    rw [hheader] at h
    cases h
  | some header =>
    rw [hheader] at h
    rw [readEntireMessage_mono schedule hle hheader]
    simp only at h ⊢
    split
    · rename_i hshort
      rwa [if_pos hshort] at h
    · rename_i hshort
      rw [if_neg hshort] at h
      split at h
      · exact h
      · split
        · rename_i hwrap
          rwa [if_pos hwrap] at h
        · rename_i hwrap
          rw [if_neg hwrap] at h
          split at h
          · cases h
          · rename_i body hbody
            rwa [readNonzeroEntireMessage_mono schedule hle hbody]

/-- A packet as it is sent: created, with data and a length that is an `int`. -/
structure Sendable (packet : IPPacket) (data : CString) : Prop where
  /-- It was made by `create_ip_packet`. -/
  created : Created packet data
  /-- There are data. -/
  nonempty : data.chars≠[]
  /-- The length is an `int`. -/
  bounded : packet.totalLength ≤ intMax

/-- What follows the length in the text of a packet. -/
def bodyText (packet : IPPacket) (data : CString) : List Byte :=
  packet.srcIp.chars++(packet.dstIp.chars++(intToStr 8 (5 : ℕ)++data.chars))

theorem length_bodyText {packet : IPPacket} {data : CString} (h : Created packet data) :
    (bodyText packet data).length=40+data.chars.length := by
  simp only [bodyText,List.length_append,length_intToStr,h.srcIp,h.dstIp]
  omega

/-- The length that the ten bytes of a header announce. -/
def announced (header : List Byte) : Option ℤ :=
  (scanInt libc (CString.ofCells (header++[0])).strlen (CString.ofCells (header++[0])).chars).map
    Prod.fst

/-- A header of digits announces their value, when that is an `int`. -/
theorem announced_digits {header : List Byte} (hlen : header.length=10)
    (hdigits : ∀ b∈header,isDigit b=true) (hmax : (decimalValue header : ℤ) ≤ intMax) :
    announced libc header=some (decimalValue header : ℤ) := by
  have hnul : (0 : Byte)∉header := fun hmem => absurd (hdigits 0 hmem) (by decide)
  have hne : header≠[] := by
    rintro rfl
    cases hlen
  obtain ⟨b,tail,hcons⟩ := List.exists_cons_of_ne_nil hne
  have hb : isDigit b=true := hdigits b (by rw [hcons]; exact List.mem_cons_self)
  have hhead : header.head?=some b := by
    rw [hcons]
    rfl
  have hscan := scanInt_of_digit libc 10 hhead hb 0
  have hword : scanDigits 10 (header++[])=some (decimalValue header,[]) :=
    scanDigits_word hdigits hne hlen.le (by rw [List.take_nil]; rfl)
  have hint : IsInt (decimalValue header : ℤ) := ⟨by unfold intMin; omega,hmax⟩
  rw [List.append_nil] at hword
  rw [List.replicate_zero,List.nil_append] at hscan
  rw [announced,CString.strlen,CString.ofCells_terminated hnul,hlen,hscan,hword]
  simp only [Option.map_some,storeInt_of_int libc hint]

/-- How the reading of a packet goes on after its header announced a length:
the header is copied to fresh memory and the rest is read behind it. -/
def readBody (schedule : Schedule) (fuel : ℕ) (header : List Byte) (totalLength : ℤ)
    (cells : ℕ → Byte) (fifo : Fifo) : Option (Option IPPacket × Fifo) :=
  if wrapInt (totalLength+1) < 0 then some (none,fifo)
  else
    match readNonzeroEntireMessage schedule 10 (totalLength-10) fuel
        (storeBlock cells 0 header) fifo with
    | none => none
    | some body =>
      if body.result≠totalLength-10 then some (none,body.fifo)
      else
        let packetStr := Function.update body.buf totalLength.toNat 0
        some (strToIp (CString.ofCells (loadBlock packetStr 0 (totalLength.toNat+1))),body.fifo)

/-- Where ten bytes are there, they are the header, and what they announce
decides how the reading goes on. -/
theorem readIpPacketFromFile_header (h : Steady schedule) {header rest : List Byte}
    (hlen : header.length=10) (hfuel : 10 ≤ fuel) {fifo : Fifo}
    (hw : fifo.waiting=header++rest) :
    ∃ reads,readIpPacketFromFile libc schedule fuel fresh fifo=
      match announced libc header with
      | none => some (none,⟨rest,reads⟩)
      | some totalLength =>
        readBody schedule fuel header totalLength (fresh fifo.reads) ⟨rest,reads⟩ := by
  obtain ⟨reads,hread⟩ := h.readEntireMessage_spec 0 fuel (fun _ => 0) hw (by omega) (by omega)
  have hload := loadBlock_storeBlock (fun _ => (0 : Byte)) 0 header
  have hzero : Function.update (storeBlock (fun _ => (0 : Byte)) 0 header) (0+header.length) 0=
      storeBlock (fun _ => (0 : Byte)) 0 header := by
    rw [Function.update_eq_self_iff]
    exact (storeBlock_apply_outside (fun _ => (0 : Byte)) (.inr le_rfl)).symm
  have hcells := loadBlock_update_end (fun _ => (0 : Byte)) 0 header 0
  have hten : ((10 : ℕ) : ℤ)=10 := rfl
  rw [hzero,hlen] at hcells
  rw [hlen] at hload
  rw [hlen,hten] at hread
  refine ⟨reads,?_⟩
  rw [readIpPacketFromFile,hread,announced]
  simp only [ne_eq,not_true_eq_false,if_false,hload,hcells]
  cases scanInt libc (CString.ofCells (header++[0])).strlen
    (CString.ofCells (header++[0])).chars with
  | none => rfl
  | some scanned => rfl

/-- A body that is there is read behind the header. -/
theorem readBody_spec (h : Steady schedule) {header body rest : List Byte} {totalLength : ℤ}
    (hheader : header.length=10) (hbody : (body.length : ℤ)=totalLength-10) (hpos : 0 < body.length)
    (hfits : ¬wrapInt (totalLength+1) < 0) (hfuel : body.length < fuel) (cells : ℕ → Byte)
    {fifo : Fifo} (hw : fifo.waiting=body++rest) :
    ∃ reads,readBody schedule fuel header totalLength cells fifo=
      some (strToIp (CString.ofCells (header++body++[0])),⟨rest,reads⟩) := by
  obtain ⟨reads,hread⟩ := h.readNonzeroEntireMessage_spec 10 fuel (storeBlock cells 0 header) hw
    hpos hfuel
  have hstore := storeBlock_append cells 0 header body
  have hcells := loadBlock_update_end cells 0 (header++body) (0 : Byte)
  have hlen : totalLength.toNat=(header++body).length := by
    rw [List.length_append]
    omega
  rw [hheader,Nat.zero_add] at hstore
  rw [Nat.zero_add] at hcells
  refine ⟨reads,?_⟩
  rw [readBody,if_neg hfits,←hbody,hread]
  simp only [ne_eq,not_true_eq_false,if_false]
  rw [←hstore,hlen,hcells]

/-- The header of a written packet announces its length. -/
theorem announced_ipText {packet : IPPacket} {data : CString} (hp : Sendable packet data) :
    announced libc (intToStr 10 (50+data.chars.length : ℕ))=some packet.totalLength := by
  have htotal := hp.created.totalLength
  have hmax := hp.bounded
  have hint : intMax=2147483647 := rfl
  have hvalue := decimalValue_intToStr (k:=10) (n:=50+data.chars.length) (by omega)
  rw [announced_digits libc (length_intToStr _ _) (fun _ hb => isDigit_of_mem_intToStr hb)
    (by rw [hvalue]; omega),hvalue,htotal]

/-- The reading of a written packet goes on with its body. -/
theorem Sendable.readIpPacketFromFile_eq (h : Steady schedule) {packet : IPPacket} {data : CString}
    (hp : Sendable packet data) (hfuel : packet.totalLength < fuel) {fifo : Fifo}
    {rest : List Byte} (hw : fifo.waiting=ipText packet data++rest) :
    ∃ reads,readIpPacketFromFile libc schedule fuel fresh fifo=
      readBody schedule fuel (intToStr 10 (50+data.chars.length : ℕ)) packet.totalLength
        (fresh fifo.reads) ⟨bodyText packet data++rest,reads⟩ := by
  have htotal := hp.created.totalLength
  have hw' : fifo.waiting=
      intToStr 10 (50+data.chars.length : ℕ)++(bodyText packet data++rest) := by
    rw [hw,ipText,bodyText,List.append_assoc]
  have hten : 10 ≤ fuel := by omega
  obtain ⟨reads,hread⟩ := readIpPacketFromFile_header libc fresh h (length_intToStr _ _) hten hw'
  exact ⟨reads,by rw [hread,announced_ipText libc hp]⟩

/-- A packet whose text is next in the fifo is read, and nothing more, if the
size of its buffer is an `int`. -/
theorem readIpPacketFromFile_spec (h : Steady schedule) {packet : IPPacket} {data : CString}
    (hp : Sendable packet data) (hlt : packet.totalLength < intMax)
    (hfuel : packet.totalLength < fuel) {fifo : Fifo} {rest : List Byte}
    (hw : fifo.waiting=ipText packet data++rest) :
    ∃ reads,readIpPacketFromFile libc schedule fuel fresh fifo=
      some (some packet,⟨rest,reads⟩) := by
  obtain ⟨mid,hheader⟩ := hp.readIpPacketFromFile_eq libc fresh h hfuel hw
  have htotal := hp.created.totalLength
  have hint : intMax=2147483647 := rfl
  have hlen := length_bodyText hp.created
  have hbody : ((bodyText packet data).length : ℤ)=packet.totalLength-10 := by omega
  have hbodyFuel : (bodyText packet data).length < fuel := by omega
  have hwrap : wrapInt (packet.totalLength+1)=packet.totalLength+1 :=
    wrapInt_of_int (by unfold intMin; omega) (by omega)
  have hnext : (⟨bodyText packet data++rest,mid⟩ : Fifo).waiting=bodyText packet data++rest := rfl
  obtain ⟨reads,hread⟩ := readBody_spec h (length_intToStr 10 (50+data.chars.length : ℕ)) hbody
    (by omega) (by omega) hbodyFuel (fresh fifo.reads) hnext
  have htext : intToStr 10 (50+data.chars.length : ℕ)++bodyText packet data=ipText packet data :=
    rfl
  have hdecode := strToIp_ipText hp.created hp.nonempty hp.bounded
    (CString.ofCells_terminated (ipText_nulFree packet data))
  exact ⟨reads,by rw [hheader,hread,htext,hdecode]⟩

/-- A packet of the greatest length that an `int` can hold is not read: the
size of its buffer wraps around. -/
theorem readIpPacketFromFile_longest (h : Steady schedule) {packet : IPPacket} {data : CString}
    (hp : Sendable packet data) (heq : packet.totalLength=intMax)
    (hfuel : packet.totalLength < fuel) {fifo : Fifo} {rest : List Byte}
    (hw : fifo.waiting=ipText packet data++rest) :
    ∃ next,readIpPacketFromFile libc schedule fuel fresh fifo=some (none,next) := by
  obtain ⟨mid,hheader⟩ := hp.readIpPacketFromFile_eq libc fresh h hfuel hw
  have hwrap : wrapInt (packet.totalLength+1) < 0 := by
    rw [heq]
    decide
  exact ⟨_,by rw [hheader,readBody,if_pos hwrap]⟩

/-- On an empty fifo there is no packet. -/
theorem readIpPacketFromFile_empty (fuel : ℕ) (h : Steady schedule) {fifo : Fifo}
    (hw : fifo.waiting=[]) :
    readIpPacketFromFile libc schedule fuel fresh fifo=some (none,⟨[],fifo.reads+1⟩) := by
  have hempty := h.readEntireMessage_empty 0 fuel (show 0 < 10 by norm_num) (fun _ => 0) hw
  have hten : ((10 : ℕ) : ℤ)=10 := rfl
  rw [hten] at hempty
  unfold readIpPacketFromFile
  rw [hempty]
  simp only
  rw [if_pos (by norm_num)]

/-- The bytes that the writers of these packets left in the fifo, each from
its own buffer. -/
def written (buffer : IPPacket → ℕ → Byte) (packets : List IPPacket) : List Byte :=
  packets.flatMap fun packet => (ipToStr (buffer packet) packet).chars

/-- Packets that `create_ip_packet` made, with data, of lengths that are
`int`s. -/
def AllSendable (packets : List IPPacket) : Prop :=
  ∀ packet∈packets,∃ src dst data,createIpPacket src dst data=some packet ∧ data.chars≠[] ∧
    packet.totalLength ≤ intMax

/-- The next packet of a fifo that holds written packets. -/
theorem AllSendable.next {packet : IPPacket} {packets : List IPPacket}
    (h : AllSendable (packet::packets)) (buffer : IPPacket → ℕ → Byte) :
    ∃ data,Sendable packet data ∧
      written buffer (packet::packets)=ipText packet data++written buffer packets := by
  obtain ⟨src,dst,data,hcreate,hne,hmax⟩ := h packet List.mem_cons_self
  have hc := createIpPacket_created hcreate
  refine ⟨data,⟨hc,hne,hmax⟩,?_⟩
  rw [written,List.flatMap_cons,ipToStr_chars (buffer packet) hc hmax]
  rfl

theorem AllSendable.tail {packet : IPPacket} {packets : List IPPacket}
    (h : AllSendable (packet::packets)) : AllSendable packets :=
  fun p hp => h p (List.mem_cons_of_mem _ hp)

/-- Every packet's buffer has a size that is an `int`. -/
def BuffersFit (packets : List IPPacket) : Prop := ∀ packet∈packets,packet.totalLength < intMax

/-- Repeated reading gives the written packets one after the other, then
NULL, and leaves nothing in the fifo. -/
theorem readRepeatedly_spec (h : Steady schedule) (buffer : IPPacket → ℕ → Byte)
    {packets : List IPPacket} (hp : AllSendable packets) (hfit : BuffersFit packets)
    (hfuel : ∀ packet∈packets,packet.totalLength < fuel) {fifo : Fifo}
    (hw : fifo.waiting=written buffer packets) :
    ∃ reads,readRepeatedly libc schedule fuel fresh (packets.length+1) fifo=
      some (packets.map some++[none],⟨[],reads⟩) := by
  induction packets generalizing fifo with
  | nil =>
    have hempty := readIpPacketFromFile_empty libc fresh fuel h hw
    exact ⟨fifo.reads+1,by simp [readRepeatedly,hempty]⟩
  | cons packet packets ih =>
    obtain ⟨data,hs,htext⟩ := hp.next buffer
    have hlt : packet.totalLength < intMax := hfit packet List.mem_cons_self
    obtain ⟨reads,hread⟩ := readIpPacketFromFile_spec libc fresh h hs hlt
      (hfuel packet List.mem_cons_self) (hw.trans htext)
    have hnext : (⟨written buffer packets,reads⟩ : Fifo).waiting=written buffer packets := rfl
    obtain ⟨last,hlast⟩ := ih hp.tail (fun p hmem => hfit p (List.mem_cons_of_mem _ hmem))
      (fun p hmem => hfuel p (List.mem_cons_of_mem _ hmem)) hnext
    refine ⟨last,?_⟩
    rw [readRepeatedly,hread]
    simp only [Option.bind_eq_bind,Option.bind_some,List.length_cons,hlast]
    rfl

/-- Where repeated reading gives the written packets, every buffer's size was
an `int`: the first packet of the greatest length would have been read as
NULL. -/
theorem buffersFit_of_read (h : Steady schedule) (buffer : IPPacket → ℕ → Byte)
    {packets : List IPPacket} (hp : AllSendable packets)
    (hfuel : ∀ packet∈packets,packet.totalLength < fuel) {fifo last : Fifo}
    (hw : fifo.waiting=written buffer packets)
    (hread : readRepeatedly libc schedule fuel fresh (packets.length+1) fifo=
      some (packets.map some++[none],last)) : BuffersFit packets := by
  induction packets generalizing fifo with
  | nil =>
    intro packet hmem
    exact absurd hmem List.not_mem_nil
  | cons packet packets ih =>
    obtain ⟨data,hs,htext⟩ := hp.next buffer
    have hfuel' := hfuel packet List.mem_cons_self
    rw [readRepeatedly] at hread
    rcases lt_or_eq_of_le hs.bounded with hlt|heq
    · obtain ⟨reads,hfirst⟩ := readIpPacketFromFile_spec libc fresh h hs hlt hfuel'
        (hw.trans htext)
      have hnext : (⟨written buffer packets,reads⟩ : Fifo).waiting=written buffer packets := rfl
      rw [hfirst] at hread
      simp only [Option.bind_eq_bind,Option.bind_some,Option.bind_eq_some_iff] at hread
      obtain ⟨⟨results,final⟩,hrest,hall⟩ := hread
      have hpair := Option.some.inj hall
      simp only [Prod.mk.injEq,List.map_cons,List.cons_append,List.cons.injEq,true_and] at hpair
      rw [List.length_cons,hpair.1,hpair.2] at hrest
      have htail := ih hp.tail (fun p hmem => hfuel p (List.mem_cons_of_mem _ hmem)) hnext hrest
      intro p hmem
      rcases List.mem_cons.mp hmem with rfl|hmem
      · exact hlt
      · exact htail p hmem
    · obtain ⟨next,hfirst⟩ := readIpPacketFromFile_longest libc fresh h hs heq hfuel'
        (hw.trans htext)
      rw [hfirst] at hread
      simp only [Option.bind_eq_bind,Option.bind_some,Option.bind_eq_some_iff] at hread
      obtain ⟨⟨results,final⟩,_,hall⟩ := hread
      have hpair := Option.some.inj hall
      simp only [Prod.mk.injEq,List.map_cons,List.cons_append,List.cons.injEq] at hpair
      exact absurd hpair.1.1 (Option.some_ne_none packet).symm

/-- What handling these packets in order does. -/
def handleAll (handle : σ → IPPacket → Bool × σ) (s : σ) (packets : List IPPacket) : σ :=
  packets.foldl (fun s packet => (handle s packet).2) s

/-- The rounds of an epoch hand on some first packets in order, at least one
if there is one, and leave the others in the fifo. -/
theorem handleRounds_spec (h : Steady schedule) (buffer : IPPacket → ℕ → Byte) (rounds : ℕ)
    {packets : List IPPacket} (hp : AllSendable packets) (hfit : BuffersFit packets)
    (hfuel : ∀ packet∈packets,packet.totalLength < fuel) (s : σ) {fifo : Fifo}
    (hw : fifo.waiting=written buffer packets) :
    ∃ handled left reads,packets=handled++left ∧ (0 < rounds → packets≠[] → handled≠[]) ∧
      handleRounds libc schedule fuel fresh handle rounds s fifo=
        some (handleAll handle s handled,⟨written buffer left,reads⟩) := by
  induction rounds generalizing packets s fifo with
  | zero =>
    obtain ⟨waiting,reads⟩ := fifo
    obtain rfl : waiting=written buffer packets := hw
    exact ⟨[],packets,reads,rfl,by omega,rfl⟩
  | succ rounds ih =>
    cases packets with
    | nil =>
      have hempty := readIpPacketFromFile_empty libc fresh fuel h hw
      exact ⟨[],[],fifo.reads+1,rfl,fun _ hne => absurd rfl hne,by
        simp only [handleRounds,hempty]
        rfl⟩
    | cons packet packets =>
      obtain ⟨data,hs,htext⟩ := hp.next buffer
      have hlt : packet.totalLength < intMax := hfit packet List.mem_cons_self
      obtain ⟨reads,hread⟩ := readIpPacketFromFile_spec libc fresh h hs hlt
        (hfuel packet List.mem_cons_self) (hw.trans htext)
      have hnext : (⟨written buffer packets,reads⟩ : Fifo).waiting=written buffer packets := rfl
      by_cases hok : (handle s packet).1=true
      · obtain ⟨handled,left,last,hsplit,_,hrest⟩ := ih hp.tail
          (fun p hmem => hfit p (List.mem_cons_of_mem _ hmem))
          (fun p hmem => hfuel p (List.mem_cons_of_mem _ hmem)) (handle s packet).2 hnext
        refine ⟨packet::handled,left,last,by rw [hsplit]; rfl,by simp,?_⟩
        simp only [handleRounds,hread,if_pos hok,hrest]
        rfl
      · refine ⟨[packet],packets,reads,rfl,by simp,?_⟩
        simp only [handleRounds,hread,if_neg hok]
        rfl

/-- Epochs of ten hand every packet on once and in order: after as many
epochs as there are packets, all were handled and nothing is left. -/
theorem epochs_spec (h : Steady schedule) (buffer : IPPacket → ℕ → Byte) (n : ℕ)
    {packets : List IPPacket} (hp : AllSendable packets) (hfit : BuffersFit packets)
    (hfuel : ∀ packet∈packets,packet.totalLength < fuel) (s : σ) {fifo : Fifo}
    (hw : fifo.waiting=written buffer packets) :
    ∃ handled left reads,packets=handled++left ∧ (packets.length ≤ n → left=[]) ∧
      epochs libc schedule fuel fresh handle n s fifo=
        some (handleAll handle s handled,⟨written buffer left,reads⟩) := by
  induction n generalizing packets s fifo with
  | zero =>
    obtain ⟨waiting,reads⟩ := fifo
    obtain rfl : waiting=written buffer packets := hw
    refine ⟨[],packets,reads,rfl,fun hle => List.length_eq_zero_iff.mp (by omega),rfl⟩
  | succ n ih =>
    obtain ⟨first,rest,reads,hsplit,hsome,hepoch⟩ :=
      handleRounds_spec libc fresh handle h buffer maxHandlesPerEpoch hp hfit hfuel s hw
    have hmember : ∀ p∈rest,p∈packets := by
      intro p hmem
      rw [hsplit]
      exact List.mem_append_right _ hmem
    have hrestSendable : AllSendable rest := fun p hmem => hp p (hmember p hmem)
    have hrestFit : BuffersFit rest := fun p hmem => hfit p (hmember p hmem)
    have hrestFuel : ∀ p∈rest,p.totalLength < fuel := fun p hmem => hfuel p (hmember p hmem)
    have hnext : (⟨written buffer rest,reads⟩ : Fifo).waiting=written buffer rest := rfl
    obtain ⟨second,left,last,hsplit',hleft,hrest⟩ := ih hrestSendable hrestFit hrestFuel
      (handleAll handle s first) hnext
    refine ⟨first++second,left,last,by rw [hsplit,hsplit',List.append_assoc],?_,?_⟩
    · intro hle
      apply hleft
      by_cases hnil : packets=[]
      · rw [hnil] at hsplit
        rw [(List.append_eq_nil_iff.mp hsplit.symm).2]
        exact Nat.zero_le n
      · have hpos : 0 < first.length :=
          List.length_pos_iff.mpr (hsome (by decide) hnil)
        have hlen := congrArg List.length hsplit
        rw [List.length_append] at hlen
        omega
    · rw [epochs,handleInPacketsFifo,hepoch]
      simp only [Option.bind_eq_bind,Option.bind_some,hrest]
      rw [handleAll,handleAll,handleAll,List.foldl_append]

/-- Repeated reading gives exactly the packets in order and then NULL, with
nothing left over, and epochs of ten hand on exactly the packets in order, all
of them after as many epochs as there are packets. -/
def Framed (libc : Libc) (schedule : Schedule) (fuel : ℕ) (fresh : ℕ → ℕ → Byte)
    (handle : σ → IPPacket → Bool × σ) (buffer : IPPacket → ℕ → Byte) (packets : List IPPacket)
    (s : σ) (fifo : Fifo) : Prop :=
  (∃ reads,readRepeatedly libc schedule fuel fresh (packets.length+1) fifo=
    some (packets.map some++[none],⟨[],reads⟩)) ∧
  ∀ n,∃ handled left reads,packets=handled++left ∧ (packets.length ≤ n → left=[]) ∧
    epochs libc schedule fuel fresh handle n s fifo=
      some (handleAll handle s handled,⟨written buffer left,reads⟩)

/-- Whatever the schedule of short reads, what was written is framed exactly
if every packet's buffer has a size that is an `int`: all lengths are below
the greatest one. -/
theorem framed_iff (h : Steady schedule) (buffer : IPPacket → ℕ → Byte)
    {packets : List IPPacket} (hp : AllSendable packets)
    (hfuel : ∀ packet∈packets,packet.totalLength < fuel) (s : σ) {fifo : Fifo}
    (hw : fifo.waiting=written buffer packets) :
    Framed libc schedule fuel fresh handle buffer packets s fifo ↔
      ∀ packet∈packets,packet.totalLength < 2147483647 := by
  constructor
  · intro hframed
    obtain ⟨reads,hread⟩ := hframed.1
    exact buffersFit_of_read libc fresh h buffer hp hfuel hw hread
  · intro hfit
    exact ⟨readRepeatedly_spec libc fresh h buffer hp hfit hfuel hw,
      fun n => epochs_spec libc fresh handle h buffer n hp hfit hfuel s hw⟩

/-- Data of one letter, so many times. -/
def letters (n : ℕ) : CString :=
  ⟨List.replicate n 97,fun h => absurd (List.eq_of_mem_replicate h) (by decide)⟩

/-- A packet of such data between two ips. -/
def letterPacket (n : ℕ) : IPPacket :=
  ⟨50+n,⟨List.replicate 16 49,by decide⟩,⟨List.replicate 16 50,by decide⟩,5,some (letters n)⟩

theorem createIpPacket_letters (n : ℕ) :
    createIpPacket ⟨List.replicate 16 49,by decide⟩ ⟨List.replicate 16 50,by decide⟩ (letters n)=
      some (letterPacket n) := by
  have hlen : (letters n).strlen=n := List.length_replicate
  rw [createIpPacket,if_neg (by decide),hlen]
  rfl

/-- Such packets can be sent. -/
theorem letterPackets_sendable {lengths : List ℕ}
    (h : ∀ n∈lengths,0 < n ∧ 50+(n : ℤ) ≤ intMax) : AllSendable (lengths.map letterPacket) := by
  intro packet hmem
  obtain ⟨n,hn,rfl⟩ := List.mem_map.mp hmem
  obtain ⟨hpos,hmax⟩ := h n hn
  refine ⟨_,_,letters n,createIpPacket_letters n,?_,hmax⟩
  rw [letters,Ne,List.replicate_eq_nil_iff]
  omega

/-- A handler that collects the packets. -/
def collect (packets : List IPPacket) (packet : IPPacket) : Bool × List IPPacket :=
  (true,packets++[packet])

/-- Reads of one to three bytes. -/
def shortReads : Schedule := fun t => ⟨[],t%3,true,false⟩

theorem shortReads_steady : Steady shortReads := fun _ => ⟨rfl,rfl⟩

/-- Three packets of different lengths, read in chunks of one to three bytes. -/
theorem framed_iff_letters :
    let packets := [3,1,40].map letterPacket
    Framed zeroLibc shortReads 100 (fun _ _ => 0) collect (fun _ _ => 0) packets []
        ⟨written (fun _ _ => 0) packets,0⟩ ↔
      ∀ packet∈packets,packet.totalLength < 2147483647 :=
  framed_iff _ _ _ shortReads_steady _ (letterPackets_sendable (by decide)) (by decide) _ rfl

/-- The longest packet whose length is an `int` is written, but not read. -/
theorem longest_unread : ∃ packet,
    createIpPacket ⟨List.replicate 16 49,by decide⟩ ⟨List.replicate 16 50,by decide⟩
      (letters 2147483597)=some packet ∧ packet.totalLength=2147483647 ∧
    ¬Framed zeroLibc shortReads 2147483648 (fun _ _ => 0) collect
      (fun _ _ => 0) [packet] [] ⟨written (fun _ _ => 0) [packet],0⟩ := by
  obtain ⟨n,hn⟩ : ∃ n : ℕ,n=2147483597 := ⟨_,rfl⟩
  have htotal : (letterPacket n).totalLength=50+(n : ℤ) := rfl
  have hsend : AllSendable ([n].map letterPacket) := by
    refine letterPackets_sendable fun m hm => ?_
    obtain rfl := List.mem_singleton.mp hm
    unfold intMax
    omega
  rw [←hn]
  refine ⟨letterPacket n,createIpPacket_letters n,by omega,?_⟩
  intro hframed
  obtain ⟨reads,hread⟩ := hframed.1
  have hfuel : ∀ packet∈[letterPacket n],packet.totalLength < (2147483648 : ℕ) := by
    intro packet hmem
    obtain rfl := List.mem_singleton.mp hmem
    omega
  have hw : (⟨written (fun _ _ => 0) [letterPacket n],0⟩ : Fifo).waiting=
      written (fun _ _ => 0) [letterPacket n] := by
    simp only
  have hfit := buffersFit_of_read _ _ shortReads_steady _ hsend hfuel hw hread
  have hlt : (letterPacket n).totalLength < intMax := hfit _ List.mem_cons_self
  rw [htotal,intMax] at hlt
  omega

end NetworkLayer.PacketFraming
