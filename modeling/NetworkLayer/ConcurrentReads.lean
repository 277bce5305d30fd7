import NetworkLayer.PacketFraming

/-!
# Reading while others write

Every manager may write to the incoming fifo at any time, between any two
calls of `read`. A write of a whole packet is not torn, so what a reading
function takes is what was next when it began, and everything that arrives
meanwhile stays behind it. Reading is as if it happened at its first call.
-/

namespace NetworkLayer.ConcurrentReads

open ByteStrings CellBlocks DecimalWords FormattedText FifoReads IpPackets PacketFraming

/-- A schedule under which no call fails; bytes may arrive before any of them. -/
def Unbroken (schedule : Schedule) : Prop := ∀ t,(schedule t).error=false

/-- What a stream of lists holds at so many places from one on. -/
def between {α : Type*} (stream : ℕ → List α) (first count : ℕ) : List α :=
  (List.range count).flatMap fun k => stream (first+k)

section Between

variable {α β : Type*} (stream : ℕ → List α)

@[simp] theorem between_zero (first : ℕ) : between stream first 0=[] := rfl

theorem between_succ (first count : ℕ) :
    between stream first (count+1)=stream first++between stream (first+1) count := by
  rw [between,List.range_succ_eq_map,List.flatMap_cons,List.flatMap_map]
  simp only [Nat.add_zero,between,Nat.succ_eq_add_one,Nat.add_assoc,Nat.add_comm 1]

theorem between_add (first count more : ℕ) :
    between stream first (count+more)=
      between stream first count++between stream (first+count) more := by
  rw [between,List.range_add,List.flatMap_append,List.flatMap_map]
  simp only [between,Nat.add_assoc]

theorem between_flatMap (f : α → List β) (first count : ℕ) :
    between (fun t => (stream t).flatMap f) first count=
      (between stream first count).flatMap f := by
  rw [between,between,List.flatMap_assoc]

end Between

/-- What arrives before so many calls of `read`, the first of them included. -/
def arrivedIn (schedule : Schedule) (first count : ℕ) : List Byte :=
  between (fun t => (schedule t).arrived) first count

variable {schedule : Schedule}

@[simp] theorem arrivedIn_zero (first : ℕ) : arrivedIn schedule first 0=[] := rfl

theorem arrivedIn_succ (first count : ℕ) :
    arrivedIn schedule first (count+1)=
      (schedule first).arrived++arrivedIn schedule (first+1) count :=
  between_succ _ first count

theorem arrivedIn_add (first count more : ℕ) :
    arrivedIn schedule first (count+more)=
      arrivedIn schedule first count++arrivedIn schedule (first+count) more :=
  between_add _ first count more

/-- Of a message that is there at the call a read returns a first part. -/
theorem Unbroken.read_part (h : Unbroken schedule) {data rest : List Byte} (hdata : data≠[])
    {fifo : Fifo} (hw : fifo.waiting++(schedule fifo.reads).arrived=data++rest) :
    ∃ first more,first≠[] ∧ data=first++more ∧
      read schedule fifo data.length=(.bytes first,⟨more++rest,fifo.reads+1⟩) := by
  have hpos : 0 < data.length := List.length_pos_iff.mpr hdata
  have hpresent : ¬data++rest=[] := fun he => hdata (List.append_eq_nil_iff.mp he).1
  have hlen : ¬data.length=0 := by omega
  have hcount : min ((schedule fifo.reads).limit+1) data.length ≤ data.length := min_le_right _ _
  refine ⟨data.take (min ((schedule fifo.reads).limit+1) data.length),
    data.drop (min ((schedule fifo.reads).limit+1) data.length),?_,
    (List.take_append_drop _ data).symm,?_⟩
  · rw [←List.length_pos_iff,List.length_take]
    omega
  · simp only [FifoReads.read,h fifo.reads,hw,Bool.false_eq_true,if_false,if_neg hlen,
      if_neg hpresent,List.take_append_of_le_length hcount,List.drop_append_of_le_length hcount]

/-- The loop completes a message that is there; what arrives meanwhile stays. -/
theorem Unbroken.readRest_spec (h : Unbroken schedule) (start len fuel : ℕ) {bytesLeft : ℕ}
    {data rest : List Byte} (buf : ℕ → Byte) {fifo : Fifo} (hw : fifo.waiting=data++rest)
    (hdata : data.length=bytesLeft) (hfuel : bytesLeft ≤ fuel) (hlen : bytesLeft ≤ len) :
    ∃ count,readRest schedule start len fuel bytesLeft buf fifo=
      some ⟨len,storeBlock buf (start+len-bytesLeft) data,
        ⟨rest++arrivedIn schedule fifo.reads count,fifo.reads+count⟩⟩ := by
  induction fuel generalizing bytesLeft data rest buf fifo with
  | zero =>
    obtain rfl : bytesLeft=0 := by omega
    obtain rfl : data=[] := List.length_eq_zero_iff.mp hdata
    obtain ⟨waiting,reads⟩ := fifo
    obtain rfl : waiting=rest := hw
    exact ⟨0,by rw [arrivedIn_zero,List.append_nil]; rfl⟩
  | succ fuel ih =>
    cases bytesLeft with
    | zero =>
      obtain rfl : data=[] := List.length_eq_zero_iff.mp hdata
      obtain ⟨waiting,reads⟩ := fifo
      obtain rfl : waiting=rest := hw
      exact ⟨0,by rw [arrivedIn_zero,List.append_nil]; rfl⟩
    | succ left =>
      have hne : data≠[] := List.ne_nil_of_length_eq_add_one hdata
      have hpresent : fifo.waiting++(schedule fifo.reads).arrived=
          data++(rest++(schedule fifo.reads).arrived) := by rw [hw,List.append_assoc]
      obtain ⟨first,more,hfirst,rfl,hread⟩ := h.read_part hne hpresent
      rw [List.length_append] at hdata
      have hpos : 0 < first.length := List.length_pos_iff.mpr hfirst
      have hnext : (⟨more++(rest++(schedule fifo.reads).arrived),fifo.reads+1⟩ : Fifo).waiting=
          more++(rest++(schedule fifo.reads).arrived) := rfl
      have hmore : more.length=left+1-first.length := by omega
      obtain ⟨count,hrest⟩ := ih (storeBlock buf (start+len-(left+1)) first) hnext hmore (by omega)
        (by omega)
      have hplace : start+len-(left+1-first.length)=start+len-(left+1)+first.length := by omega
      rw [List.length_append,hdata] at hread
      refine ⟨count+1,?_⟩
      rw [readRest,hread]
      simp only
      rw [hrest,hplace,←storeBlock_append,arrivedIn_succ,List.append_assoc,Nat.add_assoc,
        Nat.add_comm 1 count]

/-- A message that is there at the first call is read in full, and nothing
more. -/
theorem Unbroken.readEntireMessage_spec (h : Unbroken schedule) (start fuel : ℕ)
    {data rest : List Byte} (buf : ℕ → Byte) {fifo : Fifo}
    (hw : fifo.waiting++(schedule fifo.reads).arrived=data++rest) (hpos : 0 < data.length)
    (hfuel : data.length ≤ fuel) :
    ∃ count,readEntireMessage schedule fuel start data.length buf fifo=
      some ⟨data.length,storeBlock buf start data,
        ⟨rest++arrivedIn schedule (fifo.reads+1) count,fifo.reads+1+count⟩⟩ := by
  obtain ⟨first,more,hfirst,hparts,hread⟩ := h.read_part (List.length_pos_iff.mp hpos) hw
  have hlen : data.length=first.length+more.length := by rw [hparts,List.length_append]
  have hnext : (⟨more++rest,fifo.reads+1⟩ : Fifo).waiting=more++rest := rfl
  have hmore : more.length=data.length-first.length := by omega
  obtain ⟨count,hrest⟩ := h.readRest_spec start data.length fuel (storeBlock buf start first)
    hnext hmore (by omega) (by omega)
  have hplace : start+data.length-(data.length-first.length)=start+first.length := by omega
  have hnonneg : ¬((data.length : ℤ) < 0) := by omega
  refine ⟨count,?_⟩
  rw [readEntireMessage,if_neg hnonneg,Int.toNat_natCast,hread]
  cases first with
  | nil => exact absurd rfl hfirst
  | cons b tail =>
    simp only
    rw [hrest,hplace,←storeBlock_append,←hparts]

/-- So is one that must not be missing. -/
theorem Unbroken.readNonzeroEntireMessage_spec (h : Unbroken schedule) (start fuel : ℕ)
    {data rest : List Byte} (buf : ℕ → Byte) {fifo : Fifo} (hw : fifo.waiting=data++rest)
    (hpos : 0 < data.length) (hfuel : data.length < fuel) :
    ∃ count,readNonzeroEntireMessage schedule start data.length fuel buf fifo=
      some ⟨data.length,storeBlock buf start data,
        ⟨rest++arrivedIn schedule fifo.reads count,fifo.reads+count⟩⟩ := by
  obtain ⟨more,rfl⟩ : ∃ more,fuel=more+1 := ⟨fuel-1,by omega⟩
  have hpresent : fifo.waiting++(schedule fifo.reads).arrived=
      data++(rest++(schedule fifo.reads).arrived) := by rw [hw,List.append_assoc]
  obtain ⟨count,hread⟩ := h.readEntireMessage_spec start more buf hpresent hpos
    (Nat.lt_succ_iff.mp hfuel)
  have hne : ¬((data.length : ℤ)=0) := by omega
  refine ⟨count+1,?_⟩
  simp only [readNonzeroEntireMessage,hread,if_neg hne]
  rw [arrivedIn_succ,List.append_assoc,Nat.add_assoc,Nat.add_comm 1 count]

/-- Where nothing is there and nothing arrives before the call, a message is
not there. -/
theorem Unbroken.readEntireMessage_empty (h : Unbroken schedule) (start fuel : ℕ) {len : ℕ}
    (hpos : 0 < len) (buf : ℕ → Byte) {fifo : Fifo}
    (hw : fifo.waiting++(schedule fifo.reads).arrived=[]) :
    readEntireMessage schedule fuel start len buf fifo=
      some ⟨0,buf,⟨[],fifo.reads+1⟩⟩ := by
  have hnonneg : ¬((len : ℤ) < 0) := by omega
  have hlen : ¬len=0 := by omega
  rw [readEntireMessage,if_neg hnonneg,Int.toNat_natCast]
  simp only [FifoReads.read,h fifo.reads,hw,Bool.false_eq_true,if_false,if_neg hlen,if_true]
  cases (schedule fifo.reads).writers with
  | true => rfl
  | false => rfl

variable (libc : Libc) (fresh : ℕ → ℕ → Byte) {fuel : ℕ}

/-- Ten bytes that are there are the header of a packet. -/
theorem Unbroken.readIpPacketFromFile_header (h : Unbroken schedule) {header rest : List Byte}
    (hlen : header.length=10) (hfuel : 10 ≤ fuel) {fifo : Fifo}
    (hw : fifo.waiting++(schedule fifo.reads).arrived=header++rest) {totalLength : ℤ}
    (htotal : announced libc header=some totalLength) :
    ∃ count,readIpPacketFromFile libc schedule fuel fresh fifo=
      readBody schedule fuel header totalLength (fresh fifo.reads)
        ⟨rest++arrivedIn schedule (fifo.reads+1) count,fifo.reads+1+count⟩ := by
  obtain ⟨count,hread⟩ := h.readEntireMessage_spec 0 fuel (fun _ => 0) hw (by omega) (by omega)
  have hload := loadBlock_storeBlock (fun _ => (0 : Byte)) 0 header
  have hzero : Function.update (storeBlock (fun _ => (0 : Byte)) 0 header) (0+header.length) 0=
      storeBlock (fun _ => (0 : Byte)) 0 header := by
    rw [Function.update_eq_self_iff]
    exact (storeBlock_apply_outside (fun _ => (0 : Byte)) (.inr le_rfl)).symm
  have hcells := loadBlock_update_end (fun _ => (0 : Byte)) 0 header 0
  have hten : ((10 : ℕ) : ℤ)=10 := rfl
  rw [hzero,hlen] at hcells
  rw [hlen] at hload
  rw [hlen,hten] at hread
  refine ⟨count,?_⟩
  rw [announced,Option.map_eq_some_iff] at htotal
  obtain ⟨scanned,hscan,rfl⟩ := htotal
  rw [readIpPacketFromFile,hread]
  simp only [ne_eq,not_true_eq_false,if_false,hload,hcells,hscan]
  rfl

/-- A body that is there is read behind the header. -/
theorem Unbroken.readBody_spec (h : Unbroken schedule) {header body rest : List Byte}
    {totalLength : ℤ} (hheader : header.length=10) (hbody : (body.length : ℤ)=totalLength-10)
    (hpos : 0 < body.length) (hfits : ¬wrapInt (totalLength+1) < 0) (hfuel : body.length < fuel)
    (cells : ℕ → Byte) {fifo : Fifo} (hw : fifo.waiting=body++rest) :
    ∃ count,readBody schedule fuel header totalLength cells fifo=
      some (strToIp (CString.ofCells (header++body++[0])),
        ⟨rest++arrivedIn schedule fifo.reads count,fifo.reads+count⟩) := by
  obtain ⟨count,hread⟩ := h.readNonzeroEntireMessage_spec 10 fuel (storeBlock cells 0 header) hw
    hpos hfuel
  have hstore := storeBlock_append cells 0 header body
  have hcells := loadBlock_update_end cells 0 (header++body) (0 : Byte)
  have hlen : totalLength.toNat=(header++body).length := by
    rw [List.length_append]
    omega
  rw [hheader,Nat.zero_add] at hstore
  rw [Nat.zero_add] at hcells
  refine ⟨count,?_⟩
  rw [readBody,if_neg hfits,←hbody,hread]
  simp only [ne_eq,not_true_eq_false,if_false]
  rw [←hstore,hlen,hcells]

/-- A packet whose text is next at the first call is read whole, and what
arrives meanwhile stays behind what was there. -/
theorem Unbroken.readIpPacketFromFile_spec (h : Unbroken schedule) {packet : IPPacket}
    {data : CString} (hp : Sendable packet data) (hlt : packet.totalLength < intMax)
    (hfuel : packet.totalLength < fuel) {fifo : Fifo} {rest : List Byte}
    (hw : fifo.waiting++(schedule fifo.reads).arrived=ipText packet data++rest) :
    ∃ count,readIpPacketFromFile libc schedule fuel fresh fifo=some (some packet,
      ⟨rest++arrivedIn schedule (fifo.reads+1) count,fifo.reads+1+count⟩) := by
  have htotal := hp.created.totalLength
  have hint : intMax=2147483647 := rfl
  have hlen := length_bodyText hp.created
  have hbody : ((bodyText packet data).length : ℤ)=packet.totalLength-10 := by omega
  have hbodyFuel : (bodyText packet data).length < fuel := by omega
  have hten : 10 ≤ fuel := by omega
  have hwrap : wrapInt (packet.totalLength+1)=packet.totalLength+1 :=
    wrapInt_of_int (by unfold intMin; omega) (by omega)
  have hpresent : fifo.waiting++(schedule fifo.reads).arrived=
      intToStr 10 (50+data.chars.length : ℕ)++(bodyText packet data++rest) := by
    rw [hw,ipText,bodyText,List.append_assoc]
  obtain ⟨first,hheader⟩ := h.readIpPacketFromFile_header libc fresh (length_intToStr _ _) hten
    hpresent (announced_ipText libc hp)
  have hnext : (⟨bodyText packet data++rest++arrivedIn schedule (fifo.reads+1) first,
      fifo.reads+1+first⟩ : Fifo).waiting=
      bodyText packet data++(rest++arrivedIn schedule (fifo.reads+1) first) :=
    List.append_assoc _ _ _
  obtain ⟨second,hread⟩ := h.readBody_spec (length_intToStr 10 (50+data.chars.length : ℕ)) hbody
    (by omega) (by omega) hbodyFuel (fresh fifo.reads) hnext
  have htext : intToStr 10 (50+data.chars.length : ℕ)++bodyText packet data=ipText packet data :=
    rfl
  have hdecode := strToIp_ipText hp.created hp.nonempty hp.bounded
    (CString.ofCells_terminated (ipText_nulFree packet data))
  refine ⟨first+second,?_⟩
  rw [hheader,hread,htext,hdecode,arrivedIn_add,List.append_assoc,Nat.add_assoc (fifo.reads+1)]

/-- Where nothing is there at the first call, no packet is read. -/
theorem Unbroken.readIpPacketFromFile_empty (h : Unbroken schedule) (fuel : ℕ) {fifo : Fifo}
    (hw : fifo.waiting++(schedule fifo.reads).arrived=[]) :
    readIpPacketFromFile libc schedule fuel fresh fifo=some (none,⟨[],fifo.reads+1⟩) := by
  have hempty := h.readEntireMessage_empty 0 fuel (show 0 < 10 by norm_num) (fun _ => 0) hw
  have hten : ((10 : ℕ) : ℤ)=10 := rfl
  rw [hten] at hempty
  unfold readIpPacketFromFile
  rw [hempty]
  simp only
  rw [if_pos (by norm_num)]

/-- Under such a schedule what arrives before each call of `read` is whole
packets, each written from its own buffer. -/
structure Delivers (buffer : IPPacket → ℕ → Byte) (mail : ℕ → List IPPacket)
    (schedule : Schedule) : Prop where
  /-- No call fails. -/
  unbroken : Unbroken schedule
  /-- What arrives. -/
  arrived : ∀ t,(schedule t).arrived=written buffer (mail t)

/-- Packets that can be sent, whose buffers have a size that is an `int`, and
shorter than the fuel. -/
def Readable (fuel : ℕ) (packets : List IPPacket) : Prop :=
  AllSendable packets ∧ BuffersFit packets ∧ ∀ packet∈packets,packet.totalLength < fuel

theorem readable_append {fuel : ℕ} {first second : List IPPacket} :
    Readable fuel (first++second) ↔ Readable fuel first ∧ Readable fuel second := by
  simp only [Readable,AllSendable,BuffersFit,List.mem_append,or_imp,forall_and]
  constructor
  · rintro ⟨⟨hs,hs'⟩,⟨hf,hf'⟩,hl,hl'⟩
    exact ⟨⟨hs,hf,hl⟩,hs',hf',hl'⟩
  · rintro ⟨⟨hs,hf,hl⟩,hs',hf',hl'⟩
    exact ⟨⟨hs,hs'⟩,⟨hf,hf'⟩,hl,hl'⟩

/-- Mail that is readable at every call is readable together. -/
theorem readable_between {fuel : ℕ} {mail : ℕ → List IPPacket} (h : ∀ t,Readable fuel (mail t))
    (first count : ℕ) : Readable fuel (between mail first count) := by
  induction count generalizing first with
  | zero => exact ⟨by simp [AllSendable],by simp [BuffersFit],by simp⟩
  | succ count ih =>
    rw [between_succ]
    exact readable_append.mpr ⟨h first,ih (first+1)⟩

variable {σ : Type*} (handle : σ → IPPacket → Bool × σ) {buffer : IPPacket → ℕ → Byte}
variable {mail : ℕ → List IPPacket}

/-- What arrives is the text of the mail. -/
theorem Delivers.arrivedIn_eq (h : Delivers buffer mail schedule) (first count : ℕ) :
    arrivedIn schedule first count=written buffer (between mail first count) := by
  rw [written,←between_flatMap,arrivedIn]
  exact congrArg (between · first count) (funext h.arrived)

theorem written_append (buffer : IPPacket → ℕ → Byte) (first second : List IPPacket) :
    written buffer (first++second)=written buffer first++written buffer second :=
  List.flatMap_append

/-- One packet is read: the first of those that are there or arrive before the
first call. Without one nothing is. -/
theorem Delivers.readIpPacketFromFile_spec (h : Delivers buffer mail schedule)
    (hmail : ∀ t,Readable fuel (mail t)) {packets : List IPPacket} (hp : Readable fuel packets)
    {fifo : Fifo} (hw : fifo.waiting=written buffer packets) :
    (packets++mail fifo.reads=[] ∧
      readIpPacketFromFile libc schedule fuel fresh fifo=some (none,⟨[],fifo.reads+1⟩)) ∨
    ∃ packet left count,packets++between mail fifo.reads (count+1)=packet::left ∧
      readIpPacketFromFile libc schedule fuel fresh fifo=
        some (some packet,⟨written buffer left,fifo.reads+(count+1)⟩) := by
  have hpresent : fifo.waiting++(schedule fifo.reads).arrived=
      written buffer (packets++mail fifo.reads) := by rw [hw,h.arrived,written_append]
  obtain ⟨hsend,hfit,hfuel⟩ := readable_append.mpr ⟨hp,hmail fifo.reads⟩
  cases hall : packets++mail fifo.reads with
  | nil =>
    rw [hall] at hpresent
    exact Or.inl ⟨rfl,h.unbroken.readIpPacketFromFile_empty libc fresh fuel hpresent⟩
  | cons packet rest =>
    rw [hall] at hsend hfit hfuel hpresent
    obtain ⟨data,hs,htext⟩ := hsend.next buffer
    obtain ⟨count,hread⟩ := h.unbroken.readIpPacketFromFile_spec libc fresh hs
      (hfit packet List.mem_cons_self) (hfuel packet List.mem_cons_self) (hpresent.trans htext)
    refine Or.inr ⟨packet,rest++between mail (fifo.reads+1) count,count,?_,?_⟩
    · rw [between_succ,←List.append_assoc,hall,List.cons_append]
    · rw [hread,h.arrivedIn_eq,←written_append,Nat.add_assoc,Nat.add_comm 1 count]

/-- The rounds of an epoch hand on the packets in the order in which they were
written, those that arrive meanwhile included: what was there and what arrives
is what they hand on and then what is left. -/
theorem Delivers.handleRounds_spec (h : Delivers buffer mail schedule)
    (hmail : ∀ t,Readable fuel (mail t)) (rounds : ℕ) {packets : List IPPacket}
    (hp : Readable fuel packets) (s : σ) {fifo : Fifo}
    (hw : fifo.waiting=written buffer packets) :
    ∃ handled left count,packets++between mail fifo.reads count=handled++left ∧
      handleRounds libc schedule fuel fresh handle rounds s fifo=
        some (handleAll handle s handled,⟨written buffer left,fifo.reads+count⟩) := by
  induction rounds generalizing packets s fifo with
  | zero =>
    obtain ⟨waiting,reads⟩ := fifo
    obtain rfl : waiting=written buffer packets := hw
    exact ⟨[],packets,0,List.append_nil _,rfl⟩
  | succ rounds ih =>
    rcases h.readIpPacketFromFile_spec libc fresh hmail hp hw with
      ⟨hnone,hread⟩|⟨packet,left,count,hall,hread⟩
    · refine ⟨[],[],1,?_,?_⟩
      · rw [between_succ,between_zero,List.append_nil,hnone,List.append_nil]
      · simp only [handleRounds,hread]
        rfl
    · have hleft : Readable fuel left := by
        have hboth := readable_append.mpr ⟨hp,readable_between hmail fifo.reads (count+1)⟩
        rw [hall,←List.singleton_append,readable_append] at hboth
        exact hboth.2
      by_cases hok : (handle s packet).1=true
      · have hnext : (⟨written buffer left,fifo.reads+(count+1)⟩ : Fifo).waiting=
          written buffer left := rfl
        obtain ⟨handled,last,more,hsplit,hrest⟩ := ih hleft (handle s packet).2 hnext
        refine ⟨packet::handled,last,count+1+more,?_,?_⟩
        · rw [between_add,←List.append_assoc,hall,List.cons_append,hsplit,List.cons_append]
        · simp only [handleRounds,hread,if_pos hok,hrest,Nat.add_assoc]
          rfl
      · refine ⟨[packet],left,count+1,hall,?_⟩
        simp only [handleRounds,hread,if_neg hok]
        rfl

end NetworkLayer.ConcurrentReads
