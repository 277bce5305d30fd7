import NetworkLayer.FixedWidthNumbers
import NetworkLayer.ReadingEnds

/-!
# Framing and decoding

How many bytes of the fifo belong to a packet is scanned from its header; the
decoder folds the same ten bytes, as digits or not, and takes the string of
the packet apart, which ends at its first NUL. The two agree, and the encoder
gives the bytes back, on some contents only.
-/

namespace NetworkLayer.PacketAgreement

open ByteStrings CellBlocks DecimalWords FormattedText FifoReads IpPackets PacketFraming
open ReadingEnds FixedWidthNumbers

/-- The packet and the bytes it was read from agree. -/
structure Agrees (libc : Libc) (consumed : List Byte) (packet : IPPacket) : Prop where
  /-- The folded length is the number of bytes. -/
  length : packet.totalLength=consumed.length
  /-- The encoder gives the bytes back. -/
  text : ∀ fresh,(ipToStr fresh packet).chars=consumed
  /-- The scanned length is the folded one. -/
  scanned : announced libc (consumed.take 10)=some packet.totalLength
  /-- The data are what is left of it behind the header and the addresses. -/
  data : ((packet.data.getD CString.empty).strlen : ℤ)=packet.totalLength-50

/-- A content that begins with the text of a packet: ten digits of an `int`,
so many bytes without a NUL, and a checksum that is not mixed. -/
structure WellWritten (content : List Byte) : Prop where
  /-- The header is digits. -/
  header : ∀ b∈content.take 10,isDigit b=true
  /-- They are the digits of an `int`. -/
  bounded : (decimalValue (content.take 10) : ℤ) ≤ intMax
  /-- There is no NUL among so many bytes. -/
  nulFree : (0 : Byte)∉content.take (decimalValue (content.take 10))
  /-- The checksum is digits, or characters below them. -/
  checksum : OneSigned ((content.drop 42).take 8)

variable (libc : Libc)

/-- What a conversion stores is an `int`. -/
theorem storeInt_int (v : ℤ) : IsInt (storeInt libc v) := by
  unfold storeInt
  split
  · assumption
  · exact libc.overflow_int v

/-- So a header announces an `int`. -/
theorem announced_int {header : List Byte} {totalLength : ℤ}
    (h : announced libc header=some totalLength) : IsInt totalLength := by
  obtain ⟨⟨value,rest⟩,hscan,rfl⟩ := Option.map_eq_some_iff.mp h
  simp only [scanInt] at hscan
  split at hscan
  · obtain ⟨_,_,hpair⟩ := Option.map_eq_some_iff.mp hscan
    obtain ⟨rfl,-⟩ := Prod.mk.inj hpair
    exact storeInt_int libc _
  split at hscan
  all_goals
    obtain ⟨_,_,hpair⟩ := Option.map_eq_some_iff.mp hscan
    obtain ⟨rfl,-⟩ := Prod.mk.inj hpair
    exact storeInt_int libc _

/-- A packet is read from as many bytes as their header announces. -/
theorem readIpPacketFromFile_some {schedule : Schedule} (h : Steady schedule) {fuel : ℕ}
    {fresh : ℕ → ℕ → Byte} {fifo next : Fifo} {packet : IPPacket}
    (hread : readIpPacketFromFile libc schedule fuel fresh fifo=some (some packet,next)) :
    ∃ consumed,fifo.waiting=consumed++next.waiting ∧
      announced libc (consumed.take 10)=some (consumed.length : ℤ) ∧
      strToIp (CString.ofCells (consumed++[0]))=some packet := by
  have hten : 10 ≤ fifo.waiting.length := by
    by_contra hshort
    cases readIpPacketFromFile_short libc h fresh (Nat.not_le.mp hshort) hread
  have hends := packetReadEnds_of_long libc h fresh hten hread
  obtain ⟨hfirst,hrest⟩ := readIpPacketFromFile_next libc h fresh hread
  obtain ⟨⟨p,rest⟩,hnext,hp⟩ := Option.map_eq_some_iff.mp hfirst.symm
  obtain rfl : p=packet := hp
  have hwaiting := hrest p rest hnext
  rw [nextPacket,if_neg (Nat.not_lt.mpr hten)] at hnext
  cases hannounced : announced libc (fifo.waiting.take 10) with
  | none =>
    rw [hannounced] at hnext
    cases hnext
  | some totalLength =>
    rw [hannounced] at hnext
    simp only at hnext
    split at hnext
    · cases hnext
    next hbuffer =>
    rw [not_or] at hbuffer
    obtain ⟨p',hdecoded,hpair⟩ := Option.map_eq_some_iff.mp hnext
    obtain ⟨rfl,rfl⟩ := Prod.mk.inj hpair
    have hwhole : 10 < totalLength ∧ totalLength ≤ fifo.waiting.length := by
      rcases hends with hempty|⟨_,hlengths⟩
      · rw [hempty] at hten
        cases hten
      · exact ((hlengths totalLength hannounced).resolve_left hbuffer.1).resolve_left hbuffer.2
    have hlen : (fifo.waiting.take totalLength.toNat).length=totalLength.toNat := by
      rw [List.length_take]
      omega
    refine ⟨fifo.waiting.take totalLength.toNat,?_,?_,hdecoded⟩
    · rw [hwaiting,List.take_append_drop]
    · rw [List.take_take,Nat.min_eq_left (by omega),hannounced,hlen]
      congr 1
      omega

/-- Nothing is decoded from fewer than fifty bytes. -/
theorem long_of_strToIp {consumed : List Byte} {packet : IPPacket}
    (h : strToIp (CString.ofCells (consumed++[0]))=some packet) : 50 ≤ consumed.length := by
  have hle := CString.strlen_ofCells_le consumed
  by_contra hshort
  rw [strToIp,if_pos (by omega)] at h
  cases h

/-- Fifty bytes or more are a header, two addresses, a checksum and data. -/
theorem parts_of_long {content : List Byte} (hlong : 50 ≤ content.length)
    (hnul : (0 : Byte)∉content) : ∃ (header sum : List Byte) (src dst data : CString),
      content=header++(src.chars++(dst.chars++(sum++data.chars))) ∧ header.length=10 ∧
        src.chars.length=16 ∧ dst.chars.length=16 ∧ sum.length=8 := by
  have hfree : ∀ offset size,(0 : Byte)∉(content.drop offset).take size := fun offset size hmem =>
    hnul (List.mem_of_mem_drop (List.mem_of_mem_take hmem))
  have hcut : ∀ offset size,content.drop offset=
      (content.drop offset).take size++content.drop (offset+size) := by
    intro offset size
    rw [←List.drop_drop,List.take_append_drop]
  refine ⟨content.take 10,(content.drop 42).take 8,⟨_,hfree 10 16⟩,⟨_,hfree 26 16⟩,
    ⟨content.drop 50,fun hmem => hnul (List.mem_of_mem_drop hmem)⟩,?_,?_,?_,?_,?_⟩
  · have h := hcut 0 10
    rw [List.drop_zero,hcut 10 16,hcut 26 16,hcut 42 8] at h
    exact h
  all_goals simp only [List.length_take,List.length_drop]
  all_goals omega

/-- Cells of the length of a string hold it exactly if they are its bytes. -/
theorem ofCells_chars_eq_iff {cells word : List Byte} (hnul : (0 : Byte)∉word)
    (hlen : cells.length=word.length) :
    (CString.ofCells (cells++[0])).chars=word ↔ cells=word := by
  constructor
  · rintro rfl
    have hprefix : (CString.ofCells (cells++[0])).chars <+: cells++[0] := List.takeWhile_prefix _
    rw [List.prefix_iff_eq_take.mp hprefix,←hlen,List.take_left]
  · rintro rfl
    exact CString.ofCells_terminated hnul

/-- The decoder's data, if their size is right, are the string they are copied
from; without data the pointer is NULL, which stands for the empty string. -/
theorem copied_getD (data : CString) {size : ℤ} (h : size=(data.chars.length : ℤ)) :
    (if size > 0 then some (copied data 0 size.toNat) else none).getD CString.empty=data := by
  rw [h,Int.toNat_natCast,copied_whole]
  split
  · rfl
  · refine CString.ext (List.length_eq_zero_iff.mp ?_).symm
    omega

/-- Two texts of a packet with the same parts between them are equal exactly
if their headers and their checksums are. -/
theorem parts_eq_iff {header header' sum sum' : List Byte} (src dst data : List Byte)
    (hheader : header.length=header'.length) (hsum : sum.length=sum'.length) :
    header++(src++(dst++(sum++data)))=header'++(src++(dst++(sum'++data))) ↔
      header=header' ∧ sum=sum' := by
  constructor
  · intro he
    obtain ⟨hfirst,hrest⟩ := List.append_inj he hheader
    have hrest' := List.append_cancel_left (List.append_cancel_left hrest)
    exact ⟨hfirst,(List.append_inj hrest' hsum).1⟩
  · rintro ⟨rfl,rfl⟩
    rfl

/-- Encoding a decoded packet gives its bytes back exactly if header and
checksum survive by themselves. -/
theorem ipToStr_strToIp_iff {consumed : List Byte} {packet : IPPacket}
    (hnul : (0 : Byte)∉consumed) (hlength : packet.totalLength=consumed.length)
    (hmax : packet.totalLength ≤ intMax)
    (hdecoded : strToIp (CString.ofCells (consumed++[0]))=some packet) :
    ((packet.data.getD CString.empty).strlen : ℤ)=packet.totalLength-50 ∧
    ((∀ fresh,(ipToStr fresh packet).chars=consumed) ↔
      consumed.take 10=intToStr 10 consumed.length ∧ OneSigned ((consumed.drop 42).take 8)) := by
  have hchars := CString.ofCells_terminated hnul
  have hlong := long_of_strToIp hdecoded
  obtain ⟨header,sum,src,dst,data,hparts,hheader,hsrc,hdst,hsum⟩ := parts_of_long hlong hnul
  have hall : consumed.length=50+data.chars.length := by
    rw [hparts]
    simp only [List.length_append,hheader,hsrc,hdst,hsum]
    omega
  rw [strToIp_eq (hchars.trans hparts) hheader hsrc hdst hsum,Option.some.injEq] at hdecoded
  subst hdecoded
  simp only at hlength hmax ⊢
  have hwrap : wrapInt (strToInt header-50)=(data.chars.length : ℤ) := by
    rw [hlength,wrapInt_of_int (by unfold intMin; omega) (by omega)]
    omega
  have hdata := copied_getD data hwrap
  have htextLen : (intToStr 10 (strToInt header)++(src.chars++(dst.chars++
      (intToStr 8 (strToInt sum)++data.chars)))).length=consumed.length := by
    simp only [List.length_append,length_intToStr,hsrc,hdst]
    omega
  have hencoded : ∀ fresh,(ipToStr fresh ⟨strToInt header,src,dst,strToInt sum,
      if wrapInt (strToInt header-50) > 0 then
        some (copied data 0 (wrapInt (strToInt header-50)).toNat) else none⟩).chars=consumed ↔
      intToStr 10 (strToInt header)=header ∧ intToStr 8 (strToInt sum)=sum := by
    intro fresh
    rw [ipToStr_eq fresh hsrc hdst hdata (hlength.trans (by rw [hall])) hmax,
      ofCells_chars_eq_iff hnul htextLen,hparts]
    exact parts_eq_iff _ _ _ (by rw [length_intToStr,hheader]) (by rw [length_intToStr,hsum])
  have hten : consumed.take 10=header := by rw [hparts,List.take_left' hheader]
  have hsums : (consumed.drop 42).take 8=sum := by
    rw [hparts,drop_addresses hheader hsrc hdst,List.take_left' hsum]
  have hwidth : (10 : ℤ)^sum.length ≤ intMax := by
    rw [hsum]
    decide
  have hsurvives := intToStr_strToInt_iff hwidth
  rw [hsum] at hsurvives
  refine ⟨?_,?_⟩
  · rw [hdata,CString.strlen,hlength]
    omega
  · simp only [hencoded,hten,hsums,←hlength]
    rw [hsurvives,eq_comm]
    simp

/-- The decoder folds the first ten characters. -/
theorem totalLength_of_strToIp {s : CString} {packet : IPPacket} (h : strToIp s=some packet) :
    packet.totalLength=strToInt (s.chars.take 10) := by
  rw [strToIp] at h
  split at h
  · cases h
  · obtain rfl := Option.some.inj h
    rfl

/-- Whenever a packet is read from a fifo into which nothing is written
meanwhile, it agrees with the bytes that were consumed exactly if the content
begins with the text of a packet. -/
theorem agrees_iff {schedule : Schedule} (h : Steady schedule) {fuel : ℕ} {fresh : ℕ → ℕ → Byte}
    {fifo next : Fifo} {packet : IPPacket}
    (hread : readIpPacketFromFile libc schedule fuel fresh fifo=some (some packet,next)) :
    ∃ consumed,fifo.waiting=consumed++next.waiting ∧
      (Agrees libc consumed packet ↔ WellWritten fifo.waiting) := by
  obtain ⟨consumed,hwaiting,hscanned,hdecoded⟩ := readIpPacketFromFile_some libc h hread
  have hlong := long_of_strToIp hdecoded
  have hint := (announced_int libc hscanned).2
  have htake : ∀ size ≤ consumed.length,fifo.waiting.take size=consumed.take size :=
    fun size hsize => by rw [hwaiting,List.take_append_of_le_length hsize]
  have hten := htake 10 (by omega)
  have hsums : (fifo.waiting.drop 42).take 8=(consumed.drop 42).take 8 := by
    rw [hwaiting,List.drop_append_of_le_length (by omega),
      List.take_append_of_le_length (by rw [List.length_drop]; omega)]
  refine ⟨consumed,hwaiting,?_,?_⟩
  · intro hagrees
    have hnul : (0 : Byte)∉consumed := by
      rw [←hagrees.text fun _ => 0]
      exact CString.nulFree _
    obtain ⟨_,hiff⟩ := ipToStr_strToIp_iff hnul hagrees.length (by rw [hagrees.length]; exact hint)
      hdecoded
    obtain ⟨hheader,hsum⟩ := hiff.mp hagrees.text
    have hmax : intMax=2147483647 := rfl
    have hvalue : decimalValue (fifo.waiting.take 10)=consumed.length := by
      rw [hten,hheader,decimalValue_intToStr (by omega)]
    refine ⟨?_,by rw [hvalue]; exact hint,?_,by rwa [hsums]⟩
    · rw [hten,hheader]
      exact fun b hb => isDigit_of_mem_intToStr hb
    · rwa [hvalue,htake _ le_rfl,List.take_length]
  · rintro ⟨hdigits,hmax,hnul,hsum⟩
    have hlen : (fifo.waiting.take 10).length=10 := by
      rw [hten,List.length_take]
      omega
    have hannounced := announced_digits libc hlen hdigits hmax
    rw [hten,hscanned,Option.some.injEq] at hannounced
    have hvalue : decimalValue (fifo.waiting.take 10)=consumed.length := by
      rw [hten]
      omega
    rw [hvalue,htake _ le_rfl,List.take_length] at hnul
    have hlength : packet.totalLength=consumed.length := by
      rw [totalLength_of_strToIp hdecoded,CString.ofCells_terminated hnul,←hten,
        strToInt_word hdigits hmax,hvalue]
    have hheader : consumed.take 10=intToStr 10 consumed.length := by
      have hword := intToStr_decimalValue hdigits
      rw [hlen,hvalue,hten] at hword
      exact hword.symm
    obtain ⟨hdata,hiff⟩ := ipToStr_strToIp_iff hnul hlength (by rw [hlength]; exact hint) hdecoded
    exact ⟨hlength,hiff.mpr ⟨hheader,by rwa [hsums] at hsum⟩,by rw [hscanned,hlength],hdata⟩

/-- A packet of sixty bytes with this header: two addresses, a checksum and
data of ones. -/
def sixty (header : String) : List Byte := text header++List.replicate 50 49

/-- Such a packet is read as a whole if its header announces it. -/
theorem sixty_read (header : String) (hlen : (sixty header).length=60)
    (hannounced : announced zeroLibc ((sixty header).take 10)=some 60) {packet : IPPacket}
    (hdecoded : strToIp (CString.ofCells (sixty header++[0]))=some packet) :
    ∃ next,readIpPacketFromFile zeroLibc closedReads 61 (fun _ _ => 0) ⟨sixty header,0⟩=
      some (some packet,next) ∧ next.waiting=[] := by
  have hends : PacketReadEnds zeroLibc (sixty header) := by
    refine .inr ⟨by omega,fun totalLength h => ?_⟩
    obtain rfl := Option.some.inj (hannounced.symm.trans h)
    exact .inr (.inr ⟨by decide,by omega⟩)
  have hnext : nextPacket zeroLibc (sixty header)=some (packet,[]) := by
    have hfits : ¬(wrapInt (60+1) < 0 ∨ (60 : ℤ) < 10) := by decide
    have hall : (sixty header).take (60 : ℤ).toNat=sixty header :=
      List.take_of_length_le (by rw [hlen]; decide)
    have hrest : (sixty header).drop (60 : ℤ).toNat=[] :=
      List.drop_of_length_le (by rw [hlen]; decide)
    rw [nextPacket,if_neg (by omega),hannounced]
    simp only [if_neg hfits,hall,hdecoded,Option.map_some,hrest]
  have hfuel : (⟨sixty header,0⟩ : Fifo).waiting.length < 61 := by
    simp only
    omega
  obtain ⟨next,hread,hleft⟩ := readIpPacketFromFile_ends zeroLibc closedReads_drained.steady
    (fun _ _ => 0) hends hfuel
  exact ⟨next,by rw [hread,hnext]; rfl,hleft _ _ hnext⟩

/-- The packet that is decoded from it, with this total length and data. -/
def onesPacket (totalLength : ℤ) (data : Option CString) : IPPacket :=
  ⟨totalLength,⟨List.replicate 16 49,nulFree_ones⟩,⟨List.replicate 16 49,nulFree_ones⟩,11111111,
    data⟩

theorem nulFree_tenOnes : (0 : Byte)∉List.replicate 10 49 := nulFree_replicate 10 (by decide)

/-- Ten data bytes of ones. -/
def tenOnes : CString := ⟨List.replicate 10 49,nulFree_tenOnes⟩

/-- Ten digits announce sixty bytes, and the packet agrees. -/
theorem agrees_iff_sixty : ∃ consumed,Agrees zeroLibc consumed (onesPacket 60 (some tenOnes)) := by
  have hdecoded : strToIp (CString.ofCells (sixty "0000000060"++[0]))=
      some (onesPacket 60 (some tenOnes)) := by decide +kernel
  obtain ⟨next,hread,_⟩ := sixty_read "0000000060" (by decide) (by decide) hdecoded
  obtain ⟨consumed,_,hiff⟩ := agrees_iff zeroLibc closedReads_drained.steady hread
  have hwritten : WellWritten (sixty "0000000060") :=
    ⟨by decide +kernel,by decide,by decide,.inl (by decide +kernel)⟩
  exact ⟨consumed,hiff.mpr hwritten⟩

/-- Nine digits behind a plus announce as many, and the decoder folds them to
a negative length. -/
theorem signed_header_disagrees :
    ∃ next,readIpPacketFromFile zeroLibc closedReads 61 (fun _ _ => 0)
        ⟨sixty "+000000060",0⟩=some (some (onesPacket (-705032644) none),next) ∧
      ¬∃ consumed,sixty "+000000060"=consumed++next.waiting ∧
        (onesPacket (-705032644) none).totalLength=consumed.length := by
  have hdecoded : strToIp (CString.ofCells (sixty "+000000060"++[0]))=
      some (onesPacket (-705032644) none) := by decide +kernel
  obtain ⟨next,hread,_⟩ := sixty_read "+000000060" (by decide) (by decide) hdecoded
  refine ⟨next,hread,?_⟩
  rintro ⟨consumed,_,hlength⟩
  change (-705032644 : ℤ)=consumed.length at hlength
  omega

end NetworkLayer.PacketAgreement
