import NetworkLayer.TcpPackets

/-!
# The text form of a TCP packet

Every field but one is read back from its fixed place. The checksum is
padded with spaces, which the scanner skips without counting them, so a
short checksum takes in digits at the front of the data. What arrives is
then dropped for its checksum; nothing else about it is wrong.
-/

namespace NetworkLayer.TcpCodec

open ByteStrings DecimalWords FormattedText UtilTypes TcpPackets

/-- A packet with ports, numbers and flags in their ranges, whose checksum is
its own and an `int`. -/
structure Printable (packet : TCPPacket) : Prop where
  /-- A proper source port. -/
  srcPort : 1 ≤ packet.srcPort ∧ packet.srcPort ≤ 65535
  /-- A proper destination port. -/
  dstPort : 1 ≤ packet.dstPort ∧ packet.dstPort ≤ 65535
  /-- A nonnegative `int`. -/
  seqNum : 0 ≤ packet.seqNum ∧ packet.seqNum ≤ intMax
  /-- A nonnegative `int`. -/
  ackNum : 0 ≤ packet.ackNum ∧ packet.ackNum ≤ intMax
  /-- At least one of the four flags and nothing else. -/
  flags : packet.flags≠0 ∧ packet.flags < 16
  /-- The sum does not overflow. -/
  checksum : checksumSum packet ≤ intMax

/-- The packet comes back as its receiver should get it, and its checksum is
the one that is checked. -/
def RoundTrips (libc : Libc) (packet : TCPPacket) : Prop :=
  ∃ decoded,strToTcp libc (tcpToStr packet)=some decoded ∧ decoded=asReceived packet ∧
    calcChecksum decoded=decoded.checksum

/-- The checksum fills its field, or no digit follows it. -/
def ChecksumApart (packet : TCPPacket) (data : CString) : Prop :=
  10^9 ≤ packet.checksum ∨ ∀ b,data.chars.head?=some b → isDigit b=false

/-- The flags' part of the checksum is their value. -/
theorem charValue_flags {flags : Byte} (h : flags < 16) : charValue flags=(flags.toNat : ℤ) := by
  have hlt : flags.toNat < 16 := h
  rw [charValue,if_pos (by omega)]

/-- The checksum of a printable packet is a positive `int`. -/
theorem Printable.checksum_int {packet : TCPPacket} (h : Printable packet) :
    0 < calcChecksum packet ∧ calcChecksum packet ≤ intMax := by
  have hsrc := h.srcPort.1
  have hdst := h.dstPort.1
  have hseq := h.seqNum.1
  have hack := h.ackNum.1
  have hmax := h.checksum
  have hflags := charValue_flags h.flags.2
  have hpos : 0 < checksumSum packet := by
    rw [checksumSum,hflags]
    omega
  have hmin : intMin ≤ checksumSum packet := by
    unfold intMin
    omega
  rw [calcChecksum,wrapInt_of_int hmin hmax]
  exact ⟨hpos,hmax⟩

/-- A word of digits takes in the digits that follow it in its field. -/
theorem scanDigits_append {width : ℕ} {word rest : List Byte}
    (hword : ∀ b∈word,isDigit b=true) (hne : word≠[]) (hw : word.length ≤ width) :
    (scanDigits width (word++rest)).map Prod.fst=
      some (decimalValue (word++(rest.take (width-word.length)).takeWhile isDigit)) := by
  have htake : ((word++rest).take width).takeWhile isDigit=
      word++(rest.take (width-word.length)).takeWhile isDigit := by
    rw [List.take_append,List.take_of_length_le hw,List.takeWhile_append_of_pos hword]
  have hnonempty : word++(rest.take (width-word.length)).takeWhile isDigit≠[] := by
    simp [hne]
  simp only [scanDigits,htake,if_neg hnonempty,Option.map_some]

/-- The printed checksum fills ten characters, and is scanned together with
the digits behind it as far as its own digits leave room in the field. -/
theorem scanInt_printIntSpaces (libc : Libc) {v : ℤ} (h0 : 0 ≤ v) (hmax : v ≤ intMax)
    (rest : List Byte) :
    (printIntSpaces 10 v).length=10 ∧
      (scanInt libc 10 (printIntSpaces 10 v++rest)).map Prod.fst=
        some (storeInt libc (decimalValue (decimal v.natAbs++
          (rest.take (10-(decimal v.natAbs).length)).takeWhile isDigit))) := by
  have hprint : printInt v=decimal v.natAbs := by
    rw [printInt,if_neg (Int.not_lt.mpr h0)]
  have hlt : v.natAbs < 10^10 := by
    unfold intMax at hmax
    omega
  have hlen := length_decimal_le (by norm_num) hlt
  have hdigits : ∀ b∈decimal v.natAbs,isDigit b=true := fun b hb => isDigit_of_mem_decimal hb
  have hne := decimal_ne_nil v.natAbs
  obtain ⟨b,tail,hcons⟩ := List.exists_cons_of_ne_nil hne
  have hb : isDigit b=true := hdigits b (by rw [hcons]; exact List.mem_cons_self)
  have hhead : (decimal v.natAbs++rest).head?=some b := by
    rw [hcons]
    rfl
  have hscan := scanInt_of_digit libc 10 hhead hb (10-(decimal v.natAbs).length)
  have hword : (scanDigits 10 (decimal v.natAbs++rest)).map Prod.fst=some _ :=
    scanDigits_append hdigits hne hlen
  constructor
  · rw [printIntSpaces,hprint,List.length_append,List.length_replicate]
    omega
  · rw [printIntSpaces,hprint,List.append_assoc,hscan,Option.map_map]
    obtain ⟨r,hr,hvalue⟩ := Option.map_eq_some_iff.mp hword
    rw [hr,Option.map_some,Function.comp_apply,hvalue]

/-- A zero-padded nonnegative number consists of digits. -/
theorem isDigit_of_mem_printIntZeros {width : ℕ} {v : ℤ} (h0 : 0 ≤ v) {b : Byte}
    (hb : b∈printIntZeros width v) : isDigit b=true := by
  simp only [printIntZeros,if_neg (Int.not_lt.mpr h0),List.mem_append] at hb
  rcases hb with hb|hb
  · rw [List.eq_of_mem_replicate hb]
    decide
  · exact isDigit_of_mem_decimal hb

/-- No NUL is printed for a nonnegative number, whatever the padding. -/
theorem ne_zero_of_isDigit {b : Byte} (h : isDigit b=true) : b≠0 := by
  rintro rfl
  cases h

/-- The fields of a printable packet in the order they are printed. -/
theorem tcpToStr_chars {packet : TCPPacket} {data : CString} (h : Printable packet)
    (hsum : packet.checksum=calcChecksum packet) (hdata : packet.data=some data) :
    (tcpToStr packet).chars=printIntZeros 5 packet.srcPort++(printIntZeros 5 packet.dstPort++
      (printIntZeros 10 packet.seqNum++(printIntZeros 10 packet.ackNum++
        (packet.flags::(printIntSpaces 10 packet.checksum++data.chars))))) := by
  have hrepr : tcpStrRepr packet data=printIntZeros 5 packet.srcPort++
      (printIntZeros 5 packet.dstPort++(printIntZeros 10 packet.seqNum++
        (printIntZeros 10 packet.ackNum++
          (packet.flags::(printIntSpaces 10 packet.checksum++data.chars))))) := by
    simp only [tcpStrRepr,List.append_assoc,List.cons_append,List.nil_append]
  have hsrc := h.srcPort.1
  have hdst := h.dstPort.1
  have hpos := h.checksum_int.1
  have hnul : ∀ b∈tcpStrRepr packet data,b≠0 := by
    intro b hb
    rw [hrepr] at hb
    simp only [List.mem_append,List.mem_cons] at hb
    rcases hb with hb|hb|hb|hb|rfl|hb|hb
    · exact ne_zero_of_isDigit (isDigit_of_mem_printIntZeros (by omega) hb)
    · exact ne_zero_of_isDigit (isDigit_of_mem_printIntZeros (by omega) hb)
    · exact ne_zero_of_isDigit (isDigit_of_mem_printIntZeros h.seqNum.1 hb)
    · exact ne_zero_of_isDigit (isDigit_of_mem_printIntZeros h.ackNum.1 hb)
    · exact h.flags.1
    · rw [printIntSpaces,printInt,if_neg (by omega),List.mem_append] at hb
      rcases hb with hb|hb
      · rw [List.eq_of_mem_replicate hb]
        decide
      · exact ne_zero_of_isDigit (isDigit_of_mem_decimal hb)
    · rintro rfl
      exact data.nulFree hb
  have hwhole : (tcpStrRepr packet data).takeWhile (fun b => b != 0)=tcpStrRepr packet data :=
    List.takeWhile_eq_self_iff.mpr fun b hb => by simpa only [bne_iff_ne] using hnul b hb
  rw [tcpToStr,hdata,Option.getD_some]
  exact hwhole.trans hrepr

/-- The decoder gives back every field, and as the checksum the printed one
together with the digits taken in from the data. -/
theorem strToTcp_tcpToStr (libc : Libc) {packet : TCPPacket} {data : CString}
    (h : Printable packet) (hsum : packet.checksum=calcChecksum packet)
    (hdata : packet.data=some data) :
    strToTcp libc (tcpToStr packet)=some {asReceived packet with
      checksum := storeInt libc (decimalValue (decimal packet.checksum.natAbs++
        (data.chars.take (10-(decimal packet.checksum.natAbs).length)).takeWhile isDigit))} := by
  have hchars := tcpToStr_chars h hsum hdata
  have hsrcRange := h.srcPort
  have hdstRange := h.dstPort
  have hseqRange := h.seqNum
  have hackRange := h.ackNum
  have hpos := h.checksum_int.1
  have hmax : intMax=2147483647 := rfl
  obtain ⟨hsrcLen,hsrc⟩ := scanInt_printIntZeros libc (show 0 < 5 by norm_num)
    (v:=packet.srcPort) (by omega) (by omega) (by omega)
    (printIntZeros 5 packet.dstPort++(printIntZeros 10 packet.seqNum++
      (printIntZeros 10 packet.ackNum++
        (packet.flags::(printIntSpaces 10 packet.checksum++data.chars)))))
  obtain ⟨hdstLen,hdst⟩ := scanInt_printIntZeros libc (show 0 < 5 by norm_num)
    (v:=packet.dstPort) (by omega) (by omega) (by omega)
    (printIntZeros 10 packet.seqNum++(printIntZeros 10 packet.ackNum++
      (packet.flags::(printIntSpaces 10 packet.checksum++data.chars))))
  obtain ⟨hseqLen,hseq⟩ := scanInt_printIntZeros libc (show 0 < 10 by norm_num)
    (v:=packet.seqNum) (by omega) (by omega) (by omega)
    (printIntZeros 10 packet.ackNum++
      (packet.flags::(printIntSpaces 10 packet.checksum++data.chars)))
  obtain ⟨hackLen,hack⟩ := scanInt_printIntZeros libc (show 0 < 10 by norm_num)
    (v:=packet.ackNum) (by omega) (by omega) (by omega)
    (packet.flags::(printIntSpaces 10 packet.checksum++data.chars))
  obtain ⟨hsumLen,hscan⟩ := scanInt_printIntSpaces libc (v:=packet.checksum) (by omega)
    (by rw [hsum]; exact h.checksum_int.2) data.chars
  obtain ⟨⟨v,rest⟩,hv,hvalue⟩ := Option.map_eq_some_iff.mp hscan
  simp only at hvalue
  have hlength : (tcpToStr packet).strlen=41+data.chars.length := by
    rw [CString.strlen,hchars]
    simp only [List.length_append,List.length_cons,hsrcLen,hdstLen,hseqLen,hackLen,hsumLen]
    omega
  have hdrop : (tcpToStr packet).chars.drop 41=data.chars := by
    have hfixed : (printIntZeros 5 packet.srcPort++printIntZeros 5 packet.dstPort++
        printIntZeros 10 packet.seqNum++printIntZeros 10 packet.ackNum++[packet.flags]++
        printIntSpaces 10 packet.checksum).length=41 := by
      simp only [List.length_append,List.length_singleton,hsrcLen,hdstLen,hseqLen,hackLen,
        hsumLen]
    have happ : (tcpToStr packet).chars=(printIntZeros 5 packet.srcPort++
        printIntZeros 5 packet.dstPort++printIntZeros 10 packet.seqNum++
        printIntZeros 10 packet.ackNum++[packet.flags]++
        printIntSpaces 10 packet.checksum)++data.chars := by
      rw [hchars]
      simp only [List.append_assoc,List.cons_append,List.nil_append]
    rw [happ,←hfixed,List.drop_left]
  have hreceived : dataOf (tcpToStr packet)=(asReceived packet).data := by
    unfold dataOf asReceived
    rw [hdata,hlength]
    by_cases hempty : data.chars=[]
    · have hnone : (data.strlen != 0)=false := by simp [CString.strlen,hempty]
      rw [if_neg (by simp [hempty])]
      simp only [Option.filter_some,hnone,Bool.false_eq_true,if_false]
    · have hlen : 0 < data.chars.length := List.length_pos_iff.mpr hempty
      rw [if_pos (by omega)]
      have hkeep : (data.strlen != 0)=true := by
        rw [CString.strlen,bne_iff_ne]
        omega
      simp only [Option.filter_some,hkeep,if_true,Option.some.injEq]
      exact CString.ext hdrop
  unfold strToTcp
  rw [hchars]
  simp only [hsrc,hdst,hseq,hack,scanChar,hv,Option.bind_eq_bind,Option.bind_some,hvalue,
    hreceived]
  rfl

/-- A decoded packet is as its receiver should get it, or its checksum is
wrong and it is dropped. -/
theorem decoded_or_dropped (libc : Libc) {packet decoded : TCPPacket} {data : CString}
    (h : Printable packet) (hsum : packet.checksum=calcChecksum packet)
    (hdata : packet.data=some data) (hdecoded : strToTcp libc (tcpToStr packet)=some decoded) :
    decoded=asReceived packet ∨ calcChecksum decoded≠decoded.checksum := by
  rw [strToTcp_tcpToStr libc h hsum hdata,Option.some.injEq] at hdecoded
  subst hdecoded
  generalize storeInt libc _=v
  by_cases hv : v=packet.checksum
  · left
    rw [hv]
    rfl
  · right
    intro he
    exact hv (he.symm.trans hsum.symm)

/-- A checksum apart from the data takes in no digit. -/
theorem ChecksumApart.takes_none {packet : TCPPacket} {data : CString}
    (h : ChecksumApart packet data) :
    (data.chars.take (10-(decimal packet.checksum.natAbs).length)).takeWhile isDigit=[] := by
  rcases h with hlarge|hhead
  · have hlen : 9 < (decimal packet.checksum.natAbs).length := lt_length_decimal (by omega)
    rw [show 10-(decimal packet.checksum.natAbs).length=0 by omega,List.take_zero,
      List.takeWhile_nil]
  · cases hdata : data.chars with
    | nil => rw [List.take_nil,List.takeWhile_nil]
    | cons b tail =>
      have hb : isDigit b=false := hhead b (by rw [hdata]; rfl)
      cases 10-(decimal packet.checksum.natAbs).length with
      | zero => rw [List.take_zero,List.takeWhile_nil]
      | succ n => rw [List.take_succ_cons,List.takeWhile_cons_of_neg (by simp [hb])]

/-- Otherwise the scanned number is greater than the checksum. -/
theorem lt_of_not_checksumApart {packet : TCPPacket} {data : CString} (h : Printable packet)
    (hsum : packet.checksum=calcChecksum packet) (hnot : ¬ChecksumApart packet data) :
    packet.checksum < (decimalValue (decimal packet.checksum.natAbs++
      (data.chars.take (10-(decimal packet.checksum.natAbs).length)).takeWhile isDigit) : ℤ) := by
  have hpos := h.checksum_int.1
  rw [ChecksumApart,not_or] at hnot
  obtain ⟨hsmall,hdigit⟩ := hnot
  push Not at hdigit
  obtain ⟨b,hhead,hb⟩ := hdigit
  replace hb : isDigit b=true := by simpa using hb
  have hlen : (decimal packet.checksum.natAbs).length ≤ 9 :=
    length_decimal_le (by norm_num) (by omega)
  obtain ⟨room,hroom⟩ : ∃ room,10-(decimal packet.checksum.natAbs).length=room+1 :=
    ⟨9-(decimal packet.checksum.natAbs).length,by omega⟩
  obtain ⟨tail,hdata⟩ := List.head?_eq_some_iff.mp hhead
  rw [hroom,hdata,List.take_succ_cons,List.takeWhile_cons_of_pos hb]
  have hvalue : decimalValue (decimal packet.checksum.natAbs++
      b::(tail.take room).takeWhile isDigit)=
      packet.checksum.natAbs*10^((tail.take room).takeWhile isDigit).length.succ+
        decimalValue (b::(tail.take room).takeWhile isDigit) := by
    have hword := decimalValue_decimal packet.checksum.natAbs
    rw [decimalValue] at hword
    rw [decimalValue,List.map_append,horner_append,hword,List.length_map,List.length_cons]
    rfl
  have hten : packet.checksum.natAbs*10 ≤
      packet.checksum.natAbs*10^((tail.take room).takeWhile isDigit).length.succ := by
    refine Nat.mul_le_mul_left _ ?_
    rw [pow_succ]
    exact Nat.le_mul_of_pos_left _ (Nat.pow_pos (by norm_num))
  rw [hvalue]
  omega

/-- A packet with its own checksum, apart from its data, is decoded to what its
receiver should get. -/
theorem strToTcp_of_apart (libc : Libc) {packet : TCPPacket} {data : CString}
    (h : Printable packet) (hsum : packet.checksum=calcChecksum packet)
    (hdata : packet.data=some data) (hapart : ChecksumApart packet data) :
    strToTcp libc (tcpToStr packet)=some (asReceived packet) := by
  have hint := h.checksum_int
  have hvalue : storeInt libc (decimalValue (decimal packet.checksum.natAbs))=
      packet.checksum := by
    have hcast : ((packet.checksum.natAbs : ℕ) : ℤ)=packet.checksum :=
      Int.natAbs_of_nonneg (by omega)
    have hmin : intMin ≤ packet.checksum := by
      unfold intMin
      omega
    rw [decimalValue_decimal,hcast,storeInt,if_pos ⟨hmin,by omega⟩]
  rw [strToTcp_tcpToStr libc h hsum hdata,hapart.takes_none,List.append_nil,hvalue]
  rfl

/-- A built packet in range round trips under every libc exactly when its
checksum has ten digits or its data do not start with a digit. -/
theorem roundTrips_iff {socket : Socket} {data : CString} {flags : Byte} {dstPort : ℤ}
    (h : Printable (constructPacket socket data flags dstPort)) :
    (∀ libc,RoundTrips libc (constructPacket socket data flags dstPort)) ↔
      ChecksumApart (constructPacket socket data flags dstPort) data := by
  have hsum := constructPacket_checksum socket data flags dstPort
  have hdata : (constructPacket socket data flags dstPort).data=some data := rfl
  generalize constructPacket socket data flags dstPort=packet at *
  have hpos := h.checksum_int.1
  have hmax := h.checksum_int.2
  constructor
  · intro hall
    by_contra hnot
    have hlt := lt_of_not_checksumApart h hsum hnot
    obtain ⟨decoded,hdecoded,hreceived,_⟩ := hall ⟨fun _ => -1,fun _ => by decide⟩
    rw [strToTcp_tcpToStr _ h hsum hdata,Option.some.injEq,hreceived] at hdecoded
    have hstored := congrArg TCPPacket.checksum hdecoded
    simp only [storeInt,asReceived] at hstored
    split at hstored
    · omega
    · omega
  · intro hapart libc
    exact ⟨asReceived packet,strToTcp_of_apart libc h hsum hdata hapart,rfl,hsum.symm⟩

/-- The data of one letter, behind a checksum of five digits. -/
theorem roundTrips_iff_letter :
    let socket : Socket := {createNewSocket 0 ⟨8080,8081,emptyIp,emptyIp⟩ .established with
      seqOfFirstSendWindow := 1
      seqOfFirstRecvWindow := 1}
    let packet := constructPacket socket ⟨[97],by decide⟩ ackFlag 8081
    (∀ libc,RoundTrips libc packet) ↔ ChecksumApart packet ⟨[97],by decide⟩ :=
  roundTrips_iff ⟨by decide,by decide,by decide,by decide,by decide,by decide⟩

/-- The packet that carries the digit five behind a checksum of five digits
decodes with a checksum of six and is dropped, under every libc. -/
theorem digit_dropped :
    let socket : Socket := {createNewSocket 0 ⟨8080,8081,emptyIp,emptyIp⟩ .established with
      seqOfFirstSendWindow := 1
      seqOfFirstRecvWindow := 1}
    let packet := constructPacket socket ⟨[53],by decide⟩ ackFlag 8081
    Printable packet ∧ ∀ libc,¬RoundTrips libc packet := by
  intro socket packet
  have h : Printable packet := ⟨by decide,by decide,by decide,by decide,by decide,by decide⟩
  refine ⟨h,?_⟩
  rintro libc ⟨decoded,hdecoded,hreceived,_⟩
  have hdecode := strToTcp_tcpToStr libc h (constructPacket_checksum _ _ _ _) rfl
  rw [hdecode,Option.some.injEq,hreceived] at hdecoded
  have hstored := congrArg TCPPacket.checksum hdecoded
  have hscanned : (decimalValue (decimal packet.checksum.natAbs++
      (([53] : List Byte).take (10-(decimal packet.checksum.natAbs).length)).takeWhile
        isDigit) : ℤ)=161645 := by
    decide
  have hint : storeInt libc 161645=161645 := if_pos (by decide)
  have hsum : packet.checksum=16164 := by decide
  simp only [asReceived] at hstored
  rw [hscanned,hint,hsum] at hstored
  exact absurd hstored (by decide)

end NetworkLayer.TcpCodec
