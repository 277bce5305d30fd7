import NetworkLayer.CellBlocks
import NetworkLayer.FormattedText

/-!
# IP packets and their text form

An IP packet is a total length of ten digits, two ips of sixteen characters,
a checksum of eight digits and the data, without separators. The encoder
peels digits off with a falling power of ten and copies strings up to their
end; the decoder folds digits and copies from fixed places.
-/

namespace NetworkLayer.IpPackets

open ByteStrings CellBlocks DecimalWords FormattedText

/-- An IP packet. -/
structure IPPacket where
  /-- Length of the whole text form. -/
  totalLength : ℤ
  /-- Ip of the sender. -/
  srcIp : CString
  /-- Ip of the receiver. -/
  dstIp : CString
  /-- Checksum of the header. -/
  headerChecksum : ℤ
  /-- The message itself, or NULL. -/
  data : Option CString
  deriving DecidableEq

/-- `strcpy1` to a place in a buffer: at most `size` characters, the
terminator being the last. -/
def strcpy1 (dest : ℕ → Byte) (offset : ℕ) (source : CString) (size : ℕ) : ℕ → Byte :=
  storeBlock dest offset ((source.chars++[0]).take size)

/-- What `strcpy1` copies from a place in a string. -/
def copied (s : CString) (offset size : ℕ) : CString :=
  ⟨(s.chars.drop offset).take size,
    fun h => s.nulFree (List.mem_of_mem_drop (List.mem_of_mem_take h))⟩

/-- `str_to_int` of the first characters of a string, digits or not. -/
def strToInt (str : List Byte) : ℤ :=
  str.foldl (fun res c => wrapInt (res*10+charValue c-48)) 0

/-- `power`. -/
def power (base : ℤ) : ℕ → ℤ
  | 0 => 1
  | exponent+1 => power base exponent*base

/-- The loop of `int_to_str` with the power of ten it carries. -/
def intToStrLoop : ℕ → ℤ → ℤ → List Byte
  | 0,_,_ => []
  | rounds+1,help,n =>
    UInt8.ofInt ((n.tmod help).tdiv (help.tdiv 10)+48)::intToStrLoop rounds (help.tdiv 10) n

/-- The characters `int_to_str` stores. -/
def intToStr (sizeOfStr : ℕ) (n : ℤ) : List Byte := intToStrLoop sizeOfStr (power 10 sizeOfStr) n

/-- `str_to_ip`. -/
def strToIp (s : CString) : Option IPPacket :=
  if s.strlen < 50 then none
  else
    let totalLength := strToInt (s.chars.take 10)
    let dataSize := wrapInt (totalLength-50)
    some {
      totalLength := totalLength
      srcIp := copied s 10 16
      dstIp := copied s 26 16
      headerChecksum := strToInt ((s.chars.drop 42).take 8)
      data := if dataSize > 0 then some (copied s 50 dataSize.toNat) else none}

/-- `ip_to_str`, into a fresh buffer. -/
def ipToStr (fresh : ℕ → Byte) (packet : IPPacket) : CString :=
  let lengthOfMsg := (wrapInt packet.totalLength).toNat
  let result := storeBlock fresh 0 (intToStr 10 packet.totalLength)
  let result := strcpy1 result 10 packet.srcIp 16
  let result := strcpy1 result 26 packet.dstIp 16
  let result := storeBlock result 42 (intToStr 8 packet.headerChecksum)
  let result := strcpy1 result 50 (packet.data.getD CString.empty) (lengthOfMsg-50)
  let result := Function.update result lengthOfMsg 0
  CString.ofCells (loadBlock result 0 (lengthOfMsg+1))

/-- `calc_ip_checksum`. -/
def calcIpChecksum (_packet : IPPacket) : ℤ := 5

/-- `create_ip_packet`. -/
def createIpPacket (src dst data : CString) : Option IPPacket :=
  if src.strlen≠16 ∨ dst.strlen≠16 then none
  else
    let result : IPPacket := {
      totalLength := 50+data.strlen
      srcIp := src
      dstIp := dst
      headerChecksum := 0
      data := some data}
    some {result with headerChecksum := calcIpChecksum result}

/-- The power loop computes the power. -/
theorem power_eq (base : ℤ) (exponent : ℕ) : power base exponent=base^exponent := by
  induction exponent with
  | zero => rw [power,pow_zero]
  | succ exponent ih => rw [power,ih,pow_succ]

/-- The character so many places above `0`, or below it. -/
def signedDigitByte (sign : ℤ) (d : ℕ) : Byte := UInt8.ofInt (sign*d+48)

/-- Above it are the digits. -/
theorem signedDigitByte_one {d : ℕ} (hd : d < 10) : signedDigitByte 1 d=digitByte d := by
  rw [signedDigitByte,one_mul,UInt8.ofInt,digitByte]
  congr 1
  omega

/-- The promoted value of such a character. -/
theorem charValue_signedDigitByte {sign : ℤ} (hsign : sign=1 ∨ sign=-1) {d : ℕ} (hd : d < 10) :
    charValue (signedDigitByte sign d)=sign*d+48 := by
  have hvalue : (signedDigitByte sign d).toNat=(sign*d+48).toNat := by
    rw [signedDigitByte,UInt8.ofInt,UInt8.toNat_ofNat']
    rcases hsign with rfl|rfl <;> omega
  rw [charValue,hvalue]
  rcases hsign with rfl|rfl <;> omega

/-- Each round stores the digit that the carried power selects, below `0` for
a negative number. -/
theorem intToStrLoop_spec {sign : ℤ} (hsign : sign=1 ∨ sign=-1) (k n : ℕ) :
    intToStrLoop k (10^k) (sign*n)=(fixedDigits 10 k n).map (signedDigitByte sign) := by
  induction k with
  | zero => rfl
  | succ k ih =>
    have hcast : (10 : ℤ)^(k+1)=((10^k*10 : ℕ) : ℤ) := by
      push_cast
      ring
    have hhelp : ((10 : ℤ)^(k+1)).tdiv 10=((10^k : ℕ) : ℤ) := by
      have hnat : ((10^k*10 : ℕ) : ℤ).tdiv 10=((10^k*10/10 : ℕ) : ℤ) := rfl
      rw [hcast,hnat,Nat.mul_div_cancel _ (by norm_num)]
    have hdigit : ((n : ℤ).tmod (10^(k+1))).tdiv ((10^k : ℕ) : ℤ)=((n/10^k%10 : ℕ) : ℤ) := by
      have hnat : ((n : ℤ).tmod ((10^k*10 : ℕ) : ℤ)).tdiv ((10^k : ℕ) : ℤ)=
          ((n%(10^k*10)/10^k : ℕ) : ℤ) := rfl
      rw [hcast,hnat,Nat.mod_mul_right_div_self]
    have hsigned : ((sign*(n : ℤ)).tmod (10^(k+1))).tdiv ((10^k : ℕ) : ℤ)=
        sign*((n/10^k%10 : ℕ) : ℤ) := by
      rcases hsign with rfl|rfl
      · rw [one_mul,one_mul,hdigit]
      · rw [neg_one_mul,neg_one_mul,Int.neg_tmod,Int.neg_tdiv,hdigit]
    rw [intToStrLoop,hhelp,hsigned,fixedDigits,List.map_cons,←ih,signedDigitByte]
    push_cast
    rfl

/-- A nonnegative number is stored as its lowest digits. -/
theorem intToStr_eq (k n : ℕ) : intToStr k n=(fixedDigits 10 k n).map digitByte := by
  have hloop := intToStrLoop_spec (.inl rfl) k n
  rw [one_mul] at hloop
  rw [intToStr,power_eq,hloop]
  exact List.map_congr_left fun d hd => signedDigitByte_one (fixedDigits_lt (by norm_num) hd)

/-- A negative one is stored as characters below `0`. -/
theorem intToStr_neg (k n : ℕ) :
    intToStr k (-(n : ℤ))=(fixedDigits 10 k n).map (signedDigitByte (-1)) := by
  have hloop := intToStrLoop_spec (.inr rfl) k n
  rw [neg_one_mul] at hloop
  rw [intToStr,power_eq,hloop]

/-- Reading more digits never makes a number smaller. -/
theorem le_foldl_digits (ds : List ℕ) (v : ℕ) : v ≤ ds.foldl (fun v d => 10*v+d) v := by
  induction ds generalizing v with
  | nil => exact le_rfl
  | cons d ds ih =>
    have hstep := ih (10*v+d)
    rw [List.foldl_cons]
    omega

/-- Folding the characters of digits that are all above `0`, or all below it,
gives the value of the digits with that sign, when that is an `int`: no step
of the fold wraps around. -/
theorem strToInt_signed {sign : ℤ} (hsign : sign=1 ∨ sign=-1) {digits : List ℕ}
    (h : ∀ d∈digits,d < 10) (hmax : (horner 10 digits : ℤ) ≤ intMax) :
    strToInt (digits.map (signedDigitByte sign))=sign*horner 10 digits := by
  have hfold : ∀ (ds : List ℕ) (v : ℕ),(∀ d∈ds,d < 10) →
      ((ds.foldl (fun v d => 10*v+d) v : ℕ) : ℤ) ≤ intMax →
      (ds.map (signedDigitByte sign)).foldl (fun res c => wrapInt (res*10+charValue c-48))
        (sign*v)=sign*((ds.foldl (fun v d => 10*v+d) v : ℕ) : ℤ) := by
    intro ds
    induction ds with
    | nil =>
      intro v _ _
      rfl
    | cons d ds ih =>
      intro v hds hle
      rw [List.foldl_cons] at hle
      have hd := charValue_signedDigitByte hsign (hds d List.mem_cons_self)
      have hstep : sign*(v : ℤ)*10+charValue (signedDigitByte sign d)-48=
          sign*((10*v+d : ℕ) : ℤ) := by
        rw [hd]
        push_cast
        ring
      have hgrow := le_foldl_digits ds (10*v+d)
      have hrange : intMin ≤ sign*((10*v+d : ℕ) : ℤ) ∧ sign*((10*v+d : ℕ) : ℤ) ≤ intMax := by
        unfold intMin intMax at *
        rcases hsign with rfl|rfl <;> omega
      rw [List.map_cons,List.foldl_cons,List.foldl_cons,hstep,wrapInt_of_int hrange.1 hrange.2]
      exact ih _ (fun e he => hds e (List.mem_cons_of_mem _ he)) hle
  have hzero : sign*((0 : ℕ) : ℤ)=0 := by simp
  have hall := hfold digits 0 h hmax
  rwa [hzero] at hall

/-- Folding digit characters gives the value of the word, when that is an
`int`. -/
theorem strToInt_digits {digits : List ℕ} (h : ∀ d∈digits,d < 10)
    (hmax : (horner 10 digits : ℤ) ≤ intMax) :
    strToInt (digits.map digitByte)=horner 10 digits := by
  have hsigned := strToInt_signed (.inl rfl) h hmax
  have hmap : digits.map (signedDigitByte 1)=digits.map digitByte :=
    List.map_congr_left fun d hd => signedDigitByte_one (h d hd)
  rwa [one_mul,hmap] at hsigned

/-- A nonnegative `int` below the power of the width survives storing and
folding. -/
theorem strToInt_intToStr {k n : ℕ} (h : n < 10^k) (hmax : (n : ℤ) ≤ intMax) :
    strToInt (intToStr k n)=(n : ℤ) := by
  have hvalue := horner_fixedDigits_of_lt h
  rw [intToStr_eq,strToInt_digits (fun d hd => fixedDigits_lt (by norm_num) hd) (by rwa [hvalue]),
    hvalue]

/-- So many rounds store so many characters. -/
theorem length_intToStrLoop (rounds : ℕ) (help n : ℤ) :
    (intToStrLoop rounds help n).length=rounds := by
  induction rounds generalizing help with
  | zero => rfl
  | succ rounds ih => rw [intToStrLoop,List.length_cons,ih]

@[simp] theorem length_intToStr (k : ℕ) (n : ℤ) : (intToStr k n).length=k :=
  length_intToStrLoop k _ n

/-- Stored digits are digits. -/
theorem isDigit_of_mem_intToStr {k n : ℕ} {b : Byte} (hb : b∈intToStr k n) :
    isDigit b=true := by
  rw [intToStr_eq] at hb
  obtain ⟨d,hd,rfl⟩ := List.mem_map.mp hb
  exact isDigit_digitByte (fixedDigits_lt (by norm_num) hd)

/-- The word `int_to_str` stores has the number as its value. -/
theorem decimalValue_intToStr {k n : ℕ} (h : n < 10^k) : decimalValue (intToStr k n)=n := by
  have hdigits : ∀ d∈fixedDigits 10 k n,d < 10 := fun d hd => fixedDigits_lt (by norm_num) hd
  have hvalues : ((fixedDigits 10 k n).map digitByte).map digitValue=fixedDigits 10 k n := by
    rw [List.map_map]
    exact (List.map_congr_left fun d hd => digitValue_digitByte (hdigits d hd)).trans
      (List.map_id _)
  rw [intToStr_eq,decimalValue,hvalues,horner_fixedDigits_of_lt h]

/-- A packet as `create_ip_packet` makes it. -/
structure Created (packet : IPPacket) (data : CString) : Prop where
  /-- The source ip has sixteen characters. -/
  srcIp : packet.srcIp.chars.length=16
  /-- The destination ip has sixteen characters. -/
  dstIp : packet.dstIp.chars.length=16
  /-- The data are there. -/
  content : packet.data=some data
  /-- The checksum is the computed one. -/
  headerChecksum : packet.headerChecksum=5
  /-- The total length counts header and data. -/
  totalLength : packet.totalLength=((50+data.chars.length : ℕ) : ℤ)

/-- `create_ip_packet` makes such packets only. -/
theorem createIpPacket_created {src dst data : CString} {packet : IPPacket}
    (h : createIpPacket src dst data=some packet) : Created packet data := by
  unfold createIpPacket at h
  split at h
  · cases h
  · next hlen =>
    rw [not_or,not_not,not_not] at hlen
    obtain rfl := Option.some.inj h
    exact ⟨hlen.1,hlen.2,rfl,rfl,rfl⟩

/-- The text of a created packet. -/
def ipText (packet : IPPacket) (data : CString) : List Byte :=
  intToStr 10 (50+data.chars.length : ℕ)++(packet.srcIp.chars++(packet.dstIp.chars++
    (intToStr 8 (5 : ℕ)++data.chars)))

/-- There is no NUL in the text. -/
theorem ipText_nulFree (packet : IPPacket) (data : CString) : (0 : Byte)∉ipText packet data := by
  have hdigits : ∀ k n,(0 : Byte)∉intToStr k ((n : ℕ) : ℤ) := by
    intro k n hb
    exact absurd (isDigit_of_mem_intToStr hb) (by decide)
  simp only [ipText,List.mem_append,not_or]
  exact ⟨hdigits _ _,packet.srcIp.nulFree,packet.dstIp.nulFree,hdigits _ _,data.nulFree⟩

/-- A copy that has room for exactly the characters stores them. -/
theorem strcpy1_exact (dest : ℕ → Byte) (offset : ℕ) (source : CString) {size : ℕ}
    (h : source.chars.length=size) :
    strcpy1 dest offset source size=storeBlock dest offset source.chars := by
  rw [strcpy1,List.take_append_of_le_length h.ge,List.take_of_length_le h.le]

/-- `ip_to_str` writes the parts of a packet one behind the other, whatever was
in the buffer, if both ips are full and the total length is that of the
parts. -/
theorem ipToStr_eq (fresh : ℕ → Byte) {packet : IPPacket} {data : CString}
    (hsrc : packet.srcIp.chars.length=16) (hdst : packet.dstIp.chars.length=16)
    (hdata : packet.data.getD CString.empty=data)
    (htotal : packet.totalLength=((50+data.chars.length : ℕ) : ℤ))
    (hmax : packet.totalLength ≤ intMax) :
    ipToStr fresh packet=CString.ofCells (intToStr 10 packet.totalLength++
      (packet.srcIp.chars++(packet.dstIp.chars++
        (intToStr 8 packet.headerChecksum++data.chars)))++[0]) := by
  have hwrap : wrapInt packet.totalLength=packet.totalLength :=
    wrapInt_of_int (by unfold intMin; omega) hmax
  have hlen : packet.totalLength.toNat=50+data.chars.length := by omega
  let body := packet.srcIp.chars++(packet.dstIp.chars++
    (intToStr 8 packet.headerChecksum++data.chars))
  have hstore : Function.update (storeBlock (storeBlock (storeBlock (storeBlock
      (storeBlock fresh 0 (intToStr 10 packet.totalLength)) 10 packet.srcIp.chars) 26
      packet.dstIp.chars) 42 (intToStr 8 packet.headerChecksum)) 50 data.chars)
      (50+data.chars.length) 0=
      storeBlock fresh 0 (intToStr 10 packet.totalLength++body++[0]) := by
    unfold body
    simp only [List.append_assoc]
    rw [storeBlock_append,storeBlock_append,storeBlock_append,storeBlock_append,
      storeBlock_append]
    simp only [length_intToStr,hsrc,hdst,Nat.zero_add,storeBlock]
  have hall : (intToStr 10 packet.totalLength++body++[0]).length=50+data.chars.length+1 := by
    simp only [body,List.length_append,length_intToStr,hsrc,hdst,List.length_singleton]
    omega
  have hload := loadBlock_storeBlock fresh 0 (intToStr 10 packet.totalLength++body++[0])
  rw [hall] at hload
  have hcopied : strcpy1 (storeBlock (strcpy1 (strcpy1 (storeBlock fresh 0
      (intToStr 10 packet.totalLength)) 10 packet.srcIp 16) 26 packet.dstIp 16) 42
      (intToStr 8 packet.headerChecksum)) 50 data data.chars.length=
      storeBlock (storeBlock (storeBlock (storeBlock (storeBlock fresh 0
        (intToStr 10 packet.totalLength)) 10 packet.srcIp.chars) 26 packet.dstIp.chars) 42
        (intToStr 8 packet.headerChecksum)) 50 data.chars := by
    rw [strcpy1_exact _ _ _ hsrc,strcpy1_exact _ _ _ hdst,strcpy1_exact _ _ _ rfl]
  unfold ipToStr
  simp only [hwrap,hdata,hlen,Nat.add_sub_cancel_left,hcopied,hstore,hload]
  rfl

/-- The text of a created packet. -/
theorem ipToStr_chars (fresh : ℕ → Byte) {packet : IPPacket} {data : CString}
    (h : Created packet data) (hmax : packet.totalLength ≤ intMax) :
    (ipToStr fresh packet).chars=ipText packet data := by
  have htext : intToStr 10 packet.totalLength++(packet.srcIp.chars++(packet.dstIp.chars++
      (intToStr 8 packet.headerChecksum++data.chars)))=ipText packet data := by
    rw [h.totalLength,h.headerChecksum]
    rfl
  rw [ipToStr_eq fresh h.srcIp h.dstIp (by rw [h.content]; rfl) h.totalLength hmax,htext,
    CString.ofCells_terminated (ipText_nulFree packet data)]

/-- Behind the header and two addresses the checksum begins. -/
theorem drop_addresses {header src dst rest : List Byte} (hheader : header.length=10)
    (hsrc : src.length=16) (hdst : dst.length=16) :
    (header++(src++(dst++rest))).drop 42=rest := by
  rw [show 42=10+16+16 from rfl,←List.drop_drop,←List.drop_drop,List.drop_left' hheader,
    List.drop_left' hsrc,List.drop_left' hdst]

/-- A copy of all characters is the string. -/
theorem copied_whole (data : CString) : copied data 0 data.chars.length=data :=
  CString.ext (by simp only [copied,List.drop_zero,List.take_length])

/-- The decoder takes a string of fifty characters or more apart. -/
theorem strToIp_eq {s src dst data : CString} {header sum : List Byte}
    (hs : s.chars=header++(src.chars++(dst.chars++(sum++data.chars))))
    (hheader : header.length=10) (hsrc : src.chars.length=16) (hdst : dst.chars.length=16)
    (hsum : sum.length=8) :
    let dataSize := wrapInt (strToInt header-50)
    strToIp s=some ⟨strToInt header,src,dst,strToInt sum,
      if dataSize > 0 then some (copied data 0 dataSize.toNat) else none⟩ := by
  have hlong : ¬s.strlen < 50 := by
    rw [CString.strlen,hs]
    simp only [List.length_append]
    omega
  have hten : s.chars.take 10=header := by rw [hs,List.take_left' hheader]
  have hcut : s.chars.drop 10=src.chars++(dst.chars++(sum++data.chars)) := by
    rw [hs,List.drop_left' hheader]
  have hcut' : s.chars.drop 26=dst.chars++(sum++data.chars) := by
    rw [show 26=10+16 from rfl,←List.drop_drop,hcut,List.drop_left' hsrc]
  have hsums : s.chars.drop 42=sum++data.chars := by rw [hs,drop_addresses hheader hsrc hdst]
  have hrest : s.chars.drop 50=data.chars := by
    rw [show 50=42+8 from rfl,←List.drop_drop,hsums,List.drop_left' hsum]
  have hsrcIp : copied s 10 16=src := CString.ext (by simp only [copied,hcut,List.take_left' hsrc])
  have hdstIp : copied s 26 16=dst := CString.ext (by simp only [copied,hcut',List.take_left' hdst])
  have hdata : ∀ size,copied s 50 size=copied data 0 size := fun size =>
    CString.ext (by simp only [copied,hrest,List.drop_zero])
  rw [strToIp,if_neg hlong]
  simp only [hten,hsrcIp,hdstIp,hsums,List.take_left' hsum,hdata]

/-- The decoder gives a created packet with data back. -/
theorem strToIp_ipText {packet : IPPacket} {data : CString} (h : Created packet data)
    (hdata : data.chars≠[]) (hmax : packet.totalLength ≤ intMax) {s : CString}
    (hs : s.chars=ipText packet data) : strToIp s=some packet := by
  have hpos : 0 < data.chars.length := List.length_pos_iff.mpr hdata
  have htotal := h.totalLength
  have hint : intMax=2147483647 := rfl
  have hwrap : wrapInt (packet.totalLength-50)=(data.chars.length : ℤ) := by
    rw [wrapInt_of_int (by unfold intMin; omega) (by omega),htotal]
    omega
  have hnumber : strToInt (intToStr 10 (50+data.chars.length : ℕ))=packet.totalLength := by
    rw [strToInt_intToStr (by omega) (by omega),htotal]
  have hsum : strToInt (intToStr 8 (5 : ℕ))=packet.headerChecksum := by
    rw [strToInt_intToStr (by norm_num) (by decide),h.headerChecksum]
    rfl
  have hsome : (data.chars.length : ℤ) > 0 := by omega
  rw [strToIp_eq hs (length_intToStr 10 _) h.srcIp h.dstIp (length_intToStr 8 _),hnumber,hwrap,
    if_pos hsome,hsum,Int.toNat_natCast,copied_whole,←h.content]

end NetworkLayer.IpPackets
