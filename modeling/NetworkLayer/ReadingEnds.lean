import NetworkLayer.PacketFraming

/-!
# Readings that never end

Once its writers have closed a fifo, a read of it returns 0 when it is
drained. The reading loops take that for a piece of no bytes and ask again.
A packet that is cut off is read for ever, and so is one that announces
exactly the ten bytes of its header.
-/

namespace NetworkLayer.ReadingEnds

open ByteStrings CellBlocks FormattedText FifoReads IpPackets PacketFraming

/-- A schedule under which all writers have closed the fifo: nothing arrives,
and no read fails. -/
structure Drained (schedule : Schedule) : Prop where
  /-- Nothing arrives and no read fails. -/
  steady : Steady schedule
  /-- No writer is left. -/
  closed : ∀ t,(schedule t).writers=false

section

variable {schedule : Schedule} (h : Drained schedule)

include h

/-- A read returns some first bytes of what is there, none only if nothing is
there or nothing was asked for. -/
theorem Drained.read_cases (fifo : Fifo) (len : ℕ) :
    ∃ data rest,read schedule fifo len=(.bytes data,⟨rest,fifo.reads+1⟩) ∧
      fifo.waiting=data++rest ∧ data.length ≤ len ∧
      (data=[] ↔ fifo.waiting=[] ∨ len=0) := by
  obtain ⟨harrived,herror⟩ := h.steady fifo.reads
  rcases Nat.eq_zero_or_pos len with rfl|hlen
  · refine ⟨[],fifo.waiting,?_,rfl,le_rfl,by simp⟩
    simp only [FifoReads.read,harrived,herror,List.append_nil,Bool.false_eq_true,if_false,if_true]
  · by_cases hwaiting : fifo.waiting=[]
    · refine ⟨[],[],?_,hwaiting,Nat.zero_le len,by simp [hwaiting]⟩
      have hne : ¬len=0 := by omega
      simp only [FifoReads.read,harrived,herror,h.closed,hwaiting,List.append_nil,
        Bool.false_eq_true,if_false,if_neg hne,if_true]
    · obtain ⟨k,hk,hkl,hread⟩ := h.steady.read_spec hlen hwaiting
      have hne : len≠0 := by omega
      refine ⟨_,_,hread,(List.take_append_drop k _).symm,?_,?_⟩
      · rw [List.length_take]
        omega
      · simp [hwaiting,hne,hk.ne']

/-- The loop never completes a message that is cut off: when the fifo is
drained, bytes are left to read and each read returns none. -/
theorem Drained.readRest_hangs (start len fuel : ℕ) {bytesLeft : ℕ} (buf : ℕ → Byte) (fifo : Fifo)
    (hshort : fifo.waiting.length < bytesLeft) :
    readRest schedule start len fuel bytesLeft buf fifo=none := by
  induction fuel generalizing bytesLeft buf fifo with
  | zero =>
    obtain ⟨left,rfl⟩ : ∃ left,bytesLeft=left+1 := ⟨bytesLeft-1,by omega⟩
    rfl
  | succ fuel ih =>
    obtain ⟨left,rfl⟩ : ∃ left,bytesLeft=left+1 := ⟨bytesLeft-1,by omega⟩
    obtain ⟨data,rest,hread,hdata,hle,_⟩ := h.read_cases fifo (left+1)
    have hlen := congrArg List.length hdata
    rw [List.length_append] at hlen
    rw [readRest,hread]
    refine ih _ ⟨rest,fifo.reads+1⟩ ?_
    simp only
    omega

/-- A message that is cut off is waited for as long as its first bytes are
there; otherwise 0 is returned. -/
theorem Drained.readEntireMessage_short (start fuel : ℕ) {len : ℕ} (buf : ℕ → Byte) (fifo : Fifo)
    (hshort : len=0 ∨ fifo.waiting.length < len) :
    readEntireMessage schedule fuel start len buf fifo=
      if fifo.waiting=[] ∨ len=0 then some ⟨0,buf,⟨fifo.waiting,fifo.reads+1⟩⟩ else none := by
  have hnonneg : ¬((len : ℤ) < 0) := by omega
  obtain ⟨data,rest,hread,hdata,hle,hnil⟩ := h.read_cases fifo len
  rw [readEntireMessage,if_neg hnonneg,Int.toNat_natCast,hread]
  by_cases hend : fifo.waiting=[] ∨ len=0
  · obtain rfl := hnil.mpr hend
    rw [if_pos hend,hdata]
    rfl
  · rw [if_neg hend]
    cases data with
    | nil => exact absurd (hnil.mp rfl) hend
    | cons b tail =>
      have hlen := congrArg List.length hdata
      rw [List.length_append] at hlen
      refine h.readRest_hangs start len fuel _ ⟨rest,fifo.reads+1⟩ ?_
      simp only
      omega

end

/-- Fewer cells than a header and an address part have make no packet. -/
theorem strToIp_short {cells : List Byte} (h : cells.length < 50) :
    strToIp (CString.ofCells cells)=none := by
  have hle : (CString.ofCells cells).strlen ≤ cells.length := (List.takeWhile_prefix _).length_le
  rw [strToIp,if_pos (by omega)]

/-- A length below that of the header makes the rest of the reading fail. -/
theorem readBody_below {schedule : Schedule} {fuel : ℕ} (hfuel : 0 < fuel) (header : List Byte)
    {totalLength : ℤ} (hlt : totalLength < 10) (cells : ℕ → Byte) (fifo : Fifo) :
    readBody schedule fuel header totalLength cells fifo=some (none,fifo) := by
  obtain ⟨fuel,rfl⟩ : ∃ k,fuel=k+1 := ⟨fuel-1,by omega⟩
  have hneg : totalLength-10 < 0 := by omega
  have hfailed : readNonzeroEntireMessage schedule 10 (totalLength-10) (fuel+1)
      (storeBlock cells 0 header) fifo=some ⟨-1,storeBlock cells 0 header,fifo⟩ := by
    rw [readNonzeroEntireMessage,readEntireMessage,if_pos hneg]
    rfl
  rw [readBody]
  split
  · rfl
  · rw [hfailed]
    simp only
    split
    · rfl
    · rw [strToIp_short (by rw [length_loadBlock]; omega)]

/-- A body that is cut off, or that has no bytes, is read for ever. -/
theorem readBody_hangs {schedule : Schedule} (h : Steady schedule) (fuel : ℕ)
    (header : List Byte) {totalLength : ℤ} (hfits : ¬wrapInt (totalLength+1) < 0)
    (cells : ℕ → Byte) (fifo : Fifo)
    (hcut : totalLength=10 ∨ 10 < totalLength ∧ 10+(fifo.waiting.length : ℤ) < totalLength) :
    readBody schedule fuel header totalLength cells fifo=none := by
  obtain ⟨len,hlen⟩ : ∃ len : ℕ,totalLength-10=len := ⟨(totalLength-10).toNat,by omega⟩
  rw [readBody,if_neg hfits,hlen,h.readNonzeroEntireMessage_short 10 fuel _ fifo (by omega)]

section

variable (libc : Libc)

/-- The reading of a packet ends on this content: there is none, or there are
ten bytes and these announce no length, one for which no buffer is had, one
below ten, or one above ten that the content reaches. -/
def PacketReadEnds (content : List Byte) : Prop :=
  content=[] ∨ 10 ≤ content.length ∧
    ∀ totalLength,announced libc (content.take 10)=some totalLength →
      wrapInt (totalLength+1) < 0 ∨ totalLength < 10 ∨
        10 < totalLength ∧ totalLength ≤ content.length

/-- The packet whose text is first in the content, and what follows it. -/
def nextPacket (content : List Byte) : Option (IPPacket × List Byte) :=
  if content.length < 10 then none
  else
    match announced libc (content.take 10) with
    | none => none
    | some totalLength =>
      if wrapInt (totalLength+1) < 0 ∨ totalLength < 10 then none
      else (strToIp (CString.ofCells (content.take totalLength.toNat++[0]))).map fun packet =>
        (packet,content.drop totalLength.toNat)

variable {σ : Type*} (handle : σ → IPPacket → Bool × σ)

/-- An epoch of so many rounds ends on this content: the reading does in every
round that is reached. -/
def EpochEnds : ℕ → σ → List Byte → Prop
  | 0,_,_ => True
  | rounds+1,s,content => PacketReadEnds libc content ∧
      ∀ packet rest,nextPacket libc content=some (packet,rest) → (handle s packet).1=true →
        EpochEnds rounds (handle s packet).2 rest

variable {libc}

/-- What follows a packet is no longer than the content. -/
theorem nextPacket_rest {content rest : List Byte} {packet : IPPacket}
    (h : nextPacket libc content=some (packet,rest)) : rest.length ≤ content.length := by
  rw [nextPacket] at h
  split at h
  · cases h
  · split at h
    · cases h
    · split at h
      · cases h
      · obtain ⟨_,_,hpair⟩ := Option.map_eq_some_iff.mp h
        obtain ⟨-,rfl⟩ := Prod.mk.inj hpair
        rw [List.length_drop]
        omega

end

section

variable (libc : Libc) {schedule : Schedule} (h : Steady schedule) (fresh : ℕ → ℕ → Byte)

include h

/-- Where the reading ends it gives the packet that is first, if any, and
leaves what follows it. -/
theorem readIpPacketFromFile_ends {fuel : ℕ} {fifo : Fifo}
    (hends : PacketReadEnds libc fifo.waiting) (hfuel : fifo.waiting.length < fuel) :
    ∃ next,readIpPacketFromFile libc schedule fuel fresh fifo=
        some ((nextPacket libc fifo.waiting).map Prod.fst,next) ∧
      ∀ packet rest,nextPacket libc fifo.waiting=some (packet,rest) → next.waiting=rest := by
  rcases hends with hempty|⟨hten,hlengths⟩
  · have hnone : nextPacket libc fifo.waiting=none := by
      rw [nextPacket,hempty]
      rfl
    rw [hnone]
    exact ⟨_,readIpPacketFromFile_empty libc fresh fuel h hempty,by simp⟩
  have hheader : (fifo.waiting.take 10).length=10 := by
    rw [List.length_take]
    omega
  have hsplit := (List.take_append_drop 10 fifo.waiting).symm
  have htenFuel : 10 ≤ fuel := by omega
  obtain ⟨reads,hread⟩ := readIpPacketFromFile_header libc fresh h hheader htenFuel hsplit
  rw [hread,nextPacket,if_neg (by omega)]
  cases hannounced : announced libc (fifo.waiting.take 10) with
  | none => exact ⟨_,rfl,by simp⟩
  | some totalLength =>
    simp only
    by_cases hwrap : wrapInt (totalLength+1) < 0
    · rw [if_pos (.inl hwrap),readBody,if_pos hwrap]
      exact ⟨_,rfl,by simp⟩
    by_cases hlow : totalLength < 10
    · rw [if_pos (.inr hlow),readBody_below (by omega) _ hlow]
      exact ⟨_,rfl,by simp⟩
    obtain ⟨hpos,hwhole⟩ : 10 < totalLength ∧ totalLength ≤ fifo.waiting.length := by
      rcases hlengths totalLength hannounced with hneg|hsmall|hwhole
      · exact absurd hneg hwrap
      · exact absurd hsmall hlow
      · exact hwhole
    have hbody : (fifo.waiting.drop 10).take (totalLength.toNat-10)++
        fifo.waiting.drop totalLength.toNat=fifo.waiting.drop 10 := by
      have hplace : 10+(totalLength.toNat-10)=totalLength.toNat := by omega
      rw [←hplace,←List.drop_drop,Nat.add_sub_cancel_left,List.take_append_drop]
    have htext : fifo.waiting.take 10++(fifo.waiting.drop 10).take (totalLength.toNat-10)=
        fifo.waiting.take totalLength.toNat := by
      have hplace : totalLength.toNat=10+(totalLength.toNat-10) := by omega
      conv_rhs => rw [hplace,List.take_add]
    have hbodyLen : ((fifo.waiting.drop 10).take (totalLength.toNat-10)).length=
        totalLength.toNat-10 := by
      rw [List.length_take,List.length_drop]
      omega
    have hbodyFuel : ((fifo.waiting.drop 10).take (totalLength.toNat-10)).length < fuel := by omega
    have hleft : (⟨fifo.waiting.drop 10,reads⟩ : Fifo).waiting=_ := hbody.symm
    obtain ⟨last,hlast⟩ := readBody_spec h hheader (by omega) (by omega) hwrap hbodyFuel
      (fresh fifo.reads) hleft
    rw [hlast,htext,if_neg (by omega)]
    cases strToIp (CString.ofCells (fifo.waiting.take totalLength.toNat++[0])) with
    | none => exact ⟨_,rfl,by simp⟩
    | some packet => exact ⟨_,rfl,fun _ _ hnext => (Prod.mk.inj (Option.some.inj hnext)).2⟩

/-- A reading that finds ten bytes and returned is one that ends. -/
theorem packetReadEnds_of_long {fuel : ℕ} {fifo : Fifo} {result : Option IPPacket × Fifo}
    (hten : 10 ≤ fifo.waiting.length)
    (hread : readIpPacketFromFile libc schedule fuel fresh fifo=some result) :
    PacketReadEnds libc fifo.waiting := by
  refine .inr ⟨hten,fun totalLength hannounced => ?_⟩
  by_contra hcut
  rw [not_or,not_or] at hcut
  obtain ⟨hfits,hlow,hcut⟩ := hcut
  have hmore := readIpPacketFromFile_mono libc fresh (Nat.le_add_right fuel 10) hread
  have hheader : (fifo.waiting.take 10).length=10 := by
    rw [List.length_take]
    omega
  obtain ⟨reads,hfirst⟩ := readIpPacketFromFile_header libc fresh h hheader
    (Nat.le_add_left 10 fuel) (List.take_append_drop 10 fifo.waiting).symm
  have hcut' : totalLength=10 ∨ 10 < totalLength ∧
      10+((fifo.waiting.drop 10).length : ℤ) < totalLength := by
    rw [List.length_drop]
    omega
  have hhangs := readBody_hangs h (fuel+10) (fifo.waiting.take 10) hfits
    (fresh fifo.reads) ⟨fifo.waiting.drop 10,reads⟩ hcut'
  rw [hfirst,hannounced] at hmore
  cases hhangs.symm.trans hmore

/-- One that finds fewer gives no packet. -/
theorem readIpPacketFromFile_short {fuel : ℕ} {fifo next : Fifo} {packet : Option IPPacket}
    (hshort : fifo.waiting.length < 10)
    (hread : readIpPacketFromFile libc schedule fuel fresh fifo=some (packet,next)) :
    packet=none := by
  rw [readIpPacketFromFile] at hread
  cases hheader : readEntireMessage schedule fuel 0 10 (fun _ => 0) fifo with
  | none =>
    rw [hheader] at hread
    cases hread
  | some header =>
    have hten : ((10 : ℕ) : ℤ)=10 := rfl
    have hzero := (h.readEntireMessage_short (.inr hshort) (hten.symm ▸ hheader)).1
    have hne : header.result≠10 := by omega
    rw [hheader] at hread
    simp only [if_pos hne] at hread
    exact (Prod.mk.inj (Option.some.inj hread)).1.symm

/-- A reading that returned gave the packet that is first, if any, and left
what follows it. -/
theorem readIpPacketFromFile_next {fuel : ℕ} {fifo next : Fifo} {packet : Option IPPacket}
    (hread : readIpPacketFromFile libc schedule fuel fresh fifo=some (packet,next)) :
    packet=(nextPacket libc fifo.waiting).map Prod.fst ∧
      ∀ p rest,nextPacket libc fifo.waiting=some (p,rest) → next.waiting=rest := by
  by_cases hshort : fifo.waiting.length < 10
  · have hnone : nextPacket libc fifo.waiting=none := by rw [nextPacket,if_pos hshort]
    rw [readIpPacketFromFile_short libc h fresh hshort hread,hnone]
    exact ⟨rfl,by simp⟩
  have hends := packetReadEnds_of_long libc h fresh (Nat.not_lt.mp hshort) hread
  have hle : fuel ≤ fuel+fifo.waiting.length+1 := by omega
  obtain ⟨last,hlast,hrest⟩ := readIpPacketFromFile_ends libc h fresh hends
    (show fifo.waiting.length < fuel+fifo.waiting.length+1 by omega)
  have hsame := (readIpPacketFromFile_mono libc fresh hle hread).symm.trans hlast
  obtain ⟨rfl,rfl⟩ := Prod.mk.inj (Option.some.inj hsame)
  exact ⟨rfl,hrest⟩

end

section

variable (libc : Libc) {schedule : Schedule} (h : Drained schedule) (fresh : ℕ → ℕ → Byte)

include h

/-- Where the reading of a packet does not end on a content, it never ends. -/
theorem Drained.readIpPacketFromFile_hangs (fuel : ℕ) {fifo : Fifo}
    (hnot : ¬PacketReadEnds libc fifo.waiting) :
    readIpPacketFromFile libc schedule fuel fresh fifo=none := by
  by_cases hten : 10 ≤ fifo.waiting.length
  · by_contra hreturned
    obtain ⟨result,hresult⟩ := Option.ne_none_iff_exists'.mp hreturned
    exact hnot (packetReadEnds_of_long libc h.steady fresh hten hresult)
  · have hsome : fifo.waiting≠[] := fun he => hnot (.inl he)
    have hnever := h.readEntireMessage_short 0 fuel (fun _ => 0) fifo
      (.inr (show fifo.waiting.length < 10 by omega))
    have hten' : ((10 : ℕ) : ℤ)=10 := rfl
    rw [if_neg (by simp [hsome]),hten'] at hnever
    rw [readIpPacketFromFile,hnever]

/-- A reading that returned is one that ends. -/
theorem Drained.of_readIpPacketFromFile {fuel : ℕ} {fifo : Fifo} {result : Option IPPacket × Fifo}
    (hread : readIpPacketFromFile libc schedule fuel fresh fifo=some result) :
    PacketReadEnds libc fifo.waiting := by
  by_contra hnot
  rw [h.readIpPacketFromFile_hangs libc fresh fuel hnot] at hread
  cases hread

variable {σ : Type*} (handle : σ → IPPacket → Bool × σ)

/-- The rounds of an epoch end where each reading does. -/
theorem Drained.handleRounds_ends {fuel : ℕ} (rounds : ℕ) (s : σ) {fifo : Fifo}
    (hends : EpochEnds libc handle rounds s fifo.waiting) (hfuel : fifo.waiting.length < fuel) :
    ∃ result,handleRounds libc schedule fuel fresh handle rounds s fifo=some result := by
  induction rounds generalizing s fifo with
  | zero => exact ⟨_,rfl⟩
  | succ rounds ih =>
    obtain ⟨hread,hlater⟩ := hends
    obtain ⟨next,hfirst,hrest⟩ := readIpPacketFromFile_ends libc h.steady fresh hread hfuel
    rw [handleRounds,hfirst]
    cases hnext : nextPacket libc fifo.waiting with
    | none => exact ⟨_,rfl⟩
    | some found =>
      obtain ⟨packet,rest⟩ := found
      simp only [Option.map_some]
      have hwaiting := hrest packet rest hnext
      split
      · rename_i hok
        have hle : next.waiting.length ≤ fifo.waiting.length := hwaiting ▸ nextPacket_rest hnext
        exact ih _ (hwaiting ▸ hlater packet rest hnext hok) (by omega)
      · exact ⟨_,rfl⟩

/-- Where they ended, each reading was one that ends. -/
theorem Drained.of_handleRounds {fuel : ℕ} (rounds : ℕ) (s : σ) {fifo : Fifo} {result : σ × Fifo}
    (hreturned : handleRounds libc schedule fuel fresh handle rounds s fifo=some result) :
    EpochEnds libc handle rounds s fifo.waiting := by
  induction rounds generalizing s fifo with
  | zero => trivial
  | succ rounds ih =>
    rw [handleRounds] at hreturned
    cases hread : readIpPacketFromFile libc schedule fuel fresh fifo with
    | none =>
      rw [hread] at hreturned
      cases hreturned
    | some first =>
      obtain ⟨found,next⟩ := first
      have hends := h.of_readIpPacketFromFile libc fresh hread
      obtain ⟨rfl,hrest⟩ := readIpPacketFromFile_next libc h.steady fresh hread
      refine ⟨hends,fun packet rest hnext hok => ?_⟩
      rw [hread,hnext] at hreturned
      simp only [Option.map_some,if_pos hok] at hreturned
      have hlater := ih _ hreturned
      rwa [hrest packet rest hnext] at hlater

/-- On a fifo whose writers have all closed, whatever it holds and however
short the reads are, the reading of a packet returns exactly if the fifo is
empty or the ten bytes of a header are there and announce no length, one for
which no buffer is had, one below ten, or one above ten that the content
reaches; and an epoch returns exactly if each of its readings does. -/
theorem reading_ends_iff (s : σ) (fifo : Fifo) :
    ((∃ fuel result,readIpPacketFromFile libc schedule fuel fresh fifo=some result) ↔
      PacketReadEnds libc fifo.waiting) ∧
    ((∃ fuel result,handleInPacketsFifo libc schedule fuel fresh handle s fifo=some result) ↔
      EpochEnds libc handle maxHandlesPerEpoch s fifo.waiting) := by
  have hfuel : fifo.waiting.length < fifo.waiting.length+1 := Nat.lt_succ_self _
  constructor
  · constructor
    · rintro ⟨fuel,⟨packet,next⟩,hread⟩
      exact h.of_readIpPacketFromFile libc fresh hread
    · intro hends
      obtain ⟨next,hread,_⟩ := readIpPacketFromFile_ends libc h.steady fresh hends hfuel
      exact ⟨_,_,hread⟩
  · constructor
    · rintro ⟨fuel,result,hreturned⟩
      exact h.of_handleRounds libc fresh handle maxHandlesPerEpoch s hreturned
    · intro hends
      obtain ⟨result,hreturned⟩ := h.handleRounds_ends libc fresh handle maxHandlesPerEpoch s hends
        hfuel
      exact ⟨_,result,hreturned⟩

end

/-- No writer is left; each read returns one byte at most. -/
def closedReads : Schedule := fun _ => ⟨[],0,false,false⟩

theorem closedReads_drained : Drained closedReads := ⟨fun _ => ⟨rfl,rfl⟩,fun _ => rfl⟩

/-- A header that announces fifty bytes, and nothing else. -/
theorem reading_ends_iff_header :
    ((∃ fuel result,readIpPacketFromFile zeroLibc closedReads fuel
        (fun _ _ => 0) ⟨text "0000000050",0⟩=some result) ↔
      PacketReadEnds zeroLibc (text "0000000050")) ∧
    ((∃ fuel result,handleInPacketsFifo zeroLibc closedReads fuel
        (fun _ _ => 0) collect [] ⟨text "0000000050",0⟩=some result) ↔
      EpochEnds zeroLibc collect maxHandlesPerEpoch []
        (text "0000000050")) :=
  reading_ends_iff _ closedReads_drained _ _ _ _

/-- A fifo that holds one byte, or a header that announces ten, is read for
ever. -/
theorem cut_header_hangs :
    (∀ fuel,readIpPacketFromFile zeroLibc closedReads fuel
      (fun _ _ => 0) ⟨text "0",0⟩=none) ∧
    (∀ fuel,readIpPacketFromFile zeroLibc closedReads fuel
      (fun _ _ => 0) ⟨text "0000000010",0⟩=none) ∧
    ∀ fuel,handleInPacketsFifo zeroLibc closedReads fuel
      (fun _ _ => 0) collect [] ⟨text "0000000010",0⟩=none := by
  have hten : ¬PacketReadEnds zeroLibc (text "0000000010") := by
    rintro (hempty|⟨_,hlengths⟩)
    · cases hempty
    · exact absurd (hlengths 10 (by decide)) (by decide)
  refine ⟨fun fuel => ?_,fun fuel => ?_,fun fuel => ?_⟩
  · refine closedReads_drained.readIpPacketFromFile_hangs _ _ fuel ?_
    rintro (hempty|⟨hlong,_⟩)
    · cases hempty
    · exact absurd hlong (by decide)
  · exact closedReads_drained.readIpPacketFromFile_hangs _ _ fuel hten
  · rw [handleInPacketsFifo,maxHandlesPerEpoch,handleRounds,
      closedReads_drained.readIpPacketFromFile_hangs _ _ fuel hten]

end NetworkLayer.ReadingEnds
