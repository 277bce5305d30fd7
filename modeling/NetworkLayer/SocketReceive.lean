import NetworkLayer.FifoReads
import NetworkLayer.UtilTypes

/-!
# The user's end of the stream

A user gets the bytes of the connection from its receive fifo, in which the
end of the connection is marked by one byte. A call takes the last byte of
what it read for this mark, wherever it comes from, and looks for it in front
of the buffer when it read nothing.
-/

namespace NetworkLayer.SocketReceive

open ByteStrings CellBlocks UtilTypes FifoReads

/-- `CONN_CLOSED`. -/
def connClosed : Byte := 1

/-- What a call of `SocketRecv` does. -/
structure Received where
  /-- The value that is returned, or none while the call still waits. -/
  result : Option ℤ
  /-- The call reports that the connection was closed on the other side. -/
  closed : Bool
  /-- The buffer afterwards. -/
  buf : ℕ → Byte
  /-- The places of the buffer that the call looks at. -/
  indexed : List ℤ

/-- The bytes that the call hands to its user. -/
def Received.bytes (received : Received) : List Byte :=
  loadBlock received.buf 0 (received.result.getD 0).toNat

/-- The cell at a place of the buffer, where the one in front of it holds the
given byte. -/
def cellAt (before : Byte) (buf : ℕ → Byte) (i : ℤ) : Byte := if i < 0 then before else buf i.toNat

/-- The loop of `SocketRecv` over what its successive calls of `read` return,
and what is left for later calls. A fifo that cannot be opened counts as a
failed read. -/
def recvLoop (before : Byte) : List ReadResult → (ℕ → Byte) → Received × List ReadResult
  | [],buf => (⟨none,false,buf,[]⟩,[])
  | .failed::rest,buf => (⟨some (-1),false,buf,[]⟩,rest)
  | .again::rest,buf => recvLoop before rest buf
  | .bytes data::rest,buf =>
    let stored := storeBlock buf 0 data
    let last : ℤ := data.length-1
    if cellAt before stored last=connClosed then (⟨some (-1),true,stored,[last]⟩,rest)
    else if data=[] then
      let others := recvLoop before rest stored
      ({others.1 with indexed := last::others.1.indexed},others.2)
    else (⟨some data.length,false,stored,[last]⟩,rest)

/-- `SocketRecv`. -/
def socketRecv (sockid : SocketID) (before : Byte) (bufferLen : ℤ) (reads : List ReadResult)
    (buf : ℕ → Byte) : Received × List ReadResult :=
  if bufferLen ≤ 0 then (⟨some (-1),false,buf,[]⟩,reads)
  else if isSocketConnected sockid=false then (⟨some (-1),false,buf,[]⟩,reads)
  else recvLoop before reads buf

/-- Successive calls, each with the length of its buffer. -/
def socketRecvs (sockid : SocketID) (before : Byte) :
    List ℤ → List ReadResult → (ℕ → Byte) → List Received
  | [],_,_ => []
  | bufferLen::rest,reads,buf =>
    let call := socketRecv sockid before bufferLen reads buf
    call.1::socketRecvs sockid before rest call.2 call.1.buf

/-- The bytes that reads return, in order. -/
def joined (reads : List ReadResult) : List Byte :=
  reads.flatMap fun r => match r with
    | .bytes data => data
    | _ => []

/-- What is written to the receive fifo: the bytes of the connection and, if
it is closed, the mark. -/
def written (data : List Byte) (marker : Bool) : List Byte :=
  data++if marker=true then [connClosed] else []

/-- The calls return the data in order. One that reports the connection as
closed comes behind all data and only if the mark was written, and no call
looks in front of the buffer. -/
structure StreamReturned (data : List Byte) (marker : Bool) (calls : List Received) : Prop where
  /-- Bytes are returned in order, and no others. -/
  ordered : calls.flatMap Received.bytes<+:data
  /-- The end is reported at the end. -/
  reported : ∀ earlier call later,calls=earlier++call::later → call.closed=true →
    marker=true ∧ earlier.flatMap Received.bytes=data
  /-- Only places of the buffer are looked at. -/
  inside : ∀ call∈calls,∀ i∈call.indexed,0 ≤ i

/-- No read returns 0 bytes, and none that brings data ends with the byte that
marks the end of the connection. -/
def CutClean : List Byte → List ReadResult → Prop
  | _,[] => True
  | data,.bytes chunk::rest =>
    (chunk≠[] ∧ (chunk.getLast?=some connClosed → data=[])) ∧
      CutClean (data.drop chunk.length) rest
  | data,_::rest => CutClean data rest

/-- The first call by itself, and the others on the data it leaves. -/
theorem streamReturned_cons {data : List Byte} {marker : Bool} {call : Received}
    {calls : List Received} : StreamReturned data marker (call::calls) ↔
      (∀ i∈call.indexed,0 ≤ i) ∧ (call.closed=true → marker=true ∧ data=[]) ∧
        ∃ rest,data=call.bytes++rest ∧ StreamReturned rest marker calls := by
  constructor
  · intro h
    obtain ⟨tail,htail⟩ := h.ordered
    rw [List.flatMap_cons,List.append_assoc] at htail
    refine ⟨h.inside call List.mem_cons_self,?_,_,htail.symm,⟨List.prefix_append _ _,?_,?_⟩⟩
    · intro hclosed
      obtain ⟨hmarker,hnone⟩ := h.reported [] call calls rfl hclosed
      exact ⟨hmarker,hnone.symm⟩
    · rintro earlier other later rfl hclosed
      obtain ⟨hmarker,hall⟩ := h.reported (call::earlier) other later rfl hclosed
      rw [List.flatMap_cons,←htail] at hall
      exact ⟨hmarker,List.append_cancel_left hall⟩
    · exact fun other hother => h.inside other (List.mem_cons_of_mem _ hother)
  · rintro ⟨hinside,hclosed,rest,rfl,h⟩
    refine ⟨?_,?_,?_⟩
    · rw [List.flatMap_cons]
      exact (List.prefix_append_right_inj _).mpr h.ordered
    · intro earlier other later hsplit hother
      cases earlier with
      | nil =>
        obtain ⟨rfl,rfl⟩ := List.cons.inj hsplit
        obtain ⟨hmarker,hnone⟩ := hclosed hother
        exact ⟨hmarker,hnone.symm⟩
      | cons first earlier =>
        obtain ⟨rfl,htail⟩ := List.cons.inj hsplit
        obtain ⟨hmarker,hall⟩ := h.reported earlier other later htail hother
        exact ⟨hmarker,by rw [List.flatMap_cons,hall]⟩
    · intro other hother
      rcases List.mem_cons.mp hother with rfl|hmem
      · exact hinside
      · exact h.inside other hmem

/-- No calls return nothing. -/
theorem streamReturned_nil (data : List Byte) (marker : Bool) : StreamReturned data marker [] where
  ordered := List.nil_prefix
  reported := by simp
  inside := by simp

/-- A call that hands nothing to its user and is no report of the end. -/
theorem streamReturned_cons_silent {data : List Byte} {marker : Bool} {call : Received}
    {calls : List Received} (hresult : (call.result.getD 0).toNat=0) (hclosed : call.closed=false)
    (hindexed : call.indexed=[]) :
    StreamReturned data marker (call::calls) ↔ StreamReturned data marker calls := by
  have hbytes : call.bytes=[] := by
    rw [Received.bytes,hresult]
    rfl
  rw [streamReturned_cons,hclosed,hindexed,hbytes]
  simp

/-- The last byte that was read is the one looked at. -/
theorem cellAt_last (before : Byte) (buf : ℕ → Byte) {data : List Byte} (hne : data≠[]) :
    data.getLast?=some (cellAt before (storeBlock buf 0 data) ((data.length : ℤ)-1)) := by
  have hlen : 0 < data.length := List.length_pos_iff.mpr hne
  have hload := congrArg (fun cells => cells[data.length-1]?) (loadBlock_storeBlock buf 0 data)
  have hindex : ((data.length : ℤ)-1).toNat=data.length-1 := by omega
  have hrange : data.length-1 < data.length := by omega
  rw [List.getLast?_eq_getElem?,cellAt,if_neg (by omega),hindex,←hload]
  simp [loadBlock,hrange]

/-- All that a call reads in one piece is handed to its user. -/
theorem bytes_stored (buf : ℕ → Byte) (data : List Byte) (indexed : List ℤ) :
    (⟨some data.length,false,storeBlock buf 0 data,indexed⟩ : Received).bytes=data :=
  loadBlock_storeBlock buf 0 data

/-- A piece of what was written that does not end with the mark is a piece of
the data. -/
theorem within_data {data chunk more : List Byte} {marker : Bool}
    (h : chunk++more<+:written data marker) (hlast : chunk.getLast?≠some connClosed) :
    ∃ rest,data=chunk++rest ∧ more<+:written rest marker := by
  have hchunk : chunk<+:data++if marker=true then [connClosed] else [] :=
    (List.prefix_append _ _).trans h
  have hdata : chunk<+:data := by
    by_cases hle : chunk.length ≤ data.length
    · exact List.prefix_of_prefix_length_le hchunk (List.prefix_append _ _) hle
    · obtain ⟨tail,htail⟩ := hchunk
      have hlen := congrArg List.length htail
      cases marker with
      | false =>
        simp at hlen
        omega
      | true =>
        simp at hlen
        have htail0 : tail=[] := List.length_eq_zero_iff.mp (by omega)
        rw [htail0,List.append_nil] at htail
        exact absurd (by simp [htail]) hlast
  obtain ⟨rest,rfl⟩ := hdata
  refine ⟨rest,rfl,?_⟩
  rw [written,List.append_assoc] at h
  exact (List.prefix_append_right_inj _).mp h

/-- Without data only the mark can be read. -/
theorem only_mark {chunk more : List Byte} {marker : Bool}
    (h : chunk++more<+:written [] marker) (hchunk : chunk≠[]) : marker=true ∧ more=[] := by
  obtain ⟨b,rest,rfl⟩ := List.exists_cons_of_ne_nil hchunk
  cases marker with
  | false => simp [written] at h
  | true =>
    have hlen := h.length_le
    simp [written] at hlen
    exact ⟨rfl,hlen.2⟩

/-- A call that reads nothing looks in front of the buffer. -/
theorem recvLoop_indexes_front (before : Byte) (reads : List ReadResult) (buf : ℕ → Byte) :
    -1∈(recvLoop before (.bytes []::reads) buf).1.indexed := by
  simp only [recvLoop]
  split
  · simp
  · simp

section

variable {sockid : SocketID} (hconnected : isSocketConnected sockid=true) (before : Byte)

include hconnected

/-- On a connected socket and with room in the buffer a call is its loop. -/
theorem socketRecvs_cons {bufferLen : ℤ} (hpos : 0 < bufferLen) (lens : List ℤ)
    (reads : List ReadResult) (buf : ℕ → Byte) :
    socketRecvs sockid before (bufferLen::lens) reads buf=
      (recvLoop before reads buf).1::
        socketRecvs sockid before lens (recvLoop before reads buf).2
          (recvLoop before reads buf).1.buf := by
  have hnot : ¬bufferLen ≤ 0 := by omega
  have hcall : socketRecv sockid before bufferLen reads buf=recvLoop before reads buf := by
    rw [socketRecv,if_neg hnot,if_neg (by simp [hconnected])]
  rw [socketRecvs,hcall]

/-- A call that ends with a failed read leaves the stream to the next one. -/
theorem streamReturned_failed {data : List Byte} {marker : Bool} {bufferLen : ℤ}
    (hpos : 0 < bufferLen) (lens : List ℤ) (reads : List ReadResult) (buf : ℕ → Byte) :
    StreamReturned data marker
        (socketRecvs sockid before (bufferLen::lens) (.failed::reads) buf) ↔
      StreamReturned data marker (socketRecvs sockid before lens reads buf) := by
  rw [socketRecvs_cons hconnected before hpos]
  exact streamReturned_cons_silent rfl rfl rfl

/-- One that reads a piece with the mark at its end reports the end. -/
theorem streamReturned_marked {data chunk : List Byte} {marker : Bool} {bufferLen : ℤ}
    (hpos : 0 < bufferLen) (hmark : chunk.getLast?=some connClosed) (lens : List ℤ)
    (reads : List ReadResult) (buf : ℕ → Byte) :
    StreamReturned data marker
        (socketRecvs sockid before (bufferLen::lens) (.bytes chunk::reads) buf) ↔
      marker=true ∧ data=[] ∧
        StreamReturned [] marker (socketRecvs sockid before lens reads (storeBlock buf 0 chunk)) := by
  have hchunk : chunk≠[] := by
    rintro rfl
    cases hmark
  have hlen : 0 < chunk.length := List.length_pos_iff.mpr hchunk
  have hclosed : cellAt before (storeBlock buf 0 chunk) ((chunk.length : ℤ)-1)=connClosed :=
    Option.some.inj ((cellAt_last before buf hchunk).symm.trans hmark)
  have hbytes : (⟨some (-1),true,storeBlock buf 0 chunk,[(chunk.length : ℤ)-1]⟩ :
      Received).bytes=[] := rfl
  rw [socketRecvs_cons hconnected before hpos]
  simp only [recvLoop,if_pos hclosed]
  rw [streamReturned_cons,hbytes]
  constructor
  · rintro ⟨_,hreport,rest,hrest,h⟩
    obtain ⟨hmarker,rfl⟩ := hreport rfl
    rw [List.nil_append] at hrest
    exact ⟨hmarker,rfl,hrest ▸ h⟩
  · rintro ⟨hmarker,rfl,h⟩
    refine ⟨?_,fun _ => ⟨hmarker,rfl⟩,[],rfl,h⟩
    intro i hi
    rw [List.mem_singleton] at hi
    omega

/-- One that reads any other piece hands it to its user. -/
theorem streamReturned_unmarked {data chunk : List Byte} {marker : Bool} {bufferLen : ℤ}
    (hpos : 0 < bufferLen) (hchunk : chunk≠[]) (hmark : chunk.getLast?≠some connClosed)
    (lens : List ℤ) (reads : List ReadResult) (buf : ℕ → Byte) :
    StreamReturned data marker
        (socketRecvs sockid before (bufferLen::lens) (.bytes chunk::reads) buf) ↔
      ∃ rest,data=chunk++rest ∧ StreamReturned rest marker
        (socketRecvs sockid before lens reads (storeBlock buf 0 chunk)) := by
  have hlen : 0 < chunk.length := List.length_pos_iff.mpr hchunk
  have hopen : cellAt before (storeBlock buf 0 chunk) ((chunk.length : ℤ)-1)≠connClosed :=
    fun he => hmark ((cellAt_last before buf hchunk).trans (congrArg some he))
  rw [socketRecvs_cons hconnected before hpos]
  simp only [recvLoop,if_neg hopen,if_neg hchunk]
  rw [streamReturned_cons,bytes_stored]
  constructor
  · rintro ⟨_,_,hrest⟩
    exact hrest
  · intro hrest
    refine ⟨?_,Bool.noConfusion,hrest⟩
    intro i hi
    rw [List.mem_singleton] at hi
    omega

/-- While the reads are clean, the calls return the stream. -/
theorem streamReturned_of_clean {data : List Byte} {marker : Bool} {reads : List ReadResult}
    (hcut : joined reads<+:written data marker) (hclean : CutClean data reads)
    {lens : List ℤ} (hpos : ∀ bufferLen∈lens,0 < bufferLen) (buf : ℕ → Byte) :
    StreamReturned data marker (socketRecvs sockid before lens reads buf) := by
  induction reads generalizing data lens buf with
  | nil =>
    induction lens generalizing buf with
    | nil => exact streamReturned_nil data marker
    | cons bufferLen lens ih =>
      rw [socketRecvs_cons hconnected before (hpos _ List.mem_cons_self)]
      exact (streamReturned_cons_silent rfl rfl rfl).mpr
        (ih (fun other hother => hpos other (List.mem_cons_of_mem _ hother)) _)
  | cons r reads ih =>
    cases lens with
    | nil => exact streamReturned_nil data marker
    | cons bufferLen lens =>
      have hfirst := hpos _ List.mem_cons_self
      have hothers : ∀ other∈lens,0 < other :=
        fun other hother => hpos other (List.mem_cons_of_mem _ hother)
      cases r with
      | failed =>
        rw [streamReturned_failed hconnected before hfirst]
        exact ih hcut hclean hothers buf
      | again =>
        have hsame := ih hcut hclean hpos buf
        rw [socketRecvs_cons hconnected before hfirst] at hsame ⊢
        exact hsame
      | bytes chunk =>
        obtain ⟨⟨hchunk,hmark⟩,hrest⟩ := hclean
        have hcut' : chunk++joined reads<+:written data marker := hcut
        by_cases hlast : chunk.getLast?=some connClosed
        · obtain rfl : data=[] := hmark hlast
          obtain ⟨rfl,hend⟩ := only_mark hcut' hchunk
          rw [List.drop_nil] at hrest
          exact (streamReturned_marked hconnected before hfirst hlast lens reads buf).mpr
            ⟨rfl,rfl,ih (hend ▸ List.nil_prefix) hrest hothers _⟩
        · obtain ⟨rest,rfl,hmore⟩ := within_data hcut' hlast
          rw [List.drop_left] at hrest
          exact (streamReturned_unmarked hconnected before hfirst hchunk hlast lens reads buf).mpr
            ⟨rest,rfl,ih hmore hrest hothers _⟩

/-- Where the calls return the stream, however many there are, the reads are
clean. -/
theorem clean_of_streamReturned {data : List Byte} {marker : Bool} {reads : List ReadResult}
    {buf : ℕ → Byte} (h : ∀ lens : List ℤ,(∀ bufferLen∈lens,0 < bufferLen) →
      StreamReturned data marker (socketRecvs sockid before lens reads buf)) :
    CutClean data reads := by
  have hone : (0 : ℤ) < 1 := by decide
  have hcons : ∀ lens : List ℤ,(∀ bufferLen∈lens,0 < bufferLen) → ∀ bufferLen∈1::lens,
      0 < bufferLen := by
    intro lens hpos bufferLen hmem
    rcases List.mem_cons.mp hmem with rfl|hmem
    · exact hone
    · exact hpos bufferLen hmem
  induction reads generalizing data buf with
  | nil => trivial
  | cons r reads ih =>
    cases r with
    | failed =>
      refine @ih _ buf fun lens hpos => ?_
      exact (streamReturned_failed hconnected before hone lens reads buf).mp
        (h (1::lens) (hcons lens hpos))
    | again =>
      refine @ih _ buf fun lens hpos => ?_
      cases lens with
      | nil => exact streamReturned_nil data marker
      | cons bufferLen lens =>
        have hsame := h (bufferLen::lens) hpos
        rw [socketRecvs_cons hconnected before (hpos _ List.mem_cons_self)] at hsame ⊢
        exact hsame
    | bytes chunk =>
      by_cases hchunk : chunk=[]
      · subst hchunk
        have hreturned := h [1] (hcons [] (by simp))
        rw [socketRecvs_cons hconnected before hone] at hreturned
        have hinside := (streamReturned_cons.mp hreturned).1 _
          (recvLoop_indexes_front before reads buf)
        exact absurd hinside (by decide)
      by_cases hlast : chunk.getLast?=some connClosed
      · have hreturned : ∀ lens : List ℤ,(∀ bufferLen∈lens,0 < bufferLen) → _ :=
          fun lens hpos => (streamReturned_marked hconnected before hone hlast lens reads buf).mp
            (h (1::lens) (hcons lens hpos))
        obtain rfl : data=[] := (hreturned [] (by simp)).2.1
        refine ⟨⟨hchunk,fun _ => rfl⟩,?_⟩
        rw [List.drop_nil]
        exact ih fun lens hpos => (hreturned lens hpos).2.2
      · have hreturned : ∀ lens : List ℤ,(∀ bufferLen∈lens,0 < bufferLen) → _ :=
          fun lens hpos => (streamReturned_unmarked hconnected before hone hchunk hlast lens reads
            buf).mp (h (1::lens) (hcons lens hpos))
        obtain ⟨rest,rfl,_⟩ := hreturned [] (by simp)
        refine ⟨⟨hchunk,fun hmark => absurd hmark hlast⟩,?_⟩
        rw [List.drop_left]
        refine @ih _ (storeBlock buf 0 chunk) fun lens hpos => ?_
        obtain ⟨other,hother,hrest⟩ := hreturned lens hpos
        rwa [List.append_cancel_left hother]

/-- Successive calls on a connected socket return the stream that is cut into
the reads, however many calls there are, exactly if no read returns 0 bytes
and none that brings data ends with the byte that marks the end. -/
theorem stream_returned_iff {data : List Byte} {marker : Bool} {reads : List ReadResult}
    (hcut : joined reads<+:written data marker) (buf : ℕ → Byte) :
    (∀ lens : List ℤ,(∀ bufferLen∈lens,0 < bufferLen) →
      StreamReturned data marker (socketRecvs sockid before lens reads buf)) ↔
    CutClean data reads :=
  ⟨clean_of_streamReturned hconnected before,fun hclean _ hpos =>
    streamReturned_of_clean hconnected before hcut hclean hpos buf⟩

end

/-- The identity of a connected socket. -/
def connectedId : SocketID :=
  ⟨5000,6000,onesIp,onesIp⟩

/-- Two bytes come in two reads, and the mark by itself. -/
theorem stream_returned_iff_marked :
    (∀ lens : List ℤ,(∀ bufferLen∈lens,0 < bufferLen) →
      StreamReturned [97,98] true (socketRecvs connectedId 0 lens
        [.bytes [97],.again,.bytes [98],.bytes [1]] fun _ => 0)) ↔
    CutClean [97,98] [.bytes [97],.again,.bytes [98],.bytes [1]] :=
  stream_returned_iff (by decide) 0 ⟨[],by decide⟩ _

/-- The one byte that was sent has the value of the mark: the call that reads
it returns no byte and reports the end, which was not written. -/
theorem data_taken_for_mark :
    let calls := socketRecvs connectedId 0 [10] [.bytes [1]] fun _ => 0
    calls.map Received.closed=[true] ∧ calls.flatMap Received.bytes=[] ∧
      ¬StreamReturned [1] false calls := by
  refine ⟨by decide,by decide,fun h => ?_⟩
  have hreported := (h.reported [] _ [] rfl (by decide)).1
  cases hreported

end NetworkLayer.SocketReceive
