import NetworkLayer.ByteStrings
import NetworkLayer.CellBlocks

/-!
# Reading messages from a fifo

`read` on a nonblocking fifo returns some of the bytes that are there. What
it does at each call is told by a schedule: how many bytes it returns, what
arrived before it, whether a writer is left and whether the call fails. The
reading loops of the source may wait for ever; they run on fuel here, and
none means that the fuel did not suffice.
-/

namespace NetworkLayer.FifoReads

open ByteStrings CellBlocks

/-- What the world does up to and at one call of `read`. -/
structure ReadTurn where
  /-- Bytes written to the fifo since the previous call. -/
  arrived : List Byte
  /-- The call returns at most this many bytes and one more. -/
  limit : ℕ
  /-- Whether some writer has the fifo open. -/
  writers : Bool
  /-- Whether the call fails with an error other than `EAGAIN`. -/
  error : Bool

/-- What each call of `read` meets, in order. -/
abbrev Schedule := ℕ → ReadTurn

/-- A fifo: the bytes in it and the number of reads so far. -/
structure Fifo where
  /-- Bytes that were written and not yet read. -/
  waiting : List Byte
  /-- Calls of `read` so far. -/
  reads : ℕ

/-- Outcome of one call of `read`. -/
inductive ReadResult
  /-- The bytes returned; none of them is the result 0. -/
  | bytes (data : List Byte)
  /-- -1 with `EAGAIN`. -/
  | again
  /-- -1 with any other error. -/
  | failed

variable (schedule : Schedule)

/-- `read` of at most `len` bytes. -/
def read (fifo : Fifo) (len : ℕ) : ReadResult × Fifo :=
  let turn := schedule fifo.reads
  let present := fifo.waiting++turn.arrived
  if turn.error=true then (.failed,⟨present,fifo.reads+1⟩)
  else if len=0 then (.bytes [],⟨present,fifo.reads+1⟩)
  else if present=[] then
    (if turn.writers=true then .again else .bytes [],⟨present,fifo.reads+1⟩)
  else
    let count := min (turn.limit+1) len
    (.bytes (present.take count),⟨present.drop count,fifo.reads+1⟩)

/-- What a reading function returns: its result, the buffer and the fifo. -/
structure Reading where
  /-- The `int` returned. -/
  result : ℤ
  /-- The buffer afterwards. -/
  buf : ℕ → Byte
  /-- The fifo afterwards. -/
  fifo : Fifo

/-- The loop of `read_entire_message` that completes a message of `len` bytes
at the place `start` of the buffer. -/
def readRest (start len : ℕ) : ℕ → ℕ → (ℕ → Byte) → Fifo → Option Reading
  | _,0,buf,fifo => some ⟨len,buf,fifo⟩
  | 0,_+1,_,_ => none
  | fuel+1,bytesLeft+1,buf,fifo =>
    match read schedule fifo (bytesLeft+1) with
    | (.again,next) => some ⟨0,buf,next⟩
    | (.failed,next) => some ⟨-1,buf,next⟩
    | (.bytes data,next) =>
      readRest start len fuel (bytesLeft+1-data.length)
        (storeBlock buf (start+len-(bytesLeft+1)) data) next

/-- `read_entire_message` into the place `start` of a buffer. -/
def readEntireMessage (fuel start : ℕ) (len : ℤ) (buf : ℕ → Byte) (fifo : Fifo) :
    Option Reading :=
  if len < 0 then some ⟨-1,buf,fifo⟩
  else match read schedule fifo len.toNat with
    | (.bytes [],next) => some ⟨0,buf,next⟩
    | (.again,next) => some ⟨0,buf,next⟩
    | (.failed,next) => some ⟨-1,buf,next⟩
    | (.bytes data,next) =>
      readRest schedule start len.toNat fuel (len.toNat-data.length) (storeBlock buf start data)
        next

/-- `read_nonzero_entire_message`: again and again while the result is 0. -/
def readNonzeroEntireMessage (start : ℕ) (len : ℤ) : ℕ → (ℕ → Byte) → Fifo → Option Reading
  | 0,_,_ => none
  | fuel+1,buf,fifo =>
    match readEntireMessage schedule fuel start len buf fifo with
    | none => none
    | some reading =>
      if reading.result=0 then readNonzeroEntireMessage start len fuel reading.buf reading.fifo
      else some reading

/-- More fuel changes nothing once the loop has ended. -/
theorem readRest_mono {start len fuel more bytesLeft : ℕ} {buf : ℕ → Byte} {fifo : Fifo}
    {reading : Reading} (hle : fuel ≤ more)
    (h : readRest schedule start len fuel bytesLeft buf fifo=some reading) :
    readRest schedule start len more bytesLeft buf fifo=some reading := by
  induction fuel generalizing more bytesLeft buf fifo with
  | zero =>
    cases bytesLeft with
    | zero => simpa only [readRest] using h
    | succ left => cases h
  | succ fuel ih =>
    obtain ⟨more,rfl⟩ : ∃ k,more=k+1 := ⟨more-1,by omega⟩
    cases bytesLeft with
    | zero => simpa only [readRest] using h
    | succ left =>
      rw [readRest] at h ⊢
      rcases hread : read schedule fifo (left+1) with ⟨result,next⟩
      rw [hread] at h
      cases result with
      | again => exact h
      | failed => exact h
      | bytes data => exact ih (Nat.le_of_succ_le_succ hle) h

/-- Nor once the reading has. -/
theorem readEntireMessage_mono {start fuel more : ℕ} {len : ℤ} {buf : ℕ → Byte} {fifo : Fifo}
    {reading : Reading} (hle : fuel ≤ more)
    (h : readEntireMessage schedule fuel start len buf fifo=some reading) :
    readEntireMessage schedule more start len buf fifo=some reading := by
  rw [readEntireMessage] at h ⊢
  split at h
  · rename_i hneg
    rwa [if_pos hneg]
  · rename_i hneg
    rw [if_neg hneg]
    rcases hread : read schedule fifo len.toNat with ⟨result,next⟩
    rw [hread] at h
    cases result with
    | again => exact h
    | failed => exact h
    | bytes data =>
      cases data with
      | nil => exact h
      | cons b data => exact readRest_mono schedule hle h

/-- Nor once a reading that retries has. -/
theorem readNonzeroEntireMessage_mono {start fuel more : ℕ} {len : ℤ} {buf : ℕ → Byte}
    {fifo : Fifo} {reading : Reading} (hle : fuel ≤ more)
    (h : readNonzeroEntireMessage schedule start len fuel buf fifo=some reading) :
    readNonzeroEntireMessage schedule start len more buf fifo=some reading := by
  induction fuel generalizing more buf fifo with
  | zero => cases h
  | succ fuel ih =>
    obtain ⟨more,rfl⟩ : ∃ k,more=k+1 := ⟨more-1,by omega⟩
    have hle' : fuel ≤ more := Nat.le_of_succ_le_succ hle
    rw [readNonzeroEntireMessage] at h ⊢
    cases hfirst : readEntireMessage schedule fuel start len buf fifo with
    | none =>
      rw [hfirst] at h
      cases h
    | some first =>
      rw [hfirst] at h
      rw [readEntireMessage_mono schedule hle' hfirst]
      simp only at h ⊢
      split at h
      · rename_i hzero
        rw [if_pos hzero]
        exact ih hle' h
      · rename_i hzero
        rwa [if_neg hzero]

/-- A message of negative length is not read. -/
theorem readNonzeroEntireMessage_negative {schedule : Schedule} {start fuel : ℕ} {len : ℤ}
    (hlen : len < 0) {buf : ℕ → Byte} {fifo : Fifo} {reading : Reading}
    (h : readNonzeroEntireMessage schedule start len fuel buf fifo=some reading) :
    reading.result=-1 := by
  cases fuel with
  | zero => cases h
  | succ fuel =>
    rw [readNonzeroEntireMessage,readEntireMessage,if_pos hlen] at h
    have hne : ¬(-1 : ℤ)=0 := by decide
    simp only [if_neg hne] at h
    obtain rfl := Option.some.inj h
    rfl

/-- No read returns more than it was asked for. -/
theorem read_length_le {schedule : Schedule} {fifo next : Fifo} {len : ℕ} {data : List Byte}
    (h : read schedule fifo len=(.bytes data,next)) : data.length ≤ len := by
  unfold read at h
  simp only at h
  split at h
  · cases h
  split at h
  · obtain ⟨hdata,-⟩ := Prod.mk.inj h
    cases hdata
    exact Nat.zero_le len
  split at h
  · split at h
    · cases h
    · obtain ⟨hdata,-⟩ := Prod.mk.inj h
      cases hdata
      exact Nat.zero_le len
  · obtain ⟨hdata,-⟩ := Prod.mk.inj h
    cases hdata
    rw [List.length_take]
    omega

/-- The loop leaves what is behind the message alone. -/
theorem readRest_frame {schedule : Schedule} {start len fuel bytesLeft i : ℕ}
    (hle : bytesLeft ≤ len) (hi : start+len ≤ i) {buf : ℕ → Byte} {fifo : Fifo}
    {reading : Reading} (h : readRest schedule start len fuel bytesLeft buf fifo=some reading) :
    reading.buf i=buf i := by
  induction fuel generalizing bytesLeft buf fifo with
  | zero =>
    cases bytesLeft with
    | zero =>
      obtain rfl := Option.some.inj h
      rfl
    | succ left => cases h
  | succ fuel ih =>
    cases bytesLeft with
    | zero =>
      obtain rfl := Option.some.inj h
      rfl
    | succ left =>
      rw [readRest] at h
      rcases hread : read schedule fifo (left+1) with ⟨result,next⟩
      rw [hread] at h
      cases result with
      | again =>
        obtain rfl := Option.some.inj h
        rfl
      | failed =>
        obtain rfl := Option.some.inj h
        rfl
      | bytes data =>
        have hdata := read_length_le hread
        rw [ih (by omega) h,storeBlock_apply_outside _ (.inr (by omega))]

/-- So does the reading of a message. -/
theorem readEntireMessage_frame {schedule : Schedule} {fuel start i : ℕ} {len : ℤ}
    (hi : start+len ≤ i) {buf : ℕ → Byte} {fifo : Fifo} {reading : Reading}
    (h : readEntireMessage schedule fuel start len buf fifo=some reading) :
    reading.buf i=buf i := by
  rw [readEntireMessage] at h
  split at h
  · obtain rfl := Option.some.inj h
    rfl
  rcases hread : read schedule fifo len.toNat with ⟨result,next⟩
  rw [hread] at h
  cases result with
  | again =>
    obtain rfl := Option.some.inj h
    rfl
  | failed =>
    obtain rfl := Option.some.inj h
    rfl
  | bytes data =>
    have hdata := read_length_le hread
    cases data with
    | nil =>
      obtain rfl := Option.some.inj h
      rfl
    | cons b data =>
      rw [readRest_frame (Nat.sub_le _ _) (by omega) h,
        storeBlock_apply_outside _ (.inr (by omega))]

/-- A schedule under which reads only shorten: nothing more arrives and no
call fails. -/
def Steady (schedule : Schedule) : Prop :=
  ∀ t,(schedule t).arrived=[] ∧ (schedule t).error=false

variable {schedule}

/-- Under a steady schedule a read returns some first bytes of what is there,
at least one and at most the length asked for. -/
theorem Steady.read_spec {fifo : Fifo} (h : Steady schedule) {len : ℕ} (hlen : 0 < len)
    (hw : fifo.waiting≠[]) : ∃ k,0 < k ∧ k ≤ len ∧
      read schedule fifo len=(.bytes (fifo.waiting.take k),⟨fifo.waiting.drop k,fifo.reads+1⟩) := by
  obtain ⟨harrived,herror⟩ := h fifo.reads
  refine ⟨min ((schedule fifo.reads).limit+1) len,by omega,by omega,?_⟩
  have hlen' : ¬len=0 := by omega
  simp only [read,harrived,herror,List.append_nil,Bool.false_eq_true,if_false,
    if_neg hlen',if_neg hw]

/-- Of a message that is there a read returns a first part, and the fifo keeps
the rest. -/
theorem Steady.read_part (h : Steady schedule) {data rest : List Byte} (hdata : data≠[])
    {fifo : Fifo} (hw : fifo.waiting=data++rest) :
    ∃ first more,first≠[] ∧ data=first++more ∧
      read schedule fifo data.length=(.bytes first,⟨more++rest,fifo.reads+1⟩) := by
  have hpos : 0 < data.length := List.length_pos_iff.mpr hdata
  have hne : fifo.waiting≠[] := fun he => hdata (List.append_eq_nil_iff.mp (hw.symm.trans he)).1
  obtain ⟨k,hk,hkl,hread⟩ := h.read_spec hpos hne
  refine ⟨data.take k,data.drop k,?_,(List.take_append_drop k data).symm,?_⟩
  · rw [←List.length_pos_iff,List.length_take]
    omega
  · rw [hread,hw,List.take_append_of_le_length hkl,List.drop_append_of_le_length hkl]

/-- The loop completes the message from the bytes that are there, however
short the reads are. -/
theorem Steady.readRest_spec (h : Steady schedule) (start len fuel : ℕ) {bytesLeft : ℕ}
    {data rest : List Byte} (buf : ℕ → Byte) {fifo : Fifo} (hw : fifo.waiting=data++rest)
    (hdata : data.length=bytesLeft) (hfuel : bytesLeft ≤ fuel) (hlen : bytesLeft ≤ len) :
    ∃ reads,readRest schedule start len fuel bytesLeft buf fifo=
      some ⟨len,storeBlock buf (start+len-bytesLeft) data,⟨rest,reads⟩⟩ := by
  induction fuel generalizing bytesLeft data buf fifo with
  | zero =>
    obtain rfl : bytesLeft=0 := by omega
    obtain rfl : data=[] := List.length_eq_zero_iff.mp hdata
    obtain ⟨waiting,reads⟩ := fifo
    obtain rfl : waiting=rest := hw
    exact ⟨reads,rfl⟩
  | succ fuel ih =>
    cases bytesLeft with
    | zero =>
      obtain rfl : data=[] := List.length_eq_zero_iff.mp hdata
      obtain ⟨waiting,reads⟩ := fifo
      obtain rfl : waiting=rest := hw
      exact ⟨reads,rfl⟩
    | succ left =>
      have hne : data≠[] := List.ne_nil_of_length_eq_add_one hdata
      obtain ⟨first,more,hfirst,rfl,hread⟩ := h.read_part hne hw
      rw [List.length_append] at hdata
      have hpos : 0 < first.length := List.length_pos_iff.mpr hfirst
      have hnext : (⟨more++rest,fifo.reads+1⟩ : Fifo).waiting=more++rest := rfl
      have hmore : more.length=left+1-first.length := by omega
      obtain ⟨reads,hrest⟩ := ih (storeBlock buf (start+len-(left+1)) first) hnext hmore (by omega)
        (by omega)
      have hplace : start+len-(left+1-first.length)=start+len-(left+1)+first.length := by omega
      rw [List.length_append,hdata] at hread
      refine ⟨reads,?_⟩
      rw [readRest,hread]
      simp only
      rw [hrest,hplace,←storeBlock_append]

/-- A message whose bytes are there is read in full, and nothing more. -/
theorem Steady.readEntireMessage_spec (h : Steady schedule) (start fuel : ℕ)
    {data rest : List Byte} (buf : ℕ → Byte) {fifo : Fifo} (hw : fifo.waiting=data++rest)
    (hpos : 0 < data.length) (hfuel : data.length ≤ fuel) :
    ∃ reads,readEntireMessage schedule fuel start data.length buf fifo=
      some ⟨data.length,storeBlock buf start data,⟨rest,reads⟩⟩ := by
  obtain ⟨first,more,hfirst,hparts,hread⟩ := h.read_part (List.length_pos_iff.mp hpos) hw
  have hlen : data.length=first.length+more.length := by rw [hparts,List.length_append]
  have hnext : (⟨more++rest,fifo.reads+1⟩ : Fifo).waiting=more++rest := rfl
  have hmore : more.length=data.length-first.length := by omega
  obtain ⟨reads,hrest⟩ := h.readRest_spec start data.length fuel (storeBlock buf start first)
    hnext hmore (by omega) (by omega)
  have hplace : start+data.length-(data.length-first.length)=start+first.length := by omega
  have hnonneg : ¬((data.length : ℤ) < 0) := by omega
  refine ⟨reads,?_⟩
  rw [readEntireMessage,if_neg hnonneg,Int.toNat_natCast,hread]
  cases first with
  | nil => exact absurd rfl hfirst
  | cons b tail =>
    simp only
    rw [hrest,hplace,←storeBlock_append,←hparts]

/-- Whenever the reading of such a message returned, it has done so: more fuel
gives the same. -/
theorem Steady.readEntireMessage_long (h : Steady schedule) {start fuel len : ℕ}
    {buf : ℕ → Byte} {fifo : Fifo} {reading : Reading} (hpos : 0 < len)
    (hlen : len ≤ fifo.waiting.length)
    (hread : readEntireMessage schedule fuel start len buf fifo=some reading) :
    reading.result=len ∧ loadBlock reading.buf start len=fifo.waiting.take len := by
  have hdata : (fifo.waiting.take len).length=len := List.length_take_of_le hlen
  have hmore := readEntireMessage_mono schedule (Nat.le_add_right fuel len) hread
  obtain ⟨reads,hspec⟩ := h.readEntireMessage_spec start (fuel+len) buf
    (List.take_append_drop len fifo.waiting).symm (by omega) (by omega)
  rw [hdata,hmore] at hspec
  obtain rfl := Option.some.inj hspec
  have hload := loadBlock_storeBlock buf start (fifo.waiting.take len)
  rw [hdata] at hload
  exact ⟨rfl,hload⟩

/-- A nonzero message is not waited for a second time. -/
theorem Steady.readNonzeroEntireMessage_spec (h : Steady schedule) (start fuel : ℕ)
    {data rest : List Byte} (buf : ℕ → Byte) {fifo : Fifo} (hw : fifo.waiting=data++rest)
    (hpos : 0 < data.length) (hfuel : data.length < fuel) :
    ∃ reads,readNonzeroEntireMessage schedule start data.length fuel buf fifo=
      some ⟨data.length,storeBlock buf start data,⟨rest,reads⟩⟩ := by
  obtain ⟨more,rfl⟩ : ∃ more,fuel=more+1 := ⟨fuel-1,by omega⟩
  obtain ⟨reads,hread⟩ := h.readEntireMessage_spec start more buf hw hpos (Nat.lt_succ_iff.mp hfuel)
  have hne : ¬((data.length : ℤ)=0) := by omega
  exact ⟨reads,by simp only [readNonzeroEntireMessage,hread,if_neg hne]⟩

/-- On an empty fifo a message is not there, whether or not a writer is. -/
theorem Steady.readEntireMessage_empty (h : Steady schedule) (start fuel : ℕ) {len : ℕ}
    (hpos : 0 < len) (buf : ℕ → Byte) {fifo : Fifo} (hw : fifo.waiting=[]) :
    readEntireMessage schedule fuel start len buf fifo=
      some ⟨0,buf,⟨[],fifo.reads+1⟩⟩ := by
  obtain ⟨harrived,herror⟩ := h fifo.reads
  have hnonneg : ¬((len : ℤ) < 0) := by omega
  have hlen : ¬len=0 := by omega
  rw [readEntireMessage,if_neg hnonneg,Int.toNat_natCast]
  simp only [read,harrived,herror,hw,List.append_nil,Bool.false_eq_true,if_false,
    if_neg hlen,if_true]
  cases (schedule fifo.reads).writers with
  | true => rfl
  | false => rfl

/-- Under a steady schedule a read returns some first bytes of what is there,
or nothing for now. -/
theorem Steady.read_cases (h : Steady schedule) (fifo : Fifo) (len : ℕ) :
    read schedule fifo len=(.again,⟨fifo.waiting,fifo.reads+1⟩) ∨
      ∃ data rest,read schedule fifo len=(.bytes data,⟨rest,fifo.reads+1⟩) ∧
        fifo.waiting=data++rest ∧ data.length ≤ len := by
  obtain ⟨harrived,herror⟩ := h fifo.reads
  rcases Nat.eq_zero_or_pos len with rfl|hlen
  · refine Or.inr ⟨[],fifo.waiting,?_,rfl,le_rfl⟩
    simp only [read,harrived,herror,List.append_nil,Bool.false_eq_true,if_false,if_true]
  by_cases hwaiting : fifo.waiting=[]
  · have hne : ¬len=0 := by omega
    simp only [read,harrived,herror,hwaiting,List.append_nil,Bool.false_eq_true,if_false,
      if_neg hne,if_true]
    cases (schedule fifo.reads).writers with
    | true => exact Or.inl rfl
    | false => exact Or.inr ⟨[],[],rfl,rfl,Nat.zero_le len⟩
  · obtain ⟨k,hk,hkl,hread⟩ := h.read_spec hlen hwaiting
    refine Or.inr ⟨_,_,hread,(List.take_append_drop k _).symm,?_⟩
    rw [List.length_take]
    omega

/-- A loop whose message is cut off returns 0, if it returns. -/
theorem Steady.readRest_short (h : Steady schedule) {start len fuel bytesLeft : ℕ}
    {buf : ℕ → Byte} {fifo : Fifo} {reading : Reading} (hshort : fifo.waiting.length < bytesLeft)
    (hread : readRest schedule start len fuel bytesLeft buf fifo=some reading) :
    reading.result=0 ∧ reading.fifo.waiting.length ≤ fifo.waiting.length := by
  obtain ⟨left,rfl⟩ : ∃ left,bytesLeft=left+1 := ⟨bytesLeft-1,by omega⟩
  induction fuel generalizing left buf fifo with
  | zero => cases hread
  | succ fuel ih =>
    rw [readRest] at hread
    rcases h.read_cases fifo (left+1) with hagain|⟨data,rest,hdata,hwaiting,hle⟩
    · rw [hagain] at hread
      obtain rfl := Option.some.inj hread
      exact ⟨rfl,le_rfl⟩
    · rw [hdata] at hread
      have hlen := congrArg List.length hwaiting
      rw [List.length_append] at hlen
      obtain ⟨more,hmore⟩ : ∃ more,left+1-data.length=more+1 := ⟨left-data.length,by omega⟩
      simp only [hmore] at hread
      obtain ⟨hresult,hrest⟩ := ih more (by simp only; omega) hread
      exact ⟨hresult,hrest.trans (by simp only; omega)⟩

/-- So does the reading of such a message, or of one without bytes. -/
theorem Steady.readEntireMessage_short (h : Steady schedule) {start fuel len : ℕ}
    {buf : ℕ → Byte} {fifo : Fifo} {reading : Reading}
    (hshort : len=0 ∨ fifo.waiting.length < len)
    (hread : readEntireMessage schedule fuel start len buf fifo=some reading) :
    reading.result=0 ∧ reading.fifo.waiting.length ≤ fifo.waiting.length := by
  have hnonneg : ¬((len : ℤ) < 0) := by omega
  rw [readEntireMessage,if_neg hnonneg,Int.toNat_natCast] at hread
  rcases h.read_cases fifo len with hagain|⟨data,rest,hdata,hwaiting,hle⟩
  · rw [hagain] at hread
    obtain rfl := Option.some.inj hread
    exact ⟨rfl,le_rfl⟩
  · rw [hdata] at hread
    have hlen := congrArg List.length hwaiting
    rw [List.length_append] at hlen
    cases data with
    | nil =>
      obtain rfl := Option.some.inj hread
      exact ⟨rfl,by simp only; omega⟩
    | cons b tail =>
      rw [List.length_cons] at hlen hle
      obtain ⟨hresult,hrest⟩ := h.readRest_short (by simp only [List.length_cons]; omega) hread
      exact ⟨hresult,hrest.trans (by simp only; omega)⟩

/-- Whoever retries on 0 never returns from it. -/
theorem Steady.readNonzeroEntireMessage_short (h : Steady schedule) (start fuel : ℕ) {len : ℕ}
    (buf : ℕ → Byte) (fifo : Fifo) (hshort : len=0 ∨ fifo.waiting.length < len) :
    readNonzeroEntireMessage schedule start len fuel buf fifo=none := by
  induction fuel generalizing buf fifo with
  | zero => rfl
  | succ fuel ih =>
    rw [readNonzeroEntireMessage]
    cases hread : readEntireMessage schedule fuel start len buf fifo with
    | none => rfl
    | some reading =>
      obtain ⟨hresult,hle⟩ := h.readEntireMessage_short hshort hread
      simp only [if_pos hresult]
      exact ih _ _ (by omega)

end NetworkLayer.FifoReads
