import NetworkLayer.FifoReads

/-!
# The place of a reader in its stream

Bytes arrive while a message is read. A reading that finds nothing at its
first read, or that never finds the fifo empty before its last byte, keeps
the place of the reader in the stream. Any other one returns 0 as well, but
has taken bytes that no later reading sees.
-/

namespace NetworkLayer.PlaceInStream

open ByteStrings CellBlocks FifoReads

/-- A schedule under which a writer is always there and no call fails. -/
def Attended (schedule : Schedule) : Prop :=
  ∀ t,(schedule t).writers=true ∧ (schedule t).error=false

variable (schedule : Schedule)

/-- The bytes that arrive up to so many reads from a given one on. -/
def arrivedDuring : ℕ → ℕ → List Byte
  | _,0 => []
  | first,count+1 => (schedule first).arrived++arrivedDuring (first+1) count

/-- How many bytes have been in the fifo by the `k`-th read from now, if none
is taken. -/
def availableBy (fifo : Fifo) (k : ℕ) : ℕ :=
  fifo.waiting.length+(arrivedDuring schedule fifo.reads (k+1)).length

/-- How many bytes of a message of `len` bytes the next `k` reads return when
each of them asks for what is missing. -/
def takenBy (fifo : Fifo) (len : ℕ) : ℕ → ℕ
  | 0 => 0
  | k+1 => min (takenBy fifo len k+((schedule (fifo.reads+k)).limit+1))
      (min len (availableBy schedule fifo k))

/-- No read before the last byte of the message finds the fifo empty. -/
def NeverStarved (fifo : Fifo) (len : ℕ) : Prop :=
  ∀ k,takenBy schedule fifo len k < len →
    takenBy schedule fifo len k < availableBy schedule fifo k

/-- Nothing is there at the first read, or all that the message needs comes
in time. -/
def ArrivesTogether (fifo : Fifo) (len : ℕ) : Prop :=
  availableBy schedule fifo 0=0 ∨ NeverStarved schedule fifo len

/-- From `fifo` to `next` the reads took exactly these bytes of the stream. -/
def Consumes (fifo next : Fifo) (data : List Byte) : Prop :=
  ∃ n,next.reads=fifo.reads+n ∧
    fifo.waiting++arrivedDuring schedule fifo.reads n=data++next.waiting

/-- The reading returned `len` and the next `len` bytes of the stream. -/
def TakesNext (start len : ℕ) (buf : ℕ → Byte) (fifo : Fifo) (reading : Reading) : Prop :=
  reading.result=len ∧ ∃ data : List Byte,data.length=len ∧
    reading.buf=storeBlock buf start data ∧ Consumes schedule fifo reading.fifo data

/-- The reading returned 0 and left the stream as it was. -/
def TakesNothing (fifo : Fifo) (reading : Reading) : Prop :=
  reading.result=0 ∧ Consumes schedule fifo reading.fifo []

/-- The fifo so many reads later, if nothing came in between. -/
def laterBy (fifo : Fifo) (n : ℕ) : Fifo := {fifo with reads := fifo.reads+n}

/-- Once a read finds something, all that the message needs comes in time. -/
def ArrivesTogetherAtLast (fifo : Fifo) (len : ℕ) : Prop :=
  ∀ n,(∀ i,i < n → availableBy schedule fifo i=0) →
    ArrivesTogether schedule (laterBy fifo n) len

variable {schedule}

/-- What arrives in a while arrives in the two parts of it. -/
theorem arrivedDuring_add (first m n : ℕ) : arrivedDuring schedule first (m+n)=
    arrivedDuring schedule first m++arrivedDuring schedule (first+m) n := by
  induction m generalizing first with
  | zero => simp [arrivedDuring]
  | succ m ih =>
    have hnext : first+1+m=first+(m+1) := by omega
    rw [Nat.succ_add,arrivedDuring,ih,hnext,arrivedDuring,List.append_assoc]

/-- Without a read nothing is taken. -/
theorem consumes_nil (fifo : Fifo) : Consumes schedule fifo fifo [] :=
  ⟨0,rfl,by simp [arrivedDuring]⟩

/-- Bytes taken one after the other are taken together. -/
theorem Consumes.trans {first middle last : Fifo} {data more : List Byte}
    (h : Consumes schedule first middle data) (hmore : Consumes schedule middle last more) :
    Consumes schedule first last (data++more) := by
  obtain ⟨m,hm,htaken⟩ := h
  obtain ⟨n,hn,hmoreTaken⟩ := hmore
  refine ⟨m+n,by omega,?_⟩
  rw [arrivedDuring_add,←List.append_assoc,htaken,List.append_assoc,←hm,hmoreTaken,
    List.append_assoc]

/-- What was taken is told by where the fifo stands. -/
theorem Consumes.unique {fifo next : Fifo} {data other : List Byte}
    (h : Consumes schedule fifo next data) (hother : Consumes schedule fifo next other) :
    data=other := by
  obtain ⟨m,hm,htaken⟩ := h
  obtain ⟨n,hn,hotherTaken⟩ := hother
  obtain rfl : m=n := by omega
  exact List.append_cancel_right (htaken.symm.trans hotherTaken)

section

variable {fifo next : Fifo} {data : List Byte}

/-- What was available stays so, less what was taken since. -/
theorem availableBy_succ (hreads : next.reads=fifo.reads+1)
    (hdata : fifo.waiting++(schedule fifo.reads).arrived=data++next.waiting) (k : ℕ) :
    availableBy schedule fifo (k+1)=data.length+availableBy schedule next k := by
  have hlen := congrArg List.length hdata
  simp only [List.length_append] at hlen
  rw [availableBy,availableBy,arrivedDuring,List.length_append,hreads]
  omega

/-- After a first read that took its share the rest is taken as a message of
its own. -/
theorem takenBy_succ {len : ℕ} (hreads : next.reads=fifo.reads+1)
    (hdata : fifo.waiting++(schedule fifo.reads).arrived=data++next.waiting)
    (htaken : data.length=takenBy schedule fifo len 1) (hle : data.length ≤ len) (k : ℕ) :
    takenBy schedule fifo len (k+1)=data.length+takenBy schedule next (len-data.length) k := by
  induction k with
  | zero => exact htaken.symm
  | succ k ih =>
    have hread : fifo.reads+(k+1)=fifo.reads+1+k := by omega
    rw [takenBy,ih,availableBy_succ hreads hdata,hread,takenBy,hreads]
    omega

/-- A message arrives in time if its first read finds something and the rest
arrives in time. -/
theorem neverStarved_succ {len : ℕ} (hlen : 0 < len) (hreads : next.reads=fifo.reads+1)
    (hdata : fifo.waiting++(schedule fifo.reads).arrived=data++next.waiting)
    (htaken : data.length=takenBy schedule fifo len 1) (hle : data.length ≤ len) :
    NeverStarved schedule fifo len ↔
      0 < availableBy schedule fifo 0 ∧ NeverStarved schedule next (len-data.length) := by
  have hstep := takenBy_succ hreads hdata htaken hle
  have havailable := availableBy_succ hreads hdata
  constructor
  · intro h
    refine ⟨h 0 hlen,fun k hk => ?_⟩
    have hnext := h (k+1)
    rw [hstep k,havailable k] at hnext
    omega
  · rintro ⟨hfirst,h⟩ k hk
    cases k with
    | zero => exact hfirst
    | succ k =>
      have hnext := h k
      rw [hstep k] at hk ⊢
      rw [havailable k]
      omega

end

/-- An empty message never starves. -/
theorem neverStarved_zero (fifo : Fifo) : NeverStarved schedule fifo 0 :=
  fun _ hk => absurd hk (Nat.not_lt_zero _)

/-- How many bytes are there for the next read. -/
theorem availableBy_zero (fifo : Fifo) : availableBy schedule fifo 0=
    (fifo.waiting++(schedule fifo.reads).arrived).length := by
  simp [availableBy,arrivedDuring]

/-- A read of an attended fifo finds nothing, or it takes its share of what is
there. -/
theorem Attended.read_cases (h : Attended schedule) (fifo : Fifo) {len : ℕ} (hlen : 0 < len) :
    (availableBy schedule fifo 0=0 ∧
      read schedule fifo len=(.again,⟨[],fifo.reads+1⟩) ∧
      Consumes schedule fifo ⟨[],fifo.reads+1⟩ []) ∨
    ∃ data rest,read schedule fifo len=(.bytes data,⟨rest,fifo.reads+1⟩) ∧
      fifo.waiting++(schedule fifo.reads).arrived=data++rest ∧
      data.length=takenBy schedule fifo len 1 ∧ 0 < availableBy schedule fifo 0 ∧
      0 < data.length ∧ data.length ≤ len := by
  obtain ⟨hwriters,herror⟩ := h fifo.reads
  have hne : ¬len=0 := by omega
  by_cases hpresent : fifo.waiting++(schedule fifo.reads).arrived=[]
  · left
    refine ⟨by rw [availableBy_zero,hpresent]; rfl,?_,1,rfl,?_⟩
    · simp only [FifoReads.read,hwriters,herror,hpresent,Bool.false_eq_true,if_false,if_neg hne,
        if_true]
    · rw [arrivedDuring,arrivedDuring,List.append_nil,hpresent]
      rfl
  · right
    have hpos := List.length_pos_iff.mpr hpresent
    let count := min ((schedule fifo.reads).limit+1) len
    refine ⟨(fifo.waiting++(schedule fifo.reads).arrived).take count,
      (fifo.waiting++(schedule fifo.reads).arrived).drop count,?_,
      (List.take_append_drop _ _).symm,?_,by rw [availableBy_zero]; exact hpos,?_,?_⟩
    · simp only [FifoReads.read,herror,Bool.false_eq_true,if_false,if_neg hne,if_neg hpresent,count]
    · rw [takenBy,takenBy,availableBy_zero,List.length_take]
      simp only [Nat.add_zero,Nat.zero_add]
      omega
    · rw [List.length_take]
      omega
    · rw [List.length_take]
      omega

/-- A read that returned bytes took them. -/
theorem consumes_one {fifo : Fifo} {data rest : List Byte}
    (hdata : fifo.waiting++(schedule fifo.reads).arrived=data++rest) :
    Consumes schedule fifo ⟨rest,fifo.reads+1⟩ data :=
  ⟨1,rfl,by rw [arrivedDuring,arrivedDuring,List.append_nil,hdata]⟩

/-- The loop takes what is missing or it starves: then it returns 0. -/
theorem Attended.readRest_cases (h : Attended schedule) (start len fuel : ℕ) {bytesLeft : ℕ}
    (buf : ℕ → Byte) (fifo : Fifo) {reading : Reading} (hle : bytesLeft ≤ len)
    (hread : readRest schedule start len fuel bytesLeft buf fifo=some reading) :
    (NeverStarved schedule fifo bytesLeft ∧ reading.result=len ∧
      ∃ data : List Byte,data.length=bytesLeft ∧
        reading.buf=storeBlock buf (start+len-bytesLeft) data ∧
        Consumes schedule fifo reading.fifo data) ∨
    (¬NeverStarved schedule fifo bytesLeft ∧ reading.result=0 ∧
      ∃ data : List Byte,Consumes schedule fifo reading.fifo data) := by
  induction fuel generalizing bytesLeft buf fifo with
  | zero =>
    cases bytesLeft with
    | zero =>
      obtain rfl := Option.some.inj hread
      exact .inl ⟨neverStarved_zero fifo,rfl,[],rfl,rfl,consumes_nil fifo⟩
    | succ left => cases hread
  | succ fuel ih =>
    cases bytesLeft with
    | zero =>
      obtain rfl := Option.some.inj hread
      exact .inl ⟨neverStarved_zero fifo,rfl,[],rfl,rfl,consumes_nil fifo⟩
    | succ left =>
      rw [readRest] at hread
      obtain ⟨hnone,hagain,hnothing⟩|⟨data,rest,hbytes,hdata,htaken,hsome,hpos,hcount⟩ :=
        h.read_cases fifo (Nat.succ_pos left)
      · rw [hagain] at hread
        obtain rfl := Option.some.inj hread
        refine .inr ⟨fun hnever => ?_,rfl,[],hnothing⟩
        have hfound := hnever 0 (Nat.succ_pos left)
        omega
      · rw [hbytes] at hread
        have hstarved := neverStarved_succ (Nat.succ_pos left)
          (show (⟨rest,fifo.reads+1⟩ : Fifo).reads=fifo.reads+1 from rfl) hdata htaken hcount
        have hfirst := consumes_one hdata
        obtain ⟨hnever,hresult,more,hlen,hbuf,hmore⟩|⟨hnot,hresult,more,hmore⟩ :=
          ih _ _ (by omega) hread
        · refine .inl ⟨hstarved.mpr ⟨hsome,hnever⟩,hresult,data++more,?_,?_,hfirst.trans hmore⟩
          · rw [List.length_append]
            omega
          · have hplace : start+len-(left+1-data.length)=start+len-(left+1)+data.length := by
              omega
            rw [hbuf,hplace,storeBlock_append]
        · exact .inr ⟨fun hnever => hnot (hstarved.mp hnever).2,hresult,_,hfirst.trans hmore⟩

/-- The loop ends after as many reads as bytes are missing. -/
theorem Attended.readRest_ends (h : Attended schedule) (start len fuel : ℕ) {bytesLeft : ℕ}
    (buf : ℕ → Byte) (fifo : Fifo) (hfuel : bytesLeft ≤ fuel) :
    ∃ reading,readRest schedule start len fuel bytesLeft buf fifo=some reading := by
  induction fuel generalizing bytesLeft buf fifo with
  | zero =>
    obtain rfl : bytesLeft=0 := by omega
    exact ⟨_,rfl⟩
  | succ fuel ih =>
    cases bytesLeft with
    | zero => exact ⟨_,rfl⟩
    | succ left =>
      rw [readRest]
      obtain ⟨_,hagain,_⟩|⟨data,rest,hbytes,_,_,_,hpos,_⟩ := h.read_cases fifo (Nat.succ_pos left)
      · rw [hagain]
        exact ⟨_,rfl⟩
      · rw [hbytes]
        exact ih _ _ (by omega)

/-- A reading that finds nothing takes nothing; one whose message arrives in
time takes it; any other one returns 0 after it took some bytes. -/
theorem Attended.readEntireMessage_cases (h : Attended schedule) (start fuel : ℕ) {len : ℕ}
    (hlen : 0 < len) (buf : ℕ → Byte) (fifo : Fifo) {reading : Reading}
    (hread : readEntireMessage schedule fuel start len buf fifo=some reading) :
    (availableBy schedule fifo 0=0 ∧
      reading=⟨0,buf,⟨[],fifo.reads+1⟩⟩ ∧ Consumes schedule fifo reading.fifo []) ∨
    (NeverStarved schedule fifo len ∧ TakesNext schedule start len buf fifo reading) ∨
    (0 < availableBy schedule fifo 0 ∧ ¬NeverStarved schedule fifo len ∧ reading.result=0 ∧
      ∃ data : List Byte,data≠[] ∧ Consumes schedule fifo reading.fifo data) := by
  have hnonneg : ¬((len : ℤ) < 0) := by omega
  rw [readEntireMessage,if_neg hnonneg,Int.toNat_natCast] at hread
  obtain ⟨hnone,hagain,hnothing⟩|⟨data,rest,hbytes,hdata,htaken,hsome,hpos,hcount⟩ :=
    h.read_cases fifo hlen
  · rw [hagain] at hread
    obtain rfl := Option.some.inj hread
    exact .inl ⟨hnone,rfl,hnothing⟩
  · obtain ⟨b,tail,rfl⟩ := List.exists_cons_of_length_pos hpos
    rw [hbytes] at hread
    have hstarved := neverStarved_succ hlen
      (show (⟨rest,fifo.reads+1⟩ : Fifo).reads=fifo.reads+1 from rfl) hdata htaken hcount
    have hfirst := consumes_one hdata
    obtain ⟨hnever,hresult,more,hmoreLen,hbuf,hmore⟩|⟨hnot,hresult,more,hmore⟩ :=
      h.readRest_cases start len fuel _ _ (Nat.sub_le len _) hread
    · refine .inr (.inl ⟨hstarved.mpr ⟨hsome,hnever⟩,hresult,b::tail++more,?_,?_,
        hfirst.trans hmore⟩)
      · rw [List.length_append]
        omega
      · have hplace : start+len-(len-(b::tail).length)=start+(b::tail).length := by omega
        rw [hbuf,hplace,storeBlock_append]
    · exact .inr (.inr ⟨hsome,fun hnever => hnot (hstarved.mp hnever).2,hresult,b::tail++more,
        List.cons_ne_nil _ _,hfirst.trans hmore⟩)

/-- A reading ends, whatever the schedule. -/
theorem Attended.readEntireMessage_ends (h : Attended schedule) (start : ℕ) {len fuel : ℕ}
    (hlen : 0 < len) (hfuel : len ≤ fuel) (buf : ℕ → Byte) (fifo : Fifo) :
    ∃ reading,readEntireMessage schedule fuel start len buf fifo=some reading := by
  have hnonneg : ¬((len : ℤ) < 0) := by omega
  rw [readEntireMessage,if_neg hnonneg,Int.toNat_natCast]
  obtain ⟨_,hagain,_⟩|⟨data,rest,hbytes,_,_,_,hpos,_⟩ := h.read_cases fifo hlen
  · rw [hagain]
    exact ⟨_,rfl⟩
  · obtain ⟨b,tail,rfl⟩ := List.exists_cons_of_length_pos hpos
    rw [hbytes]
    exact h.readRest_ends start len fuel _ _ (by omega)

/-- One reading keeps the place exactly if its message arrives together. -/
theorem Attended.kept_iff (h : Attended schedule) (start fuel : ℕ) {len : ℕ} (hlen : 0 < len)
    (buf : ℕ → Byte) (fifo : Fifo) {reading : Reading}
    (hread : readEntireMessage schedule fuel start len buf fifo=some reading) :
    (TakesNext schedule start len buf fifo reading ∨ TakesNothing schedule fifo reading) ↔
      ArrivesTogether schedule fifo len := by
  obtain ⟨hnone,rfl,hnothing⟩|⟨hnever,htakes⟩|⟨hsome,hnot,hresult,data,hne,hdata⟩ :=
    h.readEntireMessage_cases start fuel hlen buf fifo hread
  · exact iff_of_true (.inr ⟨rfl,hnothing⟩) (.inl hnone)
  · exact iff_of_true (.inl htakes) (.inr hnever)
  · refine iff_of_false ?_ ?_
    · rintro (⟨hfull,_⟩|⟨_,hnothing⟩)
      · omega
      · exact hne (hdata.unique hnothing)
    · rintro (hnone|hnever)
      · omega
      · exact hnot hnever

/-- Whatever was lost before, a caller that retries returns after `len` bytes
at least. -/
theorem Attended.readNonzero_takes (h : Attended schedule) (start : ℕ) {len : ℕ} (hlen : 0 < len)
    (fuel : ℕ) (buf : ℕ → Byte) (fifo : Fifo) {reading : Reading}
    (hread : readNonzeroEntireMessage schedule start len fuel buf fifo=some reading) :
    ∃ data : List Byte,len ≤ data.length ∧ Consumes schedule fifo reading.fifo data := by
  induction fuel generalizing buf fifo with
  | zero => cases hread
  | succ fuel ih =>
    rw [readNonzeroEntireMessage] at hread
    cases hfirst : readEntireMessage schedule fuel start len buf fifo with
    | none =>
      rw [hfirst] at hread
      cases hread
    | some first =>
      rw [hfirst] at hread
      simp only at hread
      obtain ⟨_,rfl,hnothing⟩|⟨_,hresult,data,hdata,_,hconsumes⟩|
          ⟨_,_,hresult,data,_,hconsumes⟩ :=
        h.readEntireMessage_cases start fuel hlen buf fifo hfirst
      · rw [if_pos rfl] at hread
        obtain ⟨data,hdata,hconsumes⟩ := ih _ _ hread
        exact ⟨data,hdata,hnothing.trans hconsumes⟩
      · rw [if_neg (by omega)] at hread
        obtain rfl := Option.some.inj hread
        exact ⟨data,hdata.ge,hconsumes⟩
      · rw [if_pos hresult] at hread
        obtain ⟨more,hmore,hrest⟩ := ih _ _ hread
        refine ⟨data++more,?_,hconsumes.trans hrest⟩
        rw [List.length_append]
        omega

/-- After a read that found nothing a caller that retries is where it was. -/
theorem arrivesTogetherAtLast_succ {fifo : Fifo} {len : ℕ}
    (hnone : availableBy schedule fifo 0=0) :
    ArrivesTogetherAtLast schedule fifo len ↔
      ArrivesTogetherAtLast schedule ⟨[],fifo.reads+1⟩ len := by
  have hpresent : fifo.waiting++(schedule fifo.reads).arrived=[] := by
    rw [availableBy_zero] at hnone
    exact List.length_eq_zero_iff.mp hnone
  have hwaiting : fifo.waiting=[] := (List.append_eq_nil_iff.mp hpresent).1
  have havailable : ∀ i,availableBy schedule fifo (i+1)=
      availableBy schedule ⟨[],fifo.reads+1⟩ i := by
    intro i
    have hnext : (⟨[],fifo.reads+1⟩ : Fifo).reads=fifo.reads+1 := rfl
    have hleft : fifo.waiting++(schedule fifo.reads).arrived=
        []++(⟨[],fifo.reads+1⟩ : Fifo).waiting := hpresent
    rw [availableBy_succ hnext hleft,List.length_nil,Nat.zero_add]
  have hskip : ∀ n,laterBy fifo (n+1)=laterBy ⟨[],fifo.reads+1⟩ n := by
    intro n
    have hreads : fifo.reads+(n+1)=fifo.reads+1+n := by omega
    rw [laterBy,laterBy,hwaiting,hreads]
  constructor
  · intro h n hn
    rw [←hskip]
    refine h (n+1) fun i hi => ?_
    cases i with
    | zero => exact hnone
    | succ i => rw [havailable]; exact hn i (Nat.lt_of_succ_lt_succ hi)
  · intro h n hn
    cases n with
    | zero => exact .inl hnone
    | succ n =>
      rw [hskip]
      exact h n fun i hi => havailable i ▸ hn (i+1) (Nat.succ_lt_succ hi)

/-- A caller that retries gets the next bytes of the stream exactly if they
arrive together at last. -/
theorem Attended.retried_iff (h : Attended schedule) (start : ℕ) {len : ℕ} (hlen : 0 < len)
    (fuel : ℕ) (buf : ℕ → Byte) (fifo : Fifo) {reading : Reading}
    (hread : readNonzeroEntireMessage schedule start len fuel buf fifo=some reading) :
    TakesNext schedule start len buf fifo reading ↔
      ArrivesTogetherAtLast schedule fifo len := by
  induction fuel generalizing buf fifo with
  | zero => cases hread
  | succ fuel ih =>
    rw [readNonzeroEntireMessage] at hread
    cases hfirst : readEntireMessage schedule fuel start len buf fifo with
    | none =>
      rw [hfirst] at hread
      cases hread
    | some first =>
      rw [hfirst] at hread
      simp only at hread
      obtain ⟨hnone,rfl,hnothing⟩|⟨hnever,htakes⟩|⟨hsome,hnot,hresult,data,hne,hconsumes⟩ :=
        h.readEntireMessage_cases start fuel hlen buf fifo hfirst
      · -- nothing was there: the next call starts where this one did
        rw [if_pos rfl] at hread
        obtain ⟨taken,_,hlater⟩ := h.readNonzero_takes start hlen fuel _ _ hread
        rw [arrivesTogetherAtLast_succ hnone,←ih _ _ hread]
        refine and_congr_right fun _ => exists_congr fun data => and_congr_right fun _ =>
          and_congr_right fun _ => ⟨fun hdata => ?_,fun hdata => hnothing.trans hdata⟩
        rwa [hdata.unique (hnothing.trans hlater)]
      · have hresult := htakes.1
        rw [if_neg (by omega)] at hread
        obtain rfl := Option.some.inj hread
        refine iff_of_true htakes fun n hn => ?_
        cases n with
        | zero => exact .inr hnever
        | succ n =>
          have hsome := hnever 0 hlen
          have hnone := hn 0 (Nat.succ_pos n)
          omega
      · -- the bytes that were taken are lost: what comes back starts later
        rw [if_pos hresult] at hread
        obtain ⟨more,hmore,hlater⟩ := h.readNonzero_takes start hlen fuel _ _ hread
        refine iff_of_false ?_ fun hlast => ?_
        · rintro ⟨_,taken,htaken,_,hall⟩
          have hlost := List.length_pos_iff.mpr hne
          have hsame := congrArg List.length (hall.unique (hconsumes.trans hlater))
          rw [List.length_append] at hsame
          omega
        · obtain hnone|hnever := hlast 0 fun i hi => absurd hi (Nat.not_lt_zero i)
          · exact absurd hnone hsome.ne'
          · exact hnot hnever

/-- A reading of a nonempty message ends, and it returns the next bytes of the
stream or leaves them all exactly if nothing is there at its first read or no
read before the last byte finds the fifo empty. A caller that retries on 0 and
returns has the next bytes of the stream exactly if this holds from the first
read on that finds something. -/
theorem place_kept_iff (h : Attended schedule) (start : ℕ) {len : ℕ} (hlen : 0 < len)
    (buf : ℕ → Byte) (fifo : Fifo) :
    (∀ fuel,len ≤ fuel → ∃ reading,
      readEntireMessage schedule fuel start len buf fifo=some reading ∧
      ((TakesNext schedule start len buf fifo reading ∨ TakesNothing schedule fifo reading) ↔
        ArrivesTogether schedule fifo len)) ∧
    ∀ fuel reading,readNonzeroEntireMessage schedule start len fuel buf fifo=some reading →
      (TakesNext schedule start len buf fifo reading ↔
        ArrivesTogetherAtLast schedule fifo len) := by
  refine ⟨fun fuel hfuel => ?_,fun fuel _ hread => h.retried_iff start hlen fuel buf fifo hread⟩
  obtain ⟨reading,hread⟩ := h.readEntireMessage_ends start hlen hfuel buf fifo
  exact ⟨reading,hread,h.kept_iff start fuel hlen buf fifo hread⟩

/-- Nothing arrives but two bytes before the third read. -/
def lateSchedule : Schedule := fun t => ⟨if t=2 then [98,99] else [],4,true,false⟩

/-- A message of two bytes, one of which is there. -/
theorem place_kept_iff_late :
    (∀ fuel,2 ≤ fuel → ∃ reading,
      readEntireMessage lateSchedule fuel 0 (2 : ℕ) (fun _ => 0) ⟨[97],0⟩=some reading ∧
      ((TakesNext lateSchedule 0 2 (fun _ => 0) ⟨[97],0⟩ reading ∨
        TakesNothing lateSchedule ⟨[97],0⟩ reading) ↔
        ArrivesTogether lateSchedule ⟨[97],0⟩ 2)) ∧
    ∀ fuel reading,
      readNonzeroEntireMessage lateSchedule 0 (2 : ℕ) fuel (fun _ => 0) ⟨[97],0⟩=some reading →
      (TakesNext lateSchedule 0 2 (fun _ => 0) ⟨[97],0⟩ reading ↔
        ArrivesTogetherAtLast lateSchedule ⟨[97],0⟩ 2) :=
  place_kept_iff (fun _ => ⟨rfl,rfl⟩) 0 (by decide) _ _

/-- One byte is there and the next read finds nothing: the call returns 0 with
the byte gone, and a retry returns the two bytes after it. -/
theorem first_byte_lost :
    (readEntireMessage lateSchedule 2 0 2 (fun _ => 0) ⟨[97],0⟩).map
      (fun reading => (reading.result,reading.fifo.waiting))=some (0,[]) ∧
    (∀ reading,readEntireMessage lateSchedule 2 0 2 (fun _ => 0) ⟨[97],0⟩=some reading →
      ¬(TakesNext lateSchedule 0 2 (fun _ => 0) ⟨[97],0⟩ reading ∨
        TakesNothing lateSchedule ⟨[97],0⟩ reading)) ∧
    (readNonzeroEntireMessage lateSchedule 0 2 4 (fun _ => 0) ⟨[97],0⟩).map
      (fun reading => (reading.result,loadBlock reading.buf 0 2))=some (2,[98,99]) := by
  refine ⟨by decide,?_,by decide⟩
  intro reading hread
  obtain rfl := Option.some.inj hread
  rintro (⟨hfull,_⟩|⟨_,n,hn,hdata⟩)
  · cases hfull
  · obtain rfl : n=2 := (hn.trans (Nat.zero_add n)).symm
    exact absurd hdata (by decide)

end NetworkLayer.PlaceInStream
