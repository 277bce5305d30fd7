import NetworkLayer.TableMoves

/-!
# The fifo of bind requests

Any process may write to the fifo of bind requests. In every round the manager
reads one message from it, byte for byte up to a NUL, and handles it; it stops
for good when that returns anything but zero. Which contents of the fifo and
which answers of the system keep it running is worked out here.
-/

namespace NetworkLayer.BindRequests

open ByteStrings CellBlocks FormattedText UtilTypes Hashmap FifoUtils PacketHandlers
open PacketDispatch SocketRequests TableMoves

/-- `MAX_BIND_REQUEST_SIZE`. -/
def maxBindRequestSize : ℕ := 100

/-- The result of `read` that ends the reading of a message: 0, or -1 with
`EAGAIN`, or -1 with any other error. -/
inductive ReadEnd
  | eof | again | failed
  deriving DecidableEq,Repr

/-- What the successive calls of `read` for one byte find in a fifo. -/
structure FifoContent where
  /-- The bytes that are there. -/
  bytes : List Byte
  /-- How the call behind the last byte ends. -/
  ending : ReadEnd

/-- What a call of `read_message_until_char` returns and stores. -/
structure MessageRead where
  /-- The value that is returned. -/
  result : ℤ
  /-- The buffer afterwards. -/
  buf : ℕ → Byte
  /-- How many bytes were stored, from the start of the buffer on. -/
  stored : ℕ

/-- The loop of `read_message_until_char`: whether the last byte that was read
is the stop character, the buffer and the place behind the last byte. -/
def readLoop (stop : Byte) : List Byte → (ℕ → Byte) → ℕ → Bool × (ℕ → Byte) × ℕ
  | [],buf,currentEnd => (false,buf,currentEnd)
  | currentChar::rest,buf,currentEnd =>
    let stored := Function.update buf currentEnd currentChar
    if currentChar=stop then (true,stored,currentEnd+1)
    else readLoop stop rest stored (currentEnd+1)

/-- `read_message_until_char`. It does not look at the size of the buffer. -/
def readMessageUntilChar (fifo : FifoContent) (buf : ℕ → Byte) (stop : Byte) : MessageRead :=
  let loop := readLoop stop fifo.bytes buf 0
  if loop.1=false ∧ fifo.ending=.failed then ⟨-1,loop.2.1,loop.2.2⟩
  else if loop.2.2=0 then ⟨0,loop.2.1,loop.2.2⟩
  else if loop.1=false then ⟨-1,loop.2.1,loop.2.2⟩
  else ⟨loop.2.2,loop.2.1,loop.2.2⟩

/-- `handle_bind_fifo`, with what its buffer holds before, and how many bytes
it stores there. -/
def handleBindFifo (libc : Libc) (env : Env) (manager : NetworkManager) (fifo : FifoContent)
    (bindRequest : ℕ → Byte) : Served × ℕ :=
  let read := readMessageUntilChar fifo bindRequest 0
  if read.result < 0 then (returned (-1) manager,read.stored)
  else if read.result=0 then (returned 0 manager,read.stored)
  else
    let request := CString.ofCells (loadBlock read.buf 0 read.stored)
    (handleBindRequest libc env manager request,read.stored)

/-- The first stage of a round of `managerLoop`: none when the loop returns -1. -/
def managerLoopBindStage (libc : Libc) (env : Env) (manager : NetworkManager)
    (fifo : FifoContent) (bindRequest : ℕ → Byte) : Option NetworkManager :=
  let handled := (handleBindFifo libc env manager fifo bindRequest).1
  if handled.result≠0 then none else some handled.manager

/-- The manager stores no byte outside its buffer and stays running. -/
def Survives (libc : Libc) (env : Env) (manager : NetworkManager) (fifo : FifoContent)
    (bindRequest : ℕ → Byte) : Prop :=
  let handled := handleBindFifo libc env manager fifo bindRequest
  handled.2 ≤ maxBindRequestSize ∧ handled.1.result=0 ∧
    managerLoopBindStage libc env manager fifo bindRequest=some handled.1.manager

/-- A request that can be answered: it has its three numbers, the reply gets to
the client, and if the port is free, the fifos can be made and the table has
room. -/
def Answerable (libc : Libc) (env : Env) (manager : NetworkManager) (request : CString) : Prop :=
  ∃ port pid socketCounter,scanBindRequest libc request=some (port,pid,socketCounter) ∧
    env.writeWorks (getClientFifoName pid socketCounter)=true ∧
    (canBindNewSocket manager (boundId manager port)=true →
      EndFifosFree env manager.files (boundId manager port) ∧
        manager.sockets.numberOfSockets≠hashMapDefaultSize)

/-- The fifo is empty, or it begins with a message that fits the buffer and
can be answered. -/
def Harmless (libc : Libc) (env : Env) (manager : NetworkManager) (fifo : FifoContent) : Prop :=
  fifo.bytes=[] ∧ fifo.ending≠.failed ∨
    0∈fifo.bytes.take maxBindRequestSize ∧
      Answerable libc env manager (CString.ofCells fifo.bytes)

/-- Without the stop character the loop stores everything. -/
theorem readLoop_of_notMem {stop : Byte} {bytes : List Byte} (h : stop∉bytes) (buf : ℕ → Byte)
    (currentEnd : ℕ) :
    readLoop stop bytes buf currentEnd=
      (false,storeBlock buf currentEnd bytes,currentEnd+bytes.length) := by
  induction bytes generalizing buf currentEnd with
  | nil => rfl
  | cons c rest ih =>
    rw [List.mem_cons,not_or] at h
    rw [readLoop,if_neg (fun he => h.1 he.symm),ih h.2,storeBlock,List.length_cons]
    congr 2
    omega

/-- With one it stores everything up to the first. -/
theorem readLoop_of_stop {stop : Byte} {message : List Byte} (h : stop∉message)
    (rest : List Byte) (buf : ℕ → Byte) (currentEnd : ℕ) :
    readLoop stop (message++stop::rest) buf currentEnd=
      (true,storeBlock buf currentEnd (message++[stop]),currentEnd+message.length+1) := by
  induction message generalizing buf currentEnd with
  | nil =>
    rw [List.nil_append,readLoop,if_pos rfl]
    rfl
  | cons c message ih =>
    rw [List.mem_cons,not_or] at h
    rw [List.cons_append,readLoop,if_neg (fun he => h.1 he.symm),ih h.2,List.cons_append,
      storeBlock,List.length_cons]
    congr 2
    omega

/-- A request whose numbers are known is answerable if its reply gets to the
client and a free port can be bound. -/
theorem answerable_iff {libc : Libc} {env : Env} {manager : NetworkManager} {request : CString}
    {port pid socketCounter : ℤ}
    (hscan : scanBindRequest libc request=some (port,pid,socketCounter)) :
    Answerable libc env manager request ↔
      env.writeWorks (getClientFifoName pid socketCounter)=true ∧
        (canBindNewSocket manager (boundId manager port)=true →
          EndFifosFree env manager.files (boundId manager port) ∧
            manager.sockets.numberOfSockets≠hashMapDefaultSize) := by
  constructor
  · rintro ⟨port',pid',socketCounter',hsome,h⟩
    rw [hscan,Option.some.injEq,Prod.mk.injEq,Prod.mk.injEq] at hsome
    obtain ⟨rfl,rfl,rfl⟩ := hsome
    exact h
  · exact fun h => ⟨port,pid,socketCounter,hscan,h⟩

/-- An answerable request is one for which 0 is returned. -/
theorem handleBindRequest_result_iff (libc : Libc) (env : Env) (manager : NetworkManager)
    (request : CString) :
    (handleBindRequest libc env manager request).result=0 ↔
      Answerable libc env manager request := by
  have hbreak : breakIteration≠0 := by decide
  unfold handleBindRequest
  cases hscan : scanBindRequest libc request with
  | none => simp [Answerable,hscan,returned]
  | some numbers =>
    obtain ⟨port,pid,socketCounter⟩ := numbers
    rw [answerable_iff hscan]
    by_cases hcan : canBindNewSocket manager (boundId manager port)=true
    · simp only [if_pos hcan]
      rw [forall_prop_of_true hcan,←bindNewSocket_iff_of_canBind env hcan]
      by_cases hresult : (bindNewSocket env manager (boundId manager port)).1=0
      · rw [if_neg (by simp [hresult])]
        by_cases hreplied : env.writeWorks (getClientFifoName pid socketCounter)=true
        · rw [if_pos hreplied]
          exact iff_of_true rfl ⟨hreplied,hresult⟩
        · rw [if_neg hreplied]
          exact iff_of_false hbreak fun h => hreplied h.1
      · rw [if_pos hresult]
        exact iff_of_false (by simp [returned]) fun h => hresult h.2
    · simp only [if_neg hcan]
      by_cases hreplied : env.writeWorks (getClientFifoName pid socketCounter)=true
      · rw [if_pos hreplied]
        exact iff_of_true rfl ⟨hreplied,fun h => absurd h hcan⟩
      · rw [if_neg hreplied]
        exact iff_of_false (by simp [returned]) fun h => hreplied h.1

/-- A string ends at the first NUL. -/
theorem takeWhile_message {message : List Byte} (h : 0∉message) (rest : List Byte) :
    (message++0::rest).takeWhile (fun b => b != 0)=message := by
  have hpos : ∀ b∈message,(b != 0)=true := by
    intro b hb
    rw [bne_iff_ne]
    rintro rfl
    exact h hb
  rw [List.takeWhile_append_of_pos hpos,List.takeWhile_cons_of_neg (by simp),List.append_nil]

/-- The first NUL is among the first bytes if the message is short enough. -/
theorem mem_take_iff {message : List Byte} (h : 0∉message) (rest : List Byte) (size : ℕ) :
    0∈(message++0::rest).take size ↔ message.length < size := by
  constructor
  · intro hm
    by_contra hlong
    rw [List.take_append_of_le_length (by omega)] at hm
    exact h (List.mem_of_mem_take hm)
  · intro hshort
    have hget : ((message++0::rest).take size)[message.length]?=some 0 := by
      rw [List.getElem?_take_of_lt hshort,List.getElem?_append_right le_rfl,Nat.sub_self]
      rfl
    exact List.mem_of_getElem? hget

/-- A terminated message is read as a whole, and stored with its terminator. -/
theorem readMessageUntilChar_of_message {fifo : FifoContent} {message rest : List Byte}
    (h : 0∉message) (hbytes : fifo.bytes=message++0::rest) (buf : ℕ → Byte) :
    readMessageUntilChar fifo buf 0=
      ⟨(message++[0]).length,storeBlock buf 0 (message++[0]),(message++[0]).length⟩ := by
  simp only [readMessageUntilChar,hbytes,readLoop_of_stop h,Nat.zero_add,Bool.true_eq_false,
    false_and,if_false,List.length_append,List.length_singleton,Nat.succ_ne_zero]

section

variable (libc : Libc) (env : Env) (manager : NetworkManager) {fifo : FifoContent}
variable (bindRequest : ℕ → Byte)

/-- Reading zero is what keeps the loop running. -/
theorem survives_iff : Survives libc env manager fifo bindRequest ↔
    (handleBindFifo libc env manager fifo bindRequest).2 ≤ maxBindRequestSize ∧
      (handleBindFifo libc env manager fifo bindRequest).1.result=0 := by
  constructor
  · exact fun h => ⟨h.1,h.2.1⟩
  · rintro ⟨hstored,hresult⟩
    exact ⟨hstored,hresult,if_neg (by simpa using hresult)⟩

/-- Without a NUL the fifo must be empty. -/
theorem survives_of_notMem (h : 0∉fifo.bytes) :
    Survives libc env manager fifo bindRequest ↔ fifo.bytes=[] ∧ fifo.ending≠.failed := by
  rw [survives_iff]
  simp only [handleBindFifo,readMessageUntilChar,readLoop_of_notMem h,Nat.zero_add,true_and,
    if_true]
  by_cases hfailed : fifo.ending=.failed
  · simp [hfailed,returned]
  · by_cases hempty : fifo.bytes=[]
    · simp [hfailed,hempty,returned]
    · simp [hfailed,hempty,returned]

/-- With one, the message must fit and be answerable. -/
theorem survives_of_message {message rest : List Byte} (h : 0∉message)
    (hbytes : fifo.bytes=message++0::rest) :
    Survives libc env manager fifo bindRequest ↔
      message.length < maxBindRequestSize ∧
        Answerable libc env manager (CString.ofCells fifo.bytes) := by
  have hcells : CString.ofCells (message++[0])=CString.ofCells fifo.bytes := by
    rw [hbytes]
    simp only [CString.ofCells,takeWhile_message h]
  have hpositive : (0 : ℤ) < (message++[0]).length := by
    rw [List.length_append,List.length_singleton]
    omega
  rw [survives_iff,handleBindFifo,readMessageUntilChar_of_message h hbytes]
  simp only
  rw [if_neg (by omega),if_neg (by omega),loadBlock_storeBlock,hcells,
    handleBindRequest_result_iff,List.length_append,List.length_singleton]
  exact Iff.rfl

end

/-- Every content of the fifo, every manager and every answer of the system:
the manager stores no byte outside its buffer and stays running exactly if the
fifo is empty or begins with a message that fits and can be answered. -/
theorem survives_iff_harmless (libc : Libc) (env : Env) (manager : NetworkManager)
    (fifo : FifoContent) (bindRequest : ℕ → Byte) :
    Survives libc env manager fifo bindRequest ↔ Harmless libc env manager fifo := by
  by_cases h : 0∈fifo.bytes
  · obtain ⟨message,rest,hbytes,hmessage⟩ := List.eq_append_cons_of_mem h
    rw [survives_of_message libc env manager bindRequest hmessage hbytes,Harmless,
      ←mem_take_iff hmessage rest,←hbytes]
    have hne : fifo.bytes≠[] := List.ne_nil_of_mem h
    simp only [hne,false_and,false_or]
  · rw [survives_of_notMem libc env manager bindRequest h,Harmless]
    have hnot : 0∉fifo.bytes.take maxBindRequestSize := fun hm => h (List.mem_of_mem_take hm)
    simp [hnot]

/-- A message without numbers stops the manager. -/
theorem malformed_stops :
    let libc := zeroLibc
    let manager := createNetworkManager CString.empty fun _ => false
    managerLoopBindStage libc (smoothEnv 0 none) manager ⟨[120,0],.eof⟩ (fun _ => 0)=none ∧
      ¬Survives libc (smoothEnv 0 none) manager ⟨[120,0],.eof⟩ fun _ => 0 := by
  intro libc manager
  have hresult : (handleBindFifo libc (smoothEnv 0 none) manager ⟨[120,0],.eof⟩
      fun _ => 0).1.result=-1 := by
    decide
  refine ⟨by simp only [managerLoopBindStage,hresult]; rfl,?_⟩
  intro h
  have hzero := h.2.1
  rw [hresult] at hzero
  cases hzero

end NetworkLayer.BindRequests
