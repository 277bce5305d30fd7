import NetworkLayer.SlotTables
import NetworkLayer.UtilTypes

/-!
# The socket table

Two parallel arrays, the sockets and the pointers to their identities, with
a separate count. A stored identity is the socket's own, so a write through
one of the two is a write through both; the structure carries this and the
meaning of the count. Lookup and removal are first-match scans.
-/

namespace NetworkLayer.Hashmap

open ByteStrings UtilTypes SlotTables

/-- `HASH_MAP_DEFAULT_SIZE`. -/
abbrev hashMapDefaultSize : ℕ := 100

/-- The table of all sockets of a manager. -/
structure HashMap where
  /-- The sockets. -/
  table : Fin hashMapDefaultSize → Option Socket
  /-- The identities the scans compare. -/
  socketId : Fin hashMapDefaultSize → Option SocketID
  /-- The separately kept count. -/
  numberOfSockets : ℕ
  /-- Cursor of the iteration. -/
  iteratorIndex : ℤ
  /-- Each identity is its socket's. -/
  socketId_eq : ∀ i,socketId i=(table i).map Socket.id
  /-- The count is the number of occupied slots. -/
  numberOfSockets_eq : numberOfSockets=occupied table

/-- `compareKeys`. -/
def compareKeys (key1 key2 : SocketID) : Bool :=
  key1.dstPort=key2.dstPort && strcmpT key1.srcIp.chars key2.srcIp.chars=0 &&
    key1.srcPort=key2.srcPort && strcmpT key1.dstIp.chars key2.dstIp.chars=0

/-- Keys compare equal exactly when they are the same identity. -/
theorem compareKeys_iff (key1 key2 : SocketID) : compareKeys key1 key2=true ↔ key1=key2 := by
  obtain ⟨sp1,dp1,si1,di1⟩ := key1
  obtain ⟨sp2,dp2,si2,di2⟩ := key2
  simp only [compareKeys,Bool.and_eq_true,decide_eq_true_eq,strcmpT_eq_zero_iff,SocketID.mk.injEq]
  constructor
  · rintro ⟨⟨⟨hd,hs⟩,hp⟩,hi⟩
    exact ⟨hp,hd,hs,hi⟩
  · rintro ⟨hp,hd,hs,hi⟩
    exact ⟨⟨⟨hd,hs⟩,hp⟩,hi⟩

/-- `createHashMap`. -/
def createHashMap : HashMap where
  table := fun _ => none
  socketId := fun _ => none
  numberOfSockets := 0
  iteratorIndex := 0
  socketId_eq := fun _ => rfl
  numberOfSockets_eq := occupied_empty.symm

namespace HashMap

/-- The first slot whose stored identity compares equal to the key. -/
def indexOf (m : HashMap) (key : SocketID) : Option (Fin hashMapDefaultSize) :=
  firstIndex fun i => (m.socketId i).any fun id => compareKeys id key

/-- `hasKey`. -/
def hasKey (m : HashMap) (key : SocketID) : Bool := (m.indexOf key).isSome

/-- `getSocket`. -/
def getSocket (m : HashMap) (key : SocketID) : Option Socket :=
  if m.numberOfSockets=0 then none
  else if m.hasKey key=false then none
  else (m.indexOf key).bind m.table

/-- Place a socket in an empty slot of both arrays and count it. -/
def fill (m : HashMap) (i : Fin hashMapDefaultSize) (h : m.table i=none) (socket : Socket) :
    HashMap where
  table := Function.update m.table i (some socket)
  socketId := Function.update m.socketId i (some socket.id)
  numberOfSockets := m.numberOfSockets+1
  iteratorIndex := m.iteratorIndex
  socketId_eq := by
    intro j
    by_cases hj : j=i
    · subst hj
      simp only [Function.update_self,Option.map_some]
    · simp only [Function.update_of_ne hj,m.socketId_eq]
  numberOfSockets_eq := by rw [m.numberOfSockets_eq,occupied_fill m.table h]

@[simp] theorem fill_table (m : HashMap) (i : Fin hashMapDefaultSize) (h : m.table i=none)
    (socket : Socket) : (m.fill i h socket).table=Function.update m.table i (some socket) := rfl

/-- `insertSocket`: refused on a full table or a present key, otherwise at
the first free slot. -/
def insertSocket (m : HashMap) (socket : Socket) : Bool × HashMap :=
  if m.numberOfSockets=hashMapDefaultSize then (false,m)
  else if m.hasKey socket.id=true then (false,m)
  else match h : freeSlot m.table with
    | none => (false,m)
    | some j => (true,m.fill j (freeSlot_spec h) socket)

/-- The first slot whose socket's own identity compares equal to the key. -/
def removalIndex (m : HashMap) (key : SocketID) : Option (Fin hashMapDefaultSize) :=
  firstIndex fun i => (m.table i).any fun socket => compareKeys key socket.id

/-- Empty an occupied slot of both arrays and count it off. -/
def clear (m : HashMap) (i : Fin hashMapDefaultSize) (h : (m.table i).isSome=true) : HashMap where
  table := Function.update m.table i none
  socketId := Function.update m.socketId i none
  numberOfSockets := m.numberOfSockets-1
  iteratorIndex := m.iteratorIndex
  socketId_eq := by
    intro j
    by_cases hj : j=i
    · subst hj
      simp only [Function.update_self,Option.map_none]
    · simp only [Function.update_of_ne hj,m.socketId_eq]
  numberOfSockets_eq := by
    obtain ⟨socket,hs⟩ := Option.isSome_iff_exists.mp h
    have := occupied_clear m.table hs
    rw [m.numberOfSockets_eq]
    omega

/-- `hashmapRemove`. -/
def hashmapRemove (m : HashMap) (key : SocketID) : Bool × HashMap :=
  match m.removalIndex key with
  | none => (false,m)
  | some i => if h : (m.table i).isSome=true then (true,m.clear i h) else (false,m)

/-- A write through the pointer to a stored socket, its identity included:
both arrays see it. -/
def setSocket (m : HashMap) (i : Fin hashMapDefaultSize) (socket : Socket) : HashMap :=
  if h : (m.table i).isSome=true then
    {table := Function.update m.table i (some socket)
     socketId := Function.update m.socketId i (some socket.id)
     numberOfSockets := m.numberOfSockets
     iteratorIndex := m.iteratorIndex
     socketId_eq := by
      intro j
      by_cases hj : j=i
      · subst hj
        simp only [Function.update_self,Option.map_some]
      · simp only [Function.update_of_ne hj,m.socketId_eq]
     numberOfSockets_eq := by
      obtain ⟨old,hs⟩ := Option.isSome_iff_exists.mp h
      rw [m.numberOfSockets_eq,occupied_replace m.table hs]}
  else m

/-- No two stored sockets have equal keys. -/
def KeysUnique (m : HashMap) : Prop := DistinctKeys Socket.id m.table

/-- The scan over stored identities is the search by key of the sockets. -/
theorem indexOf_eq_findKey (m : HashMap) (key : SocketID) :
    m.indexOf key=findKey Socket.id m.table key := by
  unfold indexOf findKey
  congr 1
  funext i
  rw [m.socketId_eq]
  cases m.table i with
  | none => rfl
  | some socket =>
    simp only [Option.map_some,Option.any_some]
    rw [Bool.eq_iff_iff,compareKeys_iff,decide_eq_true_eq]

/-- Removal scans for the same slot as lookup. -/
theorem removalIndex_eq_indexOf (m : HashMap) (key : SocketID) :
    m.removalIndex key=m.indexOf key := by
  rw [indexOf_eq_findKey]
  unfold removalIndex findKey
  congr 1
  funext i
  cases m.table i with
  | none => rfl
  | some socket =>
    simp only [Option.any_some]
    rw [Bool.eq_iff_iff,compareKeys_iff,decide_eq_true_eq,eq_comm]

/-- The slot found holds a socket with the key. -/
theorem indexOf_spec {m : HashMap} {key : SocketID} {i : Fin hashMapDefaultSize}
    (h : m.indexOf key=some i) : ∃ socket,m.table i=some socket ∧ socket.id=key := by
  rw [indexOf_eq_findKey] at h
  exact findKey_spec h

/-- Nothing is found exactly when no stored socket has the key. -/
theorem indexOf_eq_none_iff {m : HashMap} {key : SocketID} :
    m.indexOf key=none ↔ ∀ i socket,m.table i=some socket → socket.id≠key := by
  rw [indexOf_eq_findKey,findKey_eq_none_iff]

/-- With unique keys, a stored socket is found where it is. -/
theorem KeysUnique.indexOf_eq_some_iff {m : HashMap} (hu : m.KeysUnique) {key : SocketID}
    {i : Fin hashMapDefaultSize} :
    m.indexOf key=some i ↔ ∃ socket,m.table i=some socket ∧ socket.id=key := by
  rw [indexOf_eq_findKey]
  exact hu.findKey_eq_some_iff

/-- A key that only one slot holds is found there. -/
theorem indexOf_of_only {m : HashMap} {key : SocketID} {i : Fin hashMapDefaultSize}
    {socket : Socket} (h : m.table i=some socket) (hid : socket.id=key)
    (honly : ∀ j other,j≠i → m.table j=some other → other.id≠key) : m.indexOf key=some i := by
  cases hk : m.indexOf key with
  | none => exact absurd hid (indexOf_eq_none_iff.mp hk i socket h)
  | some k =>
    obtain ⟨found,hfound,hkey⟩ := indexOf_spec hk
    by_cases hki : k=i
    · rw [hki]
    · exact absurd hkey (honly k found hki hfound)

/-- A table without sockets has no occupied slot. -/
theorem table_eq_none_of_empty {m : HashMap} (h : m.numberOfSockets=0)
    (i : Fin hashMapDefaultSize) : m.table i=none := by
  rw [m.numberOfSockets_eq,occupied_eq_zero_iff] at h
  exact h i

/-- `getSocket` is the socket at the slot found, the early exits included. -/
theorem getSocket_eq (m : HashMap) (key : SocketID) :
    m.getSocket key=(m.indexOf key).bind m.table := by
  unfold getSocket hasKey
  split
  · next h =>
    cases hi : m.indexOf key with
    | none => rfl
    | some i =>
      rw [Option.bind_some]
      exact (table_eq_none_of_empty h i).symm
  · split
    · next h =>
      have hnone : m.indexOf key=none := by simpa using h
      rw [hnone,Option.bind_none]
    · rfl

/-- With unique keys, every stored socket is looked up by its own key. -/
theorem KeysUnique.getSocket_self {m : HashMap} (hu : m.KeysUnique)
    {i : Fin hashMapDefaultSize} {socket : Socket} (h : m.table i=some socket) :
    m.getSocket socket.id=some socket := by
  rw [getSocket_eq,(hu.indexOf_eq_some_iff).mpr ⟨socket,h,rfl⟩,Option.bind_some,h]

/-- When a socket is inserted: the key is new and the table not full. -/
theorem insertSocket_cases (m : HashMap) (socket : Socket) :
    (m.insertSocket socket=(false,m) ∧
      (m.numberOfSockets=hashMapDefaultSize ∨ m.hasKey socket.id=true)) ∨
    ∃ j,∃ h : m.table j=none,m.insertSocket socket=(true,m.fill j h socket) ∧
      m.numberOfSockets≠hashMapDefaultSize ∧ m.hasKey socket.id=false := by
  unfold insertSocket
  by_cases hfull : m.numberOfSockets=hashMapDefaultSize
  · rw [if_pos hfull]
    exact Or.inl ⟨rfl,Or.inl hfull⟩
  · rw [if_neg hfull]
    by_cases hkey : m.hasKey socket.id=true
    · rw [if_pos hkey]
      exact Or.inl ⟨rfl,Or.inr hkey⟩
    · rw [if_neg hkey]
      split
      · next hnone =>
        have hocc := (freeSlot_eq_none_iff m.table).mp hnone
        exact absurd (m.numberOfSockets_eq.trans hocc) hfull
      · next j hj =>
        exact Or.inr ⟨j,freeSlot_spec hj,rfl,hfull,by simpa using hkey⟩

/-- The key of a socket that may be inserted is on no stored socket. -/
theorem ne_id_of_hasKey_false {m : HashMap} {key : SocketID} (h : m.hasKey key=false)
    {i : Fin hashMapDefaultSize} {socket : Socket} (hs : m.table i=some socket) :
    socket.id≠key := by
  have hnone : m.indexOf key=none := by
    simpa [hasKey] using h
  exact indexOf_eq_none_iff.mp hnone i socket hs

/-- Insertion keeps keys unique. -/
theorem KeysUnique.insertSocket {m : HashMap} (hu : m.KeysUnique) (socket : Socket) :
    (m.insertSocket socket).2.KeysUnique := by
  rcases insertSocket_cases m socket with ⟨he,_⟩|⟨j,hj,he,_,hkey⟩
  · rw [he]
    exact hu
  · rw [he]
    refine (hu.update_iff j socket).mpr ?_
    intro k other _ ho
    exact ne_id_of_hasKey_false hkey ho

/-- Removal keeps keys unique. -/
theorem KeysUnique.hashmapRemove {m : HashMap} (hu : m.KeysUnique) (key : SocketID) :
    (m.hashmapRemove key).2.KeysUnique := by
  unfold HashMap.hashmapRemove
  split
  · exact hu
  · next i _ =>
    split
    · exact DistinctKeys.clear hu i
    · exact hu

/-- Removal empties the slot that lookup finds. -/
theorem hashmapRemove_of_found {m : HashMap} {key : SocketID} {i : Fin hashMapDefaultSize}
    (h : m.indexOf key=some i) : (m.hashmapRemove key).1=true ∧
      (m.hashmapRemove key).2.table=Function.update m.table i none := by
  have hindex : m.removalIndex key=some i := by rw [removalIndex_eq_indexOf,h]
  obtain ⟨socket,hsocket,_⟩ := indexOf_spec h
  have hsome : (m.table i).isSome=true := by
    rw [hsocket]
    rfl
  unfold HashMap.hashmapRemove
  rw [hindex]
  simp only [dif_pos hsome,true_and]
  rfl

/-- A write through a socket pointer shows in that slot. -/
theorem setSocket_table {m : HashMap} {i : Fin hashMapDefaultSize} {old : Socket}
    (h : m.table i=some old) (socket : Socket) :
    (m.setSocket i socket).table=Function.update m.table i (some socket) := by
  rw [setSocket,dif_pos (by rw [h]; rfl)]

/-- A write that does not rewrite the key keeps keys unique. -/
theorem KeysUnique.setSocket {m : HashMap} (hu : m.KeysUnique) {i : Fin hashMapDefaultSize}
    {old : Socket} (h : m.table i=some old) {socket : Socket} (hid : socket.id=old.id) :
    (m.setSocket i socket).KeysUnique := by
  rw [KeysUnique,setSocket_table h]
  exact DistinctKeys.replace hu h hid

/-- A write that rewrites the key keeps keys unique exactly when no other
slot holds the new key. -/
theorem KeysUnique.setSocket_iff {m : HashMap} (hu : m.KeysUnique)
    {i : Fin hashMapDefaultSize} {old : Socket} (h : m.table i=some old) (socket : Socket) :
    (m.setSocket i socket).KeysUnique ↔
      ∀ j other,j≠i → m.table j=some other → other.id≠socket.id := by
  rw [KeysUnique,setSocket_table h]
  exact hu.update_iff i socket

end HashMap

end NetworkLayer.Hashmap
