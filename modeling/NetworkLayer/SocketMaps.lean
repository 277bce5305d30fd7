import NetworkLayer.BoundedMaps
import NetworkLayer.Hashmap
import NetworkLayer.StepRuns

/-!
# The socket table is a finite map

The two arrays and the count stand for a partial map from identities to
sockets with room for `HASH_MAP_DEFAULT_SIZE` of them. Every sequence of
calls answers as that map does, whatever slots the removals leave free.
-/

namespace NetworkLayer.SocketMaps

open UtilTypes Hashmap SlotTables BoundedMaps StepRuns

/-- The partial map that a table stands for. -/
abbrev SocketMap := BoundedMap SocketID Socket hashMapDefaultSize

/-- One call on the socket table. -/
inductive TableCall
  /-- `insertSocket`. -/
  | insertSocket (socket : Socket)
  /-- `getSocket`. -/
  | getSocket (key : SocketID)
  /-- `hasKey`. -/
  | hasKey (key : SocketID)
  /-- `hashmapRemove`. -/
  | hashmapRemove (key : SocketID)

/-- What a call returns. -/
inductive TableAnswer
  | flag (result : Bool)
  | socket (found : Option Socket)

/-- What the table answers to a call. -/
def tableAnswer (m : HashMap) : TableCall → TableAnswer
  | .insertSocket socket => .flag (m.insertSocket socket).1
  | .getSocket key => .socket (m.getSocket key)
  | .hasKey key => .flag (m.hasKey key)
  | .hashmapRemove key => .flag (m.hashmapRemove key).1

/-- The table after a call. -/
def tableStep (m : HashMap) : TableCall → HashMap
  | .insertSocket socket => (m.insertSocket socket).2
  | .hashmapRemove key => (m.hashmapRemove key).2
  | _ => m

/-- What the map answers to a call. -/
def mapAnswer (r : SocketMap) : TableCall → TableAnswer
  | .insertSocket socket => .flag (r.insert socket.id socket).1
  | .getSocket key => .socket (r.lookup key)
  | .hasKey key => .flag (decide (key∈r.keys))
  | .hashmapRemove key => .flag (r.remove key).1

/-- The map after a call. -/
def mapStep (r : SocketMap) : TableCall → SocketMap
  | .insertSocket socket => (r.insert socket.id socket).2
  | .hashmapRemove key => (r.remove key).2
  | _ => r

/-- The table stands for the map: no key twice, the same lookups and the same
number of entries. -/
structure Represents (m : HashMap) (r : SocketMap) : Prop where
  /-- Keys are unique. -/
  unique : m.KeysUnique
  /-- Lookups agree. -/
  lookup : ∀ key,m.getSocket key=r.lookup key
  /-- The count is the number of bound keys. -/
  count : m.numberOfSockets=r.keys.card

/-- The count is the number of occupied slots, and both arrays have the same
slots occupied, each identity being its socket's. -/
def WellFormed (m : HashMap) : Prop :=
  m.numberOfSockets=occupied m.table ∧ ∀ i,(m.table i=none ↔ m.socketId i=none) ∧
    ∀ socket,m.table i=some socket → m.socketId i=some socket.id

/-- A call changes no other key's lookup. It refuses exactly the insertion of
a present key and into a full table, and the removal of an absent key, and
changes nothing when it refuses. -/
def Framed (m : HashMap) : TableCall → Prop
  | .insertSocket socket =>
    ((m.insertSocket socket).1=false ↔
      m.hasKey socket.id=true ∨ occupied m.table=hashMapDefaultSize) ∧
    ((m.insertSocket socket).1=false → (m.insertSocket socket).2=m) ∧
    ∀ key,key≠socket.id → (m.insertSocket socket).2.getSocket key=m.getSocket key
  | .hashmapRemove key =>
    ((m.hashmapRemove key).1=false ↔ m.hasKey key=false) ∧
    ((m.hashmapRemove key).1=false → (m.hashmapRemove key).2=m) ∧
    ∀ other,other≠key → (m.hashmapRemove key).2.getSocket other=m.getSocket other
  | _ => True

/-- Every table is well formed. -/
theorem wellFormed (m : HashMap) : WellFormed m := by
  refine ⟨m.numberOfSockets_eq,?_⟩
  intro i
  rw [m.socketId_eq]
  refine ⟨Option.map_eq_none_iff.symm,?_⟩
  intro socket hsocket
  rw [hsocket,Option.map_some]

/-- A key is present exactly when it is looked up. -/
theorem hasKey_eq (m : HashMap) (key : SocketID) : m.hasKey key=(m.getSocket key).isSome := by
  rw [HashMap.getSocket_eq,HashMap.hasKey]
  cases hindex : m.indexOf key with
  | none => rfl
  | some i =>
    obtain ⟨socket,hsocket,_⟩ := HashMap.indexOf_spec hindex
    rw [Option.bind_some,hsocket]
    rfl

/-- With unique keys, lookup finds the one socket with the key. -/
theorem getSocket_eq_some_iff {m : HashMap} (hu : m.KeysUnique) {key : SocketID}
    {socket : Socket} :
    m.getSocket key=some socket ↔ ∃ i,m.table i=some socket ∧ socket.id=key := by
  constructor
  · intro h
    rw [HashMap.getSocket_eq] at h
    obtain ⟨i,hindex,hsocket⟩ := Option.bind_eq_some_iff.mp h
    obtain ⟨found,hfound,hkey⟩ := HashMap.indexOf_spec hindex
    obtain rfl := Option.some.inj (hsocket.symm.trans hfound)
    exact ⟨i,hsocket,hkey⟩
  · rintro ⟨i,hsocket,rfl⟩
    exact hu.getSocket_self hsocket

/-- Filling a slot binds the socket's key and no other. -/
theorem getSocket_fill {m : HashMap} (hu : m.KeysUnique) {j : Fin hashMapDefaultSize}
    (hj : m.table j=none) {socket : Socket} (hnew : m.hasKey socket.id=false) (key : SocketID) :
    (m.fill j hj socket).getSocket key=
      Function.update m.getSocket socket.id (some socket) key := by
  have hfilled : (m.fill j hj socket).KeysUnique := by
    refine (hu.update_iff j socket).mpr ?_
    intro k other _ hother
    exact HashMap.ne_id_of_hasKey_false hnew hother
  by_cases hkey : key=socket.id
  · rw [hkey,Function.update_self]
    apply hfilled.getSocket_self (i:=j)
    rw [HashMap.fill_table,Function.update_self]
  · rw [Function.update_of_ne hkey]
    ext found
    rw [getSocket_eq_some_iff hfilled,getSocket_eq_some_iff hu,HashMap.fill_table]
    constructor
    · rintro ⟨i,hfound,hid⟩
      rcases update_some_cases hfound with ⟨_,rfl⟩|⟨_,hold⟩
      · exact absurd hid.symm hkey
      · exact ⟨i,hold,hid⟩
    · rintro ⟨i,hfound,hid⟩
      refine ⟨i,?_,hid⟩
      have hij : i≠j := by
        rintro rfl
        rw [hj] at hfound
        cases hfound
      rw [Function.update_of_ne hij,hfound]

/-- Emptying the slot of a key unbinds the key and no other. -/
theorem getSocket_clear {m : HashMap} (hu : m.KeysUnique) {i : Fin hashMapDefaultSize}
    {key : SocketID} (h : m.indexOf key=some i) (other : SocketID) :
    (m.hashmapRemove key).2.getSocket other=Function.update m.getSocket key none other := by
  have hremoved := hu.hashmapRemove key
  have htable := (HashMap.hashmapRemove_of_found h).2
  obtain ⟨socket,hsocket,hid⟩ := HashMap.indexOf_spec h
  ext found
  rw [getSocket_eq_some_iff hremoved,htable]
  by_cases hkey : other=key
  · rw [hkey,Function.update_self]
    constructor
    · rintro ⟨k,hfound,hfoundId⟩
      by_cases hki : k=i
      · rw [hki,Function.update_self] at hfound
        cases hfound
      · rw [Function.update_of_ne hki] at hfound
        exact absurd (hu k i found socket hfound hsocket (hfoundId.trans hid.symm)) hki
    · intro hnone
      cases hnone
  · rw [Function.update_of_ne hkey,getSocket_eq_some_iff hu]
    constructor
    · rintro ⟨k,hfound,hfoundId⟩
      by_cases hki : k=i
      · rw [hki,Function.update_self] at hfound
        cases hfound
      · rw [Function.update_of_ne hki] at hfound
        exact ⟨k,hfound,hfoundId⟩
    · rintro ⟨k,hfound,hfoundId⟩
      refine ⟨k,?_,hfoundId⟩
      have hki : k≠i := by
        rintro rfl
        obtain rfl := Option.some.inj (hfound.symm.trans hsocket)
        exact hkey (hfoundId.symm.trans hid)
      rw [Function.update_of_ne hki,hfound]

/-- Removal of an absent key does nothing. -/
theorem hashmapRemove_absent {m : HashMap} {key : SocketID} (h : m.hasKey key=false) :
    m.hashmapRemove key=(false,m) := by
  have hnone : m.removalIndex key=none := by
    rw [HashMap.removalIndex_eq_indexOf]
    simpa [HashMap.hasKey] using h
  unfold HashMap.hashmapRemove
  rw [hnone]

/-- What `insertSocket` does, in terms of lookups. -/
theorem insertSocket_lookups {m : HashMap} (hu : m.KeysUnique) (socket : Socket) :
    (m.insertSocket socket=(false,m) ∧
      (m.hasKey socket.id=true ∨ m.numberOfSockets=hashMapDefaultSize)) ∨
    ((m.insertSocket socket).1=true ∧ m.hasKey socket.id=false ∧
      m.numberOfSockets≠hashMapDefaultSize ∧
      (m.insertSocket socket).2.numberOfSockets=m.numberOfSockets+1 ∧
      (m.insertSocket socket).2.getSocket=
        Function.update m.getSocket socket.id (some socket)) := by
  rcases m.insertSocket_cases socket with ⟨he,hrefused⟩|⟨j,hj,he,hroom,hnew⟩
  · exact Or.inl ⟨he,hrefused.symm⟩
  · right
    rw [he]
    exact ⟨rfl,hnew,hroom,rfl,funext (getSocket_fill hu hj hnew)⟩

/-- What `hashmapRemove` does, in terms of lookups. -/
theorem hashmapRemove_lookups {m : HashMap} (hu : m.KeysUnique) (key : SocketID) :
    (m.hasKey key=false ∧ m.hashmapRemove key=(false,m)) ∨
    (m.hasKey key=true ∧ (m.hashmapRemove key).1=true ∧
      (m.hashmapRemove key).2.numberOfSockets+1=m.numberOfSockets ∧
      (m.hashmapRemove key).2.getSocket=Function.update m.getSocket key none) := by
  cases hindex : m.indexOf key with
  | none =>
    have hkey : m.hasKey key=false := by
      rw [HashMap.hasKey,hindex]
      rfl
    exact Or.inl ⟨hkey,hashmapRemove_absent hkey⟩
  | some i =>
    right
    obtain ⟨hresult,htable⟩ := HashMap.hashmapRemove_of_found hindex
    obtain ⟨socket,hsocket,_⟩ := HashMap.indexOf_spec hindex
    refine ⟨?_,hresult,?_,funext (getSocket_clear hu hindex)⟩
    · rw [HashMap.hasKey,hindex]
      rfl
    · rw [HashMap.numberOfSockets_eq,HashMap.numberOfSockets_eq m,htable]
      exact occupied_clear m.table hsocket

/-- The key sets of a table and its map agree. -/
theorem Represents.hasKey_iff {m : HashMap} {r : SocketMap} (h : Represents m r)
    (key : SocketID) : m.hasKey key=true ↔ key∈r.keys := by
  rw [hasKey_eq,h.lookup,r.mem_keys]

/-- The empty table stands for the empty map. -/
theorem represents_empty : Represents createHashMap BoundedMap.empty where
  unique := distinctKeys_empty
  lookup := fun _ => rfl
  count := rfl

/-- Insertion is the map's. -/
theorem Represents.insertSocket {m : HashMap} {r : SocketMap} (h : Represents m r)
    (socket : Socket) : (m.insertSocket socket).1=(r.insert socket.id socket).1 ∧
      Represents (m.insertSocket socket).2 (r.insert socket.id socket).2 := by
  have hunique := h.unique.insertSocket socket
  have hmem := h.hasKey_iff socket.id
  rcases insertSocket_lookups h.unique socket with ⟨he,hrefused⟩|⟨htrue,hnew,hroom,hcount,hlookup⟩
  · have hrefused' : socket.id∈r.keys ∨ r.keys.card=hashMapDefaultSize := by
      rw [←hmem,←h.count]
      exact hrefused
    rw [he,BoundedMap.insert_refused hrefused']
    exact ⟨rfl,h⟩
  · have hbound : ¬(socket.id∈r.keys ∨ r.keys.card=hashMapDefaultSize) := by
      rw [←hmem,←h.count,hnew]
      simp [hroom]
    obtain ⟨hflag,hmap,hcard⟩ := BoundedMap.insert_bound hbound socket
    refine ⟨htrue.trans hflag.symm,hunique,?_,?_⟩
    · intro key
      rw [hlookup,hmap,funext h.lookup]
    · rw [hcount,hcard,h.count]

/-- Removal is the map's. -/
theorem Represents.hashmapRemove {m : HashMap} {r : SocketMap} (h : Represents m r)
    (key : SocketID) : (m.hashmapRemove key).1=(r.remove key).1 ∧
      Represents (m.hashmapRemove key).2 (r.remove key).2 := by
  have hunique := h.unique.hashmapRemove key
  have hmem := h.hasKey_iff key
  rcases hashmapRemove_lookups h.unique key with ⟨habsent,he⟩|⟨hpresent,htrue,hcount,hlookup⟩
  · have hnot : key∉r.keys := by
      rw [←hmem,habsent]
      decide
    rw [he,BoundedMap.remove_absent hnot]
    exact ⟨rfl,h⟩
  · obtain ⟨hflag,hmap,hcard⟩ := BoundedMap.remove_bound (hmem.mp hpresent)
    have hm := h.count
    refine ⟨htrue.trans hflag.symm,hunique,?_,?_⟩
    · intro other
      rw [hlookup,hmap,funext h.lookup]
    · omega

/-- One call keeps the table in step with its map. -/
theorem Represents.step {m : HashMap} {r : SocketMap} (h : Represents m r) (call : TableCall) :
    Represents (tableStep m call) (mapStep r call) := by
  cases call with
  | insertSocket socket => exact (h.insertSocket socket).2
  | hashmapRemove key => exact (h.hashmapRemove key).2
  | getSocket key => exact h
  | hasKey key => exact h

/-- Both answer alike. -/
theorem Represents.answer {m : HashMap} {r : SocketMap} (h : Represents m r) (call : TableCall) :
    tableAnswer m call=mapAnswer r call := by
  cases call with
  | insertSocket socket => rw [tableAnswer,mapAnswer,(h.insertSocket socket).1]
  | hashmapRemove key => rw [tableAnswer,mapAnswer,(h.hashmapRemove key).1]
  | getSocket key => rw [tableAnswer,mapAnswer,h.lookup]
  | hasKey key =>
    have hflag : m.hasKey key=decide (key∈r.keys) := by
      rw [Bool.eq_iff_iff,h.hasKey_iff,decide_eq_true_eq]
    rw [tableAnswer,mapAnswer,hflag]

/-- With unique keys, every call is framed. -/
theorem framed_of_unique {m : HashMap} (hu : m.KeysUnique) (call : TableCall) :
    Framed m call := by
  cases call with
  | getSocket key => trivial
  | hasKey key => trivial
  | insertSocket socket =>
    simp only [Framed,←m.numberOfSockets_eq]
    rcases insertSocket_lookups hu socket with ⟨he,hrefused⟩|⟨htrue,hnew,hroom,_,hlookup⟩
    · rw [he]
      exact ⟨iff_of_true rfl hrefused,fun _ => rfl,fun _ _ => rfl⟩
    · rw [htrue,hlookup]
      refine ⟨iff_of_false (by decide) ?_,fun h => absurd h (by decide),?_⟩
      · rw [hnew]
        simp [hroom]
      · exact fun key hkey => Function.update_of_ne hkey _ _
  | hashmapRemove key =>
    simp only [Framed]
    rcases hashmapRemove_lookups hu key with ⟨habsent,he⟩|⟨hpresent,htrue,_,hlookup⟩
    · rw [he]
      exact ⟨iff_of_true rfl habsent,fun _ => rfl,fun _ _ => rfl⟩
    · rw [htrue,hlookup,hpresent]
      exact ⟨iff_of_false (by decide) (by decide),fun h => absurd h (by decide),
        fun other hother => Function.update_of_ne hother _ _⟩

/-- Every sequence of calls on a new table answers as the partial map does.
The table stands for the map at the end, is well formed all the time, and
every call is framed. -/
theorem table_is_bounded_map (calls : List TableCall) :
    outputs tableAnswer tableStep createHashMap calls=
        outputs mapAnswer mapStep BoundedMap.empty calls ∧
      Represents (run tableStep createHashMap calls) (run mapStep BoundedMap.empty calls) ∧
      EachState tableStep WellFormed createHashMap calls ∧
      EachStep tableStep Framed createHashMap calls := by
  have hstep : ∀ m r call,Represents m r → Represents (tableStep m call) (mapStep r call) :=
    fun _ _ call h => h.step call
  have hunique : ∀ m call,HashMap.KeysUnique m → (tableStep m call).KeysUnique := by
    intro m call hu
    cases call with
    | insertSocket socket => exact hu.insertSocket socket
    | hashmapRemove key => exact hu.hashmapRemove key
    | getSocket key => exact hu
    | hasKey key => exact hu
  refine ⟨?_,?_,?_,?_⟩
  · exact outputs_eq_of_simulation hstep (fun _ _ call h => h.answer call) represents_empty calls
  · exact run_related hstep represents_empty calls
  · exact eachState_imp (fun m _ => wellFormed m)
      (eachState_of_invariant (P:=fun _ => True) (fun _ _ _ => trivial) trivial calls)
  · exact eachStep_of_invariant hunique (fun _ call hu => framed_of_unique hu call)
      represents_empty.unique calls

end NetworkLayer.SocketMaps
