import NetworkLayer.BindRequests
import NetworkLayer.FifoNames
import NetworkLayer.SocketMaps
import NetworkLayer.UniqueKeys

/-!
# A connect request gives a socket a new key

The socket is removed from the table, its identity is rewritten, and it is
inserted again. Its own slot is free by then and the new key was looked up
before, so neither call can fail: the request does nothing, or it moves the
socket as a whole. Before that the request is read into a buffer of a fixed
size, which the read does not look at.
-/

namespace NetworkLayer.Rekeying

open ByteStrings CellBlocks FormattedText UtilTypes Hashmap SlotTables SocketMaps FifoUtils
open PacketHandlers PacketDispatch SocketRequests UniqueKeys BindRequests FifoNames

/-- The key of a bound socket together with an address it connects to. -/
def partnerKey (sockId : SocketID) (dstIp : CString) (dstPort : ℤ) : SocketID :=
  ⟨sockId.srcPort,dstPort,sockId.srcIp,dstIp⟩

/-- How many bytes `%s` stores in `dst_ip`, which has `MAX_IP_LENGTH + 1`: the
word before the first underscore, if there is one, and its terminator. -/
def dstIpStored (request : CString) : ℕ :=
  match scanLiteral 95 (request.chars.dropWhile fun b => b != 95),
    scanWord (request.chars.takeWhile fun b => b != 95) with
  | some _,some (word,_) => word.length+1
  | _,_ => 0

/-- What a call of `check_and_handle_connect_request` serves and stores. -/
structure ConnectHandled where
  /-- The value that is returned, and the manager. -/
  served : Served
  /-- How many bytes were stored in `request`. -/
  requestStored : ℕ
  /-- How many bytes were stored in `dst_ip`. -/
  dstIpStored : ℕ

/-- `check_and_handle_connect_request` with the read of the request into its
buffer, once the connect fifo of the socket holds a byte or fails. -/
def handleConnectFifo (libc : Libc) (env : Env) (manager : NetworkManager) (sockId : SocketID)
    (fifo : FifoContent) (request : ℕ → Byte) : ConnectHandled :=
  match pointerTo manager.sockets sockId with
  | none => ⟨returned 0 manager,0,0⟩
  | some (_,sock) =>
    if sock.state≠.closed then ⟨returned 0 manager,0,0⟩
    else
      let read := readMessageUntilChar fifo request 0
      if read.result ≤ 0 then ⟨returned 0 manager,read.stored,0⟩
      else
        let text := CString.ofCells (loadBlock read.buf 0 read.stored)
        ⟨checkAndHandleConnectRequest libc env manager sockId (some text),read.stored,
          dstIpStored text⟩

/-- The request was served by moving the socket under its key with the
address, and by nothing else. -/
structure Rekeyed (env : Env) (manager : NetworkManager) (s : Socket) (dstIp : CString)
    (dstPort : ℤ) (served : Served) : Prop where
  /-- The iteration over the table has to stop. -/
  result : served.result=breakIteration
  /-- Nothing is sent, and no user gets anything. -/
  silent : served.sent=[] ∧ served.toUser=[]
  /-- Of the manager only the table changes. -/
  frame : served.manager.ip=manager.ip ∧ served.manager.files=manager.files
  /-- The socket is found under the new key. -/
  found : served.manager.sockets.getSocket (partnerKey s.id dstIp dstPort)=
    some (connecting env s dstIp dstPort)
  /-- It has this key, and waits for the answer to its SYN. -/
  socket : (connecting env s dstIp dstPort).id=partnerKey s.id dstIp dstPort ∧
    (connecting env s dstIp dstPort).state=.synSent
  /-- It is not found under its old key any more. -/
  left : served.manager.sockets.getSocket s.id=none
  /-- All other keys lead where they led. -/
  others : ∀ key,key≠s.id → key≠partnerKey s.id dstIp dstPort →
    served.manager.sockets.getSocket key=manager.sockets.getSocket key
  /-- The number of entries is the same. -/
  count : served.manager.sockets.numberOfSockets=manager.sockets.numberOfSockets
  /-- Keys are distinct. -/
  unique : served.manager.sockets.KeysUnique
  /-- And the table is well formed. -/
  wellFormed : WellFormed served.manager.sockets

/-- The request of a text stays inside both buffers, and does nothing or moves
the socket under its key with the requested address; where it starts to move
it, neither the removal nor the insertion fails. -/
structure RekeysAtomically (libc : Libc) (env : Env) (manager : NetworkManager) (s : Socket)
    (text : CString) (handled : ConnectHandled) : Prop where
  /-- The text fits `request`. -/
  requestFits : handled.requestStored ≤ maxSocketStringReprSize
  /-- Its ip fits `dst_ip`. -/
  dstIpFits : handled.dstIpStored ≤ maxIpLength+1
  /-- Nothing happens, or the socket moves. -/
  atomic : handled.served=returned 0 manager ∨ ∃ dstIp dstPort,
    scanConnectRequest libc text=some (dstIp,dstPort) ∧
      Rekeyed env manager s dstIp dstPort handled.served
  /-- The failing branches are not reached. -/
  unfailing : ∀ dstIp dstPort,manager.sockets.getSocket (partnerKey s.id dstIp dstPort)=none →
    (manager.sockets.hashmapRemove s.id).1=true ∧
    ((manager.sockets.hashmapRemove s.id).2.insertSocket
      (connecting env s dstIp dstPort)).1=true

/-- A connecting socket has the new key as its identity. -/
theorem connecting_id (env : Env) (s : Socket) (dstIp : CString) (dstPort : ℤ) :
    (connecting env s dstIp dstPort).id=partnerKey s.id dstIp dstPort := rfl

/-- A word is no longer than what it is scanned from. -/
theorem scanWord_length {input word left : List Byte} (h : scanWord input=some (word,left)) :
    word.length ≤ input.length := by
  unfold scanWord at h
  dsimp only at h
  split at h
  · cases h
  · obtain ⟨rfl,_⟩ := Prod.mk.inj (Option.some.inj h)
    exact (List.takeWhile_prefix _).length_le.trans (List.dropWhile_suffix _).length_le

/-- So a short ip part stays inside its array. -/
theorem dstIpStored_le {request : CString} {n : ℕ}
    (h : (request.chars.takeWhile fun b => b != 95).length ≤ n) : dstIpStored request ≤ n+1 := by
  unfold dstIpStored
  split
  next word left _ hword => exact Nat.succ_le_succ ((scanWord_length hword).trans h)
  next => exact Nat.zero_le _

/-- A found socket has the key as its identity, and is what the pointer leads
to. -/
theorem pointerTo_of_getSocket {m : HashMap} {key : SocketID} {s : Socket}
    (hget : m.getSocket key=some s) : s.id=key ∧ ∃ i,pointerTo m key=some (i,s) := by
  obtain ⟨i,hindex,hs⟩ : ∃ i,m.indexOf key=some i ∧ m.table i=some s := by
    rw [HashMap.getSocket_eq] at hget
    exact Option.bind_eq_some_iff.mp hget
  have hpointer : pointerTo m key=some (i,s) := by
    rw [pointerTo,hindex,Option.bind_some,hs,Option.map_some]
  exact ⟨(pointerTo_spec hpointer).2.2,i,hpointer⟩

section

variable {manager : NetworkManager} {sockId : SocketID} {s : Socket}
  (hu : manager.sockets.KeysUnique) (hget : manager.sockets.getSocket sockId=some s)

include hu hget

/-- A socket that was found can be removed, and inserted again under a key
that leads nowhere. -/
theorem remove_insert_lookups {new : Socket} (hfree : manager.sockets.getSocket new.id=none) :
    let removed := manager.sockets.hashmapRemove sockId
    let inserted := removed.2.insertSocket new
    removed.1=true ∧ inserted.1=true ∧
      inserted.2.numberOfSockets=manager.sockets.numberOfSockets ∧
      inserted.2.getSocket=Function.update (Function.update manager.sockets.getSocket sockId none)
        new.id (some new) := by
  intro removed inserted
  have hkey : manager.sockets.hasKey sockId=true := by
    rw [hasKey_eq,hget]
    rfl
  rcases hashmapRemove_lookups hu sockId with ⟨habsent,_⟩|⟨_,hremoved,hcount,hlookup⟩
  · rw [hkey] at habsent
    cases habsent
  have hnone : removed.2.getSocket new.id=none := by
    unfold removed
    rw [hlookup]
    by_cases he : new.id=sockId
    · rw [he,Function.update_self]
    · rw [Function.update_of_ne he,hfree]
  -- the own slot is free, so there is room
  have hroom : removed.2.numberOfSockets≠hashMapDefaultSize := by
    have hle := occupied_le manager.sockets.table
    have hoccupied := manager.sockets.numberOfSockets_eq
    unfold removed
    omega
  rcases insertSocket_lookups (hu.hashmapRemove sockId) new with
    ⟨_,htaken|hfull⟩|⟨hinserted,_,_,hcount',hlookup'⟩
  · rw [hasKey_eq,hnone] at htaken
    cases htaken
  · exact absurd hfull hroom
  · refine ⟨hremoved,hinserted,?_,by rw [hlookup',hlookup]⟩
    unfold inserted removed
    omega

/-- A connect request of a closed socket does nothing, or it moves the socket
under its key with the requested address. Where it starts to move it, neither
the removal nor the insertion fails. -/
theorem connectRequest_atomic (hclosed : s.state=.closed) (libc : Libc) (env : Env)
    (request : Option CString) :
    let served := checkAndHandleConnectRequest libc env manager sockId request
    (served=returned 0 manager ∨ ∃ dstIp dstPort,
      request.bind (scanConnectRequest libc)=some (dstIp,dstPort) ∧
        Rekeyed env manager s dstIp dstPort served) ∧
    ∀ dstIp dstPort,manager.sockets.getSocket (partnerKey sockId dstIp dstPort)=none →
      (manager.sockets.hashmapRemove sockId).1=true ∧
      ((manager.sockets.hashmapRemove sockId).2.insertSocket
        (connecting env s dstIp dstPort)).1=true := by
  intro served
  obtain ⟨rfl,i,hpointer⟩ := pointerTo_of_getSocket hget
  refine ⟨?_,fun dstIp dstPort hfree => ?_⟩
  swap
  · have hkey : manager.sockets.getSocket (connecting env s dstIp dstPort).id=none := hfree
    obtain ⟨hremoved,hinserted,_⟩ := remove_insert_lookups hu hget hkey
    exact ⟨hremoved,hinserted⟩
  unfold served checkAndHandleConnectRequest
  rw [hpointer]
  cases hscan : request.bind (scanConnectRequest libc) with
  | none => exact Or.inl rfl
  | some address =>
    obtain ⟨dstIp,dstPort⟩ := address
    simp only [hclosed,ne_eq,not_true_eq_false,if_false]
    by_cases hpresent : (manager.sockets.getSocket
        {s.id with dstIp := dstIp,dstPort := dstPort}).isSome=true
    · rw [if_pos hpresent]
      exact Or.inl rfl
    rw [if_neg hpresent]
    have hfree : manager.sockets.getSocket (connecting env s dstIp dstPort).id=none :=
      Option.not_isSome_iff_eq_none.mp hpresent
    obtain ⟨hremoved,hinserted,hcount,hlookup⟩ := remove_insert_lookups hu hget hfree
    have hne : s.id≠(connecting env s dstIp dstPort).id := by
      intro he
      rw [←he,hget] at hfree
      cases hfree
    rw [if_neg (by simp [hremoved]),if_pos hinserted]
    refine Or.inr ⟨dstIp,dstPort,rfl,rfl,⟨rfl,rfl⟩,⟨rfl,rfl⟩,?_,⟨rfl,rfl⟩,?_,?_,hcount,?_,
      wellFormed _⟩
    · simp only [returned,hlookup]
      exact Function.update_self _ _ _
    · simp only [returned,hlookup]
      rw [Function.update_of_ne hne,Function.update_self]
    · intro key hkey hkey'
      simp only [returned,hlookup]
      rw [connecting_id,Function.update_of_ne hkey',Function.update_of_ne hkey]
    · exact (hu.hashmapRemove s.id).insertSocket _

/-- Where the part before the first underscore is no longer than an ip, a
request is served atomically and inside its buffers exactly if its text,
terminator included, is no longer than `request`. -/
theorem rekeying_atomic_iff (hclosed : s.state=.closed) (libc : Libc) (env : Env) {text : CString}
    (hip : (text.chars.takeWhile fun b => b != 95).length ≤ maxIpLength) (rest : List Byte)
    (ending : ReadEnd) (request : ℕ → Byte) :
    RekeysAtomically libc env manager s text
        (handleConnectFifo libc env manager sockId ⟨text.chars++0::rest,ending⟩ request) ↔
      text.strlen < maxSocketStringReprSize := by
  obtain ⟨rfl,i,hpointer⟩ := pointerTo_of_getSocket hget
  have hbytes : (⟨text.chars++0::rest,ending⟩ : FifoContent).bytes=text.chars++0::rest := rfl
  have hread := readMessageUntilChar_of_message text.nulFree hbytes request
  have hpositive : ¬((text.chars++[0]).length : ℤ) ≤ 0 := by
    rw [List.length_append,List.length_singleton]
    omega
  have htext : CString.ofCells (text.chars++[0])=text :=
    CString.ext (CString.ofCells_terminated text.nulFree)
  have hhandled : handleConnectFifo libc env manager s.id ⟨text.chars++0::rest,ending⟩ request=
      ⟨checkAndHandleConnectRequest libc env manager s.id (some text),text.strlen+1,
        dstIpStored text⟩ := by
    rw [handleConnectFifo,hpointer]
    simp only [hclosed,ne_eq,not_true_eq_false,if_false,hread,if_neg hpositive,
      loadBlock_storeBlock,htext]
    rw [List.length_append,List.length_singleton]
    rfl
  rw [hhandled]
  constructor
  · exact fun h => h.requestFits
  · intro hfits
    obtain ⟨hatomic,hunfailing⟩ := connectRequest_atomic hu hget hclosed libc env (some text)
    exact ⟨hfits,dstIpStored_le hip,hatomic,hunfailing⟩

end

/-- A manager with one socket, bound to port 5000. -/
def managerBound : NetworkManager :=
  ⟨onesIp,(createHashMap.insertSocket (createNewSocket 0 (key5000 emptyIp emptyPort) .closed)).2,
    fun _ => false⟩

/-- It is asked to connect to port 6000. -/
theorem rekeying_atomic_iff_bound :
    let s := createNewSocket 0 (key5000 emptyIp emptyPort) .closed
    let request : CString := ⟨text "1111111111111111_6000",by decide⟩
    RekeysAtomically zeroLibc (smoothEnv 0 none) managerBound s request
        (handleConnectFifo zeroLibc (smoothEnv 0 none) managerBound s.id
          ⟨request.chars++0::[],.again⟩ fun _ => 0) ↔
      request.strlen < maxSocketStringReprSize := by
  have hu : managerBound.sockets.KeysUnique :=
    HashMap.KeysUnique.insertSocket (m:=createHashMap) distinctKeys_empty _
  exact rekeying_atomic_iff hu (hu.getSocket_self (i:=0) rfl) rfl _ _ (by decide) _ _ _

/-- A proper ip with a port of a hundred digits. -/
def longRequest : CString :=
  ⟨text "1111111111111111_"++List.replicate 100 49,by decide⟩

/-- It does not fit the buffer. -/
theorem longRequest_overruns :
    let s := createNewSocket 0 (key5000 emptyIp emptyPort) .closed
    (longRequest.chars.takeWhile fun b => b != 95).length=maxIpLength ∧
    ¬RekeysAtomically zeroLibc (smoothEnv 0 none) managerBound s longRequest
      (handleConnectFifo zeroLibc (smoothEnv 0 none) managerBound s.id
        ⟨longRequest.chars++0::[],.again⟩ fun _ => 0) := by
  refine ⟨by decide,fun h => ?_⟩
  exact absurd h.requestFits (by decide +kernel)

end NetworkLayer.Rekeying
