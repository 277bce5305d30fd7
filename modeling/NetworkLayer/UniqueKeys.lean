import NetworkLayer.SocketRequests
import NetworkLayer.StepRuns

/-!
# Unique keys in the socket table

Insertion refuses a key that is there, and all requests insert; only the close
command on a connecting socket writes a key in place. It gives the socket its
bound identity back without looking whether another socket was bound to the
port in the meantime. Every other step of the manager keeps keys unique, and
with them lookup and removal find the socket that is meant.
-/

namespace NetworkLayer.UniqueKeys

open ByteStrings FormattedText UtilTypes Hashmap SlotTables FifoUtils TcpPackets IpPackets
open PacketHandlers SocketPasses PacketDispatch SocketRequests StepRuns

/-- The table identifies its sockets: keys are unique, a stored socket is what
its own key finds, and removal empties its slot. -/
def Identifies (manager : NetworkManager) : Prop :=
  manager.sockets.KeysUnique ∧
    ∀ i socket,manager.sockets.table i=some socket →
      manager.sockets.getSocket socket.id=some socket ∧
        (removeAndDestroySocket manager socket.id).sockets.table=
          Function.update manager.sockets.table i none

/-- A close command is read for a connecting socket while another socket has
the key that the connecting one had when it was bound. -/
def TakesKey (manager : NetworkManager) : Request → Prop
  | .endFifo _ sockId true => ∃ i sock,pointerTo manager.sockets sockId=some (i,sock) ∧
      sock.state=.synSent ∧
      ∃ j other,j≠i ∧ manager.sockets.table j=some other ∧ other.id=sock.id.boundOnly
  | _ => False

/-- Unique keys are all that is needed. -/
theorem identifies_iff (manager : NetworkManager) :
    Identifies manager ↔ manager.sockets.KeysUnique := by
  constructor
  · exact fun h => h.1
  · intro hu
    refine ⟨hu,?_⟩
    intro i socket hsocket
    have hget := hu.getSocket_self hsocket
    have hindex : manager.sockets.indexOf socket.id=some i :=
      hu.indexOf_eq_some_iff.mpr ⟨socket,hsocket,rfl⟩
    refine ⟨hget,?_⟩
    rw [removeAndDestroySocket,hget]
    exact (HashMap.hashmapRemove_of_found hindex).2

section

variable {manager : NetworkManager} (hu : manager.sockets.KeysUnique)

include hu

/-- Removal keeps keys unique. -/
theorem removeAndDestroySocket_unique (sockId : SocketID) :
    (removeAndDestroySocket manager sockId).sockets.KeysUnique := by
  unfold removeAndDestroySocket
  split
  · exact hu
  · exact hu.hashmapRemove sockId

/-- Writes through a pointer that leave the identity alone keep keys unique. -/
theorem storeSocket_unique {i : Fin hashMapDefaultSize} {old socket : Socket}
    (h : manager.sockets.table i=some old) (hid : socket.id=old.id) :
    (storeSocket manager i socket).sockets.KeysUnique :=
  hu.setSocket h hid

/-- Binding inserts. -/
theorem bindNewSocket_unique (env : Env) (sockId : SocketID) :
    (bindNewSocket env manager sockId).2.sockets.KeysUnique := by
  unfold bindNewSocket
  dsimp only
  split
  · exact hu
  · split
    · exact hu.insertSocket _
    · exact hu

theorem handleBindRequest_unique (libc : Libc) (env : Env) (request : CString) :
    (handleBindRequest libc env manager request).manager.sockets.KeysUnique := by
  unfold handleBindRequest
  split
  · exact hu
  · next port pid socketCounter _ =>
    have hbound := bindNewSocket_unique hu env (boundId manager port)
    dsimp only
    split
    · split
      · exact hbound
      · split
        · exact hbound
        · exact removeAndDestroySocket_unique hbound _
    · exact hu

/-- A socket that starts to listen keeps its key. -/
theorem checkAndHandleListenRequest_unique (env : Env) (sockId : SocketID)
    (request : Option Byte) :
    (checkAndHandleListenRequest env manager sockId request).manager.sockets.KeysUnique := by
  unfold checkAndHandleListenRequest
  split
  · next i sock limit hpointer =>
    obtain ⟨_,hstored,_⟩ := pointerTo_spec hpointer
    dsimp only
    split
    · exact hu
    · exact hu.setSocket hstored rfl
  · exact hu

/-- Connecting removes the socket and inserts it under its new key. -/
theorem checkAndHandleConnectRequest_unique (libc : Libc) (env : Env) (sockId : SocketID)
    (request : Option CString) :
    (checkAndHandleConnectRequest libc env manager sockId request).manager.sockets.KeysUnique := by
  have hremoved := hu.hashmapRemove sockId
  unfold checkAndHandleConnectRequest
  split
  · dsimp only
    split
    · exact hu
    split
    · exact hu
    split
    · exact hu
    split
    · exact hremoved.insertSocket _
    · exact hremoved
  · exact hu

/-- A handled packet keeps the key of its socket; a new connection is inserted. -/
theorem handOver_unique (env : Env) (i : Fin hashMapDefaultSize) (key : SocketID)
    (packet : TCPPacket) :
    (handOver env manager i key packet).manager.sockets.KeysUnique := by
  cases hstored : manager.sockets.table i with
  | none =>
    rw [handOver,hstored]
    exact hu
  | some socket =>
    by_cases hl : socket.state=.listen
    · obtain ⟨listener,hid,_,_,⟨htable,_⟩|⟨_,_,hadmits,_,j,hji,hj,htable⟩⟩ :=
        handOver_listen env key packet hstored hl
      · rw [HashMap.KeysUnique,htable]
        exact DistinctKeys.replace hu hstored hid
      · have hnew : DistinctKeys Socket.id (Function.update manager.sockets.table j
            (some (newConnection env socket packet key.srcIp))) := by
          refine (hu.update_iff j _).mpr ?_
          intro k other _ hother
          exact HashMap.ne_id_of_hasKey_false hadmits.2.2 hother
        rw [HashMap.KeysUnique,htable]
        refine hnew.replace (a:=socket) ?_ hid
        rw [Function.update_of_ne hji.symm,hstored]
    · obtain ⟨htable,hid,_⟩ := handOver_other env key packet hstored hl
      rw [HashMap.KeysUnique,htable]
      exact DistinctKeys.replace hu hstored hid

theorem dispatch_unique (env : Env) (id : SocketID) (packet : TCPPacket) :
    (dispatch env manager id packet).manager.sockets.KeysUnique := by
  unfold dispatch
  split
  · exact handOver_unique hu env _ _ packet
  · split
    · exact handOver_unique hu env _ _ packet
    · exact hu

theorem handleIncomingIpPacket_unique (libc : Libc) (env : Env) (packet : IPPacket) :
    (handleIncomingIpPacket libc env manager packet).manager.sockets.KeysUnique := by
  unfold handleIncomingIpPacket
  split
  · exact hu
  split
  · exact hu
  split
  · exact hu
  split
  · exact hu
  · exact dispatch_unique hu env _ _

/-- A timer pass keeps the key of its socket. -/
theorem servePass_unique {pass : Socket → Passed} (hpass : ∀ sock,(pass sock).socket.id=sock.id)
    (sockId : SocketID) : (servePass pass manager sockId).manager.sockets.KeysUnique := by
  unfold servePass
  split
  · exact hu
  · next i sock hpointer =>
    obtain ⟨_,hstored,_⟩ := pointerTo_spec hpointer
    exact storeSocket_unique hu hstored (hpass sock)

theorem checkAndHandleClosedSocket_unique (env : Env) (sock : Socket) :
    (checkAndHandleClosedSocket env manager sock).manager.sockets.KeysUnique := by
  unfold checkAndHandleClosedSocket
  split
  · exact removeAndDestroySocket_unique hu _
  · exact hu

/-- Looking at the end fifo keeps keys unique exactly if no close command takes
a key that another socket has. -/
theorem checkAndHandleSocketEndFifo_unique_iff (env : Env) (sockId : SocketID) (command : Bool) :
    (checkAndHandleSocketEndFifo env manager sockId command).manager.sockets.KeysUnique ↔
      ¬TakesKey manager (.endFifo env sockId command) := by
  unfold checkAndHandleSocketEndFifo
  cases hpointer : pointerTo manager.sockets sockId with
  | none =>
    cases command <;> simp [TakesKey,hpointer,hu,returned]
  | some pointer =>
    obtain ⟨i,sock⟩ := pointer
    obtain ⟨_,hstored,_⟩ := pointerTo_spec hpointer
    cases command with
    | false =>
      simp only [Bool.false_eq_true,if_false,TakesKey,not_false_eq_true,iff_true]
      exact checkAndHandleClosedSocket_unique hu env sock
    | true =>
      have hopen : (checkAndHandleClosedSocket env (storeSocket manager i (closeCommand env sock))
          (closeCommand env sock)).manager=storeSocket manager i (closeCommand env sock) := by
        rw [checkAndHandleClosedSocket,if_neg (by rintro ⟨h,_⟩; cases h)]
        rfl
      have hiff := hu.setSocket_iff hstored (closeCommand env sock)
      simp only [if_true]
      rw [hopen]
      refine hiff.trans ?_
      by_cases hsyn : sock.state=.synSent
      · have hid : (closeCommand env sock).id=sock.id.boundOnly := by
          rw [closeCommand]
          exact if_pos hsyn
        rw [hid]
        simp only [TakesKey,hpointer,Option.some.injEq,Prod.mk.injEq]
        constructor
        · rintro hall ⟨i',sock',⟨rfl,rfl⟩,_,j,other,hj,hother,hkey⟩
          exact hall j other hj hother hkey
        · intro hnot j other hj hother hkey
          exact hnot ⟨i,sock,⟨rfl,rfl⟩,hsyn,j,other,hj,hother,hkey⟩
      · have hid : (closeCommand env sock).id=sock.id := by
          rw [closeCommand]
          exact if_neg hsyn
        rw [hid]
        simp only [TakesKey,hpointer,Option.some.injEq,Prod.mk.injEq]
        constructor
        · rintro _ ⟨i',sock',⟨rfl,rfl⟩,hstate,_⟩
          exact hsyn hstate
        · intro _ j other hj hother hkey
          exact hj (hu j i other sock hother hstored hkey)

end

/-- One step of the manager keeps keys unique exactly if it takes no key. -/
theorem managerStep_unique_iff (libc : Libc) (manager : NetworkManager) (request : Request)
    (hu : manager.sockets.KeysUnique) :
    (managerStep libc manager request).sockets.KeysUnique ↔ ¬TakesKey manager request := by
  unfold managerStep
  cases request with
  | endFifo env sockId command =>
    exact checkAndHandleSocketEndFifo_unique_iff hu env sockId command
  | bind env request =>
    exact iff_of_true (handleBindRequest_unique hu libc env request) not_false
  | listen env sockId request =>
    exact iff_of_true (checkAndHandleListenRequest_unique hu env sockId request) not_false
  | connect env sockId request =>
    exact iff_of_true (checkAndHandleConnectRequest_unique hu libc env sockId request) not_false
  | packet env packet =>
    exact iff_of_true (handleIncomingIpPacket_unique hu libc env packet) not_false
  | sendWindow env sockId =>
    exact iff_of_true (servePass_unique hu (checkAndHandleSendWindow_id env) sockId) not_false
  | statusMessages env sockId =>
    exact iff_of_true (servePass_unique hu (checkAndHandleOutgoingStatusMessages_id env) sockId)
      not_false
  | clients files => exact iff_of_true hu not_false

/-- On every run of a manager, all states identify their sockets exactly if no
step of the run takes a key. -/
theorem identifies_iff_no_key_taken (libc : Libc) (ip : CString) (files : Files)
    (requests : List Request) :
    EachState (managerStep libc) Identifies (createNetworkManager ip files) requests ↔
      EachStep (managerStep libc) (fun manager request => ¬TakesKey manager request)
        (createNetworkManager ip files) requests := by
  have hstart : Identifies (createNetworkManager ip files) :=
    (identifies_iff _).mpr distinctKeys_empty
  refine eachState_iff_guarded ?_ hstart requests
  intro manager request hidentifies
  rw [identifies_iff]
  exact managerStep_unique_iff libc manager request hidentifies.1

/-- The key of a socket bound to port 5000, or connecting from there. -/
def key5000 (dstIp : CString) (dstPort : ℤ) : SocketID := ⟨5000,dstPort,onesIp,dstIp⟩

/-- A client binds port 5000 and connects; its files vanish, a second client
binds the port, and a close command is read for the first. -/
def rebindRun : List Request :=
  [.bind (smoothEnv 0 none) ⟨text "5000_1_1",by decide⟩,
    .connect (smoothEnv 0 none) (key5000 emptyIp emptyPort)
      (some ⟨text "1111111111111111_6000",by decide⟩),
    .clients fun _ => false,
    .bind (smoothEnv 0 none) ⟨text "5000_2_1",by decide⟩,
    .endFifo (smoothEnv 0 none) (key5000 onesIp 6000) true]

/-- After this run, two sockets have the same key. -/
theorem rebindRun_collides :
    let libc := zeroLibc
    ¬EachState (managerStep libc) Identifies (createNetworkManager onesIp fun _ => false)
      rebindRun := by
  intro libc hall
  have hu := hall.last.1
  have hkeys : (run (managerStep libc) (createNetworkManager onesIp fun _ => false)
      rebindRun).sockets.socketId 0=some (key5000 emptyIp emptyPort) ∧
      (run (managerStep libc) (createNetworkManager onesIp fun _ => false)
        rebindRun).sockets.socketId 1=some (key5000 emptyIp emptyPort) := by
    decide +kernel
  rw [HashMap.socketId_eq,HashMap.socketId_eq] at hkeys
  obtain ⟨first,hfirst,hfirstId⟩ := Option.map_eq_some_iff.mp hkeys.1
  obtain ⟨second,hsecond,hsecondId⟩ := Option.map_eq_some_iff.mp hkeys.2
  exact absurd (hu 0 1 first second hfirst hsecond (hfirstId.trans hsecondId.symm)) (by decide)

end NetworkLayer.UniqueKeys
