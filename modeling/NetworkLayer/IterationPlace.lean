import NetworkLayer.SocketRequests

/-!
# Requests and the iteration

The place of the iteration lies in the socket table itself. The manager serves
its requests while it iterates, but none of them looks at that place or moves
it.
-/

namespace NetworkLayer.IterationPlace

open ByteStrings FormattedText UtilTypes Hashmap SlotTables FifoUtils TcpPackets IpPackets
open PacketHandlers PacketDispatch SocketPasses SocketRequests

/-- The table with its iteration somewhere else. -/
def onCursor (cursor : ℤ) (m : HashMap) : HashMap := {m with iteratorIndex := cursor}

/-- The manager with the iteration over its table somewhere else. -/
def atCursor (cursor : ℤ) (manager : NetworkManager) : NetworkManager :=
  {manager with sockets := onCursor cursor manager.sockets}

/-- What was served, with the iteration somewhere else. -/
def servedAtCursor (cursor : ℤ) (served : Served) : Served :=
  {served with manager := atCursor cursor served.manager}

variable (cursor : ℤ)

/-- An insertion that is not refused takes the first free slot. -/
theorem insertSocket_of_free {m : HashMap} {socket : Socket}
    (hroom : ¬m.numberOfSockets=hashMapDefaultSize) (hkey : ¬m.hasKey socket.id=true)
    {j : Fin hashMapDefaultSize} (hj : freeSlot m.table=some j) :
    m.insertSocket socket=(true,m.fill j (freeSlot_spec hj) socket) := by
  unfold HashMap.insertSocket
  rw [if_neg hroom,if_neg hkey]
  split
  · next hnone =>
    rw [hj] at hnone
    cases hnone
  · next k hk =>
    obtain rfl := Option.some.inj (hj.symm.trans hk)
    rfl

/-- Insertion does not look at the iteration. -/
theorem insertSocket_onCursor (m : HashMap) (socket : Socket) :
    (onCursor cursor m).insertSocket socket=
      ((m.insertSocket socket).1,onCursor cursor (m.insertSocket socket).2) := by
  by_cases hfull : m.numberOfSockets=hashMapDefaultSize
  · have hrefused : ∀ m : HashMap,m.numberOfSockets=hashMapDefaultSize →
        m.insertSocket socket=(false,m) := fun m h => if_pos h
    rw [hrefused m hfull,hrefused (onCursor cursor m) hfull]
  by_cases hkey : m.hasKey socket.id=true
  · have hrefused : ∀ m : HashMap,¬m.numberOfSockets=hashMapDefaultSize →
        m.hasKey socket.id=true → m.insertSocket socket=(false,m) :=
      fun m h hk => (if_neg h).trans (if_pos hk)
    rw [hrefused m hfull hkey,hrefused (onCursor cursor m) hfull hkey]
  have hoccupied : ¬occupied m.table=hashMapDefaultSize := by rwa [←m.numberOfSockets_eq]
  obtain ⟨j,hj⟩ := Option.ne_none_iff_exists'.mp
    (mt (freeSlot_eq_none_iff m.table).mp hoccupied)
  rw [insertSocket_of_free hfull hkey hj]
  exact insertSocket_of_free (m:=onCursor cursor m) hfull hkey hj

/-- Neither does removal. -/
theorem hashmapRemove_onCursor (m : HashMap) (key : SocketID) :
    (onCursor cursor m).hashmapRemove key=
      ((m.hashmapRemove key).1,onCursor cursor (m.hashmapRemove key).2) := by
  have hindex : (onCursor cursor m).removalIndex key=m.removalIndex key := rfl
  unfold HashMap.hashmapRemove
  rw [hindex]
  cases m.removalIndex key with
  | none => rfl
  | some i =>
    by_cases h : (m.table i).isSome=true
    · simp only [dif_pos h,dif_pos (show ((onCursor cursor m).table i).isSome=true from h)]
      rfl
    · simp only [dif_neg h,dif_neg (show ¬((onCursor cursor m).table i).isSome=true from h)]

/-- Neither does a write through a pointer. -/
theorem setSocket_onCursor (m : HashMap) (i) (socket : Socket) :
    (onCursor cursor m).setSocket i socket=onCursor cursor (m.setSocket i socket) := by
  unfold HashMap.setSocket
  by_cases h : (m.table i).isSome=true
  · rw [dif_pos h,dif_pos (show ((onCursor cursor m).table i).isSome=true from h)]
    rfl
  · rw [dif_neg h,dif_neg (show ¬((onCursor cursor m).table i).isSome=true from h)]

theorem storeSocket_atCursor (manager : NetworkManager) (i) (socket : Socket) :
    storeSocket (atCursor cursor manager) i socket=
      atCursor cursor (storeSocket manager i socket) := by
  unfold storeSocket atCursor
  rw [←setSocket_onCursor]

/-- The handlers of packets do not look at it: the one that inserts. -/
theorem handlePacketListen_atCursor (env : Env) (manager : NetworkManager) (socket : Socket)
    (packet : TCPPacket) (srcIp : CString) :
    handlePacketListen env (atCursor cursor manager) socket packet srcIp=
      {handlePacketListen env manager socket packet srcIp with
        manager := atCursor cursor
          (handlePacketListen env manager socket packet srcIp).manager} := by
  have hsockets : (atCursor cursor manager).sockets=onCursor cursor manager.sockets := rfl
  have hfiles : (atCursor cursor manager).files=manager.files := rfl
  simp only [handlePacketListen,hsockets,hfiles,insertSocket_onCursor]
  split
  · rfl
  split
  · rfl
  split
  · rfl
  split <;> rfl

/-- The one that writes to a fifo. -/
theorem handlePacketSynSent_atCursor (env : Env) (manager : NetworkManager) (socket : Socket)
    (packet : TCPPacket) :
    handlePacketSynSent env (atCursor cursor manager) socket packet=
      {handlePacketSynSent env manager socket packet with
        manager := atCursor cursor (handlePacketSynSent env manager socket packet).manager} := by
  have hnotified : notifyConnectClient env (atCursor cursor manager) socket=
      ((notifyConnectClient env manager socket).1,
        atCursor cursor (notifyConnectClient env manager socket).2) := by
    have hfiles : (atCursor cursor manager).files=manager.files := rfl
    simp only [notifyConnectClient,hfiles]
    split <;> rfl
  simp only [handlePacketSynSent,hnotified]
  split
  · rfl
  split
  · rfl
  split <;> rfl

/-- All of them. -/
theorem handlePacket_atCursor (env : Env) (manager : NetworkManager) (socket : Socket)
    (packet : TCPPacket) (srcIp : CString) :
    handlePacket env (atCursor cursor manager) socket packet srcIp=
      {handlePacket env manager socket packet srcIp with
        manager := atCursor cursor (handlePacket env manager socket packet srcIp).manager} := by
  unfold handlePacket
  split
  · rfl
  split
  · rfl
  cases socket.state with
  | listen => exact handlePacketListen_atCursor cursor env manager socket packet srcIp
  | synSent => exact handlePacketSynSent_atCursor cursor env manager socket packet
  | closed => rfl
  | closeWait => rfl
  | timeWait => rfl
  | synReceived =>
    simp only [handlePacketSynReceived]
    split
    · rfl
    split
    · rfl
    split <;> rfl
  | established =>
    simp only [handlePacketEstablished]
    split
    · rfl
    split
    · rfl
    split <;> rfl
  | lastAck =>
    simp only [handlePacketLastAck]
    split
    · rfl
    split <;> rfl
  | finWait1 =>
    simp only [handlePacketFinWait1]
    split
    · split <;> rfl
    · rfl
  | finWait2 =>
    simp only [handlePacketFinWait2]
    split <;> rfl
  | closing =>
    simp only [handlePacketClosing]
    split <;> rfl

theorem handOver_atCursor (env : Env) (manager : NetworkManager) (i : Fin hashMapDefaultSize)
    (id : SocketID) (packet : TCPPacket) :
    handOver env (atCursor cursor manager) i id packet=
      servedAtCursor cursor (handOver env manager i id packet) := by
  have htable : (atCursor cursor manager).sockets.table=manager.sockets.table := rfl
  simp only [handOver,htable,handlePacket_atCursor,storeSocket_atCursor]
  split <;> rfl

theorem dispatch_atCursor (env : Env) (manager : NetworkManager) (id : SocketID)
    (packet : TCPPacket) :
    dispatch env (atCursor cursor manager) id packet=
      servedAtCursor cursor (dispatch env manager id packet) := by
  have hindex : ∀ key,(atCursor cursor manager).sockets.indexOf key=manager.sockets.indexOf key :=
    fun _ => rfl
  simp only [dispatch,hindex,handOver_atCursor]
  split
  · rfl
  split <;> rfl

theorem removeAndDestroySocket_atCursor (manager : NetworkManager) (sockId : SocketID) :
    removeAndDestroySocket (atCursor cursor manager) sockId=
      atCursor cursor (removeAndDestroySocket manager sockId) := by
  have hget : (atCursor cursor manager).sockets.getSocket sockId=
    manager.sockets.getSocket sockId := rfl
  have hsockets : (atCursor cursor manager).sockets=onCursor cursor manager.sockets := rfl
  unfold removeAndDestroySocket
  rw [hget]
  simp only [hsockets,hashmapRemove_onCursor]
  split <;> rfl

theorem bindNewSocket_atCursor (env : Env) (manager : NetworkManager) (sockId : SocketID) :
    bindNewSocket env (atCursor cursor manager) sockId=
      ((bindNewSocket env manager sockId).1,
        atCursor cursor (bindNewSocket env manager sockId).2) := by
  have hsockets : (atCursor cursor manager).sockets=onCursor cursor manager.sockets := rfl
  have hfiles : (atCursor cursor manager).files=manager.files := rfl
  simp only [bindNewSocket,hsockets,hfiles,insertSocket_onCursor]
  split
  · rfl
  · split <;> rfl

/-- Where the iteration over the table is makes no difference to a request. -/
theorem serve_atCursor (libc : Libc) (manager : NetworkManager) (request : Request) :
    serve libc (atCursor cursor manager) request=
      servedAtCursor cursor (serve libc manager request) := by
  have hsockets : (atCursor cursor manager).sockets=onCursor cursor manager.sockets := rfl
  have hpointer : ∀ key,pointerTo (atCursor cursor manager).sockets key=
    pointerTo manager.sockets key := fun _ => rfl
  have hclosed : ∀ env manager socket,
      checkAndHandleClosedSocket env (atCursor cursor manager) socket=
      servedAtCursor cursor (checkAndHandleClosedSocket env manager socket) := by
    intro env manager socket
    simp only [checkAndHandleClosedSocket,removeAndDestroySocket_atCursor]
    split <;> rfl
  have hpass : ∀ (pass : Socket → Passed) sockId,servePass pass (atCursor cursor manager) sockId=
      servedAtCursor cursor (servePass pass manager sockId) := by
    intro pass sockId
    simp only [servePass,hpointer,storeSocket_atCursor]
    split <;> rfl
  cases request with
  | sendWindow env sockId => exact hpass _ sockId
  | statusMessages env sockId => exact hpass _ sockId
  | clients files => rfl
  | bind env request =>
    have hcan : ∀ key,canBindNewSocket (atCursor cursor manager) key=canBindNewSocket manager key :=
      fun _ => rfl
    have hid : ∀ port,boundId (atCursor cursor manager) port=boundId manager port := fun _ => rfl
    simp only [serve,handleBindRequest,hcan,hid,bindNewSocket_atCursor,
      removeAndDestroySocket_atCursor]
    split
    · rfl
    split
    · split
      · rfl
      split <;> rfl
    · rfl
  | listen env sockId request =>
    have hfiles : (atCursor cursor manager).files=manager.files := rfl
    have hmade : ∀ made,{atCursor cursor manager with files := made}=
      atCursor cursor {manager with files := made} := fun _ => rfl
    simp only [serve,checkAndHandleListenRequest,hpointer,hfiles,hmade,storeSocket_atCursor]
    split
    · split <;> rfl
    · rfl
  | connect env sockId request =>
    have hget : ∀ key,(onCursor cursor manager.sockets).getSocket key=
      manager.sockets.getSocket key := fun _ => rfl
    have hslot : ∀ key,pointerTo (onCursor cursor manager.sockets) key=
      pointerTo manager.sockets key := fun _ => rfl
    simp only [serve,checkAndHandleConnectRequest,hsockets,hslot,hget,hashmapRemove_onCursor,
      insertSocket_onCursor]
    split
    · split
      · rfl
      split
      · rfl
      split
      · rfl
      split <;> rfl
    · rfl
  | packet env packet =>
    have hip : (atCursor cursor manager).ip=manager.ip := rfl
    simp only [serve,handleIncomingIpPacket,hip,dispatch_atCursor]
    split
    · rfl
    split
    · rfl
    split
    · rfl
    split <;> rfl
  | endFifo env sockId command =>
    simp only [serve,checkAndHandleSocketEndFifo,hpointer,hclosed,storeSocket_atCursor]
    split
    · rfl
    · split <;> rfl

end NetworkLayer.IterationPlace
