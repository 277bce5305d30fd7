import NetworkLayer.FifoFiles
import NetworkLayer.PortExclusivity

/-!
# A port after its socket was removed

Binding makes two end fifos, one for each direction. Removal by the manager
unlinks the one it writes to. The other one is left to the client, so where no
client closes its socket it stays, and the next bind of the port trips over it.
-/

namespace NetworkLayer.PortReuse

open ByteStrings FormattedText UtilTypes Hashmap FifoUtils TcpPackets TcpCodec IpPackets
open PacketHandlers SocketPasses SocketSteps PacketDispatch FifoFiles SocketRequests TableMoves
open UniqueKeys PortExclusivity StepRuns

/-- The fifo that a client reads the end of its socket from, which is bound to
the port. -/
def endRead (manager : NetworkManager) (port : ℤ) : FifoName :=
  getEndFifoReadEndName (boundId manager port)

/-- The port's own key has a closed socket. -/
def StaysClosed (port : ℤ) (manager : NetworkManager) : Prop :=
  ∃ s,manager.sockets.getSocket (boundId manager port)=some s ∧ s.state=.closed

/-- Nothing else touches the end fifo of the port: clients leave it alone, and
no packet comes from the empty port, which is in the names of bound sockets. -/
def Untouched (libc : Libc) (port : ℤ) (manager : NetworkManager) : Request → Prop
  | .clients files => files (endRead manager port)=manager.files (endRead manager port)
  | .packet _ packet => ∀ tcpPacket,packet.data.bind (strToTcp libc)=some tcpPacket →
      tcpPacket.srcPort≠emptyPort
  | _ => True

/-- The request is no bind request for the port. -/
def BindsOther (libc : Libc) (port : ℤ) (request : Request) : Prop :=
  ∀ env bindRequest,request=.bind env bindRequest →
    (scanBindRequest libc bindRequest).map Prod.fst≠some port

/-- No fifo of another kind has the name of an end fifo's read end. -/
theorem endReadName_ne (id id' : SocketID) :
    getEndFifoReadEndName id≠getEndFifoWriteEndName id' ∧
      getEndFifoReadEndName id≠getListenFifoReadEndName id' ∧
      getEndFifoReadEndName id≠getListenFifoWriteEndName id' ∧
      getEndFifoReadEndName id≠getAcceptFifoWriteEndName id' ∧
      getEndFifoReadEndName id≠getSocketSendFifoName id' ∧
      getEndFifoReadEndName id≠getSocketRecvFifoName id' :=
  -- the places where the stems differ, and the characters there
  ⟨fifoName_ne_of_stem (k:=20) (a:=114) (b:=119) (by decide) (by decide) (by decide) id id',
    fifoName_ne_of_stem (k:=9) (a:=101) (b:=108) (by decide) (by decide) (by decide) id id',
    fifoName_ne_of_stem (k:=9) (a:=101) (b:=108) (by decide) (by decide) (by decide) id id',
    fifoName_ne_of_stem (k:=9) (a:=101) (b:=97) (by decide) (by decide) (by decide) id id',
    fifoName_ne_of_stem (k:=9) (a:=101) (b:=111) (by decide) (by decide) (by decide) id id',
    fifoName_ne_of_stem (k:=9) (a:=101) (b:=105) (by decide) (by decide) (by decide) id id'⟩

/-- On one ip no two identities have the same read end. -/
theorem endReadName_injective {id id' : SocketID} (hip : id.srcIp=id'.srcIp)
    (h : getEndFifoReadEndName id=getEndFifoReadEndName id') : id=id' := by
  unfold getEndFifoReadEndName at h
  exact fifoName_injective hip h

/-- And none with different ports of the partner. -/
theorem endReadName_ne_of_dstPort {id id' : SocketID} (h : id.dstPort≠id'.dstPort) :
    getEndFifoReadEndName id≠getEndFifoReadEndName id' :=
  fun he => h (fifoName_split he).1

/-- Making the end fifos of another identity leaves the file alone. -/
theorem createSocketEndFifos_other (env : Env) (files : Files) {id id' : SocketID}
    (hne : getEndFifoReadEndName id≠getEndFifoReadEndName id') :
    (createSocketEndFifos env files id').2 (getEndFifoReadEndName id)=
      files (getEndFifoReadEndName id) := by
  have hwrite := (endReadName_ne id id').1
  rcases createSocketEndFifos_files env files id' with ⟨_,_,hfiles⟩|⟨_,_,hfiles⟩
  · rw [hfiles,Function.update_of_ne hwrite,Function.update_of_ne hne]
  · rw [hfiles,foldl_unlink,if_neg (by simp [hne,hwrite])]

/-- Removing a socket unlinks other kinds of fifos only. -/
theorem removeAndDestroySocket_endRead (manager : NetworkManager) (sockId id : SocketID) :
    (removeAndDestroySocket manager sockId).files (getEndFifoReadEndName id)=
      manager.files (getEndFifoReadEndName id) := by
  unfold removeAndDestroySocket
  split
  · rfl
  · next s _ =>
    obtain ⟨hwrite,_,_,haccept,hsend,hrecv⟩ := endReadName_ne id s.id
    simp only [unlinkSocketFifosServerSide]
    rw [foldl_unlink,if_neg (by simp [hwrite,haccept,hsend,hrecv])]

/-- A listening socket touches the fifos of the connection it makes only. -/
theorem handlePacketListen_endRead (env : Env) (manager : NetworkManager) (s : Socket)
    (packet : TCPPacket) (srcIp : CString) {id : SocketID}
    (hne : getEndFifoReadEndName id≠getEndFifoReadEndName (connectionId s packet srcIp)) :
    (handlePacketListen env manager s packet srcIp).manager.files (getEndFifoReadEndName id)=
      manager.files (getEndFifoReadEndName id) := by
  have hcreated := createSocketEndFifos_other env manager.files hne
  obtain ⟨hwrite,hlisten,hlisten',haccept,hsend,hrecv⟩ :=
    endReadName_ne id (connectionId s packet srcIp)
  rw [handlePacketListen_eq]
  split
  · rfl
  split
  · rfl
  dsimp only
  split
  · exact hcreated
  split
  · simp only [quiet_manager,unlinkSocketFifos]
    rw [foldl_unlink,if_neg (by simp [hwrite,hlisten,hlisten',haccept,hsend,hrecv,hne]),hcreated]
  · exact hcreated

/-- Only listening and connecting sockets touch anything but themselves. -/
theorem handlePacket_manager (env : Env) (manager : NetworkManager) {s : Socket}
    (packet : TCPPacket) (srcIp : CString) (hl : s.state≠.listen) (hsyn : s.state≠.synSent) :
    (handlePacket env manager s packet srcIp).manager=manager := by
  unfold handlePacket
  split
  · rfl
  split
  · rfl
  cases hstate : s.state with
  | listen => exact absurd hstate hl
  | synSent => exact absurd hstate hsyn
  | closed | closeWait | timeWait => rfl
  | synReceived =>
    simp only [handlePacketSynReceived]
    split
    · rfl
    split
    · rfl
    split <;> rfl
  | established =>
    simp only [handlePacketEstablished]
    split
    · rfl
    split
    · rfl
    split <;> rfl
  | lastAck =>
    simp only [handlePacketLastAck]
    split
    · rfl
    split <;> rfl
  | closing =>
    simp only [handlePacketClosing]
    split <;> rfl
  | finWait2 =>
    simp only [handlePacketFinWait2]
    split <;> rfl
  | finWait1 =>
    simp only [handlePacketFinWait1]
    split
    · split <;> rfl
    · rfl

/-- A packet from a port that is not empty leaves the end fifos of bound
sockets alone. -/
theorem handlePacket_endRead (env : Env) (manager : NetworkManager) (s : Socket)
    (packet : TCPPacket) (srcIp : CString) {id : SocketID} (hempty : id.dstPort=emptyPort)
    (hport : packet.srcPort≠emptyPort) :
    (handlePacket env manager s packet srcIp).manager.files (getEndFifoReadEndName id)=
      manager.files (getEndFifoReadEndName id) := by
  have hdst : id.dstPort≠packet.srcPort := by
    rw [hempty]
    exact hport.symm
  by_cases hl : s.state=.listen
  · rw [handlePacket,if_neg (fun h => h.2 hl),if_neg (fun h => h.1 hl),hl]
    exact handlePacketListen_endRead env manager s packet srcIp (endReadName_ne_of_dstPort hdst)
  by_cases hsyn : s.state=.synSent
  swap
  · rw [handlePacket_manager env manager packet srcIp hl hsyn]
  by_cases hrst : packet.has rstFlag=true
  · rw [handlePacket,if_pos ⟨hrst,hl⟩]
    rfl
  rw [handlePacket,if_neg (fun h => hrst h.1)]
  by_cases hown : packet.srcPort=s.id.dstPort
  swap
  · rw [if_pos ⟨hl,hown⟩]
    rfl
  rw [if_neg (fun h => h.2 hown),hsyn]
  have hne : getEndFifoReadEndName id≠getEndFifoReadEndName s.id :=
    endReadName_ne_of_dstPort (hown ▸ hdst)
  have hcreated := createSocketEndFifos_other env manager.files hne
  have hnotified : (notifyConnectClient env manager s).2.files (getEndFifoReadEndName id)=
      manager.files (getEndFifoReadEndName id) := by
    unfold notifyConnectClient
    dsimp only
    split <;> exact hcreated
  simp only [handlePacketSynSent]
  split
  · rfl
  split
  · rfl
  split <;> exact hnotified

/-- The same of an incoming packet. -/
theorem handleIncomingIpPacket_endRead (libc : Libc) (env : Env) (manager : NetworkManager)
    {packet : IPPacket} {id : SocketID} (hempty : id.dstPort=emptyPort)
    (hports : ∀ tcpPacket,packet.data.bind (strToTcp libc)=some tcpPacket →
      tcpPacket.srcPort≠emptyPort) :
    (handleIncomingIpPacket libc env manager packet).manager.files (getEndFifoReadEndName id)=
      manager.files (getEndFifoReadEndName id) := by
  have hover : ∀ i key tcpPacket,tcpPacket.srcPort≠emptyPort →
      (handOver env manager i key tcpPacket).manager.files (getEndFifoReadEndName id)=
        manager.files (getEndFifoReadEndName id) := by
    intro i key tcpPacket hport
    unfold handOver
    split
    · rfl
    · exact handlePacket_endRead env manager _ tcpPacket key.srcIp hempty hport
  unfold handleIncomingIpPacket
  split
  · rfl
  split
  · rfl
  split
  · rfl
  next tcpPacket hdecoded =>
  split
  · rfl
  unfold dispatch
  split
  · exact hover _ _ _ (hports _ hdecoded)
  split
  · exact hover _ _ _ (hports _ hdecoded)
  · rfl

/-- Binding makes the end fifos and touches no other file. -/
theorem bindNewSocket_files (env : Env) (manager : NetworkManager) (sockId : SocketID) :
    (bindNewSocket env manager sockId).2.files=
      (createSocketEndFifos env manager.files sockId).2 := by
  unfold bindNewSocket createBoundSocket
  by_cases hcreated : (createSocketEndFifos env manager.files sockId).1=true
  · simp only [if_pos hcreated]
    split <;> rfl
  · simp only [if_neg hcreated]

/-- Binding another port leaves the end fifo of this one alone, and so does a
request for this one while its key is taken. -/
theorem handleBindRequest_endRead (libc : Libc) (env : Env) (manager : NetworkManager)
    (request : CString) {port : ℤ}
    (hother : (scanBindRequest libc request).map Prod.fst≠some port ∨
      manager.sockets.getSocket (boundId manager port)≠none) :
    (handleBindRequest libc env manager request).manager.files (endRead manager port)=
      manager.files (endRead manager port) := by
  unfold handleBindRequest
  split
  · rfl
  next port' pid socketCounter hscan =>
  dsimp only
  by_cases hcan : canBindNewSocket manager (boundId manager port')=true
  swap
  · rw [if_neg hcan]
    rfl
  rw [if_pos hcan]
  have hport : port≠port' := by
    rintro rfl
    rcases hother with h|h
    · exact h (by rw [hscan]; rfl)
    · exact h (by simpa [canBindNewSocket] using hcan)
  have hne : getEndFifoReadEndName (boundId manager port)≠
      getEndFifoReadEndName (boundId manager port') := by
    intro he
    have hid : boundId manager port=boundId manager port' := endReadName_injective rfl he
    exact hport (congrArg SocketID.srcPort hid)
  have hbound : (bindNewSocket env manager (boundId manager port')).2.files
      (endRead manager port)=manager.files (endRead manager port) := by
    rw [bindNewSocket_files]
    exact createSocketEndFifos_other env manager.files hne
  split
  · exact hbound
  split
  · exact hbound
  · exact (removeAndDestroySocket_endRead _ _ _).trans hbound

/-- A request that does not touch the end fifo of the port leaves it alone,
while the port's key is taken or nobody binds it. -/
theorem managerStep_endRead (libc : Libc) {manager : NetworkManager} {request : Request}
    {port : ℤ} (huntouched : Untouched libc port manager request)
    (hother : BindsOther libc port request ∨
      manager.sockets.getSocket (boundId manager port)≠none) :
    (managerStep libc manager request).files (endRead manager port)=
      manager.files (endRead manager port) := by
  have hpass : ∀ (pass : Socket → Passed) sockId,
      (servePass pass manager sockId).manager.files=manager.files := by
    intro pass sockId
    unfold servePass
    split <;> rfl
  cases request with
  | bind env request =>
    refine handleBindRequest_endRead libc env manager request (hother.imp_left ?_)
    exact fun h => h env request rfl
  | packet env packet =>
    exact handleIncomingIpPacket_endRead libc env manager rfl huntouched
  | clients files => exact huntouched
  | sendWindow env sockId => exact congrFun (hpass _ sockId) _
  | statusMessages env sockId => exact congrFun (hpass _ sockId) _
  | connect env sockId request =>
    refine congrFun (g:=manager.files) ?_ _
    simp only [managerStep,serve,checkAndHandleConnectRequest]
    split
    · split
      · rfl
      split
      · rfl
      split
      · rfl
      split <;> rfl
    · rfl
  | listen env sockId request =>
    have hkind := (endReadName_ne (boundId manager port) sockId).2.2.2.1
    simp only [managerStep,serve,checkAndHandleListenRequest]
    split
    · split
      · rfl
      · simp only [returned,storeSocket,mkfifo]
        split
        · exact Function.update_of_ne hkind true manager.files
        · rfl
    · rfl
  | endFifo env sockId command =>
    have hclosed : ∀ other s,other.files=manager.files →
        (checkAndHandleClosedSocket env other s).manager.files (endRead manager port)=
          manager.files (endRead manager port) := by
      intro other s hfiles
      unfold checkAndHandleClosedSocket
      split
      · exact (removeAndDestroySocket_endRead _ _ _).trans (congrFun hfiles _)
      · exact congrFun hfiles _
    simp only [managerStep,serve,checkAndHandleSocketEndFifo]
    split
    · rfl
    split
    · exact hclosed _ _ rfl
    · exact hclosed _ _ rfl

/-- The end fifo of the port is there. -/
def EndFifoLeft (ip : CString) (port : ℤ) (manager : NetworkManager) : Prop :=
  manager.ip=ip ∧ manager.files (endRead manager port)=true

/-- It stays there through every request that leaves it alone. -/
theorem EndFifoLeft.step {libc : Libc} {ip : CString} {port : ℤ} {manager : NetworkManager}
    {request : Request} (h : EndFifoLeft ip port manager)
    (huntouched : Untouched libc port manager request)
    (hother : BindsOther libc port request ∨
      manager.sockets.getSocket (boundId manager port)≠none) :
    EndFifoLeft ip port (managerStep libc manager request) := by
  have hip := managerStep_ip libc manager request
  have hname : endRead (managerStep libc manager request) port=endRead manager port := by
    rw [endRead,endRead,boundId,boundId,hip]
  exact ⟨hip.trans h.1,by rw [hname,managerStep_endRead libc huntouched hother,h.2]⟩

/-- A bind that is granted makes it. -/
theorem endFifoLeft_of_granted {libc : Libc} {env : Env} {manager : NetworkManager}
    {request : CString} {port : ℤ} (h : Granted libc env manager request port) :
    EndFifoLeft manager.ip port (managerStep libc manager (.bind env request)) := by
  obtain ⟨pid,socketCounter,hscan,hcan,hfifos,hroom,hreplied⟩ :=
    (granted_iff libc env manager request port).mp h
  have hip := managerStep_ip libc manager (.bind env request)
  have hbound := (bindNewSocket_iff_of_canBind env hcan).mpr ⟨hfifos,hroom⟩
  have hstep : managerStep libc manager (.bind env request)=
      (bindNewSocket env manager (boundId manager port)).2 := by
    simp only [managerStep,serve,handleBindRequest,hscan,if_pos hcan,hbound,ne_eq,
      not_true_eq_false,if_false,if_pos hreplied,returned]
  refine ⟨hip,?_⟩
  rw [endRead,boundId,hip,hstep,bindNewSocket_files]
  rcases createSocketEndFifos_files env manager.files (boundId manager port) with
    ⟨_,_,hfiles⟩|⟨_,hnot,_⟩
  · change (createSocketEndFifos env manager.files (boundId manager port)).2
      (getEndFifoReadEndName (boundId manager port))=true
    rw [hfiles,Function.update_of_ne (endFifoNames_ne _),Function.update_self]
  · exact absurd hfifos hnot

/-- Where it is left, no bind request for the port is granted. -/
theorem EndFifoLeft.not_granted {ip : CString} {port : ℤ} {manager : NetworkManager}
    (h : EndFifoLeft ip port manager) (libc : Libc) (env : Env) (request : CString) :
    ¬Granted libc env manager request port := by
  intro hgranted
  obtain ⟨_,_,_,_,hfifos,_⟩ := (granted_iff libc env manager request port).mp hgranted
  have hfree := hfifos.1.2
  have hleft := h.2
  rw [endRead,hfree] at hleft
  cases hleft

/-- A run of a manager in which a socket is bound to a port, stays closed for
so long that the manager removes it, and the port is not bound again. -/
structure BoundAndRemoved (libc : Libc) (manager : NetworkManager) (port : ℤ) where
  /-- What the world answers to the bind request. -/
  env : Env
  /-- The bind request. -/
  request : CString
  /-- It is for the port, and it is granted. -/
  granted : Granted libc env manager request port
  /-- What the manager does while the socket is there. -/
  before : List Request
  /-- The socket stays closed: no listen, connect or close command reaches it. -/
  closed : EachState (managerStep libc) (StaysClosed port)
    (managerStep libc manager (.bind env request)) before
  /-- Nothing else touches its end fifo. -/
  untouched : EachStep (managerStep libc) (Untouched libc port)
    (managerStep libc manager (.bind env request)) before
  /-- What the world answers when the socket is removed. -/
  removalEnv : Env
  /-- It is removed, as a closed socket that is old enough. -/
  removed : removedSlot (run (managerStep libc) manager (.bind env request::before))
    (.endFifo removalEnv (boundId manager port) false)≠none
  /-- What the manager does until the port is requested again. -/
  after : List Request
  /-- Nothing else touches the end fifo. -/
  untouchedAfter : EachStep (managerStep libc)
    (fun manager request => BindsOther libc port request ∧ Untouched libc port manager request)
    (managerStep libc (run (managerStep libc) manager (.bind env request::before))
      (.endFifo removalEnv (boundId manager port) false)) after

/-- All requests of the run. -/
def BoundAndRemoved.requests {libc : Libc} {manager : NetworkManager} {port : ℤ}
    (r : BoundAndRemoved libc manager port) : List Request :=
  .bind r.env r.request::(r.before++.endFifo r.removalEnv (boundId manager port) false::r.after)

/-- After such a run the end fifo of the port is still there. -/
theorem BoundAndRemoved.endFifoLeft {libc : Libc} {manager : NetworkManager} {port : ℤ}
    (r : BoundAndRemoved libc manager port) :
    EndFifoLeft manager.ip port (run (managerStep libc) manager r.requests) := by
  have hbound := endFifoLeft_of_granted r.granted
  have hbefore : EachState (managerStep libc) (EndFifoLeft manager.ip port)
      (managerStep libc manager (.bind r.env r.request)) r.before := by
    refine eachState_of_guarded ?_ hbound (r.untouched.and_state r.closed)
    rintro m request hm ⟨⟨s,hs,_⟩,huntouched⟩
    exact hm.step huntouched (Or.inr (by simp [hs]))
  have hother : BindsOther libc port
      (.endFifo r.removalEnv (boundId manager port) false) := by rintro _ _ ⟨⟩
  have hremoved : EndFifoLeft manager.ip port (managerStep libc
      (run (managerStep libc) manager (.bind r.env r.request::r.before))
      (.endFifo r.removalEnv (boundId manager port) false)) :=
    hbefore.last.step trivial (Or.inl hother)
  have hafter := eachState_of_guarded
    (fun m request hm hc => EndFifoLeft.step hm hc.2 (Or.inl hc.1)) hremoved r.untouchedAfter
  have hlast := hafter.last
  rwa [BoundAndRemoved.requests,run_cons,run_append,run_cons]

/-- The next bind of a port whose socket was removed because it stayed closed
is refused, whatever else was asked for in between. That bind unlinks what is
left of the end fifo, so nothing is said of binds behind it. -/
theorem next_bind_refused {libc : Libc} {manager : NetworkManager} {port : ℤ}
    (r : BoundAndRemoved libc manager port) (env : Env) (request : CString) :
    ¬Granted libc env (run (managerStep libc) manager r.requests) request port :=
  r.endFifoLeft.not_granted libc env request

/-- A manager without sockets and files. -/
def freshManager : NetworkManager := createNetworkManager onesIp fun _ => false

/-- The text of a bind request for port 5000 has no terminator in it. -/
theorem bind5000_nulFree : (0 : Byte)∉text "5000_1_1" := by decide

/-- A client binds port 5000 and does nothing more for ten seconds. -/
def boundFor10Seconds : BoundAndRemoved zeroLibc freshManager 5000 where
  env := smoothEnv 0 none
  request := ⟨text "5000_1_1",bind5000_nulFree⟩
  granted := (granted_iff _ _ _ _ _).mpr
    ⟨1,1,by decide +kernel,by decide +kernel,⟨⟨rfl,rfl⟩,rfl,rfl⟩,by decide +kernel,rfl⟩
  before := []
  closed := by
    have hclosed : ((managerStep zeroLibc freshManager (.bind (smoothEnv 0 none)
        ⟨text "5000_1_1",bind5000_nulFree⟩)).sockets.getSocket
          (boundId freshManager 5000)).map Socket.state=some .closed := by
      decide +kernel
    obtain ⟨s,hs,hstate⟩ := Option.map_eq_some_iff.mp hclosed
    exact ⟨s,hs,hstate⟩
  untouched := trivial
  removalEnv := smoothEnv 10000001 none
  removed := by decide +kernel
  after := []
  untouchedAfter := trivial

/-- The table is empty again, and the next bind request of the port fails. -/
theorem boundFor10Seconds_refused :
    (run (managerStep zeroLibc) freshManager boundFor10Seconds.requests).sockets.numberOfSockets=0 ∧
      (handleBindRequest zeroLibc (smoothEnv 10000001 none)
        (run (managerStep zeroLibc) freshManager boundFor10Seconds.requests)
        ⟨text "5000_2_1",by decide⟩).result=-1 ∧
      ¬Granted zeroLibc (smoothEnv 10000001 none)
        (run (managerStep zeroLibc) freshManager boundFor10Seconds.requests)
        ⟨text "5000_2_1",by decide⟩ 5000 :=
  ⟨by decide +kernel,by decide +kernel,boundFor10Seconds.endFifoLeft.not_granted _ _ _⟩

/-- So is one ten seconds later, where that is the next. -/
theorem next_bind_refused_5000 :
    ¬Granted zeroLibc (smoothEnv 20000000 none)
      (run (managerStep zeroLibc) freshManager boundFor10Seconds.requests)
      ⟨text "5000_3_1",by decide⟩ 5000 :=
  next_bind_refused boundFor10Seconds _ _

end NetworkLayer.PortReuse
