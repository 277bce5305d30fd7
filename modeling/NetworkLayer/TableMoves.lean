import NetworkLayer.SocketRequests
import NetworkLayer.EntryLabels

/-!
# What a request does to the socket table

Every request writes to the socket in one slot, adds or removes one entry, or
moves the one entry that a connect request gives a new key. One relation lists
these moves with all that is known about each; invariants of the table are
derived from it and not from the functions.
-/

namespace NetworkLayer.TableMoves

open ByteStrings FormattedText UtilTypes Hashmap SlotTables FifoUtils TcpPackets TcpCodec IpPackets
open PacketHandlers SocketPasses PacketDispatch SocketRequests

/-- The sockets of a manager by slot. -/
abbrev Slots := Fin hashMapDefaultSize → Option Socket

/-- The slot of the socket that a packet is handed to. -/
def receiver (libc : Libc) (manager : NetworkManager) (packet : IPPacket) :
    Option (Fin hashMapDefaultSize) :=
  (packet.data.bind (strToTcp libc)).bind fun tcpPacket =>
    let id := receiverId packet.srcIp packet.dstIp tcpPacket
    (manager.sockets.indexOf id).or (manager.sockets.indexOf id.boundOnly)

/-- A bind request for the port is well-formed and can be granted: the port's
key is on no socket, the fifos can be made, the table has room and the client
gets its reply. -/
def Grants (libc : Libc) (env : Env) (manager : NetworkManager) (request : CString)
    (port : ℤ) : Prop :=
  ∃ pid socketCounter,scanBindRequest libc request=some (port,pid,socketCounter) ∧
    canBindNewSocket manager (boundId manager port)=true ∧
    EndFifosFree env manager.files (boundId manager port) ∧
    manager.sockets.numberOfSockets≠hashMapDefaultSize ∧
    env.writeWorks (getClientFifoName pid socketCounter)=true

/-- The slot that a look at an end fifo empties: without a close command, that
of a closed socket that is old enough. -/
def removedSlot (manager : NetworkManager) : Request → Option (Fin hashMapDefaultSize)
  | .endFifo env sockId false => (pointerTo manager.sockets sockId).bind fun pointer =>
      if pointer.2.state=.closed ∧ elapsed env pointer.2.creationTime socketTimeout=true then
        some pointer.1
      else none
  | _ => none

/-- The slot of the socket that a connect request moves under a new key. -/
def movedSlot (libc : Libc) (manager : NetworkManager) :
    Request → Option (Fin hashMapDefaultSize)
  | .connect env sockId request =>
    if (checkAndHandleConnectRequest libc env manager sockId request).result=breakIteration then
      manager.sockets.indexOf sockId
    else none
  | _ => none

/-- What serving a request can do to the sockets by slot. -/
inductive TableMove (libc : Libc) (manager : NetworkManager) : Request → Slots → Prop
  /-- Nothing changes. -/
  | same (request : Request) (hstays : removedSlot manager request=none)
    (hmoved : movedSlot libc manager request=none) :
    TableMove libc manager request manager.sockets.table
  /-- A socket is written to. Only a close command changes its key, and only
  the key of a connecting one. -/
  | written (request : Request) (hstays : removedSlot manager request=none)
    (hmoved : movedSlot libc manager request=none)
    (i : Fin hashMapDefaultSize) (s s' : Socket) (hs : manager.sockets.table i=some s)
    (hid : s'.id=s.id ∨ s.state=.synSent ∧ s'.id=s.id.boundOnly)
    (hlistener : s.state=.listen → s'.state=.listen → s'.maxConnections=s.maxConnections) :
    TableMove libc manager request (Function.update manager.sockets.table i (some s'))
  /-- A bind request is granted. -/
  | bound (env : Env) (request : CString) (port : ℤ) (j : Fin hashMapDefaultSize) (new : Socket)
    (hgrants : Grants libc env manager request port) (hj : manager.sockets.table j=none)
    (hid : new.id=boundId manager port) :
    TableMove libc manager (.bind env request)
      (Function.update manager.sockets.table j (some new))
  /-- A listening socket makes a connection for a packet. -/
  | accepted (env : Env) (packet : IPPacket) (i j : Fin hashMapDefaultSize) (s s' new : Socket)
    (hreceiver : receiver libc manager packet=some i) (hs : manager.sockets.table i=some s)
    (hid : s'.id=s.id) (hlisten : s.state=.listen)
    (hlistener : s'.state=.listen ∧ s'.maxConnections=s.maxConnections-1)
    (hj : manager.sockets.table j=none) :
    TableMove libc manager (.packet env packet)
      (Function.update (Function.update manager.sockets.table j (some new)) i (some s'))
  /-- A connect request moves a closed socket under its new key. -/
  | connected (env : Env) (sockId : SocketID) (request : Option CString)
    (i k : Fin hashMapDefaultSize) (s : Socket) (dstIp : CString) (dstPort : ℤ)
    (hpointer : pointerTo manager.sockets sockId=some (i,s)) (hclosed : s.state=.closed)
    (hmoved : movedSlot libc manager (.connect env sockId request)=some i)
    (hk : k=i ∨ manager.sockets.table k=none) :
    TableMove libc manager (.connect env sockId request)
      (Function.update (Function.update manager.sockets.table i none) k
        (some (connecting env s dstIp dstPort)))
  /-- A closed socket is removed. -/
  | removed (request : Request) (i : Fin hashMapDefaultSize) (s : Socket)
    (hremoved : removedSlot manager request=some i)
    (hmoved : movedSlot libc manager request=none) (hs : manager.sockets.table i=some s)
    (hclosed : s.state=.closed) :
    TableMove libc manager request (Function.update manager.sockets.table i none)

/-- Binding refuses and keeps the table, or it inserts a closed socket: where
the fifos can be made, the table has room and the key is free. -/
theorem bindNewSocket_cases (env : Env) (manager : NetworkManager) (sockId : SocketID) :
    let bound := bindNewSocket env manager sockId
    (bound.1=-1 ∧ bound.2.sockets=manager.sockets ∧
      (EndFifosFree env manager.files sockId →
        manager.sockets.numberOfSockets=hashMapDefaultSize ∨
          manager.sockets.hasKey sockId=true)) ∨
    (bound.1=0 ∧ EndFifosFree env manager.files sockId ∧
      manager.sockets.numberOfSockets≠hashMapDefaultSize ∧
      ∃ j,∃ h : manager.sockets.table j=none,
        bound.2.sockets=manager.sockets.fill j h (createNewSocket env.now sockId .closed)) := by
  intro bound
  have hfifos := createSocketEndFifos_iff env manager.files sockId
  unfold bound bindNewSocket createBoundSocket
  by_cases hcreated : (createSocketEndFifos env manager.files sockId).1=true
  · simp only [if_pos hcreated]
    rcases manager.sockets.insertSocket_cases (createNewSocket env.now sockId .closed) with
      ⟨he,hrefused⟩|⟨j,hj,he,hroom,_⟩
    · rw [if_neg (by simp [he])]
      exact Or.inl ⟨rfl,rfl,fun _ => hrefused⟩
    · rw [if_pos (by simp [he])]
      exact Or.inr ⟨rfl,hfifos.mp hcreated,hroom,j,hj,congrArg Prod.snd he⟩
  · simp only [if_neg hcreated]
    exact Or.inl ⟨trivial,trivial,fun hfree => absurd (hfifos.mpr hfree) hcreated⟩

/-- Taking back a socket that was just inserted restores the table. -/
theorem remove_inserted {manager : NetworkManager} {m : HashMap} {sockId : SocketID}
    {j : Fin hashMapDefaultSize} (hj : m.table j=none) {new : Socket} (hid : new.id=sockId)
    (hfree : m.indexOf sockId=none) (hm : manager.sockets=m.fill j hj new) :
    (removeAndDestroySocket manager sockId).sockets.table=m.table := by
  have htable : manager.sockets.table=Function.update m.table j (some new) := by
    rw [hm]
    rfl
  have hindex : manager.sockets.indexOf sockId=some j := by
    have hstored : manager.sockets.table j=some new := by rw [htable,Function.update_self]
    refine HashMap.indexOf_of_only hstored hid ?_
    intro k other hk hother
    rw [htable,Function.update_of_ne hk] at hother
    exact HashMap.indexOf_eq_none_iff.mp hfree k other hother
  have hget : manager.sockets.getSocket sockId=some new := by
    rw [HashMap.getSocket_eq,hindex,Option.bind_some,htable,Function.update_self]
  rw [removeAndDestroySocket,hget]
  simp only
  rw [(HashMap.hashmapRemove_of_found hindex).2,htable,Function.update_idem,←hj,
    Function.update_eq_self]

/-- A lookup that finds no socket finds no slot. -/
theorem indexOf_of_getSocket_none {m : HashMap} {key : SocketID} (h : m.getSocket key=none) :
    m.indexOf key=none := by
  cases hi : m.indexOf key with
  | none => rfl
  | some i =>
    obtain ⟨s,hs,_⟩ := HashMap.indexOf_spec hi
    rw [HashMap.getSocket_eq,hi,Option.bind_some,hs] at h
    cases h

/-- A key that can be bound is nobody's. -/
theorem indexOf_of_canBind {manager : NetworkManager} {sockId : SocketID}
    (h : canBindNewSocket manager sockId=true) : manager.sockets.indexOf sockId=none :=
  indexOf_of_getSocket_none (by simpa [canBindNewSocket] using h)

/-- It is bound exactly if its fifos can be made and the table has room. -/
theorem bindNewSocket_iff_of_canBind (env : Env) {manager : NetworkManager} {sockId : SocketID}
    (h : canBindNewSocket manager sockId=true) :
    (bindNewSocket env manager sockId).1=0 ↔ EndFifosFree env manager.files sockId ∧
      manager.sockets.numberOfSockets≠hashMapDefaultSize := by
  have hkey : manager.sockets.hasKey sockId=false := by
    rw [HashMap.hasKey,indexOf_of_canBind h]
    rfl
  rcases bindNewSocket_cases env manager sockId with
    ⟨hresult,_,hrefused⟩|⟨hresult,hfifos,hroom,_⟩
  · refine iff_of_false (by simp [hresult]) ?_
    rintro ⟨hfifos,hroom⟩
    rcases hrefused hfifos with hfull|htaken
    · exact hroom hfull
    · rw [hkey] at htaken
      cases htaken
  · exact iff_of_true hresult ⟨hfifos,hroom⟩

/-- A bind request is granted, or it leaves the table as it is. -/
theorem handleBindRequest_move (libc : Libc) (env : Env) (manager : NetworkManager)
    (request : CString) :
    TableMove libc manager (.bind env request)
      (handleBindRequest libc env manager request).manager.sockets.table := by
  have hsame : TableMove libc manager (.bind env request) manager.sockets.table := .same _ rfl rfl
  unfold handleBindRequest
  cases hscan : scanBindRequest libc request with
  | none => exact hsame
  | some numbers =>
    obtain ⟨port,pid,socketCounter⟩ := numbers
    by_cases hcan : canBindNewSocket manager (boundId manager port)=true
    · have hfree := indexOf_of_canBind hcan
      simp only [if_pos hcan]
      rcases bindNewSocket_cases env manager (boundId manager port) with
        ⟨hresult,hsockets,_⟩|⟨hresult,hfifos,hroom,j,hj,hsockets⟩
      · rw [if_pos (by simp [hresult]),returned]
        simp only [hsockets]
        exact hsame
      · rw [if_neg (by simp [hresult])]
        by_cases hreplied : env.writeWorks (getClientFifoName pid socketCounter)=true
        · rw [if_pos hreplied,returned]
          simp only [hsockets]
          exact .bound env request port j _
            ⟨pid,socketCounter,hscan,hcan,hfifos,hroom,hreplied⟩ hj rfl
        · have hback : (removeAndDestroySocket (bindNewSocket env manager (boundId manager port)).2
              (boundId manager port)).sockets.table=manager.sockets.table :=
            remove_inserted hj rfl hfree hsockets
          rw [if_neg hreplied,returned]
          simp only [hback]
          exact hsame
    · simp only [if_neg hcan]
      exact hsame

/-- A listen request writes to a socket that does not listen. -/
theorem checkAndHandleListenRequest_move (libc : Libc) (env : Env) (manager : NetworkManager)
    (sockId : SocketID) (request : Option Byte) :
    TableMove libc manager (.listen env sockId request)
      (checkAndHandleListenRequest env manager sockId request).manager.sockets.table := by
  have hsame : TableMove libc manager (.listen env sockId request) manager.sockets.table :=
    .same _ rfl rfl
  unfold checkAndHandleListenRequest
  split
  · next i s limit hpointer =>
    obtain ⟨_,hs,_⟩ := pointerTo_spec hpointer
    by_cases hlisten : s.state=.listen
    · rw [if_pos hlisten]
      exact hsame
    · rw [if_neg hlisten]
      simp only [returned,storeSocket,HashMap.setSocket_table hs]
      exact .written _ rfl rfl i s _ hs (Or.inl rfl) fun h => absurd h hlisten
  · exact hsame

/-- A removed socket leaves room. -/
theorem numberOfSockets_removed {m : HashMap} {key : SocketID} {i : Fin hashMapDefaultSize}
    (h : m.indexOf key=some i) :
    (m.hashmapRemove key).2.numberOfSockets≠hashMapDefaultSize := by
  obtain ⟨s,hs,_⟩ := HashMap.indexOf_spec h
  have hcount := (m.hashmapRemove key).2.numberOfSockets_eq
  rw [(HashMap.hashmapRemove_of_found h).2] at hcount
  have hclear := occupied_clear m.table hs
  have hle := occupied_le m.table
  omega

/-- Removing the socket of a key keeps other keys free. -/
theorem hasKey_removed {m : HashMap} {key other : SocketID} {i : Fin hashMapDefaultSize}
    (h : m.indexOf key=some i) (hother : m.getSocket other=none) :
    (m.hashmapRemove key).2.hasKey other=false := by
  have hnone := HashMap.indexOf_eq_none_iff.mp (indexOf_of_getSocket_none hother)
  have hindex : (m.hashmapRemove key).2.indexOf other=none := by
    rw [HashMap.indexOf_eq_none_iff,(HashMap.hashmapRemove_of_found h).2]
    intro k s hk
    by_cases hki : k=i
    · subst hki
      rw [Function.update_self] at hk
      cases hk
    · rw [Function.update_of_ne hki] at hk
      exact hnone k s hk
  rw [HashMap.hasKey,hindex]
  rfl

/-- A connect request does nothing, or it moves a closed socket. -/
theorem checkAndHandleConnectRequest_cases (libc : Libc) (env : Env) (manager : NetworkManager)
    (sockId : SocketID) (request : Option CString) :
    let served := checkAndHandleConnectRequest libc env manager sockId request
    served=returned 0 manager ∨
    ∃ i s k dstIp dstPort,request.bind (scanConnectRequest libc)=some (dstIp,dstPort) ∧
      pointerTo manager.sockets sockId=some (i,s) ∧ s.state=.closed ∧
      (k=i ∨ manager.sockets.table k=none) ∧ served.result=breakIteration ∧
      served.manager.sockets.table=Function.update (Function.update manager.sockets.table i none) k
        (some (connecting env s dstIp dstPort)) := by
  intro served
  unfold served checkAndHandleConnectRequest
  cases hpointer : pointerTo manager.sockets sockId with
  | none => exact Or.inl rfl
  | some pointer =>
    obtain ⟨i,s⟩ := pointer
    obtain ⟨hindex,hs,hid⟩ := pointerTo_spec hpointer
    cases hscan : request.bind (scanConnectRequest libc) with
    | none => exact Or.inl rfl
    | some address =>
      obtain ⟨dstIp,dstPort⟩ := address
      simp only
      by_cases hclosed : s.state≠.closed
      · rw [if_pos hclosed]
        exact Or.inl rfl
      rw [if_neg hclosed]
      by_cases hpresent : (manager.sockets.getSocket
          {sockId with dstIp := dstIp,dstPort := dstPort}).isSome=true
      · rw [if_pos hpresent]
        exact Or.inl rfl
      rw [if_neg hpresent]
      obtain ⟨hremoved,htable⟩ := HashMap.hashmapRemove_of_found hindex
      have hkey : (connecting env s dstIp dstPort).id=
          {sockId with dstIp := dstIp,dstPort := dstPort} := by rw [connecting,hid]
      have hfree : (manager.sockets.hashmapRemove sockId).2.hasKey
          (connecting env s dstIp dstPort).id=false := by
        rw [hkey]
        exact hasKey_removed hindex (by simpa using hpresent)
      rw [if_neg (by simp [hremoved])]
      rcases HashMap.insertSocket_cases (manager.sockets.hashmapRemove sockId).2
        (connecting env s dstIp dstPort) with ⟨_,hfull|htaken⟩|⟨k,hk,he,_,_⟩
      · exact absurd hfull (numberOfSockets_removed hindex)
      · rw [hfree] at htaken
        cases htaken
      · have hplace : k=i ∨ manager.sockets.table k=none := by
          by_cases hki : k=i
          · exact Or.inl hki
          · rw [htable,Function.update_of_ne hki] at hk
            exact Or.inr hk
        rw [if_pos (by simp [he])]
        refine Or.inr ⟨i,s,k,dstIp,dstPort,rfl,rfl,by simpa using hclosed,hplace,rfl,?_⟩
        simp only [returned,he,HashMap.fill_table,htable]

/-- A connect request moves the socket, or it leaves the table as it is. -/
theorem checkAndHandleConnectRequest_move (libc : Libc) (env : Env) (manager : NetworkManager)
    (sockId : SocketID) (request : Option CString) :
    TableMove libc manager (.connect env sockId request)
      (checkAndHandleConnectRequest libc env manager sockId request).manager.sockets.table := by
  rcases checkAndHandleConnectRequest_cases libc env manager sockId request with
    h|⟨i,s,k,dstIp,dstPort,_,hpointer,hclosed,hk,hresult,htable⟩
  · have hzero : (0 : ℤ)≠breakIteration := by decide
    rw [h]
    refine .same _ rfl ?_
    rw [movedSlot,h]
    exact if_neg hzero
  · have hmoved : movedSlot libc manager (.connect env sockId request)=some i := by
      rw [movedSlot,if_pos hresult,(pointerTo_spec hpointer).1]
    rw [htable]
    exact .connected env sockId request i k s dstIp dstPort hpointer hclosed hmoved hk

/-- The socket that a packet is handed to is written to, or it listens and
makes a connection. -/
theorem handOver_move (libc : Libc) (env : Env) (manager : NetworkManager) {packet : IPPacket}
    {i : Fin hashMapDefaultSize} {s : Socket} (key : SocketID) (tcpPacket : TCPPacket)
    (hs : manager.sockets.table i=some s) (hreceiver : receiver libc manager packet=some i) :
    TableMove libc manager (.packet env packet)
      (handOver env manager i key tcpPacket).manager.sockets.table := by
  by_cases hl : s.state=.listen
  · obtain ⟨listener,hid,hstate,_,⟨htable,hmax,_⟩|⟨_,_,_,hmax,j,_,hj,htable⟩⟩ :=
      handOver_listen env key tcpPacket hs hl
    · rw [htable]
      exact .written _ rfl rfl i s listener hs (Or.inl hid) fun _ _ => hmax
    · rw [htable]
      exact .accepted env packet i j s listener _ hreceiver hs hid hl ⟨hstate,hmax⟩ hj
  · obtain ⟨htable,hid,_⟩ := handOver_other env key tcpPacket hs hl
    rw [htable]
    exact .written _ rfl rfl i s _ hs (Or.inl hid) fun h => absurd h hl

/-- A packet that is dropped leaves the table as it is. -/
theorem handleIncomingIpPacket_move (libc : Libc) (env : Env) (manager : NetworkManager)
    (packet : IPPacket) :
    TableMove libc manager (.packet env packet)
      (handleIncomingIpPacket libc env manager packet).manager.sockets.table := by
  have hsame : TableMove libc manager (.packet env packet) manager.sockets.table := .same _ rfl rfl
  unfold handleIncomingIpPacket
  split
  · exact hsame
  split
  · exact hsame
  cases hdecoded : packet.data.bind (strToTcp libc) with
  | none => exact hsame
  | some tcpPacket =>
    simp only
    split
    · exact hsame
    have hreceiver : receiver libc manager packet=
        (manager.sockets.indexOf (receiverId packet.srcIp packet.dstIp tcpPacket)).or
          (manager.sockets.indexOf
            (receiverId packet.srcIp packet.dstIp tcpPacket).boundOnly) := by
      rw [receiver,hdecoded,Option.bind_some]
    cases hfound : manager.sockets.indexOf
        (receiverId packet.srcIp packet.dstIp tcpPacket) with
    | some i =>
      obtain ⟨s,hs,_⟩ := HashMap.indexOf_spec hfound
      rw [dispatch_exact env tcpPacket hfound]
      exact handOver_move libc env manager _ tcpPacket hs (by rw [hreceiver,hfound]; rfl)
    | none =>
      cases hbound : manager.sockets.indexOf
          (receiverId packet.srcIp packet.dstIp tcpPacket).boundOnly with
      | some i =>
        obtain ⟨s,hs,_⟩ := HashMap.indexOf_spec hbound
        rw [dispatch_fallback env tcpPacket hfound hbound]
        exact handOver_move libc env manager _ tcpPacket hs (by rw [hreceiver,hfound,hbound]; rfl)
      | none =>
        rw [dispatch_nobody env tcpPacket hfound hbound]
        exact hsame

/-- A look at an end fifo obeys a close command, removes an old closed socket
or leaves the table as it is. -/
theorem checkAndHandleSocketEndFifo_move (libc : Libc) (env : Env) (manager : NetworkManager)
    (sockId : SocketID) (command : Bool) :
    TableMove libc manager (.endFifo env sockId command)
      (checkAndHandleSocketEndFifo env manager sockId command).manager.sockets.table := by
  unfold checkAndHandleSocketEndFifo
  cases hpointer : pointerTo manager.sockets sockId with
  | none =>
    refine .same _ ?_ rfl
    cases command with
    | true => rfl
    | false => rw [removedSlot,hpointer,Option.bind_none]
  | some pointer =>
    obtain ⟨i,s⟩ := pointer
    obtain ⟨hindex,hs,hid⟩ := pointerTo_spec hpointer
    cases command with
    | true =>
      have hopen : ¬((closeCommand env s).state=.closed ∧
          elapsed env (closeCommand env s).creationTime socketTimeout=true) := by
        rintro ⟨h,_⟩
        cases h
      simp only [if_true,checkAndHandleClosedSocket,if_neg hopen,returned,storeSocket,
        HashMap.setSocket_table hs]
      refine .written _ rfl rfl i s _ hs ?_ fun _ h => by cases h
      by_cases hsyn : s.state=.synSent
      · exact Or.inr ⟨hsyn,if_pos hsyn⟩
      · exact Or.inl (if_neg hsyn)
    | false =>
      simp only [Bool.false_eq_true,if_false,checkAndHandleClosedSocket]
      by_cases hold : s.state=.closed ∧ elapsed env s.creationTime socketTimeout=true
      · have hremoved : removedSlot manager (.endFifo env sockId false)=some i := by
          rw [removedSlot,hpointer,Option.bind_some,if_pos hold]
        have hget : manager.sockets.getSocket s.id=some s := by
          rw [HashMap.getSocket_eq,hid,hindex,Option.bind_some,hs]
        rw [if_pos hold,returned,removeAndDestroySocket,hget]
        simp only
        rw [(HashMap.hashmapRemove_of_found (by rw [hid]; exact hindex)).2]
        exact .removed _ i s hremoved rfl hs hold.1
      · rw [if_neg hold]
        exact .same _ (by rw [removedSlot,hpointer,Option.bind_some,if_neg hold]) rfl

/-- A timer pass writes to its socket, and it leaves a listening one alone. -/
theorem servePass_move {libc : Libc} {manager : NetworkManager} {request : Request}
    (hstays : removedSlot manager request=none) (hmoved : movedSlot libc manager request=none)
    {pass : Socket → Passed}
    (hid : ∀ s,(pass s).socket.id=s.id) (hlisten : ∀ s,s.state=.listen → (pass s).socket=s)
    (sockId : SocketID) :
    TableMove libc manager request (servePass pass manager sockId).manager.sockets.table := by
  unfold servePass
  cases hpointer : pointerTo manager.sockets sockId with
  | none => exact .same _ hstays hmoved
  | some pointer =>
    obtain ⟨i,s⟩ := pointer
    obtain ⟨_,hs,_⟩ := pointerTo_spec hpointer
    simp only [storeSocket,HashMap.setSocket_table hs]
    exact .written _ hstays hmoved i s _ hs (Or.inl (hid s)) fun h _ => by rw [hlisten s h]

/-- Every request makes one of the moves. -/
theorem serve_move (libc : Libc) (manager : NetworkManager) (request : Request) :
    TableMove libc manager request (managerStep libc manager request).sockets.table := by
  cases request with
  | bind env request => exact handleBindRequest_move libc env manager request
  | listen env sockId request =>
    exact checkAndHandleListenRequest_move libc env manager sockId request
  | connect env sockId request =>
    exact checkAndHandleConnectRequest_move libc env manager sockId request
  | packet env packet => exact handleIncomingIpPacket_move libc env manager packet
  | endFifo env sockId command =>
    exact checkAndHandleSocketEndFifo_move libc env manager sockId command
  | sendWindow env sockId =>
    refine servePass_move rfl rfl (checkAndHandleSendWindow_id env) ?_ sockId
    intro s hs
    rw [checkAndHandleSendWindow,if_pos (by simp [hs])]
    rfl
  | statusMessages env sockId =>
    refine servePass_move rfl rfl (checkAndHandleOutgoingStatusMessages_id env) ?_ sockId
    intro s hs
    rw [checkAndHandleOutgoingStatusMessages,hs]
    rfl
  | clients files => exact .same _ rfl rfl

/-- Removal keeps the manager's ip. -/
theorem removeAndDestroySocket_ip (manager : NetworkManager) (sockId : SocketID) :
    (removeAndDestroySocket manager sockId).ip=manager.ip := by
  unfold removeAndDestroySocket
  split <;> rfl

/-- Binding keeps it. -/
theorem handleBindRequest_ip (libc : Libc) (env : Env) (manager : NetworkManager)
    (request : CString) : (handleBindRequest libc env manager request).manager.ip=manager.ip := by
  have hbound : ∀ sockId,(bindNewSocket env manager sockId).2.ip=manager.ip := by
    intro sockId
    unfold bindNewSocket
    dsimp only
    split
    · rfl
    · split <;> rfl
  unfold handleBindRequest
  split
  · rfl
  dsimp only
  split
  · split
    · exact hbound _
    split
    · exact hbound _
    · exact (removeAndDestroySocket_ip _ _).trans (hbound _)
  · rfl

/-- A look at an end fifo keeps it. -/
theorem checkAndHandleSocketEndFifo_ip (env : Env) (manager : NetworkManager)
    (sockId : SocketID) (command : Bool) :
    (checkAndHandleSocketEndFifo env manager sockId command).manager.ip=manager.ip := by
  have hclosed : ∀ manager s,(checkAndHandleClosedSocket env manager s).manager.ip=manager.ip := by
    intro manager s
    unfold checkAndHandleClosedSocket
    split
    · exact removeAndDestroySocket_ip manager s.id
    · rfl
  unfold checkAndHandleSocketEndFifo
  split
  · rfl
  split
  · exact hclosed _ _
  · exact hclosed _ _

/-- No request changes the manager's ip. -/
theorem managerStep_ip (libc : Libc) (manager : NetworkManager) (request : Request) :
    (managerStep libc manager request).ip=manager.ip := by
  have hpass : ∀ (pass : Socket → Passed) sockId,
      (servePass pass manager sockId).manager.ip=manager.ip := by
    intro pass sockId
    unfold servePass
    split <;> rfl
  cases request with
  | bind env request => exact handleBindRequest_ip libc env manager request
  | endFifo env sockId command => exact checkAndHandleSocketEndFifo_ip env manager sockId command
  | sendWindow env sockId => exact hpass _ sockId
  | statusMessages env sockId => exact hpass _ sockId
  | clients files => rfl
  | listen env sockId request =>
    simp only [managerStep,serve,checkAndHandleListenRequest]
    split
    · split <;> rfl
    · rfl
  | connect env sockId request =>
    simp only [managerStep,serve,checkAndHandleConnectRequest]
    split
    · split
      · rfl
      split
      · rfl
      split
      · rfl
      split <;> rfl
    · rfl
  | packet env packet =>
    simp only [managerStep,serve,handleIncomingIpPacket]
    split
    · rfl
    split
    · rfl
    split
    · rfl
    split
    · rfl
    · exact dispatch_ip env _ _

end NetworkLayer.TableMoves
