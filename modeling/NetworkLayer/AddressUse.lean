import NetworkLayer.PortExclusivity
import NetworkLayer.Rekeying

/-!
# What an address can be used for

`AddressCreate` looks at the length of an ip only. Whether an ip or a port is
there at all is told by their values, and control messages put an underscore
between them. So some addresses are accepted, and bound or connected to, that
leave a socket no function takes for bound or connected, or that come out of
a message as another address.
-/

namespace NetworkLayer.AddressUse

open ByteStrings FormattedText UtilTypes Hashmap SlotTables FifoUtils TcpPackets
open SocketMaps PacketHandlers PacketDispatch SocketRequests TableMoves PortExclusivity Rekeying
open UniqueKeys

/-- An address that `AddressCreate` accepted. -/
structure Address where
  /-- Its ip. -/
  addr : CString
  /-- Its port. -/
  port : ℤ
  /-- The ip has the one length that is accepted. -/
  length_addr : addr.strlen=maxIpLength
  /-- The port is an `int`. -/
  port_int : IsInt port

/-- `AddressCreate`. -/
def addressCreate (ip : CString) (port : ℤ) (hport : IsInt port) : Option Address :=
  if h : ip.strlen≠maxIpLength then none else some ⟨ip,port,not_not.mp h,hport⟩

/-- `SocketCreate`. -/
def socketCreate : SocketID := ⟨emptyPort,emptyPort,emptyIp,emptyIp⟩

/-- `SocketBind`, with whether the manager's answer grants it: the identity
that a client has after SUCCESS. -/
def socketBind (sockid : SocketID) (addrport : Address) (granted : Bool) : Option SocketID :=
  if getSocketState sockid≠.empty then none
  else if granted=true then some {sockid with srcIp := addrport.addr,srcPort := addrport.port}
  else none

/-- `SocketConnect`, likewise. -/
def socketConnect (sockid : SocketID) (foreignAddr : Address) (granted : Bool) :
    Option SocketID :=
  if getSocketState sockid≠.boundOnly then none
  else if granted=true then
    some {sockid with dstIp := foreignAddr.addr,dstPort := foreignAddr.port}
  else none

/-- An ip, an underscore and a port, without an inner NUL. -/
theorem addressText_nulFree (ip : CString) (port : ℤ) : (0 : Byte)∉ip.chars++95::printInt port := by
  intro hmem
  rcases List.mem_append.mp hmem with hip|hrest
  · exact ip.nulFree hip
  · rcases List.mem_cons.mp hrest with hzero|hport
    · exact absurd hzero (by decide)
    · rcases mem_printInt hport with h|h <;> exact absurd h (by decide)

/-- What the format `%s_%d` prints for an ip and a port. -/
def addressText (ip : CString) (port : ℤ) : CString :=
  ⟨ip.chars++95::printInt port,addressText_nulFree ip port⟩

/-- The message of `SocketConnect`. -/
def connectMessage (foreignAddr : Address) : CString :=
  addressText foreignAddr.addr foreignAddr.port

/-- The message of `notify_accept_client` about a connection. -/
def acceptMessage (id : SocketID) : CString := addressText id.dstIp id.dstPort

/-- The address that `SocketAccept` takes from its message, in a loop that
is the same as that of `check_and_handle_connect_request`. -/
def scanAcceptMessage (libc : Libc) (message : CString) : Option (CString × ℤ) :=
  scanConnectRequest libc message

/-- Three numbers between underscores, without an inner NUL. -/
theorem bindText_nulFree (port pid socketCounter : ℤ) :
    (0 : Byte)∉printInt port++95::(printInt pid++95::printInt socketCounter) := by
  have hnumber : ∀ v : ℤ,(0 : Byte)∉printInt v := by
    intro v hmem
    rcases mem_printInt hmem with h|h <;> exact absurd h (by decide)
  simp [hnumber]

/-- The message of `SocketBind`. -/
def bindMessage (addrport : Address) (pid socketCounter : ℤ) : CString :=
  ⟨printInt addrport.port++95::(printInt pid++95::printInt socketCounter),
    bindText_nulFree addrport.port pid socketCounter⟩

/-- The bind of an address is granted: its manager adds a socket for the
client's message, and the client has an identity for it. -/
def BindGranted (libc : Libc) (a : Address) (client kept : SocketID) : Prop :=
  socketBind socketCreate a true=some client ∧
    ∃ env manager pid socketCounter j s,manager.ip=a.addr ∧ IsInt pid ∧ IsInt socketCounter ∧
      manager.sockets.table j=none ∧
      (handleBindRequest libc env manager
        (bindMessage a pid socketCounter)).manager.sockets.table j=some s ∧ s.id=kept

/-- The connection of a bound address to another one is granted: the manager
moves the bound socket for the client's message, a later packet makes it
notify the client, and the client has an identity for it. -/
def ConnectGranted (libc : Libc) (a b : Address) (client kept : SocketID) : Prop :=
  ∃ bound stored,BindGranted libc a bound stored ∧ socketConnect bound b true=some client ∧
    ∃ env manager i s env' packet,
      let served := checkAndHandleConnectRequest libc env manager stored (some (connectMessage b))
      let handled := handlePacketSynSent env' served.manager s packet
      (manager.sockets.table i≠some s ∧ served.manager.sockets.table i=some s) ∧
        handled.socket.state=.established ∧ handled.socket.id=kept

/-- Every socket that two addresses give rise to is what it should be, and
both come out of their messages as they went in. -/
structure Usable (libc : Libc) (a b : Address) : Prop where
  /-- A bound socket is taken for one, by client and manager. -/
  bound : ∀ client kept,BindGranted libc a client kept →
    getSocketState client=.boundOnly ∧ getSocketState kept=.boundOnly
  /-- So is a connected one. -/
  connected : ∀ client kept,ConnectGranted libc a b client kept →
    getSocketState client=.connected ∧ getSocketState kept=.connected
  /-- The manager is asked to connect to the address that is meant. -/
  connectText : scanConnectRequest libc (connectMessage b)=some (b.addr,b.port)
  /-- The listener is told the address that connects to it. -/
  acceptText : ∀ id : SocketID,id.dstIp=a.addr → id.dstPort=a.port →
    scanAcceptMessage libc (acceptMessage id)=some (a.addr,a.port)

/-- The ip contains no underscore and no white space. -/
def Scannable (a : Address) : Prop := ∀ c∈a.addr.chars,c≠95 ∧ isSpace c=false

/-- Neither the ip nor the port means that there is none. -/
def Present (a : Address) : Prop := isEmptyIp a.addr=false ∧ a.port≠emptyPort

/-- Both mean that there is none, and the ip is the one that stands for it. -/
def EmptyAddress (a : Address) : Prop := a.addr=emptyIp ∧ a.port=emptyPort

/-- A word of nonspace characters is scanned as a whole. -/
theorem scanWord_of_nonspace {word : List Byte} (hne : word≠[])
    (h : ∀ c∈word,isSpace c=false) : scanWord word=some (word,[]) := by
  obtain ⟨c,rest,rfl⟩ := List.exists_cons_of_ne_nil hne
  have hskip : (c::rest).dropWhile isSpace=c::rest :=
    List.dropWhile_cons_of_neg (by simp [h c List.mem_cons_self])
  have htake : (c::rest).takeWhile (fun b => !isSpace b)=c::rest :=
    List.takeWhile_eq_self_iff.mpr fun b hb => by simp [h b hb]
  simp only [scanWord,hskip,htake,if_neg hne,List.drop_length]

/-- What comes out of a message: the word before its first underscore and the
number behind it. -/
theorem scanConnectRequest_of_scannable (libc : Libc) {ip : CString} {port : ℤ}
    (hport : IsInt port) (hne : ip.chars≠[]) (h : ∀ c∈ip.chars,c≠95 ∧ isSpace c=false) :
    scanConnectRequest libc (addressText ip port)=some (ip,port) := by
  have hbefore : ∀ c∈ip.chars,(c != 95)=true := fun c hc => bne_iff_ne.mpr (h c hc).1
  have hdrop : (ip.chars++95::printInt port).dropWhile (fun b => b != 95)=
      95::printInt port := by
    rw [List.dropWhile_append_of_pos hbefore,List.dropWhile_cons_of_neg (by decide)]
  have htake : (ip.chars++95::printInt port).takeWhile (fun b => b != 95)=ip.chars := by
    rw [List.takeWhile_append_of_pos hbefore,List.takeWhile_cons_of_neg (by decide),
      List.append_nil]
  have hend : ∀ b,([] : List Byte).head?=some b → isDigit b=false := by simp
  have hnumber := scanInt_printInt libc hport (le_refl (printInt port).length) hend
  have hword := scanWord_of_nonspace hne fun c hc => (h c hc).2
  have hip : CString.ofCells ip.chars=ip :=
    CString.ext (List.takeWhile_eq_self_iff.mpr fun c hc => bne_iff_ne.mpr fun he =>
      ip.nulFree (he ▸ hc))
  rw [List.append_nil] at hnumber
  simp only [scanConnectRequest,addressText,hdrop,htake,scanLiteral,List.head?_cons,if_true,
    List.tail_cons,Option.bind_eq_bind,Option.bind_some,hnumber,hword,hip]
  rfl

/-- Only such an ip comes out as it went in. -/
theorem scannable_of_scanned {libc : Libc} {ip : CString} {port : ℤ}
    (h : scanConnectRequest libc (addressText ip port)=some (ip,port)) :
    ∀ c∈ip.chars,c≠95 ∧ isSpace c=false := by
  obtain ⟨rest,_,h⟩ := Option.bind_eq_some_iff.mp h
  obtain ⟨⟨number,_⟩,_,h⟩ := Option.bind_eq_some_iff.mp h
  obtain ⟨⟨word,_⟩,hword,h⟩ := Option.bind_eq_some_iff.mp h
  obtain ⟨hip,-⟩ := Prod.mk.inj (Option.some.inj h)
  have hchars : ip.chars=word.takeWhile fun b => b != 0 := by rw [←hip]; rfl
  simp only [scanWord] at hword
  split at hword
  · cases hword
  obtain ⟨rfl,-⟩ := Prod.mk.inj (Option.some.inj hword)
  intro c hc
  rw [hchars] at hc
  have hmem := List.takeWhile_subset _ hc
  have hnonspace := List.mem_takeWhile_imp hmem
  have hbefore := List.mem_takeWhile_imp
    (List.dropWhile_subset _ (List.takeWhile_subset _ hmem))
  exact ⟨by simpa using hbefore,by simpa using hnonspace⟩

/-- An accepted ip has characters. -/
theorem Address.addr_ne_nil (a : Address) : a.addr.chars≠[] := by
  intro hnil
  have hlen : a.addr.chars.length=16 := a.length_addr
  rw [hnil] at hlen
  cases hlen

/-- The key of a socket that is bound to an address. -/
def boundTo (a : Address) : SocketID := ⟨a.port,emptyPort,a.addr,emptyIp⟩

/-- The key of a socket that is connected from one address to another. -/
def connectedTo (a b : Address) : SocketID := ⟨a.port,b.port,a.addr,b.addr⟩

/-- A bound socket is taken for one if its address is there. -/
theorem getSocketState_boundTo (a : Address) :
    getSocketState (boundTo a)=.boundOnly ↔ Present a := by
  have hempty : isEmptyIp emptyIp=true := by decide
  unfold getSocketState isSocketConnected isSocketBoundOnly isSocketEmpty boundTo Present
  simp only [hempty]
  cases isEmptyIp a.addr <;> by_cases hport : a.port=emptyPort <;> simp [hport]

/-- And a connected one if both are. -/
theorem getSocketState_connectedTo (a b : Address) :
    getSocketState (connectedTo a b)=.connected ↔ Present a ∧ Present b := by
  unfold getSocketState isSocketConnected isSocketBoundOnly isSocketEmpty connectedTo Present
  cases isEmptyIp a.addr <;> cases isEmptyIp b.addr <;> by_cases hport : a.port=emptyPort <;>
    by_cases hport' : b.port=emptyPort <;> simp [hport,hport']

/-- The manager reads the numbers of a bind message. -/
theorem scanBindRequest_bindMessage (libc : Libc) (a : Address) {pid socketCounter : ℤ}
    (hpid : IsInt pid) (hcounter : IsInt socketCounter) :
    scanBindRequest libc (bindMessage a pid socketCounter)=some (a.port,pid,socketCounter) := by
  have hunderscore : ∀ (rest : List Byte) (b : Byte),((95 : Byte)::rest).head?=some b →
      isDigit b=false := by
    rintro rest b h
    obtain rfl := Option.some.inj h
    decide
  have hend : ∀ b,([] : List Byte).head?=some b → isDigit b=false := by simp
  have hwidth : (printInt a.port).length ≤ (bindMessage a pid socketCounter).strlen := by
    simp only [CString.strlen,bindMessage,List.length_append]
    omega
  have hwidth' : (printInt pid).length ≤ (printInt pid++95::printInt socketCounter).length := by
    rw [List.length_append]
    omega
  have hport := scanInt_printInt libc a.port_int hwidth
    (hunderscore (printInt pid++95::printInt socketCounter))
  have hpid' := scanInt_printInt libc hpid hwidth' (hunderscore (printInt socketCounter))
  have hcounter' := scanInt_printInt libc hcounter (le_refl (printInt socketCounter).length) hend
  rw [List.append_nil] at hcounter'
  rw [scanBindRequest,bindMessage] at *
  simp only [hport,Option.bind_eq_bind,Option.bind_some,scanLiteral,List.head?_cons,if_true,
    List.tail_cons,hpid',hcounter']
  rfl

/-- A granted bind gives the socket the key of its address, on both sides. -/
theorem BindGranted.ids {libc : Libc} {a : Address} {client kept : SocketID}
    (h : BindGranted libc a client kept) : client=boundTo a ∧ kept=boundTo a := by
  obtain ⟨hclient,env,manager,pid,socketCounter,j,s,hip,hpid,hcounter,hj,hs,rfl⟩ := h
  constructor
  · rw [socketBind,if_neg (by decide)] at hclient
    exact (Option.some.inj hclient).symm
  have hmove := handleBindRequest_move libc env manager (bindMessage a pid socketCounter)
  generalize (handleBindRequest libc env manager
    (bindMessage a pid socketCounter)).manager.sockets.table=slots at hmove hs
  cases hmove with
  | same =>
    rw [hj] at hs
    cases hs
  | written _ _ _ i old new hold _ _ =>
    rcases update_some_cases hs with ⟨rfl,rfl⟩|⟨_,hrest⟩
    · rw [hj] at hold
      cases hold
    · rw [hj] at hrest
      cases hrest
  | bound _ _ port k new hgrants _ hid =>
    obtain ⟨_,_,hscan,_⟩ := hgrants
    rw [scanBindRequest_bindMessage libc a hpid hcounter,Option.some.injEq,Prod.mk.injEq] at hscan
    rcases update_some_cases hs with ⟨rfl,rfl⟩|⟨_,hrest⟩
    · rw [hid,boundId,hip,boundTo,hscan.1]
    · rw [hj] at hrest
      cases hrest
  | removed _ i s' hremoved => cases hremoved

/-- A new manager on a host without fifos grants every bind. -/
theorem bindGranted_fresh (libc : Libc) (a : Address) :
    BindGranted libc a (boundTo a) (boundTo a) := by
  have hone : IsInt 1 := ⟨by decide,by decide⟩
  have hscan := scanBindRequest_bindMessage libc a hone hone
  have hgrants : Grants libc (smoothEnv 0 none) (createNetworkManager a.addr fun _ => false)
      (bindMessage a 1 1) a.port :=
    ⟨1,1,hscan,rfl,⟨⟨rfl,rfl⟩,⟨rfl,rfl⟩⟩,show (0 : ℕ)≠hashMapDefaultSize by decide,rfl⟩
  obtain ⟨_,j,hj,hafter⟩ := (granted_iff libc _ _ _ _).mpr hgrants
  obtain ⟨s,hs⟩ := Option.ne_none_iff_exists'.mp hafter
  have hclient : socketBind socketCreate a true=some (boundTo a) := by
    rw [socketBind,if_neg (by decide)]
    rfl
  have hgranted : BindGranted libc a (boundTo a) s.id :=
    ⟨hclient,_,_,1,1,j,s,rfl,hone,hone,hj,hs,rfl⟩
  rwa [hgranted.ids.2] at hgranted

/-- A granted connection of addresses that come out of their messages gives the
socket the key of both, on both sides. -/
theorem ConnectGranted.ids {libc : Libc} {a b : Address} (hb : Scannable b)
    {client kept : SocketID} (h : ConnectGranted libc a b client kept) :
    client=connectedTo a b ∧ kept=connectedTo a b := by
  obtain ⟨bound,stored,hbind,hclient,env,manager,i,s,env',packet,⟨hnew,hs⟩,_,rfl⟩ := h
  obtain ⟨rfl,rfl⟩ := hbind.ids
  have hscan := scanConnectRequest_of_scannable libc b.port_int b.addr_ne_nil hb
  constructor
  · unfold socketConnect at hclient
    split at hclient
    · cases hclient
    · exact (Option.some.inj hclient).symm
  have hid : (handlePacketSynSent env' (checkAndHandleConnectRequest libc env manager
      (boundTo a) (some (connectMessage b))).manager s packet).socket.id=s.id := by
    unfold handlePacketSynSent
    split
    · rfl
    split
    · rfl
    dsimp only
    split <;> rfl
  rw [hid]
  rcases checkAndHandleConnectRequest_cases libc env manager (boundTo a)
    (some (connectMessage b)) with hsame|⟨j,s0,k,dstIp,dstPort,hfrom,hpointer,_,_,_,htable⟩
  · rw [hsame] at hs
    exact absurd hs hnew
  · have haddress : some (b.addr,b.port)=some (dstIp,dstPort) := hscan.symm.trans hfrom
    obtain ⟨rfl,rfl⟩ := Prod.mk.inj (Option.some.inj haddress)
    rw [htable] at hs
    rcases update_some_cases hs with ⟨rfl,rfl⟩|⟨_,hrest⟩
    · rw [connecting_id,(pointerTo_spec hpointer).2.2]
      rfl
    · by_cases hij : i=j
      · rw [hij,Function.update_self] at hrest
        cases hrest
      · rw [Function.update_of_ne hij] at hrest
        exact absurd hrest hnew

/-- No connection to the empty address is granted: its key is that of the
bound socket. -/
theorem not_connectGranted_of_empty {libc : Libc} {a b : Address} (hb : EmptyAddress b)
    (hscannable : Scannable b) {client kept : SocketID} :
    ¬ConnectGranted libc a b client kept := by
  rintro ⟨bound,stored,hbind,_,env,manager,i,s,env',packet,⟨hnew,hs⟩,_⟩
  obtain ⟨rfl,rfl⟩ := hbind.ids
  have hscan := scanConnectRequest_of_scannable libc b.port_int b.addr_ne_nil hscannable
  have hrefused : checkAndHandleConnectRequest libc env manager (boundTo a)
      (some (connectMessage b))=returned 0 manager := by
    unfold checkAndHandleConnectRequest
    cases hpointer : pointerTo manager.sockets (boundTo a) with
    | none => rfl
    | some pointer =>
      obtain ⟨j,s0⟩ := pointer
      obtain ⟨hindex,hs0,hid⟩ := pointerTo_spec hpointer
      have hkey : ({boundTo a with dstIp := b.addr,dstPort := b.port} : SocketID)=boundTo a := by
        rw [hb.1,hb.2]
        rfl
      have hfound : manager.sockets.getSocket (boundTo a)=some s0 := by
        rw [HashMap.getSocket_eq,hindex,Option.bind_some,hs0]
      rw [Option.bind_some,connectMessage,hscan]
      simp only [hkey,hfound,Option.isSome_some,if_true,ite_self]
  rw [hrefused] at hs
  exact hnew hs

/-- A manager in whose table nothing but a closed socket is bound to the
address. -/
def managerOf (a : Address) : NetworkManager :=
  ⟨a.addr,(createHashMap.insertSocket (createNewSocket 0 (boundTo a) .closed)).2,fun _ => false⟩

theorem managerOf_keysUnique (a : Address) : (managerOf a).sockets.KeysUnique :=
  HashMap.KeysUnique.insertSocket (m:=createHashMap) distinctKeys_empty _

/-- Only the key of this socket leads to one. -/
theorem managerOf_getSocket (a : Address) : (managerOf a).sockets.getSocket=
    Function.update (fun _ => none) (boundTo a) (some (createNewSocket 0 (boundTo a) .closed)) := by
  have hempty : createHashMap.getSocket=fun _ => none := funext fun _ => rfl
  rcases insertSocket_lookups (m:=createHashMap) distinctKeys_empty
    (createNewSocket 0 (boundTo a) .closed) with ⟨_,htaken|hfull⟩|⟨_,_,_,_,hlookup⟩
  · rw [hasKey_eq,hempty] at htaken
    cases htaken
  · exact absurd hfull (show (0 : ℕ)≠hashMapDefaultSize by decide)
  · rw [managerOf,hlookup,hempty]
    rfl

/-- It moves this socket when it is asked to connect to another key. -/
theorem managerOf_served (libc : Libc) {a b : Address} (hscannable : Scannable b)
    (hne : connectedTo a b≠boundTo a) :
    let s := connecting (smoothEnv 0 none) (createNewSocket 0 (boundTo a) .closed) b.addr b.port
    let served := checkAndHandleConnectRequest libc (smoothEnv 0 none) (managerOf a) (boundTo a)
      (some (connectMessage b))
    served.manager.files=(fun _ => false) ∧
      ∃ i,(managerOf a).sockets.table i≠some s ∧ served.manager.sockets.table i=some s := by
  intro s served
  have hu := managerOf_keysUnique a
  have hlookup := managerOf_getSocket a
  have hscan := scanConnectRequest_of_scannable libc b.port_int b.addr_ne_nil hscannable
  have hget : (managerOf a).sockets.getSocket (boundTo a)=
      some (createNewSocket 0 (boundTo a) .closed) := by
    rw [hlookup,Function.update_self]
  have hfree : (managerOf a).sockets.getSocket s.id=none := by
    rw [hlookup]
    exact Function.update_of_ne hne _ _
  obtain ⟨hremoved,hinserted,_,hafter⟩ := remove_insert_lookups hu hget hfree
  have hpointer : ∃ i,pointerTo (managerOf a).sockets (boundTo a)=
      some (i,createNewSocket 0 (boundTo a) .closed) := by
    have hbind := HashMap.getSocket_eq _ _ ▸ hget
    obtain ⟨i,hindex,hi⟩ := Option.bind_eq_some_iff.mp hbind
    exact ⟨i,by rw [pointerTo,hindex,Option.bind_some,hi,Option.map_some]⟩
  have hserved : served=returned breakIteration {managerOf a with
      sockets := (((managerOf a).sockets.hashmapRemove (boundTo a)).2.insertSocket s).2} := by
    obtain ⟨i,hi⟩ := hpointer
    have hpresent : ¬((managerOf a).sockets.getSocket
        {boundTo a with dstIp := b.addr,dstPort := b.port}).isSome=true :=
      Option.not_isSome_iff_eq_none.mpr hfree
    unfold served checkAndHandleConnectRequest
    rw [hi,Option.bind_some,connectMessage,hscan]
    simp only [if_neg hpresent]
    rw [if_neg (by simp [createNewSocket]),if_neg (by simp [hremoved]),if_pos hinserted]
  have hfound : served.manager.sockets.getSocket s.id=some s := by
    rw [hserved]
    simp only [returned,hafter]
    exact Function.update_self _ _ _
  rw [HashMap.getSocket_eq] at hfound
  obtain ⟨i,_,hi⟩ := Option.bind_eq_some_iff.mp hfound
  refine ⟨by rw [hserved]; rfl,i,fun hi' => ?_,hi⟩
  rw [hu.getSocket_self hi'] at hfree
  cases hfree

/-- The SYN+ACK that a socket waits for. -/
def synAckFor (s : Socket) : TCPPacket :=
  ⟨s.id.dstPort,s.id.srcPort,0,s.seqOfFirstSendWindow,9,0,none⟩

/-- On a host without fifos it establishes the connection. -/
theorem established_by_synAck {manager : NetworkManager} (hfiles : manager.files=fun _ => false)
    (s : Socket) : (handlePacketSynSent (smoothEnv 0 none) manager s (synAckFor s)).socket=
      {s with seqOfFirstRecvWindow := 1,state := .established} := by
  have hcreated : (createSocketEndFifos (smoothEnv 0 none) manager.files s.id).1=true := by
    rw [createSocketEndFifos_iff,hfiles]
    exact ⟨⟨rfl,rfl⟩,⟨rfl,rfl⟩⟩
  have hnotified : (notifyConnectClient (smoothEnv 0 none) manager s).1=true := by
    unfold notifyConnectClient
    simp only [if_pos hcreated]
    rfl
  have hsyn : ¬(synAckFor s).has synFlag=false := by
    simp only [TCPPacket.has,synAckFor]
    decide
  have hack : ¬((synAckFor s).has ackFlag=false ∨
      (synAckFor s).ackNum≠s.seqOfFirstSendWindow) := by
    rintro (hflag|hnumber)
    · simp only [TCPPacket.has,synAckFor] at hflag
      cases hflag
    · exact hnumber rfl
  unfold handlePacketSynSent
  rw [if_neg hsyn,if_neg hack]
  simp only [if_pos hnotified]
  rfl

/-- A connection to an address that is not the empty one can be granted. -/
theorem connectGranted_of_present (libc : Libc) {a b : Address} (ha : Present a)
    (hscannable : Scannable b) (hb : ¬EmptyAddress b) :
    ConnectGranted libc a b (connectedTo a b) (connectedTo a b) := by
  have hne : connectedTo a b≠boundTo a := by
    intro he
    have hparts := SocketID.mk.inj he
    exact hb ⟨hparts.2.2.2,hparts.2.1⟩
  let s := connecting (smoothEnv 0 none) (createNewSocket 0 (boundTo a) .closed) b.addr b.port
  obtain ⟨hfiles,i,hnew,hi⟩ := managerOf_served libc hscannable hne
  have hclient : socketConnect (boundTo a) b true=some (connectedTo a b) := by
    rw [socketConnect,if_neg (not_not.mpr ((getSocketState_boundTo a).mpr ha)),if_pos rfl]
    rfl
  have hestablished := established_by_synAck hfiles s
  refine ⟨boundTo a,boundTo a,bindGranted_fresh libc a,hclient,_,_,i,s,smoothEnv 0 none,
    synAckFor s,⟨hnew,hi⟩,?_,?_⟩
  · exact congrArg Socket.state hestablished
  · exact congrArg Socket.id hestablished

/-- What two accepted addresses have to satisfy: no ip contains an underscore
or white space, and no ip begins like the one that stands for none and no port
is 0, except that the second address may be the empty one, to which no
connection is granted. -/
theorem usable_iff (libc : Libc) (a b : Address) :
    Usable libc a b ↔
      (Present a ∧ Scannable a) ∧ Scannable b ∧ (Present b ∨ EmptyAddress b) := by
  constructor
  · intro h
    have ha : Present a := (getSocketState_boundTo a).mp (h.bound _ _ (bindGranted_fresh libc a)).1
    have hscannable : Scannable b := scannable_of_scanned h.connectText
    refine ⟨⟨ha,scannable_of_scanned (h.acceptText (connectedTo b a) rfl rfl)⟩,hscannable,?_⟩
    by_cases hb : EmptyAddress b
    · exact Or.inr hb
    · have hstate := (h.connected _ _ (connectGranted_of_present libc ha hscannable hb)).1
      exact Or.inl ((getSocketState_connectedTo a b).mp hstate).2
  · rintro ⟨⟨ha,hscannable⟩,hscannable',hb⟩
    refine ⟨fun client kept hgranted => ?_,fun client kept hgranted => ?_,
      scanConnectRequest_of_scannable libc b.port_int b.addr_ne_nil hscannable',
      fun id hip hport => ?_⟩
    · obtain ⟨rfl,rfl⟩ := hgranted.ids
      have hstate := (getSocketState_boundTo a).mpr ha
      exact ⟨hstate,hstate⟩
    · rcases hb with hb|hempty
      · obtain ⟨rfl,rfl⟩ := hgranted.ids hscannable'
        have hstate := (getSocketState_connectedTo a b).mpr ⟨ha,hb⟩
        exact ⟨hstate,hstate⟩
      · exact absurd hgranted (not_connectGranted_of_empty hempty hscannable')
    · rw [acceptMessage,hip,hport]
      exact scanConnectRequest_of_scannable libc a.port_int a.addr_ne_nil hscannable

/-- Sixteen ones and port 0. -/
def onesPortZero : Address := ⟨onesIp,0,rfl,isInt_zero⟩

/-- They are accepted and bound, and not taken for bound. -/
theorem not_usable_portZero :
    addressCreate onesIp 0 isInt_zero=some onesPortZero ∧
      ∀ libc,¬Usable libc onesPortZero onesPortZero := by
  refine ⟨rfl,fun libc h => ?_⟩
  have hstate := (h.bound _ _ (bindGranted_fresh libc onesPortZero)).1
  exact ((getSocketState_boundTo onesPortZero).mp hstate).2 rfl

end NetworkLayer.AddressUse
