import NetworkLayer.FifoFiles

/-!
# Fifo names tell their owners apart

Fourteen functions name the fifos of sockets, managers and clients. No
function's stem begins with another's, so a name tells which function made
it; what follows the stem can be taken apart again, since an ip has a fixed
length and no printed number has an underscore.
-/

namespace NetworkLayer.FifoNames

open ByteStrings FormattedText UtilTypes FifoUtils FifoFiles

/-- `MAX_SOCKET_STRING_REPR_SIZE`. -/
def maxSocketStringReprSize : ℕ := 80

/-- The functions that name a fifo. -/
inductive NameFunction
  | terminate | inPacket | bindRequests | connectRequests
  | listenRead | listenWrite | acceptWrite | connectRead | connectWrite
  | socketRecv | endRead | endWrite | socketSend
  | client
  deriving DecidableEq

/-- All of them. -/
def NameFunction.all : List NameFunction :=
  [.terminate,.inPacket,.bindRequests,.connectRequests,.listenRead,.listenWrite,.acceptWrite,
    .connectRead,.connectWrite,.socketRecv,.endRead,.endWrite,.socketSend,.client]

/-- What a function is called with: an ip, an identity or a pair of numbers. -/
inductive NameCall
  /-- A manager's fifo. -/
  | terminate (ip : CString)
  | inPacket (ip : CString)
  | bindRequests (ip : CString)
  | connectRequests (ip : CString)
  /-- A socket's fifo. -/
  | listenRead (sockId : SocketID)
  | listenWrite (sockId : SocketID)
  | acceptWrite (sockId : SocketID)
  | connectRead (sockId : SocketID)
  | connectWrite (sockId : SocketID)
  | socketRecv (sockId : SocketID)
  | endRead (sockId : SocketID)
  | endWrite (sockId : SocketID)
  | socketSend (sockId : SocketID)
  /-- A client's fifo. -/
  | client (pid socketCounter : ℤ)

/-- The name that a call returns. -/
def NameCall.name : NameCall → FifoName
  | .terminate ip => getTerminateFifoName ip
  | .inPacket ip => getInPacketFifoName ip
  | .bindRequests ip => getBindRequestsFifoName ip
  | .connectRequests ip => getConnectRequestsFifoName ip
  | .listenRead sockId => getListenFifoReadEndName sockId
  | .listenWrite sockId => getListenFifoWriteEndName sockId
  | .acceptWrite sockId => getAcceptFifoWriteEndName sockId
  | .connectRead sockId => getConnectFifoReadEndName sockId
  | .connectWrite sockId => getConnectFifoWriteEndName sockId
  | .socketRecv sockId => getSocketRecvFifoName sockId
  | .endRead sockId => getEndFifoReadEndName sockId
  | .endWrite sockId => getEndFifoWriteEndName sockId
  | .socketSend sockId => getSocketSendFifoName sockId
  | .client pid socketCounter => getClientFifoName pid socketCounter

/-- The function that is called. -/
def NameCall.function : NameCall → NameFunction
  | .terminate _ => .terminate
  | .inPacket _ => .inPacket
  | .bindRequests _ => .bindRequests
  | .connectRequests _ => .connectRequests
  | .listenRead _ => .listenRead
  | .listenWrite _ => .listenWrite
  | .acceptWrite _ => .acceptWrite
  | .connectRead _ => .connectRead
  | .connectWrite _ => .connectWrite
  | .socketRecv _ => .socketRecv
  | .endRead _ => .endRead
  | .endWrite _ => .endWrite
  | .socketSend _ => .socketSend
  | .client _ _ => .client

/-- The prefix of `fifo_utils.h` that a function puts before its argument. -/
def NameFunction.stem : NameFunction → List Byte
  | .terminate => text "vnetwork_terminate_"
  | .inPacket => text "vnetwork_in_packets_"
  | .bindRequests => text "vnetwork_bind_requests_"
  | .connectRequests => text "vnetwork_connect_requests_"
  | .listenRead => text "vnetwork_listen_socket_read_"
  | .listenWrite => text "vnetwork_listen_socket_write_"
  | .acceptWrite => text "vnetwork_accept_socket_read_"
  | .connectRead => text "vnetwork_connect_soket_read_"
  | .connectWrite => text "vnetwork_connect_socket_write_"
  | .socketRecv => text "vnetwork_in_data_socket_read_"
  | .endRead => text "vnetwork_end_socket_read_"
  | .endWrite => text "vnetwork_end_socket_write_"
  | .socketSend => text "vnetwork_out_data_"
  | .client => text "vnetwork_nonbound_client_"

/-- What `construct_full_socket_fifo_name` prints into its buffer. -/
def socketRepr (sockId : SocketID) : List Byte :=
  text "("++sockId.srcIp.chars++text "_"++printInt sockId.srcPort++text "_"++
    sockId.dstIp.chars++text "_"++printInt sockId.dstPort++text ")"

/-- What `get_client_fifo_name` prints into its buffer. -/
def clientRepr (pid socketCounter : ℤ) : List Byte :=
  printInt pid++text "_"++printInt socketCounter

/-- The part of a name behind its stem. -/
def NameCall.part : NameCall → List Byte
  | .terminate ip | .inPacket ip | .bindRequests ip | .connectRequests ip => ip.chars
  | .listenRead sockId | .listenWrite sockId | .acceptWrite sockId | .connectRead sockId
  | .connectWrite sockId | .socketRecv sockId | .endRead sockId | .endWrite sockId
  | .socketSend sockId => socketRepr sockId
  | .client pid socketCounter => clientRepr pid socketCounter

/-- An identity with ips of sixteen characters and `int` ports. -/
structure Nameable (sockId : SocketID) : Prop where
  /-- Own ip. -/
  srcIp : sockId.srcIp.strlen=16
  /-- The partner's ip. -/
  dstIp : sockId.dstIp.strlen=16
  /-- Own port. -/
  srcPort : IsInt sockId.srcPort
  /-- The partner's port. -/
  dstPort : IsInt sockId.dstPort

/-- The arguments have the form of ips, identities and `int`s. -/
def NameCall.Valid : NameCall → Prop
  | .terminate ip | .inPacket ip | .bindRequests ip | .connectRequests ip => ip.strlen=16
  | .listenRead sockId | .listenWrite sockId | .acceptWrite sockId | .connectRead sockId
  | .connectWrite sockId | .socketRecv sockId | .endRead sockId | .endWrite sockId
  | .socketSend sockId => Nameable sockId
  | .client pid socketCounter => IsInt pid ∧ IsInt socketCounter

/-- A name is the folder, the stem and the part behind it. -/
theorem NameCall.name_eq (call : NameCall) :
    call.name=fifoFolderPathPrefix++(call.function.stem++call.part) := by
  cases call <;> rfl

/-- No stem begins with another one. -/
theorem stem_prefix_free {first second : NameFunction} (h : first.stem<+:second.stem) :
    first=second := by
  have hall : ∀ f∈NameFunction.all,∀ g∈NameFunction.all,f.stem<+:g.stem → f=g := by
    decide +kernel
  have hmem : ∀ f : NameFunction,f∈NameFunction.all := by
    intro f
    cases f <;> decide
  exact hall first (hmem first) second (hmem second) h

/-- So stems of names that agree are the same. -/
theorem function_eq_of_stem {first second : NameFunction} {part part' : List Byte}
    (h : first.stem++part=second.stem++part') : first=second := by
  have hfirst : first.stem<+:first.stem++part := List.prefix_append _ _
  have hsecond : second.stem<+:first.stem++part := h ▸ List.prefix_append _ _
  rcases Nat.le_total first.stem.length second.stem.length with hle|hle
  · exact stem_prefix_free (List.prefix_of_prefix_length_le hfirst hsecond hle)
  · exact (stem_prefix_free (List.prefix_of_prefix_length_le hsecond hfirst hle)).symm

/-- A printed identity with ips of sixteen characters can be taken apart. -/
theorem socketRepr_injective {id id' : SocketID} (h : Nameable id) (h' : Nameable id')
    (heq : socketRepr id=socketRepr id') : id=id' := by
  have hname : constructFullSocketFifoName [] id=constructFullSocketFifoName [] id' :=
    congrArg (constructFullFifoName []) heq
  obtain ⟨_,hfront⟩ := fifoName_split hname
  have hip : id.srcIp=id'.srcIp :=
    CString.ext (List.append_inj_left hfront (h.srcIp.trans h'.srcIp.symm))
  exact fifoName_injective hip hname

/-- And so can a printed pair of numbers. -/
theorem clientRepr_injective {pid pid' socketCounter socketCounter' : ℤ}
    (h : clientRepr pid socketCounter=clientRepr pid' socketCounter') :
    pid=pid' ∧ socketCounter=socketCounter' := by
  have hunderscore : text "_"=[95] := by decide
  simp only [clientRepr,hunderscore,List.append_assoc,List.singleton_append] at h
  obtain ⟨hpid,hcounter⟩ := append_separator_injective (underscore_notMem_printInt _)
    (underscore_notMem_printInt _) h
  exact ⟨printInt_injective hpid,printInt_injective hcounter⟩

/-- The arguments of a function come back from the part behind the stem. -/
theorem call_eq_of_part {first second : NameCall} (h : first.Valid) (h' : second.Valid)
    (hfunction : first.function=second.function) (hpart : first.part=second.part) :
    first=second := by
  cases first <;> cases second <;> simp only [NameCall.function,reduceCtorEq] at hfunction
  case client.client =>
    obtain ⟨rfl,rfl⟩ := clientRepr_injective hpart
    rfl
  case terminate.terminate | inPacket.inPacket | bindRequests.bindRequests |
      connectRequests.connectRequests => rw [CString.ext hpart]
  all_goals rw [socketRepr_injective h h' hpart]

/-- A printed identity fits its buffer, its terminator included. -/
theorem Nameable.length_socketRepr {sockId : SocketID} (h : Nameable sockId) :
    (socketRepr sockId).length+1 ≤ maxSocketStringReprSize := by
  have hsrc := length_printInt_le h.srcPort.1 h.srcPort.2
  have hdst := length_printInt_le h.dstPort.1 h.dstPort.2
  have hsrcIp : sockId.srcIp.chars.length=16 := h.srcIp
  have hdstIp : sockId.dstIp.chars.length=16 := h.dstIp
  have hone : (text "(").length=1 ∧ (text "_").length=1 ∧ (text ")").length=1 := by decide
  simp only [socketRepr,List.length_append,hone,hsrcIp,hdstIp,maxSocketStringReprSize]
  omega

/-- So does a printed pair of `int`s. -/
theorem length_clientRepr {pid socketCounter : ℤ} (h : IsInt pid) (h' : IsInt socketCounter) :
    (clientRepr pid socketCounter).length+1 ≤ maxSocketStringReprSize := by
  have hpid := length_printInt_le h.1 h.2
  have hcounter := length_printInt_le h'.1 h'.2
  have hone : (text "_").length=1 := by decide
  simp only [clientRepr,List.length_append,hone,maxSocketStringReprSize]
  omega

/-- The part of a name fits the buffer that it is printed into. -/
theorem NameCall.Valid.length_part {call : NameCall} (h : call.Valid) :
    call.part.length+1 ≤ maxSocketStringReprSize := by
  have hip : ∀ ip : CString,ip.strlen=16 → ip.chars.length+1 ≤ maxSocketStringReprSize := by
    intro ip hlen
    have hchars : ip.chars.length=16 := hlen
    unfold maxSocketStringReprSize
    omega
  cases call
  case client => exact length_clientRepr h.1 h.2
  case terminate | inPacket | bindRequests | connectRequests => exact hip _ h
  all_goals exact Nameable.length_socketRepr h

/-- Two of the fourteen functions' names are equal only for the same function
and the same arguments, and no part of a name is longer than the buffer it is
printed into. -/
theorem fifo_names_apart {first second : NameCall} (h : first.Valid) (h' : second.Valid) :
    (first.name=second.name ↔ first=second) ∧
      first.part.length+1 ≤ maxSocketStringReprSize := by
  refine ⟨⟨fun hname => ?_,fun heq => by rw [heq]⟩,h.length_part⟩
  rw [first.name_eq,second.name_eq] at hname
  have hbehind := List.append_cancel_left hname
  have hfunction := function_eq_of_stem hbehind
  rw [hfunction] at hbehind
  exact call_eq_of_part h h' hfunction (List.append_cancel_left hbehind)

/-- Two sockets of one port with partners at ports that differ by a sign. -/
theorem fifo_names_apart_partners :
    let first : SocketID := ⟨5000,80,onesIp,emptyIp⟩
    let second : SocketID := ⟨5000,-80,onesIp,emptyIp⟩
    getSocketRecvFifoName first≠getSocketRecvFifoName second ∧
      (NameCall.socketRecv first).part.length+1 ≤ maxSocketStringReprSize := by
  intro first second
  have hfirst : (NameCall.socketRecv first).Valid :=
    ⟨rfl,rfl,⟨by decide,by decide⟩,⟨by decide,by decide⟩⟩
  have hsecond : (NameCall.socketRecv second).Valid :=
    ⟨rfl,rfl,⟨by decide,by decide⟩,⟨by decide,by decide⟩⟩
  obtain ⟨hiff,hpart⟩ := fifo_names_apart hfirst hsecond
  refine ⟨fun hname => ?_,hpart⟩
  have hcall := NameCall.socketRecv.inj (hiff.mp hname)
  have hports : first.dstPort=second.dstPort := congrArg SocketID.dstPort hcall
  exact absurd hports (by decide)

end NetworkLayer.FifoNames
