import NetworkLayer.HandshakeMoves
import NetworkLayer.SocketRequests
import NetworkLayer.StepRuns

/-!
# The handshake of a pair

A client socket connects to a listening socket of the same manager. The world
is the manager and all packets ever handed to the network, which may deliver
each of them any number of times, in any order, or never. Passes and close
commands come at any time and every call may fail.
-/

namespace NetworkLayer.Handshake

open ByteStrings FormattedText UtilTypes Hashmap SlotTables FifoUtils TcpPackets TcpCodec IpPackets
open PacketHandlers SocketPasses PacketDispatch SocketRequests HandshakeMoves StepRuns

/-- The addresses of a pair: one ip and two ports. -/
structure Pair where
  /-- The ip of the manager. -/
  ip : CString
  /-- The port of the connecting socket. -/
  clientPort : ℤ
  /-- The port of the listening socket. -/
  serverPort : ℤ

/-- The sockets of a pair. -/
inductive Party
  | client | listener | accepted
  deriving DecidableEq

/-- The key of the connecting socket. -/
def Pair.clientId (pair : Pair) : SocketID :=
  ⟨pair.clientPort,pair.serverPort,pair.ip,pair.ip⟩

/-- The key of the listening socket. -/
def Pair.listenerId (pair : Pair) : SocketID := ⟨pair.serverPort,emptyPort,pair.ip,emptyIp⟩

/-- The key of the connection that the listening socket makes for the client. -/
def Pair.acceptedId (pair : Pair) : SocketID :=
  ⟨pair.serverPort,pair.clientPort,pair.ip,pair.ip⟩

/-- The key of a party. -/
def Pair.idOf (pair : Pair) : Party → SocketID
  | .client => pair.clientId
  | .listener => pair.listenerId
  | .accepted => pair.acceptedId

/-- The manager and the network. -/
structure World where
  /-- The manager. -/
  manager : NetworkManager
  /-- All packets handed to the network, each with the ip it was sent to. -/
  sent : List (TCPPacket × CString)

/-- One thing that happens to the pair. -/
inductive Action
  /-- `check_and_handle_send_window` runs for a party. -/
  | sendWindow (party : Party) (env : Env)
  /-- `check_and_handle_outgoing_status_messages` runs for a party. -/
  | statusMessages (party : Party) (env : Env)
  /-- A party's close command is read. -/
  | close (party : Party) (env : Env)
  /-- A packet of the network arrives. -/
  | deliver (env : Env) (n : ℕ)
  /-- Client processes create and unlink fifo files. -/
  | clients (files : Files)

/-- The world after a call of the manager. -/
def transmit (w : World) (served : Served) : World := ⟨served.manager,w.sent++served.sent⟩

/-- The packet arrives as its receiver should get it, from the manager's own
ip. Packets to another ip leave this world. -/
def deliver (w : World) (env : Env) (n : ℕ) : World :=
  match w.sent[n]? with
  | none => w
  | some (packet,ip) =>
    if ip=w.manager.ip then
      transmit w (dispatch env w.manager (receiverId w.manager.ip ip (asReceived packet))
        (asReceived packet))
    else w

/-- Handing over what `send_TCP_packet` wrote is a delivery, or the packet is
lost. -/
theorem deliver_of_wire (libc : Libc) (env : Env) {w : World} {n : ℕ} {packet : TCPPacket}
    {data : CString} {ipPacket : IPPacket} (hn : w.sent[n]?=some (packet,w.manager.ip))
    (hcreate : createIpPacket w.manager.ip w.manager.ip (tcpToStr packet)=some ipPacket)
    (h : Printable packet) (hsum : packet.checksum=calcChecksum packet)
    (hdata : packet.data=some data) :
    transmit w (handleIncomingIpPacket libc env w.manager ipPacket)=deliver w env n ∨
      transmit w (handleIncomingIpPacket libc env w.manager ipPacket)=w := by
  rcases dispatched_or_dropped libc env hcreate h hsum hdata with he|he
  · left
    rw [he,deliver,hn]
    simp only [if_true]
  · right
    rw [he,transmit,returned,List.append_nil]

/-- The world after an action. -/
def step (pair : Pair) (w : World) : Action → World
  | .sendWindow party env =>
    transmit w (servePass (checkAndHandleSendWindow env) w.manager (pair.idOf party))
  | .statusMessages party env =>
    transmit w (servePass (checkAndHandleOutgoingStatusMessages env) w.manager (pair.idOf party))
  | .close party env =>
    transmit w (checkAndHandleSocketEndFifo env w.manager (pair.idOf party) true)
  | .deliver env n => deliver w env n
  | .clients files => {w with manager := {w.manager with files := files}}

/-- No close command is read for a connecting socket, which would take the
entry of its key away. -/
def KeepsEntries (pair : Pair) (w : World) : Action → Prop
  | .close party _ => ∀ i sock,
    pointerTo w.manager.sockets (pair.idOf party)=some (i,sock) → sock.state≠.synSent
  | _ => True

/-- The world right after the client's connect request was granted: the client
is connecting, the listening socket listens, there is no connection of the
pair and nothing was sent. -/
structure Connecting (pair : Pair) (w : World) (ic il : Fin hashMapDefaultSize) (isn : ℤ) :
    Prop where
  /-- The manager has the pair's ip. -/
  ip : w.manager.ip=pair.ip
  /-- It is not an empty one: the manager serves no requests of sockets on it. -/
  proper : isEmptyIp pair.ip=false
  /-- Keys are unique. -/
  unique : w.manager.sockets.KeysUnique
  /-- The client is connecting. -/
  client : ∃ sock,w.manager.sockets.table ic=some sock ∧ sock.id=pair.clientId ∧
    sock.state=.synSent ∧ sock.seqOfFirstSendWindow=isn
  /-- The listening socket listens. -/
  listener : ∃ sock,w.manager.sockets.table il=some sock ∧ sock.id=pair.listenerId ∧
    sock.state=.listen
  /-- Nobody else has the key of the pair's connection. -/
  fresh : ∀ j sock,w.manager.sockets.table j=some sock → sock.id=pair.acceptedId → j=ic
  /-- Nothing was sent. -/
  unsent : w.sent=[]

/-- The ports of a packet of the pair. -/
def OfPair (pair : Pair) (packet : TCPPacket) : Prop :=
  packet.srcPort=pair.clientPort ∧ packet.dstPort=pair.serverPort ∨
    packet.srcPort=pair.serverPort ∧ packet.dstPort=pair.clientPort

/-- What holds whatever the ports are: which sockets and packets there are. -/
structure Inhabited (pair : Pair) (start : World) (ic : Fin hashMapDefaultSize) (w : World) :
    Prop where
  /-- The manager has the pair's ip. -/
  ip : w.manager.ip=pair.ip
  /-- Keys are unique. -/
  unique : w.manager.sockets.KeysUnique
  /-- The client keeps its slot and its key. -/
  client : ∃ sock,w.manager.sockets.table ic=some sock ∧ sock.id=pair.clientId
  /-- Only the listening socket listens. -/
  silent : ∀ j sock,w.manager.sockets.table j=some sock →
    sock.id=pair.clientId ∨ sock.id=pair.acceptedId → sock.state≠.listen
  /-- What was sent to the pair's ip was sent within the pair. -/
  ports : ∀ packet,(packet,pair.ip)∈w.sent → OfPair pair packet
  /-- All that was made is the pair's connection. -/
  made : ∀ j sock,start.manager.sockets.table j=none →
    w.manager.sockets.table j=some sock → sock.id=pair.acceptedId

/-- What one action does to the table and the network: nothing, a step of one
party's socket, a packet handled by the listening socket, or a new
connection. -/
inductive Effect (pair : Pair) (w w' : World) : Prop
  /-- Nothing happens. -/
  | nothing (htable : w'.manager.sockets.table=w.manager.sockets.table) (hsent : w'.sent=w.sent)
  /-- One socket makes a step and sends to its partner. -/
  | moved (i : Fin hashMapDefaultSize) (s s' : Socket) (incoming : Option TCPPacket)
    (out : List TCPPacket) (party : Party) (hs : w.manager.sockets.table i=some s)
    (hid : s.id=pair.idOf party)
    (htable : w'.manager.sockets.table=Function.update w.manager.sockets.table i (some s'))
    (hmoved : Moved incoming s s' out)
    (hsent : w'.sent=w.sent++out.map fun r => (r,s.id.dstIp))
    (hincoming : ∀ p,incoming=some p → ∃ packet,(packet,pair.ip)∈w.sent ∧ p=asReceived packet ∧
      receiverId pair.ip pair.ip p=s.id)
  /-- The listening socket handles a packet without making a connection. -/
  | listened (i : Fin hashMapDefaultSize) (s s' : Socket) (out : List (TCPPacket × CString))
    (hs : w.manager.sockets.table i=some s) (hid : s.id=pair.listenerId) (hid' : s'.id=s.id)
    (htable : w'.manager.sockets.table=Function.update w.manager.sockets.table i (some s'))
    (hsent : w'.sent=w.sent++out) (hout : ∀ r∈out,r.2=emptyIp)
  /-- The listening socket makes the connection, for a SYN of the client. -/
  | made (i j : Fin hashMapDefaultSize) (s s' new : Socket) (packet : TCPPacket)
    (out : List (TCPPacket × CString)) (hs : w.manager.sockets.table i=some s)
    (hid : s.id=pair.listenerId) (hid' : s'.id=s.id) (hji : j≠i)
    (hj : w.manager.sockets.table j=none)
    (htable : w'.manager.sockets.table=Function.update (Function.update
      w.manager.sockets.table j (some new)) i (some s'))
    (hnew : new.id=pair.acceptedId ∧ new.state=.synReceived ∧
      new.seqOfFirstRecvWindow=packet.seqNum+1)
    (hfresh : ∀ k other,w.manager.sockets.table k=some other → other.id≠pair.acceptedId)
    (hpacket : (packet,pair.ip)∈w.sent) (hsyn : packet.has synFlag=true)
    (hports : packet.srcPort=pair.clientPort ∧ packet.dstPort=pair.serverPort)
    (hsent : w'.sent=w.sent++out) (hout : ∀ r∈out,r.2=emptyIp)

section

variable {pair : Pair} {start w w' : World} {ic il : Fin hashMapDefaultSize} {isn : ℤ}

/-- A pass of a party is a step of its socket. -/
theorem servePass_effect {pass : Socket → Passed}
    (hpass : ∀ s,Moved none s (pass s).socket (pass s).sent) (party : Party) :
    Effect pair w (transmit w (servePass pass w.manager (pair.idOf party))) := by
  unfold servePass
  cases hpointer : pointerTo w.manager.sockets (pair.idOf party) with
  | none => exact .nothing rfl (List.append_nil _)
  | some pointer =>
    obtain ⟨i,s⟩ := pointer
    obtain ⟨_,hs,hid⟩ := pointerTo_spec hpointer
    refine .moved i s (pass s).socket none (pass s).sent party hs hid
      (HashMap.setSocket_table hs _) (hpass s) ?_ (fun p hp => by cases hp)
    rw [hid]
    rfl

/-- A close command that keeps the entry is a step of its socket. -/
theorem close_effect {party : Party} {env : Env} (hk : KeepsEntries pair w (.close party env)) :
    Effect pair w (step pair w (.close party env)) := by
  simp only [step]
  unfold checkAndHandleSocketEndFifo
  cases hpointer : pointerTo w.manager.sockets (pair.idOf party) with
  | none => exact .nothing rfl (List.append_nil _)
  | some pointer =>
    obtain ⟨i,s⟩ := pointer
    obtain ⟨_,hs,hid⟩ := pointerTo_spec hpointer
    have hopen : checkAndHandleClosedSocket env (storeSocket w.manager i (closeCommand env s))
        (closeCommand env s)=returned 0 (storeSocket w.manager i (closeCommand env s)) := by
      rw [checkAndHandleClosedSocket,if_neg]
      rintro ⟨h,_⟩
      cases h
    simp only [if_true,hopen]
    exact .moved i s (closeCommand env s) none [] party hs hid (HashMap.setSocket_table hs _)
      (closeCommand_moved env (hk i s hpointer)) rfl (fun p hp => by cases hp)

/-- A packet of the pair that arrives goes to its receiver, or for want of one
to the listening socket. -/
theorem dispatch_effect (h : Inhabited pair start ic w) (env : Env) {packet : TCPPacket}
    (hp : (packet,pair.ip)∈w.sent) :
    Effect pair w (transmit w (dispatch env w.manager
      (receiverId pair.ip pair.ip (asReceived packet)) (asReceived packet))) := by
  obtain ⟨client,hclient,hclientId⟩ := h.client
  have hports := h.ports packet hp
  have hkey : receiverId pair.ip pair.ip (asReceived packet)=pair.clientId ∨
      receiverId pair.ip pair.ip (asReceived packet)=pair.acceptedId ∧
        packet.srcPort=pair.clientPort ∧ packet.dstPort=pair.serverPort := by
    rcases hports with ⟨hsrc,hdst⟩|⟨hsrc,hdst⟩
    · right
      refine ⟨?_,hsrc,hdst⟩
      rw [receiverId,Pair.acceptedId,←hsrc,←hdst]
      rfl
    · left
      rw [receiverId,Pair.clientId,←hsrc,←hdst]
      rfl
  cases hfound : w.manager.sockets.indexOf (receiverId pair.ip pair.ip (asReceived packet)) with
  | some i =>
    obtain ⟨s,hs,hid⟩ := HashMap.indexOf_spec hfound
    obtain ⟨party,hparty⟩ : ∃ party,s.id=pair.idOf party := by
      rcases hkey with hkey|⟨hkey,_⟩
      · exact ⟨.client,hid.trans hkey⟩
      · exact ⟨.accepted,hid.trans hkey⟩
    have hl : s.state≠.listen := by
      apply h.silent i s hs
      rcases hkey with hkey|⟨hkey,_⟩
      · exact Or.inl (hid.trans hkey)
      · exact Or.inr (hid.trans hkey)
    obtain ⟨htable,_,_⟩ := handOver_other env (receiverId pair.ip pair.ip (asReceived packet))
      (asReceived packet) hs hl
    have hsent := handOver_sent env (receiverId pair.ip pair.ip (asReceived packet))
      (asReceived packet) hs
    rw [dispatch_exact env (asReceived packet) hfound]
    refine .moved i s _ (some (asReceived packet)) _ party hs hparty htable
      (handlePacket_moved env w.manager (asReceived packet) _ hl) ?_ ?_
    · rw [transmit,hsent,hid]
    · intro p hpsome
      obtain rfl := Option.some.inj hpsome
      exact ⟨packet,hp,rfl,hid.symm⟩
  | none =>
    obtain ⟨hkeyId,hsrc,hdst⟩ : receiverId pair.ip pair.ip (asReceived packet)=pair.acceptedId ∧
        packet.srcPort=pair.clientPort ∧ packet.dstPort=pair.serverPort := by
      rcases hkey with hkey|hkey
      · rw [hkey] at hfound
        exact absurd hclientId (HashMap.indexOf_eq_none_iff.mp hfound ic client hclient)
      · exact hkey
    have hbound : (receiverId pair.ip pair.ip (asReceived packet)).boundOnly=pair.listenerId := by
      rw [hkeyId]
      rfl
    have hfresh : ∀ k other,w.manager.sockets.table k=some other → other.id≠pair.acceptedId := by
      rw [hkeyId] at hfound
      exact HashMap.indexOf_eq_none_iff.mp hfound
    cases hfound' : w.manager.sockets.indexOf
        (receiverId pair.ip pair.ip (asReceived packet)).boundOnly with
    | none =>
      rw [dispatch_nobody env (asReceived packet) hfound hfound']
      exact .nothing rfl (List.append_nil _)
    | some i =>
      obtain ⟨s,hs,hid⟩ := HashMap.indexOf_spec hfound'
      have hlistener : s.id=pair.listenerId := hid.trans hbound
      rw [dispatch_fallback env (asReceived packet) hfound hfound']
      obtain ⟨out,hout⟩ : ∃ out,out=(handOver env w.manager i
          (receiverId pair.ip pair.ip (asReceived packet)).boundOnly (asReceived packet)).sent :=
        ⟨_,rfl⟩
      have hsent := handOver_sent env (receiverId pair.ip pair.ip (asReceived packet)).boundOnly
        (asReceived packet) hs
      have hips : ∀ r∈out,r.2=emptyIp := by
        intro r hr
        rw [hout,hsent] at hr
        obtain ⟨reply,_,rfl⟩ := List.mem_map.mp hr
        rfl
      by_cases hl : s.state=.listen
      · obtain ⟨listener,hid',_,_,⟨htable,_⟩|⟨hsyn,_,_,_,j,hji,hj,htable⟩⟩ :=
          handOver_listen env (receiverId pair.ip pair.ip (asReceived packet)).boundOnly
            (asReceived packet) hs hl
        · exact .listened i s listener out hs hlistener hid' htable (by rw [hout]; rfl) hips
        · have hnewId : (newConnection env s (asReceived packet)
              (receiverId pair.ip pair.ip (asReceived packet)).boundOnly.srcIp).id=
                pair.acceptedId := by
            rw [newConnection]
            simp only [createNewSocket,connectionId]
            rw [hlistener,Pair.acceptedId,←hsrc]
            rfl
          exact .made i j s listener _ packet out hs hlistener hid' hji hj htable
            ⟨hnewId,rfl,rfl⟩ hfresh hp hsyn ⟨hsrc,hdst⟩ (by rw [hout]; rfl) hips
      · obtain ⟨htable,hid',_⟩ := handOver_other env
          (receiverId pair.ip pair.ip (asReceived packet)).boundOnly (asReceived packet) hs hl
        exact .listened i s _ out hs hlistener hid' htable (by rw [hout]; rfl) hips

/-- Every action has such an effect. -/
theorem step_effect (h : Inhabited pair start ic w) {a : Action} (hk : KeepsEntries pair w a) :
    Effect pair w (step pair w a) := by
  cases a with
  | sendWindow party env => exact servePass_effect (checkAndHandleSendWindow_moved env) party
  | statusMessages party env =>
    exact servePass_effect (checkAndHandleOutgoingStatusMessages_moved env) party
  | close party env => exact close_effect hk
  | clients files => exact .nothing rfl rfl
  | deliver env n =>
    simp only [step,deliver]
    cases hn : w.sent[n]? with
    | none => exact .nothing rfl rfl
    | some sent =>
      obtain ⟨packet,ip⟩ := sent
      simp only
      split
      · next hip =>
        have hp : (packet,pair.ip)∈w.sent := by
          rw [←h.ip,←hip]
          exact List.mem_of_getElem? hn
        rw [hip,h.ip]
        exact dispatch_effect h env hp
      · exact .nothing rfl rfl

/-- No action changes the manager's ip. -/
theorem step_ip (w : World) (a : Action) : (step pair w a).manager.ip=w.manager.ip := by
  have hpass : ∀ pass key,(servePass pass w.manager key).manager.ip=w.manager.ip := by
    intro pass key
    unfold servePass
    split <;> rfl
  cases a with
  | sendWindow party env => exact hpass _ _
  | statusMessages party env => exact hpass _ _
  | clients files => rfl
  | close party env =>
    simp only [step,transmit,checkAndHandleSocketEndFifo]
    split
    · rfl
    · simp only [if_true]
      unfold checkAndHandleClosedSocket removeAndDestroySocket
      split
      · split <;> rfl
      · rfl
  | deliver env n =>
    simp only [step,deliver]
    split
    · rfl
    · split
      · exact dispatch_ip env _ _
      · rfl

/-- The keys of the pair's sockets differ from the listening socket's. -/
theorem listenerId_ne (hproper : isEmptyIp pair.ip=false) :
    pair.listenerId≠pair.clientId ∧ pair.listenerId≠pair.acceptedId := by
  have hne : emptyIp≠pair.ip := by
    intro h
    rw [←h] at hproper
    cases hproper
  exact ⟨fun h => hne (congrArg SocketID.dstIp h),fun h => hne (congrArg SocketID.dstIp h)⟩

/-- What a party sends beyond its own ip's world is of no concern. -/
theorem mem_sent_append {sent out : List (TCPPacket × CString)} {packet : TCPPacket}
    (hproper : isEmptyIp pair.ip=false) (hout : ∀ r∈out,r.2=emptyIp)
    (h : (packet,pair.ip)∈sent++out) : (packet,pair.ip)∈sent := by
  rcases List.mem_append.mp h with h|h
  · exact h
  · have hempty : pair.ip=emptyIp := hout _ h
    rw [hempty] at hproper
    cases hproper

/-- A step of one party sends packets of the pair. -/
theorem moved_ports {s s' : Socket} {incoming : Option TCPPacket}
    {out : List TCPPacket} {party : Party} {packet : TCPPacket}
    (hproper : isEmptyIp pair.ip=false) (hid : s.id=pair.idOf party)
    (hmoved : Moved incoming s s' out)
    (h : (packet,pair.ip)∈out.map fun r => (r,s.id.dstIp)) : packet∈out ∧ OfPair pair packet := by
  obtain ⟨r,hr,hpair⟩ := List.mem_map.mp h
  obtain ⟨rfl,hip⟩ := Prod.mk.inj hpair
  obtain ⟨hsrc,hdst⟩ := hmoved.ports r hr
  refine ⟨hr,?_⟩
  rw [hid] at hsrc hdst hip
  cases party with
  | client => exact Or.inl ⟨hsrc,hdst⟩
  | accepted => exact Or.inr ⟨hsrc,hdst⟩
  | listener =>
    have hempty : emptyIp=pair.ip := hip
    rw [←hempty] at hproper
    cases hproper

/-- A socket of the new table was there before, with the same key in the same
slot, or it is the pair's new connection. -/
theorem Effect.origin (h : Effect pair w w') {j : Fin hashMapDefaultSize} {sock : Socket}
    (hj : w'.manager.sockets.table j=some sock) :
    (∃ old,w.manager.sockets.table j=some old ∧ sock.id=old.id) ∨
      w.manager.sockets.table j=none ∧ sock.id=pair.acceptedId := by
  cases h with
  | nothing htable =>
    rw [htable] at hj
    exact Or.inl ⟨sock,hj,rfl⟩
  | moved i s s' incoming out party hs hid htable hmoved =>
    rw [htable] at hj
    rcases update_some_cases hj with ⟨rfl,rfl⟩|⟨_,hold⟩
    · exact Or.inl ⟨s,hs,hmoved.id⟩
    · exact Or.inl ⟨sock,hold,rfl⟩
  | listened i s s' out hs hid hid' htable =>
    rw [htable] at hj
    rcases update_some_cases hj with ⟨rfl,rfl⟩|⟨_,hold⟩
    · exact Or.inl ⟨s,hs,hid'⟩
    · exact Or.inl ⟨sock,hold,rfl⟩
  | made i k s s' new packet out hs hid hid' hki hk htable hnew =>
    rw [htable] at hj
    rcases update_some_cases hj with ⟨rfl,rfl⟩|⟨_,hj⟩
    · exact Or.inl ⟨s,hs,hid'⟩
    rcases update_some_cases hj with ⟨rfl,rfl⟩|⟨_,hold⟩
    · exact Or.inr ⟨hk,hnew.1⟩
    · exact Or.inl ⟨sock,hold,rfl⟩

/-- No socket vanishes or changes its key. -/
theorem Effect.keeps (h : Effect pair w w') {j : Fin hashMapDefaultSize} {old : Socket}
    (hj : w.manager.sockets.table j=some old) :
    ∃ sock,w'.manager.sockets.table j=some sock ∧ sock.id=old.id := by
  have hupdate : ∀ (i : Fin hashMapDefaultSize) (s s' : Socket) (table : _ → Option Socket),
      table i=some s → s'.id=s.id → table j=some old →
      ∃ sock,Function.update table i (some s') j=some sock ∧ sock.id=old.id := by
    intro i s s' table hi hid hold
    by_cases hji : j=i
    · subst hji
      obtain rfl := Option.some.inj (hi.symm.trans hold)
      exact ⟨s',Function.update_self _ _ _,hid⟩
    · exact ⟨old,by rw [Function.update_of_ne hji,hold],rfl⟩
  cases h with
  | nothing htable => exact ⟨old,by rw [htable,hj],rfl⟩
  | moved i s s' incoming out party hs hid htable hmoved =>
    rw [htable]
    exact hupdate i s s' _ hs hmoved.id hj
  | listened i s s' out hs hid hid' htable =>
    rw [htable]
    exact hupdate i s s' _ hs hid' hj
  | made i k s s' new packet out hs hid hid' hki hk htable hnew =>
    have hjk : j≠k := by
      rintro rfl
      rw [hj] at hk
      cases hk
    rw [htable]
    exact hupdate i s s' _ (by rw [Function.update_of_ne hki.symm,hs]) hid'
      (by rw [Function.update_of_ne hjk,hj])

/-- Keys stay unique. -/
theorem Effect.unique (h : Effect pair w w') (hu : w.manager.sockets.KeysUnique) :
    w'.manager.sockets.KeysUnique := by
  unfold HashMap.KeysUnique
  cases h with
  | nothing htable =>
    rw [htable]
    exact hu
  | moved i s s' incoming out party hs hid htable hmoved =>
    rw [htable]
    exact DistinctKeys.replace hu hs hmoved.id
  | listened i s s' out hs hid hid' htable =>
    rw [htable]
    exact DistinctKeys.replace hu hs hid'
  | made i k s s' new packet out hs hid hid' hki hk htable hnew hfresh =>
    have hadded : DistinctKeys Socket.id
        (Function.update w.manager.sockets.table k (some new)) := by
      refine (hu.update_iff k new).mpr ?_
      intro l other _ hother
      rw [hnew.1]
      exact hfresh l other hother
    rw [htable]
    exact hadded.replace (by rw [Function.update_of_ne hki.symm,hs]) hid'

/-- Every action keeps which sockets and packets there are. -/
theorem Inhabited.step (h : Inhabited pair start ic w) (hproper : isEmptyIp pair.ip=false)
    {a : Action} (hk : KeepsEntries pair w a) : Inhabited pair start ic (step pair w a) := by
  have hip : (Handshake.step pair w a).manager.ip=pair.ip := (step_ip w a).trans h.ip
  have heffect := step_effect h hk
  generalize Handshake.step pair w a=w' at hip heffect
  obtain ⟨client,hclient,hclientId⟩ := h.client
  obtain ⟨client',hclient',hsame⟩ := heffect.keeps hclient
  refine ⟨hip,heffect.unique h.unique,⟨client',hclient',hsame.trans hclientId⟩,?_,?_,?_⟩
  · intro j sock hj hparty hl
    cases heffect with
    | nothing htable =>
      rw [htable] at hj
      exact h.silent j sock hj hparty hl
    | moved i s s' incoming out party hs hid htable hmoved =>
      rw [htable] at hj
      rcases update_some_cases hj with ⟨rfl,rfl⟩|⟨_,hold⟩
      · rw [hmoved.id] at hparty
        exact h.silent j s hs hparty ((hmoved.first (Or.inr (Or.inr hl))).symm.trans hl)
      · exact h.silent j sock hold hparty hl
    | listened i s s' out hs hid hid' htable =>
      rw [htable] at hj
      rcases update_some_cases hj with ⟨rfl,rfl⟩|⟨_,hold⟩
      · rw [hid',hid] at hparty
        rcases hparty with hp|hp
        · exact (listenerId_ne hproper).1 hp
        · exact (listenerId_ne hproper).2 hp
      · exact h.silent j sock hold hparty hl
    | made i k s s' new packet out hs hid hid' hki hk htable hnew =>
      rw [htable] at hj
      rcases update_some_cases hj with ⟨rfl,rfl⟩|⟨_,hj⟩
      · rw [hid',hid] at hparty
        rcases hparty with hp|hp
        · exact (listenerId_ne hproper).1 hp
        · exact (listenerId_ne hproper).2 hp
      rcases update_some_cases hj with ⟨rfl,rfl⟩|⟨_,hold⟩
      · rw [hnew.2.1] at hl
        cases hl
      · exact h.silent j sock hold hparty hl
  · intro packet hp
    cases heffect with
    | nothing _ hsent =>
      rw [hsent] at hp
      exact h.ports packet hp
    | moved i s s' incoming out party hs hid htable hmoved hsent =>
      rw [hsent] at hp
      rcases List.mem_append.mp hp with hp|hp
      · exact h.ports packet hp
      · exact (moved_ports hproper hid hmoved hp).2
    | listened i s s' out hs hid hid' htable hsent hout =>
      rw [hsent] at hp
      exact h.ports packet (mem_sent_append hproper hout hp)
    | made i k s s' new packet' out hs hid hid' hki hk htable hnew hfresh hpacket hsyn hports
        hsent hout =>
      rw [hsent] at hp
      exact h.ports packet (mem_sent_append hproper hout hp)
  · intro j sock hstart hj
    rcases heffect.origin hj with ⟨old,hold,hid⟩|⟨_,hid⟩
    · rw [hid]
      exact h.made j old hstart hold
    · exact hid

/-- The client's slot is the only one with the client's key. -/
theorem Inhabited.client_slot (hi : Inhabited pair start ic w) {i : Fin hashMapDefaultSize}
    {s : Socket} (hs : w.manager.sockets.table i=some s) (hid : s.id=pair.clientId) : i=ic := by
  obtain ⟨client,hclient,hclientId⟩ := hi.client
  exact hi.unique i ic s client hs hclient (hid.trans hclientId.symm)

/-- What the connect request leaves is a start of the invariants. -/
theorem Connecting.inhabited (h : Connecting pair start ic il isn) :
    Inhabited pair start ic start := by
  obtain ⟨client,hclient,hid,hstate,_⟩ := h.client
  refine ⟨h.ip,h.unique,⟨client,hclient,hid⟩,?_,?_,?_⟩
  · intro j sock hj hparty
    have hjic : j=ic := by
      rcases hparty with hp|hp
      · exact h.unique j ic sock client hj hclient (hp.trans hid.symm)
      · exact h.fresh j sock hj hp
    subst hjic
    obtain rfl := Option.some.inj (hclient.symm.trans hj)
    rw [hstate]
    decide
  · intro packet hp
    rw [h.unsent] at hp
    cases hp
  · intro j sock hnone hsome
    rw [hnone] at hsome
    cases hsome

/-- A connect request that is granted starts the handshake, with a first number
between 1 and 2000. -/
theorem connecting_of_request {libc : Libc} {env : Env} {manager : NetworkManager}
    {request : CString} {i : Fin hashMapDefaultSize} {sock listening : Socket}
    (hu : manager.sockets.KeysUnique) (hip : manager.ip=pair.ip)
    (hproper : isEmptyIp pair.ip=false) (hsock : manager.sockets.table i=some sock)
    (hid : sock.id=⟨pair.clientPort,emptyPort,pair.ip,emptyIp⟩) (hclosed : sock.state=.closed)
    (hrequest : scanConnectRequest libc request=some (pair.ip,pair.serverPort))
    (hlistening : manager.sockets.table il=some listening ∧ listening.id=pair.listenerId ∧
      listening.state=.listen)
    (hfresh : ∀ j other,manager.sockets.table j=some other → other.id≠pair.acceptedId)
    (hgranted : (checkAndHandleConnectRequest libc env manager sock.id (some request)).result=
      breakIteration) :
    ∃ ic isn,(1 ≤ isn ∧ isn ≤ 2000) ∧ Connecting pair
      ⟨(checkAndHandleConnectRequest libc env manager sock.id (some request)).manager,[]⟩
        ic il isn := by
  have hpointer := pointerTo_stored hu hsock
  obtain ⟨hremoved,hremovedTable⟩ := HashMap.hashmapRemove_of_found (pointerTo_spec hpointer).1
  have hrange : 1 ≤ (env.rand.val : ℤ)%2000+1 ∧ (env.rand.val : ℤ)%2000+1 ≤ 2000 := by omega
  have hnewId : (connecting env sock pair.ip pair.serverPort).id=pair.clientId := by
    rw [connecting,hid]
    rfl
  unfold checkAndHandleConnectRequest at hgranted ⊢
  simp only [hpointer,hrequest,Option.bind_some,hclosed,ne_eq,not_true_eq_false,if_false,hremoved,
    Bool.true_eq_false] at hgranted ⊢
  split at hgranted
  · cases hgranted
  next htaken =>
  rw [if_neg htaken]
  rcases (manager.sockets.hashmapRemove sock.id).2.insertSocket_cases
      (connecting env sock pair.ip pair.serverPort) with ⟨he,_⟩|⟨j,hj,he,_⟩
  · rw [he] at hgranted
    cases hgranted
  have hunique := (hu.hashmapRemove sock.id).insertSocket
    (connecting env sock pair.ip pair.serverPort)
  have htable : ((manager.sockets.hashmapRemove sock.id).2.fill j hj
      (connecting env sock pair.ip pair.serverPort)).table=
      Function.update (Function.update manager.sockets.table i none) j
        (some (connecting env sock pair.ip pair.serverPort)) := by
    rw [HashMap.fill_table,hremovedTable]
  have hili : il≠i := by
    rintro rfl
    obtain rfl := Option.some.inj (hlistening.1.symm.trans hsock)
    rw [hlistening.2.2] at hclosed
    cases hclosed
  have hilj : il≠j := by
    rintro rfl
    rw [hremovedTable,Function.update_of_ne hili,hlistening.1] at hj
    cases hj
  rw [he] at hunique ⊢
  simp only [if_true]
  refine ⟨j,(env.rand.val : ℤ)%2000+1,hrange,hip,hproper,hunique,?_,?_,?_,rfl⟩
  · exact ⟨connecting env sock pair.ip pair.serverPort,
      by simp only [returned,htable,Function.update_self],hnewId,rfl,rfl⟩
  · refine ⟨listening,?_,hlistening.2⟩
    simp only [returned,htable,Function.update_of_ne hilj,Function.update_of_ne hili,hlistening.1]
  · intro k other hother hkey
    simp only [returned,htable] at hother
    rcases update_some_cases hother with ⟨hk,_⟩|⟨_,hrest⟩
    · exact hk
    · by_cases hki : k=i
      · rw [hki,Function.update_self] at hrest
        cases hrest
      · rw [Function.update_of_ne hki] at hrest
        exact absurd hkey (hfresh k other hrest)

end

end NetworkLayer.Handshake
