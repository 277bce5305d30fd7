import NetworkLayer.Handshake

/-!
# Agreement after the handshake

The numbers of both sockets agree as long as the client is established and the
connection waits for its acknowledgement: the connection expects the client's
first number, and the client expects the connection's. What keeps this are the
packets in flight. Every SYN carries the client's first number, every SYN|ACK
the waiting connection's, and nobody sends an ACK before the client is
established.
-/

namespace NetworkLayer.HandshakeAgreement

open ByteStrings UtilTypes Hashmap SlotTables FifoUtils TcpPackets
open PacketHandlers PacketDispatch SocketRequests HandshakeMoves Handshake StepRuns

/-- A socket is the connection of the pair. -/
def Accepted (pair : Pair) (w : World) (j : Fin hashMapDefaultSize) (s : Socket) : Prop :=
  w.manager.sockets.table j=some s ∧ s.id=pair.acceptedId

/-- The client is established. -/
def ClientEstablished (ic : Fin hashMapDefaultSize) (w : World) : Prop :=
  ∃ client,w.manager.sockets.table ic=some client ∧ client.state=.established

/-- The invariant of the handshake. `past` says that the client was established
before. -/
structure Aligned (pair : Pair) (ic : Fin hashMapDefaultSize) (isn : ℤ) (past : Prop)
    (w : World) : Prop where
  /-- The connecting client has its first number; it opens only by being
  established, and never connects again. -/
  client : ∀ c,w.manager.sockets.table ic=some c →
    (c.state=.synSent → c.seqOfFirstSendWindow=isn) ∧
    (Opened c.state → c.state=.established ∨ past) ∧ (past → c.state≠.synSent) ∧
    c.state≠.synReceived
  /-- The waiting connection expects the client's first number, and it is
  established after the client. -/
  accepted : ∀ j s,Accepted pair w j s → s.state≠.synSent ∧
    (s.state=.synReceived → s.seqOfFirstRecvWindow=isn) ∧ (s.state=.established → past)
  /-- The established client and the waiting connection agree. -/
  agree : ∀ c j s,w.manager.sockets.table ic=some c → Accepted pair w j s →
    c.state=.established → s.state=.synReceived →
    c.seqOfFirstSendWindow=isn ∧ c.seqOfFirstRecvWindow=s.seqOfFirstSendWindow
  /-- The client is established by a connection only. -/
  opened : past ∨ ClientEstablished ic w → ∃ j s,Accepted pair w j s
  /-- The client's packets: a SYN has the first number and no ACK, and an ACK
  was sent by an established client, or to a connection that waits no longer. -/
  fromClient : ∀ packet,(packet,pair.ip)∈w.sent → packet.srcPort=pair.clientPort →
    (packet.has synFlag=true → packet.seqNum=isn-1 ∧ packet.has ackFlag=false) ∧
    (packet.has ackFlag=true → past ∨ ∃ j s,Accepted pair w j s ∧ s.state≠.synReceived)
  /-- A waiting connection has sent nothing but its SYN|ACK. -/
  fromAccepted : ∀ packet,(packet,pair.ip)∈w.sent → packet.srcPort=pair.serverPort →
    ∃ j s,Accepted pair w j s ∧ (s.state=.synReceived →
      packet.flags=synFlag ||| ackFlag ∧ packet.seqNum=s.seqOfFirstSendWindow-1)

section

variable {pair : Pair} {start w w' : World} {ic : Fin hashMapDefaultSize} {isn : ℤ}
variable {past : Prop}

/-- The past grows. -/
theorem Aligned.weaken (h : Aligned pair ic isn past w) :
    Aligned pair ic isn (past ∨ ClientEstablished ic w) w where
  client := by
    intro c hc
    obtain ⟨hsent,hopened,hpast,hreceived⟩ := h.client c hc
    refine ⟨hsent,fun ho => (hopened ho).imp_right Or.inl,?_,hreceived⟩
    rintro (hp|⟨c',hc',he⟩)
    · exact hpast hp
    · obtain rfl := Option.some.inj (hc.symm.trans hc')
      rw [he]
      decide
  accepted := by
    intro j s hs
    obtain ⟨hsent,hrecv,he⟩ := h.accepted j s hs
    exact ⟨hsent,hrecv,fun hstate => Or.inl (he hstate)⟩
  agree := h.agree
  opened := by
    rintro ((hp|hc)|hc)
    · exact h.opened (Or.inl hp)
    · exact h.opened (Or.inr hc)
    · exact h.opened (Or.inr hc)
  fromClient := by
    intro packet hp hsrc
    obtain ⟨hsyn,hack⟩ := h.fromClient packet hp hsrc
    exact ⟨hsyn,fun ha => (hack ha).imp_left Or.inl⟩
  fromAccepted := h.fromAccepted

/-- An effect that touches neither party's socket and sends nothing within the
pair keeps the invariant. -/
theorem Aligned.frame (h : Aligned pair ic isn past w)
    (hclient : w'.manager.sockets.table ic=w.manager.sockets.table ic)
    (haccepted : ∀ j s,Accepted pair w' j s ↔ Accepted pair w j s)
    (hsent : ∀ packet,(packet,pair.ip)∈w'.sent → (packet,pair.ip)∈w.sent) :
    Aligned pair ic isn past w' where
  client := by
    rw [hclient]
    exact h.client
  accepted := fun j s hs => h.accepted j s ((haccepted j s).mp hs)
  agree := by
    intro c j s hc hs
    rw [hclient] at hc
    exact h.agree c j s hc ((haccepted j s).mp hs)
  opened := by
    intro hp
    have hp' : past ∨ ClientEstablished ic w := by
      unfold ClientEstablished at hp ⊢
      rwa [hclient] at hp
    obtain ⟨j,s,hs⟩ := h.opened hp'
    exact ⟨j,s,(haccepted j s).mpr hs⟩
  fromClient := by
    intro packet hp hsrc
    obtain ⟨hsyn,hack⟩ := h.fromClient packet (hsent packet hp) hsrc
    refine ⟨hsyn,fun ha => (hack ha).imp_right ?_⟩
    rintro ⟨j,s,hs,hstate⟩
    exact ⟨j,s,(haccepted j s).mpr hs,hstate⟩
  fromAccepted := by
    intro packet hp hsrc
    obtain ⟨j,s,hs,hpacket⟩ := h.fromAccepted packet (hsent packet hp) hsrc
    exact ⟨j,s,(haccepted j s).mpr hs,hpacket⟩

/-- There is one connection of the pair at most. -/
theorem accepted_unique (hu : w.manager.sockets.KeysUnique) {j k : Fin hashMapDefaultSize}
    {s t : Socket} (hs : Accepted pair w j s) (ht : Accepted pair w k t) : j=k ∧ s=t := by
  have hjk : j=k := hu j k s t hs.1 ht.1 (hs.2.trans ht.2.symm)
  subst hjk
  exact ⟨rfl,Option.some.inj (hs.1.symm.trans ht.1)⟩

/-- A write to a socket that is no connection of the pair. -/
theorem accepted_update {i : Fin hashMapDefaultSize} {s s' : Socket}
    (hs : w.manager.sockets.table i=some s) (hid : s'.id=s.id) (hne : s.id≠pair.acceptedId)
    (htable : w'.manager.sockets.table=Function.update w.manager.sockets.table i (some s'))
    (j : Fin hashMapDefaultSize) (t : Socket) : Accepted pair w' j t ↔ Accepted pair w j t := by
  unfold Accepted
  rw [htable]
  constructor
  · rintro ⟨ht,htid⟩
    rcases update_some_cases ht with ⟨_,rfl⟩|⟨_,hold⟩
    · exact absurd (hid.symm.trans htid) hne
    · exact ⟨hold,htid⟩
  · rintro ⟨ht,htid⟩
    have hji : j≠i := by
      rintro rfl
      obtain rfl := Option.some.inj (hs.symm.trans ht)
      exact hne htid
    exact ⟨by rw [Function.update_of_ne hji,ht],htid⟩

/-- A step of the listening socket touches neither party. -/
theorem Aligned.listener (h : Aligned pair ic isn past w) (hi : Inhabited pair start ic w)
    (hproper : isEmptyIp pair.ip=false) {i : Fin hashMapDefaultSize} {s s' : Socket}
    (hs : w.manager.sockets.table i=some s) (hid : s.id=pair.listenerId) (hid' : s'.id=s.id)
    (htable : w'.manager.sockets.table=Function.update w.manager.sockets.table i (some s'))
    (hsent : ∀ packet,(packet,pair.ip)∈w'.sent → (packet,pair.ip)∈w.sent) :
    Aligned pair ic isn past w' := by
  obtain ⟨hneClient,hneAccepted⟩ := listenerId_ne hproper
  obtain ⟨client,hclient,hclientId⟩ := hi.client
  have hic : ic≠i := by
    rintro rfl
    obtain rfl := Option.some.inj (hclient.symm.trans hs)
    exact hneClient (hid.symm.trans hclientId)
  refine h.frame ?_ (accepted_update hs hid' (by rw [hid]; exact hneAccepted) htable) hsent
  rw [htable,Function.update_of_ne hic]

/-- The packet that a step of the client or of the connection handles. -/
theorem incoming_ports {p : TCPPacket} {key : SocketID}
    (hkey : receiverId pair.ip pair.ip p=key) : p.srcPort=key.dstPort ∧ p.dstPort=key.srcPort := by
  rw [←hkey]
  exact ⟨rfl,rfl⟩

/-- A packet with the flags of a SYN|ACK has a SYN and no FIN. -/
theorem synAck_flags {packet : TCPPacket} (h : packet.flags=synFlag ||| ackFlag) :
    packet.has synFlag=true ∧ packet.has finFlag=false := by
  rw [TCPPacket.has,TCPPacket.has,h]
  decide

/-- What a step of the client handles came from the connection. -/
theorem Aligned.client_incoming (h : Aligned pair ic isn past w) {s : Socket}
    {incoming : Option TCPPacket} (hid : s.id=pair.clientId)
    (hincoming : ∀ p,incoming=some p → ∃ packet,(packet,pair.ip)∈w.sent ∧ p=asReceived packet ∧
      receiverId pair.ip pair.ip p=s.id) {p : TCPPacket} (hp : incoming=some p) :
    ∃ j t,Accepted pair w j t ∧ (t.state=.synReceived →
      p.flags=synFlag ||| ackFlag ∧ p.seqNum=t.seqOfFirstSendWindow-1) := by
  obtain ⟨packet,hsent,rfl,hkey⟩ := hincoming p hp
  rw [hid] at hkey
  exact h.fromAccepted packet hsent (incoming_ports hkey).1

/-- What the client sends: a SYN of its first number and without ACK, or an ACK
once it was established or the connection waits no longer. -/
theorem client_sends {s : Socket} {incoming : Option TCPPacket} {r : TCPPacket}
    (hsends : Sends incoming s r) (hfirst : s.state=.synSent → s.seqOfFirstSendWindow=isn)
    (hreceived : s.state≠.synReceived) (hopen : Opened s.state → past)
    (hfrom : ∀ p,incoming=some p → ∃ j t,Accepted pair w j t ∧ (t.state=.synReceived →
      p.flags=synFlag ||| ackFlag ∧ p.seqNum=t.seqOfFirstSendWindow-1)) :
    (r.has synFlag=true → r.seqNum=isn-1 ∧ r.has ackFlag=false) ∧
      (r.has ackFlag=true → past ∨ ∃ j t,Accepted pair w j t ∧ t.state≠.synReceived) := by
  cases hsends with
  | syn hstate hflags hseq =>
    have hnoack : r.has ackFlag=false := by
      rw [TCPPacket.has,hflags]
      decide
    refine ⟨fun _ => ⟨by rw [hseq,hfirst hstate],hnoack⟩,?_⟩
    intro hack
    rw [hnoack] at hack
    cases hack
  | synAck hstate => exact absurd hstate hreceived
  | other hnosyn _ _ hack =>
    refine ⟨?_,?_⟩
    · intro hsyn
      rw [hnosyn] at hsyn
      cases hsyn
    · intro ha
      rcases hack ha with ho|⟨p,hp,hfin⟩
      · exact Or.inl (hopen ho)
      · obtain ⟨k,u,hu,hflags⟩ := hfrom p hp
        refine Or.inr ⟨k,u,hu,?_⟩
        intro hstate
        rw [(synAck_flags (hflags hstate).1).2] at hfin
        cases hfin

/-- A packet that has been sent was sent before, or the step sent it. -/
theorem sent_cases {out : List TCPPacket} {dst ip : CString} {packet : TCPPacket}
    (hsent : w'.sent=w.sent++out.map fun r => (r,dst)) (hpacket : (packet,ip)∈w'.sent) :
    (packet,ip)∈w.sent ∨ packet∈out := by
  rw [hsent] at hpacket
  rcases List.mem_append.mp hpacket with hold|hnew
  · exact Or.inl hold
  · obtain ⟨r,hr,hpair⟩ := List.mem_map.mp hnew
    obtain ⟨rfl,_⟩ := Prod.mk.inj hpair
    exact Or.inr hr

/-- A step of the client keeps the invariant. -/
theorem Aligned.client_moved (h : Aligned pair ic isn past w)
    (hnow : ClientEstablished ic w → past) (hi : Inhabited pair start ic w)
    (hports : pair.clientPort≠pair.serverPort) {s s' : Socket} {incoming : Option TCPPacket}
    {out : List TCPPacket} (hs : w.manager.sockets.table ic=some s) (hid : s.id=pair.clientId)
    (htable : w'.manager.sockets.table=Function.update w.manager.sockets.table ic (some s'))
    (hmoved : Moved incoming s s' out) (hsent : w'.sent=w.sent++out.map fun r => (r,s.id.dstIp))
    (hincoming : ∀ p,incoming=some p → ∃ packet,(packet,pair.ip)∈w.sent ∧ p=asReceived packet ∧
      receiverId pair.ip pair.ip p=s.id) : Aligned pair ic isn past w' := by
  have hne : s.id≠pair.acceptedId := by
    rw [hid]
    exact fun he => hports (congrArg SocketID.srcPort he)
  have haccepted := accepted_update hs hmoved.id hne htable
  have hclient : ∀ c,w'.manager.sockets.table ic=some c → c=s' := by
    intro c hc
    rw [htable,Function.update_self] at hc
    exact (Option.some.inj hc).symm
  have hold := h.client s hs
  have hopen : Opened s.state → past := by
    intro ho
    rcases hold.2.1 ho with he|hp
    · exact hnow ⟨s,hs,he⟩
    · exact hp
  have hfrom : ∀ p,incoming=some p → ∃ j t,Accepted pair w j t ∧ (t.state=.synReceived →
      p.flags=synFlag ||| ackFlag ∧ p.seqNum=t.seqOfFirstSendWindow-1) :=
    fun p hp => h.client_incoming hid hincoming hp
  exact {
    client := by
      intro c hc
      obtain rfl := hclient c hc
      refine ⟨?_,?_,?_,?_⟩
      · intro hstate
        obtain ⟨hsyn,hnum⟩ := hmoved.connecting hstate
        rw [hnum.1]
        exact hold.1 hsyn
      · rintro (he|hlate)
        · exact Or.inl he
        · exact Or.inr (hopen (hmoved.opened hlate))
      · intro hp hstate
        exact hold.2.2.1 hp (hmoved.connecting hstate).1
      · intro hstate
        exact hold.2.2.2 (hmoved.waiting hstate).1
    accepted := fun j t ht => h.accepted j t ((haccepted j t).mp ht)
    agree := by
      intro c j t hc ht hce htr
      obtain rfl := hclient c hc
      have ht' := (haccepted j t).mp ht
      rcases hmoved.entered hce with he|hsyn|hr
      · have hsame : SameNumbers s c := by
          refine hmoved.established he ?_ hce
          intro p hp
          obtain ⟨k,u,hu,hflags⟩ := hfrom p hp
          obtain ⟨_,rfl⟩ := accepted_unique hi.unique ht' hu
          exact (synAck_flags (hflags htr).1).1
        obtain ⟨hsend,hrecv⟩ := h.agree s j t hs ht' he htr
        exact ⟨hsame.1.trans hsend,hsame.2.trans hrecv⟩
      · obtain ⟨hsend,p,hp,_,_,hrecv⟩ := hmoved.connected hsyn hce
        obtain ⟨k,u,hu,hflags⟩ := hfrom p hp
        obtain ⟨_,rfl⟩ := accepted_unique hi.unique ht' hu
        have hseq := (hflags htr).2
        refine ⟨hsend.trans (hold.1 hsyn),?_⟩
        rw [hrecv,hseq]
        omega
      · exact absurd hr hold.2.2.2
    opened := by
      intro hp
      have hexists : ∃ j t,Accepted pair w j t := by
        rcases hp with hp|⟨c,hc,hce⟩
        · exact h.opened (Or.inl hp)
        · obtain rfl := hclient c hc
          rcases hmoved.entered hce with he|hsyn|hr
          · exact h.opened (Or.inl (hopen (Or.inl he)))
          · obtain ⟨_,p,hp,_⟩ := hmoved.connected hsyn hce
            obtain ⟨k,u,hu,_⟩ := hfrom p hp
            exact ⟨k,u,hu⟩
          · exact absurd hr hold.2.2.2
      obtain ⟨j,t,ht⟩ := hexists
      exact ⟨j,t,(haccepted j t).mpr ht⟩
    fromClient := by
      intro packet hpacket hsrc
      have hback : (∃ j t,Accepted pair w j t ∧ t.state≠.synReceived) →
          ∃ j t,Accepted pair w' j t ∧ t.state≠.synReceived := by
        rintro ⟨j,t,ht,hstate⟩
        exact ⟨j,t,(haccepted j t).mpr ht,hstate⟩
      rcases sent_cases hsent hpacket with hpacket|hr
      · obtain ⟨hsyn,hack⟩ := h.fromClient packet hpacket hsrc
        exact ⟨hsyn,fun ha => (hack ha).imp_right hback⟩
      · obtain ⟨hsyn,hack⟩ := client_sends (hmoved.sends packet hr) hold.1 hold.2.2.2 hopen hfrom
        exact ⟨hsyn,fun ha => (hack ha).imp_right hback⟩
    fromAccepted := by
      intro packet hpacket hsrc
      rcases sent_cases hsent hpacket with hpacket|hr
      · obtain ⟨j,t,ht,hflags⟩ := h.fromAccepted packet hpacket hsrc
        exact ⟨j,t,(haccepted j t).mpr ht,hflags⟩
      · have hport := (hmoved.ports packet hr).1
        rw [hid,hsrc] at hport
        exact absurd hport.symm hports}

/-- What a step of the connection handles came from the client. -/
theorem Aligned.accepted_incoming (h : Aligned pair ic isn past w) {s : Socket}
    {incoming : Option TCPPacket} (hid : s.id=pair.acceptedId)
    (hincoming : ∀ p,incoming=some p → ∃ packet,(packet,pair.ip)∈w.sent ∧ p=asReceived packet ∧
      receiverId pair.ip pair.ip p=s.id) {p : TCPPacket} (hp : incoming=some p)
    (hack : p.has ackFlag=true) :
    past ∨ ∃ j t,Accepted pair w j t ∧ t.state≠.synReceived := by
  obtain ⟨packet,hsent,rfl,hkey⟩ := hincoming p hp
  rw [hid] at hkey
  exact (h.fromClient packet hsent (incoming_ports hkey).1).2 hack

/-- A step of the connection keeps the invariant. -/
theorem Aligned.accepted_moved (h : Aligned pair ic isn past w) (hi : Inhabited pair start ic w)
    (hports : pair.clientPort≠pair.serverPort) {i : Fin hashMapDefaultSize} {s s' : Socket}
    {incoming : Option TCPPacket} {out : List TCPPacket} (hs : Accepted pair w i s)
    (htable : w'.manager.sockets.table=Function.update w.manager.sockets.table i (some s'))
    (hmoved : Moved incoming s s' out) (hsent : w'.sent=w.sent++out.map fun r => (r,s.id.dstIp))
    (hincoming : ∀ p,incoming=some p → ∃ packet,(packet,pair.ip)∈w.sent ∧ p=asReceived packet ∧
      receiverId pair.ip pair.ip p=s.id) : Aligned pair ic isn past w' := by
  obtain ⟨client,hclient,hclientId⟩ := hi.client
  have hic : ic≠i := by
    rintro rfl
    obtain rfl := Option.some.inj (hclient.symm.trans hs.1)
    exact hports (congrArg SocketID.srcPort (hclientId.symm.trans hs.2))
  have hsame : w'.manager.sockets.table ic=w.manager.sockets.table ic := by
    rw [htable,Function.update_of_ne hic]
  have hnew : Accepted pair w' i s' := ⟨by rw [htable,Function.update_self],hmoved.id.trans hs.2⟩
  have honly : ∀ j t,Accepted pair w' j t → t=s' := by
    intro j t ht
    rcases update_some_cases (htable ▸ ht.1) with ⟨_,rfl⟩|⟨hji,hold⟩
    · rfl
    · exact absurd (accepted_unique hi.unique ⟨hold,ht.2⟩ hs).1 hji
  obtain ⟨hsyn,hrecv,hest⟩ := h.accepted i s hs
  have hleft : (∃ j t,Accepted pair w j t ∧ t.state≠.synReceived) →
      ∃ j t,Accepted pair w' j t ∧ t.state≠.synReceived := by
    rintro ⟨j,t,ht,hstate⟩
    obtain ⟨_,rfl⟩ := accepted_unique hi.unique hs ht
    exact ⟨i,s',hnew,fun hs' => hstate (hmoved.waiting hs').1⟩
  exact {
    client := by
      rw [hsame]
      exact h.client
    accepted := by
      intro j t ht
      obtain rfl := honly j t ht
      refine ⟨?_,?_,?_⟩
      · intro hstate
        exact hsyn (hmoved.connecting hstate).1
      · intro hstate
        obtain ⟨hbefore,hnum⟩ := hmoved.waiting hstate
        exact hnum.2.trans (hrecv hbefore)
      · intro hstate
        rcases hmoved.entered hstate with he|hsent'|hreceived
        · exact hest he
        · exact absurd hsent' hsyn
        · obtain ⟨p,hp,hack⟩ := hmoved.accepted hreceived hstate
          rcases h.accepted_incoming hs.2 hincoming hp hack with hpast|⟨j',u,hu,hne⟩
          · exact hpast
          · obtain ⟨_,rfl⟩ := accepted_unique hi.unique hs hu
            exact absurd hreceived hne
    agree := by
      intro c j t hc ht hce htr
      obtain rfl := honly j t ht
      rw [hsame] at hc
      obtain ⟨hbefore,hnum⟩ := hmoved.waiting htr
      obtain ⟨hsend,hagree⟩ := h.agree c i s hc hs hce hbefore
      exact ⟨hsend,hagree.trans hnum.1.symm⟩
    opened := fun _ => ⟨i,s',hnew⟩
    fromClient := by
      intro packet hpacket hsrc
      rcases sent_cases hsent hpacket with hpacket|hr
      · obtain ⟨hpsyn,hpack⟩ := h.fromClient packet hpacket hsrc
        exact ⟨hpsyn,fun ha => (hpack ha).imp_right hleft⟩
      · have hport := (hmoved.ports packet hr).1
        rw [hs.2,hsrc] at hport
        exact absurd hport hports
    fromAccepted := by
      intro packet hpacket hsrc
      rcases sent_cases hsent hpacket with hpacket|hr
      · obtain ⟨j,t,ht,hflags⟩ := h.fromAccepted packet hpacket hsrc
        obtain ⟨_,rfl⟩ := accepted_unique hi.unique hs ht
        refine ⟨i,s',hnew,?_⟩
        intro hstate
        obtain ⟨hbefore,hnum⟩ := hmoved.waiting hstate
        obtain ⟨hf,hseq⟩ := hflags hbefore
        exact ⟨hf,by rw [hseq,hnum.1]⟩
      · refine ⟨i,s',hnew,?_⟩
        intro hstate
        obtain ⟨hbefore,hnum⟩ := hmoved.waiting hstate
        cases hmoved.sends packet hr with
        | syn hsyn' => exact absurd hsyn' hsyn
        | synAck _ hflags hseq => exact ⟨hflags,by rw [hseq,hnum.1]⟩
        | other _ _ hreceived => exact absurd hbefore hreceived}

/-- The connection is made for a SYN of the connecting client, before which
nobody was established. -/
theorem Aligned.made (h : Aligned pair ic isn past w)
    (hi : Inhabited pair start ic w) (hproper : isEmptyIp pair.ip=false)
    {i j : Fin hashMapDefaultSize} {s s' new : Socket} {packet : TCPPacket}
    (hs : w.manager.sockets.table i=some s) (hid : s.id=pair.listenerId) (hid' : s'.id=s.id)
    (hji : j≠i) (hj : w.manager.sockets.table j=none)
    (htable : w'.manager.sockets.table=Function.update (Function.update
      w.manager.sockets.table j (some new)) i (some s'))
    (hnew : new.id=pair.acceptedId ∧ new.state=.synReceived ∧
      new.seqOfFirstRecvWindow=packet.seqNum+1)
    (hfresh : ∀ k other,w.manager.sockets.table k=some other → other.id≠pair.acceptedId)
    (hpacket : (packet,pair.ip)∈w.sent) (hsyn : packet.has synFlag=true)
    (hsrc : packet.srcPort=pair.clientPort)
    (hsent : ∀ packet,(packet,pair.ip)∈w'.sent → (packet,pair.ip)∈w.sent) :
    Aligned pair ic isn past w' := by
  obtain ⟨hneClient,hneAccepted⟩ := listenerId_ne hproper
  obtain ⟨client,hclient,hclientId⟩ := hi.client
  have hici : ic≠i := by
    rintro rfl
    obtain rfl := Option.some.inj (hclient.symm.trans hs)
    exact hneClient (hid.symm.trans hclientId)
  have hicj : ic≠j := by
    rintro rfl
    rw [hclient] at hj
    cases hj
  have hsame : w'.manager.sockets.table ic=w.manager.sockets.table ic := by
    rw [htable,Function.update_of_ne hici,Function.update_of_ne hicj]
  have hnobody : ∀ k t,¬Accepted pair w k t := fun k t ht => hfresh k t ht.1 ht.2
  have hclosed : ¬(past ∨ ClientEstablished ic w) := by
    intro hp
    obtain ⟨k,t,ht⟩ := h.opened hp
    exact hnobody k t ht
  have hmade : Accepted pair w' j new :=
    ⟨by rw [htable,Function.update_of_ne hji,Function.update_self],hnew.1⟩
  have honly : ∀ k t,Accepted pair w' k t → t=new := by
    intro k t ht
    rcases update_some_cases (htable ▸ ht.1) with ⟨_,rfl⟩|⟨_,hrest⟩
    · exact absurd (hid.symm.trans (hid'.symm.trans ht.2)) hneAccepted
    rcases update_some_cases hrest with ⟨_,rfl⟩|⟨_,hold⟩
    · rfl
    · exact absurd ⟨hold,ht.2⟩ (hnobody k t)
  exact {
    client := by
      rw [hsame]
      exact h.client
    accepted := by
      intro k t ht
      obtain rfl := honly k t ht
      refine ⟨by rw [hnew.2.1]; decide,?_,?_⟩
      · intro _
        have hseq := ((h.fromClient packet hpacket hsrc).1 hsyn).1
        rw [hnew.2.2,hseq]
        omega
      · intro hstate
        rw [hnew.2.1] at hstate
        cases hstate
    agree := by
      intro c k t hc _ hce _
      rw [hsame] at hc
      exact absurd (Or.inr ⟨c,hc,hce⟩) hclosed
    opened := fun _ => ⟨j,new,hmade⟩
    fromClient := by
      intro packet' hpacket' hsrc'
      obtain ⟨hpsyn,hpack⟩ := h.fromClient packet' (hsent packet' hpacket') hsrc'
      refine ⟨hpsyn,?_⟩
      intro ha
      rcases hpack ha with hpast|⟨k,t,ht,_⟩
      · exact absurd (Or.inl hpast) hclosed
      · exact absurd ht (hnobody k t)
    fromAccepted := by
      intro packet' hpacket' hsrc'
      obtain ⟨k,t,ht,_⟩ := h.fromAccepted packet' (hsent packet' hpacket') hsrc'
      exact absurd ht (hnobody k t)}

/-- Every effect keeps the invariant. -/
theorem Aligned.effect (h : Aligned pair ic isn past w) (hi : Inhabited pair start ic w)
    (hproper : isEmptyIp pair.ip=false) (hports : pair.clientPort≠pair.serverPort)
    (heffect : Effect pair w w') : Aligned pair ic isn (past ∨ ClientEstablished ic w) w' := by
  have hw := h.weaken
  cases heffect with
  | nothing htable hsent =>
    refine hw.frame (by rw [htable]) ?_ (by rw [hsent]; exact fun _ hp => hp)
    intro j s
    unfold Accepted
    rw [htable]
  | moved i s s' incoming out party hs hid htable hmoved hsent hincoming =>
    cases party with
    | client =>
      obtain rfl := hi.client_slot hs hid
      exact hw.client_moved Or.inr hi hports hs hid htable hmoved hsent hincoming
    | accepted =>
      exact hw.accepted_moved hi hports ⟨hs,hid⟩ htable hmoved hsent hincoming
    | listener =>
      refine hw.listener hi hproper hs hid hmoved.id htable ?_
      intro packet hp
      rw [hsent] at hp
      refine mem_sent_append hproper ?_ hp
      intro r hr
      obtain ⟨r',_,rfl⟩ := List.mem_map.mp hr
      rw [hid]
      rfl
  | listened i s s' out hs hid hid' htable hsent hout =>
    refine hw.listener hi hproper hs hid hid' htable ?_
    intro packet hp
    rw [hsent] at hp
    exact mem_sent_append hproper hout hp
  | made i j s s' new packet out hs hid hid' hji hj htable hnew hfresh hpacket hsyn hports'
      hsent hout =>
    refine hw.made hi hproper hs hid hid' hji hj htable hnew hfresh hpacket hsyn hports'.1 ?_
    intro packet' hp
    rw [hsent] at hp
    exact mem_sent_append hproper hout hp

/-- When both become established, they agree: it is the connection that gets
there last, and it keeps the numbers it waited with. -/
theorem Aligned.agreement (h : Aligned pair ic isn past w) (hi : Inhabited pair start ic w)
    (hproper : isEmptyIp pair.ip=false) (hports : pair.clientPort≠pair.serverPort)
    (heffect : Effect pair w w') {c s : Socket} {j : Fin hashMapDefaultSize}
    (hc : w'.manager.sockets.table ic=some c) (hs : Accepted pair w' j s)
    (hce : c.state=.established) (hse : s.state=.established) :
    (ClientEstablished ic w ∧ ∃ t,Accepted pair w j t ∧ t.state=.established) ∨
      c.seqOfFirstRecvWindow=s.seqOfFirstSendWindow ∧
        s.seqOfFirstRecvWindow=c.seqOfFirstSendWindow := by
  obtain ⟨hneClient,hneAccepted⟩ := listenerId_ne hproper
  obtain ⟨client,hclient,hclientId⟩ := hi.client
  have hlistener : ∀ i t t',w.manager.sockets.table i=some t → t.id=pair.listenerId →
      t'.id=t.id → w'.manager.sockets.table=Function.update w.manager.sockets.table i (some t') →
      ClientEstablished ic w ∧ ∃ t,Accepted pair w j t ∧ t.state=.established := by
    intro i t t' ht hid hid' htable
    have hic : ic≠i := by
      rintro rfl
      obtain rfl := Option.some.inj (hclient.symm.trans ht)
      exact hneClient (hid.symm.trans hclientId)
    rw [htable,Function.update_of_ne hic] at hc
    have hupdate := accepted_update ht hid' (by rw [hid]; exact hneAccepted) htable j s
    exact ⟨⟨c,hc,hce⟩,s,hupdate.mp hs,hse⟩
  cases heffect with
  | nothing htable =>
    rw [htable] at hc
    rw [Accepted,htable] at hs
    exact Or.inl ⟨⟨c,hc,hce⟩,s,hs,hse⟩
  | listened i t t' out ht hid hid' htable =>
    exact Or.inl (hlistener i t t' ht hid hid' htable)
  | made i k t t' new packet out ht hid hid' hki hk htable hnew hfresh =>
    rcases update_some_cases (htable ▸ hs.1) with ⟨_,rfl⟩|⟨_,hrest⟩
    · exact absurd (hid.symm.trans (hid'.symm.trans hs.2)) hneAccepted
    rcases update_some_cases hrest with ⟨_,rfl⟩|⟨_,hold⟩
    · rw [hnew.2.1] at hse
      cases hse
    · exact absurd hs.2 (hfresh j s hold)
  | moved i t t' incoming out party ht hid htable hmoved hsent hincoming =>
    cases party with
    | listener => exact Or.inl (hlistener i t t' ht hid hmoved.id htable)
    | client =>
      obtain rfl := hi.client_slot ht hid
      have hne : t.id≠pair.acceptedId := by
        rw [hid]
        exact fun he => hports (congrArg SocketID.srcPort he)
      have hold := (accepted_update ht hmoved.id hne htable j s).mp hs
      have hpast := (h.accepted j s hold).2.2 hse
      obtain ⟨_,_,hnotSent,hnotReceived⟩ := h.client t ht
      rw [htable,Function.update_self,Option.some.injEq] at hc
      subst hc
      rcases hmoved.entered hce with he|hsyn|hr
      · exact Or.inl ⟨⟨t,ht,he⟩,s,hold,hse⟩
      · exact absurd hsyn (hnotSent hpast)
      · exact absurd hr hnotReceived
    | accepted =>
      have hic : ic≠i := by
        rintro rfl
        obtain rfl := Option.some.inj (hclient.symm.trans ht)
        exact hports (congrArg SocketID.srcPort (hclientId.symm.trans hid))
      rw [htable,Function.update_of_ne hic] at hc
      rcases update_some_cases (htable ▸ hs.1) with ⟨rfl,rfl⟩|⟨hji,hold⟩
      · obtain ⟨hnotSent,hrecv,_⟩ := h.accepted j t ⟨ht,hid⟩
        rcases hmoved.entered hse with he|hsyn|hr
        · exact Or.inl ⟨⟨c,hc,hce⟩,t,⟨ht,hid⟩,he⟩
        · exact absurd hsyn hnotSent
        · obtain ⟨hsend,hagree⟩ := h.agree c j t hc ⟨ht,hid⟩ hce hr
          rcases hmoved.synReceived hr with hclosed|hf|⟨hnum,_⟩
          · rw [hclosed] at hse
            cases hse
          · rw [hf] at hse
            cases hse
          · exact Or.inr ⟨by rw [hagree,hnum.1],by rw [hnum.2,hrecv hr,hsend]⟩
      · exact absurd (accepted_unique hi.unique ⟨hold,hs.2⟩ ⟨ht,hid⟩).1 hji

end

section

variable {pair : Pair} {start : World} {ic il : Fin hashMapDefaultSize} {isn : ℤ}

/-- At the start of the run nobody was established. -/
theorem Connecting.aligned (h : Connecting pair start ic il isn)
    (hports : pair.clientPort≠pair.serverPort) : Aligned pair ic isn False start := by
  obtain ⟨client,hclient,hid,hstate,hsend⟩ := h.client
  have hnobody : ∀ j s,¬Accepted pair start j s := by
    rintro j s ⟨hj,hjid⟩
    obtain rfl := h.fresh j s hj hjid
    obtain rfl := Option.some.inj (hclient.symm.trans hj)
    exact hports (congrArg SocketID.srcPort (hid.symm.trans hjid))
  have honly : ∀ c,start.manager.sockets.table ic=some c → c=client :=
    fun c hc => (Option.some.inj (hclient.symm.trans hc)).symm
  refine ⟨?_,fun j s hs => absurd hs (hnobody j s),
    fun _ j s _ hs => absurd hs (hnobody j s),?_,?_,?_⟩
  · intro c hc
    obtain rfl := honly c hc
    refine ⟨fun _ => hsend,?_,fun hp => hp.elim,by rw [hstate]; decide⟩
    rintro (he|he|he) <;>
    · rw [hstate] at he
      cases he
  · rintro (hp|⟨c,hc,he⟩)
    · exact hp.elim
    · obtain rfl := honly c hc
      rw [hstate] at he
      cases he
  · intro packet hp
    rw [h.unsent] at hp
    cases hp
  · intro packet hp
    rw [h.unsent] at hp
    cases hp

/-- A socket is in a slot that was empty at the start. -/
def Made (start w : World) (j : Fin hashMapDefaultSize) (s : Socket) : Prop :=
  start.manager.sockets.table j=none ∧ w.manager.sockets.table j=some s

/-- The client was established strictly before the run ends. -/
def EstablishedBefore (pair : Pair) (ic : Fin hashMapDefaultSize) (start : World)
    (actions : List Action) : Prop :=
  ∃ earlier later,actions=earlier++later ∧ later≠[] ∧
    ClientEstablished ic (run (step pair) start earlier)

/-- Both are established, the connection being a new one. -/
def BothEstablished (ic : Fin hashMapDefaultSize) (start w : World) (c s : Socket) : Prop :=
  w.manager.sockets.table ic=some c ∧ c.state=.established ∧
    (∃ j,Made start w j s) ∧ s.state=.established

/-- With one more action, the client was established before exactly if it was
so already or is so now. -/
theorem establishedBefore_snoc {actions : List Action} {a : Action} :
    EstablishedBefore pair ic start (actions++[a]) ↔ EstablishedBefore pair ic start actions ∨
      ClientEstablished ic (run (step pair) start actions) := by
  constructor
  · rintro ⟨earlier,later,hsplit,hne,he⟩
    obtain ⟨rest,last,rfl⟩ := List.eq_nil_or_concat' later |>.resolve_left hne
    rw [←List.append_assoc] at hsplit
    obtain ⟨hactions,_⟩ := List.append_inj' hsplit rfl
    by_cases hrest : rest=[]
    · right
      rw [hactions,hrest,List.append_nil]
      exact he
    · exact Or.inl ⟨earlier,rest,hactions,hrest,he⟩
  · rintro (⟨earlier,later,rfl,hne,he⟩|he)
    · exact ⟨earlier,later++[a],by rw [List.append_assoc],by simp,he⟩
    · exact ⟨actions,[a],rfl,by simp,he⟩

/-- Both invariants hold where a run ends. -/
theorem run_invariants (h : Connecting pair start ic il isn) (actions : List Action)
    (hk : EachStep (step pair) (KeepsEntries pair) start actions) :
    Inhabited pair start ic (run (step pair) start actions) ∧
      (pair.clientPort≠pair.serverPort → Aligned pair ic isn
        (EstablishedBefore pair ic start actions) (run (step pair) start actions)) := by
  induction actions using List.reverseRecOn with
  | nil =>
    refine ⟨h.inhabited,?_⟩
    intro hports
    have hnever : EstablishedBefore pair ic start [] ↔ False := by
      constructor
      · rintro ⟨earlier,later,hsplit,hne,_⟩
        exact hne (List.append_eq_nil_iff.mp hsplit.symm).2
      · exact False.elim
    rw [propext hnever]
    exact Connecting.aligned h hports
  | append_singleton actions a ih =>
    obtain ⟨hi,halign⟩ := ih hk.of_append_left
    have hstep : KeepsEntries pair (run (step pair) start actions) a := hk.of_append.1
    rw [run_append,run_cons,run_nil]
    refine ⟨hi.step h.proper hstep,?_⟩
    intro hports
    rw [propext establishedBefore_snoc]
    exact (halign hports).effect hi h.proper hports (step_effect hi hstep)

/-- A new connection of a pair with two ports has the pair's key. -/
theorem Made.accepted (h : Connecting pair start ic il isn) {w : World}
    (hi : Inhabited pair start ic w) {j : Fin hashMapDefaultSize} {s : Socket}
    (hm : Made start w j s) : Accepted pair w j s ∧ pair.clientPort≠pair.serverPort := by
  obtain ⟨hstart,hs⟩ := hm
  have hid := hi.made j s hstart hs
  refine ⟨⟨hs,hid⟩,?_⟩
  intro hports
  have hclient : s.id=pair.clientId := by
    rw [hid,Pair.acceptedId,Pair.clientId,hports]
  obtain rfl := hi.client_slot hs hclient
  obtain ⟨client,hclient,_⟩ := h.client
  rw [hclient] at hstart
  cases hstart

/-- On every run of a pair from the connect request on, whatever is lost,
duplicated or reordered and whichever calls fail: at most one connection is
made, it is established only after the client was, and where both are
established for the first time, their numbers agree. -/
theorem handshake_agrees (h : Connecting pair start ic il isn) (actions : List Action)
    (hk : EachStep (step pair) (KeepsEntries pair) start actions) :
    let w := run (step pair) start actions
    (∀ j k s t,Made start w j s → Made start w k t → j=k) ∧
    (∀ j s,Made start w j s → s.state=.established → EstablishedBefore pair ic start actions) ∧
    ∀ c s,BothEstablished ic start w c s →
      (∀ earlier later,actions=earlier++later → later≠[] →
        ∀ c s,¬BothEstablished ic start (run (step pair) start earlier) c s) →
      c.seqOfFirstRecvWindow=s.seqOfFirstSendWindow ∧
        s.seqOfFirstRecvWindow=c.seqOfFirstSendWindow := by
  dsimp only
  obtain ⟨hi,halign⟩ := run_invariants h actions hk
  refine ⟨?_,?_,?_⟩
  · intro j k s t hs ht
    exact (accepted_unique hi.unique (hs.accepted h hi).1 (ht.accepted h hi).1).1
  · intro j s hs he
    obtain ⟨haccepted,hports⟩ := hs.accepted h hi
    exact ((halign hports).accepted j s haccepted).2.2 he
  · rintro c s ⟨hc,hce,⟨j,hm⟩,hse⟩ hfirst
    obtain ⟨haccepted,hports⟩ := hm.accepted h hi
    rcases List.eq_nil_or_concat' actions with rfl|⟨before,a,rfl⟩
    · have hnone : none=some s := hm.1.symm.trans hm.2
      cases hnone
    · obtain ⟨hi',halign'⟩ := run_invariants h before hk.of_append_left
      have hstep : KeepsEntries pair (run (step pair) start before) a := hk.of_append.1
      rw [run_append,run_cons,run_nil] at hc haccepted
      rcases (halign' hports).agreement hi' h.proper hports (step_effect hi' hstep) hc haccepted
        hce hse with ⟨⟨c',hc',hce'⟩,t,ht,hte⟩|hagree
      · refine absurd ⟨hc',hce',⟨j,hm.1,ht.1⟩,hte⟩ (hfirst before [a] rfl (by simp) c' t)
      · exact hagree

end

/-- Ports 90 and 80 of one ip. -/
def pair80 : Pair := ⟨onesIp,90,80⟩

/-- A manager with a socket that listens on port 80 and one that connects to it. -/
def start80 : World :=
  ⟨⟨pair80.ip,((createHashMap.insertSocket
      {createNewSocket 0 pair80.listenerId .listen with maxConnections := 5}).2.insertSocket
      (connecting (smoothEnv 0 none) (createNewSocket 0 ⟨90,emptyPort,pair80.ip,emptyIp⟩ .closed)
        pair80.ip 80)).2,fun _ => false⟩,[]⟩

/-- It is the start of a handshake. -/
theorem start80_connecting : Connecting pair80 start80 1 0 1 := by
  have hempty : createHashMap.KeysUnique := distinctKeys_empty
  refine ⟨rfl,rfl,(hempty.insertSocket _).insertSocket _,⟨_,rfl,rfl,rfl,rfl⟩,⟨_,rfl,rfl,rfl⟩,?_,rfl⟩
  intro j sock hj hid
  have htable : start80.manager.sockets.table=Function.update (Function.update (fun _ => none) 0
      (some {createNewSocket 0 pair80.listenerId .listen with maxConnections := 5})) 1
      (some (connecting (smoothEnv 0 none)
        (createNewSocket 0 ⟨90,emptyPort,pair80.ip,emptyIp⟩ .closed) pair80.ip 80)) := rfl
  rw [htable] at hj
  rcases update_some_cases hj with ⟨hone,_⟩|⟨_,hrest⟩
  · exact hone
  rcases update_some_cases hrest with ⟨_,rfl⟩|⟨_,hnone⟩
  · exact absurd hid (by decide)
  · cases hnone

/-- A SYN, the SYN|ACK and the ACK, each sent four seconds after the last. -/
def handshake80 : List Action :=
  [.statusMessages .client (smoothEnv 4000000 none),.deliver (smoothEnv 4000000 none) 0,
    .statusMessages .accepted (smoothEnv 8000000 none),.deliver (smoothEnv 8000000 none) 1,
    .sendWindow .client (smoothEnv 12000000 none),.deliver (smoothEnv 12000000 none) 2]

/-- It establishes both sockets. -/
theorem handshake_agrees_80 :
    let w := run (step pair80) start80 handshake80
    ((w.manager.sockets.table 1).map Socket.state=some .established ∧
      (w.manager.sockets.table 2).map Socket.state=some .established) ∧
    (∀ j k s t,Made start80 w j s → Made start80 w k t → j=k) ∧
    (∀ j s,Made start80 w j s → s.state=.established →
      EstablishedBefore pair80 1 start80 handshake80) ∧
    ∀ c s,BothEstablished 1 start80 w c s →
      (∀ earlier later,handshake80=earlier++later → later≠[] →
        ∀ c s,¬BothEstablished 1 start80 (run (step pair80) start80 earlier) c s) →
      c.seqOfFirstRecvWindow=s.seqOfFirstSendWindow ∧
        s.seqOfFirstRecvWindow=c.seqOfFirstSendWindow :=
  ⟨by decide +kernel,handshake_agrees start80_connecting handshake80
    ⟨trivial,trivial,trivial,trivial,trivial,trivial,trivial⟩⟩

end NetworkLayer.HandshakeAgreement
