import NetworkLayer.PacketDispatch

/-!
# Where an incoming packet can reach

A packet touches the one socket it is addressed to: the one with its whole
key, or for want of one the socket bound to its port. A listening socket that
it reaches may add one connection for a SYN. Whatever is rejected or
addressed to nobody leaves the table as it is.
-/

namespace NetworkLayer.Demultiplexing

open ByteStrings FormattedText UtilTypes Hashmap SlotTables FifoUtils TcpPackets IpPackets
open TcpCodec PacketHandlers PacketDispatch

/-- The sockets of a manager by slot. -/
abbrev Slots := Fin hashMapDefaultSize → Option Socket

/-- The socket is the one that packets with the key are for: it has the whole
key, or nobody has it and the socket is bound to the port only. -/
def Addressed (slots : Slots) (id : SocketID) (s : Socket) : Prop :=
  s.id=id ∨ (∀ j other,slots j=some other → other.id≠id) ∧ s.id=id.boundOnly

/-- What the dispatch of a packet can do to the table. -/
inductive DispatchEffect (slots : Slots) (id : SocketID) (packet : TCPPacket) (after : Slots) :
    Prop
  /-- The packet is for nobody. -/
  | nobody (hnobody : ∀ j s,slots j=some s → ¬Addressed slots id s) (hafter : after=slots)
  /-- The addressed socket handles it. A listening one stays as it is. -/
  | touched (i : Fin hashMapDefaultSize) (s s' : Socket) (hs : slots i=some s)
    (haddressed : Addressed slots id s) (hid : s'.id=s.id)
    (hlistener : s.state=.listen → s'.state=.listen ∧ s'.maxConnections=s.maxConnections)
    (hafter : after=Function.update slots i (some s'))
  /-- The addressed socket listens and makes a connection for a SYN. -/
  | accepted (i j : Fin hashMapDefaultSize) (s s' new : Socket) (hs : slots i=some s)
    (haddressed : Addressed slots id s) (hid : s'.id=s.id) (hlisten : s.state=.listen)
    (hlistener : s'.state=.listen ∧ s'.maxConnections=s.maxConnections-1)
    (hsyn : packet.has synFlag=true) (hji : j≠i) (hj : slots j=none)
    (hafter : after=Function.update (Function.update slots j (some new)) i (some s'))

/-- What the socket found does. -/
theorem handOver_effect (env : Env) (manager : NetworkManager) {i : Fin hashMapDefaultSize}
    {s : Socket} {id : SocketID} (key : SocketID) (packet : TCPPacket)
    (hs : manager.sockets.table i=some s) (haddressed : Addressed manager.sockets.table id s) :
    DispatchEffect manager.sockets.table id packet
      (handOver env manager i key packet).manager.sockets.table := by
  by_cases hl : s.state=.listen
  · obtain ⟨listener,hid,hstate,_,⟨htable,hmax,_⟩|⟨hsyn,_,_,hmax,j,hji,hj,htable⟩⟩ :=
      handOver_listen env key packet hs hl
    · exact .touched i s listener hs haddressed hid (fun _ => ⟨hstate,hmax⟩) htable
    · exact .accepted i j s listener _ hs haddressed hid hl ⟨hstate,hmax⟩ hsyn hji hj htable
  · obtain ⟨htable,hid,_⟩ := handOver_other env key packet hs hl
    exact .touched i s _ hs haddressed hid (fun h => absurd h hl) htable

/-- What a dispatched packet does. -/
theorem dispatch_effect (env : Env) (manager : NetworkManager) (id : SocketID)
    (packet : TCPPacket) :
    DispatchEffect manager.sockets.table id packet
      (dispatch env manager id packet).manager.sockets.table := by
  cases hfound : manager.sockets.indexOf id with
  | some i =>
    obtain ⟨s,hs,hid⟩ := HashMap.indexOf_spec hfound
    rw [dispatch_exact env packet hfound]
    exact handOver_effect env manager id packet hs (Or.inl hid)
  | none =>
    have hnone := HashMap.indexOf_eq_none_iff.mp hfound
    cases hbound : manager.sockets.indexOf id.boundOnly with
    | some i =>
      obtain ⟨s,hs,hid⟩ := HashMap.indexOf_spec hbound
      rw [dispatch_fallback env packet hfound hbound]
      exact handOver_effect env manager id.boundOnly packet hs (Or.inr ⟨hnone,hid⟩)
    | none =>
      rw [dispatch_nobody env packet hfound hbound]
      refine .nobody ?_ rfl
      rintro j s hs (hid|⟨_,hid⟩)
      · exact hnone j s hs hid
      · exact HashMap.indexOf_eq_none_iff.mp hbound j s hs hid

section

variable {slots after : Slots} {id : SocketID} {packet : TCPPacket}

/-- An entry that changes is the addressed socket's. -/
theorem DispatchEffect.addressed (h : DispatchEffect slots id packet after)
    {j : Fin hashMapDefaultSize} {s : Socket} (hj : slots j=some s) (hne : after j≠some s) :
    Addressed slots id s := by
  cases h with
  | nobody _ hafter =>
    rw [hafter] at hne
    exact absurd hj hne
  | touched i old _ hs haddressed _ _ hafter =>
    by_cases hji : j=i
    · subst hji
      obtain rfl := Option.some.inj (hj.symm.trans hs)
      exact haddressed
    · rw [hafter,Function.update_of_ne hji] at hne
      exact absurd hj hne
  | accepted i k old _ _ hs haddressed _ _ _ _ _ hk hafter =>
    by_cases hji : j=i
    · subst hji
      obtain rfl := Option.some.inj (hj.symm.trans hs)
      exact haddressed
    · have hjk : j≠k := by
        rintro rfl
        rw [hj] at hk
        cases hk
      rw [hafter,Function.update_of_ne hji,Function.update_of_ne hjk] at hne
      exact absurd hj hne

/-- No entry vanishes or changes its key. -/
theorem DispatchEffect.keeps (h : DispatchEffect slots id packet after)
    {j : Fin hashMapDefaultSize} {s : Socket} (hj : slots j=some s) :
    ∃ s',after j=some s' ∧ s'.id=s.id := by
  cases h with
  | nobody _ hafter => exact ⟨s,by rw [hafter,hj],rfl⟩
  | touched i old new hs _ hid _ hafter =>
    by_cases hji : j=i
    · subst hji
      obtain rfl := Option.some.inj (hj.symm.trans hs)
      exact ⟨new,by rw [hafter,Function.update_self],hid⟩
    · exact ⟨s,by rw [hafter,Function.update_of_ne hji,hj],rfl⟩
  | accepted i k old listener _ hs _ hid _ _ _ hki hk hafter =>
    by_cases hji : j=i
    · subst hji
      obtain rfl := Option.some.inj (hj.symm.trans hs)
      exact ⟨listener,by rw [hafter,Function.update_self],hid⟩
    · have hjk : j≠k := by
        rintro rfl
        rw [hj] at hk
        cases hk
      exact ⟨s,by rw [hafter,Function.update_of_ne hji,Function.update_of_ne hjk,hj],rfl⟩

/-- A new entry was made by the addressed socket, which listens, for a SYN,
and there is no other. -/
theorem DispatchEffect.inserted (h : DispatchEffect slots id packet after)
    {j : Fin hashMapDefaultSize} (hj : slots j=none) (hne : after j≠none) :
    packet.has synFlag=true ∧
      (∃ i s,slots i=some s ∧ Addressed slots id s ∧ s.state=.listen) ∧
      ∀ k,slots k=none → after k≠none → k=j := by
  cases h with
  | nobody _ hafter =>
    rw [hafter] at hne
    exact absurd hj hne
  | touched i _ _ hs _ _ _ hafter =>
    have hji : j≠i := by
      rintro rfl
      rw [hj] at hs
      cases hs
    rw [hafter,Function.update_of_ne hji] at hne
    exact absurd hj hne
  | accepted i l old _ _ hs haddressed _ hlisten _ hsyn _ _ hafter =>
    have honly : ∀ k,slots k=none → after k≠none → k=l := by
      intro k hk hkne
      by_contra hkl
      have hki : k≠i := by
        rintro rfl
        rw [hk] at hs
        cases hs
      rw [hafter,Function.update_of_ne hki,Function.update_of_ne hkl] at hkne
      exact hkne hk
    refine ⟨hsyn,⟨i,old,hs,haddressed,hlisten⟩,?_⟩
    intro k hk hkne
    rw [honly k hk hkne,honly j hj hne]

/-- Where nobody is addressed, nothing changes. -/
theorem DispatchEffect.unchanged (h : DispatchEffect slots id packet after)
    (hnobody : ∀ j s,slots j=some s → ¬Addressed slots id s) : after=slots := by
  cases h with
  | nobody _ hafter => exact hafter
  | touched i s _ hs haddressed => exact absurd haddressed (hnobody i s hs)
  | accepted i _ s _ _ hs haddressed => exact absurd haddressed (hnobody i s hs)

/-- With distinct keys, one socket at most is addressed. -/
theorem addressed_unique (hu : DistinctKeys Socket.id slots) {j k : Fin hashMapDefaultSize}
    {s t : Socket} (hs : slots j=some s) (ht : slots k=some t) (has : Addressed slots id s)
    (hat : Addressed slots id t) : j=k := by
  apply hu j k s t hs ht
  rcases has with has|⟨hnone,has⟩
  · rcases hat with hat|⟨hnone,_⟩
    · rw [has,hat]
    · exact absurd has (hnone j s hs)
  · rcases hat with hat|⟨_,hat⟩
    · exact absurd hat (hnone k t ht)
    · rw [has,hat]

end

/-- The packet fails a check of the manager, or there is no TCP packet in it. -/
def Rejected (libc : Libc) (manager : NetworkManager) (packet : IPPacket) (data : CString) :
    Prop :=
  calcIpChecksum packet≠packet.headerChecksum ∨ packet.dstIp≠manager.ip ∨
    ∀ tcpPacket,strToTcp libc data=some tcpPacket → calcChecksum tcpPacket≠tcpPacket.checksum

/-- A rejected packet leaves all sockets as they are. -/
theorem handleIncomingIpPacket_rejected {libc : Libc} (env : Env) {manager : NetworkManager}
    {packet : IPPacket} {data : CString} (hdata : packet.data=some data)
    (h : Rejected libc manager packet data) :
    (handleIncomingIpPacket libc env manager packet).manager=manager := by
  unfold handleIncomingIpPacket
  split
  · rfl
  next hheader =>
  split
  · rfl
  next hip =>
  rw [hdata,Option.bind_some]
  cases hdecoded : strToTcp libc data with
  | none => rfl
  | some tcpPacket =>
    rcases h with h|h|h
    · exact absurd h hheader
    · exact absurd h hip
    · simp only
      rw [if_pos (h tcpPacket hdecoded)]
      rfl

/-- Any other packet is dispatched. -/
theorem handleIncomingIpPacket_dispatched {libc : Libc} (env : Env) {manager : NetworkManager}
    {packet : IPPacket} {data : CString} (hdata : packet.data=some data)
    (h : ¬Rejected libc manager packet data) :
    ∃ tcpPacket,strToTcp libc data=some tcpPacket ∧
      handleIncomingIpPacket libc env manager packet=
        dispatch env manager (receiverId packet.srcIp packet.dstIp tcpPacket) tcpPacket := by
  simp only [Rejected,not_or,not_not,not_forall] at h
  obtain ⟨hheader,hip,tcpPacket,hdecoded,hsum⟩ := h
  have hchecked : Checked libc manager packet tcpPacket :=
    ⟨hheader.symm,hip,by rw [hdata,Option.bind_some,hdecoded],hsum.symm⟩
  exact ⟨tcpPacket,hdecoded,by rw [hip]; exact hchecked.dispatched env⟩

/-- Every incoming packet with data, at every manager whose sockets have
distinct keys: an entry that changes is the one that is addressed, and it is
the only one; no entry vanishes or changes its key; at most one entry is
added, by a listening socket for a SYN; and a packet that is rejected or
addressed to nobody changes nothing. -/
theorem demultiplexed (libc : Libc) (env : Env) {manager : NetworkManager} {packet : IPPacket}
    {data : CString} (hu : manager.sockets.KeysUnique) (hdata : packet.data=some data) :
    let slots := manager.sockets.table
    let after := (handleIncomingIpPacket libc env manager packet).manager.sockets.table
    (Rejected libc manager packet data →
      (handleIncomingIpPacket libc env manager packet).manager=manager) ∧
    ∀ tcpPacket,strToTcp libc data=some tcpPacket →
      let id := receiverId packet.srcIp packet.dstIp tcpPacket
      (∀ j s,slots j=some s → after j≠some s → Addressed slots id s) ∧
      (∀ j k s t,slots j=some s → slots k=some t → after j≠some s → after k≠some t → j=k) ∧
      (∀ j s,slots j=some s → ∃ s',after j=some s' ∧ s'.id=s.id) ∧
      (∀ j,slots j=none → after j≠none → tcpPacket.has synFlag=true ∧
        (∃ i s,slots i=some s ∧ Addressed slots id s ∧ s.state=.listen) ∧
        ∀ k,slots k=none → after k≠none → k=j) ∧
      ((∀ j s,slots j=some s → ¬Addressed slots id s) → after=slots) := by
  intro slots after
  have hrejected : Rejected libc manager packet data →
      (handleIncomingIpPacket libc env manager packet).manager=manager :=
    handleIncomingIpPacket_rejected env hdata
  refine ⟨hrejected,?_⟩
  intro tcpPacket htcp id
  by_cases h : Rejected libc manager packet data
  · have hsame : after=slots := by
      simp only [after,hrejected h]
      rfl
    rw [hsame]
    exact ⟨fun j s hj hne => absurd hj hne,fun j k s t hj _ hne => absurd hj hne,
      fun j s hj => ⟨s,hj,rfl⟩,fun j hj hne => absurd hj hne,fun _ => rfl⟩
  · obtain ⟨decoded,hdecoded,hdispatched⟩ := handleIncomingIpPacket_dispatched env hdata h
    obtain rfl := Option.some.inj (htcp.symm.trans hdecoded)
    have heffect : DispatchEffect slots id tcpPacket after := by
      simp only [after,hdispatched]
      exact dispatch_effect env manager id tcpPacket
    refine ⟨fun j s hj hne => heffect.addressed hj hne,?_,fun j s hj => heffect.keeps hj,
      fun j hj hne => heffect.inserted hj hne,heffect.unchanged⟩
    intro j k s t hj hk hjne hkne
    exact addressed_unique hu hj hk (heffect.addressed hj hjne) (heffect.addressed hk hkne)

/-- A socket that listens on port 80, with room for two. -/
def listener : Socket :=
  {createNewSocket 0 ⟨80,emptyPort,CString.empty,emptyIp⟩ .listen with maxConnections := 2}

/-- A manager with this socket only. -/
def listening : NetworkManager :=
  ⟨CString.empty,(createHashMap.insertSocket listener).2,fun _ => false⟩

/-- The SYN of port 90 to port 80. -/
def synFrom90 : TCPPacket := ⟨90,80,0,0,synFlag,172,some CString.empty⟩

/-- This SYN is demultiplexed. -/
theorem demultiplexed_syn :
    let libc := zeroLibc
    let packet : IPPacket := ⟨0,emptyIp,CString.empty,5,some (tcpToStr synFrom90)⟩
    let slots := listening.sockets.table
    let after := (handleIncomingIpPacket libc (smoothEnv 0 none) listening packet).manager
      |>.sockets.table
    (Rejected libc listening packet (tcpToStr synFrom90) →
      (handleIncomingIpPacket libc (smoothEnv 0 none) listening packet).manager=listening) ∧
    ∀ tcpPacket,strToTcp libc (tcpToStr synFrom90)=some tcpPacket →
      let id := receiverId packet.srcIp packet.dstIp tcpPacket
      (∀ j s,slots j=some s → after j≠some s → Addressed slots id s) ∧
      (∀ j k s t,slots j=some s → slots k=some t → after j≠some s → after k≠some t → j=k) ∧
      (∀ j s,slots j=some s → ∃ s',after j=some s' ∧ s'.id=s.id) ∧
      (∀ j,slots j=none → after j≠none → tcpPacket.has synFlag=true ∧
        (∃ i s,slots i=some s ∧ Addressed slots id s ∧ s.state=.listen) ∧
        ∀ k,slots k=none → after k≠none → k=j) ∧
      ((∀ j s,slots j=some s → ¬Addressed slots id s) → after=slots) := by
  intro libc packet
  have hempty : createHashMap.KeysUnique := distinctKeys_empty
  exact demultiplexed libc _ (hempty.insertSocket listener) rfl

end NetworkLayer.Demultiplexing
