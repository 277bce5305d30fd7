import NetworkLayer.StepRuns
import NetworkLayer.TableMoves
import NetworkLayer.PeerIdentity

/-!
# The limit of a listening socket

A listening socket counts its limit down for every connection it makes. The
bookkeeping here remembers which entries of the table it made. Removing one of
them does not count the limit up again, and nothing else disturbs the balance.
-/

namespace NetworkLayer.ListenerSlots

open ByteStrings FormattedText UtilTypes Hashmap SlotTables EntryLabels FifoUtils TcpPackets
open IpPackets PacketHandlers SocketPasses PacketDispatch SocketRequests TableMoves PeerIdentity
open StepRuns

/-- A manager, and which entries of its table the listening socket made. -/
structure World where
  /-- The manager. -/
  manager : NetworkManager
  /-- The mark of the entries that the listening socket made. -/
  created : Fin hashMapDefaultSize → Option Unit
  /-- Only entries are marked. -/
  labels : Labels manager.sockets.table created

/-- The mark of an entry that a request adds or moves, for the listening
socket in a slot. -/
def newMark (libc : Libc) (listener : Fin hashMapDefaultSize) (w : World) :
    Request → Option Unit
  | .packet _ packet => if receiver libc w.manager packet=some listener then some () else none
  | .connect _ sockId _ => (w.manager.sockets.indexOf sockId).bind w.created
  | _ => none

/-- The manager serves a request, and the marks follow the entries. -/
def step (libc : Libc) (listener : Fin hashMapDefaultSize) (w : World) (request : Request) :
    World where
  manager := managerStep libc w.manager request
  created := follow w.manager.sockets.table (managerStep libc w.manager request).sockets.table
    (movedSlot libc w.manager request) (newMark libc listener w request) w.created
  labels := labels_follow _ _ _ _ _

/-- The socket in the slot listens. -/
def ListensAt (listener : Fin hashMapDefaultSize) (w : World) : Prop :=
  ∃ s,w.manager.sockets.table listener=some s ∧ s.state=.listen

/-- What the socket in the slot may still accept and the entries it made are
together the limit. -/
def Conserved (listener : Fin hashMapDefaultSize) (limit : ℤ) (w : World) : Prop :=
  ∃ s,w.manager.sockets.table listener=some s ∧ s.maxConnections+occupied w.created=limit

/-- The request is a look at the end fifo of an entry that the listening
socket made, which is closed and old enough. -/
def RemovesCreated (w : World) (request : Request) : Prop :=
  ∃ i,removedSlot w.manager request=some i ∧ w.created i≠none

/-- The balance in terms of the socket that is there. -/
theorem conserved_iff {listener : Fin hashMapDefaultSize} {limit : ℤ} {w : World} {s : Socket}
    (hs : w.manager.sockets.table listener=some s) :
    Conserved listener limit w ↔ s.maxConnections+occupied w.created=limit := by
  constructor
  · rintro ⟨s',hs',hsum⟩
    obtain rfl := Option.some.inj (hs.symm.trans hs')
    exact hsum
  · exact fun hsum => ⟨s,hs,hsum⟩

section

variable {libc : Libc} {listener : Fin hashMapDefaultSize} {limit : ℤ} {w : World}
variable {request : Request}

/-- The listening socket before and after a request. -/
structure Between (libc : Libc) (listener : Fin hashMapDefaultSize) (w : World)
    (request : Request) (s s' : Socket) : Prop where
  /-- It is in its slot before. -/
  before : w.manager.sockets.table listener=some s
  /-- And after. -/
  after : (step libc listener w request).manager.sockets.table listener=some s'
  /-- It listens before. -/
  listens : s.state=.listen
  /-- And after. -/
  stillListens : s'.state=.listen

/-- A slot that is free is not the listening socket's. -/
theorem Between.ne_free {s s' : Socket} (h : Between libc listener w request s s')
    {j : Fin hashMapDefaultSize} (hj : w.manager.sockets.table j=none) : listener≠j := by
  rintro rfl
  rw [h.before] at hj
  cases hj

/-- Nor is that of a closed socket. -/
theorem Between.ne_closed {s s' : Socket} (h : Between libc listener w request s s')
    {i : Fin hashMapDefaultSize} {other : Socket} (hi : w.manager.sockets.table i=some other)
    (hclosed : other.state=.closed) : listener≠i := by
  rintro rfl
  obtain rfl := Option.some.inj (h.before.symm.trans hi)
  have hlistens := h.listens
  rw [hclosed] at hlistens
  cases hlistens

/-- The marks after a request that puts an entry into a free slot. -/
theorem occupied_mark {j : Fin hashMapDefaultSize} (hj : w.manager.sockets.table j=none)
    (mark : Option Unit) :
    occupied (Function.update w.created j mark)=
      occupied w.created+(if mark=none then 0 else 1) := by
  have hnone : w.created j=none := w.labels j hj
  cases mark with
  | none =>
    have hsame : Function.update w.created j none=w.created := by
      rw [←hnone,Function.update_eq_self]
    rw [hsame,if_pos rfl,Nat.add_zero]
  | some u => rw [occupied_fill _ hnone,if_neg (by simp)]

/-- A request that removes nothing keeps the sum of what the listening socket
may accept and what it made. -/
theorem Between.sum {s s' : Socket} (h : Between libc listener w request s s')
    (hstays : removedSlot w.manager request=none) :
    s'.maxConnections+occupied (step libc listener w request).created=
      s.maxConnections+occupied w.created := by
  have hafter := h.after
  have hmove := serve_move libc w.manager request
  simp only [step] at hafter ⊢
  generalize (managerStep libc w.manager request).sockets.table=slots at hmove hafter ⊢
  cases hmove with
  | same _ _ hmoved =>
    rw [h.before,Option.some.injEq] at hafter
    rw [hmoved,follow_same w.labels,hafter]
  | written _ _ hmoved i old new hi _ hlistener =>
    rw [hmoved,follow_replace w.labels hi]
    by_cases hil : listener=i
    · subst hil
      obtain rfl := Option.some.inj (h.before.symm.trans hi)
      rw [Function.update_self,Option.some.injEq] at hafter
      rw [←hafter,hlistener h.listens (by rw [hafter]; exact h.stillListens)]
    · rw [Function.update_of_ne hil,h.before,Option.some.injEq] at hafter
      rw [hafter]
  | bound env request port j new _ hj _ =>
    rw [Function.update_of_ne (h.ne_free hj),h.before,Option.some.injEq] at hafter
    have hmoved : movedSlot libc w.manager (.bind env request)=none := rfl
    have hmark : newMark libc listener w (.bind env request)=none := rfl
    rw [hmoved,follow_fill w.labels hj,occupied_mark hj,if_pos hmark,hafter,Nat.add_zero]
  | accepted env packet i j old new conn hreceiver hi _ _ hlistener hj =>
    have hmoved : movedSlot libc w.manager (.packet env packet)=none := rfl
    rw [hmoved,follow_fill_replace w.labels hi hj,occupied_mark hj,newMark,hreceiver]
    by_cases hil : listener=i
    · subst hil
      obtain rfl := Option.some.inj (h.before.symm.trans hi)
      rw [Function.update_self,Option.some.injEq] at hafter
      rw [if_pos rfl,if_neg (by simp),←hafter,hlistener.2]
      push_cast
      ring
    · rw [Function.update_of_ne hil,Function.update_of_ne (h.ne_free hj),h.before,
        Option.some.injEq] at hafter
      rw [if_neg (fun he => hil (Option.some.inj he).symm),if_pos rfl,hafter,Nat.add_zero]
  | connected env sockId r i k old dstIp dstPort hpointer hclosed hmoved hk =>
    obtain ⟨hindex,hi,_⟩ := pointerTo_spec hpointer
    have hik : listener≠i := h.ne_closed hi hclosed
    have hlk : listener≠k := by
      rcases hk with rfl|hfree
      · exact hik
      · exact h.ne_free hfree
    rw [Function.update_of_ne hlk,Function.update_of_ne hik,h.before,Option.some.injEq] at hafter
    have hmark : newMark libc listener w (.connect env sockId r)=w.created i := by
      rw [newMark,hindex,Option.bind_some]
    rw [hmoved,follow_move w.labels hk,hmark,occupied_move w.labels hk,hafter]
  | removed _ i old hremoved =>
    rw [hstays] at hremoved
    cases hremoved

/-- A request that removes an entry leaves the listening socket alone. -/
theorem Between.removed {s s' : Socket} (h : Between libc listener w request s s')
    {i : Fin hashMapDefaultSize} (hremoved : removedSlot w.manager request=some i) :
    s'=s ∧ (step libc listener w request).created=Function.update w.created i none := by
  have hafter := h.after
  have hmove := serve_move libc w.manager request
  have hno : removedSlot w.manager request≠none := by
    rw [hremoved]
    simp
  simp only [step] at hafter ⊢
  generalize (managerStep libc w.manager request).sockets.table=slots at hmove hafter ⊢
  cases hmove with
  | same _ hstays _ => exact absurd hstays hno
  | written _ hstays _ _ _ _ _ _ _ => exact absurd hstays hno
  | bound => exact absurd rfl hno
  | accepted => exact absurd rfl hno
  | connected => exact absurd rfl hno
  | removed _ k old hremoved' hmoved hk hclosed =>
    obtain rfl := Option.some.inj (hremoved.symm.trans hremoved')
    rw [Function.update_of_ne (h.ne_closed hk hclosed),h.before,Option.some.injEq] at hafter
    rw [hmoved,follow_clear w.labels]
    exact ⟨hafter.symm,rfl⟩

/-- One request keeps the balance of a socket that listens before and after it
exactly if it removes none of the socket's entries. -/
theorem step_conserved_iff (hlisten : ListensAt listener w)
    (hafter : ListensAt listener (step libc listener w request))
    (hbefore : Conserved listener limit w) :
    Conserved listener limit (step libc listener w request) ↔ ¬RemovesCreated w request := by
  obtain ⟨s,hs,hstate⟩ := hlisten
  obtain ⟨s',hs',hstate'⟩ := hafter
  have hbetween : Between libc listener w request s s' := ⟨hs,hs',hstate,hstate'⟩
  have hsum := (conserved_iff hs).mp hbefore
  rw [conserved_iff hs']
  cases hremoved : removedSlot w.manager request with
  | none =>
    refine iff_of_true ((hbetween.sum hremoved).trans hsum) ?_
    rintro ⟨i,hi,_⟩
    rw [hremoved] at hi
    cases hi
  | some i =>
    obtain ⟨hsame,hcreated⟩ := hbetween.removed hremoved
    have hremoves : RemovesCreated w request ↔ w.created i≠none := by
      constructor
      · rintro ⟨k,hk,hmark⟩
        obtain rfl := Option.some.inj (hremoved.symm.trans hk)
        exact hmark
      · exact fun hmark => ⟨i,hremoved,hmark⟩
    rw [hremoves,not_not,hcreated,hsame]
    cases hmark : w.created i with
    | none =>
      have hsame' : Function.update w.created i none=w.created := by
        rw [←hmark,Function.update_eq_self]
      rw [hsame']
      exact iff_of_true hsum rfl
    | some u =>
      have hclear := occupied_clear w.created hmark
      refine iff_of_false ?_ (by simp)
      intro hbalance
      omega

end

/-- A listen request that is granted gives the socket its limit. -/
theorem limit_of_request {env : Env} {manager : NetworkManager} {sockId : SocketID}
    {limit : Byte} {i : Fin hashMapDefaultSize} {s s' : Socket}
    (hpointer : pointerTo manager.sockets sockId=some (i,s)) (hstate : s.state≠.listen)
    (hafter : (checkAndHandleListenRequest env manager sockId
      (some limit)).manager.sockets.table i=some s') : s'.maxConnections=charValue limit := by
  obtain ⟨_,hs,_⟩ := pointerTo_spec hpointer
  unfold checkAndHandleListenRequest at hafter
  simp only [hpointer,if_neg hstate,returned,storeSocket,HashMap.setSocket_table hs,
    Function.update_self,Option.some.injEq] at hafter
  rw [←hafter]

/-- In every run in which the socket in a slot listens all the time, starting
with its whole limit, what it may still accept and the entries it made are the
limit in every state exactly if it starts without entries from an earlier
time and no request removes one that it made. -/
theorem slots_conserved_iff (libc : Libc) {listener : Fin hashMapDefaultSize} {limit : ℤ}
    {w : World} (hlimit : ∃ s,w.manager.sockets.table listener=some s ∧ s.maxConnections=limit)
    {requests : List Request}
    (hlisten : EachState (step libc listener) (ListensAt listener) w requests) :
    EachState (step libc listener) (Conserved listener limit) w requests ↔
      (∀ i,w.created i=none) ∧
        EachStep (step libc listener) (fun w request => ¬RemovesCreated w request) w requests := by
  obtain ⟨s,hs,hmax⟩ := hlimit
  have hstart : Conserved listener limit w ↔ ∀ i,w.created i=none := by
    rw [conserved_iff hs,hmax,←occupied_eq_zero_iff]
    omega
  constructor
  · intro h
    have hbefore := h.head
    exact ⟨hstart.mp hbefore,(eachState_iff_along (fun w request => step_conserved_iff) hbefore
      hlisten).mp h⟩
  · rintro ⟨hnone,h⟩
    have hbefore := hstart.mpr hnone
    exact (eachState_iff_along (fun w request => step_conserved_iff) hbefore hlisten).mpr h

/-- The manager of one listening socket, before it made a connection. -/
def world80 : World := ⟨manager80,fun _ => none,fun _ _ => rfl⟩

/-- The key of the connection from port 90. -/
def conn90 : SocketID := ⟨80,90,manager80.ip,manager80.ip⟩

/-- A connection is made, closed by its user and removed eleven seconds later. -/
def closedConnection : List Request :=
  [.packet (smoothEnv 0 none) ownSyn,.endFifo (smoothEnv 0 none) conn90 true,
    .statusMessages (smoothEnv 9000000 none) conn90,
    .statusMessages (smoothEnv 11000000 none) conn90,
    .endFifo (smoothEnv 11000000 none) conn90 false]

/-- The socket listens all the time. -/
theorem closedConnection_listens :
    EachState (step zeroLibc 0) (ListensAt 0) world80 closedConnection := by
  apply eachState_of_take
  have hstate : ∀ k ≤ 5,((run (step zeroLibc 0) world80
      (closedConnection.take k)).manager.sockets.table 0).map Socket.state=some .listen := by
    decide +kernel
  intro k hk
  exact Option.map_eq_some_iff.mp (hstate k hk)

/-- After this run no connection is left, and one slot is lost. -/
theorem closedConnection_loses :
    let libc := zeroLibc
    EachState (step libc 0) (ListensAt 0) world80 closedConnection ∧
      (∀ i,(run (step libc 0) world80 closedConnection).created i=none) ∧
      ¬EachState (step libc 0) (Conserved 0 5) world80 closedConnection := by
  refine ⟨closedConnection_listens,by decide +kernel,?_⟩
  intro h
  obtain ⟨s,hs,hsum⟩ := h.last
  have hmax : ((run (step zeroLibc 0) world80
      closedConnection).manager.sockets.table 0).map Socket.maxConnections=some 4 ∧
      occupied (run (step zeroLibc 0) world80
        closedConnection).created=0 := by
    decide +kernel
  rw [hs,Option.map_some,Option.some.injEq] at hmax
  omega

/-- The same connection, looked at a second before it may be removed. -/
def keptConnection : List Request :=
  closedConnection.take 3++[.endFifo (smoothEnv 9000000 none) conn90 false,
    .statusMessages (smoothEnv 11000000 none) conn90]

/-- Up to there the balance holds, with one connection made. -/
theorem slots_conserved_iff_80 :
    let libc := zeroLibc
    EachState (step libc 0) (Conserved 0 5) world80 keptConnection ∧
      occupied (run (step libc 0) world80 keptConnection).created=1 := by
  have hlistens : EachState (step zeroLibc 0) (ListensAt 0) world80 keptConnection := by
    apply eachState_of_take
    have hstate : ∀ k ≤ 5,((run (step zeroLibc 0) world80
        (keptConnection.take k)).manager.sockets.table 0).map Socket.state=some .listen := by
      decide +kernel
    intro k hk
    exact Option.map_eq_some_iff.mp (hstate k hk)
  have hkeeps : ∀ w request,removedSlot w.manager request=none → ¬RemovesCreated w request := by
    rintro w request hnone ⟨i,hsome,_⟩
    rw [hnone] at hsome
    cases hsome
  refine ⟨(slots_conserved_iff zeroLibc ⟨listener80,rfl,rfl⟩ hlistens).mpr
    ⟨fun _ => rfl,hkeeps _ _ rfl,hkeeps _ _ rfl,hkeeps _ _ rfl,hkeeps _ _ ?_,hkeeps _ _ rfl,
      trivial⟩,?_⟩
  · decide +kernel
  · decide +kernel

end NetworkLayer.ListenerSlots
