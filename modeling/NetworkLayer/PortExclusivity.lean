import NetworkLayer.TableMoves
import NetworkLayer.UniqueKeys

/-!
# One socket to a port

A bind request is refused while its port's key is on a socket. The socket that
took the port keeps this key when it listens, closes or is reset, but a connect
request replaces it. The bookkeeping here remembers which sockets were bound to
which port, so that both notions of a taken port can be compared.
-/

namespace NetworkLayer.PortExclusivity

open ByteStrings FormattedText UtilTypes Hashmap SlotTables EntryLabels FifoUtils TcpPackets
open IpPackets PacketHandlers SocketPasses PacketDispatch SocketRequests TableMoves UniqueKeys
open StepRuns

/-- Where a socket comes from that a bind request created. -/
structure Origin where
  /-- The port it was bound to. -/
  port : ℤ
  /-- A connect request for it was granted since. -/
  connected : Bool

/-- A manager, and the origins of the sockets that bind requests created. -/
structure World where
  /-- The manager. -/
  manager : NetworkManager
  /-- The origin of the socket in a slot. -/
  origin : Fin hashMapDefaultSize → Option Origin
  /-- Only sockets in the table have an origin. -/
  labels : Labels manager.sockets.table origin

/-- The origin of a socket that a request adds or moves. -/
def newOrigin (libc : Libc) (w : World) : Request → Option Origin
  | .bind _ request => (scanBindRequest libc request).map fun numbers => ⟨numbers.1,false⟩
  | .connect _ sockId _ => ((w.manager.sockets.indexOf sockId).bind w.origin).map fun o =>
      {o with connected := true}
  | _ => none

/-- The manager serves a request, and the origins follow the sockets. -/
def step (libc : Libc) (w : World) (request : Request) : World where
  manager := managerStep libc w.manager request
  origin := follow w.manager.sockets.table (managerStep libc w.manager request).sockets.table
    (movedSlot libc w.manager request) (newOrigin libc w request) w.origin
  labels := labels_follow _ _ _ _ _

/-- The start of a manager. -/
def World.start (ip : CString) (files : Files) : World :=
  ⟨createNetworkManager ip files,fun _ => none,fun _ _ => rfl⟩

/-- The bind request is for the port, and a socket is added for it. -/
def Granted (libc : Libc) (env : Env) (manager : NetworkManager) (request : CString)
    (port : ℤ) : Prop :=
  (scanBindRequest libc request).map Prod.fst=some port ∧
    ∃ j,manager.sockets.table j=none ∧
      (handleBindRequest libc env manager request).manager.sockets.table j≠none

/-- A bind request is granted only if no socket that was bound to its port is
in the table. -/
def Exclusive (libc : Libc) (w : World) (request : Request) : Prop :=
  ∀ env bindRequest port,request=.bind env bindRequest →
    Granted libc env w.manager bindRequest port → ∀ j o,w.origin j=some o → o.port≠port

/-- A bind request that can be granted meets a socket that was bound to its
port and has been connected since. -/
def RebindsConnected (libc : Libc) (w : World) (request : Request) : Prop :=
  ∃ env bindRequest port,request=.bind env bindRequest ∧
    Grants libc env w.manager bindRequest port ∧
    ∃ j o,w.origin j=some o ∧ o.port=port ∧ o.connected=true

/-- A bind request is granted exactly if it can be. -/
theorem granted_iff (libc : Libc) (env : Env) (manager : NetworkManager) (request : CString)
    (port : ℤ) : Granted libc env manager request port ↔
      Grants libc env manager request port := by
  constructor
  · rintro ⟨hscan,j,hj,hafter⟩
    have hmove := handleBindRequest_move libc env manager request
    generalize (handleBindRequest libc env manager request).manager.sockets.table=slots
      at hmove hafter
    cases hmove with
    | same => exact absurd hj hafter
    | written _ _ _ i s s' hs _ _ =>
      have hji : j≠i := by
        rintro rfl
        rw [hj] at hs
        cases hs
      rw [Function.update_of_ne hji] at hafter
      exact absurd hj hafter
    | bound _ _ port' _ _ hgrants _ _ =>
      obtain ⟨pid,socketCounter,hnumbers,_⟩ := id hgrants
      rw [hnumbers,Option.map_some,Option.some.injEq] at hscan
      rw [←hscan]
      exact hgrants
    | removed _ i s hremoved => cases hremoved
  · rintro ⟨pid,socketCounter,hscan,hcan,hfifos,hroom,hreplied⟩
    refine ⟨by rw [hscan]; rfl,?_⟩
    have hbound := (bindNewSocket_iff_of_canBind env hcan).mpr ⟨hfifos,hroom⟩
    rcases bindNewSocket_cases env manager (boundId manager port) with
      ⟨hrefused,_⟩|⟨hresult,_,_,j,hj,hsockets⟩
    · rw [hbound] at hrefused
      cases hrefused
    · refine ⟨j,hj,?_⟩
      simp only [handleBindRequest,hscan,if_pos hcan,hresult,ne_eq,not_true_eq_false,if_false,
        if_pos hreplied,returned,hsockets,HashMap.fill_table,Function.update_self]
      simp

/-- A socket that was bound and not connected since has its port's key. -/
def KeepsKeys (w : World) : Prop :=
  ∀ j s o,w.manager.sockets.table j=some s → w.origin j=some o → o.connected=false →
    s.id=boundId w.manager o.port

/-- Every request keeps this so. -/
theorem KeepsKeys.step {w : World} (h : KeepsKeys w) (libc : Libc) (request : Request) :
    KeepsKeys (step libc w request) := by
  have hip := managerStep_ip libc w.manager request
  have hbound : ∀ port,boundId (PortExclusivity.step libc w request).manager port=
      boundId w.manager port := by
    intro port
    simp only [PortExclusivity.step,boundId,hip]
  have hmove := serve_move libc w.manager request
  intro j s o hs ho hconnected
  rw [hbound]
  simp only [PortExclusivity.step] at hs ho
  generalize (managerStep libc w.manager request).sockets.table=slots at hmove hs ho
  cases hmove with
  | same _ _ hmoved =>
    rw [hmoved,follow_same w.labels] at ho
    exact h j s o hs ho hconnected
  | written _ _ hmoved i old new hi hid _ =>
    rw [hmoved,follow_replace w.labels hi] at ho
    rcases update_some_cases hs with ⟨rfl,rfl⟩|⟨_,hrest⟩
    · have hold := h j old o hi ho hconnected
      rcases hid with hsame|⟨_,hblank⟩
      · rw [hsame,hold]
      · rw [hblank,hold]
        rfl
    · exact h j s o hrest ho hconnected
  | bound env bindRequest port k new hgrants hk hid =>
    obtain ⟨pid,socketCounter,hscan,_⟩ := hgrants
    have hmoved : movedSlot libc w.manager (.bind env bindRequest)=none := rfl
    have horigin : newOrigin libc w (.bind env bindRequest)=some ⟨port,false⟩ := by
      rw [newOrigin,hscan]
      rfl
    rw [hmoved,follow_fill w.labels hk,horigin] at ho
    rcases update_some_cases hs with ⟨rfl,rfl⟩|⟨hne,hrest⟩
    · rw [Function.update_self,Option.some.injEq] at ho
      rw [←ho]
      exact hid
    · rw [Function.update_of_ne hne] at ho
      exact h j s o hrest ho hconnected
  | accepted env packet i k old new conn _ hi hid _ _ hk =>
    have hmoved : movedSlot libc w.manager (.packet env packet)=none := rfl
    have horigin : newOrigin libc w (.packet env packet)=none := rfl
    rw [hmoved,follow_fill_replace w.labels hi hk,horigin] at ho
    have hjk : j≠k := by
      rintro rfl
      rw [Function.update_self] at ho
      cases ho
    rw [Function.update_of_ne hjk] at ho
    rcases update_some_cases hs with ⟨rfl,rfl⟩|⟨_,hrest⟩
    · rw [hid]
      exact h j old o hi ho hconnected
    · rw [Function.update_of_ne hjk] at hrest
      exact h j s o hrest ho hconnected
  | connected env sockId connectRequest i k old dstIp dstPort hpointer _ hmoved hk =>
    obtain ⟨hindex,hi,_⟩ := pointerTo_spec hpointer
    rw [hmoved,follow_move w.labels hk] at ho
    by_cases hjk : j=k
    · subst hjk
      rw [Function.update_self,newOrigin,hindex,Option.bind_some] at ho
      obtain ⟨before,_,rfl⟩ := Option.map_eq_some_iff.mp ho
      cases hconnected
    · rw [Function.update_of_ne hjk] at hs ho
      by_cases hji : j=i
      · subst hji
        rw [Function.update_self] at hs
        cases hs
      · rw [Function.update_of_ne hji] at hs ho
        exact h j s o hs ho hconnected
  | removed _ i old _ hmoved hi _ =>
    rw [hmoved,follow_clear w.labels] at ho
    by_cases hji : j=i
    · subst hji
      rw [Function.update_self] at hs
      cases hs
    · rw [Function.update_of_ne hji] at hs ho
      exact h j s o hs ho hconnected

/-- A request keeps ports exclusive exactly if it is no bind request that can
be granted and meets a socket of its port that was connected. -/
theorem KeepsKeys.exclusive_iff {w : World} (h : KeepsKeys w) (libc : Libc) (request : Request) :
    Exclusive libc w request ↔ ¬RebindsConnected libc w request := by
  constructor
  · rintro hexclusive ⟨env,bindRequest,port,hrequest,hgrants,j,o,ho,hport,_⟩
    exact hexclusive env bindRequest port hrequest ((granted_iff ..).mpr hgrants) j o ho hport
  · intro hnot env bindRequest port hrequest hgranted j o ho hport
    have hgrants := (granted_iff libc env w.manager bindRequest port).mp hgranted
    cases hconnected : o.connected with
    | true => exact hnot ⟨env,bindRequest,port,hrequest,hgrants,j,o,ho,hport,hconnected⟩
    | false =>
      obtain ⟨_,_,_,hcan,_⟩ := hgrants
      have hoccupied : w.manager.sockets.table j≠none := by
        intro hfree
        rw [w.labels j hfree] at ho
        cases ho
      obtain ⟨s,hs⟩ := Option.ne_none_iff_exists'.mp hoccupied
      have hnone := indexOf_of_canBind hcan
      have hid := h j s o hs ho hconnected
      rw [hport] at hid
      exact HashMap.indexOf_eq_none_iff.mp hnone j s hs hid

/-- In every run of a manager, ports are exclusive exactly if no bind request
that can be granted meets a socket of its port that was connected since. -/
theorem exclusive_iff_no_rebind (libc : Libc) (ip : CString) (files : Files)
    (requests : List Request) :
    EachStep (step libc) (Exclusive libc) (World.start ip files) requests ↔
      EachStep (step libc) (fun w request => ¬RebindsConnected libc w request)
        (World.start ip files) requests := by
  have hstart : KeepsKeys (World.start ip files) := by
    intro j s o hs
    cases hs
  exact eachStep_congr_of_invariant (P:=KeepsKeys) (fun w request h => h.step libc request)
    (fun w request h => h.exclusive_iff libc request) hstart requests

/-- The second bind request of this run is granted while the first socket on
its port is connecting. -/
theorem rebindRun_shares_port :
    let libc := zeroLibc
    ¬EachStep (step libc) (Exclusive libc) (World.start onesIp fun _ => false) rebindRun := by
  intro libc h
  have hfacts : ((run (step libc) (World.start onesIp fun _ => false)
        (rebindRun.take 3)).origin 0).map Origin.port=some 5000 ∧
      (scanBindRequest libc ⟨text "5000_2_1",by decide⟩).map Prod.fst=some 5000 ∧
      ((run (step libc) (World.start onesIp fun _ => false)
        (rebindRun.take 3)).manager.sockets.table 1).isSome=false ∧
      ((handleBindRequest libc (smoothEnv 0 none) (run (step libc) (World.start onesIp fun _ => false)
        (rebindRun.take 3)).manager ⟨text "5000_2_1",by decide⟩).manager.sockets.table
          1).isSome=true := by
    decide +kernel
  rw [←List.take_append_drop 3 rebindRun] at h
  have hexclusive := h.of_append.1
  generalize run (step libc) (World.start onesIp fun _ => false) (rebindRun.take 3)=w
    at hfacts hexclusive
  obtain ⟨horigin,hscan,hbefore,hafter⟩ := hfacts
  obtain ⟨o,ho,hport⟩ := Option.map_eq_some_iff.mp horigin
  have hfree : w.manager.sockets.table 1=none := by simpa using hbefore
  have hgranted : Granted libc (smoothEnv 0 none) w.manager ⟨text "5000_2_1",by decide⟩ 5000 :=
    ⟨hscan,1,hfree,Option.isSome_iff_ne_none.mp hafter⟩
  exact hexclusive _ _ 5000 rfl hgranted 0 o ho hport

end NetworkLayer.PortExclusivity
