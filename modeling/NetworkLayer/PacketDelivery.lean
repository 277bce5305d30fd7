import Mathlib.Data.List.Forall2
import NetworkLayer.ConcurrentReads
import NetworkLayer.Endpoints
import NetworkLayer.LoopRuns
import NetworkLayer.PeerIdentity

/-!
# Packets between managers

Managers send by writing whole packets to each other's incoming fifos, each in
its own rounds and at any time. Through all rounds of its loop a manager hands
on what was written to its fifo in that order, nothing twice and nothing left
out. So the packets it handles from one sender are those that the sender sent
to it, as far as it has come.
-/

namespace NetworkLayer.PacketDelivery

open ByteStrings FormattedText UtilTypes Hashmap FifoUtils FifoReads TcpPackets TcpCodec IpPackets
open PacketHandlers SocketPasses SocketSteps PacketDispatch PacketFraming SocketRequests
open BindRequests Endpoints PeerIdentity ManagerLoop StepRuns LoopRuns ConcurrentReads

variable {libc : Libc} {buffer : IPPacket → ℕ → Byte} {mail : ℕ → List IPPacket}

/-- What is assumed of the incoming fifo in one round: only whole packets are
written to it, and the fuel suffices for each. -/
structure Supplied (buffer : IPPacket → ℕ → Byte) (mail : ℕ → List IPPacket)
    (packets : List IPPacket) (round : Round) : Prop where
  /-- What arrives is mail. -/
  delivers : Delivers buffer mail round.schedule
  /-- The mail can be read. -/
  mail : ∀ t,Readable round.fuel (mail t)
  /-- So can the packets that are there already. -/
  packets : Readable round.fuel packets

/-- Where the loop is after handing on some packets, with others left. -/
def HandedOn (libc : Libc) (buffer : IPPacket → ℕ → Byte) (start : Served)
    (handled left : List IPPacket) (reads : ℕ) : Loop → Prop
  | .running done inbox => Handles libc start done handled ∧ inbox=⟨written buffer left,reads⟩
  | .stopped _ done => Handles libc start done handled
  | .reading | .dangling => False

/-- One round hands on the next packets in order and leaves the others, and
what arrived meanwhile, in the fifo. -/
theorem managerRound_delivers {start done : Served} {before packets : List IPPacket}
    {round : Round} (h : Supplied buffer mail packets round)
    (hhandles : Handles libc start done before) {inbox : Fifo}
    (hw : inbox.waiting=written buffer packets) :
    ∃ handled left count,packets++between mail inbox.reads count=handled++left ∧
      HandedOn libc buffer start (before++handled) left (inbox.reads+count)
        (managerRound libc round done inbox) := by
  have hbound := handleBindFifo_handles hhandles round.bind.env round.bindFifo round.bindRequest
    (round.bind.clients done.manager.files)
  have hnothing : packets++between mail inbox.reads 0=[]++packets := List.append_nil _
  by_cases htold : Told round
  · have hround : managerRound libc round done inbox=.stopped 0 done := if_pos htold
    refine ⟨[],packets,0,hnothing,?_⟩
    rw [hround,List.append_nil]
    exact hhandles
  by_cases hfails : BindFails libc done round
  · have hround : managerRound libc round done inbox=.stopped (-1) (after done
        (handleBindFifo libc round.bind.env (atBind round done) round.bindFifo
          round.bindRequest).1) := (if_neg htold).trans (if_pos hfails)
    refine ⟨[],packets,0,hnothing,?_⟩
    rw [hround,List.append_nil]
    exact hbound
  obtain ⟨handled,left,count,hsplit,hread⟩ := h.delivers.handleRounds_spec libc round.fresh
    (handleNext libc round.packets) h.mail maxHandlesPerEpoch h.packets
    (after done (handleBindFifo libc round.bind.env (atBind round done) round.bindFifo
      round.bindRequest).1,0) hw
  obtain ⟨last,hround,hlast⟩ := managerRound_over htold hfails hread
    (handleAll_handles round.packets hbound handled)
  refine ⟨handled,left,count,hsplit,?_⟩
  rw [hround]
  exact ⟨hlast,rfl⟩

/-- What is left after a round can be read as well. -/
theorem Supplied.left {packets handled left : List IPPacket} {round : Round} {first count : ℕ}
    (h : Supplied buffer mail packets round)
    (hsplit : packets++between mail first count=handled++left) :
    Supplied buffer mail left round := by
  have hall := readable_append.mpr ⟨h.packets,readable_between h.mail first count⟩
  rw [hsplit,readable_append] at hall
  exact ⟨h.delivers,h.mail,hall.2⟩

/-- The rounds that are still to come hand on what comes next. -/
theorem rounds_deliver {start done : Served} {before packets : List IPPacket}
    (hhandles : Handles libc start done before) {rounds : List Round}
    (h : ∀ round∈rounds,Supplied buffer mail packets round) {inbox : Fifo}
    (hw : inbox.waiting=written buffer packets) :
    ∃ handled left count,packets++between mail inbox.reads count=handled++left ∧
      HandedOn libc buffer start (before++handled) left (inbox.reads+count)
        (run (loopStep libc) (.running done inbox) rounds) := by
  induction rounds generalizing done before packets inbox with
  | nil =>
    obtain ⟨waiting,reads⟩ := inbox
    obtain rfl : waiting=written buffer packets := hw
    refine ⟨[],packets,0,List.append_nil _,?_⟩
    rw [List.append_nil]
    exact ⟨hhandles,rfl⟩
  | cons round rest ih =>
    obtain ⟨first,middle,count,hfirst,hround⟩ :=
      managerRound_delivers (h round List.mem_cons_self) hhandles hw
    rw [run_cons,loopStep]
    generalize managerRound libc round done inbox=loop at hround ⊢
    cases loop with
    | running last next =>
      obtain ⟨hlast,rfl⟩ := hround
      have hrest : ∀ round∈rest,Supplied buffer mail middle round :=
        fun round hround => (h round (List.mem_cons_of_mem _ hround)).left hfirst
      have hnext : (⟨written buffer middle,inbox.reads+count⟩ : Fifo).waiting=
          written buffer middle := rfl
      obtain ⟨second,left,more,hsecond,hall⟩ := ih hlast hrest hnext
      refine ⟨first++second,left,count+more,?_,?_⟩
      · rw [between_add,←List.append_assoc,hfirst,List.append_assoc,hsecond,List.append_assoc]
      · rwa [←List.append_assoc,←Nat.add_assoc]
    | stopped result last =>
      rw [run_of_fixed _ fun _ => rfl]
      exact ⟨first,middle,count,hfirst,hround⟩
    | reading => exact hround.elim
    | dangling => exact hround.elim

/-- Through all rounds of the loop, whatever else they meet, the packets are
handed on in the order in which they were written, each once: what was there
and what arrived until the last read is what was handed on and then what is
left in the fifo. No packet keeps the loop waiting. -/
theorem loop_delivers (libc : Libc) (start : Served) {packets : List IPPacket}
    {rounds : List Round} (h : ∀ round∈rounds,Supplied buffer mail packets round) {inbox : Fifo}
    (hw : inbox.waiting=written buffer packets) :
    ∃ handled left count,packets++between mail inbox.reads count=handled++left ∧
      HandedOn libc buffer start handled left (inbox.reads+count)
        (run (loopStep libc) (.running start inbox) rounds) := by
  have hall := rounds_deliver (Handles.refl libc start) h hw
  simpa only [List.nil_append] using hall

/-- A SYN arrives before the first read, and nothing later. -/
def oneSyn (d : Fin 10) : ℕ → List IPPacket
  | 0 => [synPacket d]
  | _+1 => []

/-- Every read returns one byte. -/
def synSchedule (d : Fin 10) : Schedule :=
  fun t => ⟨written (fun _ _ => 0) (oneSyn d t),0,true,false⟩

/-- A round in which nothing else happens. -/
def synRound (d : Fin 10) : Round :=
  let moment : Moment := ⟨id,smoothEnv 0 none⟩
  let visit : Visit := ⟨moment,none,moment,none,moment,false,moment,moment⟩
  ⟨fun _ => ⟨[],0,true,false⟩,⟨[],0⟩,moment,⟨[],.again⟩,fun _ => 0,synSchedule d,200,
    fun _ _ => 0,fun _ => moment,fun _ => visit⟩

theorem synRound_supplied (d : Fin 10) :
    Supplied (fun _ _ => 0) (oneSyn d) [] (synRound d) := by
  have hnil : ∀ fuel,Readable fuel [] := by
    intro fuel
    exact ⟨by simp [AllSendable],by simp [BuffersFit],by simp⟩
  have hcreate : createIpPacket (digitIp d) manager80.ip (tcpToStr syn90)=some (synPacket d) := by
    rw [createIpPacket,if_neg (by revert d; decide)]
    rfl
  have hsyn : Readable 200 [synPacket d] := by
    refine ⟨?_,?_,?_⟩
    · intro packet hpacket
      obtain rfl := List.mem_singleton.mp hpacket
      exact ⟨_,_,_,hcreate,by decide,by revert d; decide⟩
    · intro packet hpacket
      obtain rfl := List.mem_singleton.mp hpacket
      revert d
      decide
    · intro packet hpacket
      obtain rfl := List.mem_singleton.mp hpacket
      revert d
      decide
  refine ⟨⟨fun _ => rfl,fun _ => rfl⟩,fun t => ?_,hnil _⟩
  cases t with
  | zero => exact hsyn
  | succ t => exact hnil _

/-- A SYN that arrives while a round reads. -/
theorem loop_delivers_syn :
    let libc := zeroLibc
    let start : Served := returned 0 manager80
    ∃ handled left count,[]++between (oneSyn 2) 0 count=handled++left ∧
      HandedOn libc (fun _ _ => 0) start handled left (0+count)
        (run (loopStep libc) (.running start ⟨[],0⟩) [synRound 2]) := by
  intro libc start
  have hsupplied : ∀ round∈[synRound 2],Supplied (fun _ _ => 0) (oneSyn 2) [] round := by
    intro round hround
    obtain rfl := List.mem_singleton.mp hround
    exact synRound_supplied 2
  have hw : (⟨[],0⟩ : Fifo).waiting=written (fun _ _ => 0) [] := rfl
  exact loop_delivers libc start hsupplied hw

/-- A packet that `construct_packet` made. -/
def Constructed (packet : TCPPacket) : Prop :=
  ∃ sender data flags dstPort,packet=constructPacket sender data flags dstPort

/-- What a pass over a socket hands to the network is. -/
theorem pass_constructed (env : Env) (s : Socket) :
    (∀ p∈(checkAndHandleSendWindow env s).sent,Constructed p) ∧
      ∀ p∈(checkAndHandleOutgoingStatusMessages env s).sent,Constructed p := by
  have hstatus : ∀ p,StatusPacket s p → Constructed p := by
    intro p hp
    cases hp <;> exact ⟨_,_,_,_,rfl⟩
  constructor
  · intro p hp
    have hattempt := sent_subset _ p hp
    rcases checkAndHandleSendWindow_cases env s with he|⟨_,q,clock,data,_,_,he⟩
    · rw [he] at hattempt
      cases hattempt
    · rw [he] at hattempt
      obtain rfl := List.mem_singleton.mp hattempt
      exact ⟨_,_,_,_,rfl⟩
  · intro p hp
    have hattempt := sent_subset _ p hp
    have houtcome := checkAndHandleOutgoingStatusMessages_outcome env s
    generalize checkAndHandleOutgoingStatusMessages env s=passed at houtcome hattempt
    cases houtcome with
    | sends clock attempts hpackets => exact hstatus p (hpackets p hattempt)
    | timedOut _ _ attempts hpackets => exact hstatus p (hpackets p hattempt)
    | moves | finishes | expires => cases hattempt

/-- So is the reply to a packet. -/
theorem handOver_constructed (env : Env) (manager : NetworkManager)
    (i : Fin hashMapDefaultSize) (key : SocketID) (packet : TCPPacket) :
    ∀ s∈(handOver env manager i key packet).sent,Constructed s.1 := by
  unfold handOver
  cases manager.sockets.table i with
  | none => exact fun s hs => absurd hs List.not_mem_nil
  | some sock =>
    intro s hs
    obtain ⟨reply,hreply,rfl⟩ := List.mem_map.mp hs
    have hmem := sentReply_subset env _ reply hreply
    rw [Option.mem_toList] at hmem
    rcases handlePacket_reply_cases hmem with ⟨_,_,he⟩|⟨_,he,_⟩
    · exact ⟨_,_,_,_,he⟩
    · exact ⟨_,_,_,_,he⟩

/-- So is everything that leaves the manager. -/
theorem serve_constructed (libc : Libc) (manager : NetworkManager) (request : Request) :
    ∀ s∈(serve libc manager request).sent,Constructed s.1 := by
  have hreturned : ∀ result manager,∀ s∈(returned result manager).sent,Constructed s.1 :=
    fun _ _ s hs => absurd hs List.not_mem_nil
  have hclosed : ∀ env manager socket,
      ∀ s∈(checkAndHandleClosedSocket env manager socket).sent,Constructed s.1 := by
    intro env manager socket
    unfold checkAndHandleClosedSocket
    split <;> exact hreturned _ _
  have hpass : ∀ (pass : Socket → Passed) sockId,
      (∀ sock,∀ p∈(pass sock).sent,Constructed p) →
      ∀ s∈(servePass pass manager sockId).sent,Constructed s.1 := by
    intro pass sockId hsent
    unfold servePass
    cases pointerTo manager.sockets sockId with
    | none => exact hreturned _ _
    | some pointer =>
      intro s hs
      obtain ⟨packet,hpacket,rfl⟩ := List.mem_map.mp hs
      exact hsent _ packet hpacket
  cases request with
  | clients files => exact hreturned _ _
  | bind env request =>
    simp only [serve,handleBindRequest]
    split
    · exact hreturned _ _
    split
    · split
      · exact hreturned _ _
      split <;> exact hreturned _ _
    · exact hreturned _ _
  | listen env sockId request =>
    simp only [serve,checkAndHandleListenRequest]
    split
    · split <;> exact hreturned _ _
    · exact hreturned _ _
  | connect env sockId request =>
    simp only [serve,checkAndHandleConnectRequest]
    split
    · split
      · exact hreturned _ _
      split
      · exact hreturned _ _
      split
      · exact hreturned _ _
      split <;> exact hreturned _ _
    · exact hreturned _ _
  | packet env packet =>
    simp only [serve,handleIncomingIpPacket]
    split
    · exact hreturned _ _
    split
    · exact hreturned _ _
    split
    · exact hreturned _ _
    split
    · exact hreturned _ _
    unfold dispatch
    split
    · exact handOver_constructed _ _ _ _ _
    split
    · exact handOver_constructed _ _ _ _ _
    · exact hreturned _ _
  | endFifo env sockId command =>
    simp only [serve,checkAndHandleSocketEndFifo]
    split
    · exact hreturned _ _
    · split <;> exact hclosed _ _ _
  | sendWindow env sockId => exact hpass _ sockId fun sock => (pass_constructed env sock).1
  | statusMessages env sockId => exact hpass _ sockId fun sock => (pass_constructed env sock).2

theorem sentIn_constructed (libc : Libc) (manager : NetworkManager) (requests : List Request) :
    ∀ s∈sentIn libc manager requests,Constructed s.1 := by
  induction requests generalizing manager with
  | nil => exact fun s hs => absurd hs List.not_mem_nil
  | cons request rest ih =>
    intro s hs
    rw [sentIn,outputs,List.flatten_cons,List.mem_append] at hs
    rcases hs with hs|hs
    · exact serve_constructed libc manager request s hs
    · exact ih _ s hs

/-- And everything that leaves it in a run of its loop. -/
theorem constructed_of_handles {start done : Served} {packets : List IPPacket}
    (h : Handles libc start done packets) (hstart : start.sent=[]) :
    ∀ s∈done.sent,Constructed s.1 := by
  obtain ⟨requests,hserves,_⟩ := h
  rw [hserves.sent,hstart,List.nil_append]
  exact sentIn_constructed libc start.manager requests

/-- The TCP packets among those sent that went to an ip. -/
def sentTo (ip : CString) (sent : List (TCPPacket × CString)) : List TCPPacket :=
  (sent.filter fun s => s.2=ip).map Prod.fst

/-- The IP packet that `send_TCP_packet` writes for a TCP packet. -/
def WrittenFor (srcIp dstIp : CString) (tcpPacket : TCPPacket) (packet : IPPacket) : Prop :=
  createIpPacket srcIp dstIp (tcpToStr tcpPacket)=some packet

/-- Whoever handles the IP packet at an ip dispatches that TCP packet, or the
packet is dropped. -/
def ArrivesAs (libc : Libc) (srcIp dstIp : CString) (tcpPacket : TCPPacket)
    (packet : IPPacket) : Prop :=
  ∀ env (manager : NetworkManager),manager.ip=dstIp →
    handleIncomingIpPacket libc env manager packet=
      dispatch env manager (receiverId srcIp dstIp (asReceived tcpPacket)) (asReceived tcpPacket) ∨
    handleIncomingIpPacket libc env manager packet=returned 0 manager

/-- What is written for a packet arrives as that packet. -/
theorem Constructed.arrivesAs {tcpPacket : TCPPacket} (h : Constructed tcpPacket)
    (hprintable : Printable tcpPacket) {srcIp dstIp : CString} {packet : IPPacket}
    (hwritten : WrittenFor srcIp dstIp tcpPacket packet) :
    ArrivesAs libc srcIp dstIp tcpPacket packet := by
  rintro env manager rfl
  obtain ⟨sender,data,flags,dstPort,rfl⟩ := h
  exact dispatched_or_dropped libc env hwritten hprintable (constructPacket_checksum _ _ _ _) rfl

/-- The packets that come from an ip. -/
def fromIp (ip : CString) (packets : List IPPacket) : List IPPacket :=
  packets.filter fun packet => packet.srcIp=ip

/-- Two managers, each at some point of its own run, and whatever else is
written to the fifo of the receiver. If what arrived there from the sender was
written for the first packets that the sender sent to it, then the packets that
the receiver has handled from the sender are those written for the first of
these, in order, each once, and each is dispatched as the packet that was sent
or dropped. -/
theorem received_as_sent {senderStart sender : Served} {senderPackets : List IPPacket}
    (hsender : Handles libc senderStart sender senderPackets) (hbegins : senderStart.sent=[])
    (hprintable : ∀ s∈sender.sent,Printable s.1) {start done : Served} {packets : List IPPacket}
    {rounds : List Round} (h : ∀ round∈rounds,Supplied buffer mail packets round)
    {inbox last : Fifo} (hw : inbox.waiting=written buffer packets)
    (hend : run (loopStep libc) (.running start inbox) rounds=.running done last)
    {tcpPackets : List TCPPacket}
    (hfirst : tcpPackets<+:sentTo start.manager.ip sender.sent)
    (hwritten : List.Forall₂ (WrittenFor senderStart.manager.ip start.manager.ip) tcpPackets
      (fromIp senderStart.manager.ip
        (packets++between mail inbox.reads (last.reads-inbox.reads)))) :
    ∃ handled left arrived,
      packets++between mail inbox.reads (last.reads-inbox.reads)=handled++left ∧
      Handles libc start done handled ∧ last.waiting=written buffer left ∧
      arrived<+:sentTo start.manager.ip sender.sent ∧
      List.Forall₂ (ArrivesAs libc senderStart.manager.ip start.manager.ip) arrived
        (fromIp senderStart.manager.ip handled) := by
  obtain ⟨handled,left,count,hsplit,hhanded⟩ := loop_delivers libc start h hw
  rw [hend] at hhanded
  obtain ⟨hhandles,rfl⟩ := hhanded
  have hcount : inbox.reads+count-inbox.reads=count := by omega
  rw [hcount] at hwritten ⊢
  rw [hsplit,fromIp,List.filter_append] at hwritten
  have hhead := List.forall₂_take_append _ _ _ hwritten
  have hinitial := (List.take_prefix (fromIp senderStart.manager.ip handled).length
    tcpPackets).trans hfirst
  refine ⟨handled,left,_,hsplit,hhandles,rfl,hinitial,?_⟩
  have hmade : ∀ tcpPacket∈tcpPackets.take (fromIp senderStart.manager.ip handled).length,
      Constructed tcpPacket ∧ Printable tcpPacket := by
    intro tcpPacket hmem
    obtain ⟨s,hs,rfl⟩ := List.mem_map.mp (hinitial.subset hmem)
    have hsent := (List.mem_filter.mp hs).1
    exact ⟨constructed_of_handles hsender hbegins s hsent,hprintable s hsent⟩
  refine ((List.forall₂_and_left _ _).mpr ⟨hmade,hhead⟩).imp ?_
  rintro tcpPacket packet ⟨⟨hconstructed,hprint⟩,hfor⟩
  exact hconstructed.arrivesAs hprint hfor

/-- The manager of another ip, with a socket that connects. -/
def manager90 (d : Fin 10) : NetworkManager :=
  ⟨digitIp d,(createHashMap.insertSocket {createNewSocket 0 ⟨90,80,digitIp d,manager80.ip⟩ .synSent
    with seqOfFirstSendWindow := 1}).2,fun _ => false⟩

/-- Reads of the incoming fifo until now. -/
def readsUntil : Loop → ℕ
  | .running _ inbox => inbox.reads
  | _ => 0

/-- It sends its SYN, which the first manager reads in a round. -/
theorem received_as_sent_syn :
    let libc := zeroLibc
    let env := smoothEnv 5000000 none
    let senderStart : Served := returned 0 (manager90 2)
    let sender := serveAt libc ⟨id,env⟩ senderStart
      (.statusMessages env ⟨90,80,digitIp 2,digitIp 1⟩)
    let start : Served := returned 0 manager80
    ∃ done last handled left arrived,
      run (loopStep libc) (.running start ⟨[],0⟩) [synRound 2]=.running done last ∧
      []++between (oneSyn 2) 0 (last.reads-0)=handled++left ∧ Handles libc start done handled ∧
      last.waiting=written (fun _ _ => 0) left ∧ arrived<+:sentTo (digitIp 1) sender.sent ∧
      List.Forall₂ (ArrivesAs libc (digitIp 2) (digitIp 1)) arrived
        (fromIp (digitIp 2) handled) := by
  intro libc env senderStart sender start
  have haddressed : Addressed senderStart.manager
      (.statusMessages env ⟨90,80,digitIp 2,digitIp 1⟩) := ⟨0,rfl⟩
  have hsender := (Handles.refl libc senderStart).serveAt ⟨id,env⟩ haddressed
  have hsent : sender.sent=[(syn90,digitIp 1)] := by decide +kernel
  have hsupplied : ∀ round∈[synRound 2],Supplied (fun _ _ => 0) (oneSyn 2) [] round := by
    intro round hround
    obtain rfl := List.mem_singleton.mp hround
    exact synRound_supplied 2
  have hreads : 0 < readsUntil (run (loopStep libc) (.running start ⟨[],0⟩) [synRound 2]) := by
    decide +kernel
  cases hend : run (loopStep libc) (.running start ⟨[],0⟩) [synRound 2] with
  | running done last =>
    rw [hend] at hreads
    have hpos : 0 < last.reads := hreads
    have hmail : []++between (oneSyn 2) 0 (last.reads-0)=[synPacket 2] := by
      obtain ⟨count,hcount⟩ : ∃ count,last.reads-0=count+1 := ⟨last.reads-1,by omega⟩
      have hlater : between (oneSyn 2) (0+1) count=[] := by
        rw [between,List.flatMap_eq_nil_iff]
        intro k _
        rw [Nat.add_right_comm]
        rfl
      rw [hcount,between_succ,hlater]
      rfl
    have hprintable : ∀ s∈sender.sent,Printable s.1 := by
      rw [hsent]
      intro s hs
      obtain rfl := List.mem_singleton.mp hs
      exact ⟨by decide,by decide,by decide,by decide,by decide,by decide⟩
    have hfirst : [syn90]<+:sentTo start.manager.ip sender.sent := by
      rw [hsent]
      exact List.prefix_rfl
    have hwritten : List.Forall₂ (WrittenFor senderStart.manager.ip start.manager.ip) [syn90]
        (fromIp senderStart.manager.ip ([]++between (oneSyn 2) 0 (last.reads-0))) := by
      rw [hmail]
      refine List.forall₂_cons.mpr ⟨?_,List.Forall₂.nil⟩
      unfold WrittenFor
      decide
    have hw : (⟨[],0⟩ : Fifo).waiting=written (fun _ _ => 0) [] := rfl
    obtain ⟨handled,left,arrived,hall⟩ := received_as_sent hsender rfl hprintable hsupplied hw
      hend hfirst hwritten
    exact ⟨done,last,handled,left,arrived,rfl,hall⟩
  | stopped | reading | dangling =>
    rw [hend] at hreads
    cases hreads

end NetworkLayer.PacketDelivery
