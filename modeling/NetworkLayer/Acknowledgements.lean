import NetworkLayer.ClosingStates
import NetworkLayer.CumulativeAcks

/-!
# Acknowledgements in any order

An established socket gets packets that acknowledge and do nothing else. They
may come in any order, again and again, and late. What they leave of the send
window is what the greatest number among them leaves.
-/

namespace NetworkLayer.Acknowledgements

open ByteStrings ArrayQueue UtilTypes FifoUtils TcpPackets PacketHandlers SocketSteps
open ClosingStates StepRuns CumulativeAcks

/-- A packet that acknowledges and does nothing else, from the partner with
the port, with all that the world answers when it is handled. -/
structure PureAck (peerPort : ℤ) where
  /-- What the world answers. -/
  env : Env
  /-- The manager. -/
  manager : NetworkManager
  /-- The ip that is handed to the handler. -/
  srcIp : CString
  /-- The packet. -/
  packet : TCPPacket
  /-- It comes from the partner. -/
  port : packet.srcPort=peerPort
  /-- It acknowledges. -/
  ack : packet.has ackFlag=true
  /-- It is no SYN. -/
  syn : packet.has synFlag=false
  /-- It is no FIN. -/
  fin : packet.has finFlag=false
  /-- It is no reset. -/
  rst : packet.has rstFlag=false
  /-- It carries no data. -/
  data : packet.data=none

/-- The packet is handled. -/
def PureAck.event {peerPort : ℤ} (ack : PureAck peerPort) : Event :=
  .packet ack.env ack.manager ack.packet ack.srcIp

/-- The send window with its sequence numbers. -/
def unacked (s : Socket) : Unacked Byte := ⟨s.seqOfFirstSendWindow,s.sendWindow.toList⟩

section

variable {s : Socket} {peerPort : ℤ} (hstate : s.state=.established) (hport : s.id.dstPort=peerPort)

include hstate hport

/-- Handling such a packet runs the acknowledgement loop and no more. -/
theorem socketStep_pureAck (ack : PureAck peerPort) :
    socketStep s ack.event=acknowledge ack.packet.ackNum s.sendWindow.size s := by
  have hhandled : handlePacket ack.env ack.manager s ack.packet ack.srcIp=
      quiet ack.manager (acknowledge ack.packet.ackNum s.sendWindow.size s) := by
    rw [handlePacket,if_neg (by simp [ack.rst]),if_neg (by simp [ack.port,hport]),hstate]
    simp only [handlePacketEstablished,ack.syn,ack.fin,ack.ack,ack.data,Bool.false_eq_true,
      if_false,if_true]
  simp only [PureAck.event,socketStep,Handled.afterReply,hhandled,quiet_reply,quiet_socket,
    Option.isSome_none,Bool.false_eq_true,false_and,if_false]

/-- It changes the send window and its first number only, as an
acknowledgement of numbered bytes does. -/
theorem socketStep_unacked (ack : PureAck peerPort) :
    unacked (socketStep s ack.event)=(unacked s).acknowledge ack.packet.ackNum ∧
      ∃ q first,socketStep s ack.event=
        {s with sendWindow := q,seqOfFirstSendWindow := first} := by
  obtain ⟨j,q,he,hq,hj⟩ := acknowledge_spec ack.packet.ackNum s.sendWindow.size s
  have hcount : (unacked s).acked ack.packet.ackNum=j := by
    rw [Unacked.acked,unacked,length_toList,hj,min_self]
  rw [socketStep_pureAck hstate hport ack,he]
  refine ⟨?_,q,_,rfl⟩
  rw [Unacked.acknowledge,hcount,unacked,unacked,hq]

/-- A run of such packets is a run of acknowledgements. -/
theorem run_unacked (acks : List (PureAck peerPort)) :
    unacked (run socketStep s (acks.map PureAck.event))=
        (acks.map fun ack => ack.packet.ackNum).foldl Unacked.acknowledge (unacked s) ∧
      ∃ q first,run socketStep s (acks.map PureAck.event)=
        {s with sendWindow := q,seqOfFirstSendWindow := first} := by
  induction acks generalizing s with
  | nil => exact ⟨rfl,s.sendWindow,s.seqOfFirstSendWindow,rfl⟩
  | cons ack rest ih =>
    obtain ⟨hunacked,q,first,hstep⟩ := socketStep_unacked hstate hport ack
    obtain ⟨hrun,q',first',hrest⟩ := ih (s:=socketStep s ack.event) (by rw [hstep,hstate])
      (by rw [hstep,hport])
    rw [List.map_cons,List.map_cons,run_cons,List.foldl_cons,←hunacked]
    exact ⟨hrun,q',first',by rw [hrest,hstep]⟩

end

/-- Any number of such packets, in any order and with any repetitions: the
send window loses as many bytes as the greatest number acknowledges, at most
all and at least none, its first number grows by as much, and nothing else
changes. -/
theorem greatest_ack_decides {s : Socket} (hstate : s.state=.established)
    {acks : List (PureAck s.id.dstPort)} {greatest : ℤ}
    (hgreatest : IsGreatest {n | ∃ ack∈acks,ack.packet.ackNum=n} greatest) :
    ∃ n : ℕ,(n : ℤ)=min (s.sendWindow.size : ℤ) (max 0 (greatest-s.seqOfFirstSendWindow)) ∧
      ∃ q : Queue,q.toList=s.sendWindow.toList.drop n ∧
        run socketStep s (acks.map PureAck.event)=
          {s with
            sendWindow := q
            seqOfFirstSendWindow := s.seqOfFirstSendWindow+n} := by
  obtain ⟨hrun,q,first,hframe⟩ := run_unacked hstate rfl acks
  have hnumbers : IsGreatest {n | n∈acks.map fun ack => ack.packet.ackNum} greatest := by
    simpa only [List.mem_map] using hgreatest
  rw [foldl_acknowledge _ hnumbers,hframe] at hrun
  have hfirst := congrArg Unacked.first hrun
  have hitems := congrArg Unacked.items hrun
  simp only [unacked,Unacked.acknowledge] at hfirst hitems
  refine ⟨(unacked s).acked greatest,?_,q,hitems,by rw [hframe,hfirst]; rfl⟩
  simp only [Unacked.acked,unacked,length_toList]
  omega

/-- An established socket with three bytes in its send window. -/
def threeBytes : Socket :=
  {openSocket with
    sendWindow := (((queueCreate.enqueue 97).2.enqueue 98).2.enqueue 99).2
    seqOfFirstSendWindow := 10}

/-- An acknowledgement by its partner. -/
def ackOf (ackNum : ℤ) : PureAck threeBytes.id.dstPort where
  env := smoothEnv 0 none
  manager := createNetworkManager emptyIp fun _ => false
  srcIp := emptyIp
  packet := ⟨8081,8080,0,ackNum,ackFlag,0,none⟩
  port := rfl
  ack := by simp only [TCPPacket.has]; decide
  syn := by simp only [TCPPacket.has]; decide
  fin := by simp only [TCPPacket.has]; decide
  rst := by simp only [TCPPacket.has]; decide
  data := rfl

/-- The middle one of three numbers comes last and once more. -/
theorem greatest_ack_decides_three :
    ∃ n : ℕ,(n : ℤ)=min (threeBytes.sendWindow.size : ℤ)
        (max 0 (12-threeBytes.seqOfFirstSendWindow)) ∧
      ∃ q : Queue,q.toList=threeBytes.sendWindow.toList.drop n ∧
        run socketStep threeBytes ([ackOf 11,ackOf 12,ackOf 3,ackOf 11].map PureAck.event)=
          {threeBytes with
            sendWindow := q
            seqOfFirstSendWindow := threeBytes.seqOfFirstSendWindow+n} := by
  refine greatest_ack_decides rfl ⟨⟨ackOf 12,by simp,rfl⟩,?_⟩
  rintro n ⟨ack,hmem,rfl⟩
  simp only [List.mem_cons,List.not_mem_nil,or_false] at hmem
  rcases hmem with rfl|rfl|rfl|rfl <;> decide

end NetworkLayer.Acknowledgements
