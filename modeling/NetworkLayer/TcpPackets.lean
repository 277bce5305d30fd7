import NetworkLayer.FormattedText
import NetworkLayer.UtilTypes

/-!
# TCP packets and their text form

A packet is sent as one string: two ports of five digits, two numbers of ten
digits, the flags character, a checksum padded with spaces to ten characters
and the data. The decoder scans the same fields and takes the data from a
fixed offset.
-/

namespace NetworkLayer.TcpPackets

open ByteStrings FormattedText UtilTypes

/-- `ACK`. -/
def ackFlag : Byte := 1

/-- `FIN`. -/
def finFlag : Byte := 2

/-- `RST`. -/
def rstFlag : Byte := 4

/-- `SYN`. -/
def synFlag : Byte := 8

/-- A TCP packet. -/
structure TCPPacket where
  /-- Port of the sender. -/
  srcPort : ℤ
  /-- Port of the receiver. -/
  dstPort : ℤ
  /-- Sequence number of the first byte of data. -/
  seqNum : ℤ
  /-- The next sequence number the sender expects. -/
  ackNum : ℤ
  /-- Flags, one bit each. -/
  flags : Byte
  /-- Transmitted checksum. -/
  checksum : ℤ
  /-- The data, or NULL. -/
  data : Option CString
  deriving DecidableEq

/-- `packet->flags & flag` as a condition. -/
def TCPPacket.has (packet : TCPPacket) (flag : Byte) : Bool := packet.flags &&& flag != 0

/-- The sum of the checked fields. -/
def checksumSum (packet : TCPPacket) : ℤ :=
  packet.srcPort+packet.dstPort+packet.seqNum+packet.ackNum+charValue packet.flags

/-- `calc_checksum`, which sums as an `int`. -/
def calcChecksum (packet : TCPPacket) : ℤ := wrapInt (checksumSum packet)

/-- `construct_packet`: numbers from the socket, the checksum over them. -/
def constructPacket (socket : Socket) (data : CString) (flags : Byte) (dstPort : ℤ) : TCPPacket :=
  let result : TCPPacket := {
    srcPort := socket.id.srcPort
    dstPort := dstPort
    seqNum := socket.seqOfFirstSendWindow
    ackNum := socket.seqOfFirstRecvWindow
    flags := flags
    checksum := 0
    data := some data}
  {result with checksum := calcChecksum result}

/-- The characters `tcp_to_str` prints for a packet with data. -/
def tcpStrRepr (packet : TCPPacket) (data : CString) : List Byte :=
  printIntZeros 5 packet.srcPort++printIntZeros 5 packet.dstPort++
    printIntZeros 10 packet.seqNum++printIntZeros 10 packet.ackNum++[packet.flags]++
    printIntSpaces 10 packet.checksum++data.chars

/-- `tcp_to_str`: the string ends at the first NUL that is printed. A packet
without data is never encoded. -/
def tcpToStr (packet : TCPPacket) : CString :=
  CString.ofCells (tcpStrRepr packet (packet.data.getD CString.empty))

/-- The data of a decoded string: what follows the fixed part, or NULL. -/
def dataOf (s : CString) : Option CString :=
  if s.strlen > 41 then some ⟨s.chars.drop 41,fun h => s.nulFree (List.mem_of_mem_drop h)⟩ else none

/-- `str_to_tcp`: NULL unless all six conversions succeed. -/
def strToTcp (libc : Libc) (s : CString) : Option TCPPacket := do
  let (srcPort,rest) ← scanInt libc 5 s.chars
  let (dstPort,rest) ← scanInt libc 5 rest
  let (seqNum,rest) ← scanInt libc 10 rest
  let (ackNum,rest) ← scanInt libc 10 rest
  let (flags,rest) ← scanChar rest
  let (checksum,_) ← scanInt libc 10 rest
  return {
    srcPort := srcPort
    dstPort := dstPort
    seqNum := seqNum
    ackNum := ackNum
    flags := flags
    checksum := checksum
    data := dataOf s}

/-- A packet as its receiver gets it: empty data become NULL. -/
def asReceived (packet : TCPPacket) : TCPPacket :=
  {packet with data := packet.data.filter fun data => data.strlen != 0}

@[simp] theorem asReceived_has (packet : TCPPacket) (flag : Byte) :
    (asReceived packet).has flag=packet.has flag := rfl

@[simp] theorem calcChecksum_asReceived (packet : TCPPacket) :
    calcChecksum (asReceived packet)=calcChecksum packet := rfl

/-- A constructed packet carries its own checksum. -/
theorem constructPacket_checksum (socket : Socket) (data : CString) (flags : Byte) (dstPort : ℤ) :
    (constructPacket socket data flags dstPort).checksum=
      calcChecksum (constructPacket socket data flags dstPort) := rfl

end NetworkLayer.TcpPackets
