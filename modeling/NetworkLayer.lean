import NetworkLayer.StepRuns
import NetworkLayer.TimedRuns
import NetworkLayer.CallCourses
import NetworkLayer.FifoCalls
import NetworkLayer.OneWayFifos
import NetworkLayer.WaitingParties
import NetworkLayer.CircularCells
import NetworkLayer.SlotTables
import NetworkLayer.EntryLabels
import NetworkLayer.BoundedMaps
import NetworkLayer.CursorLoops
import NetworkLayer.WindowedStreams
import NetworkLayer.StreamBarriers
import NetworkLayer.DecimalWords
import NetworkLayer.CellBlocks
import NetworkLayer.AccessLogs
import NetworkLayer.CumulativeAcks
import NetworkLayer.ByteStrings
import NetworkLayer.FormattedText
import NetworkLayer.ArrayQueue
import NetworkLayer.QueueRuns
import NetworkLayer.QueueCopies
import NetworkLayer.UtilTypes
import NetworkLayer.Hashmap
import NetworkLayer.SocketMaps
import NetworkLayer.SocketIteration
import NetworkLayer.IpArrays
import NetworkLayer.FifoUtils
import NetworkLayer.TcpPackets
import NetworkLayer.TcpCodec
import NetworkLayer.PacketHandlers
import NetworkLayer.SocketPasses
import NetworkLayer.SocketSteps
import NetworkLayer.Reassembly
import NetworkLayer.Endpoints
import NetworkLayer.Flows
import NetworkLayer.StreamSafety
import NetworkLayer.ClosingExchange
import NetworkLayer.ClosingStates
import NetworkLayer.Acknowledgements
import NetworkLayer.FinAcknowledgement
import NetworkLayer.FinNumbers
import NetworkLayer.NumberMoves
import NetworkLayer.StreamWalls
import NetworkLayer.StreamProgress
import NetworkLayer.FifoReads
import NetworkLayer.PlaceInStream
import NetworkLayer.IpPackets
import NetworkLayer.FixedWidthNumbers
import NetworkLayer.PacketFraming
import NetworkLayer.ReadingEnds
import NetworkLayer.ConcurrentReads
import NetworkLayer.PacketAgreement
import NetworkLayer.PacketDispatch
import NetworkLayer.PacketBounds
import NetworkLayer.FifoFiles
import NetworkLayer.FifoNames
import NetworkLayer.UserBytes
import NetworkLayer.SocketReceive
import NetworkLayer.UserStreams
import NetworkLayer.Demultiplexing
import NetworkLayer.ReplyChains
import NetworkLayer.SocketRequests
import NetworkLayer.IterationPlace
import NetworkLayer.FailedSetups
import NetworkLayer.SequenceRange
import NetworkLayer.TableMoves
import NetworkLayer.BindRequests
import NetworkLayer.ManagerLoop
import NetworkLayer.LoopRuns
import NetworkLayer.PeerIdentity
import NetworkLayer.PacketDelivery
import NetworkLayer.SilentSockets
import NetworkLayer.ReplyAddresses
import NetworkLayer.ListenerSlots
import NetworkLayer.UniqueKeys
import NetworkLayer.Rekeying
import NetworkLayer.HaltingLoop
import NetworkLayer.PortExclusivity
import NetworkLayer.AddressUse
import NetworkLayer.BindCalls
import NetworkLayer.ListenCalls
import NetworkLayer.ListenMeetings
import NetworkLayer.PortReuse
import NetworkLayer.HandshakeMoves
import NetworkLayer.Handshake
import NetworkLayer.HandshakeAgreement
