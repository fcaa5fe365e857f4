import Minnow.Foundation.Words
import Minnow.Foundation.Fault
import Minnow.Foundation.Runs
import Minnow.Foundation.OrderedMap
import Minnow.Foundation.Chunks
import Minnow.Foundation.Tiling
import Minnow.Foundation.Table
import Minnow.Foundation.Channel
import Minnow.Foundation.EndAroundCarry
import Minnow.Foundation.BoundedQueue
import Minnow.Foundation.Watch
import Minnow.Stream.ByteStream
import Minnow.Stream.StreamTraffic
import Minnow.Stream.FinishedStream
import Minnow.Stream.Reassembler
import Minnow.Stream.ReassemblerInsert
import Minnow.Stream.ReassemblerWrite
import Minnow.Stream.ReassemblerReach
import Minnow.Stream.ReassemblerRuns
import Minnow.Stream.ReassemblerDelivery
import Minnow.Stream.ReassemblerMemory
import Minnow.Stream.ReassemblerEnd
import Minnow.Stream.ReassemblerOrder
import Minnow.Stream.WatchedReassembler
import Minnow.Stream.ReassemblerHazards
import Minnow.Transport.WrappingIntegers
import Minnow.Transport.Messages
import Minnow.Transport.TCPReceiver
import Minnow.Transport.ReceiverRuns
import Minnow.Transport.StreamIndex
import Minnow.Transport.TCPSender
import Minnow.Transport.SenderSteps
import Minnow.Transport.SenderRuns
import Minnow.Transport.SenderTimer
import Minnow.Transport.SenderAccount
import Minnow.Transport.SenderFidelity
import Minnow.Transport.SenderWindow
import Minnow.Transport.SenderBacklog
import Minnow.Transport.SenderBookkeeping
import Minnow.Transport.SenderReach
import Minnow.Transport.SenderFill
import Minnow.Transport.FilledWindow
import Minnow.Transport.ImpossibleAcks
import Minnow.Transport.TimerCoverage
import Minnow.Transport.RetransmissionSteps
import Minnow.Transport.RetransmissionLaw
import Minnow.Transport.Network
import Minnow.Transport.OrderedFlow
import Minnow.Wire.Parser
import Minnow.Wire.Checksum
import Minnow.Wire.BufferCursor
import Minnow.Wire.Encoding
import Minnow.Wire.Scanning
import Minnow.Wire.HollowBuffers
import Minnow.Wire.SplitInput
import Minnow.Wire.OnesComplement
import Minnow.Wire.Ethernet
import Minnow.Wire.ARPMessage
import Minnow.Wire.LinkCodec
import Minnow.Wire.IPv4
import Minnow.Wire.IPv4Parsing
import Minnow.Wire.HeaderAcceptance
import Minnow.Wire.TCPSegment
import Minnow.Wire.InternetSum
import Minnow.Wire.SegmentAcceptance
import Minnow.Wire.DatagramLength
import Minnow.Wire.Reencoding
import Minnow.Wire.TCPOverIP
import Minnow.Wire.ListeningAdapter
import Minnow.Transport.TCPPeer
import Minnow.Transport.PeerCompletion
import Minnow.Transport.PeerFlow
import Minnow.Transport.Connection
import Minnow.Transport.AckObligation
import Minnow.Link.NetworkInterface
import Minnow.Link.InterfaceSteps
import Minnow.Link.DatagramLedger
import Minnow.Link.InterfaceRuns
import Minnow.Link.AddressHistory
import Minnow.Link.AddressFreshness
import Minnow.Link.OwnAddress
import Minnow.Link.ArpReplies
import Minnow.Link.ArpPacing
import Minnow.Link.WaitingDatagrams
import Minnow.Routing.RouteTable
import Minnow.Routing.RouteLookup
import Minnow.Routing.RouteUpdates
import Minnow.Routing.LongestPrefix
import Minnow.Routing.SpelledNetworks
import Minnow.Routing.Router
import Minnow.Routing.Forwarding
import Minnow.Foundation.Simulation
import Minnow.Transport.FullDuplex
import Minnow.Wire.FileDescriptor
import Minnow.Wire.FrameReading
import Minnow.Link.Provenance
import Minnow.Link.EthernetAdapter
import Minnow.Link.LocalNetwork
import Minnow.Routing.Relaying
import Minnow.Stack.Enclosure
import Minnow.Stack.Internet
import Minnow.Stack.EndToEnd
import Minnow.Transport.EmptiedQueue
import Minnow.Socket.Descriptor
import Minnow.Socket.EventLoop
import Minnow.Socket.EventLoopSteps
import Minnow.Socket.EventLoopRuns
import Minnow.Socket.EventLoopReturns
import Minnow.Socket.TCPMinnowSocket
import Minnow.Socket.CollectSegments
import Minnow.Socket.Threads
import Minnow.Socket.OwnerBytes
import Minnow.Socket.StreamCopy
import Minnow.Socket.StreamCopyRuns
import Minnow.Stack.SocketSteps
import Minnow.Stack.Applications
import Minnow.Stack.Terminals
