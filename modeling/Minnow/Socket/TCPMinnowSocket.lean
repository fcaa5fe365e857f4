import Minnow.Link.EthernetAdapter
import Minnow.Socket.EventLoop
import Minnow.Transport.TCPPeer

/-!
# The socket

A thread of its own runs the peer.  It moves bytes between the peer and the owner's end of a pair
of sockets, and segments between the peer and the adapter.  What the owner wrote and read is noted,
and so are the packets that the device took in a turn.
-/

namespace Minnow.Socket

open Foundation Link Transport Wire

/-- What the adapters have in common. -/
class FdAdapter (Adapter : Type) where
  read : Adapter → Packet → Except Fault (Adapter × Option TCPSegment × List Packet)
  write : Adapter → TCPSegment → Except Fault (Adapter × List Packet)
  tick : Adapter → UInt64 → Except Fault (Adapter × List Packet)

instance : FdAdapter TCPOverIPv4OverEthernetAdapter where
  read := TCPOverIPv4OverEthernetAdapter.read
  write := TCPOverIPv4OverEthernetAdapter.write
  tick := TCPOverIPv4OverEthernetAdapter.tick

/-- What the kernel has for the calls of one turn. -/
structure Answers where
  packet : Packet := []
  read : ReadAnswer := .again
  write : WriteAnswer := .again
  shutdownFails : Bool := false

structure TCPMinnowSocket (Adapter : Type) where
  tcp : TCPPeer
  outgoingSegments : List TCPSegment
  datagramAdapter : Adapter
  device : FDWrapper
  threadData : FDWrapper
  inboundShutdown : Bool
  outboundShutdown : Bool
  fullyAcked : Bool
  answers : Answers
  fromOwner : List UInt8
  toOwner : List UInt8
  emitted : List Packet

namespace TCPMinnowSocket

variable {Adapter : Type}

/-- A socket whose connection is initialized. -/
def new (cfg : TCPConfig) (random : Wrap32) (datagramAdapter : Adapter) :
    TCPMinnowSocket Adapter where
  tcp := TCPPeer.new cfg random
  outgoingSegments := []
  datagramAdapter := datagramAdapter
  device := FDWrapper.new false
  threadData := FDWrapper.new true
  inboundShutdown := false
  outboundShutdown := false
  fullyAcked := false
  answers := {}
  fromOwner := []
  toOwner := []
  emitted := []

/-! ## Segments -/

/-- The peer sends until it has nothing more to send. -/
def collectLoop : Nat → TCPPeer → List TCPSegment → Except Fault (TCPPeer × List TCPSegment)
  | 0, _, _ => .error .outOfFuel
  | fuel + 1, tcp, outgoingSegments => do
      match ← tcp.maybeSend with
      | (tcp, none) => return (tcp, outgoingSegments)
      | (tcp, some seg) => collectLoop fuel tcp (outgoingSegments ++ [seg])

/-- Every segment takes a byte from the stream, or is the first or the last one, or was in the
queue, or replies. -/
def backlog (tcp : TCPPeer) : Nat :=
  3 * (!tcp.sender.sycPushed).toNat +
    2 * (tcp.outboundStream.bytesBuffered + (!tcp.sender.finPushed).toNat) +
      tcp.sender.sendQueue.length + tcp.needSend.toNat

def collectSegments (socket : TCPMinnowSocket Adapter) : Except Fault (TCPMinnowSocket Adapter) := do
  let (tcp, outgoingSegments) ←
    collectLoop (backlog socket.tcp + 1) socket.tcp socket.outgoingSegments
  return { socket with tcp, outgoingSegments }

/-- After a call of the adapter, which may have written to the device. -/
def afterAdapter (socket : TCPMinnowSocket Adapter) (datagramAdapter : Adapter)
    (packets : List Packet) : TCPMinnowSocket Adapter :=
  { socket with
    datagramAdapter
    device := packets.foldl (fun device _ => device.registerWrite) socket.device
    emitted := socket.emitted ++ packets }

/-- A segment that the adapter has read is received, and what follows from it is collected. -/
def hear (socket : TCPMinnowSocket Adapter) :
    Option TCPSegment → Except Fault (TCPMinnowSocket Adapter)
  | none => .ok socket
  | some seg => collectSegments { socket with tcp := socket.tcp.receive seg }

section

variable [FdAdapter Adapter]

/-! ## The rules -/

/-- Rule 1: read from the network. -/
def receiveSegment (socket : TCPMinnowSocket Adapter) : Except Fault (TCPMinnowSocket Adapter) := do
  let (datagramAdapter, seg, packets) ←
    FdAdapter.read socket.datagramAdapter socket.answers.packet
  let heard := { socket with device := socket.device.registerRead }
  let socket ← (heard.afterAdapter datagramAdapter packets).hear seg
  if socket.threadData.eof && socket.tcp.sender.sequenceNumbersInFlight == 0 then
    return { socket with fullyAcked := true }
  else
    return socket

/-- What the owner's bytes are in an answer of the kernel. -/
def found : ReadAnswer → List UInt8
  | .bytes data => data
  | _ => []

/-- Nothing more comes from the owner. -/
def closeOutbound (socket : TCPMinnowSocket Adapter) : TCPMinnowSocket Adapter :=
  { socket with
    tcp := { socket.tcp with outboundStream := socket.tcp.outboundStream.close }
    outboundShutdown := true }

/-- Rule 2: read from the owner. -/
def pushBytes (socket : TCPMinnowSocket Adapter) : Except Fault (TCPMinnowSocket Adapter) := do
  let room := List.replicate socket.tcp.outboundStream.availableCapacity 0
  let (threadData, data) ← socket.threadData.read room socket.answers.read
  let socket :=
    { socket with
      threadData
      fromOwner := socket.fromOwner ++ found socket.answers.read
      tcp := { socket.tcp with outboundStream := socket.tcp.outboundStream.push data } }
  let socket := if socket.threadData.eof then socket.closeOutbound else socket
  let tcp ← socket.tcp.push
  collectSegments { socket with tcp }

/-- The part of rule 3 that writes to the owner what is buffered, as much as goes. -/
def writeInbound (socket : TCPMinnowSocket Adapter) : Except Fault (TCPMinnowSocket Adapter) :=
  let buffer := socket.tcp.inboundStream.peek
  if socket.tcp.inboundStream.bytesBuffered = 0 then .ok socket
  else do
    let (threadData, bytesWritten) ← socket.threadData.write buffer socket.answers.write
    return { socket with
      threadData
      toOwner := socket.toOwner ++ buffer.take bytesWritten
      tcp := { socket.tcp with inboundStream := socket.tcp.inboundStream.pop bytesWritten } }

/-- The stream towards the owner has come to its end. -/
def inboundOver (socket : TCPMinnowSocket Adapter) : Bool :=
  socket.tcp.inboundStream.isFinished || socket.tcp.inboundStream.hasError

/-- Rule 3: write to the owner. -/
def readBytes (socket : TCPMinnowSocket Adapter) : Except Fault (TCPMinnowSocket Adapter) := do
  let socket ← socket.writeInbound
  if socket.inboundOver then
    if socket.answers.shutdownFails then throw (.thrown "shutdown")
    else return { socket with
      threadData := socket.threadData.registerWrite
      inboundShutdown := true }
  else
    return socket

/-- Rule 4: write to the network. -/
def sendLoop : List TCPSegment → TCPMinnowSocket Adapter → Except Fault (TCPMinnowSocket Adapter)
  | [], socket => .ok socket
  | seg :: rest, socket => do
      let (datagramAdapter, packets) ← FdAdapter.write socket.datagramAdapter seg
      sendLoop rest ({ socket with outgoingSegments := rest }.afterAdapter datagramAdapter packets)

def sendSegments (socket : TCPMinnowSocket Adapter) : Except Fault (TCPMinnowSocket Adapter) :=
  sendLoop socket.outgoingSegments socket

end

/-- The descriptors that are polled. -/
inductive Polled where
  | device
  | threadData
  deriving DecidableEq

def status : Polled → TCPMinnowSocket Adapter → FDWrapper
  | .device => fun socket => socket.device
  | .threadData => fun socket => socket.threadData

section

variable [FdAdapter Adapter]

def receiveRule : FDRule Polled (TCPMinnowSocket Adapter) where
  categoryId := 0
  fd := .device
  direction := .In
  callback := receiveSegment
  interest := fun socket => socket.tcp.active

def pushRule : FDRule Polled (TCPMinnowSocket Adapter) where
  categoryId := 1
  fd := .threadData
  direction := .In
  callback := pushBytes
  interest := fun socket => socket.tcp.active && !socket.outboundShutdown &&
    decide (0 < socket.tcp.outboundStream.availableCapacity)
  cancel := fun socket => .ok socket.closeOutbound

def readRule : FDRule Polled (TCPMinnowSocket Adapter) where
  categoryId := 2
  fd := .threadData
  direction := .Out
  callback := readBytes
  interest := fun socket => decide (socket.tcp.inboundStream.bytesBuffered ≠ 0) ||
    (socket.inboundOver && !socket.inboundShutdown)

def sendRule : FDRule Polled (TCPMinnowSocket Adapter) where
  categoryId := 3
  fd := .device
  direction := .Out
  callback := sendSegments
  interest := fun socket => !socket.outgoingSegments.isEmpty

/-- The event loop of a socket. -/
def eventLoop : EventLoop Polled (TCPMinnowSocket Adapter) where
  ruleCategories := ["receive TCP segment from the network", "push bytes to TCPPeer",
    "read bytes from inbound stream", "send TCP segment"]
  fdRules := [receiveRule, pushRule, readRule, sendRule]
  nonFdRules := []

/-- The loop is the one that the source makes. -/
theorem eventLoop_added :
    (do
      let loop ← EventLoop.new.addNamedRule "receive TCP segment from the network" receiveRule
      let loop ← loop.addNamedRule "push bytes to TCPPeer" pushRule
      let loop ← loop.addNamedRule "read bytes from inbound stream" readRule
      loop.addNamedRule "send TCP segment" sendRule) =
        (.ok eventLoop : Except Fault (EventLoop Polled (TCPMinnowSocket Adapter))) := rfl

/-! ## The thread -/

/-- What `connect` does before it waits. -/
def connect (socket : TCPMinnowSocket Adapter) : Except Fault (TCPMinnowSocket Adapter) := do
  let tcp ← socket.tcp.push
  let socket ← collectSegments { socket with tcp }
  if socket.tcp.sender.sequenceNumbersInFlight = 1 then return socket
  else throw (.thrown
    "After TCPConnection::connect(), expected sequence_numbers_in_flight() == 1")

/-- The time that has passed is told to the peer and to the adapter. -/
def pass (socket : TCPMinnowSocket Adapter) (msSinceLastTick : UInt64) :
    Except Fault (TCPMinnowSocket Adapter) := do
  let tcp ← socket.tcp.tick msSinceLastTick.toNat
  let socket ← collectSegments { socket with tcp }
  let (datagramAdapter, packets) ← FdAdapter.tick socket.datagramAdapter msSinceLastTick
  return socket.afterAdapter datagramAdapter packets

/-- One turn of `_tcp_loop`, with what the loop has called and whether it goes on. -/
def turn (loop : EventLoop Polled (TCPMinnowSocket Adapter)) (socket : TCPMinnowSocket Adapter)
    (answers : Answers) (poll : PollAnswer) (msSinceLastTick : UInt64) :
    Except Fault (EventLoop Polled (TCPMinnowSocket Adapter) × TCPMinnowSocket Adapter ×
      List Note × Bool) := do
  let (loop, socket, ret, notes) ←
    loop.waitNextEvent status poll { socket with answers, emitted := [] }
  if ret = .Exit then
    return (loop, socket, notes, false)
  else if socket.tcp.active then
    return (loop, ← socket.pass msSinceLastTick, notes, true)
  else
    return (loop, socket, notes, true)

end

end TCPMinnowSocket

abbrev TCPOverIPv4OverEthernetMinnowSocket := TCPMinnowSocket TCPOverIPv4OverEthernetAdapter

end Minnow.Socket
