import Minnow.Foundation.Table
import Minnow.Wire.ARPMessage
import Minnow.Wire.IPv4

/-!
# The network interface

Datagrams go out in Ethernet frames to the address of their next hop, which is asked
for when it is not known.  A next hop is given by its `ipv4_numeric`.
-/

namespace Minnow.Link

open Foundation Wire

structure AddressCache where
  ethernetAddress : EthernetAddress := EthernetAddress.zero
  expireTimeMs : UInt64 := 0

def ADDRESS_CACHE_TIMEOUT_MS : UInt64 := 30000

def ARP_REQUEST_TIMEOUT_MS : UInt64 := 5000

structure NetworkInterface where
  ethernetAddress : EthernetAddress
  ipAddress : UInt32
  timer : UInt64
  arpTimer : UInt64
  addressMap : Table UInt32 AddressCache
  arpRequestExpireTimers : Table UInt32 UInt64
  datagramCache : Table UInt32 (List InternetDatagram)
  sendQueue : List EthernetFrame

namespace NetworkInterface

/-- The interface knows its own address. -/
def new (ethernetAddress : EthernetAddress) (ipAddress : UInt32) : NetworkInterface where
  ethernetAddress := ethernetAddress
  ipAddress := ipAddress
  timer := 0
  arpTimer := 0
  addressMap := Table.empty.assign ipAddress ⟨ethernetAddress, UInt64.ofNat (2 ^ 64 - 1)⟩
  arpRequestExpireTimers := Table.empty
  datagramCache := Table.empty
  sendQueue := []

def createEthernetFrame (interface : NetworkInterface) (type : UInt16) (payload : List Buffer)
    (dst : EthernetAddress) : EthernetFrame :=
  ⟨⟨dst, interface.ethernetAddress, type⟩, payload⟩

/-- Append frames to the send queue. -/
def queue (interface : NetworkInterface) (frames : List EthernetFrame) : NetworkInterface :=
  { interface with sendQueue := interface.sendQueue ++ frames }

def pushDatagram (interface : NetworkInterface) (dgram : InternetDatagram)
    (dst : EthernetAddress) : Except Fault NetworkInterface := do
  let payload ← serialize dgram.serialize
  return interface.queue [interface.createEthernetFrame EthernetHeader.TYPE_IPv4 payload dst]

/-- The Ethernet address on record, or the zero address. -/
def recorded (interface : NetworkInterface) (ip : UInt32) : EthernetAddress :=
  match interface.addressMap.at? ip with
  | some entry => entry.ethernetAddress
  | none => EthernetAddress.zero

/-- The message of `pushArp`. -/
def arpMessage (interface : NetworkInterface) (type : UInt16) (senderIp targetIp : UInt32) :
    ARPMessage where
  opcode := type
  senderIpAddress := senderIp
  targetIpAddress := targetIp
  senderEthernetAddress := interface.recorded senderIp
  targetEthernetAddress := interface.recorded targetIp

def pushArp (interface : NetworkInterface) (type : UInt16) (senderIp targetIp : UInt32)
    (dst : EthernetAddress) : Except Fault NetworkInterface := do
  let payload ← serialize (interface.arpMessage type senderIp targetIp).serialize
  return interface.queue [interface.createEthernetFrame EthernetHeader.TYPE_ARP payload dst]

def pushArpRequest (interface : NetworkInterface) (ipv4Numeric : UInt32) :
    Except Fault NetworkInterface := do
  let pushed ← interface.pushArp ARPMessage.OPCODE_REQUEST interface.ipAddress ipv4Numeric
    ETHERNET_BROADCAST
  return { pushed with
    arpRequestExpireTimers :=
      pushed.arpRequestExpireTimers.assign ipv4Numeric (pushed.timer + ARP_REQUEST_TIMEOUT_MS) }

/-- The target's entry is made if there is none. -/
def pushArpReply (interface : NetworkInterface) (senderIpv4 targetIpv4 : UInt32) :
    Except Fault NetworkInterface :=
  let (target, addressMap) := interface.addressMap.subscript targetIpv4 {}
  { interface with addressMap }.pushArp ARPMessage.OPCODE_REPLY senderIpv4 targetIpv4
    target.ethernetAddress

def isEqual (lhs rhs : EthernetAddress) : Bool :=
  (List.finRange 6).all fun i => lhs.get i == rhs.get i

/-- Send what waits for the address.  The waiting queue is emptied and then erased, so
what it holds in between is not seen. -/
def flushCache (interface : NetworkInterface) (ip : UInt32) (dst : EthernetAddress) :
    Except Fault NetworkInterface := do
  match interface.datagramCache.at? ip with
  | none => return interface
  | some cacheQueue =>
      let sent ← cacheQueue.foldlM (fun interface dgram => interface.pushDatagram dgram dst)
        interface
      return { sent with datagramCache := sent.datagramCache.erase ip }

def learn (interface : NetworkInterface) (message : ARPMessage) : NetworkInterface :=
  { interface with
    addressMap := interface.addressMap.assign message.senderIpAddress
      ⟨message.senderEthernetAddress, interface.timer + ADDRESS_CACHE_TIMEOUT_MS⟩ }

def handleArp (interface : NetworkInterface) (frame : EthernetFrame) :
    Except Fault NetworkInterface := do
  match ← parse (ARPMessage.parse {}) frame.payload with
  | none => return interface
  | some message =>
      let flushed ← (interface.learn message).flushCache message.senderIpAddress
        message.senderEthernetAddress
      if message.opcode == ARPMessage.OPCODE_REQUEST &&
          flushed.addressMap.contains message.targetIpAddress then
        flushed.pushArpReply message.targetIpAddress message.senderIpAddress
      else return flushed

/-- Whether no request for the address is pending. -/
def requestDue (interface : NetworkInterface) (ip : UInt32) : Bool :=
  match interface.arpRequestExpireTimers.at? ip with
  | none => true
  | some expireTime => expireTime < interface.timer

def cachedFor (interface : NetworkInterface) (ip : UInt32) : List InternetDatagram :=
  (interface.datagramCache.at? ip).getD []

def sendDatagram (interface : NetworkInterface) (dgram : InternetDatagram) (nextHop : UInt32) :
    Except Fault NetworkInterface := do
  match interface.addressMap.at? nextHop with
  | some entry => interface.pushDatagram dgram entry.ethernetAddress
  | none =>
      if interface.requestDue nextHop then
        let requested ← interface.pushArpRequest nextHop
        return { requested with
          datagramCache :=
            requested.datagramCache.assign nextHop (requested.cachedFor nextHop ++ [dgram]) }
      else return interface

def recvFrame (interface : NetworkInterface) (frame : EthernetFrame) :
    Except Fault (NetworkInterface × Option InternetDatagram) := do
  if !isEqual frame.header.dst interface.ethernetAddress &&
      !isEqual frame.header.dst ETHERNET_BROADCAST then
    return (interface, none)
  else if frame.header.type == EthernetHeader.TYPE_IPv4 then
    return (interface, ← parse (IPv4Datagram.parse {}) frame.payload)
  else if frame.header.type == EthernetHeader.TYPE_ARP then
    return (← interface.handleArp frame, none)
  else return (interface, none)

/-- Addresses expire at any tick, requests only when `arpTimer` comes round. -/
def tick (interface : NetworkInterface) (msSinceLastTick : UInt64) : NetworkInterface :=
  let timer := interface.timer + msSinceLastTick
  let addressMap := interface.addressMap.keep fun entry => timer < entry.expireTimeMs
  let arpTimer := interface.arpTimer + msSinceLastTick
  if ARP_REQUEST_TIMEOUT_MS ≤ arpTimer then
    { interface with
      timer, addressMap, arpTimer := 0
      arpRequestExpireTimers := interface.arpRequestExpireTimers.keep fun expire => timer < expire }
  else { interface with timer, addressMap, arpTimer }

def maybeSend (interface : NetworkInterface) : NetworkInterface × Option EthernetFrame :=
  match interface.sendQueue with
  | [] => (interface, none)
  | frame :: rest => ({ interface with sendQueue := rest }, some frame)

end NetworkInterface

end Minnow.Link
