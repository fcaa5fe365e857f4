import Minnow.Link.EthernetAdapter
import Minnow.Stack.Enclosure
import Minnow.Transport.FullDuplex

/-!
# Two hosts and the routers between them

Every host has a peer, the segments that wait to be written, and an adapter.  Every packet that
was ever written to a device is kept, and may be read by any host and any router, at any time and
any number of times, so that packets are lost, duplicated and reordered, and the links are
whatever one likes.
-/

namespace Minnow.Stack

open Foundation Link Routing Transport Wire

structure Host where
  peer : TCPPeer
  outgoingSegments : List TCPSegment
  adapter : TCPOverIPv4OverEthernetAdapter

/-- The hosts, the routers, every packet that was written, and what the owners wrote and read. -/
structure Internet (Node : Type) where
  host : Side → Host
  router : Node → Router
  wire : List Packet
  written : Side → List UInt8
  taken : Side → List UInt8

variable {Node : Type}

namespace Internet

def setHost (internet : Internet Node) (side : Side) (host : Host) : Internet Node :=
  { internet with host := Function.update internet.host side host }

/-- The packets are written to a device. -/
def emit (internet : Internet Node) (packets : List Packet) : Internet Node :=
  { internet with wire := internet.wire ++ packets }

/-- After a call of an owner that left the peer like this. -/
def called (internet : Internet Node) (side : Side) (op : TCPPeer.Op) (peer : TCPPeer) :
    Internet Node :=
  let host := internet.host side
  { internet.setHost side { host with peer } with
    written := Function.update internet.written side (internet.written side ++ host.peer.wrote op)
    taken := Function.update internet.taken side (internet.taken side ++ host.peer.took op) }

/-- After a turn of `collect_segments`. -/
def collected (internet : Internet Node) (side : Side) (peer : TCPPeer) (seg : Option TCPSegment) :
    Internet Node :=
  let host := internet.host side
  internet.setHost side
    { host with peer, outgoingSegments := host.outgoingSegments ++ seg.toList }

/-- After the first of the waiting segments is written. -/
def wrote (internet : Internet Node) (side : Side) (rest : List TCPSegment)
    (adapter : TCPOverIPv4OverEthernetAdapter) (packets : List Packet) : Internet Node :=
  let host := internet.host side
  (internet.setHost side { host with outgoingSegments := rest, adapter }).emit packets

/-- After a read, whose segment goes to the peer. -/
def read (internet : Internet Node) (side : Side) (adapter : TCPOverIPv4OverEthernetAdapter)
    (seg : Option TCPSegment) (packets : List Packet) : Internet Node :=
  let host := internet.host side
  (internet.setHost side
    { host with peer := seg.toList.foldl TCPPeer.receive host.peer, adapter }).emit packets

section Access

variable (internet : Internet Node) (side : Side) (host : Host)

@[simp] theorem setHost_host : (internet.setHost side host).host side = host :=
  Function.update_self _ _ _

@[simp] theorem setHost_other :
    (internet.setHost side host).host side.other = internet.host side.other :=
  Function.update_of_ne side.other_ne _ _

@[simp] theorem emit_host (packets : List Packet) : (internet.emit packets).host = internet.host :=
  rfl

end Access

variable [DecidableEq Node]

def setRouter (internet : Internet Node) (node : Node) (router : Router) : Internet Node :=
  { internet with router := Function.update internet.router node router }

def setInterface (internet : Internet Node) (node : Node) (num : Nat)
    (interface : AsyncNetworkInterface) : Internet Node :=
  let router := internet.router node
  internet.setRouter node { router with interfaces := router.interfaces.set num interface }

/-- The owner of a listening socket is blocked until it is connected, and writes nothing. -/
def Blocked (host : Host) (op : TCPPeer.Op) : Prop :=
  host.adapter.listening = true →
    (∃ msSinceLastTick, op = .tick msSinceLastTick) ∨ ∃ len, op = .read len

/-- A step of a router: a frame comes in, the datagrams are routed, time passes, or a frame goes
out. -/
inductive Relays (internet : Internet Node) : Internet Node → Prop
  | receive {node : Node} {num : Nat} {packet : Packet} {frame : EthernetFrame}
      {interface next : AsyncNetworkInterface} (inside : packet ∈ internet.wire)
      (parsed : maybeReceiveFrame packet = .ok (some frame))
      (here : (internet.router node).interfaces[num]? = some interface)
      (ran : interface.recvFrame frame = .ok next) :
      Relays internet (internet.setInterface node num next)
  | route {node : Node} {order : List (UInt64 × UInt64)} {router : Router} {calls : List Dispatch}
      (ran : (internet.router node).route order = .ok (router, calls)) :
      Relays internet (internet.setRouter node router)
  | pass {node : Node} {num : Nat} {interface : AsyncNetworkInterface} (msSinceLastTick : UInt64)
      (here : (internet.router node).interfaces[num]? = some interface) :
      Relays internet (internet.setInterface node num
        { interface with toNetworkInterface := interface.toNetworkInterface.tick msSinceLastTick })
  | transmit {node : Node} {num : Nat} {interface : AsyncNetworkInterface} {rest : NetworkInterface}
      {frame : EthernetFrame} (here : (internet.router node).interfaces[num]? = some interface)
      (taken : interface.toNetworkInterface.maybeSend = (rest, some frame)) :
      Relays internet ((internet.setInterface node num
        { interface with toNetworkInterface := rest }).emit [frame.packet])

inductive Step (internet : Internet Node) : Internet Node → Prop
  | call {side : Side} {op : TCPPeer.Op} {peer : TCPPeer} (own : op.isOwn = true)
      (blocked : Blocked (internet.host side) op) (allowed : (internet.host side).peer.Allows op)
      (ran : (internet.host side).peer.step op = .ok peer) :
      Step internet (internet.called side op peer)
  | collect {side : Side} {peer : TCPPeer} {seg : Option TCPSegment}
      (ran : (internet.host side).peer.maybeSend = .ok (peer, seg)) :
      Step internet (internet.collected side peer seg)
  | write {side : Side} {seg : TCPSegment} {rest : List TCPSegment}
      {adapter : TCPOverIPv4OverEthernetAdapter} {packets : List Packet}
      (first : (internet.host side).outgoingSegments = seg :: rest)
      (ran : (internet.host side).adapter.write seg = .ok (adapter, packets)) :
      Step internet (internet.wrote side rest adapter packets)
  | read {side : Side} {packet : Packet} {adapter : TCPOverIPv4OverEthernetAdapter}
      {seg : Option TCPSegment} {packets : List Packet} (inside : packet ∈ internet.wire)
      (ran : (internet.host side).adapter.read packet = .ok (adapter, seg, packets)) :
      Step internet (internet.read side adapter seg packets)
  | tick {side : Side} {msSinceLastTick : UInt64} {adapter : TCPOverIPv4OverEthernetAdapter}
      {packets : List Packet}
      (ran : (internet.host side).adapter.tick msSinceLastTick = .ok (adapter, packets)) :
      Step internet (internet.read side adapter none packets)
  | relay {next : Internet Node} (relays : internet.Relays next) : Step internet next

/-! ### What happens -/

/-- A step, with the place on the wire of what is read or received. -/
inductive Event (Node : Type) where
  | call (side : Side) (op : TCPPeer.Op)
  | collect (side : Side)
  | write (side : Side)
  | read (side : Side) (place : Nat)
  | tick (side : Side) (msSinceLastTick : UInt64)
  | receive (node : Node) (num place : Nat)
  | route (node : Node) (order : List (UInt64 × UInt64))
  | pass (node : Node) (num : Nat) (msSinceLastTick : UInt64)
  | transmit (node : Node) (num : Nat)

/-- The internet after the event, if it can happen and does not fail.  Calls are made only on
connected sockets. -/
def happen (internet : Internet Node) : Event Node → Option (Internet Node)
  | .call side op => do
      let host := internet.host side
      guard (op.isOwn = true ∧ host.adapter.listening = false ∧ host.peer.Allows op)
      return internet.called side op (← (host.peer.step op).toOption)
  | .collect side => do
      let (peer, seg) ← (internet.host side).peer.maybeSend.toOption
      return internet.collected side peer seg
  | .write side =>
      match (internet.host side).outgoingSegments with
      | [] => none
      | seg :: rest => do
          let (adapter, packets) ← ((internet.host side).adapter.write seg).toOption
          return internet.wrote side rest adapter packets
  | .read side place => do
      let packet ← internet.wire[place]?
      let (adapter, seg, packets) ← ((internet.host side).adapter.read packet).toOption
      return internet.read side adapter seg packets
  | .tick side msSinceLastTick => do
      let (adapter, packets) ← ((internet.host side).adapter.tick msSinceLastTick).toOption
      return internet.read side adapter none packets
  | .receive node num place => do
      let packet ← internet.wire[place]?
      let frame ← (maybeReceiveFrame packet).toOption.join
      let interface ← (internet.router node).interfaces[num]?
      return internet.setInterface node num (← (interface.recvFrame frame).toOption)
  | .route node order => do
      let (router, _) ← ((internet.router node).route order).toOption
      return internet.setRouter node router
  | .pass node num msSinceLastTick => do
      let interface ← (internet.router node).interfaces[num]?
      return internet.setInterface node num
        { interface with toNetworkInterface := interface.toNetworkInterface.tick msSinceLastTick }
  | .transmit node num => do
      let interface ← (internet.router node).interfaces[num]?
      match interface.toNetworkInterface.maybeSend with
      | (_, none) => none
      | (rest, some frame) =>
          return (internet.setInterface node num { interface with toNetworkInterface := rest }).emit
            [frame.packet]

theorem step_of_happen {internet next : Internet Node} {event : Event Node}
    (happened : internet.happen event = some next) : internet.Step next := by
  cases event with
  | call side op =>
      obtain ⟨_, guarded, happened⟩ := Option.bind_eq_some_iff.mp happened
      obtain ⟨_, ran, ⟨⟩⟩ := Option.bind_eq_some_iff.mp happened
      obtain ⟨own, connected, allowed⟩ := (Option.guard_eq_some' ..).mp guarded
      refine .call own (fun listens => ?_) allowed (Fault.ok_of_toOption ran)
      rw [connected] at listens
      cases listens
  | collect side =>
      obtain ⟨_, ran, ⟨⟩⟩ := Option.bind_eq_some_iff.mp happened
      exact .collect (Fault.ok_of_toOption ran)
  | write side =>
      rw [happen] at happened
      split at happened
      · cases happened
      · rename_i seg rest first
        obtain ⟨_, ran, ⟨⟩⟩ := Option.bind_eq_some_iff.mp happened
        exact .write first (Fault.ok_of_toOption ran)
  | read side place =>
      obtain ⟨packet, here, happened⟩ := Option.bind_eq_some_iff.mp happened
      obtain ⟨_, ran, ⟨⟩⟩ := Option.bind_eq_some_iff.mp happened
      exact .read (List.mem_of_getElem? here) (Fault.ok_of_toOption ran)
  | tick side msSinceLastTick =>
      obtain ⟨_, ran, ⟨⟩⟩ := Option.bind_eq_some_iff.mp happened
      exact .tick (Fault.ok_of_toOption ran)
  | receive node num place =>
      obtain ⟨packet, inside, happened⟩ := Option.bind_eq_some_iff.mp happened
      obtain ⟨frame, read, happened⟩ := Option.bind_eq_some_iff.mp happened
      obtain ⟨interface, here, happened⟩ := Option.bind_eq_some_iff.mp happened
      obtain ⟨received, ran, ⟨⟩⟩ := Option.bind_eq_some_iff.mp happened
      exact .relay (.receive (List.mem_of_getElem? inside)
        (Fault.ok_of_toOption (Option.join_eq_some_iff.mp read)) here (Fault.ok_of_toOption ran))
  | route node order =>
      obtain ⟨_, ran, ⟨⟩⟩ := Option.bind_eq_some_iff.mp happened
      exact .relay (.route (Fault.ok_of_toOption ran))
  | pass node num msSinceLastTick =>
      obtain ⟨interface, here, ⟨⟩⟩ := Option.bind_eq_some_iff.mp happened
      exact .relay (.pass msSinceLastTick here)
  | transmit node num =>
      obtain ⟨interface, here, happened⟩ := Option.bind_eq_some_iff.mp happened
      split at happened
      · cases happened
      · rename_i rest frame taken
        cases happened
        exact .relay (.transmit here taken)

theorem steps_of_happen {internet final : Internet Node} {events : List (Event Node)}
    (happened : events.foldlM happen internet = some final) :
    Relation.ReflTransGen Step internet final := by
  induction events generalizing internet with
  | nil =>
      cases happened
      exact .refl
  | cons event events ih =>
      rw [List.foldlM_cons] at happened
      obtain ⟨next, first, rest⟩ := Option.bind_eq_some_iff.mp happened
      exact .head (step_of_happen first) (ih rest)

/-- Two hosts that are about to connect to each other, or to listen, and routers of any kind that
have not seen anything yet.  Adapters may have primed their devices with a blank frame. -/
structure Initial (cfg : Side → TCPConfig) (random : Side → Wrap32) (address : Side → Address)
    (internet : Internet Node) : Prop where
  peer : ∀ side, (internet.host side).peer = TCPPeer.new (cfg side) (random side)
  outgoing : ∀ side, (internet.host side).outgoingSegments = []
  adapter : ∀ side, ∃ config listening ethernetAddress ipAddress nextHop,
    (internet.host side).adapter =
        TCPOverIPv4OverEthernetAdapter.new config listening ethernetAddress ipAddress nextHop ∧
      (if listening then config.source.port = (address side).port
        else config = connection address side)
  router : ∀ node, ∀ interface ∈ (internet.router node).interfaces,
    ∃ ethernetAddress ipAddress, interface = .new (.new ethernetAddress ipAddress)
  wire : ∀ packet ∈ internet.wire, packet = EthernetFrame.blank.packet
  written : ∀ side, internet.written side = []
  taken : ∀ side, internet.taken side = []

def system (cfg : Side → TCPConfig) (random : Side → Wrap32) (address : Side → Address) :
    TransitionSystem (Internet Node) where
  Initial := Initial cfg random address
  Step := Step

/-- The bytes that a side has received, whether they are read or not. -/
def received (internet : Internet Node) (side : Side) : List UInt8 :=
  internet.taken side ++ (internet.host side).peer.inboundStream.buffer

/-- Half of the 32-bit numbers are enough for what is written. -/
def Short (internet : Internet Node) : Prop :=
  ∀ side, (internet.written side).length + 2 < 2 ^ 31

end Internet

end Minnow.Stack
