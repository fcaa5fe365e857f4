import Minnow.Link.NetworkInterface
import Minnow.Routing.RouteTable

/-!
# The router

Each interface keeps the datagrams it has received until the router comes round.  The
router notes the calls of `send_datagram` that it makes.
-/

namespace Minnow.Link

open Wire

structure AsyncNetworkInterface extends NetworkInterface where
  datagramsIn : List InternetDatagram

namespace AsyncNetworkInterface

def new (interface : NetworkInterface) : AsyncNetworkInterface := ⟨interface, []⟩

def recvFrame (interface : AsyncNetworkInterface) (frame : EthernetFrame) :
    Except Fault AsyncNetworkInterface := do
  let (received, optionalDgram) ← interface.toNetworkInterface.recvFrame frame
  match optionalDgram with
  | some dgram => return ⟨received, interface.datagramsIn ++ [dgram]⟩
  | none => return ⟨received, interface.datagramsIn⟩

def maybeReceive (interface : AsyncNetworkInterface) :
    AsyncNetworkInterface × Option InternetDatagram :=
  match interface.datagramsIn with
  | [] => (interface, none)
  | datagram :: rest => ({ interface with datagramsIn := rest }, some datagram)

end AsyncNetworkInterface

end Minnow.Link

namespace Minnow.Routing

open Foundation Link Wire

structure Router where
  interfaces : List AsyncNetworkInterface
  routeTable : RouteTable

/-- A call of `send_datagram` on an interface of the router. -/
structure Dispatch where
  interfaceNum : UInt64
  dgram : InternetDatagram
  nextHop : UInt32

namespace Router

def addInterface (router : Router) (interface : AsyncNetworkInterface) : Router × Nat :=
  ({ router with interfaces := router.interfaces ++ [interface] }, router.interfaces.length)

def addRoute (router : Router) (call : AddRoute) : Router :=
  { router with routeTable := router.routeTable.addRoute call }

/-- The entries of the route table are walked in the given order.  A route to an interface
that does not exist reads past the end of the vector. -/
def routeDatagram (order : List (UInt64 × UInt64)) (router : Router) (dgram : InternetDatagram) :
    Except Fault (Router × List Dispatch) := do
  if dgram.header.ttl == 1 || dgram.header.ttl == 0 then return (router, [])
  let header := { dgram.header with ttl := dgram.header.ttl - 1 }
  let (matched, interfaceNum, found) := router.routeTable.lookUp order header.dst 0
  if !matched then return (router, [])
  let nextHop := found.getD header.dst
  match router.interfaces[interfaceNum.toNat]? with
  | none => throw .endDereferenced
  | some interface =>
      let header ← header.computeChecksum
      let dgram := { dgram with header }
      let sent ← interface.toNetworkInterface.sendDatagram dgram nextHop
      let interfaces := router.interfaces.set interfaceNum.toNat
        { interface with toNetworkInterface := sent }
      return ({ router with interfaces }, [⟨interfaceNum, dgram, nextHop⟩])

/-- The loop over the datagrams that one interface has received, with the calls made so far.
Every turn but the last takes a datagram, and none comes in meanwhile. -/
def drainLoop (order : List (UInt64 × UInt64)) (num : Nat) :
    Nat → Router → List Dispatch → Except Fault (Router × List Dispatch)
  | 0, _, _ => .error .outOfFuel
  | fuel + 1, router, calls =>
      match router.interfaces[num]? with
      | none => .error .endDereferenced
      | some interface =>
          match interface.maybeReceive with
          | (_, none) => .ok (router, calls)
          | (taken, some dgram) => do
              let (routed, made) ← routeDatagram order
                { router with interfaces := router.interfaces.set num taken } dgram
              drainLoop order num fuel routed (calls ++ made)

/-- The datagrams that an interface has received. -/
def received (router : Router) (num : Nat) : List InternetDatagram :=
  (router.interfaces[num]?.map AsyncNetworkInterface.datagramsIn).getD []

def route (order : List (UInt64 × UInt64)) (router : Router) :
    Except Fault (Router × List Dispatch) :=
  (List.range router.interfaces.length).foldlM
    (fun state num => drainLoop order num ((state.1.received num).length + 1) state.1 state.2)
    (router, [])

end Router

end Minnow.Routing
