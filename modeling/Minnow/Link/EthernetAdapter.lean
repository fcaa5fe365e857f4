import Minnow.Foundation.Runs
import Minnow.Link.Provenance
import Minnow.Link.WaitingDatagrams
import Minnow.Wire.ListeningAdapter

/-!
# The adapter between segments and Ethernet frames

A segment is wrapped in a datagram, which the interface sends to the next hop, and every call
ends with all pending frames written to the device.
-/

namespace Minnow.Link

open Foundation Foundation.Runs Wire

namespace NetworkInterface

/-- The loop of `sendPending` with what is written so far.  Every turn but the last takes a
frame. -/
def sendPendingLoop : Nat → NetworkInterface → List Packet →
    Except Fault (NetworkInterface × List Packet)
  | 0, _, _ => .error .outOfFuel
  | fuel + 1, interface, written =>
      match interface.maybeSend with
      | (_, none) => .ok (interface, written)
      | (rest, some frame) => do
          let buffers ← serialize frame.serialize
          sendPendingLoop fuel rest (written ++ [FileDescriptor.write buffers])

def sendPending (interface : NetworkInterface) : Except Fault (NetworkInterface × List Packet) :=
  sendPendingLoop (interface.sendQueue.length + 1) interface []

/-- The interface once its queue is empty. -/
def emptied (interface : NetworkInterface) : NetworkInterface := { interface with sendQueue := [] }

theorem sendPendingLoop_eq {fuel : Nat} {interface : NetworkInterface}
    (enough : interface.sendQueue.length < fuel) (written : List Packet) :
    sendPendingLoop fuel interface written =
      .ok (interface.emptied, written ++ interface.sendQueue.map EthernetFrame.packet) := by
  induction fuel generalizing interface written with
  | zero => exact absurd enough (Nat.not_lt_zero _)
  | succ fuel ih =>
      rw [sendPendingLoop, maybeSend]
      cases queued : interface.sendQueue with
      | nil =>
          have same : interface.emptied = interface := by rw [emptied, ← queued]
          rw [List.map_nil, List.append_nil, same]
      | cons frame rest =>
          obtain ⟨buffers, serialized, packet⟩ := frame.serialize_packet
          rw [queued, List.length_cons, Nat.add_lt_add_iff_right] at enough
          have later := @ih { interface with sendQueue := rest } enough (written ++ [frame.packet])
          rw [List.append_assoc, List.singleton_append, ← List.map_cons] at later
          refine Fault.bind_eq_ok.mpr ⟨buffers, serialized, ?_⟩
          rw [packet]
          exact later

/-- Everything that is queued is written, in its order. -/
theorem sendPending_eq (interface : NetworkInterface) :
    interface.sendPending =
      .ok (interface.emptied, interface.sendQueue.map EthernetFrame.packet) :=
  sendPendingLoop_eq (Nat.lt_succ_self _) []

theorem Traces.emptied {P : DatagramProperty} {interface : NetworkInterface}
    (traces : interface.Traces P) :
    interface.emptied.Traces P ∧
      ∀ packet ∈ interface.sendQueue.map EthernetFrame.packet, BearsPacket P packet := by
  refine ⟨⟨traces.waiting, fun _ inside => absurd inside List.not_mem_nil⟩, fun packet inside => ?_⟩
  obtain ⟨frame, queued, rfl⟩ := List.mem_map.mp inside
  exact ⟨frame, rfl, traces.queued frame queued⟩

/-! ## Frames from anybody -/

/-- Every datagram that waits can be written. -/
def Writable (interface : NetworkInterface) : Prop :=
  ∀ hop, ∀ dgram ∈ interface.cachedFor hop, dgram.header.ver = 4

variable {interface next : NetworkInterface}

theorem handleArp_of_writable (writable : interface.Writable) {frame : EthernetFrame}
    (firm : Firm frame.payload) : ∃ next, interface.handleArp frame = .ok next := by
  refine Fault.bind_returns (ARPMessage.parse_returns {} firm) fun parsing => ?_
  cases parsing with
  | none => exact ⟨interface, rfl⟩
  | some message =>
      have learned : (interface.learn message).Writable := writable
      refine Fault.bind_returns (flushCache_returns _ (learned _)) fun flushed => ?_
      split
      · exact pushArp_returns (Or.inr rfl) _ _ _
      · exact ⟨flushed, rfl⟩

/-- No frame makes the interface fail, whatever its payload says. -/
theorem recvFrame_of_writable (writable : interface.Writable) {frame : EthernetFrame}
    (firm : Firm frame.payload) :
    ∃ outcome, interface.recvFrame frame = .ok outcome ∧
      ∀ dgram, outcome.2 = some dgram → Firm dgram.payload := by
  rw [recvFrame]
  split
  · exact ⟨_, rfl, fun dgram passed => absurd passed (Option.some_ne_none dgram).symm⟩
  split
  · obtain ⟨parsing, parsed, leaves⟩ := IPv4Datagram.parse_returns {} firm
    exact ⟨_, Fault.bind_eq_ok.mpr ⟨parsing, parsed, rfl⟩, leaves⟩
  split
  · obtain ⟨handled, handling⟩ := handleArp_of_writable writable firm
    exact ⟨_, Fault.bind_eq_ok.mpr ⟨handled, handling, rfl⟩,
      fun dgram passed => absurd passed (Option.some_ne_none dgram).symm⟩
  · exact ⟨_, rfl, fun dgram passed => absurd passed (Option.some_ne_none dgram).symm⟩

theorem Writable.stepped (writable : interface.Writable) {op : Op} (stepped : Stepped interface op next)
    (version : ∀ dgram hop, op = .send dgram hop → dgram.header.ver = 4) : next.Writable := by
  intro hop other inside
  cases stepped with
  | sent known written => exact writable hop other inside
  | @requested dgram nextHop payload unknown due written =>
      by_cases same : hop = nextHop
      · rw [same, cachedFor_await_self] at inside
        rcases List.mem_append.mp inside with old | new
        · exact writable nextHop other old
        · rw [List.mem_singleton.mp new]
          exact version dgram nextHop rfl
      · rw [cachedFor_await_of_ne same] at inside
        exact writable hop other inside
  | dropped unknown pending => exact writable hop other inside
  | passedUp => exact writable hop other inside
  | @learned frame message payloads replies parsed written answered =>
      by_cases same : hop = message.senderIpAddress
      · rw [same, cachedFor_release_self] at inside
        exact absurd inside List.not_mem_nil
      · rw [cachedFor_release_of_ne same] at inside
        exact writable hop other inside
  | ticked =>
      rw [cachedFor, datagramCache_tick] at inside
      exact writable hop other inside
  | taken =>
      rw [maybeSend] at inside
      cases queued : interface.sendQueue with
      | nil =>
          rw [queued] at inside
          exact writable hop other inside
      | cons frame rest =>
          rw [queued] at inside
          exact writable hop other inside

end NetworkInterface

/-! ## The adapter -/

structure TCPOverIPv4OverEthernetAdapter extends TCPOverIPv4Adapter where
  interface : NetworkInterface
  nextHop : UInt32

namespace TCPOverIPv4OverEthernetAdapter

def write (adapter : TCPOverIPv4OverEthernetAdapter) (seg : TCPSegment) :
    Except Fault (TCPOverIPv4OverEthernetAdapter × List Packet) := do
  let (_, ipDgram) ← adapter.wrapTcpInIp seg
  let sent ← adapter.interface.sendDatagram ipDgram adapter.nextHop
  let (interface, packets) ← sent.sendPending
  return ({ adapter with interface }, packets)

/-- What the device has for a read is parsed as a frame; what the interface passes up is taken
for a segment. -/
def read (adapter : TCPOverIPv4OverEthernetAdapter) (packet : Packet) :
    Except Fault (TCPOverIPv4OverEthernetAdapter × Option TCPSegment × List Packet) := do
  match ← maybeReceiveFrame packet with
  | none => return (adapter, none, [])
  | some frame =>
      let (received, passed) ← adapter.interface.recvFrame frame
      let (interface, packets) ← received.sendPending
      match passed with
      | none => return ({ adapter with interface }, none, packets)
      | some ipDgram =>
          let (unwrapped, seg) ← adapter.unwrapTcpInIp ipDgram
          return ({ toTCPOverIPv4Adapter := unwrapped, interface, nextHop := adapter.nextHop }, seg,
            packets)

def tick (adapter : TCPOverIPv4OverEthernetAdapter) (msSinceLastTick : UInt64) :
    Except Fault (TCPOverIPv4OverEthernetAdapter × List Packet) := do
  let (interface, packets) ← (adapter.interface.tick msSinceLastTick).sendPending
  return ({ adapter with interface }, packets)

variable {adapter next : TCPOverIPv4OverEthernetAdapter} {packets : List Packet}

theorem write_ok {seg : TCPSegment} (ran : adapter.write seg = .ok (next, packets)) :
    ∃ sealed ipDgram sent, adapter.wrapTcpInIp seg = .ok (sealed, ipDgram) ∧
      NetworkInterface.Stepped adapter.interface (.send ipDgram adapter.nextHop) sent ∧
      next = { adapter with interface := sent.emptied } ∧
      packets = sent.sendQueue.map EthernetFrame.packet := by
  obtain ⟨⟨sealed, ipDgram⟩, wrapped, ran⟩ := Fault.bind_eq_ok.mp ran
  obtain ⟨sent, sending, ran⟩ := Fault.bind_eq_ok.mp ran
  rw [NetworkInterface.sendPending_eq] at ran
  cases ran
  exact ⟨sealed, ipDgram, sent, wrapped, NetworkInterface.sendDatagram_stepped sending, rfl, rfl⟩

/-- An adapter for a device on which nothing has been sent. -/
def new (config : FdAdapterConfig) (listening : Bool) (ethernetAddress : EthernetAddress)
    (ipAddress nextHop : UInt32) : TCPOverIPv4OverEthernetAdapter :=
  ⟨⟨config, listening⟩, .new ethernetAddress ipAddress, nextHop⟩

/-- The calls of the adapter, and the packets that come in. -/
inductive Op where
  | write (seg : TCPSegment)
  | read (packet : Packet)
  | tick (msSinceLastTick : UInt64)

def step (adapter : TCPOverIPv4OverEthernetAdapter) : Op →
    Except Fault TCPOverIPv4OverEthernetAdapter
  | .write seg => Prod.fst <$> adapter.write seg
  | .read packet => Prod.fst <$> adapter.read packet
  | .tick msSinceLastTick => Prod.fst <$> adapter.tick msSinceLastTick

/-- What a read can come to. -/
inductive ReadOutcome (adapter : TCPOverIPv4OverEthernetAdapter) (packet : Packet) :
    TCPOverIPv4OverEthernetAdapter × Option TCPSegment × List Packet → Prop where
  | rejected (unread : maybeReceiveFrame packet = .ok none) :
      ReadOutcome adapter packet (adapter, none, [])
  | kept {frame : EthernetFrame} {received : NetworkInterface}
      (read : maybeReceiveFrame packet = .ok (some frame))
      (handled : adapter.interface.recvFrame frame = .ok (received, none)) :
      ReadOutcome adapter packet ({ adapter with interface := received.emptied }, none,
        received.sendQueue.map EthernetFrame.packet)
  | passedUp {frame : EthernetFrame} {received : NetworkInterface} {ipDgram : InternetDatagram}
      {unwrapped : TCPOverIPv4Adapter} {seg : Option TCPSegment}
      (read : maybeReceiveFrame packet = .ok (some frame))
      (handled : adapter.interface.recvFrame frame = .ok (received, some ipDgram))
      (unwraps : adapter.unwrapTcpInIp ipDgram = .ok (unwrapped, seg)) :
      ReadOutcome adapter packet (⟨unwrapped, received.emptied, adapter.nextHop⟩, seg,
        received.sendQueue.map EthernetFrame.packet)

theorem read_ok {packet : Packet}
    {outcome : TCPOverIPv4OverEthernetAdapter × Option TCPSegment × List Packet}
    (ran : adapter.read packet = .ok outcome) : ReadOutcome adapter packet outcome := by
  obtain ⟨found, read, ran⟩ := Fault.bind_eq_ok.mp ran
  cases found with
  | none =>
      cases ran
      exact .rejected read
  | some frame =>
      obtain ⟨⟨received, passed⟩, handled, ran⟩ := Fault.bind_eq_ok.mp ran
      obtain ⟨pair, pending, ran⟩ := Fault.bind_eq_ok.mp ran
      cases received.sendPending_eq.symm.trans pending
      cases passed with
      | none =>
          cases ran
          exact .kept read handled
      | some ipDgram =>
          obtain ⟨⟨unwrapped, seg⟩, unwraps, ran⟩ := Fault.bind_eq_ok.mp ran
          cases ran
          exact .passedUp read handled unwraps

theorem tick_eq (adapter : TCPOverIPv4OverEthernetAdapter) (msSinceLastTick : UInt64) :
    adapter.tick msSinceLastTick =
      .ok ({ adapter with interface := (adapter.interface.tick msSinceLastTick).emptied },
        (adapter.interface.tick msSinceLastTick).sendQueue.map EthernetFrame.packet) := by
  rw [tick, NetworkInterface.sendPending_eq]
  rfl

/-! ## Calls that return -/

open NetworkInterface

theorem write_returns (adapter : TCPOverIPv4OverEthernetAdapter) (seg : TCPSegment) :
    ∃ outcome, adapter.write seg = .ok outcome := by
  obtain ⟨sealed, ipDgram, -, wrapped, formed, -⟩ := adapter.wrapTcpInIp_eq seg
  obtain ⟨sent, sending⟩ :=
    @sendDatagram_returns adapter.interface ipDgram formed.version adapter.nextHop
  exact ⟨_, Fault.bind_eq_ok.mpr ⟨_, wrapped,
    Fault.bind_eq_ok.mpr ⟨sent, sending, Fault.bind_eq_ok.mpr ⟨_, sent.sendPending_eq, rfl⟩⟩⟩⟩

theorem read_returns (writable : adapter.interface.Writable) (packet : Packet) :
    ∃ outcome, adapter.read packet = .ok outcome := by
  obtain ⟨found, read, -, reads⟩ := maybeReceiveFrame_returns packet
  cases found with
  | none => exact ⟨_, Fault.bind_eq_ok.mpr ⟨none, read, rfl⟩⟩
  | some frame =>
      obtain ⟨⟨received, passed⟩, handled, firm⟩ := recvFrame_of_writable writable (reads frame rfl).1
      have pending := received.sendPending_eq
      cases passed with
      | none =>
          exact ⟨_, Fault.bind_eq_ok.mpr ⟨some frame, read, Fault.bind_eq_ok.mpr ⟨_, handled,
            Fault.bind_eq_ok.mpr ⟨_, pending, rfl⟩⟩⟩⟩
      | some ipDgram =>
          obtain ⟨outcome, unwraps⟩ := TCPOverIPv4Adapter.unwrap_returns
            adapter.toTCPOverIPv4Adapter ((firm ipDgram rfl).readable 20)
          exact ⟨_, Fault.bind_eq_ok.mpr ⟨some frame, read, Fault.bind_eq_ok.mpr ⟨_, handled,
            Fault.bind_eq_ok.mpr ⟨_, pending, Fault.bind_eq_ok.mpr ⟨outcome, unwraps, rfl⟩⟩⟩⟩⟩

/-- A read brings only frames to the interface. -/
theorem ReadOutcome.interface {packet : Packet}
    {outcome : TCPOverIPv4OverEthernetAdapter × Option TCPSegment × List Packet}
    (read : ReadOutcome adapter packet outcome) :
    outcome.1 = adapter ∨ ∃ frame received, Stepped adapter.interface (.recv frame) received ∧
      outcome.1.interface = received.emptied := by
  cases read with
  | rejected unread => exact Or.inl rfl
  | kept read handled => exact Or.inr ⟨_, _, recvFrame_stepped handled, rfl⟩
  | passedUp read handled unwraps => exact Or.inr ⟨_, _, recvFrame_stepped handled, rfl⟩

theorem step_returns (writable : adapter.interface.Writable) (op : Op) :
    ∃ next, adapter.step op = .ok next ∧ next.interface.Writable := by
  cases op with
  | write seg =>
      obtain ⟨⟨next, packets⟩, written⟩ := adapter.write_returns seg
      refine ⟨next, Fault.map_eq_ok.mpr ⟨_, written, rfl⟩, ?_⟩
      obtain ⟨sealed, ipDgram, sent, wrapped, stepped, rfl, -⟩ := write_ok written
      have still : sent.Writable := by
        refine writable.stepped stepped fun dgram hop same => ?_
        cases same
        obtain ⟨_, _, -, rewrapped, formed, -⟩ := adapter.wrapTcpInIp_eq seg
        cases rewrapped.symm.trans wrapped
        exact formed.version
      exact still
  | read packet =>
      obtain ⟨outcome, ran⟩ := adapter.read_returns writable packet
      refine ⟨outcome.1, Fault.map_eq_ok.mpr ⟨outcome, ran, rfl⟩, ?_⟩
      rcases (read_ok ran).interface with same | ⟨frame, received, stepped, same⟩
      · rw [same]
        exact writable
      · have still : received.Writable := writable.stepped stepped fun _ _ other => nomatch other
        rw [same]
        exact still
  | tick msSinceLastTick =>
      refine ⟨_, Fault.map_eq_ok.mpr ⟨_, adapter.tick_eq msSinceLastTick, rfl⟩, ?_⟩
      have ticked : Stepped adapter.interface (.tick msSinceLastTick) _ := .ticked
      have still : (adapter.interface.tick msSinceLastTick).Writable :=
        writable.stepped ticked fun _ _ other => nomatch other
      exact still

/-- Whatever packets arrive at an adapter, and whatever it is given to write, no call of it
fails. -/
theorem calls_return (config : FdAdapterConfig) (listening : Bool)
    (ethernetAddress : EthernetAddress) (ipAddress nextHop : UInt32) (ops : List Op) :
    ∃ final, attempt step (new config listening ethernetAddress ipAddress nextHop) ops =
      .ok final := by
  have run : ∃ final, attempt step (new config listening ethernetAddress ipAddress nextHop) ops =
      .ok final ∧ final.interface.Writable := by
    induction ops using List.reverseRecOn with
    | nil => exact ⟨_, rfl, fun _ _ inside => absurd inside List.not_mem_nil⟩
    | append_singleton ops op ih =>
        obtain ⟨middle, before, writable⟩ := ih
        obtain ⟨final, last, still⟩ := step_returns writable op
        exact ⟨final, attempt_snoc_of_ok before last, still⟩
  obtain ⟨final, ran, -⟩ := run
  exact ⟨final, ran⟩

end TCPOverIPv4OverEthernetAdapter

end Minnow.Link
