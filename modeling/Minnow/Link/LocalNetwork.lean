import Minnow.Foundation.Simulation
import Minnow.Link.ArpReplies
import Minnow.Link.Provenance
import Minnow.Wire.LinkCodec

/-!
# The hosts of one link

Every host has an interface, and every packet that an interface ever put on the link is kept: any
other host may receive it, at any time and any number of times.  A host answers for all hosts that
it has on record, so that what one host says of another must be right too.
-/

namespace Minnow.Link

open Foundation Wire NetworkInterface

/-- The hosts of a link: no two have an address in common. -/
structure Hosts (Node : Type) where
  ethernetAddress : Node → EthernetAddress
  ipAddress : Node → UInt32
  ethernetAddress_injective : Function.Injective ethernetAddress
  ipAddress_injective : Function.Injective ipAddress
  ne_broadcast : ∀ node, ethernetAddress node ≠ ETHERNET_BROADCAST

variable {Node : Type}

/-- A message of one who speaks for this host, and who does not ask for it. -/
structure Tells (hosts : Hosts Node) (teller : Node) (message : ARPMessage) : Prop where
  supported : message.supported = true
  ipAddress : message.senderIpAddress = hosts.ipAddress teller
  ethernetAddress : message.senderEthernetAddress = hosts.ethernetAddress teller
  another : message.opcode = ARPMessage.OPCODE_REQUEST →
    message.targetIpAddress ≠ message.senderIpAddress

/-- The frames a host may put on the link: a datagram for the host that was its next hop, or what
is true of a host that will not hear it. -/
inductive Honest (hosts : Hosts Node) (P : UInt32 → DatagramProperty) (sender : Node)
    (frame : EthernetFrame) : Prop where
  | datagram {taker : Node} (type : frame.header.type = EthernetHeader.TYPE_IPv4)
      (dst : frame.header.dst = hosts.ethernetAddress taker)
      (bears : Bears (P (hosts.ipAddress taker)) frame) : Honest hosts P sender frame
  | message {teller : Node} {message : ARPMessage}
      (type : frame.header.type = EthernetHeader.TYPE_ARP)
      (flat : frame.payload.flatten = message.encoding) (tells : Tells hosts teller message)
      (unheard : teller = sender ∨ frame.header.dst ≠ hosts.ethernetAddress teller ∧
        frame.header.dst ≠ ETHERNET_BROADCAST) : Honest hosts P sender frame

namespace Honest

variable {hosts : Hosts Node} {P Q : UInt32 → DatagramProperty} {sender : Node}
  {frame heard : EthernetFrame}

theorem mono (honest : Honest hosts P sender frame)
    (weaker : ∀ hop header bytes, P hop header bytes → Q hop header bytes) :
    Honest hosts Q sender frame := by
  cases honest with
  | datagram type dst bears => exact .datagram type dst (bears.mono (weaker _))
  | message type flat tells unheard => exact .message type flat tells unheard

/-- The link does not change what is said. -/
theorem received (honest : Honest hosts P sender frame) (legible : ∀ hop, Legible (P hop))
    (read : maybeReceiveFrame frame.packet = .ok (some heard)) :
    Honest hosts P sender heard ∧ Firm heard.payload := by
  obtain ⟨payload, again, flat, firm⟩ := maybeReceiveFrame_packet frame
  cases again.symm.trans read
  refine ⟨?_, firm⟩
  cases honest with
  | datagram type dst bears =>
      have packet : BearsPacket (P _) frame.packet := ⟨frame, rfl, bears⟩
      exact .datagram type dst (packet.received (legible _) read).1
  | @message _ message type same tells unheard =>
      refine .message type ?_ tells unheard
      rw [flat, same]
      apply List.take_of_length_le
      rw [ARPMessage.encoding_length]
      decide

end Honest

/-- Bytes are those of one message. -/
theorem eq_of_parsed {message found : ARPMessage} {payload : List Buffer}
    (supported : message.supported = true) (flat : payload.flatten = message.encoding)
    (parsed : parse (ARPMessage.parse {}) payload = .ok (some found)) : found = message := by
  obtain ⟨buffers, written, -, first⟩ := ARPMessage.written_back parsed
  rw [flat, ← message.encoding_length, List.take_length] at first
  obtain ⟨next, ran, fine⟩ := parse_eq_some.mp parsed
  obtain ⟨-, taken, -, known, -⟩ := ARPMessage.recovers_parse {} _ _ _ ran fine
  cases (ARPMessage.serialize_eq known).symm.trans written
  rw [List.flatten_singleton] at first
  have back := ARPMessage.parse_encoding known
  rw [first, ARPMessage.parse_encoding supported] at back
  cases back
  rfl

/-- Only a datagram that came in a frame to the interface, or to all, is passed up. -/
theorem takes_of_passed {interface next : NetworkInterface} {frame : EthernetFrame}
    {dgram : InternetDatagram} (received : interface.recvFrame frame = .ok (next, some dgram)) :
    interface.takes frame = true ∧ frame.header.type = EthernetHeader.TYPE_IPv4 := by
  rw [recvFrame] at received
  split at received
  · cases received
  rename_i here
  split at received
  · rename_i type
    rw [← Bool.not_or, Bool.not_eq_true, Bool.not_eq_false'] at here
    exact ⟨here, beq_iff_eq.mp type⟩
  split at received
  · obtain ⟨handled, -, ⟨⟩⟩ := Fault.bind_eq_ok.mp received
  · cases received

/-! ## One interface -/

/-- Throughout, an interface knows itself, and is right about all others. -/
structure Trusted (hosts : Hosts Node) (P : UInt32 → DatagramProperty) (node : Node)
    (interface : NetworkInterface) : Prop where
  ethernetAddress : interface.ethernetAddress = hosts.ethernetAddress node
  ipAddress : interface.ipAddress = hosts.ipAddress node
  own : interface.addressMap.at? (hosts.ipAddress node) =
    some ⟨hosts.ethernetAddress node, UInt64.ofNat (2 ^ 64 - 1)⟩
  recorded : ∀ hop entry, interface.addressMap.at? hop = some entry →
    ∃ other, hop = hosts.ipAddress other ∧ entry.ethernetAddress = hosts.ethernetAddress other
  waiting : ∀ hop, ∀ dgram ∈ interface.cachedFor hop, Sound (P hop) dgram
  queued : ∀ frame ∈ interface.sendQueue, Honest hosts P node frame

namespace Trusted

variable {hosts : Hosts Node} {P Q : UInt32 → DatagramProperty} {node : Node}
  {interface next : NetworkInterface}

theorem new (hosts : Hosts Node) (P : UInt32 → DatagramProperty) (node : Node) :
    Trusted hosts P node (.new (hosts.ethernetAddress node) (hosts.ipAddress node)) where
  ethernetAddress := rfl
  ipAddress := rfl
  own := Table.at?_assign_self _ _ _
  recorded := by
    intro hop entry known
    change Table.at? (Table.assign _ _ _) hop = some entry at known
    by_cases same : hop = hosts.ipAddress node
    · rw [same, Table.at?_assign_self] at known
      cases known
      exact ⟨node, same, rfl⟩
    · rw [Table.at?_assign_of_ne _ _ same, Table.at?_empty] at known
      cases known
  waiting := fun _ _ inside => absurd inside List.not_mem_nil
  queued := fun _ inside => absurd inside List.not_mem_nil

theorem mono (trusted : Trusted hosts P node interface)
    (weaker : ∀ hop header bytes, P hop header bytes → Q hop header bytes) :
    Trusted hosts Q node interface :=
  { trusted with
    waiting := fun hop dgram inside => weaker _ _ _ (trusted.waiting hop dgram inside)
    queued := fun frame inside => (trusted.queued frame inside).mono weaker }

theorem queue (trusted : Trusted hosts P node interface) {frames : List EthernetFrame}
    (honest : ∀ frame ∈ frames, Honest hosts P node frame) :
    Trusted hosts P node (interface.queue frames) :=
  { trusted with queued := List.forall_mem_append.mpr ⟨trusted.queued, honest⟩ }

theorem recorded_eq (trusted : Trusted hosts P node interface) {hop : UInt32}
    (known : interface.addressMap.contains hop = true) :
    ∃ other, hop = hosts.ipAddress other ∧
      interface.recorded hop = hosts.ethernetAddress other := by
  obtain ⟨entry, found⟩ := Table.contains_eq_true.mp known
  obtain ⟨other, same, right⟩ := trusted.recorded hop entry found
  refine ⟨other, same, ?_⟩
  rw [NetworkInterface.recorded, found]
  exact right

/-- A datagram for a host goes out in a frame for that host. -/
theorem datagramFrame_honest (legible : ∀ hop, Legible (P hop)) {taker : Node}
    {dgram : InternetDatagram} {payload : List Buffer}
    (sound : Sound (P (hosts.ipAddress taker)) dgram)
    (written : serialize dgram.serialize = .ok payload) :
    Honest hosts P node (interface.datagramFrame (hosts.ethernetAddress taker) payload) :=
  .datagram rfl rfl (bears_of_serialize ((legible _).formed _ _ sound).version sound written _)

/-- A request names the host that sends it. -/
theorem request_honest (trusted : Trusted hosts P node interface) {nextHop : UInt32}
    {payload : List Buffer} (unknown : interface.addressMap.at? nextHop = none)
    (written : serialize (interface.arpMessage ARPMessage.OPCODE_REQUEST interface.ipAddress
      nextHop).serialize = .ok payload) :
    Honest hosts P node (interface.arpFrame ETHERNET_BROADCAST payload) := by
  have supported := interface.arpMessage_supported (Or.inl rfl) interface.ipAddress nextHop
  cases (ARPMessage.serialize_eq supported).symm.trans written
  refine .message rfl List.flatten_singleton ⟨supported, trusted.ipAddress, ?_, ?_⟩ (Or.inl rfl)
  · change interface.recorded interface.ipAddress = _
    rw [trusted.ipAddress, NetworkInterface.recorded, trusted.own]
  · intro _ same
    change nextHop = interface.ipAddress at same
    rw [same, trusted.ipAddress, trusted.own] at unknown
    cases unknown

/-- A message that is heard is learned as it is meant. -/
theorem learn (trusted : Trusted hosts P node interface) {teller : Node} {message : ARPMessage}
    (tells : Tells hosts teller message) (differs : teller ≠ node) :
    Trusted hosts P node (interface.learn message) :=
  { trusted with
    own := by
      have other : hosts.ipAddress node ≠ message.senderIpAddress := by
        rw [tells.ipAddress]
        exact fun same => differs (hosts.ipAddress_injective same).symm
      exact (Table.at?_assign_of_ne _ _ other).trans trusted.own
    recorded := by
      intro hop entry known
      change Table.at? (Table.assign _ _ _) hop = some entry at known
      by_cases same : hop = message.senderIpAddress
      · rw [same, Table.at?_assign_self] at known
        cases known
        exact ⟨teller, same.trans tells.ipAddress, tells.ethernetAddress⟩
      · rw [Table.at?_assign_of_ne _ _ same] at known
        exact trusted.recorded hop entry known }

/-- What is on record is told to the host that asks. -/
theorem replies_honest (trusted : Trusted hosts P node interface) {teller : Node}
    {message : ARPMessage} (tells : Tells hosts teller message) {replies : List EthernetFrame}
    (answered : Replies interface message replies) :
    ∀ frame ∈ replies, Honest hosts P node frame := by
  cases answered with
  | silent ignored => exact fun _ inside => absurd inside List.not_mem_nil
  | @reply payload asked written =>
      rw [List.forall_mem_singleton]
      obtain ⟨request, known⟩ := Bool.and_eq_true_iff.mp asked
      obtain ⟨told, target, right⟩ := trusted.recorded_eq known
      have supported := interface.arpMessage_supported (Or.inr rfl) message.targetIpAddress
        message.senderIpAddress
      cases (ARPMessage.serialize_eq supported).symm.trans written
      have another : told ≠ teller := by
        rintro rfl
        exact tells.another (beq_iff_eq.mp request) (target.trans tells.ipAddress.symm)
      refine .message rfl List.flatten_singleton ⟨supported, target, right, ?_⟩ (Or.inr ?_)
      · intro reply
        exact absurd reply (show ARPMessage.OPCODE_REPLY ≠ ARPMessage.OPCODE_REQUEST by decide)
      · change message.senderEthernetAddress ≠ _ ∧ message.senderEthernetAddress ≠ _
        rw [tells.ethernetAddress]
        exact ⟨fun same => another (hosts.ethernetAddress_injective same).symm,
          hosts.ne_broadcast teller⟩

/-- What waited for the host goes out to it. -/
theorem release (trusted : Trusted hosts P node interface) (legible : ∀ hop, Legible (P hop))
    {teller : Node} {message : ARPMessage} (tells : Tells hosts teller message)
    (differs : teller ≠ node) {payloads : List (List Buffer)} {replies : List EthernetFrame}
    (written : (interface.cachedFor message.senderIpAddress).map
      (fun dgram => serialize dgram.serialize) = payloads.map .ok)
    (answered : Replies (interface.learn message) message replies) :
    Trusted hosts P node (interface.release message
      (payloads.map (interface.datagramFrame message.senderEthernetAddress) ++ replies)) := by
  have learned := trusted.learn tells differs
  have sent : ∀ frame ∈ payloads.map (interface.datagramFrame message.senderEthernetAddress),
      Honest hosts P node frame := by
    intro frame inside
    obtain ⟨payload, here, rfl⟩ := List.mem_map.mp inside
    have paid : (Except.ok payload : Except Fault (List Buffer)) ∈ payloads.map .ok :=
      List.mem_map_of_mem here
    rw [← written] at paid
    obtain ⟨dgram, waited, serialized⟩ := List.mem_map.mp paid
    have known := trusted.waiting _ dgram waited
    rw [tells.ipAddress] at known
    rw [tells.ethernetAddress]
    exact datagramFrame_honest legible known serialized
  have frames := learned.queue
    (List.forall_mem_append.mpr ⟨sent, learned.replies_honest tells answered⟩)
  exact
    { frames with
      waiting := by
        intro hop other inside
        by_cases same : hop = message.senderIpAddress
        · rw [same, cachedFor_release_self] at inside
          exact absurd inside List.not_mem_nil
        · rw [cachedFor_release_of_ne same] at inside
          exact trusted.waiting hop other inside }

theorem send (trusted : Trusted hosts P node interface) (legible : ∀ hop, Legible (P hop))
    {dgram : InternetDatagram} {nextHop : UInt32} (sound : Sound (P nextHop) dgram)
    (sent : interface.sendDatagram dgram nextHop = .ok next) : Trusted hosts P node next := by
  cases sendDatagram_stepped sent with
  | sent known written =>
      obtain ⟨taker, rfl, right⟩ := trusted.recorded _ _ known
      apply trusted.queue
      rw [List.forall_mem_singleton, right]
      exact datagramFrame_honest legible sound written
  | requested unknown due written =>
      have frames := trusted.queue
        (List.forall_mem_singleton.mpr (trusted.request_honest unknown written))
      exact
        { frames with
          waiting := by
            intro hop other inside
            by_cases same : hop = nextHop
            · rw [same, cachedFor_await_self] at inside
              rcases List.mem_append.mp inside with old | new
              · rw [same]
                exact trusted.waiting nextHop other old
              · rw [List.mem_singleton.mp new, same]
                exact sound
            · rw [cachedFor_await_of_ne same] at inside
              exact trusted.waiting hop other inside }
  | dropped unknown pending => exact trusted

/-- The own address is there for good, and no tick adds an address. -/
theorem tick (trusted : Trusted hosts P node interface) {msSinceLastTick : UInt64}
    (slow : interface.timer + msSinceLastTick < UInt64.ofNat (2 ^ 64 - 1)) :
    Trusted hosts P node (interface.tick msSinceLastTick) where
  ethernetAddress := (ethernetAddress_tick msSinceLastTick).trans trusted.ethernetAddress
  ipAddress := (ipAddress_tick msSinceLastTick).trans trusted.ipAddress
  own := by
    rw [addressMap_tick, Table.at?_keep, trusted.own]
    exact Option.filter_some_pos (decide_eq_true slow)
  recorded := by
    intro hop entry known
    rw [addressMap_tick, Table.at?_keep] at known
    exact trusted.recorded hop entry (Option.filter_eq_some_iff.mp known).1
  waiting := by
    intro hop dgram inside
    rw [cachedFor, datagramCache_tick] at inside
    exact trusted.waiting hop dgram inside
  queued := by
    intro frame inside
    rw [sendQueue_tick] at inside
    exact trusted.queued frame inside

theorem transmit (trusted : Trusted hosts P node interface) {frame : EthernetFrame}
    (taken : interface.maybeSend = (next, some frame)) :
    Trusted hosts P node next ∧ Honest hosts P node frame := by
  rw [maybeSend] at taken
  cases queued : interface.sendQueue with
  | nil =>
      rw [queued] at taken
      cases taken
  | cons first rest =>
      rw [queued] at taken
      cases taken
      have all := trusted.queued
      rw [queued, List.forall_mem_cons] at all
      exact ⟨{ trusted with queued := all.2 }, all.1⟩

/-- What a host hears from another it may believe, and what it passes up was meant for it. -/
theorem receive (trusted : Trusted hosts P node interface) (legible : ∀ hop, Legible (P hop))
    (readable : ∀ hop, Legible (Q hop)) {sender : Node} {frame : EthernetFrame}
    (differs : node ≠ sender) (honest : Honest hosts Q sender frame) (firm : Firm frame.payload)
    {passed : Option InternetDatagram} (received : interface.recvFrame frame = .ok (next, passed)) :
    Trusted hosts P node next ∧
      ∀ dgram, passed = some dgram → Sound (Q (hosts.ipAddress node)) dgram := by
  constructor
  · cases recvFrame_received received with
    | silent unheard => exact trusted
    | learned heard learned =>
        obtain ⟨taken, type, parsed⟩ := heard_eq_some.mp heard
        cases honest with
        | datagram isIPv4 => exact absurd (isIPv4.symm.trans type) (by decide)
        | @message teller _ _ flat tells unheard =>
            cases eq_of_parsed tells.supported flat parsed
            obtain ⟨written, answered⟩ := learned
            refine trusted.release legible tells ?_ written answered
            rintro rfl
            rcases unheard with same | ⟨elsewhere, narrow⟩
            · exact differs same
            · rcases takes_iff.mp taken with here | broad
              · exact elsewhere (here.trans trusted.ethernetAddress)
              · exact narrow broad
  · rintro dgram rfl
    obtain ⟨taken, type⟩ := takes_of_passed received
    cases honest with
    | datagram _ dst bears =>
        rcases takes_iff.mp taken with here | broad
        · have same : _ = node := hosts.ethernetAddress_injective
            (dst.symm.trans (here.trans trusted.ethernetAddress))
          rw [same] at bears
          exact (passed_sound (readable _) bears firm received).1
        · exact absurd (dst.symm.trans broad) (hosts.ne_broadcast _)
    | message isArp => exact absurd (isArp.symm.trans type) (by decide)

end Trusted

/-! ## The link -/

/-- The interfaces, every packet with the host that put it on the link, what each host was given
and for which next hop, what it passed up, and for how long it has run. -/
structure LocalNetwork (Node : Type) where
  interface : Node → NetworkInterface
  wire : List (Node × Packet)
  given : List (Node × UInt32 × InternetDatagram)
  passedUp : Node → List InternetDatagram
  elapsed : Node → Nat

namespace LocalNetwork

/-- A datagram that is read as it was written: without options, and short enough. -/
structure Fit (dgram : InternetDatagram) : Prop where
  formed : dgram.header.WellFormed
  plain : dgram.header.hlen = 5
  short : dgram.payload.flatten.length ≤ FileDescriptor.kReadBufferSize

/-- What the host was given for the next hop. -/
def Given (lan : LocalNetwork Node) (node : Node) (hop : UInt32) : DatagramProperty :=
  fun header bytes => ∃ dgram, (node, hop, dgram) ∈ lan.given ∧ Fit dgram ∧
    header = dgram.header ∧ bytes = dgram.payload.flatten

theorem legible_given (lan : LocalNetwork Node) (node : Node) (hop : UInt32) :
    Legible (lan.Given node hop) where
  formed := by
    rintro _ _ ⟨dgram, -, fit, rfl, rfl⟩
    exact fit.formed
  plain := by
    rintro _ _ ⟨dgram, -, fit, rfl, rfl⟩
    exact fit.plain
  short := by
    rintro _ _ ⟨dgram, -, fit, rfl, rfl⟩
    exact fit.short

/-- All hosts have just been started. -/
def start (hosts : Hosts Node) : LocalNetwork Node where
  interface := fun node => .new (hosts.ethernetAddress node) (hosts.ipAddress node)
  wire := []
  given := []
  passedUp := fun _ => []
  elapsed := fun _ => 0

/-- No clock has come to the time at which the own address expires, which is the last one. -/
def Slow (lan : LocalNetwork Node) : Prop := ∀ node, lan.elapsed node < 2 ^ 64 - 1

structure Truthful (hosts : Hosts Node) (lan : LocalNetwork Node) : Prop where
  trusted : ∀ node, Trusted hosts (lan.Given node) node (lan.interface node)
  wire : ∀ sender packet, (sender, packet) ∈ lan.wire → ∃ frame : EthernetFrame,
    packet = frame.packet ∧ Honest hosts (lan.Given sender) sender frame
  passed : ∀ node, ∀ dgram ∈ lan.passedUp node, ∃ sender, sender ≠ node ∧
    Sound (lan.Given sender (hosts.ipAddress node)) dgram
  clock : ∀ node, (lan.interface node).timer = UInt64.ofNat (lan.elapsed node)

theorem truthful_start (hosts : Hosts Node) : Truthful hosts (start hosts) where
  trusted := fun node => .new hosts _ node
  wire := fun _ _ inside => absurd inside List.not_mem_nil
  passed := fun _ _ inside => absurd inside List.not_mem_nil
  clock := fun _ => rfl

variable [DecidableEq Node]

def setInterface (lan : LocalNetwork Node) (node : Node) (interface : NetworkInterface) :
    LocalNetwork Node :=
  { lan with interface := Function.update lan.interface node interface }

/-- After a host was given a datagram. -/
def sent (lan : LocalNetwork Node) (node : Node) (interface : NetworkInterface) (nextHop : UInt32)
    (dgram : InternetDatagram) : LocalNetwork Node :=
  { lan.setInterface node interface with given := lan.given ++ [(node, nextHop, dgram)] }

/-- After a host received a frame. -/
def received (lan : LocalNetwork Node) (node : Node) (interface : NetworkInterface)
    (passed : Option InternetDatagram) : LocalNetwork Node :=
  { lan.setInterface node interface with
    passedUp := Function.update lan.passedUp node (lan.passedUp node ++ passed.toList) }

def ticked (lan : LocalNetwork Node) (node : Node) (msSinceLastTick : UInt64) : LocalNetwork Node :=
  { lan.setInterface node ((lan.interface node).tick msSinceLastTick) with
    elapsed := Function.update lan.elapsed node (lan.elapsed node + msSinceLastTick.toNat) }

/-- After a host put a frame on the link. -/
def transmitted (lan : LocalNetwork Node) (node : Node) (interface : NetworkInterface)
    (frame : EthernetFrame) : LocalNetwork Node :=
  { lan.setInterface node interface with wire := lan.wire ++ [(node, frame.packet)] }

inductive Step (lan : LocalNetwork Node) : LocalNetwork Node → Prop where
  | send {node : Node} {dgram : InternetDatagram} {nextHop : UInt32} {interface : NetworkInterface}
      (fit : Fit dgram) (ran : (lan.interface node).sendDatagram dgram nextHop = .ok interface) :
      Step lan (lan.sent node interface nextHop dgram)
  | receive {sender node : Node} {packet : Packet} {frame : EthernetFrame}
      {interface : NetworkInterface} {passed : Option InternetDatagram}
      (inside : (sender, packet) ∈ lan.wire) (differs : node ≠ sender)
      (read : maybeReceiveFrame packet = .ok (some frame))
      (ran : (lan.interface node).recvFrame frame = .ok (interface, passed)) :
      Step lan (lan.received node interface passed)
  | tick (node : Node) (msSinceLastTick : UInt64) : Step lan (lan.ticked node msSinceLastTick)
  | transmit {node : Node} {frame : EthernetFrame} {interface : NetworkInterface}
      (taken : (lan.interface node).maybeSend = (interface, some frame)) :
      Step lan (lan.transmitted node interface frame)

def system (hosts : Hosts Node) : TransitionSystem (LocalNetwork Node) where
  Initial := fun lan => lan = start hosts
  Step := Step

variable {hosts : Hosts Node} {lan next : LocalNetwork Node} {node : Node}
  {interface : NetworkInterface}

@[simp] theorem setInterface_self :
    (lan.setInterface node interface).interface node = interface :=
  Function.update_self _ _ _

theorem setInterface_of_ne {other : Node} (differs : other ≠ node) :
    (lan.setInterface node interface).interface other = lan.interface other :=
  Function.update_of_ne differs _ _

/-- Only a tick moves the clock. -/
theorem timer_of_act {before after : NetworkInterface} {op : Op} (still : op.duration = 0)
    (ran : before.act op = .ok after) : after.timer = before.timer := by
  have timer := (acted_of_act ran).timer
  rw [still] at timer
  exact timer.trans (UInt64.add_zero _)

/-- What holds of each interface still does when one is replaced. -/
theorem forall_setInterface (Property : Node → NetworkInterface → Prop)
    (all : ∀ other, Property other (lan.interface other)) (here : Property node interface)
    (other : Node) : Property other ((lan.setInterface node interface).interface other) := by
  by_cases same : other = node
  · rw [same, setInterface_self]
    exact here
  · rw [setInterface_of_ne same]
    exact all other

namespace Truthful

theorem send (truthful : Truthful hosts lan) {dgram : InternetDatagram} {nextHop : UInt32}
    (fit : Fit dgram) (ran : (lan.interface node).sendDatagram dgram nextHop = .ok interface) :
    Truthful hosts (lan.sent node interface nextHop dgram) := by
  have more : ∀ other hop header bytes, lan.Given other hop header bytes →
      (lan.sent node interface nextHop dgram).Given other hop header bytes := by
    rintro other hop header bytes ⟨earlier, inside, found⟩
    exact ⟨earlier, List.mem_append_left _ inside, found⟩
  have sound : Sound ((lan.sent node interface nextHop dgram).Given node nextHop) dgram :=
    ⟨dgram, List.mem_append_right _ (List.mem_singleton_self _), fit, rfl, rfl⟩
  have trusted := fun other => (truthful.trusted other).mono (more other)
  refine ⟨?_, ?_, ?_, ?_⟩
  · exact forall_setInterface _ trusted ((trusted node).send (legible_given _ _) sound ran)
  · intro sender packet inside
    obtain ⟨frame, same, honest⟩ := truthful.wire sender packet inside
    exact ⟨frame, same, honest.mono (more sender)⟩
  · intro taker earlier inside
    obtain ⟨sender, differs, known⟩ := truthful.passed taker earlier inside
    exact ⟨sender, differs, more sender _ _ _ known⟩
  · have timer := @timer_of_act _ _ (.send dgram nextHop) rfl ran
    exact forall_setInterface (fun other interface => interface.timer = UInt64.ofNat (lan.elapsed other))
      truthful.clock (timer.trans (truthful.clock node))

theorem receive (truthful : Truthful hosts lan) {sender : Node} {packet : Packet}
    {frame : EthernetFrame} {passed : Option InternetDatagram}
    (inside : (sender, packet) ∈ lan.wire) (differs : node ≠ sender)
    (read : maybeReceiveFrame packet = .ok (some frame))
    (ran : (lan.interface node).recvFrame frame = .ok (interface, passed)) :
    Truthful hosts (lan.received node interface passed) := by
  obtain ⟨written, rfl, honest⟩ := truthful.wire sender packet inside
  obtain ⟨believed, firm⟩ := honest.received (legible_given lan sender) read
  obtain ⟨trusted, sound⟩ := (truthful.trusted node).receive (legible_given lan node)
    (legible_given lan sender) differs believed firm ran
  refine ⟨forall_setInterface _ truthful.trusted trusted, truthful.wire, ?_, ?_⟩
  · intro taker dgram there
    change dgram ∈ Function.update lan.passedUp node _ taker at there
    by_cases same : taker = node
    · subst same
      rw [Function.update_self] at there
      rcases List.mem_append.mp there with old | new
      · exact truthful.passed taker dgram old
      · exact ⟨sender, differs.symm, sound dgram (Option.mem_toList.mp new)⟩
    · rw [Function.update_of_ne same] at there
      exact truthful.passed taker dgram there
  · have acted : (lan.interface node).act (.recv frame) = .ok interface :=
      Fault.map_eq_ok.mpr ⟨_, ran, rfl⟩
    exact forall_setInterface (fun other interface => interface.timer = UInt64.ofNat (lan.elapsed other))
      truthful.clock ((timer_of_act rfl acted).trans (truthful.clock node))

theorem tick (truthful : Truthful hosts lan) (msSinceLastTick : UInt64)
    (slow : (lan.ticked node msSinceLastTick).Slow) :
    Truthful hosts (lan.ticked node msSinceLastTick) := by
  have later := slow node
  change Function.update lan.elapsed node _ node < _ at later
  rw [Function.update_self] at later
  have timer : (lan.interface node).timer + msSinceLastTick =
      UInt64.ofNat (lan.elapsed node + msSinceLastTick.toNat) := by
    rw [truthful.clock node, UInt64.ofNat_add, UInt64.ofNat_toNat]
  refine ⟨forall_setInterface _ truthful.trusted ((truthful.trusted node).tick ?_),
    truthful.wire, truthful.passed, ?_⟩
  · rw [timer]
    exact (UInt64.ofNat_lt_iff_lt (later.trans (by decide)) (by decide)).mpr later
  · intro other
    change (LocalNetwork.interface (lan.setInterface node _) other).timer =
      UInt64.ofNat (Function.update lan.elapsed node _ other)
    by_cases same : other = node
    · rw [same, setInterface_self, timer_tick, timer, Function.update_self]
    · rw [setInterface_of_ne same, Function.update_of_ne same]
      exact truthful.clock other

theorem transmit (truthful : Truthful hosts lan) {frame : EthernetFrame}
    (taken : (lan.interface node).maybeSend = (interface, some frame)) :
    Truthful hosts (lan.transmitted node interface frame) := by
  obtain ⟨trusted, honest⟩ := (truthful.trusted node).transmit taken
  refine ⟨forall_setInterface _ truthful.trusted trusted, ?_, truthful.passed, ?_⟩
  · intro sender packet inside
    rcases List.mem_append.mp inside with old | new
    · exact truthful.wire sender packet old
    · cases List.mem_singleton.mp new
      exact ⟨frame, rfl, honest⟩
  · have acted : (lan.interface node).act .maybeSend = .ok interface := by rw [act, taken]
    exact forall_setInterface (fun other interface => interface.timer = UInt64.ofNat (lan.elapsed other))
      truthful.clock ((timer_of_act rfl acted).trans (truthful.clock node))

end Truthful

theorem slow_of_step (step : Step lan next) (slow : next.Slow) : lan.Slow := by
  cases step with
  | send fit ran => exact slow
  | receive inside differs read ran => exact slow
  | tick node msSinceLastTick =>
      intro other
      have later := slow other
      change Function.update lan.elapsed node _ other < _ at later
      by_cases same : other = node
      · rw [same, Function.update_self] at later
        rw [same]
        exact (Nat.le_add_right _ _).trans_lt later
      · rwa [Function.update_of_ne same] at later
  | transmit taken => exact slow

theorem truthful_keeps (hosts : Hosts Node) : (system hosts).Keeps Slow (Truthful hosts) where
  monotone := fun _ _ => slow_of_step
  initial := by
    rintro _ rfl
    exact truthful_start hosts
  preserved := by
    intro lan next truthful step slow
    cases step with
    | send fit ran => exact truthful.send fit ran
    | receive inside differs read ran => exact truthful.receive inside differs read ran
    | tick node msSinceLastTick => exact truthful.tick msSinceLastTick slow
    | transmit taken => exact truthful.transmit taken

/-- As long as no clock comes to its last value, every host knows itself, all that a host has on
record of others is true, and what it passes up another host was given for it. -/
theorem resolution_sound (hosts : Hosts Node) (lan : LocalNetwork Node)
    (reached : (system hosts).Reachable lan) (slow : lan.Slow) (node : Node) :
    ((lan.interface node).addressMap.contains (hosts.ipAddress node) = true) ∧
      (∀ hop entry, (lan.interface node).addressMap.at? hop = some entry → ∃ other,
        hop = hosts.ipAddress other ∧ entry.ethernetAddress = hosts.ethernetAddress other) ∧
      ∀ dgram ∈ lan.passedUp node, ∃ sender given, sender ≠ node ∧
        (sender, hosts.ipAddress node, given) ∈ lan.given ∧ dgram.header = given.header ∧
          dgram.payload.flatten = given.payload.flatten := by
  have truthful := (truthful_keeps hosts).reachable reached slow
  refine ⟨?_, (truthful.trusted node).recorded, ?_⟩
  · exact Table.contains_eq_true.mpr ⟨_, (truthful.trusted node).own⟩
  · intro dgram inside
    obtain ⟨sender, differs, given, known, -, header, payload⟩ := truthful.passed node dgram inside
    exact ⟨sender, given, differs, known, header, payload⟩

/-! ### What happens -/

/-- A host is given a datagram, receives what has a place on the wire, or transmits. -/
inductive Move (Node : Type) where
  | send (node : Node) (nextHop : UInt32) (dgram : {dgram : InternetDatagram // Fit dgram})
  | receive (node : Node) (place : Nat)
  | transmit (node : Node)

/-- The link after the move, if it can be made and does not fail. -/
def play (lan : LocalNetwork Node) : Move Node → Option (LocalNetwork Node)
  | .send node nextHop dgram => do
      let interface ← ((lan.interface node).sendDatagram dgram nextHop).toOption
      return lan.sent node interface nextHop dgram
  | .receive node place => do
      let (sender, packet) ← lan.wire[place]?
      guard (node ≠ sender)
      let frame ← (maybeReceiveFrame packet).toOption.join
      let (interface, passed) ← ((lan.interface node).recvFrame frame).toOption
      return lan.received node interface passed
  | .transmit node => do
      let frame ← (lan.interface node).maybeSend.2
      return lan.transmitted node (lan.interface node).maybeSend.1 frame

theorem step_of_play {move : Move Node} (played : lan.play move = some next) : lan.Step next := by
  cases move with
  | send node nextHop dgram =>
      obtain ⟨interface, ran, ⟨⟩⟩ := Option.bind_eq_some_iff.mp played
      exact .send dgram.property (Fault.ok_of_toOption ran)
  | receive node place =>
      obtain ⟨⟨sender, packet⟩, there, played⟩ := Option.bind_eq_some_iff.mp played
      obtain ⟨_, guarded, played⟩ := Option.bind_eq_some_iff.mp played
      obtain ⟨frame, read, played⟩ := Option.bind_eq_some_iff.mp played
      obtain ⟨⟨interface, passed⟩, ran, ⟨⟩⟩ := Option.bind_eq_some_iff.mp played
      exact .receive (List.mem_of_getElem? there) ((Option.guard_eq_some' ..).mp guarded)
        (Fault.ok_of_toOption (Option.join_eq_some_iff.mp read)) (Fault.ok_of_toOption ran)
  | transmit node =>
      obtain ⟨frame, first, ⟨⟩⟩ := Option.bind_eq_some_iff.mp played
      exact .transmit (Prod.ext rfl first)

/-- Two hosts. -/
def pair : Hosts Bool where
  ethernetAddress
    | false => List.Vector.replicate 6 2
    | true => List.Vector.replicate 6 4
  ipAddress
    | false => 0x0a000001
    | true => 0x0a000002
  ethernetAddress_injective := by
    rw [Function.Injective]
    decide
  ipAddress_injective := by
    rw [Function.Injective]
    decide
  ne_broadcast := by decide

/-- A datagram of one byte. -/
def letter : {dgram : InternetDatagram // Fit dgram} :=
  let header : IPv4Header := { len := 21, src := 0x0a000001, dst := 0x0a000002 }
  ⟨⟨{ header with cksum := header.checksum }, [[97]]⟩, IPv4Header.wellFormed_plain 21 0x0a000001
    0x0a000002, rfl, by decide⟩

/-- The first host asks for the second one, is answered, and sends what waited. -/
def letterMoves : List (Move Bool) :=
  [.send false 0x0a000002 letter, .transmit false, .receive true 0, .transmit true,
    .receive false 1, .transmit false, .receive true 2]

theorem letter_arrives :
    ∃ lan : LocalNetwork Bool, (system pair).Reachable lan ∧ lan.Slow ∧
      (lan.passedUp true).length = 1 := by
  have passes : (letterMoves.foldlM play (start pair)).map (fun lan =>
      ((lan.passedUp true).length, lan.elapsed false, lan.elapsed true)) = some (1, 0, 0) := by
    decide +kernel
  obtain ⟨lan, played, same⟩ := Option.map_eq_some_iff.mp passes
  obtain ⟨one, same⟩ := Prod.mk.inj same
  obtain ⟨first, second⟩ := Prod.mk.inj same
  have initial := TransitionSystem.Reachable.start (show (system pair).Initial (start pair) from rfl)
  refine ⟨lan, ?_, ?_, one⟩
  · exact initial.steps (TransitionSystem.steps_of_moves (fun _ _ _ => step_of_play) played)
  · rintro (_ | _)
    · rw [first]
      decide
    · rw [second]
      decide

theorem resolution_sound_letter :
    ∃ lan : LocalNetwork Bool, ∃ dgram ∈ lan.passedUp true, ∃ sender given, sender ≠ true ∧
      (sender, pair.ipAddress true, given) ∈ lan.given ∧ dgram.header = given.header ∧
        dgram.payload.flatten = given.payload.flatten := by
  obtain ⟨lan, reached, slow, one⟩ := letter_arrives
  obtain ⟨dgram, only⟩ := List.length_eq_one_iff.mp one
  have inside : dgram ∈ lan.passedUp true := by
    rw [only]
    exact List.mem_singleton_self dgram
  exact ⟨lan, dgram, inside, (resolution_sound pair lan reached slow true).2.2 dgram inside⟩

end LocalNetwork

end Minnow.Link
