import Minnow.Link.InterfaceSteps
import Minnow.Wire.FrameReading

/-!
# Where the datagrams of an interface come from

A property of headers and payloads holds of every datagram that waits and of every datagram that
is sent in a frame, if it holds of all that the interface was given.  What an interface passes up
has it, if the packets that arrive have it.
-/

namespace Minnow.Link

open Foundation Wire

/-- A property of datagrams that does not depend on the buffers of the payload. -/
abbrev DatagramProperty := IPv4Header → List UInt8 → Prop

/-- What is needed to read a datagram with the property back: a header without options, and a
payload that a read has room for. -/
structure Legible (P : DatagramProperty) : Prop where
  formed : ∀ header bytes, P header bytes → header.WellFormed
  plain : ∀ header bytes, P header bytes → header.hlen = 5
  short : ∀ header bytes, P header bytes → bytes.length ≤ FileDescriptor.kReadBufferSize

variable {P Q : DatagramProperty}

def Sound (P : DatagramProperty) (dgram : InternetDatagram) : Prop :=
  P dgram.header dgram.payload.flatten

/-- If the frame is one for a datagram, it has the bytes of one with the property. -/
def Bears (P : DatagramProperty) (frame : EthernetFrame) : Prop :=
  frame.header.type = EthernetHeader.TYPE_IPv4 →
    ∃ header bytes, P header bytes ∧ frame.payload.flatten = header.encoding ++ bytes

/-- The packet is that of such a frame. -/
def BearsPacket (P : DatagramProperty) (packet : Packet) : Prop :=
  ∃ frame : EthernetFrame, packet = frame.packet ∧ Bears P frame

theorem Bears.mono {frame : EthernetFrame} (bears : Bears P frame)
    (weaker : ∀ header bytes, P header bytes → Q header bytes) : Bears Q frame := by
  intro type
  obtain ⟨header, bytes, holds, flat⟩ := bears type
  exact ⟨header, bytes, weaker header bytes holds, flat⟩

theorem BearsPacket.mono {packet : Packet} (bears : BearsPacket P packet)
    (weaker : ∀ header bytes, P header bytes → Q header bytes) : BearsPacket Q packet := by
  obtain ⟨frame, rfl, within⟩ := bears
  exact ⟨frame, rfl, within.mono weaker⟩

theorem bears_of_serialize {dgram : InternetDatagram} {payload : List Buffer}
    (version : dgram.header.ver = 4) (sound : Sound P dgram)
    (written : serialize dgram.serialize = .ok payload) (frame : EthernetHeader) :
    Bears P ⟨frame, payload⟩ := by
  intro _
  obtain ⟨buffers, same, rest, -⟩ := IPv4Datagram.serialize_eq version
  cases same.symm.trans written
  exact ⟨dgram.header, _, sound, by rw [List.flatten_cons, rest]⟩

/-- A frame for anything else bears nothing. -/
theorem bears_of_type {frame : EthernetFrame} (other : frame.header.type = EthernetHeader.TYPE_ARP) :
    Bears P frame := by
  intro type
  exact absurd (other.symm.trans type) (by decide)

/-- What is read of a packet that bears a datagram. -/
theorem BearsPacket.received {packet : Packet} (bears : BearsPacket P packet) (legible : Legible P)
    {frame : EthernetFrame} (received : maybeReceiveFrame packet = .ok (some frame)) :
    Bears P frame ∧ Firm frame.payload := by
  obtain ⟨sent, rfl, within⟩ := bears
  obtain ⟨payload, read, flat, firm⟩ := maybeReceiveFrame_packet sent
  cases read.symm.trans received
  refine ⟨fun type => ?_, firm⟩
  obtain ⟨header, bytes, holds, whole⟩ := within type
  refine ⟨header, bytes, holds, ?_⟩
  have short := legible.short header bytes holds
  rw [flat, whole, List.take_of_length_le]
  rw [List.length_append, IPv4Header.encoding_length]
  change _ ≤ 20 + FileDescriptor.kReadBufferSize
  omega

namespace NetworkInterface

variable {interface next : NetworkInterface}

/-- All datagrams that wait, and all those in the frames of the queue, have the property. -/
structure Traces (P : DatagramProperty) (interface : NetworkInterface) : Prop where
  waiting : ∀ hop, ∀ dgram ∈ interface.cachedFor hop, Sound P dgram
  queued : ∀ frame ∈ interface.sendQueue, Bears P frame

theorem traces_new (ethernetAddress : EthernetAddress) (ipAddress : UInt32) :
    (new ethernetAddress ipAddress).Traces P where
  waiting := fun _ _ inside => absurd inside List.not_mem_nil
  queued := fun _ inside => absurd inside List.not_mem_nil

namespace Traces

theorem mono (traces : interface.Traces P)
    (weaker : ∀ header bytes, P header bytes → Q header bytes) : interface.Traces Q where
  waiting := fun hop dgram inside => weaker _ _ (traces.waiting hop dgram inside)
  queued := fun frame inside => (traces.queued frame inside).mono weaker

theorem queue (traces : interface.Traces P) {frames : List EthernetFrame}
    (bear : ∀ frame ∈ frames, Bears P frame) : (interface.queue frames).Traces P where
  waiting := traces.waiting
  queued := List.forall_mem_append.mpr ⟨traces.queued, bear⟩

/-- Waiting for an address. -/
theorem await (traces : interface.Traces P) {nextHop : UInt32} {dgram : InternetDatagram}
    (sound : Sound P dgram) {request : EthernetFrame} (bears : Bears P request) :
    (interface.await nextHop dgram request).Traces P where
  waiting := by
    intro hop other inside
    by_cases same : hop = nextHop
    · rw [same, cachedFor_await_self] at inside
      rcases List.mem_append.mp inside with old | new
      · exact traces.waiting nextHop other old
      · rw [List.mem_singleton.mp new]
        exact sound
    · rw [cachedFor_await_of_ne same] at inside
      exact traces.waiting hop other inside
  queued := List.forall_mem_append.mpr ⟨traces.queued, List.forall_mem_singleton.mpr bears⟩

/-- An address is learned. -/
theorem release (traces : interface.Traces P) (message : ARPMessage) {frames : List EthernetFrame}
    (bear : ∀ frame ∈ frames, Bears P frame) : (interface.release message frames).Traces P where
  waiting := by
    intro hop other inside
    by_cases same : hop = message.senderIpAddress
    · rw [same, cachedFor_release_self] at inside
      exact absurd inside List.not_mem_nil
    · rw [cachedFor_release_of_ne same] at inside
      exact traces.waiting hop other inside
  queued := List.forall_mem_append.mpr ⟨traces.queued, bear⟩

/-- Each payload of a list was written for the datagram in its place. -/
theorem bear_payloads (legible : Legible P) (dst : EthernetAddress) {dgrams : List InternetDatagram}
    {payloads : List (List Buffer)} (sound : ∀ dgram ∈ dgrams, Sound P dgram)
    (written : dgrams.map (fun dgram => serialize dgram.serialize) = payloads.map .ok) :
    ∀ frame ∈ payloads.map (interface.datagramFrame dst), Bears P frame := by
  intro frame inside
  obtain ⟨payload, here, rfl⟩ := List.mem_map.mp inside
  have paid : (Except.ok payload : Except Fault (List Buffer)) ∈ payloads.map .ok :=
    List.mem_map_of_mem here
  rw [← written] at paid
  obtain ⟨dgram, waited, serialized⟩ := List.mem_map.mp paid
  have known := sound dgram waited
  exact bears_of_serialize (legible.formed _ _ known).version known serialized _

/-- Every call keeps the property, if it holds of the datagram that the call passes. -/
theorem stepped (traces : interface.Traces P) (legible : Legible P) {op : Op}
    (stepped : Stepped interface op next)
    (given : ∀ dgram hop, op = .send dgram hop → Sound P dgram) : next.Traces P := by
  cases stepped with
  | sent known written =>
      have sound := given _ _ rfl
      refine traces.queue (List.forall_mem_singleton.mpr ?_)
      exact bears_of_serialize (legible.formed _ _ sound).version sound written _
  | requested unknown due written => exact traces.await (given _ _ rfl) (bears_of_type rfl)
  | dropped unknown pending => exact traces
  | passedUp => exact traces
  | learned parsed written answered =>
      refine traces.release _ (List.forall_mem_append.mpr ⟨?_, ?_⟩)
      · exact bear_payloads legible _ (traces.waiting _) written
      · intro frame inside
        cases answered with
        | silent ignored => exact absurd inside List.not_mem_nil
        | reply asked replied =>
            rw [List.mem_singleton.mp inside]
            exact bears_of_type rfl
  | @ticked msSinceLastTick =>
      refine ⟨fun hop dgram inside => traces.waiting hop dgram ?_, fun frame inside => ?_⟩
      · rw [cachedFor, datagramCache_tick] at inside
        exact inside
      · rw [sendQueue_tick] at inside
        exact traces.queued frame inside
  | taken =>
      rw [maybeSend]
      cases queued : interface.sendQueue with
      | nil => exact traces
      | cons frame rest =>
          refine ⟨traces.waiting, fun other inside => traces.queued other ?_⟩
          rw [queued]
          exact List.mem_cons_of_mem _ inside

end Traces

/-- What is passed up is the datagram that the frame bears. -/
theorem passed_sound (legible : Legible P) {frame : EthernetFrame} {dgram : InternetDatagram}
    (bears : Bears P frame) (firm : Firm frame.payload)
    (received : interface.recvFrame frame = .ok (next, some dgram)) :
    Sound P dgram ∧ Firm dgram.payload := by
  rw [recvFrame] at received
  split at received
  · cases received
  split at received
  · rename_i type
    obtain ⟨parsing, parsed, returned⟩ := Fault.bind_eq_ok.mp received
    cases returned
    obtain ⟨header, bytes, holds, flat⟩ := bears (beq_iff_eq.mp type)
    have solid : Solid (IPv4Header.LENGTH + bytes.length) frame.payload := by
      rw [Firm, flat, List.length_append, IPv4Header.encoding_length] at firm
      exact firm
    have whole : ([bytes] : List Buffer).flatten = bytes := List.flatten_singleton
    obtain ⟨again, reparsed, headerSame, payload, inside⟩ := @IPv4Datagram.parse_of_flatten {}
      ⟨header, [bytes]⟩ (legible.formed _ _ holds) frame.payload bytes.length
      (Nat.le_of_eq (congrArg List.length whole.symm)) (by rw [flat, whole]) solid
    cases reparsed.symm.trans parsed
    have plain := legible.plain _ _ holds
    have same : dgram.payload.flatten = bytes := by
      rw [payload, whole, plain]
      rfl
    refine ⟨?_, ?_⟩
    · rw [Sound, headerSame, same]
      exact holds
    · rw [Firm, same]
      exact inside plain
  split at received
  · obtain ⟨handled, -, ⟨⟩⟩ := Fault.bind_eq_ok.mp received
  · cases received

end NetworkInterface

end Minnow.Link
