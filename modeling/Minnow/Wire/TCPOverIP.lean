import Minnow.Wire.IPv4Parsing
import Minnow.Wire.TCPSegment

/-!
# Segments in datagrams

What one end wraps, the other end unwraps.
-/

namespace Minnow.Wire

open Minnow.Transport

/-- An address in numeric form, and a port. -/
structure Address where
  ipv4Numeric : UInt32 := 0
  port : UInt16 := 0
  deriving DecidableEq

structure FdAdapterConfig where
  source : Address := {}
  destination : Address := {}
  deriving DecidableEq

structure TCPOverIPv4Adapter where
  config : FdAdapterConfig := {}
  listening : Bool := false
  deriving DecidableEq

namespace TCPOverIPv4Adapter

/-- The segment in a datagram, if there is one for this connection.  A listening adapter
connects to whoever sends a SYN to its port. -/
def unwrapTcpInIp (adapter : TCPOverIPv4Adapter) (ipDgram : InternetDatagram) :
    Except Fault (TCPOverIPv4Adapter × Option TCPSegment) :=
  if adapter.listening = false ∧ ipDgram.header.dst ≠ adapter.config.source.ipv4Numeric then
    .ok (adapter, none)
  else if adapter.listening = false ∧
      ipDgram.header.src ≠ adapter.config.destination.ipv4Numeric then
    .ok (adapter, none)
  else if ipDgram.header.proto ≠ IPv4Header.PROTO_TCP then .ok (adapter, none)
  else do
    match ← parse (TCPSegment.parse {} ipDgram.header.pseudoChecksum) ipDgram.payload with
    | none => return (adapter, none)
    | some tcpSeg =>
        if tcpSeg.udinfo.dstPort ≠ adapter.config.source.port then return (adapter, none)
        else if adapter.listening ∧ ¬ (tcpSeg.senderMessage.SYN ∧ tcpSeg.reset = false) then
          return (adapter, none)
        else
          let connected : TCPOverIPv4Adapter :=
            if adapter.listening then
              { config.source := ⟨ipDgram.header.dst, adapter.config.source.port⟩
                config.destination := ⟨ipDgram.header.src, tcpSeg.udinfo.srcPort⟩
                listening := false }
            else adapter
          if tcpSeg.udinfo.srcPort ≠ connected.config.destination.port then
            return (connected, none)
          else return (connected, some tcpSeg)

/-- The segment with its ports and checksum set, and the datagram around it. -/
def wrapTcpInIp (adapter : TCPOverIPv4Adapter) (seg : TCPSegment) :
    Except Fault (TCPSegment × InternetDatagram) := do
  let addressed : TCPSegment :=
    { seg with udinfo := { seg.udinfo with
        srcPort := adapter.config.source.port, dstPort := adapter.config.destination.port } }
  let header : IPv4Header :=
    { src := adapter.config.source.ipv4Numeric, dst := adapter.config.destination.ipv4Numeric }
  let long := { header with
    len := UInt16.ofNat (header.hlen.toNat * 4 + 20 + seg.senderMessage.payload.length) }
  let sealed := addressed.computeChecksum long.pseudoChecksum
  let checked ← long.computeChecksum
  return (sealed, ⟨checked, (sealed.serialize Serializer.new).finish⟩)

/-- The adapter at the other end of the connection. -/
def mirrored (adapter : TCPOverIPv4Adapter) : TCPOverIPv4Adapter where
  config := ⟨adapter.config.destination, adapter.config.source⟩

/-- A segment for the connection is unwrapped. -/
theorem unwrapTcpInIp_of_parsed {adapter : TCPOverIPv4Adapter} {ipDgram : InternetDatagram}
    {tcpSeg : TCPSegment} (quiet : adapter.listening = false)
    (forUs : ipDgram.header.dst = adapter.config.source.ipv4Numeric)
    (fromPeer : ipDgram.header.src = adapter.config.destination.ipv4Numeric)
    (tcp : ipDgram.header.proto = IPv4Header.PROTO_TCP)
    (parsed : parse (TCPSegment.parse {} ipDgram.header.pseudoChecksum) ipDgram.payload =
      .ok (some tcpSeg))
    (ourPort : tcpSeg.udinfo.dstPort = adapter.config.source.port)
    (peerPort : tcpSeg.udinfo.srcPort = adapter.config.destination.port) :
    adapter.unwrapTcpInIp ipDgram = .ok (adapter, some tcpSeg) := by
  have listens : ¬ adapter.listening = true := by
    rw [quiet]
    exact Bool.false_ne_true
  rw [unwrapTcpInIp, if_neg (fun other => other.2 forUs), if_neg (fun other => other.2 fromPeer),
    if_neg (not_not.mpr tcp), parsed]
  change (if _ then _ else _) = _
  rw [if_neg (not_not.mpr ourPort), if_neg (fun other => listens other.1)]
  dsimp only
  rw [if_neg listens, if_neg (not_not.mpr peerPort)]
  rfl

end TCPOverIPv4Adapter

/-! ## The bounds of the sums -/

theorem toNat_add_le (a b : UInt32) : (a + b).toNat ≤ a.toNat + b.toNat := by
  rw [UInt32.toNat_add]
  exact Nat.mod_le _ _

theorem high_le (a : UInt32) : (a >>> 16).toNat ≤ 65535 := by
  have small := a.toNat_lt
  rw [UInt32.toNat_shiftRight, show (16 : UInt32).toNat % 32 = 16 from rfl,
    Nat.shiftRight_eq_div_pow]
  omega

theorem low_le (a : UInt16) : a.toUInt32.toNat ≤ 65535 := by
  rw [UInt16.toNat_toUInt32]
  exact Nat.le_of_lt_succ a.toNat_lt

theorem IPv4Header.pseudoChecksum_le (header : IPv4Header) :
    header.pseudoChecksum.toNat ≤ 5 * 65535 + 255 := by
  have source := toNat_add_le (header.src >>> 16) header.src.toUInt16.toUInt32
  have destination := toNat_add_le (header.dst >>> 16) header.dst.toUInt16.toUInt32
  have addresses := toNat_add_le ((header.src >>> 16) + header.src.toUInt16.toUInt32)
    ((header.dst >>> 16) + header.dst.toUInt16.toUInt32)
  have protocol := toNat_add_le ((header.src >>> 16) + header.src.toUInt16.toUInt32 +
    ((header.dst >>> 16) + header.dst.toUInt16.toUInt32)) header.proto.toUInt32
  have all := toNat_add_le ((header.src >>> 16) + header.src.toUInt16.toUInt32 +
    ((header.dst >>> 16) + header.dst.toUInt16.toUInt32) + header.proto.toUInt32)
    header.payloadLength.toUInt32
  have sourceHigh := high_le header.src
  have sourceLow := low_le header.src.toUInt16
  have destinationHigh := high_le header.dst
  have destinationLow := low_le header.dst.toUInt16
  have protocolLow : header.proto.toUInt32.toNat ≤ 255 := by
    rw [UInt8.toNat_toUInt32]
    exact Nat.le_of_lt_succ header.proto.toNat_lt
  have lengthLow := low_le header.payloadLength
  rw [pseudoChecksum]
  omega

/-- The pseudo-checksum does not look at the checksum. -/
theorem IPv4Header.pseudoChecksum_cksum (header : IPv4Header) (cksum : UInt16) :
    ({ header with cksum } : IPv4Header).pseudoChecksum = header.pseudoChecksum := rfl

namespace TCPOverIPv4Adapter

/-! ## From one end to the other -/

/-- The datagram around a segment: a well-formed header for the connection, and the bytes
of the segment with its checksum. -/
theorem wrapTcpInIp_eq (adapter : TCPOverIPv4Adapter) (seg : TCPSegment) :
    ∃ sealed datagram pseudo, adapter.wrapTcpInIp seg = .ok (sealed, datagram) ∧
      datagram.header.WellFormed ∧ datagram.header.hlen = 5 ∧
      datagram.header.src = adapter.config.source.ipv4Numeric ∧
      datagram.header.dst = adapter.config.destination.ipv4Numeric ∧
      datagram.header.proto = IPv4Header.PROTO_TCP ∧
      datagram.header.pseudoChecksum = pseudo ∧
      datagram.payload = [sealed.encoding, sealed.senderMessage.payload, []] ∧
      sealed = ({ seg with udinfo := ⟨adapter.config.source.port,
        adapter.config.destination.port, seg.udinfo.cksum⟩ } : TCPSegment).computeChecksum
          pseudo := by
  let header : IPv4Header :=
    { src := adapter.config.source.ipv4Numeric, dst := adapter.config.destination.ipv4Numeric,
      len := UInt16.ofNat (5 * 4 + 20 + seg.senderMessage.payload.length) }
  have computed := @IPv4Header.computeChecksum_eq header rfl
  refine ⟨_, _, _, Fault.bind_eq_ok.mpr ⟨_, computed, rfl⟩, ?_, rfl, rfl, rfl, rfl,
    header.pseudoChecksum_cksum _, ?_, rfl⟩
  · exact IPv4Header.wellFormed_plain header.len header.src header.dst
  · exact TCPSegment.serialize_eq _

/-- A segment that is wrapped, sent and unwrapped at the other end is the same segment. -/
theorem unwrap_wrapped (adapter : TCPOverIPv4Adapter) {seg : TCPSegment}
    (short : seg.senderMessage.payload.length ≤ 65495) :
    ∃ sealed datagram sent, adapter.wrapTcpInIp seg = .ok (sealed, datagram) ∧
      serialize datagram.serialize = .ok sent ∧ Solid 40 sent ∧
      ∀ (old : IPv4Datagram) (received : List Buffer), received.flatten = sent.flatten →
        Solid 40 received →
          ∃ again segment, parse old.parse received = .ok (some again) ∧
            adapter.mirrored.unwrapTcpInIp again = .ok (adapter.mirrored, some segment) ∧
            segment.senderMessage = seg.senderMessage ∧
            segment.receiverMessage = seg.receiverMessage ∧ segment.reset = seg.reset ∧
            segment.udinfo.srcPort = adapter.config.source.port ∧
            segment.udinfo.dstPort = adapter.config.destination.port := by
  obtain ⟨sealed, datagram, pseudo, wrapped, formed, plain, src, dst, proto, sum, payload,
    whole⟩ := adapter.wrapTcpInIp_eq seg
  obtain ⟨buffers, written, rest, first⟩ := IPv4Datagram.serialize_eq formed.version
  have flat : datagram.payload.flatten = sealed.encoding ++ sealed.senderMessage.payload := by
    rw [payload, List.flatten_cons, List.flatten_cons, List.flatten_singleton, List.append_nil]
  have verified : ((InternetChecksum.new pseudo).add
      (sealed.encoding ++ sealed.senderMessage.payload)).value = 0 := by
    have least := sum ▸ datagram.header.pseudoChecksum_le
    rw [whole]
    refine TCPSegment.computeChecksum_verified ?_
    change _ + 65280 * (20 + seg.senderMessage.payload.length) < _
    omega
  refine ⟨sealed, datagram, _, wrapped, written, ?_, fun old received same solid => ?_⟩
  · rw [payload] at first
    obtain ⟨others, rfl⟩ := List.head?_eq_some_iff.mp first
    have filled : sealed.encoding.length = 20 := sealed.encoding_length
    have lead : datagram.header.encoding.length = 20 := datagram.header.encoding_length
    refine Or.inr ⟨List.ne_nil_of_length_pos (by omega), ?_⟩
    rw [lead]
    exact solid_of_le (Nat.le_of_eq filled.symm) others
  · have counted : 20 ≤ datagram.payload.flatten.length := by
      rw [flat, List.length_append, TCPSegment.encoding_length]
      exact Nat.le_add_right _ _
    rw [List.flatten_cons, rest] at same
    obtain ⟨again, parsed, header, left, inside⟩ :=
      IPv4Datagram.parse_of_flatten old formed counted same solid
    rw [plain] at left
    have segmentParsed : parse (TCPSegment.parse {} again.header.pseudoChecksum) again.payload =
        .ok (some sealed) := by
      rw [header, sum]
      exact TCPSegment.parse_of_flatten {} verified (left.trans flat) (inside plain)
    refine ⟨again, sealed, parsed, unwrapTcpInIp_of_parsed rfl ?_ ?_ ?_ segmentParsed ?_ ?_, ?_⟩
    · rw [header]
      exact dst
    · rw [header]
      exact src
    · rw [header]
      exact proto
    · rw [whole]
      rfl
    · rw [whole]
      rfl
    · rw [whole]
      exact ⟨rfl, rfl, rfl, rfl, rfl⟩

theorem unwrap_wrapped_three :
    ∃ sealed datagram sent again segment,
      ({} : TCPOverIPv4Adapter).wrapTcpInIp { senderMessage := { payload := [1, 2, 3] } } =
        .ok (sealed, datagram) ∧ serialize datagram.serialize = .ok sent ∧
      parse (IPv4Datagram.parse {}) sent = .ok (some again) ∧
      ({} : TCPOverIPv4Adapter).unwrapTcpInIp again = .ok ({}, some segment) ∧
      segment.senderMessage.payload = [1, 2, 3] := by
  obtain ⟨sealed, datagram, sent, wrapped, written, solid, back⟩ :=
    @unwrap_wrapped {} { senderMessage := { payload := [1, 2, 3] } } (by decide)
  obtain ⟨again, segment, parsed, unwrapped, same, -⟩ := back {} sent rfl solid
  exact ⟨sealed, datagram, sent, again, segment, wrapped, written, parsed, unwrapped,
    congrArg TCPSenderMessage.payload same⟩

end TCPOverIPv4Adapter

end Minnow.Wire
