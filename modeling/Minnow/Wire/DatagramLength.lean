import Minnow.Wire.IPv4Parsing
import Minnow.Wire.TCPSegment

/-!
# The length of a datagram

The payload is all that follows the header, whatever the length field says, and it goes on
into the segment as it is.
-/

namespace Minnow.Wire

/-- What the length field says. -/
def totalLength (bytes : List UInt8) : Nat := (decode UInt16 (bytes.drop 2)).toNat

theorem IPv4Header.payloadLength_toNat {header : IPv4Header}
    (headed : header.hlen.toNat * 4 ≤ header.len.toNat) :
    header.payloadLength.toNat = header.len.toNat - header.hlen.toNat * 4 := by
  have small := header.hlen.toNat_lt
  have product : (4 * header.hlen.toUInt16).toNat = header.hlen.toNat * 4 := by
    rw [UInt16.toNat_mul, UInt8.toNat_toUInt16]
    change 4 * _ % 65536 = _
    omega
  have inside : 4 * header.hlen.toUInt16 ≤ header.len := by
    rw [UInt16.le_iff_toNat_le, product]
    exact headed
  rw [payloadLength, UInt16.toNat_sub_of_le _ _ inside, product]

namespace IPv4Datagram

/-- The datagram has the bytes that its length field says, and no others get into a segment. -/
structure Delimited (datagram : IPv4Datagram) (bytes : List UInt8) : Prop where
  headed : datagram.header.hlen.toNat * 4 ≤ datagram.header.len.toNat
  whole : datagram.header.len.toNat ≤ bytes.length
  exact : datagram.payload.flatten.length = datagram.header.payloadLength.toNat
  excluded : datagram.payload.flatten =
    (bytes.take datagram.header.len.toNat).drop (datagram.header.hlen.toNat * 4)
  inner : ∀ (old segment : TCPSegment),
    Wire.parse (old.parse datagram.header.pseudoChecksum) datagram.payload = .ok (some segment) →
      ∃ start, segment.senderMessage.payload =
        (bytes.take datagram.header.len.toNat).drop start

/-- An accepted datagram is delimited just if the length field counts all the bytes there are. -/
theorem delimited_iff_counted {old datagram : IPv4Datagram} {buffers : List Buffer}
    (parsed : Wire.parse old.parse buffers = .ok (some datagram)) :
    datagram.Delimited buffers.flatten ↔
      totalLength buffers.flatten = buffers.flatten.length ∧
        IPv4Header.announcedLength buffers.flatten ≤ totalLength buffers.flatten := by
  obtain ⟨-, -, hlen, len, payload⟩ := parse_ok parsed
  rw [← hlen, totalLength, ← len]
  constructor
  · intro delimited
    have length := congrArg List.length payload
    rw [delimited.exact, IPv4Header.payloadLength_toNat delimited.headed,
      List.length_drop] at length
    have headed := delimited.headed
    have whole := delimited.whole
    exact ⟨by omega, headed⟩
  · rintro ⟨counted, headed⟩
    have all : buffers.flatten.take datagram.header.len.toNat = buffers.flatten := by
      rw [counted, List.take_length]
    refine ⟨headed, Nat.le_of_eq counted, ?_, ?_, ?_⟩
    · rw [payload, List.length_drop, IPv4Header.payloadLength_toNat headed, counted]
    · rw [all]
      exact payload
    · intro oldSegment segment accepted
      obtain ⟨final, ran, fine⟩ := parse_eq_some.mp accepted
      obtain ⟨start, ends⟩ := TCPSegment.parse_ok ran fine
      rw [Parser.new, BufferList.remaining_ofBuffers, payload, List.drop_drop] at ends
      rw [all]
      exact ⟨_, ends⟩

/-! ## A datagram in a frame that is padded -/

def acknowledgementHeader : IPv4Header :=
  { len := 40, cksum := { len := 40 : IPv4Header }.checksum }

/-- An acknowledgement without payload. -/
def acknowledgement : TCPSegment :=
  TCPSegment.computeChecksum { receiverMessage := ⟨some ⟨1⟩, 1000⟩ }
    acknowledgementHeader.pseudoChecksum

/-- The bytes up to the minimum of the link, the last six of them added by it. -/
def padded : List Buffer :=
  [acknowledgementHeader.encoding, acknowledgement.encoding ++ List.replicate 6 0]

/-- What is made of them. -/
def paddedSegment : TCPSegment :=
  { acknowledgement with senderMessage := { payload := List.replicate 6 0 } }

theorem acknowledgementHeader_wellFormed : acknowledgementHeader.WellFormed :=
  IPv4Header.wellFormed_plain 40 0 0

/-- The acknowledgement by itself is delimited. -/
theorem delimited_iff_counted_acknowledgement :
    ∃ datagram, Wire.parse (parse {})
        [acknowledgementHeader.encoding, acknowledgement.encoding] = .ok (some datagram) ∧
      datagram.Delimited [acknowledgementHeader.encoding, acknowledgement.encoding].flatten := by
  obtain ⟨datagram, parsed, -⟩ := @parse_of_flatten {}
    ⟨acknowledgementHeader, [acknowledgement.encoding]⟩ acknowledgementHeader_wellFormed
    [acknowledgementHeader.encoding, acknowledgement.encoding] 0 (Nat.zero_le _) rfl
    (solid_of_nonempty (by decide) _)
  exact ⟨datagram, parsed, (delimited_iff_counted parsed).mpr ⟨rfl, by decide⟩⟩

/-- The padding of the frame becomes payload of the segment. -/
theorem padded_not_delimited :
    ∃ datagram, Wire.parse (parse {}) padded = .ok (some datagram) ∧
      ¬ datagram.Delimited padded.flatten ∧ datagram.header = acknowledgementHeader ∧
      Wire.parse (TCPSegment.parse {} datagram.header.pseudoChecksum) datagram.payload =
        .ok (some paddedSegment) := by
  have solid : Solid 40 padded := solid_of_nonempty (by decide) 40
  obtain ⟨datagram, parsed, header, payload, inside⟩ := @parse_of_flatten {}
    ⟨acknowledgementHeader, [padded.getLast!]⟩ acknowledgementHeader_wellFormed padded 20
    (by decide) rfl solid
  refine ⟨datagram, parsed, ?_, header, ?_⟩
  · intro delimited
    have exactly := delimited.exact
    rw [payload, header] at exactly
    exact absurd exactly (by decide)
  · rw [header]
    exact TCPSegment.parse_of_flatten {} rfl payload (inside rfl)

end IPv4Datagram

end Minnow.Wire
