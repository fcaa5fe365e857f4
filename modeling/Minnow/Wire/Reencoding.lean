import Minnow.Wire.IPv4Parsing

/-!
# Writing an accepted datagram again

The options are gone, but the header still counts them.
-/

namespace Minnow.Wire

namespace IPv4Header

/-- The header is written, and whoever gets the bytes accepts it, whatever comes after them. -/
def ReadBack (header : IPv4Header) : Prop :=
  ∃ sent, Wire.serialize header.serialize = .ok sent ∧ ∀ (old : IPv4Header) (received : List Buffer),
    sent.flatten <+: received.flatten → Solid LENGTH received →
      Wire.parse old.parse received = .ok (some header)

theorem WellFormed.readBack {header : IPv4Header} (formed : header.WellFormed) :
    header.ReadBack := by
  have written : Wire.serialize header.serialize = .ok [header.encoding] := by
    rw [Wire.serialize, serialize_eq formed.version]
    rfl
  refine ⟨_, written, ?_⟩
  rintro old received ⟨rest, whole⟩ solid
  have before : (Parser.new received).Before (header.encoding ++ []) rest := by
    refine Parser.before_new ?_ ?_
    · rw [List.append_nil, ← whole, List.flatten_singleton]
    · rw [List.append_nil, encoding_length]
      exact solid
  obtain ⟨read, final, ran, rfl, middle, after, rfl⟩ := parse_of_before old formed before
  exact parse_eq_some.mpr ⟨_, ran, after.fine⟩

end IPv4Header

namespace IPv4Datagram

/-- The datagram is written, and whoever gets the bytes reads the same datagram. -/
def ReadBack (datagram : IPv4Datagram) : Prop :=
  ∃ sent, Wire.serialize datagram.serialize = .ok sent ∧ Solid IPv4Header.LENGTH sent ∧
    ∀ (old : IPv4Datagram) (received : List Buffer), received.flatten = sent.flatten →
      Solid IPv4Header.LENGTH received →
        ∃ again, Wire.parse old.parse received = .ok (some again) ∧
          again.header = datagram.header ∧ again.payload.flatten = datagram.payload.flatten

/-- What the router does to a datagram that it forwards. -/
def hop (datagram : IPv4Datagram) : Except Fault IPv4Datagram := do
  let header ← { datagram.header with ttl := datagram.header.ttl - 1 }.computeChecksum
  return { datagram with header }

/-- A datagram is read back just if nothing of its payload is skipped as options. -/
theorem readBack_iff_kept {datagram : IPv4Datagram} (formed : datagram.header.WellFormed) :
    datagram.ReadBack ↔ datagram.header.hlen = 5 ∨ datagram.payload.flatten = [] := by
  obtain ⟨buffers, written, rest, -⟩ := serialize_eq formed.version
  have flat : (datagram.header.encoding :: buffers).flatten =
      datagram.header.encoding ++ datagram.payload.flatten := by
    rw [List.flatten_cons, rest]
  have solid : Solid IPv4Header.LENGTH (datagram.header.encoding :: buffers) :=
    solid_of_le (Nat.le_of_eq datagram.header.encoding_length.symm) buffers
  have reading : ∀ old received, received.flatten = datagram.header.encoding ++
      datagram.payload.flatten → Solid IPv4Header.LENGTH received →
        ∃ again, Wire.parse (parse old) received = .ok (some again) ∧
          again.header = datagram.header ∧ again.payload.flatten =
            datagram.payload.flatten.drop (datagram.header.hlen.toNat * 4 - 20) := by
    intro old received same whole
    obtain ⟨again, parsed, header, payload, -⟩ :=
      @parse_of_flatten old datagram formed received 0 (Nat.zero_le _) same whole
    exact ⟨again, parsed, header, payload⟩
  have long := UInt8.le_iff_toNat_le.mp formed.long
  constructor
  · rintro ⟨sent, serialized, -, back⟩
    cases written.symm.trans serialized
    obtain ⟨again, parsed, -, payload⟩ := back {} _ rfl solid
    obtain ⟨same, parsedSame, -, skipped⟩ := reading {} _ flat solid
    cases parsedSame.symm.trans parsed
    have length := congrArg List.length (skipped.symm.trans payload)
    rw [List.length_drop] at length
    change 5 ≤ _ at long
    rcases Nat.eq_zero_or_pos datagram.payload.flatten.length with none | some
    · exact Or.inr (List.length_eq_zero_iff.mp none)
    · refine Or.inl (UInt8.toNat_inj.mp ?_)
      change _ = 5
      omega
  · intro kept
    refine ⟨_, written, solid, fun old received same whole => ?_⟩
    obtain ⟨again, parsed, header, payload⟩ := reading old received (same.trans flat) whole
    refine ⟨again, parsed, header, payload.trans ?_⟩
    rcases kept with plain | none
    · rw [plain]
      rfl
    · rw [none, List.drop_nil]

/-- The next hop gets a well-formed header that differs in the time to live and the checksum. -/
theorem hop_eq {datagram : IPv4Datagram} (formed : datagram.header.WellFormed) :
    ∃ next, datagram.hop = .ok next ∧ next.header.WellFormed ∧ next.payload = datagram.payload ∧
      next.header = { datagram.header with
        ttl := datagram.header.ttl - 1, cksum := next.header.cksum } := by
  have computed := @IPv4Header.computeChecksum_eq
    { datagram.header with ttl := datagram.header.ttl - 1 } formed.version
  refine ⟨_, Fault.bind_eq_ok.mpr ⟨_, computed, rfl⟩, ?_, rfl, rfl⟩
  exact ⟨formed.version, formed.long, formed.hlen, formed.offset,
    IPv4Header.checksum_of_cksum { datagram.header with ttl := datagram.header.ttl - 1 } _⟩

/-- The datagram, and what is forwarded of it, reach the next hop as they are. -/
def Forwardable (datagram : IPv4Datagram) : Prop :=
  datagram.ReadBack ∧ ∃ next, datagram.hop = .ok next ∧ next.ReadBack ∧
    next.payload = datagram.payload ∧
    next.header = { datagram.header with
      ttl := datagram.header.ttl - 1, cksum := next.header.cksum }

/-- An accepted datagram can be forwarded just if it has no options, or nothing comes after
them. -/
theorem forwardable_iff_unoptioned {old datagram : IPv4Datagram} {buffers : List Buffer}
    (parsed : Wire.parse old.parse buffers = .ok (some datagram)) :
    datagram.Forwardable ↔ IPv4Header.announcedLength buffers.flatten = IPv4Header.LENGTH ∨
      buffers.flatten.length ≤ IPv4Header.announcedLength buffers.flatten := by
  obtain ⟨formed, -, hlen, -, payload⟩ := parse_ok parsed
  have kept : (datagram.header.hlen = 5 ∨ datagram.payload.flatten = []) ↔
      IPv4Header.announcedLength buffers.flatten = IPv4Header.LENGTH ∨
        buffers.flatten.length ≤ IPv4Header.announcedLength buffers.flatten := by
    rw [payload, List.drop_eq_nil_iff, ← hlen, ← UInt8.toNat_inj]
    change _ = 5 ∨ _ ↔ _ = 20 ∨ _
    omega
  obtain ⟨next, hopped, formedNext, payloadNext, headerNext⟩ := hop_eq formed
  rw [← kept, ← readBack_iff_kept formed]
  constructor
  · rintro ⟨back, -⟩
    exact back
  · intro back
    refine ⟨back, next, hopped, ?_, payloadNext, headerNext⟩
    rw [readBack_iff_kept formedNext, payloadNext, headerNext]
    exact (readBack_iff_kept formed).mp back

/-- A header of the given length, before four bytes of payload. -/
def sampleHeader (hlen : UInt8) : IPv4Header :=
  { hlen, len := 4 * hlen.toUInt16 + 4,
    cksum := { hlen, len := 4 * hlen.toUInt16 + 4 : IPv4Header }.checksum }

theorem sampleHeader_wellFormed {hlen : UInt8} (long : 5 ≤ hlen) (fits : hlen &&& 0xf = hlen) :
    (sampleHeader hlen).WellFormed :=
  ⟨rfl, long, fits, UInt16.zero_and,
    IPv4Header.checksum_of_cksum { hlen, len := 4 * hlen.toUInt16 + 4 } _⟩

def plain : List Buffer := [(sampleHeader 5).encoding, [1, 2, 3, 4]]

theorem forwardable_iff_unoptioned_plain :
    ∃ datagram, Wire.parse (parse {}) plain = .ok (some datagram) ∧ datagram.Forwardable := by
  obtain ⟨datagram, parsed, -⟩ := @parse_of_flatten {} ⟨sampleHeader 5, [[1, 2, 3, 4]]⟩
    (sampleHeader_wellFormed (by decide) rfl) plain 0 (Nat.zero_le _) rfl
    (solid_of_nonempty (by decide) _)
  exact ⟨datagram, parsed, (forwardable_iff_unoptioned parsed).mpr (Or.inl rfl)⟩

/-- Four bytes of options, all zero, before the payload. -/
def optioned : List Buffer := [(sampleHeader 6).encoding, [0, 0, 0, 0], [1, 2, 3, 4]]

/-- The next hop takes the payload for options. -/
theorem optioned_not_forwardable :
    ∃ datagram, Wire.parse (parse {}) optioned = .ok (some datagram) ∧
      datagram.payload.flatten = [1, 2, 3, 4] ∧ ¬ datagram.Forwardable := by
  have formed := @sampleHeader_wellFormed 6 (by decide) rfl
  obtain ⟨datagram, parsed, header, payload, -⟩ := @parse_of_flatten {}
    ⟨sampleHeader 6, [[0, 0, 0, 0], [1, 2, 3, 4]]⟩ formed optioned 0 (Nat.zero_le _) rfl
    (solid_of_nonempty (by decide) _)
  refine ⟨datagram, parsed, payload, fun forwardable => ?_⟩
  have kept := (readBack_iff_kept (header ▸ formed)).mp forwardable.1
  rw [header, payload] at kept
  exact absurd kept (by decide)

end IPv4Datagram

end Minnow.Wire
