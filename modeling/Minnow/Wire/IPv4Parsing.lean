import Minnow.Wire.Encoding
import Minnow.Wire.IPv4

/-!
# Reading Internet datagrams

What the parser accepts is a well-formed header, and a well-formed header that is written
is accepted again.  The options are skipped on the way in and not written on the way out.
-/

namespace Minnow.Wire

namespace IPv4Header

/-- The first byte of the header. -/
def firstByte (header : IPv4Header) : UInt8 := (header.ver <<< 4) ||| (header.hlen &&& 0xf)

/-- The twenty bytes that are written. -/
def encoding (header : IPv4Header) : List UInt8 :=
  [encode header.firstByte, encode header.tos, encode header.len, encode header.id,
    encode header.foVal, encode header.ttl, encode header.proto, encode header.cksum,
    encode header.src, encode header.dst].flatten

@[simp] theorem encoding_length (header : IPv4Header) : header.encoding.length = 20 := by
  simp only [encoding, List.flatten_cons, List.flatten_nil, List.length_append, encode_length,
    List.length_nil]
  rfl

theorem serialize_eq {header : IPv4Header} (version : header.ver = 4) (serializer : Serializer) :
    header.serialize serializer =
      .ok { serializer with buffer := serializer.buffer ++ header.encoding } := by
  rw [serialize, if_neg (not_not.mpr version)]
  simp only [Serializer.integer, encoding, firstByte, encode, List.flatten_cons, List.flatten_nil,
    List.append_assoc, List.append_nil]

def withoutChecksum (header : IPv4Header) : IPv4Header := { header with cksum := 0 }

/-- The checksum of the header, with zero in the place of the checksum. -/
def checksum (header : IPv4Header) : UInt16 :=
  ((InternetChecksum.new 0).add header.withoutChecksum.encoding).value

/-- The checksum does not depend on the one in place. -/
theorem checksum_of_cksum (header : IPv4Header) (cksum : UInt16) :
    { header with cksum }.checksum = header.checksum :=
  rfl

theorem addBuffers_finish (check : InternetChecksum) (serializer : Serializer) :
    check.addBuffers serializer.finish =
      (check.addBuffers serializer.output).add serializer.buffer := by
  rw [Serializer.finish, Serializer.flush, InternetChecksum.addBuffers, List.foldl_append]
  rfl

theorem computeChecksum_eq {header : IPv4Header} (version : header.ver = 4) :
    header.computeChecksum = .ok { header with cksum := header.checksum } := by
  have written := @serialize_eq { header with cksum := 0 } version Serializer.new
  rw [computeChecksum, written]
  refine Fault.bind_eq_ok.mpr ⟨_, rfl, ?_⟩
  rw [addBuffers_finish]
  rfl

/-- What every accepted header satisfies. -/
structure WellFormed (header : IPv4Header) : Prop where
  version : header.ver = 4
  long : 5 ≤ header.hlen
  hlen : header.hlen &&& 0xf = header.hlen
  offset : header.offset &&& 0x1fff = header.offset
  checked : header.checksum = header.cksum

theorem WellFormed.computeChecksum {header : IPv4Header} (formed : header.WellFormed) :
    header.computeChecksum = .ok header := by
  rw [computeChecksum_eq formed.version, formed.checked]

/-- A header without options, with its checksum. -/
theorem wellFormed_plain (len : UInt16) (src dst : UInt32) :
    ({ len, src, dst, cksum := { len, src, dst : IPv4Header }.checksum } :
      IPv4Header).WellFormed where
  version := rfl
  long := UInt8.le_refl 5
  hlen := (by decide : (5 : UInt8) &&& 0xf = 5)
  offset := UInt16.zero_and
  checked := checksum_of_cksum { len, src, dst } _

/-! ## The packed fields -/

theorem firstByte_ver {header : IPv4Header} (version : header.ver = 4) :
    header.firstByte >>> 4 = 4 := by
  have none : (header.hlen &&& 0xf) >>> 4 = 0 := by
    rw [UInt8.shiftRight_and]
    exact UInt8.and_zero
  rw [firstByte, version, UInt8.shiftRight_or, none]
  rfl

theorem or_and_uint8 (a b c : UInt8) : (a ||| b) &&& c = (a &&& c) ||| (b &&& c) := by
  apply UInt8.toBitVec_inj.mp
  ext i inside
  simp [Bool.and_or_distrib_right]

theorem firstByte_hlen {header : IPv4Header} (version : header.ver = 4) :
    header.firstByte &&& 0x0f = header.hlen &&& 0xf := by
  rw [firstByte, version, or_and_uint8, UInt8.and_assoc, UInt8.and_self]
  exact UInt8.zero_or

theorem or_and_uint16 (a b c : UInt16) : (a ||| b) &&& c = (a &&& c) ||| (b &&& c) := by
  apply UInt16.toBitVec_inj.mp
  ext i inside
  simp [Bool.and_or_distrib_right]

theorem foVal_df (header : IPv4Header) : (header.foVal &&& 0x4000 != 0) = header.df := by
  have none : header.offset &&& 0x1fff &&& 0x4000 = 0 := by
    rw [UInt16.and_assoc]
    exact UInt16.and_zero
  rw [foVal, or_and_uint16, or_and_uint16, none]
  cases header.df <;> cases header.mf <;> decide

theorem foVal_mf (header : IPv4Header) : (header.foVal &&& 0x2000 != 0) = header.mf := by
  have none : header.offset &&& 0x1fff &&& 0x2000 = 0 := by
    rw [UInt16.and_assoc]
    exact UInt16.and_zero
  rw [foVal, or_and_uint16, or_and_uint16, none]
  cases header.df <;> cases header.mf <;> decide

theorem foVal_offset (header : IPv4Header) :
    header.foVal &&& 0x1fff = header.offset &&& 0x1fff := by
  have flags : ((if header.df then 0x4000 else 0) ||| (if header.mf then 0x2000 else 0)) &&&
      0x1fff = (0 : UInt16) := by
    cases header.df <;> cases header.mf <;> decide
  rw [foVal, or_and_uint16, flags, UInt16.and_assoc, UInt16.and_self, UInt16.zero_or]

/-! ## Reading what was written -/

/-- The words of a header as they stand in the bytes. -/
structure RawHeader where
  firstByte : UInt8
  tos : UInt8
  len : UInt16
  id : UInt16
  foVal : UInt16
  ttl : UInt8
  proto : UInt8
  cksum : UInt16
  src : UInt32
  dst : UInt32

namespace RawHeader

def encoding (raw : RawHeader) : List UInt8 :=
  [encode raw.firstByte, encode raw.tos, encode raw.len, encode raw.id, encode raw.foVal,
    encode raw.ttl, encode raw.proto, encode raw.cksum, encode raw.src, encode raw.dst].flatten

/-- The header that the parser makes of the words. -/
def read (raw : RawHeader) : IPv4Header :=
  ⟨raw.firstByte >>> 4, raw.firstByte &&& 0x0f, raw.tos, raw.len, raw.id,
    raw.foVal &&& 0x4000 != 0, raw.foVal &&& 0x2000 != 0, raw.foVal &&& 0x1fff, raw.ttl, raw.proto,
    raw.cksum, raw.src, raw.dst⟩

/-- What the parser checks. -/
def Checked (raw : RawHeader) : Prop :=
  raw.read.ver = 4 ∧ 5 ≤ raw.read.hlen ∧ raw.read.checksum = raw.cksum

end RawHeader

/-- The last steps: the options are skipped and the checksum is verified. -/
theorem verify_eq {read : IPv4Header} (version : read.ver = 4) (count : Nat) (parser : Parser) :
    (do
      Parser.removePrefix count
      let checked ← read.computeChecksum
      if checked.cksum ≠ read.cksum then Parser.setError
      return checked : ParseM IPv4Header) parser =
        .ok ({ read with cksum := read.checksum }, { parser.skipped count with
          error := parser.error || decide (read.checksum ≠ read.cksum) }) := by
  rw [Parser.removePrefix_bind]
  refine bind_eq_ok.mpr ⟨{ read with cksum := read.checksum }, parser.skipped count, ?_, ?_⟩
  · rw [computeChecksum_eq version]
    rfl
  · exact Parser.setErrorIf_bind _ (fun _ => pure _) _

/-- Whatever the words are, the parser reads them all, and it fails just if one of its checks
does. -/
theorem parse_of_raw (old : IPv4Header) (raw : RawHeader) {parser : Parser}
    {bytes rest : List UInt8} (before : parser.Before (raw.encoding ++ bytes) rest) :
    ∃ result final, old.parse parser = .ok (result, final) ∧
      (final.error = false ↔ raw.Checked) ∧
      (final.error = false → result = raw.read ∧ ∃ middle : Parser, middle.Before bytes rest ∧
        final = middle.skipped (raw.read.hlen.toNat * 4 - LENGTH)) := by
  simp only [RawHeader.encoding, List.flatten_cons, List.flatten_nil, List.append_assoc,
    List.append_nil] at before
  rw [parse]
  refine (Parser.yields_integer _ raw.firstByte).followed before fun _ before => ?_
  refine (Parser.yields_integer _ raw.tos).followed before fun _ before => ?_
  refine (Parser.yields_integer _ raw.len).followed before fun _ before => ?_
  refine (Parser.yields_integer _ raw.id).followed before fun _ before => ?_
  refine (Parser.yields_integer _ raw.foVal).followed before fun _ before => ?_
  refine (Parser.yields_integer _ raw.ttl).followed before fun _ before => ?_
  refine (Parser.yields_integer _ raw.proto).followed before fun _ before => ?_
  refine (Parser.yields_integer _ raw.cksum).followed before fun _ before => ?_
  refine (Parser.yields_integer _ raw.src).followed before fun _ before => ?_
  refine (Parser.yields_integer _ raw.dst).followed before fun middle before => ?_
  dsimp only
  rw [Parser.setErrorIf_bind, Parser.setErrorIf_bind, Parser.hasError_bind]
  dsimp only
  rw [before.fine, Bool.false_or]
  by_cases version : raw.firstByte >>> 4 = 4
  · by_cases short : raw.firstByte &&& 0x0f < 5
    · rw [decide_eq_true short, Bool.or_true, if_pos rfl]
      refine ⟨_, _, rfl, ?_, fun fine => nomatch fine⟩
      exact iff_of_false Bool.noConfusion fun checked => UInt8.not_le.mpr short checked.2.1
    · rw [decide_eq_false short, decide_eq_false (not_not.mpr version), Bool.or_false,
        if_neg Bool.false_ne_true]
      have long : 5 ≤ raw.read.hlen := UInt8.not_lt.mp short
      refine ⟨_, _, @verify_eq raw.read version _ _, ?_, ?_⟩
      · change decide _ = false ↔ _
        rw [decide_eq_false_iff_not, not_not]
        exact ⟨fun agrees => ⟨version, long, agrees⟩, fun checked => checked.2.2⟩
      · intro fine
        have agrees : raw.read.checksum = raw.read.cksum := not_not.mp (of_decide_eq_false fine)
        refine ⟨by rw [agrees], middle, before, ?_⟩
        simp only [agrees, ne_eq, not_true_eq_false, decide_false, Bool.or_false]
        rw [← before.fine]
        rfl
  · rw [decide_eq_true version, Bool.true_or, if_pos rfl]
    refine ⟨_, _, rfl, ?_, fun fine => nomatch fine⟩
    exact iff_of_false Bool.noConfusion fun checked => version checked.1

/-- The words of a header that is written. -/
def raw (header : IPv4Header) : RawHeader :=
  ⟨header.firstByte, header.tos, header.len, header.id, header.foVal, header.ttl, header.proto,
    header.cksum, header.src, header.dst⟩

theorem WellFormed.read_raw {header : IPv4Header} (formed : header.WellFormed) :
    header.raw.read = header := by
  have ver := (firstByte_ver formed.version).trans formed.version.symm
  have hlen := (firstByte_hlen formed.version).trans formed.hlen
  have offset := header.foVal_offset.trans formed.offset
  rw [raw, RawHeader.read]
  dsimp only
  rw [ver, hlen, header.foVal_df, header.foVal_mf, offset]

/-- A well-formed header is read back, and then its options are skipped. -/
theorem parse_of_before (old : IPv4Header) {header : IPv4Header} (formed : header.WellFormed)
    {parser : Parser} {bytes rest : List UInt8}
    (before : parser.Before (header.encoding ++ bytes) rest) :
    ∃ result final, old.parse parser = .ok (result, final) ∧ result = header ∧
      ∃ middle : Parser, middle.Before bytes rest ∧
        final = middle.skipped (header.hlen.toNat * 4 - LENGTH) := by
  obtain ⟨result, final, ran, fine, accepted⟩ := parse_of_raw old header.raw before
  rw [formed.read_raw] at accepted
  have checked : header.raw.Checked := by
    rw [RawHeader.Checked, formed.read_raw]
    exact ⟨formed.version, formed.long, formed.checked⟩
  exact ⟨result, final, ran, accepted (fine.mpr checked)⟩

/-! ## What was accepted -/

/-- What the last steps have verified. -/
theorem verified_ok {read header : IPv4Header} {count : Nat} {parser final : Parser}
    (version : read.ver = 4)
    (ran : (do
      Parser.removePrefix count
      let checked ← read.computeChecksum
      if checked.cksum ≠ read.cksum then Parser.setError
      return checked : ParseM IPv4Header) parser = .ok (header, final))
    (fine : final.error = false) :
    header = read ∧ read.checksum = read.cksum ∧ final = parser.skipped count := by
  cases (verify_eq version count parser).symm.trans ran
  obtain ⟨unfailed, agrees⟩ := Bool.or_eq_false_iff.mp fine
  replace agrees : read.checksum = read.cksum := not_not.mp (of_decide_eq_false agrees)
  refine ⟨by rw [agrees], agrees, ?_⟩
  simp only [agrees, ne_eq, not_true_eq_false, decide_false, Bool.or_false]
  rfl

/-- What the parser leaves of an accepted header. -/
theorem parse_ok {old header : IPv4Header} {parser final : Parser}
    (ran : old.parse parser = .ok (header, final)) (fine : final.error = false) :
    header.WellFormed ∧ 20 ≤ parser.input.remaining.length ∧
      header.hlen = decode UInt8 parser.input.remaining &&& 0x0f ∧
      header.len = decode UInt16 (parser.input.remaining.drop 2) ∧
      final.input.remaining = parser.input.remaining.drop (header.hlen.toNat * 4) := by
  rw [parse] at ran
  obtain ⟨firstByte, read1, ran1, ran⟩ := bind_eq_ok.mp ran
  obtain ⟨tos, read2, ran2, ran⟩ := bind_eq_ok.mp ran
  obtain ⟨len, read3, ran3, ran⟩ := bind_eq_ok.mp ran
  obtain ⟨id, read4, ran4, ran⟩ := bind_eq_ok.mp ran
  obtain ⟨foVal, read5, ran5, ran⟩ := bind_eq_ok.mp ran
  obtain ⟨ttl, read6, ran6, ran⟩ := bind_eq_ok.mp ran
  obtain ⟨proto, read7, ran7, ran⟩ := bind_eq_ok.mp ran
  obtain ⟨cksum, read8, ran8, ran⟩ := bind_eq_ok.mp ran
  obtain ⟨src, read9, ran9, ran⟩ := bind_eq_ok.mp ran
  obtain ⟨dst, read, ran10, ran⟩ := bind_eq_ok.mp ran
  dsimp only at ran
  rw [Parser.setErrorIf_bind, Parser.setErrorIf_bind, Parser.hasError_bind] at ran
  dsimp only at ran
  have checked : (read.error || decide (firstByte >>> 4 ≠ 4) ||
      decide (firstByte &&& 0x0f < 5)) = false := by
    cases failed : (read.error || decide (firstByte >>> 4 ≠ 4) ||
        decide (firstByte &&& 0x0f < 5)) with
    | false => rfl
    | true =>
        rw [failed, if_pos rfl] at ran
        cases ran
        exact absurd fine Bool.noConfusion
  rw [checked, if_neg Bool.false_ne_true] at ran
  obtain ⟨checked, short⟩ := Bool.or_eq_false_iff.mp checked
  obtain ⟨unfailed, version⟩ := Bool.or_eq_false_iff.mp checked
  replace version := not_not.mp (of_decide_eq_false version)
  obtain ⟨rfl, agrees, rfl⟩ := verified_ok version ran fine
  obtain ⟨fine9, enough, -, left10⟩ := Parser.integer_ok ran10 unfailed
  obtain ⟨fine8, -, -, left9⟩ := Parser.integer_ok ran9 fine9
  obtain ⟨fine7, -, -, left8⟩ := Parser.integer_ok ran8 fine8
  obtain ⟨fine6, -, -, left7⟩ := Parser.integer_ok ran7 fine7
  obtain ⟨fine5, -, -, left6⟩ := Parser.integer_ok ran6 fine6
  obtain ⟨fine4, -, -, left5⟩ := Parser.integer_ok ran5 fine5
  obtain ⟨fine3, -, -, left4⟩ := Parser.integer_ok ran4 fine4
  obtain ⟨fine2, -, lenIs, left3⟩ := Parser.integer_ok ran3 fine3
  obtain ⟨fine1, -, -, left2⟩ := Parser.integer_ok ran2 fine2
  obtain ⟨-, -, firstIs, left1⟩ := Parser.integer_ok ran1 fine1
  have left : read.input.remaining = parser.input.remaining.drop 20 := by
    rw [left10, left9, left8, left7, left6, left5, left4, left3, left2, left1]
    simp only [List.drop_drop]
    rfl
  have long : 5 ≤ (firstByte &&& 0x0f).toNat := by
    have notShort := of_decide_eq_false short
    rw [UInt8.lt_iff_toNat_lt] at notShort
    exact Nat.not_lt.mp notShort
  have lengthy : 20 ≤ parser.input.remaining.length := by
    rw [left9, left8, left7, left6, left5, left4, left3, left2, left1] at enough
    simp only [List.length_drop] at enough
    change 4 ≤ _ - 1 - 1 - 2 - 2 - 2 - 1 - 1 - 2 - 4 at enough
    omega
  refine ⟨⟨version, UInt8.le_iff_toNat_le.mpr long, ?_, ?_, agrees⟩, lengthy, ?_, ?_, ?_⟩
  · change firstByte &&& 0x0f &&& 0xf = firstByte &&& 0x0f
    rw [UInt8.and_assoc, UInt8.and_self]
  · change foVal &&& 0x1fff &&& 0x1fff = foVal &&& 0x1fff
    rw [UInt16.and_assoc, UInt16.and_self]
  · change firstByte &&& 0x0f = _
    rw [firstIs]
  · change len = _
    rw [lenIs, left2, left1, List.drop_drop]
    rfl
  · rw [Parser.remaining_skipped]
    change read.input.remaining.drop ((firstByte &&& 0x0f).toNat * 4 - 20) = _
    have past : 20 + ((firstByte &&& 0x0f).toNat * 4 - 20) = (firstByte &&& 0x0f).toNat * 4 := by
      omega
    rw [left, List.drop_drop, past]

/-- What the first byte says of the header, in bytes. -/
def announcedLength (bytes : List UInt8) : Nat := (decode UInt8 bytes &&& 0x0f).toNat * 4

end IPv4Header

namespace IPv4Datagram

/-- The payload of an accepted datagram is everything after its header. -/
theorem parse_ok {old datagram : IPv4Datagram} {buffers : List Buffer}
    (parsed : Wire.parse old.parse buffers = .ok (some datagram)) :
    datagram.header.WellFormed ∧ 20 ≤ buffers.flatten.length ∧
      datagram.header.hlen.toNat * 4 = IPv4Header.announcedLength buffers.flatten ∧
      datagram.header.len = decode UInt16 (buffers.flatten.drop 2) ∧
      datagram.payload.flatten = buffers.flatten.drop (datagram.header.hlen.toNat * 4) := by
  obtain ⟨final, ran, fine⟩ := parse_eq_some.mp parsed
  obtain ⟨header, middle, ranHeader, ran⟩ := bind_eq_ok.mp ran
  obtain ⟨payload, same, dumped, ⟨⟩⟩ := bind_eq_ok.mp ran
  cases dumped
  have accepted := IPv4Header.parse_ok ranHeader fine
  rw [Parser.new, BufferList.remaining_ofBuffers] at accepted
  obtain ⟨formed, long, hlen, len, left⟩ := accepted
  have lengthy : header.hlen.toNat * 4 = IPv4Header.announcedLength buffers.flatten := by
    rw [hlen, IPv4Header.announcedLength]
  exact ⟨formed, long, lengthy, len, (BufferList.dumpAll_flatten _).trans left⟩

/-- The header has the first buffer to itself. -/
theorem serialize_eq {datagram : IPv4Datagram} (version : datagram.header.ver = 4) :
    ∃ buffers, Wire.serialize datagram.serialize = .ok (datagram.header.encoding :: buffers) ∧
      buffers.flatten = datagram.payload.flatten ∧ buffers.head? = datagram.payload.head? := by
  obtain ⟨buffers, finished, same⟩ := Serializer.pushBuffers_finish
    ⟨[], datagram.header.encoding⟩ datagram.payload
  refine ⟨buffers, Fault.map_eq_ok.mpr ⟨_, ?_, finished⟩, same⟩
  exact Fault.bind_eq_ok.mpr ⟨_, IPv4Header.serialize_eq version Serializer.new, rfl⟩

/-- A well-formed header is read back from what was written, but as many bytes of the payload
are skipped as the header says it has options. -/
theorem parse_of_flatten (old : IPv4Datagram) {datagram : IPv4Datagram}
    (formed : datagram.header.WellFormed) {received : List Buffer} {count : Nat}
    (within : count ≤ datagram.payload.flatten.length)
    (flat : received.flatten = datagram.header.encoding ++ datagram.payload.flatten)
    (solid : Solid (IPv4Header.LENGTH + count) received) :
    ∃ again, Wire.parse old.parse received = .ok (some again) ∧
      again.header = datagram.header ∧
      again.payload.flatten =
        datagram.payload.flatten.drop (datagram.header.hlen.toNat * 4 - IPv4Header.LENGTH) ∧
      (datagram.header.hlen = 5 → Solid count again.payload) := by
  have before : (Parser.new received).Before
      (datagram.header.encoding ++ datagram.payload.flatten.take count)
      (datagram.payload.flatten.drop count) := by
    refine Parser.before_new ?_ ?_
    · rw [flat, List.append_assoc, List.take_append_drop]
    · rw [List.length_append, IPv4Header.encoding_length, List.length_take_of_le within]
      exact solid
  obtain ⟨header, final, ran, rfl, middle, after, rfl⟩ :=
    IPv4Header.parse_of_before old.header formed before
  refine ⟨⟨_, _⟩, parse_eq_some.mpr ⟨_, bind_eq_ok.mpr ⟨_, _, ran, rfl⟩, after.fine⟩, rfl, ?_, ?_⟩
  · rw [BufferList.dumpAll_flatten, Parser.remaining_skipped, after.remaining,
      List.take_append_drop]
  · intro plain
    have solidMiddle := after.solid
    rw [List.length_take_of_le within] at solidMiddle
    rw [plain]
    change Solid count (middle.input.removePrefix 0).dumpAll
    rw [BufferList.removePrefix_zero]
    exact BufferList.solid_dumpAll solidMiddle

end IPv4Datagram

end Minnow.Wire
