import Minnow.Wire.IPv4Parsing
import Minnow.Wire.OnesComplement
import Mathlib.Tactic.IntervalCases

/-!
# Which headers are accepted

The parser sums a copy that it has written of the fields it has read.  The reserved flag and
the options are not among them, so it accepts a header whatever these say.
-/

namespace Minnow.Wire

open UnsignedIntegral

namespace IPv4Header

namespace RawHeader

/-- The words at the front of the bytes. -/
def ofBytes (bytes : List UInt8) : RawHeader where
  firstByte := decode UInt8 bytes
  tos := decode UInt8 (bytes.drop 1)
  len := decode UInt16 (bytes.drop 2)
  id := decode UInt16 (bytes.drop 4)
  foVal := decode UInt16 (bytes.drop 6)
  ttl := decode UInt8 (bytes.drop 8)
  proto := decode UInt8 (bytes.drop 9)
  cksum := decode UInt16 (bytes.drop 10)
  src := decode UInt32 (bytes.drop 12)
  dst := decode UInt32 (bytes.drop 16)

theorem encoding_ofBytes {bytes : List UInt8} (long : 20 ≤ bytes.length) :
    (ofBytes bytes).encoding ++ bytes.drop 20 = bytes := by
  have enough : ∀ skip count, skip + count ≤ 20 → count ≤ (bytes.drop skip).length := by
    intro skip count within
    rw [List.length_drop]
    omega
  have dst := encode_decode_uint32 (enough 16 4 (by decide))
  have src := encode_decode_uint32 (enough 12 4 (by decide))
  have cksum := encode_decode_uint16 (enough 10 2 (by decide))
  have proto := encode_decode_uint8 (enough 9 1 (by decide))
  have ttl := encode_decode_uint8 (enough 8 1 (by decide))
  have foVal := encode_decode_uint16 (enough 6 2 (by decide))
  have id := encode_decode_uint16 (enough 4 2 (by decide))
  have len := encode_decode_uint16 (enough 2 2 (by decide))
  have tos := encode_decode_uint8 (enough 1 1 (by decide))
  have firstByte := encode_decode_uint8 (enough 0 1 (by decide))
  simp only [List.drop_drop, List.drop_zero, Nat.reduceAdd] at *
  simp only [encoding, ofBytes, List.flatten_cons, List.flatten_nil, List.append_assoc,
    List.append_nil]
  rw [dst, src, cksum, proto, ttl, foVal, id, len, tos, firstByte]

/-- The sum of the words. -/
theorem wordSum_encoding (raw : RawHeader) :
    InternetChecksum.wordSum false raw.encoding =
      raw.firstByte.toNat * 256 + raw.tos.toNat + raw.len.toNat + raw.id.toNat + raw.foVal.toNat +
        (raw.ttl.toNat * 256 + raw.proto.toNat) + raw.cksum.toNat +
        InternetChecksum.wordSum false (encode raw.src ++ encode raw.dst) := by
  have pair : ∀ first second : UInt8, ([first] ++ [second]).length % 2 = 0 := by simp
  have whole : raw.encoding = ([raw.firstByte] ++ [raw.tos]) ++ (encode raw.len ++ (encode raw.id ++
      (encode raw.foVal ++ (([raw.ttl] ++ [raw.proto]) ++ (encode raw.cksum ++
        (encode raw.src ++ encode raw.dst)))))) := by
    simp only [encoding, encode_uint8, List.flatten_cons, List.flatten_nil, List.append_assoc,
      List.append_nil]
  rw [whole, InternetChecksum.wordSum_append (pair _ _), InternetChecksum.wordSum_append (encode_even _),
    InternetChecksum.wordSum_append (encode_even _), InternetChecksum.wordSum_append (encode_even _),
    InternetChecksum.wordSum_append (pair _ _), InternetChecksum.wordSum_append (encode_even _),
    wordSum_encode, wordSum_encode, wordSum_encode, wordSum_encode]
  simp only [List.cons_append, List.nil_append, InternetChecksum.wordSum, Bool.not_false, if_true,
    Bool.false_eq_true, if_false, Nat.add_zero, Nat.add_assoc]

/-! ## What the copy says of the words -/

theorem firstByte_read (raw : RawHeader) : raw.read.firstByte = raw.firstByte := by
  have halves : (raw.firstByte >>> 4) <<< 4 ||| (raw.firstByte &&& 0x0f) = raw.firstByte := by
    apply UInt8.toBitVec_inj.mp
    ext i inside
    simp only [UInt8.toBitVec_or, UInt8.toBitVec_and, UInt8.toBitVec_shiftLeft,
      UInt8.toBitVec_shiftRight]
    interval_cases i <;> simp
  rw [IPv4Header.firstByte, read]
  dsimp only
  rw [UInt8.and_assoc, UInt8.and_self]
  exact halves

/-- A flag is written back as its bit. -/
theorem flag_and (word : UInt16) {mask : UInt16} {bit : Nat} (single : mask.toNat = 2 ^ bit) :
    (if (word &&& mask != 0) = true then mask else 0) = word &&& mask := by
  have masked : (word &&& mask).toNat = (word.toNat.testBit bit).toNat * 2 ^ bit := by
    rw [UInt16.toNat_and, single, Nat.and_two_pow]
  cases set : word.toNat.testBit bit with
  | false =>
      rw [set, Bool.toNat_false, Nat.zero_mul] at masked
      have none : word &&& mask = 0 := UInt16.toNat_inj.mp masked
      rw [none]
      rfl
  | true =>
      rw [set, Bool.toNat_true, Nat.one_mul, ← single] at masked
      have whole : word &&& mask = mask := UInt16.toNat_inj.mp masked
      have nonzero : mask ≠ 0 := by
        intro none
        rw [none] at single
        exact absurd single.symm (Nat.two_pow_pos bit).ne'
      rw [whole, if_pos (bne_iff_ne.mpr nonzero)]

/-- The reserved flag is dropped. -/
theorem foVal_read (raw : RawHeader) : raw.read.foVal = raw.foVal &&& 0x7fff := by
  have df := flag_and raw.foVal (show (0x4000 : UInt16).toNat = 2 ^ 14 from rfl)
  have mf := flag_and raw.foVal (show (0x2000 : UInt16).toNat = 2 ^ 13 from rfl)
  rw [IPv4Header.foVal, read]
  dsimp only
  rw [df, mf, UInt16.and_assoc raw.foVal, UInt16.and_self, UInt16.and_comm raw.foVal,
    UInt16.and_comm raw.foVal, UInt16.and_comm raw.foVal, ← or_and_uint16, ← or_and_uint16]
  exact UInt16.and_comm _ _

/-- What the reserved flag adds to the sum. -/
def reserved (raw : RawHeader) : Nat := if raw.foVal.toNat < 0x8000 then 0 else 0x8000

theorem foVal_toNat (raw : RawHeader) :
    raw.foVal.toNat = raw.read.foVal.toNat + raw.reserved := by
  have fits := raw.foVal.toNat_lt
  rw [foVal_read, reserved, UInt16.toNat_and, show (0x7fff : UInt16).toNat = 2 ^ 15 - 1 from rfl,
    Nat.and_two_pow_sub_one_eq_mod]
  split <;> omega

/-- The first byte alone makes the sum positive. -/
theorem wordSum_pos (raw : RawHeader) (version : raw.read.ver = 4) :
    0 < InternetChecksum.wordSum false raw.encoding := by
  have first : raw.firstByte.toNat ≠ 0 := by
    intro zero
    have none : raw.firstByte = 0 := UInt8.toNat_inj.mp zero
    rw [read, none] at version
    exact absurd version (show (0 : UInt8) >>> 4 ≠ 4 by decide)
  rw [wordSum_encoding]
  omega

/-- What is summed for the checksum. -/
theorem wordSum_read (raw : RawHeader) :
    InternetChecksum.wordSum false raw.read.withoutChecksum.encoding + raw.cksum.toNat + raw.reserved =
      InternetChecksum.wordSum false raw.encoding := by
  have copy := wordSum_encoding raw.read.withoutChecksum.raw
  have first : raw.read.withoutChecksum.raw.firstByte = raw.firstByte := raw.firstByte_read
  have flags : raw.read.withoutChecksum.raw.foVal = raw.read.foVal := rfl
  have none : raw.read.withoutChecksum.raw.cksum = 0 := rfl
  have whole := wordSum_encoding raw
  rw [foVal_toNat] at whole
  rw [first, flags, none] at copy
  change InternetChecksum.wordSum false raw.read.withoutChecksum.encoding = _ at copy
  rw [copy, whole]
  change _ + raw.tos.toNat + raw.len.toNat + raw.id.toNat + _ + (raw.ttl.toNat * 256 +
    raw.proto.toNat) + 0 + InternetChecksum.wordSum false (encode raw.src ++ encode raw.dst) + _ + _ = _
  omega

/-- The copy verifies just if the sum without the reserved flag does, except that the checksum
`0xffff` is never computed. -/
theorem checksum_read_iff (raw : RawHeader) (version : raw.read.ver = 4) :
    raw.read.checksum = raw.cksum ↔ raw.cksum ≠ 0xffff ∧
      (InternetChecksum.wordSum false raw.encoding - raw.reserved) % 65535 = 0 := by
  have split := raw.wordSum_read
  have sum := @InternetChecksum.sum_toNat raw.read.withoutChecksum.encoding (by
    rw [encoding_length]
    decide)
  have some : 0 < InternetChecksum.wordSum false raw.read.withoutChecksum.encoding := by
    have same : raw.read.withoutChecksum.raw.read.ver = 4 := by
      rw [read]
      change raw.read.firstByte >>> 4 = 4
      rw [firstByte_read]
      exact version
    exact raw.read.withoutChecksum.raw.wordSum_pos same
  rw [checksum, InternetChecksum.value_eq_iff (sum ▸ some), sum]
  have left : InternetChecksum.wordSum false raw.encoding - raw.reserved =
      InternetChecksum.wordSum false raw.read.withoutChecksum.encoding + raw.cksum.toNat := by
    omega
  rw [left]

end RawHeader

/-! ## The bytes of a header -/

/-- The input is accepted. -/
def Accepts (old : IPv4Header) (buffers : List Buffer) : Prop :=
  ∃ header, Wire.parse old.parse buffers = .ok (some header)

/-- If there are twenty bytes, the parser does not meet an empty buffer among them. -/
def Unbroken (buffers : List Buffer) : Prop :=
  LENGTH ≤ buffers.flatten.length → Solid LENGTH buffers

/-- The version is four, the header is no shorter than allowed and all there, and the checksum
of its bytes is right. -/
def Verifies (bytes : List UInt8) : Prop :=
  decode UInt8 bytes >>> 4 = 4 ∧ 5 ≤ decode UInt8 bytes &&& 0x0f ∧
    announcedLength bytes ≤ bytes.length ∧
    ((InternetChecksum.new 0).add (bytes.take (announcedLength bytes))).value = 0

/-- There are twenty bytes, the version is four and the header no shorter than allowed. -/
def Framed (bytes : List UInt8) : Prop :=
  LENGTH ≤ bytes.length ∧ decode UInt8 bytes >>> 4 = 4 ∧ 5 ≤ decode UInt8 bytes &&& 0x0f

/-- The checksum in its place. -/
def stored (bytes : List UInt8) : UInt16 := decode UInt16 (bytes.drop 10)

/-- The sum of the first twenty bytes without the reserved flag. -/
def seenSum (bytes : List UInt8) : Nat :=
  InternetChecksum.wordSum false (bytes.take LENGTH) - (RawHeader.ofBytes bytes).reserved

/-- The sum of the reserved flag and the options. -/
def unseenSum (bytes : List UInt8) : Nat :=
  (RawHeader.ofBytes bytes).reserved +
    InternetChecksum.wordSum false ((bytes.take (announcedLength bytes)).drop LENGTH)

/-- Nothing that the parser leaves out bears on the checksum, or the checksum is wrong both
with it and without it. -/
def Evident (bytes : List UInt8) : Prop :=
  ¬ Framed bytes ∨
    (announcedLength bytes ≤ bytes.length ∧ unseenSum bytes % 65535 = 0 ∧ stored bytes ≠ 0xffff) ∨
    ((seenSum bytes % 65535 ≠ 0 ∨ stored bytes = 0xffff) ∧
      (bytes.length < announcedLength bytes ∨ (seenSum bytes + unseenSum bytes) % 65535 ≠ 0))

instance (bytes : List UInt8) : Decidable (Framed bytes) := inferInstanceAs (Decidable (_ ∧ _))

instance (bytes : List UInt8) : Decidable (Verifies bytes) := inferInstanceAs (Decidable (_ ∧ _))

instance (bytes : List UInt8) : Decidable (Evident bytes) := inferInstanceAs (Decidable (_ ∨ _))

variable {old : IPv4Header} {buffers : List Buffer} {bytes : List UInt8}

theorem unbroken_singleton (buffer : Buffer) : Unbroken [buffer] := by
  intro long
  rw [List.flatten_singleton] at long
  exact solid_of_le long []

theorem encoding_eq_take (long : LENGTH ≤ bytes.length) :
    (RawHeader.ofBytes bytes).encoding = bytes.take LENGTH := by
  have whole := RawHeader.encoding_ofBytes long
  have twenty : (RawHeader.ofBytes bytes).encoding.length = LENGTH := by
    simp only [RawHeader.encoding, List.flatten_cons, List.flatten_nil, List.length_append,
      encode_length, List.length_nil]
    rfl
  calc (RawHeader.ofBytes bytes).encoding
      = ((RawHeader.ofBytes bytes).encoding ++ bytes.drop 20).take LENGTH :=
        (List.take_left' twenty).symm
    _ = bytes.take LENGTH := by rw [whole]

/-- What is accepted are twenty bytes that pass the checks. -/
theorem accepts_iff_checked (unbroken : Unbroken buffers) : old.Accepts buffers ↔
    LENGTH ≤ buffers.flatten.length ∧ (RawHeader.ofBytes buffers.flatten).Checked := by
  have forward : ∀ long : LENGTH ≤ buffers.flatten.length, ∃ result final,
      old.parse (Parser.new buffers) = .ok (result, final) ∧
        (final.error = false ↔ (RawHeader.ofBytes buffers.flatten).Checked) := by
    intro long
    have before : (Parser.new buffers).Before ((RawHeader.ofBytes buffers.flatten).encoding ++ [])
        (buffers.flatten.drop LENGTH) := by
      rw [List.append_nil, encoding_eq_take long]
      refine Parser.before_new (List.take_append_drop _ _).symm ?_
      rw [List.length_take_of_le long]
      exact unbroken long
    obtain ⟨result, final, ran, fine, -⟩ := parse_of_raw old (RawHeader.ofBytes buffers.flatten) before
    exact ⟨result, final, ran, fine⟩
  constructor
  · rintro ⟨header, parsed⟩
    obtain ⟨final, ran, fine⟩ := parse_eq_some.mp parsed
    obtain ⟨-, long, -⟩ := parse_ok ran fine
    rw [Parser.new, BufferList.remaining_ofBuffers] at long
    obtain ⟨result, other, again, checked⟩ := forward long
    cases ran.symm.trans again
    exact ⟨long, checked.mp fine⟩
  · rintro ⟨long, checked⟩
    obtain ⟨result, final, ran, fine⟩ := forward long
    exact ⟨result, parse_eq_some.mpr ⟨final, ran, fine.mpr checked⟩⟩

theorem announcedLength_le (bytes : List UInt8) : announcedLength bytes ≤ 60 := by
  have low : decode UInt8 bytes &&& 0x0f ≤ 0x0f := UInt8.and_le_right
  exact Nat.mul_le_mul_right 4 (UInt8.le_iff_toNat_le.mp low)

/-- The two sums make up that of the header. -/
theorem seenSum_add_unseenSum (framed : Framed bytes) : seenSum bytes + unseenSum bytes =
    InternetChecksum.wordSum false (bytes.take (announcedLength bytes)) := by
  obtain ⟨long, version, short⟩ := framed
  have enough : LENGTH ≤ announcedLength bytes :=
    Nat.mul_le_mul_right 4 (UInt8.le_iff_toNat_le.mp short)
  have even : (bytes.take LENGTH).length % 2 = 0 := by rw [List.length_take_of_le long]; rfl
  have front : (bytes.take (announcedLength bytes)).take LENGTH = bytes.take LENGTH := by
    rw [List.take_take, Nat.min_eq_left enough]
  have split := (RawHeader.ofBytes bytes).wordSum_read
  rw [encoding_eq_take long] at split
  have whole := List.take_append_drop LENGTH (bytes.take (announcedLength bytes))
  rw [front] at whole
  rw [← whole, InternetChecksum.wordSum_append even, seenSum, unseenSum]
  omega

/-- The whole header verifies just if both sums together do. -/
theorem verifies_iff_whole : Verifies bytes ↔
    Framed bytes ∧ announcedLength bytes ≤ bytes.length ∧
      (seenSum bytes + unseenSum bytes) % 65535 = 0 := by
  have fits := announcedLength_le bytes
  have verified : Framed bytes →
      (((InternetChecksum.new 0).add (bytes.take (announcedLength bytes))).value = 0 ↔
        (seenSum bytes + unseenSum bytes) % 65535 = 0) := by
    intro framed
    have sum := @InternetChecksum.sum_toNat (bytes.take (announcedLength bytes)) (by
      rw [List.length_take]
      omega)
    have some := (RawHeader.ofBytes bytes).wordSum_pos framed.2.1
    rw [encoding_eq_take framed.1] at some
    rw [← seenSum_add_unseenSum framed] at sum
    have positive : 0 < seenSum bytes + unseenSum bytes := by
      rw [seenSum, unseenSum]
      omega
    rw [InternetChecksum.value_eq_iff (sum ▸ positive), sum]
    exact and_iff_right (show (0 : UInt16) ≠ 0xffff by decide)
  constructor
  · rintro ⟨version, short, present, right⟩
    have long : LENGTH ≤ bytes.length :=
      Nat.le_trans (Nat.mul_le_mul_right 4 (UInt8.le_iff_toNat_le.mp short)) present
    have framed : Framed bytes := ⟨long, version, short⟩
    exact ⟨framed, present, (verified framed).mp right⟩
  · rintro ⟨framed, present, right⟩
    exact ⟨framed.2.1, framed.2.2, present, (verified framed).mpr right⟩

/-- The parser sees the sum without the reserved flag and the options. -/
theorem accepts_iff_seen (unbroken : Unbroken buffers) : old.Accepts buffers ↔
    Framed buffers.flatten ∧ stored buffers.flatten ≠ 0xffff ∧
      seenSum buffers.flatten % 65535 = 0 := by
  rw [accepts_iff_checked unbroken]
  constructor
  · rintro ⟨long, version, short, checked⟩
    have verified := ((RawHeader.ofBytes buffers.flatten).checksum_read_iff version).mp checked
    rw [encoding_eq_take long] at verified
    exact ⟨⟨long, version, short⟩, verified⟩
  · rintro ⟨⟨long, version, short⟩, verified⟩
    refine ⟨long, version, short, ?_⟩
    rw [(RawHeader.ofBytes buffers.flatten).checksum_read_iff version, encoding_eq_take long]
    exact verified

/-- The parser and the whole header agree on evident bytes, and on no others. -/
theorem agrees_iff_evident (unbroken : Unbroken buffers) :
    (old.Accepts buffers ↔ Verifies buffers.flatten) ↔ Evident buffers.flatten := by
  rw [accepts_iff_seen unbroken, verifies_iff_whole, Evident]
  by_cases framed : Framed buffers.flatten
  · simp only [framed, true_and, not_true_eq_false, false_or]
    by_cases full : stored buffers.flatten = 0xffff
    · simp only [full, ne_eq, not_true_eq_false, false_and, and_false, false_or, or_true, true_and,
        false_iff]
      omega
    · simp only [full, ne_eq, not_false_eq_true, true_and, and_true, or_false]
      omega
  · simp only [framed, false_and, not_false_eq_true, true_or]

/-! ## Flipped bits -/

variable {place bit : Nat}

theorem exists_flags (long : LENGTH ≤ bytes.length) : ∃ byte, bytes[6]? = some byte :=
  ⟨_, List.getElem?_eq_getElem (Nat.lt_of_lt_of_le (by decide) long)⟩

/-- Whether the reserved flag counts is said by one byte. -/
theorem reserved_ofBytes {byte : UInt8} (here : bytes[6]? = some byte) (long : LENGTH ≤ bytes.length) :
    (RawHeader.ofBytes bytes).reserved = if byte.toNat < 0x80 then 0 else 0x8000 := by
  obtain ⟨inside, rfl⟩ := List.getElem?_eq_some_iff.mp here
  have behind : 7 < bytes.length := Nat.lt_of_lt_of_le (by decide) long
  have high := bytes[6].toNat_lt
  have low := bytes[7].toNat_lt
  have word : (RawHeader.ofBytes bytes).foVal.toNat = bytes[6].toNat * 256 + bytes[7].toNat := by
    change (decode UInt16 (bytes.drop 6)).toNat = _
    rw [List.drop_eq_getElem_cons inside, List.drop_eq_getElem_cons behind, decode]
    change (UInt16.ofNat ((0 * 256 + bytes[6].toNat) * 256 + bytes[7].toNat)).toNat = _
    rw [UInt16.toNat_ofNat']
    omega
  rw [RawHeader.reserved, word]
  split_ifs <;> omega

theorem getElem?_flipBit_self {byte : UInt8} (here : bytes[place]? = some byte) :
    (flipBit bytes place bit)[place]? = some (byte ^^^ UInt8.ofNat (2 ^ bit)) := by
  rw [flipBit, List.getElem?_modify_eq, here]
  rfl

theorem reserved_flipBit (long : LENGTH ≤ bytes.length) (small : bit < 8)
    (other : place ≠ 6 ∨ bit ≠ 7) :
    (RawHeader.ofBytes (flipBit bytes place bit)).reserved =
      (RawHeader.ofBytes bytes).reserved := by
  obtain ⟨byte, here⟩ := exists_flags long
  have longer : LENGTH ≤ (flipBit bytes place bit).length := by
    rw [length_flipBit]
    exact long
  by_cases same : place = 6
  · rw [same, reserved_ofBytes (getElem?_flipBit_self here) (same ▸ longer),
      reserved_ofBytes here long, xor_bit_toNat _ small]
    have lower : 2 ^ bit < 2 ^ 7 := Nat.pow_lt_pow_right (by decide) (by omega)
    have high : (byte.toNat ^^^ 2 ^ bit) / 2 ^ 7 = byte.toNat / 2 ^ 7 := by
      rw [Nat.xor_div_two_pow, Nat.div_eq_of_lt lower, Nat.xor_zero]
    split_ifs <;> omega
  · have there : (flipBit bytes place bit)[6]? = some _ :=
      (List.getElem?_modify_ne _ _ same).trans here
    rw [reserved_ofBytes there longer, reserved_ofBytes here long]

/-- The reserved flag is not seen. -/
theorem seenSum_flipBit_reserved (long : LENGTH ≤ bytes.length) :
    seenSum (flipBit bytes 6 7) = seenSum bytes := by
  obtain ⟨byte, here⟩ := exists_flags long
  have longer : LENGTH ≤ (flipBit bytes 6 7).length := by
    rw [length_flipBit]
    exact long
  have front : (bytes.take LENGTH)[6]? = some byte :=
    (List.getElem?_take_of_lt (by decide)).trans here
  have moved := wordSum_modify false front fun byte => byte ^^^ UInt8.ofNat (2 ^ 7)
  have changed := xor_two_pow byte.toNat 7
  have small := byte.toNat_lt
  have fits := (byte ^^^ UInt8.ofNat (2 ^ 7)).toNat_lt
  have high : unitAt false 6 = 256 := rfl
  rw [seenSum, seenSum, take_flipBit, reserved_ofBytes (getElem?_flipBit_self here) longer,
    reserved_ofBytes here long]
  rw [high] at moved
  rw [xor_bit_toNat _ (by decide)] at moved fits ⊢
  change InternetChecksum.wordSum false (flipBit _ 6 7) + _ = _ at moved
  split_ifs <;> omega

theorem framed_flipBit (apart : 0 < place) : Framed (flipBit bytes place bit) ↔ Framed bytes := by
  have first := @decode_drop_flipBit UInt8 _ bytes 0 place bit (Or.inr apart)
  rw [List.drop_zero, List.drop_zero] at first
  rw [Framed, Framed, length_flipBit, first]

theorem stored_flipBit (apart : place < 10 ∨ 12 ≤ place) :
    stored (flipBit bytes place bit) = stored bytes :=
  decode_drop_flipBit bytes bit apart

/-- A bit that the parser sees spoils the sum. -/
theorem seenSum_flipBit (long : LENGTH ≤ bytes.length) (inside : place < LENGTH) (small : bit < 8)
    (other : place ≠ 6 ∨ bit ≠ 7) (right : seenSum bytes % 65535 = 0) :
    seenSum (flipBit bytes place bit) % 65535 ≠ 0 := by
  have front : place < (bytes.take LENGTH).length := by
    rw [List.length_take_of_le long]
    exact inside
  have spoiled := wordSum_flipBit_mod false front small
  have least := (RawHeader.ofBytes bytes).wordSum_read
  have leastFlipped := (RawHeader.ofBytes (flipBit bytes place bit)).wordSum_read
  rw [encoding_eq_take long] at least
  rw [encoding_eq_take ((length_flipBit bytes place bit).symm ▸ long), take_flipBit,
    reserved_flipBit long small other] at leastFlipped
  rw [seenSum] at right ⊢
  rw [take_flipBit, reserved_flipBit long small other]
  omega

/-- An accepted input with one bit flipped is rejected just if the bit is one of the first
twenty bytes and not the reserved flag. -/
theorem rejects_flipBit_iff (unbroken : Unbroken buffers) (accepted : old.Accepts buffers)
    (small : bit < 8) {flipped : List Buffer} (unbrokenFlipped : Unbroken flipped)
    (flat : flipped.flatten = flipBit buffers.flatten place bit) :
    ¬ old.Accepts flipped ↔ place < LENGTH ∧ (place ≠ 6 ∨ bit ≠ 7) := by
  obtain ⟨framed, unspent, right⟩ := (accepts_iff_seen unbroken).mp accepted
  rw [accepts_iff_seen unbrokenFlipped, flat]
  by_cases inside : place < LENGTH
  · by_cases flag : place = 6 ∧ bit = 7
    · obtain ⟨rfl, rfl⟩ := flag
      have kept : Framed (flipBit buffers.flatten 6 7) :=
        (framed_flipBit (Nat.succ_pos 5)).mpr framed
      have unseen : ¬ (6 < LENGTH ∧ (6 ≠ 6 ∨ 7 ≠ 7)) := by simp
      refine iff_of_false (not_not.mpr ⟨kept, ?_, ?_⟩) unseen
      · rw [stored_flipBit (Or.inl (by decide))]
        exact unspent
      · rw [seenSum_flipBit_reserved framed.1]
        exact right
    · have other : place ≠ 6 ∨ bit ≠ 7 := not_and_or.mp flag
      refine iff_of_true ?_ ⟨inside, other⟩
      rintro ⟨-, -, still⟩
      exact seenSum_flipBit framed.1 inside small other right still
  · have behind : LENGTH ≤ place := Nat.not_lt.mp inside
    have front : (buffers.flatten.take LENGTH).length ≤ place :=
      Nat.le_trans (List.length_take_le _ _) behind
    have positive : 0 < place := Nat.lt_of_lt_of_le (by decide) behind
    have kept : Framed (flipBit buffers.flatten place bit) := (framed_flipBit positive).mpr framed
    refine iff_of_false (not_not.mpr ⟨kept, ?_, ?_⟩) (fun both => inside both.1)
    · rw [stored_flipBit (Or.inr (Nat.le_trans (by decide) behind))]
      exact unspent
    · have apart : place ≠ 6 := fun same => inside (same ▸ by decide)
      rw [seenSum, take_flipBit, flipBit_of_le front,
        reserved_flipBit framed.1 small (Or.inl apart)]
      exact right

/-- For every input, acceptance tells whether the header that is there verifies just if the
input is evident.  A header that is accepted is rejected with any one bit flipped that the
parser sees, and with no other. -/
theorem acceptance_iff_evident (old : IPv4Header) (buffers : List Buffer)
    (unbroken : Unbroken buffers) :
    ((old.Accepts buffers ↔ Verifies buffers.flatten) ↔ Evident buffers.flatten) ∧
      (old.Accepts buffers → ∀ place bit, bit < 8 → ∀ flipped, Unbroken flipped →
        flipped.flatten = flipBit buffers.flatten place bit →
          (¬ old.Accepts flipped ↔ place < LENGTH ∧ (place ≠ 6 ∨ bit ≠ 7))) :=
  ⟨agrees_iff_evident unbroken, fun accepted _ _ small _ unbrokenFlipped flat =>
    rejects_flipBit_iff unbroken accepted small unbrokenFlipped flat⟩

/-- A header without options, and with the reserved flag set. -/
def flagged : List UInt8 :=
  [0x45, 0, 0, 0x14, 0, 0, 0xc0, 0, 0x80, 6, 0xfa, 0xe4, 0, 0, 0, 0, 0, 0, 0, 0]

theorem acceptance_iff_evident_flagged :
    (({} : IPv4Header).Accepts [flagged] ↔ Verifies flagged) ↔ Evident flagged :=
  (acceptance_iff_evident {} [flagged] (unbroken_singleton flagged)).1

/-- A header that counts a word of options, of which nothing has come. -/
def truncated : List UInt8 :=
  [0x46, 0, 0, 0x14, 0, 0, 0x40, 0, 0x80, 6, 0xf9, 0xe4, 0, 0, 0, 0, 0, 0, 0, 0]

/-- The flag is accepted though the checksum does not allow for it, and it is one bit away from
a header that verifies.  The truncated header is accepted too. -/
theorem acceptance_fails_flagged :
    ¬ (({} : IPv4Header).Accepts [flagged] ↔ Verifies flagged) ∧
      Verifies (flipBit flagged 6 7) ∧ ({} : IPv4Header).Accepts [flipBit flagged 6 7] ∧
      ({} : IPv4Header).Accepts [truncated] ∧ truncated.length < announcedLength truncated := by
  rw [accepts_iff_seen (unbroken_singleton _), accepts_iff_seen (unbroken_singleton _),
    accepts_iff_seen (unbroken_singleton _)]
  decide

end IPv4Header

end Minnow.Wire
