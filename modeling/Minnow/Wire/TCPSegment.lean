import Minnow.Transport.Messages
import Minnow.Wire.OnesComplement

/-!
# Segments
-/

namespace Minnow.Wire

open Minnow.Transport

structure UserDatagramInfo where
  srcPort : UInt16 := 0
  dstPort : UInt16 := 0
  cksum : UInt16 := 0
  deriving DecidableEq

structure TCPSegment where
  senderMessage : TCPSenderMessage := {}
  receiverMessage : TCPReceiverMessage := {}
  reset : Bool := false
  udinfo : UserDatagramInfo := {}
  deriving DecidableEq

namespace TCPSegment

/-- In 32-bit words. -/
def TCPHeaderMinLen : UInt32 := 5

/-- The checksum is verified on a copy of the parser.  What follows the data offset is cut off
even where the header is too short, but then the error is set. -/
def parse (segment : TCPSegment) (datagramLayerPseudoChecksum : UInt32) : ParseM TCPSegment := do
  let parser2 ← get
  let check := (InternetChecksum.new datagramLayerPseudoChecksum).add parser2.input.dumpAllBuffer
  if check.value ≠ 0 then
    Parser.setError
    return segment
  let srcPort ← Parser.integer segment.udinfo.srcPort
  let dstPort ← Parser.integer segment.udinfo.dstPort
  let seqno ← Parser.integer (0 : UInt32)
  let ackno ← Parser.integer seqno
  let octet ← Parser.integer (0 : UInt8)
  let dataOffset := octet >>> 4
  let flags ← Parser.integer octet
  let windowSize ← Parser.integer segment.receiverMessage.windowSize
  let cksum ← Parser.integer segment.udinfo.cksum
  let _urgent ← Parser.integer (0 : UInt16)
  if dataOffset.toUInt32 < TCPHeaderMinLen then Parser.setError
  Parser.removePrefix (dataOffset.toUInt32 * 4 - TCPHeaderMinLen * 4).toNat
  let payload ← Parser.allRemainingBuffer
  return {
    senderMessage :=
      ⟨⟨seqno⟩, flags &&& 0b00000010 != 0, payload, flags &&& 0b00000001 != 0⟩
    receiverMessage := ⟨if flags &&& 0b00010000 = 0 then none else some ⟨ackno⟩, windowSize⟩
    reset := flags &&& 0b00000100 != 0
    udinfo := ⟨srcPort, dstPort, cksum⟩ }

/-- The flags as one byte. -/
def flags (segment : TCPSegment) : UInt8 :=
  (if segment.receiverMessage.ackno.isSome then 0b00010000 else 0) |||
    (if segment.reset then 0b00000100 else 0) |||
    (if segment.senderMessage.SYN then 0b00000010 else 0) |||
    (if segment.senderMessage.FIN then 0b00000001 else 0)

def serialize (segment : TCPSegment) (serializer : Serializer) : Serializer :=
  serializer
    |>.integer segment.udinfo.srcPort
    |>.integer segment.udinfo.dstPort
    |>.integer segment.senderMessage.seqno.rawValue
    |>.integer (segment.receiverMessage.ackno.getD ⟨0⟩).rawValue
    |>.integer (TCPHeaderMinLen <<< 4).toUInt8
    |>.integer segment.flags
    |>.integer segment.receiverMessage.windowSize
    |>.integer segment.udinfo.cksum
    |>.integer (0 : UInt16)
    |>.pushBuffer segment.senderMessage.payload

def withChecksum (segment : TCPSegment) (cksum : UInt16) : TCPSegment :=
  { segment with udinfo := { segment.udinfo with cksum } }

def computeChecksum (segment : TCPSegment) (datagramLayerPseudoChecksum : UInt32) : TCPSegment :=
  let serializer := (segment.withChecksum 0).serialize Serializer.new
  let check := (InternetChecksum.new datagramLayerPseudoChecksum).addBuffers serializer.finish
  segment.withChecksum check.value

/-! ## The bytes of a segment -/

/-- What comes before the checksum. -/
def opening (segment : TCPSegment) : List UInt8 :=
  [encode segment.udinfo.srcPort, encode segment.udinfo.dstPort,
    encode segment.senderMessage.seqno.rawValue,
    encode (segment.receiverMessage.ackno.getD ⟨0⟩).rawValue,
    encode (TCPHeaderMinLen <<< 4).toUInt8, encode segment.flags,
    encode segment.receiverMessage.windowSize].flatten

def encoding (segment : TCPSegment) : List UInt8 :=
  segment.opening ++ (encode segment.udinfo.cksum ++ encode (0 : UInt16))

theorem opening_length (segment : TCPSegment) : segment.opening.length = 16 := by
  simp only [opening, List.flatten_cons, List.flatten_nil, List.length_append, encode_length,
    List.length_nil]
  rfl

@[simp] theorem encoding_length (segment : TCPSegment) : segment.encoding.length = 20 := by
  rw [encoding, List.length_append, List.length_append, opening_length, encode_length,
    encode_length]
  rfl

theorem serialize_eq (segment : TCPSegment) :
    (segment.serialize Serializer.new).finish =
      [segment.encoding, segment.senderMessage.payload, []] := by
  simp only [serialize, Serializer.finish, Serializer.flush, Serializer.pushBuffer,
    Serializer.integer, Serializer.new, encoding, opening, encode, List.flatten_cons,
    List.flatten_nil, List.append_assoc, List.nil_append, List.append_nil, List.cons_append]

/-! ## The checksum of a segment -/

theorem wordSum_encoding (segment : TCPSegment) (rest : List UInt8) :
    InternetChecksum.wordSum false (segment.encoding ++ rest) =
      InternetChecksum.wordSum false segment.opening + segment.udinfo.cksum.toNat +
        InternetChecksum.wordSum false rest := by
  have opening : segment.opening.length % 2 = 0 := by rw [opening_length]
  rw [encoding, List.append_assoc, List.append_assoc, InternetChecksum.wordSum_append opening,
    InternetChecksum.wordSum_append (encode_even _),
    InternetChecksum.wordSum_append (encode_even _), wordSum_encode, wordSum_encode]
  change _ + (_ + (0 + _)) = _
  omega

/-- Nothing overflows in the sum over a short segment. -/
theorem sum_toNat {pseudo : UInt32} {segment : TCPSegment} {payload : List UInt8}
    (short : pseudo.toNat + 65280 * (20 + payload.length) < 4294967296) :
    ((InternetChecksum.new pseudo).add (segment.encoding ++ payload)).sum.toNat =
      pseudo.toNat + InternetChecksum.wordSum false (segment.encoding ++ payload) := by
  apply InternetChecksum.add_toNat
  rw [List.length_append, encoding_length]
  exact short

/-- The checksum that was computed is verified. -/
theorem computeChecksum_verified {pseudo : UInt32} {segment : TCPSegment}
    (short : pseudo.toNat + 65280 * (20 + segment.senderMessage.payload.length) < 4294967296) :
    ((InternetChecksum.new pseudo).add ((segment.computeChecksum pseudo).encoding ++
      segment.senderMessage.payload)).value = 0 := by
  have computed : (segment.computeChecksum pseudo).udinfo.cksum =
      ((InternetChecksum.new pseudo).add ((segment.withChecksum 0).encoding ++
        segment.senderMessage.payload)).value := by
    change InternetChecksum.value _ = _
    rw [InternetChecksum.addBuffers_eq, serialize_eq, List.flatten_cons, List.flatten_cons,
      List.flatten_singleton, List.append_nil]
    rfl
  refine @InternetChecksum.value_eq_zero ((InternetChecksum.new pseudo).add
    ((segment.withChecksum 0).encoding ++ segment.senderMessage.payload)) _ ?_
  rw [sum_toNat short, ← computed, sum_toNat short, wordSum_encoding, wordSum_encoding]
  change pseudo.toNat + (InternetChecksum.wordSum false segment.opening + _ + _) =
    pseudo.toNat + (InternetChecksum.wordSum false segment.opening + 0 + _) + _
  omega

/-! ## Reading what was written -/

section Flags

variable (segment : TCPSegment)

theorem flags_ack : segment.flags &&& 0b00010000 = 0 ↔ segment.receiverMessage.ackno = none := by
  rw [← Option.isSome_eq_false_iff.trans Option.isNone_iff_eq_none, flags]
  cases segment.receiverMessage.ackno.isSome <;> cases segment.reset <;>
    cases segment.senderMessage.SYN <;> cases segment.senderMessage.FIN <;> decide

theorem flags_reset : (segment.flags &&& 0b00000100 != 0) = segment.reset := by
  rw [flags]
  cases segment.receiverMessage.ackno.isSome <;> cases segment.reset <;>
    cases segment.senderMessage.SYN <;> cases segment.senderMessage.FIN <;> rfl

theorem flags_SYN : (segment.flags &&& 0b00000010 != 0) = segment.senderMessage.SYN := by
  rw [flags]
  cases segment.receiverMessage.ackno.isSome <;> cases segment.reset <;>
    cases segment.senderMessage.SYN <;> cases segment.senderMessage.FIN <;> rfl

theorem flags_FIN : (segment.flags &&& 0b00000001 != 0) = segment.senderMessage.FIN := by
  rw [flags]
  cases segment.receiverMessage.ackno.isSome <;> cases segment.reset <;>
    cases segment.senderMessage.SYN <;> cases segment.senderMessage.FIN <;> rfl

end Flags

/-- Which acknowledgement is read: none where the flag is not set. -/
theorem ackno_read (segment : TCPSegment) :
    (if segment.flags &&& 0b00010000 = 0 then none
      else some ⟨(segment.receiverMessage.ackno.getD ⟨0⟩).rawValue⟩) =
      segment.receiverMessage.ackno := by
  cases known : segment.receiverMessage.ackno with
  | none => rw [if_pos (segment.flags_ack.mpr known)]
  | some ackno =>
      have flagged : ¬ segment.flags &&& 0b00010000 = 0 := by
        rw [flags_ack, known]
        exact Option.some_ne_none ackno
      rw [if_neg flagged, Option.getD_some]

/-- A segment whose checksum is verified is read back whole. -/
theorem parse_of_before (old : TCPSegment) {segment : TCPSegment} {pseudo : UInt32}
    (verified : ((InternetChecksum.new pseudo).add
      (segment.encoding ++ segment.senderMessage.payload)).value = 0)
    {parser : Parser} (before : parser.Before segment.encoding segment.senderMessage.payload) :
    ∃ result final, old.parse pseudo parser = .ok (result, final) ∧
      result = segment ∧ final.error = false := by
  have whole : segment.encoding ++ segment.senderMessage.payload =
      parser.input.dumpAllBuffer := by
    rw [BufferList.dumpAllBuffer_eq, before.remaining]
  rw [whole] at verified
  simp only [encoding, opening, List.flatten_cons, List.flatten_nil, List.append_assoc,
    List.append_nil] at before
  rw [parse, Parser.get_bind]
  dsimp only
  rw [if_neg (not_not.mpr verified)]
  refine (Parser.yields_integer _ segment.udinfo.srcPort).followed before fun _ before => ?_
  refine (Parser.yields_integer _ segment.udinfo.dstPort).followed before fun _ before => ?_
  refine (Parser.yields_integer _ segment.senderMessage.seqno.rawValue).followed before
    fun _ before => ?_
  refine (Parser.yields_integer _ (segment.receiverMessage.ackno.getD ⟨0⟩).rawValue).followed
    before fun _ before => ?_
  refine (Parser.yields_integer _ (TCPHeaderMinLen <<< 4).toUInt8).followed before
    fun _ before => ?_
  refine (Parser.yields_integer _ segment.flags).followed before fun _ before => ?_
  refine (Parser.yields_integer _ segment.receiverMessage.windowSize).followed before
    fun _ before => ?_
  refine (Parser.yields_integer _ segment.udinfo.cksum).followed before fun _ before => ?_
  rw [← List.append_nil (encode (0 : UInt16))] at before
  refine (Parser.yields_integer _ (0 : UInt16)).followed before fun last before => ?_
  rw [ackno_read, flags_SYN, flags_FIN, flags_reset]
  have payload : (last.skipped 0).input.remaining = segment.senderMessage.payload := by
    rw [Parser.remaining_skipped, before.remaining]
    rfl
  refine ⟨segment, last.skipped 0, ?_, rfl, before.fine⟩
  change (Parser.removePrefix 0 >>= _) last = _
  rw [Parser.removePrefix_bind, Parser.allRemainingBuffer_bind, payload]
  rfl

theorem parse_of_flatten (old : TCPSegment) {segment : TCPSegment} {pseudo : UInt32}
    (verified : ((InternetChecksum.new pseudo).add
      (segment.encoding ++ segment.senderMessage.payload)).value = 0)
    {received : List Buffer}
    (flat : received.flatten = segment.encoding ++ segment.senderMessage.payload)
    (solid : Solid 20 received) :
    Wire.parse (old.parse pseudo) received = .ok (some segment) := by
  have before : (Parser.new received).Before segment.encoding segment.senderMessage.payload := by
    refine Parser.before_new flat ?_
    rw [encoding_length]
    exact solid
  obtain ⟨result, final, ran, rfl, fine⟩ := parse_of_before old verified before
  exact parse_eq_some.mpr ⟨final, ran, fine⟩

/-! ## What was accepted -/

/-- The payload of an accepted segment is the end of what was left. -/
theorem parse_ok {old segment : TCPSegment} {pseudo : UInt32} {parser final : Parser}
    (ran : old.parse pseudo parser = .ok (segment, final)) (fine : final.error = false) :
    ∃ start, segment.senderMessage.payload = parser.input.remaining.drop start := by
  rw [parse, Parser.get_bind] at ran
  dsimp only at ran
  by_cases wrong : ((InternetChecksum.new pseudo).add parser.input.dumpAllBuffer).value ≠ 0
  · rw [if_pos wrong] at ran
    cases ran
    exact absurd fine Bool.noConfusion
  rw [if_neg wrong] at ran
  obtain ⟨srcPort, read1, ran1, ran⟩ := bind_eq_ok.mp ran
  obtain ⟨dstPort, read2, ran2, ran⟩ := bind_eq_ok.mp ran
  obtain ⟨seqno, read3, ran3, ran⟩ := bind_eq_ok.mp ran
  obtain ⟨ackno, read4, ran4, ran⟩ := bind_eq_ok.mp ran
  obtain ⟨octet, read5, ran5, ran⟩ := bind_eq_ok.mp ran
  obtain ⟨flags, read6, ran6, ran⟩ := bind_eq_ok.mp ran
  obtain ⟨windowSize, read7, ran7, ran⟩ := bind_eq_ok.mp ran
  obtain ⟨cksum, read8, ran8, ran⟩ := bind_eq_ok.mp ran
  obtain ⟨urgent, read, ran9, ran⟩ := bind_eq_ok.mp ran
  rw [Parser.setErrorIf_bind, Parser.removePrefix_bind, Parser.allRemainingBuffer_bind,
    Parser.remaining_skipped] at ran
  cases ran
  obtain ⟨unfailed, -⟩ := Bool.or_eq_false_iff.mp fine
  obtain ⟨fine8, -, -, left9⟩ := Parser.integer_ok ran9 unfailed
  obtain ⟨fine7, -, -, left8⟩ := Parser.integer_ok ran8 fine8
  obtain ⟨fine6, -, -, left7⟩ := Parser.integer_ok ran7 fine7
  obtain ⟨fine5, -, -, left6⟩ := Parser.integer_ok ran6 fine6
  obtain ⟨fine4, -, -, left5⟩ := Parser.integer_ok ran5 fine5
  obtain ⟨fine3, -, -, left4⟩ := Parser.integer_ok ran4 fine4
  obtain ⟨fine2, -, -, left3⟩ := Parser.integer_ok ran3 fine3
  obtain ⟨fine1, -, -, left2⟩ := Parser.integer_ok ran2 fine2
  obtain ⟨-, -, -, left1⟩ := Parser.integer_ok ran1 fine1
  dsimp only
  rw [left9, left8, left7, left6, left5, left4, left3, left2, left1]
  simp only [List.drop_drop]
  exact ⟨_, rfl⟩

end TCPSegment

end Minnow.Wire
