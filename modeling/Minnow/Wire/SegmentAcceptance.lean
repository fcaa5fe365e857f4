import Minnow.Wire.InternetSum
import Minnow.Wire.Scanning

/-!
# Which segments are accepted

The checksum, the length of the fixed part and the least data offset are checked.  That the
options which the data offset announces are there is not.
-/

namespace Minnow.Wire

namespace TCPSegment

/-- In 32-bit words. -/
def dataOffset (bytes : List UInt8) : UInt8 := decode UInt8 (bytes.drop 12) >>> 4

def headerLength (bytes : List UInt8) : Nat := (dataOffset bytes).toNat * 4

theorem lt_headerMinLen_iff (offset : UInt8) : offset.toUInt32 < TCPHeaderMinLen ↔ ¬ 5 ≤ offset := by
  rw [UInt32.lt_iff_toNat_lt, UInt8.toNat_toUInt32, UInt8.not_le, UInt8.lt_iff_toNat_lt]
  rfl

/-- Where the payload begins, as the parser computes it behind the twenty bytes it has read. -/
theorem headerLength_eq {bytes : List UInt8} (least : 5 ≤ dataOffset bytes) :
    20 + ((dataOffset bytes).toUInt32 * 4 - TCPHeaderMinLen * 4).toNat = headerLength bytes := by
  have low : 5 ≤ (dataOffset bytes).toNat := UInt8.le_iff_toNat_le.mp least
  have high := (dataOffset bytes).toNat_lt
  have product : ((dataOffset bytes).toUInt32 * 4).toNat = (dataOffset bytes).toNat * 4 := by
    rw [UInt32.toNat_mul, UInt8.toNat_toUInt32]
    change (dataOffset bytes).toNat * 4 % 4294967296 = _
    omega
  have past : TCPHeaderMinLen * 4 ≤ (dataOffset bytes).toUInt32 * 4 := by
    rw [UInt32.le_iff_toNat_le, product]
    change 20 ≤ _
    omega
  rw [UInt32.toNat_sub_of_le _ _ past, product, headerLength]
  change 20 + (_ - 20) = _
  omega

/-- The parser returns on all buffers that it can read.  What it accepts has passed three checks,
and its payload is what the data offset leaves. -/
theorem parse_returns (old : TCPSegment) (pseudo : UInt32) {buffers : List Buffer}
    (readable : Readable 20 buffers) :
    ∃ segment final, old.parse pseudo (Parser.new buffers) = .ok (segment, final) ∧
      (final.error = false ↔
        ((InternetChecksum.new pseudo).add buffers.flatten).value = 0 ∧
          20 ≤ buffers.flatten.length ∧ 5 ≤ dataOffset buffers.flatten) ∧
      (final.error = false →
        segment.senderMessage.payload = buffers.flatten.drop (headerLength buffers.flatten)) := by
  have whole : (Parser.new buffers).input.dumpAllBuffer = buffers.flatten :=
    (BufferList.dumpAllBuffer_eq _).trans (BufferList.remaining_ofBuffers buffers)
  rw [parse, Parser.get_bind, whole]
  dsimp only
  by_cases wrong : ((InternetChecksum.new pseudo).add buffers.flatten).value ≠ 0
  · rw [if_pos wrong]
    refine ⟨_, _, rfl, iff_of_false Bool.noConfusion ?_, fun fine => Bool.noConfusion fine⟩
    exact fun verified => wrong verified.1
  rw [if_neg wrong]
  have scanned := Parser.scanned_new readable
  refine scanned.followed _ 18 fun _ _ scanned _ => ?_
  refine scanned.followed _ 16 fun _ _ scanned _ => ?_
  refine scanned.followed _ 12 fun _ _ scanned _ => ?_
  refine scanned.followed _ 8 fun _ _ scanned _ => ?_
  refine scanned.followed _ 7 fun octet _ scanned octetIs => ?_
  refine scanned.followed _ 6 fun _ _ scanned _ => ?_
  refine scanned.followed _ 4 fun _ _ scanned _ => ?_
  refine scanned.followed _ 2 fun _ _ scanned _ => ?_
  refine scanned.followed _ 0 fun _ last scanned _ => ?_
  have read : Parser.Scanned buffers.flatten 20 0 last := scanned
  have offsetIs : 20 ≤ buffers.flatten.length → octet >>> 4 = dataOffset buffers.flatten := by
    intro long
    rw [octetIs (Nat.le_trans (by decide) long)]
    rfl
  rw [Parser.setErrorIf_bind, Parser.removePrefix_bind, Parser.allRemainingBuffer_bind,
    Parser.remaining_skipped]
  refine ⟨_, _, rfl, ?_, ?_⟩
  · change (last.error || decide ((octet >>> 4).toUInt32 < TCPHeaderMinLen)) = false ↔ _
    rw [Bool.or_eq_false_iff, read.error, decide_eq_false_iff_not, decide_eq_false_iff_not,
      lt_headerMinLen_iff, not_not, Nat.not_lt]
    constructor
    · rintro ⟨long, least⟩
      exact ⟨not_not.mp wrong, long, offsetIs long ▸ least⟩
    · rintro ⟨-, long, least⟩
      exact ⟨long, (offsetIs long).symm ▸ least⟩
  · intro fine
    obtain ⟨unfailed, least⟩ := Bool.or_eq_false_iff.mp fine
    rw [read.error, decide_eq_false_iff_not, Nat.not_lt] at unfailed
    rw [decide_eq_false_iff_not, lt_headerMinLen_iff, not_not, offsetIs unfailed] at least
    dsimp only
    rw [read.remaining unfailed, List.drop_drop, offsetIs unfailed]
    exact congrArg (List.drop · buffers.flatten) (headerLength_eq least)

/-! ## Acceptance -/

def Accepts (old : TCPSegment) (pseudo : UInt32) (buffers : List Buffer) : Prop :=
  ∃ segment, Wire.parse (old.parse pseudo) buffers = .ok (some segment)

/-- The ones'-complement sum over the pseudo-header and all bytes is full. -/
def Verifies (pseudo : UInt32) (bytes : List UInt8) : Prop :=
  InternetChecksum.onesSum pseudo bytes = 0xffff

/-- What a segment has to be: verified, and long enough for the header it announces. -/
def Proper (pseudo : UInt32) (bytes : List UInt8) : Prop :=
  Verifies pseudo bytes ∧ 20 ≤ bytes.length ∧ 5 ≤ dataOffset bytes ∧
    headerLength bytes ≤ bytes.length

/-- A verified segment announces options past its end. -/
def Overruns (pseudo : UInt32) (bytes : List UInt8) : Prop :=
  Verifies pseudo bytes ∧ 20 ≤ bytes.length ∧ 5 ≤ dataOffset bytes ∧
    bytes.length < headerLength bytes

instance (pseudo : UInt32) (bytes : List UInt8) : Decidable (Verifies pseudo bytes) :=
  inferInstanceAs (Decidable (_ = _))

instance (pseudo : UInt32) (bytes : List UInt8) : Decidable (Proper pseudo bytes) :=
  inferInstanceAs (Decidable (_ ∧ _))

variable {old : TCPSegment} {pseudo : UInt32} {buffers : List Buffer}

theorem verifies_iff {bytes : List UInt8} (small : pseudo.toNat < 2 ^ 20)
    (short : bytes.length ≤ 65535) :
    ((InternetChecksum.new pseudo).add bytes).value = 0 ↔ Verifies pseudo bytes := by
  have least := (InternetChecksum.stands_onesSum pseudo bytes).le
  rw [InternetChecksum.value_eq_complement (by omega), Verifies, ← UInt16.toNat_inj,
    UInt16.toNat_not, UInt16.toNat_ofNat']
  change 65536 - 1 - _ % 65536 = 0 ↔ _
  omega

/-- The end of the header is not checked against the end of the bytes. -/
theorem accepts_iff (readable : Readable 20 buffers) (small : pseudo.toNat < 2 ^ 20)
    (short : buffers.flatten.length ≤ 65535) : old.Accepts pseudo buffers ↔
      Verifies pseudo buffers.flatten ∧ 20 ≤ buffers.flatten.length ∧
        5 ≤ dataOffset buffers.flatten := by
  obtain ⟨segment, final, ran, fine, -⟩ := parse_returns old pseudo readable
  rw [← verifies_iff small short, ← fine]
  constructor
  · rintro ⟨other, parsed⟩
    obtain ⟨last, alsoRan, unfailed⟩ := parse_eq_some.mp parsed
    cases alsoRan.symm.trans ran
    exact unfailed
  · intro unfailed
    exact ⟨segment, parse_eq_some.mpr ⟨final, ran, unfailed⟩⟩

theorem payload_of_accepted (readable : Readable 20 buffers) {segment : TCPSegment}
    (parsed : Wire.parse (old.parse pseudo) buffers = .ok (some segment)) :
    segment.senderMessage.payload = buffers.flatten.drop (headerLength buffers.flatten) := by
  obtain ⟨other, final, ran, -, payload⟩ := parse_returns old pseudo readable
  obtain ⟨last, alsoRan, unfailed⟩ := parse_eq_some.mp parsed
  cases alsoRan.symm.trans ran
  exact payload unfailed

/-- For every input, the parser accepts just the proper segments, each with its payload, if and
only if the input does not announce options past its end. -/
theorem acceptance_iff_within (old : TCPSegment) (pseudo : UInt32) (buffers : List Buffer)
    (readable : Readable 20 buffers) (small : pseudo.toNat < 2 ^ 20)
    (short : buffers.flatten.length ≤ 65535) :
    ((old.Accepts pseudo buffers ↔ Proper pseudo buffers.flatten) ∧
        ∀ segment, Wire.parse (old.parse pseudo) buffers = .ok (some segment) →
          segment.senderMessage.payload = buffers.flatten.drop (headerLength buffers.flatten)) ↔
      ¬ Overruns pseudo buffers.flatten := by
  rw [accepts_iff readable small short]
  constructor
  · rintro ⟨agrees, -⟩ ⟨verified, long, least, past⟩
    obtain ⟨-, -, -, within⟩ := agrees.mp ⟨verified, long, least⟩
    exact absurd past (Nat.not_lt.mpr within)
  · intro within
    refine ⟨⟨?_, ?_⟩, fun segment => payload_of_accepted readable⟩
    · rintro ⟨verified, long, least⟩
      exact ⟨verified, long, least, Nat.not_lt.mp fun past => within ⟨verified, long, least, past⟩⟩
    · rintro ⟨verified, long, least, -⟩
      exact ⟨verified, long, least⟩

/-- Six words of header are announced, and five are there. -/
def overrunning : List UInt8 :=
  [0, 0, 0, 0, 0, 0, 0, 0, 0, 0, 0, 0, 0x60, 0, 0, 0, 0x9f, 0xff, 0, 0]

/-- The same with a word of options. -/
def optioned : List UInt8 :=
  [0, 0, 0, 0, 0, 0, 0, 0, 0, 0, 0, 0, 0x60, 0, 0, 0, 0x9f, 0xff, 0, 0, 0, 0, 0, 0]

theorem acceptance_iff_within_optioned :
    ({} : TCPSegment).Accepts 0 [optioned] ↔ Proper 0 optioned :=
  ((acceptance_iff_within {} 0 [optioned] (readable_single 20 optioned) (by decide)
    (by decide)).mpr (fun past => absurd past.2.2.2 (by decide))).1

theorem acceptance_fails_overrunning :
    ({} : TCPSegment).Accepts 0 [overrunning] ∧ ¬ Proper 0 overrunning ∧
      overrunning.length < headerLength overrunning := by
  rw [accepts_iff (readable_single 20 overrunning) (by decide) (by decide)]
  decide

end TCPSegment

end Minnow.Wire
