import Minnow.Foundation.EndAroundCarry
import Minnow.Wire.TCPSegment

/-!
# The sum that the checksum computes

The accumulator holds the sum of the words as a number, and folding it makes of it what
adding the words one by one with an end-around carry would have made.
-/

namespace Minnow.Wire

open Foundation.EndAroundCarry

/-- The 16-bit words of the bytes, of which the last is filled up with a zero byte. -/
def words : List UInt8 → List Nat
  | [] => []
  | [byte] => [byte.toNat * 256]
  | high :: low :: rest => (high.toNat * 256 + low.toNat) :: words rest

theorem sum_words (data : List UInt8) : (words data).sum = InternetChecksum.wordSum false data := by
  induction data using List.twoStepInduction with
  | nil => rfl
  | singleton byte => rfl
  | cons_cons high low rest ih _ =>
      rw [words, List.sum_cons, ih]
      exact Nat.add_assoc _ _ _

theorem words_le (data : List UInt8) : ∀ word ∈ words data, word ≤ 65535 := by
  induction data using List.twoStepInduction with
  | nil => exact fun word inside => absurd inside List.not_mem_nil
  | singleton byte =>
      intro word inside
      have small := byte.toNat_lt
      rw [List.mem_singleton.mp inside]
      omega
  | cons_cons high low rest ih _ =>
      intro word inside
      rcases List.mem_cons.mp inside with rfl | later
      · have highSmall := high.toNat_lt
        have lowSmall := low.toNat_lt
        omega
      · exact ih word later

namespace InternetChecksum

/-- The 16-bit ones'-complement sum of the initial sum and the words of the data. -/
def onesSum (sum : UInt32) (data : List UInt8) : Nat :=
  carrySum 65535 (sum.toNat / 65536 :: sum.toNat % 65536 :: words data)

theorem stands_onesSum (sum : UInt32) (data : List UInt8) :
    Stands 65535 (onesSum sum data) (sum.toNat + wordSum false data) := by
  have fits := sum.toNat_lt
  have added : Stands 65535 (onesSum sum data) _ := stands_carrySum (by
    intro word inside
    rcases List.mem_cons.mp inside with rfl | inside
    · omega
    · rcases List.mem_cons.mp inside with rfl | inside
      · omega
      · exact words_le data word inside)
  rw [List.sum_cons, List.sum_cons, sum_words] at added
  refine ⟨added.le, added.mod.trans ?_, added.zero.trans ?_⟩
  · omega
  · omega

/-- The loop ends with the word that stands for the accumulator. -/
theorem stands_foldLoop (ret : UInt32) : Stands 65535 (foldLoop 2 ret).toNat ret.toNat := by
  obtain ⟨same, zero⟩ := foldLoop_toNat 2 ret
  exact ⟨UInt32.le_iff_toNat_le.mp (foldLoop_two_le ret), same, zero⟩

theorem value_eq_complement {sum : UInt32} {data : List UInt8}
    (fits : sum.toNat + 65280 * data.length < 2 ^ 32) :
    ((new sum).add data).value = ~~~ UInt16.ofNat (onesSum sum data) := by
  have folded := stands_foldLoop ((new sum).add data).sum
  rw [add_toNat fits] at folded
  have same := folded.unique (stands_onesSum sum data)
  have small := folded.le
  apply UInt16.toNat_inj.mp
  rw [value_toNat, UInt16.toNat_not, UInt16.toNat_ofNat', ← same]
  change _ = 65536 - 1 - _ % 65536
  omega

/-- For every list of buffers of up to `65535` bytes in all and every small initial sum, the
accumulator never overflows, the value is the complement of the ones'-complement sum however the
bytes are split, and a segment whose checksum was computed is verified. -/
theorem value_complements_sum (sum : UInt32) (small : sum.toNat < 2 ^ 20) (data : List Buffer)
    (short : data.flatten.length ≤ 65535) :
    (∀ front, front <+: data.flatten →
        ((new sum).add front).sum.toNat = sum.toNat + (words front).sum) ∧
      ((new sum).addBuffers data).value = ~~~ UInt16.ofNat (onesSum sum data.flatten) ∧
      (∀ other : List Buffer, other.flatten = data.flatten →
        (new sum).addBuffers other = (new sum).addBuffers data) ∧
      ∀ segment : TCPSegment,
        ((segment.serialize Serializer.new).finish).flatten.length ≤ 65535 →
          ((new sum).addBuffers
            (((segment.computeChecksum sum).serialize Serializer.new).finish)).value = 0 := by
  refine ⟨?_, ?_, ?_, ?_⟩
  · intro front begins
    have length := begins.length_le
    rw [sum_words]
    exact add_toNat (by omega)
  · rw [addBuffers_eq]
    exact value_eq_complement (by omega)
  · intro other same
    rw [addBuffers_eq, addBuffers_eq, same]
  · intro segment fits
    have flat : ∀ again : TCPSegment, ((again.serialize Serializer.new).finish).flatten =
        again.encoding ++ again.senderMessage.payload := by
      intro again
      rw [TCPSegment.serialize_eq, List.flatten_cons, List.flatten_cons, List.flatten_singleton,
        List.append_nil]
    rw [flat, List.length_append, TCPSegment.encoding_length] at fits
    rw [addBuffers_eq, flat]
    exact TCPSegment.computeChecksum_verified (by omega)

/-- Three bytes in buffers of odd and of no size. -/
theorem value_complements_sum_odd :
    ((new 0x1ffff).addBuffers [[1], [], [2, 3]]).value =
      ~~~ UInt16.ofNat (onesSum 0x1ffff [1, 2, 3]) :=
  (value_complements_sum 0x1ffff (by decide) [[1], [], [2, 3]] (by decide)).2.1

end InternetChecksum

end Minnow.Wire
