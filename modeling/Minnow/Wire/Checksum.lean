import Minnow.Wire.Parser
import Mathlib.Data.List.Induction
import Mathlib.Data.Nat.Bitwise

/-!
# The Internet checksum
-/

namespace Minnow.Wire

/-- A running sum of 16-bit words, and whether the next byte is the low half of one. -/
structure InternetChecksum where
  sum : UInt32
  parity : Bool

namespace InternetChecksum

def new (sum : UInt32) : InternetChecksum := ⟨sum, false⟩

def addByte (check : InternetChecksum) (byte : UInt8) : InternetChecksum :=
  let val := if check.parity then byte.toUInt16 else byte.toUInt16 <<< 8
  ⟨check.sum + val.toUInt32, !check.parity⟩

def add (check : InternetChecksum) (data : List UInt8) : InternetChecksum :=
  data.foldl addByte check

def addBuffers (check : InternetChecksum) (data : List Buffer) : InternetChecksum :=
  data.foldl add check

/-- One round of the loop of `value`. -/
def fold (ret : UInt32) : UInt32 := (ret >>> 16) + ret.toUInt16.toUInt32

/-- At most `rounds` rounds of the loop of `value`. -/
def foldLoop : Nat → UInt32 → UInt32
  | 0, ret => ret
  | rounds + 1, ret => if 0xffff < ret then foldLoop rounds (fold ret) else ret

theorem fold_toNat (ret : UInt32) :
    (fold ret).toNat = ret.toNat / 65536 + ret.toNat % 65536 := by
  have small := ret.toNat_lt
  simp only [fold, UInt32.toNat_add, UInt32.toNat_shiftRight, UInt16.toNat_toUInt32,
    UInt32.toNat_toUInt16]
  rw [show (16 : UInt32).toNat % 32 = 16 from rfl, Nat.shiftRight_eq_div_pow]
  omega

/-- Two rounds end the loop. -/
theorem foldLoop_two_le (ret : UInt32) : foldLoop 2 ret ≤ 0xffff := by
  have small := ret.toNat_lt
  have once := fold_toNat ret
  have twice := fold_toNat (fold ret)
  simp only [foldLoop, UInt32.lt_iff_toNat_lt, UInt32.le_iff_toNat_le]
  rw [show (0xffff : UInt32).toNat = 65535 from rfl]
  split
  · split <;> omega
  · omega

def value (check : InternetChecksum) : UInt16 := (~~~ (foldLoop 2 check.sum)).toUInt16

/-! ## The sum of the words -/

/-- The sum of the 16-bit words of the data, of which a first half may be missing. -/
def wordSum : Bool → List UInt8 → Nat
  | _, [] => 0
  | parity, byte :: rest =>
      (if parity then byte.toNat else byte.toNat * 256) + wordSum (!parity) rest

theorem wordSum_le (parity : Bool) (data : List UInt8) :
    wordSum parity data ≤ 65280 * data.length := by
  induction data generalizing parity with
  | nil => exact Nat.le_refl 0
  | cons byte rest ih =>
      have small := byte.toNat_lt
      have others := ih (!parity)
      rw [wordSum, List.length_cons]
      split <;> omega

/-- What comes after whole words is summed by itself. -/
theorem wordSum_append {parity : Bool} {first : List UInt8} (whole : first.length % 2 = 0)
    (rest : List UInt8) :
    wordSum parity (first ++ rest) = wordSum parity first + wordSum parity rest := by
  induction first using List.twoStepInduction generalizing parity with
  | nil => exact (Nat.zero_add _).symm
  | singleton byte => exact absurd whole Nat.one_ne_zero
  | cons_cons byte next more ih _ =>
      have wholeMore : more.length % 2 = 0 := by
        rw [List.length_cons, List.length_cons] at whole
        omega
      simp only [List.cons_append, wordSum, Bool.not_not, ih wholeMore, Nat.add_assoc]

theorem addByte_sum (check : InternetChecksum) (byte : UInt8) :
    (check.addByte byte).sum =
      check.sum + UInt32.ofNat (if check.parity then byte.toNat else byte.toNat * 256) := by
  have small := byte.toNat_lt
  apply UInt32.toNat_inj.mp
  cases parity : check.parity with
  | false =>
      simp [addByte, parity, Nat.shiftLeft_eq]
      omega
  | true => simp [addByte, parity]

theorem add_sum (check : InternetChecksum) (data : List UInt8) :
    (check.add data).sum = check.sum + UInt32.ofNat (wordSum check.parity data) := by
  induction data generalizing check with
  | nil => exact (UInt32.add_zero _).symm
  | cons byte rest ih =>
      have here := check.addByte_sum byte
      rw [add, List.foldl_cons]
      refine (ih (check.addByte byte)).trans ?_
      rw [here, wordSum, UInt32.ofNat_add, UInt32.add_assoc]
      rfl

/-- The accumulator is the sum of the words, as long as this fits. -/
theorem add_toNat {sum : UInt32} {data : List UInt8}
    (fits : sum.toNat + 65280 * data.length < 2 ^ 32) :
    ((new sum).add data).sum.toNat = sum.toNat + wordSum false data := by
  have most := wordSum_le false data
  rw [add_sum, UInt32.toNat_add, UInt32.toNat_ofNat']
  change (sum.toNat + wordSum false data % 2 ^ 32) % 2 ^ 32 = _
  omega

theorem addBuffers_eq (check : InternetChecksum) (data : List Buffer) :
    check.addBuffers data = check.add data.flatten := by
  rw [addBuffers, add, List.foldl_flatten]
  rfl

/-! ## What the checksum verifies -/

/-- Folding keeps the number modulo `65535`, and does not make it zero. -/
theorem foldLoop_toNat (rounds : Nat) (ret : UInt32) :
    (foldLoop rounds ret).toNat % 65535 = ret.toNat % 65535 ∧
      ((foldLoop rounds ret).toNat = 0 ↔ ret.toNat = 0) := by
  induction rounds generalizing ret with
  | zero => exact ⟨rfl, Iff.rfl⟩
  | succ rounds ih =>
      obtain ⟨same, zero⟩ := ih (fold ret)
      have once := fold_toNat ret
      rw [foldLoop]
      split
      · exact ⟨by omega, by omega⟩
      · exact ⟨rfl, Iff.rfl⟩

theorem value_toNat (check : InternetChecksum) :
    check.value.toNat = 65535 - (foldLoop 2 check.sum).toNat := by
  have small := UInt32.le_iff_toNat_le.mp (foldLoop_two_le check.sum)
  rw [show (0xffff : UInt32).toNat = 65535 from rfl] at small
  rw [value, UInt32.toNat_toUInt16, UInt32.toNat_not]
  change (4294967296 - 1 - _) % 65536 = _
  omega

/-- A sum to which its own checksum is added is verified. -/
theorem value_eq_zero {check whole : InternetChecksum}
    (added : whole.sum.toNat = check.sum.toNat + check.value.toNat) : whole.value = 0 := by
  have small := UInt32.le_iff_toNat_le.mp (foldLoop_two_le check.sum)
  have smallWhole := UInt32.le_iff_toNat_le.mp (foldLoop_two_le whole.sum)
  rw [show (0xffff : UInt32).toNat = 65535 from rfl] at small smallWhole
  obtain ⟨same, zero⟩ := foldLoop_toNat 2 check.sum
  obtain ⟨sameWhole, zeroWhole⟩ := foldLoop_toNat 2 whole.sum
  rw [value_toNat] at added
  apply UInt16.toNat_inj.mp
  rw [value_toNat]
  change 65535 - _ = 0
  omega

end InternetChecksum

end Minnow.Wire
