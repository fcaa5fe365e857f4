import Minnow.Wire.Checksum
import Minnow.Wire.Encoding

/-!
# Sums of words

A checksum sees the sum of the words modulo `65535`, and a single bit always changes it.
-/

namespace Minnow.Wire

open UnsignedIntegral

theorem wordSum_encode (number : UInt16) :
    InternetChecksum.wordSum false (encode number) = number.toNat := by
  have small := number.toNat_lt
  change InternetChecksum.wordSum false
    [UInt8.ofNat (number.toNat >>> 8), UInt8.ofNat (number.toNat >>> 0)] = _
  simp [InternetChecksum.wordSum, Nat.shiftRight_eq_div_pow]
  omega

theorem encode_even (number : UInt16) : (encode number).length % 2 = 0 := by
  rw [encode_length]
  rfl

namespace InternetChecksum

/-- Nothing overflows in a short sum. -/
theorem sum_toNat {data : List UInt8} (short : data.length < 65536) :
    ((new 0).add data).sum.toNat = wordSum false data := by
  have zero : (0 : UInt32).toNat = 0 := rfl
  rw [add_toNat (by omega), zero, Nat.zero_add]

/-- The checksum of a sum is the word that fills it up.  It is never `0xffff`. -/
theorem value_eq_iff {check : InternetChecksum} (some : 0 < check.sum.toNat) (word : UInt16) :
    check.value = word ↔ word ≠ 0xffff ∧ (check.sum.toNat + word.toNat) % 65535 = 0 := by
  have small := UInt32.le_iff_toNat_le.mp (foldLoop_two_le check.sum)
  change _ ≤ 65535 at small
  have fits := word.toNat_lt
  obtain ⟨same, zero⟩ := foldLoop_toNat 2 check.sum
  rw [← UInt16.toNat_inj, value_toNat, ne_eq, ← UInt16.toNat_inj]
  change _ ↔ ¬ word.toNat = 65535 ∧ _
  omega

end InternetChecksum

/-! ## A flipped bit -/

def flipBit (bytes : List UInt8) (place bit : Nat) : List UInt8 :=
  bytes.modify place fun byte => byte ^^^ UInt8.ofNat (2 ^ bit)

@[simp] theorem length_flipBit (bytes : List UInt8) (place bit : Nat) :
    (flipBit bytes place bit).length = bytes.length :=
  List.length_modify _ _ _

/-- A bit that is flipped is added or taken away. -/
theorem xor_two_pow (number bit : Nat) :
    number ^^^ 2 ^ bit = number + 2 ^ bit ∨ (number ^^^ 2 ^ bit) + 2 ^ bit = number := by
  induction bit generalizing number with
  | zero =>
      rcases Nat.even_or_odd number with even | odd
      · exact Or.inl (Nat.xor_one_of_even even)
      · refine Or.inr ?_
        rw [Nat.pow_zero, Nat.xor_one_of_odd odd]
        obtain ⟨half, rfl⟩ := odd
        rfl
  | succ bit ih =>
      have half := ih (number / 2)
      have double : 2 ^ (bit + 1) = 2 ^ bit * 2 := Nat.pow_succ 2 bit
      have high : (number ^^^ 2 ^ (bit + 1)) / 2 = number / 2 ^^^ 2 ^ bit := by
        rw [Nat.xor_div_two, double, Nat.mul_div_cancel _ (by decide)]
      have low : (number ^^^ 2 ^ (bit + 1)) % 2 = (number + 2 ^ (bit + 1)) % 2 :=
        Nat.xor_mod_two_eq
      omega

theorem xor_bit_toNat (byte : UInt8) {bit : Nat} (small : bit < 8) :
    (byte ^^^ UInt8.ofNat (2 ^ bit)).toNat = byte.toNat ^^^ 2 ^ bit := by
  have fits : 2 ^ bit < 256 := Nat.pow_lt_pow_right (by decide) small
  rw [UInt8.toNat_xor, UInt8.toNat_ofNat', Nat.mod_eq_of_lt fits]

/-- What a unit counts at a place: it stands in the high half of a word or in the low one. -/
def unitAt (parity : Bool) : Nat → Nat
  | 0 => if parity then 1 else 256
  | place + 1 => unitAt (!parity) place

theorem unitAt_cases (parity : Bool) (place : Nat) :
    unitAt parity place = 1 ∨ unitAt parity place = 256 := by
  induction place generalizing parity with
  | zero =>
      cases parity with
      | false => exact Or.inr rfl
      | true => exact Or.inl rfl
  | succ place ih => exact ih (!parity)

/-- One byte of the sum is replaced. -/
theorem wordSum_modify (parity : Bool) {bytes : List UInt8} {place : Nat} {byte : UInt8}
    (here : bytes[place]? = some byte) (change : UInt8 → UInt8) :
    InternetChecksum.wordSum parity (bytes.modify place change) + byte.toNat * unitAt parity place =
      InternetChecksum.wordSum parity bytes + (change byte).toNat * unitAt parity place := by
  induction bytes generalizing parity place with
  | nil => exact absurd here.symm (Option.some_ne_none byte)
  | cons first rest ih =>
      cases place with
      | zero =>
          cases here
          change InternetChecksum.wordSum parity (change byte :: rest) + _ = _
          rw [InternetChecksum.wordSum, InternetChecksum.wordSum, unitAt]
          cases parity with
          | false =>
              simp only [Bool.false_eq_true, if_false]
              omega
          | true =>
              simp only [if_true]
              omega
      | succ place =>
          have changed := ih (!parity) here
          change InternetChecksum.wordSum parity (first :: rest.modify place change) + _ = _
          rw [InternetChecksum.wordSum, InternetChecksum.wordSum, unitAt]
          omega

/-- A bit that is flipped does not leave the sum as it was, not even modulo `65535`. -/
theorem wordSum_flipBit_mod (parity : Bool) {bytes : List UInt8} {place bit : Nat}
    (inside : place < bytes.length) (small : bit < 8) :
    InternetChecksum.wordSum parity (flipBit bytes place bit) % 65535 ≠
      InternetChecksum.wordSum parity bytes % 65535 := by
  have moved := wordSum_modify parity (List.getElem?_eq_getElem inside)
    fun byte => byte ^^^ UInt8.ofNat (2 ^ bit)
  have changed := xor_two_pow bytes[place].toNat bit
  have positive := Nat.two_pow_pos bit
  have bounded : 2 ^ bit < 2 ^ 8 := Nat.pow_lt_pow_right (by decide) small
  rw [xor_bit_toNat _ small] at moved
  rw [flipBit]
  rcases unitAt_cases parity place with low | high
  · rw [low] at moved
    omega
  · rw [high] at moved
    omega

theorem take_flipBit (bytes : List UInt8) (place bit count : Nat) :
    (flipBit bytes place bit).take count = flipBit (bytes.take count) place bit :=
  List.take_modify _ _ _ _

/-- Behind the last byte there is nothing to flip. -/
theorem flipBit_of_le {bytes : List UInt8} {place : Nat} (behind : bytes.length ≤ place)
    (bit : Nat) : flipBit bytes place bit = bytes :=
  List.modify_eq_self behind

/-- What does not reach the place is decoded as before. -/
theorem decode_drop_flipBit {T : Type} [UnsignedIntegral T] (bytes : List UInt8)
    {skip place : Nat} (bit : Nat) (apart : place < skip ∨ skip + size T ≤ place) :
    decode T ((flipBit bytes place bit).drop skip) = decode T (bytes.drop skip) := by
  rw [decode, decode]
  congr 2
  apply List.ext_getElem?
  intro i
  rw [List.getElem?_take, List.getElem?_take]
  split_ifs with within
  · rw [List.getElem?_drop, List.getElem?_drop, flipBit, List.getElem?_modify_ne]
    omega
  · rfl

end Minnow.Wire
