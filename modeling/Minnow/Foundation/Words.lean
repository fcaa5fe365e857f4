import Mathlib.Algebra.Order.Ring.Nat
import Mathlib.Data.Nat.Bitwise

/-!
# Machine words over the natural numbers

A 64-bit unsigned counter is carried as a natural number and every operation
that can leave the range is reduced modulo `2 ^ 64`.  The lemmas say when the
reduction does nothing and which way it fails.
-/

namespace Minnow.Foundation.Words

/-- Wrapping addition of 64-bit words. -/
def add64 (first second : Nat) : Nat := (first + second) % 2 ^ 64

/-- Wrapping subtraction of 64-bit words. -/
def sub64 (first second : Nat) : Nat := (first + (2 ^ 64 - second % 2 ^ 64)) % 2 ^ 64

theorem add64_lt (first second : Nat) : add64 first second < 2 ^ 64 :=
  Nat.mod_lt _ (by decide)

theorem add64_le (first second : Nat) : add64 first second ≤ first + second :=
  Nat.mod_le _ _

theorem sub64_lt (first second : Nat) : sub64 first second < 2 ^ 64 :=
  Nat.mod_lt _ (by decide)

theorem add64_of_lt {first second : Nat} (fits : first + second < 2 ^ 64) :
    add64 first second = first + second :=
  Nat.mod_eq_of_lt fits

theorem sub64_of_le {first second : Nat} (le : second ≤ first) (fits : first < 2 ^ 64) :
    sub64 first second = first - second := by
  unfold sub64
  omega

/-- A sum that leaves the range comes back below its first summand. -/
theorem add64_lt_left {first second : Nat} (firstFits : first < 2 ^ 64)
    (secondFits : second < 2 ^ 64) (overflow : 2 ^ 64 ≤ first + second) :
    add64 first second < first := by
  unfold add64
  omega

/-- Masking the low bits of a number away. -/
theorem and_highMask {width low number : Nat} (fits : number < 2 ^ width) (small : low ≤ width) :
    number &&& (2 ^ width - 2 ^ low) = number / 2 ^ low * 2 ^ low := by
  have mask : 2 ^ width - 2 ^ low = (2 ^ (width - low) - 1) <<< low := by
    have whole : 2 ^ (width - low) * 2 ^ low = 2 ^ width := by
      rw [← Nat.pow_add, Nat.sub_add_cancel small]
    rw [Nat.shiftLeft_eq, Nat.sub_mul, whole, Nat.one_mul]
  apply Nat.eq_of_testBit_eq
  intro bit
  rw [mask, Nat.testBit_and, Nat.testBit_shiftLeft, Nat.testBit_two_pow_sub_one,
    Nat.testBit_mul_two_pow, Nat.testBit_div_two_pow]
  rcases Nat.lt_or_ge bit low with under | atLeast
  · simp [Nat.not_le.mpr under]
  · rcases Nat.lt_or_ge bit width with inside | outside
    · have counted : bit - low < width - low := by omega
      simp [atLeast, counted]
    · have bounded : 2 ^ width ≤ 2 ^ bit := Nat.pow_le_pow_right (by decide) outside
      simp [atLeast, Nat.testBit_lt_two_pow (Nat.lt_of_lt_of_le fits bounded)]

end Minnow.Foundation.Words
