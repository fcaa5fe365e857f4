import Minnow.Foundation.Words
import Mathlib.Data.Nat.Dist

/-!
# Wrapping sequence numbers

A `Wrap32` is a 64-bit absolute number seen modulo `2 ^ 32` from a zero point.
Unwrapping undoes wrapping near the checkpoint.
-/

namespace Minnow.Transport

open Foundation.Words

structure Wrap32 where
  rawValue : UInt32
  deriving DecidableEq, Repr

namespace Wrap32

def wrap (number : Nat) (zeroPoint : Wrap32) : Wrap32 :=
  ⟨UInt32.ofNat number + zeroPoint.rawValue⟩

def plus (wrapped : Wrap32) (n : UInt32) : Wrap32 := ⟨wrapped.rawValue + n⟩

instance : HAdd Wrap32 UInt32 Wrap32 := ⟨plus⟩

def unwrap (wrapped zeroPoint : Wrap32) (checkpoint : Nat) : Nat :=
  let high32 := checkpoint &&& 0xFFFFFFFF00000000
  let roundpoint1 := add64 (wrapped.rawValue - zeroPoint.rawValue).toNat high32
  let roundpoint2 :=
    if roundpoint1 ≤ checkpoint then add64 roundpoint1 0x100000000
    else sub64 roundpoint1 0x100000000
  let diff1 :=
    if checkpoint < roundpoint1 then sub64 roundpoint1 checkpoint else sub64 checkpoint roundpoint1
  let diff2 :=
    if checkpoint < roundpoint2 then sub64 roundpoint2 checkpoint else sub64 checkpoint roundpoint2
  if diff1 < diff2 then roundpoint1 else roundpoint2

/-- Masking keeps the high half. -/
theorem high_half {number : Nat} (fits : number < 2 ^ 64) :
    number &&& 0xFFFFFFFF00000000 = number / 2 ^ 32 * 2 ^ 32 :=
  and_highMask fits (show 32 ≤ 64 by decide)

@[simp] theorem wrap_sub (number : Nat) (zeroPoint : Wrap32) :
    ((wrap number zeroPoint).rawValue - zeroPoint.rawValue).toNat = number % 2 ^ 32 := by
  have cancel : (wrap number zeroPoint).rawValue - zeroPoint.rawValue = UInt32.ofNat number :=
    UInt32.add_sub_cancel _ _
  rw [cancel, UInt32.toNat_ofNat']

@[simp] theorem wrap_zero (zeroPoint : Wrap32) : wrap 0 zeroPoint = zeroPoint := by
  unfold wrap
  rw [show UInt32.ofNat 0 = 0 from rfl, UInt32.zero_add]

/-- Only the low half of the number matters. -/
theorem wrap_add64 (first second : Nat) (zeroPoint : Wrap32) :
    wrap (add64 first second) zeroPoint = wrap (first + second) zeroPoint := by
  have low : UInt32.ofNat (add64 first second) = UInt32.ofNat (first + second) := by
    apply UInt32.toNat.inj
    rw [UInt32.toNat_ofNat', UInt32.toNat_ofNat']
    unfold add64
    omega
  unfold wrap
  rw [low]

/-- The two subtractions of words measure their distance. -/
theorem distance_eq {first second : Nat} (firstFits : first < 2 ^ 64)
    (secondFits : second < 2 ^ 64) :
    (if second < first then sub64 first second else sub64 second first) =
      (first - second) + (second - first) := by
  split_ifs with order
  · rw [sub64_of_le (Nat.le_of_lt order) firstFits]
    omega
  · rw [sub64_of_le (Nat.not_lt.mp order) secondFits]
    omega

theorem roundpoint2_lt (roundpoint1 checkpoint : Nat) :
    (if roundpoint1 ≤ checkpoint then add64 roundpoint1 0x100000000
      else sub64 roundpoint1 0x100000000) < 2 ^ 64 := by
  split_ifs
  · exact add64_lt _ _
  · exact sub64_lt _ _

/-- What wraps to a number are the numbers with its distance to the zero point in the low half. -/
theorem wrap_eq_iff (number : Nat) (zeroPoint wrapped : Wrap32) :
    wrap number zeroPoint = wrapped ↔
      number % 2 ^ 32 = (wrapped.rawValue - zeroPoint.rawValue).toNat := by
  constructor
  · rintro rfl
    exact (wrap_sub number zeroPoint).symm
  · intro same
    have low : UInt32.ofNat number = wrapped.rawValue - zeroPoint.rawValue := by
      apply UInt32.toNat.inj
      rw [UInt32.toNat_ofNat', same]
    rw [wrap, low, UInt32.sub_add_cancel]

/-- Of the numbers with the low half that is asked for, `unwrap` gives one closest to the
checkpoint. -/
theorem unwrap_closest (wrapped zeroPoint : Wrap32) {checkpoint : Nat}
    (fits : checkpoint < 2 ^ 64) :
    wrapped.unwrap zeroPoint checkpoint < 2 ^ 64 ∧
      wrapped.unwrap zeroPoint checkpoint % 2 ^ 32 =
        (wrapped.rawValue - zeroPoint.rawValue).toNat ∧
      ∀ other, other < 2 ^ 64 →
        other % 2 ^ 32 = (wrapped.rawValue - zeroPoint.rawValue).toNat →
          Nat.dist (wrapped.unwrap zeroPoint checkpoint) checkpoint ≤
            Nat.dist other checkpoint := by
  have small := (wrapped.rawValue - zeroPoint.rawValue).toNat_lt
  unfold unwrap
  generalize (wrapped.rawValue - zeroPoint.rawValue).toNat = low at small ⊢
  have roundpoint1 : add64 low (checkpoint / 2 ^ 32 * 2 ^ 32) =
      low + checkpoint / 2 ^ 32 * 2 ^ 32 := add64_of_lt (by omega)
  have roundpoint1Fits := roundpoint1 ▸ add64_lt low (checkpoint / 2 ^ 32 * 2 ^ 32)
  dsimp only
  rw [high_half fits, roundpoint1]
  rw [distance_eq roundpoint1Fits fits, distance_eq (roundpoint2_lt _ _) fits]
  unfold Nat.dist
  -- the two candidates lie on different sides of the checkpoint
  rcases Nat.lt_or_ge checkpoint (low + checkpoint / 2 ^ 32 * 2 ^ 32) with after | before
  · rw [if_neg (Nat.not_le.mpr after)]
    unfold sub64
    split_ifs
    · exact ⟨by omega, by omega, fun other otherFits otherLow => by omega⟩
    · exact ⟨by omega, by omega, fun other otherFits otherLow => by omega⟩
  · rw [if_pos before]
    unfold add64
    split_ifs
    · exact ⟨by omega, by omega, fun other otherFits otherLow => by omega⟩
    · exact ⟨by omega, by omega, fun other otherFits otherLow => by omega⟩

/-- Unwrapping gives back every number less than `2 ^ 31` away from the checkpoint. -/
theorem unwrap_wrap {number checkpoint : Nat} (zeroPoint : Wrap32) (fits : number < 2 ^ 64)
    (checkpointFits : checkpoint < 2 ^ 64) (above : number < checkpoint + 2 ^ 31)
    (below : checkpoint < number + 2 ^ 31) :
    (wrap number zeroPoint).unwrap zeroPoint checkpoint = number := by
  obtain ⟨-, low, closest⟩ := (wrap number zeroPoint).unwrap_closest zeroPoint checkpointFits
  have close := closest number fits (wrap_sub number zeroPoint).symm
  rw [wrap_sub] at low
  unfold Nat.dist at close
  omega

/-- For every number on the wire, every zero point and every checkpoint, `unwrap` gives a number
that wraps to it, and no other that does is closer to the checkpoint.  So it undoes `wrap` on
every number less than `2 ^ 31` away. -/
theorem unwrap_nearest (wrapped zeroPoint : Wrap32) (checkpoint : UInt64) :
    wrapped.unwrap zeroPoint checkpoint.toNat < 2 ^ 64 ∧
      wrap (wrapped.unwrap zeroPoint checkpoint.toNat) zeroPoint = wrapped ∧
      (∀ other : UInt64, wrap other.toNat zeroPoint = wrapped →
        Nat.dist (wrapped.unwrap zeroPoint checkpoint.toNat) checkpoint.toNat ≤
          Nat.dist other.toNat checkpoint.toNat) ∧
      ∀ number : UInt64, Nat.dist number.toNat checkpoint.toNat < 2 ^ 31 →
        (wrap number.toNat zeroPoint).unwrap zeroPoint checkpoint.toNat = number.toNat := by
  obtain ⟨fits, low, closest⟩ := wrapped.unwrap_closest zeroPoint checkpoint.toNat_lt
  refine ⟨fits, (wrap_eq_iff _ _ _).mpr low, ?_, ?_⟩
  · intro other wraps
    exact closest other.toNat other.toNat_lt ((wrap_eq_iff _ _ _).mp wraps)
  · intro number close
    unfold Nat.dist at close
    exact unwrap_wrap zeroPoint number.toNat_lt checkpoint.toNat_lt (by omega) (by omega)

/-- At the top of the range, where the other candidate overflows. -/
theorem unwrap_nearest_top :
    (wrap (-1 : UInt64).toNat ⟨7⟩).unwrap ⟨7⟩ (-2 : UInt64).toNat = (-1 : UInt64).toNat :=
  (unwrap_nearest ⟨7⟩ ⟨7⟩ (-2)).2.2.2 (-1) (by decide)

/-- One number more is not a number close below. -/
theorem wrap_plus_one_ne {number other : Nat} (zeroPoint : Wrap32) (below : other ≤ number)
    (close : number + 1 < other + 2 ^ 32) :
    wrap number zeroPoint + (1 : UInt32) ≠ wrap other zeroPoint := by
  intro same
  have raw : UInt32.ofNat number + zeroPoint.rawValue + 1 =
      UInt32.ofNat other + zeroPoint.rawValue := congrArg rawValue same
  rw [UInt32.add_assoc, UInt32.add_comm zeroPoint.rawValue, ← UInt32.add_assoc] at raw
  have words := congrArg UInt32.toNat ((UInt32.add_left_inj _).mp raw)
  rw [UInt32.toNat_add, UInt32.toNat_ofNat', UInt32.toNat_ofNat'] at words
  change (number % 2 ^ 32 + 1) % 2 ^ 32 = other % 2 ^ 32 at words
  omega

end Wrap32

end Minnow.Transport
