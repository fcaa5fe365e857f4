import Mathlib.Algebra.Order.Ring.Nat
import Mathlib.Algebra.BigOperators.Group.List.Basic

/-!
# Addition with an end-around carry

Words up to `top` are added, and a carry out of the high end comes back in at the low end.
Such a sum stands for the sum of the numbers modulo `top`.  Of the two words for a multiple
of `top`, zero stands for zero alone.
-/

namespace Minnow.Foundation.EndAroundCarry

variable {top word other number count : Nat}

/-- The sum of two words. -/
def carryAdd (top first second : Nat) : Nat :=
  if first + second ≤ top then first + second else first + second - top

/-- The sum of all words. -/
def carrySum (top : Nat) (words : List Nat) : Nat := words.foldl (carryAdd top) 0

/-- The word that stands for a number. -/
structure Stands (top word number : Nat) : Prop where
  le : word ≤ top
  mod : word % top = number % top
  zero : word = 0 ↔ number = 0

theorem stands_of_le (le : word ≤ top) : Stands top word word := ⟨le, rfl, Iff.rfl⟩

theorem Stands.add (first : Stands top word number) (second : Stands top other count) :
    Stands top (carryAdd top word other) (number + count) := by
  have firstLe := first.le
  have secondLe := second.le
  have firstZero := first.zero
  have secondZero := second.zero
  have mod : (word + other) % top = (number + count) % top := by
    rw [Nat.add_mod, first.mod, second.mod, ← Nat.add_mod]
  rw [carryAdd]
  split
  case isTrue fits => exact ⟨fits, mod, by omega⟩
  case isFalse carries =>
      refine ⟨by omega, ?_, by omega⟩
      rw [← mod]
      exact (Nat.mod_eq_sub_mod (Nat.le_of_not_le carries)).symm

/-- Only one word stands for a number. -/
theorem Stands.unique (first : Stands top word number) (second : Stands top other number) :
    word = other := by
  have same := first.mod.trans second.mod.symm
  have zeros := first.zero.trans second.zero.symm
  rcases Nat.lt_or_eq_of_le first.le with below | full
  · rcases Nat.lt_or_eq_of_le second.le with otherBelow | otherFull
    · rwa [Nat.mod_eq_of_lt below, Nat.mod_eq_of_lt otherBelow] at same
    · rw [Nat.mod_eq_of_lt below, otherFull, Nat.mod_self] at same
      rw [same, zeros.mp same]
  · rcases Nat.lt_or_eq_of_le second.le with otherBelow | otherFull
    · rw [Nat.mod_eq_of_lt otherBelow, full, Nat.mod_self] at same
      rw [← same, zeros.mpr same.symm]
    · rw [full, otherFull]

theorem Stands.foldl (start : Stands top word number) {words : List Nat}
    (small : ∀ next ∈ words, next ≤ top) :
    Stands top (words.foldl (carryAdd top) word) (number + words.sum) := by
  induction words generalizing word number with
  | nil => exact start
  | cons next rest ih =>
      have added := start.add (stands_of_le (small next List.mem_cons_self))
      rw [List.foldl_cons, List.sum_cons, ← Nat.add_assoc]
      exact ih added fun later inside => small later (List.mem_cons_of_mem _ inside)

/-- The words added up stand for the sum of the numbers. -/
theorem stands_carrySum {words : List Nat} (small : ∀ next ∈ words, next ≤ top) :
    Stands top (carrySum top words) words.sum := by
  have sum := (stands_of_le (Nat.zero_le top)).foldl small
  rwa [Nat.zero_add] at sum

end Minnow.Foundation.EndAroundCarry
