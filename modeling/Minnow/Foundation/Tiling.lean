import Mathlib.Algebra.Order.Ring.Nat
import Mathlib.Algebra.BigOperators.Group.List.Basic
import Mathlib.Data.List.Induction

/-!
# Tilings of an initial segment

Items with sizes are laid one after the other from a start.  `placed` gives every
item its position, `extent` is the length covered.
-/

namespace Minnow.Foundation.Tiling

variable {Item : Type*} (size : Item → Nat)

/-- The length the items cover. -/
def extent (items : List Item) : Nat := (items.map size).sum

/-- The items with the positions at which they begin. -/
def placed : Nat → List Item → List (Nat × Item)
  | _, [] => []
  | start, item :: rest => (start, item) :: placed (start + size item) rest

@[simp] theorem extent_nil : extent size [] = 0 := rfl

@[simp] theorem extent_cons (item : Item) (rest : List Item) :
    extent size (item :: rest) = size item + extent size rest := by
  rw [extent, List.map_cons, List.sum_cons]
  rfl

@[simp] theorem extent_append (first second : List Item) :
    extent size (first ++ second) = extent size first + extent size second := by
  rw [extent, List.map_append, List.sum_append]
  rfl

@[simp] theorem placed_nil (start : Nat) : placed size start [] = [] := rfl

@[simp] theorem placed_cons (start : Nat) (item : Item) (rest : List Item) :
    placed size start (item :: rest) = (start, item) :: placed size (start + size item) rest := rfl

theorem placed_append (start : Nat) (first second : List Item) :
    placed size start (first ++ second) =
      placed size start first ++ placed size (start + extent size first) second := by
  induction first generalizing start with
  | nil => rfl
  | cons item rest ih =>
      rw [List.cons_append, placed_cons, placed_cons, ih, extent_cons, ← Nat.add_assoc]
      rfl

theorem placed_snoc (start : Nat) (items : List Item) (item : Item) :
    placed size start (items ++ [item]) =
      placed size start items ++ [(start + extent size items, item)] :=
  placed_append size start items [item]

variable {size}

/-- An item is placed behind the items before it. -/
theorem mem_placed_iff {start position : Nat} {items : List Item} {item : Item} :
    (position, item) ∈ placed size start items ↔
      ∃ before after, items = before ++ item :: after ∧ position = start + extent size before := by
  constructor
  · intro inside
    induction items generalizing start with
    | nil => cases inside
    | cons head rest ih =>
        rcases List.mem_cons.mp inside with same | later
        · cases same
          exact ⟨[], rest, rfl, rfl⟩
        · obtain ⟨before, after, rfl, rfl⟩ := ih later
          refine ⟨head :: before, after, rfl, ?_⟩
          rw [extent_cons, Nat.add_assoc]
  · rintro ⟨before, after, rfl, rfl⟩
    rw [placed_append]
    exact List.mem_append_right _ List.mem_cons_self

theorem mem_of_mem_placed {start position : Nat} {items : List Item} {item : Item}
    (inside : (position, item) ∈ placed size start items) : item ∈ items := by
  obtain ⟨before, after, rfl, -⟩ := mem_placed_iff.mp inside
  exact List.mem_append_right _ List.mem_cons_self

theorem exists_mem_placed {items : List Item} {item : Item} (inside : item ∈ items) (start : Nat) :
    ∃ position, (position, item) ∈ placed size start items := by
  obtain ⟨before, after, split⟩ := List.append_of_mem inside
  exact ⟨_, mem_placed_iff.mpr ⟨before, after, split, rfl⟩⟩

theorem end_le_of_mem_placed {start position : Nat} {items : List Item} {item : Item}
    (inside : (position, item) ∈ placed size start items) :
    position + size item ≤ start + extent size items := by
  obtain ⟨before, after, rfl, rfl⟩ := mem_placed_iff.mp inside
  rw [extent_append, extent_cons]
  omega

/-- Each item begins where the one before it ends. -/
theorem isChain_placed (start : Nat) (items : List Item) :
    (placed size start items).IsChain fun entry later => entry.1 + size entry.2 = later.1 := by
  induction items generalizing start with
  | nil => exact List.IsChain.nil
  | cons item rest ih =>
      cases rest with
      | nil => exact List.IsChain.singleton _
      | cons next rest => exact List.IsChain.cons_cons rfl (ih (start + size item))

/-- The items cover the numbers from the start on, as far as they extend, and no others. -/
theorem covered_placed_iff (start : Nat) (items : List Item) (number : Nat) :
    (∃ entry ∈ placed size start items, entry.1 ≤ number ∧ number < entry.1 + size entry.2) ↔
      start ≤ number ∧ number < start + extent size items := by
  induction items generalizing start with
  | nil => simp
  | cons item rest ih =>
      rw [placed_cons, List.exists_mem_cons_iff, ih, extent_cons]
      change start ≤ number ∧ number < start + size item ∨ _ ↔ _
      omega

theorem getLast?_placed_snoc (start : Nat) (items : List Item) (item : Item) :
    (placed size start (items ++ [item])).getLast? = some (start + extent size items, item) := by
  rw [placed_snoc, List.getLast?_concat]

/-- Cutting the placed items cuts the items. -/
theorem split_of_placed_eq_append {start : Nat} {items : List Item}
    {first second : List (Nat × Item)} (split : placed size start items = first ++ second) :
    ∃ before after, items = before ++ after ∧ first = placed size start before ∧
      second = placed size (start + extent size before) after := by
  induction first generalizing start items with
  | nil => exact ⟨[], items, rfl, rfl, split.symm⟩
  | cons entry first ih =>
      cases items with
      | nil => exact nomatch split
      | cons item rest =>
          rw [placed_cons, List.cons_append, List.cons.injEq] at split
          obtain ⟨before, after, rfl, firstEq, secondEq⟩ := ih split.2
          refine ⟨item :: before, after, rfl, ?_, ?_⟩
          · rw [placed_cons, firstEq, split.1]
          · rw [secondEq, extent_cons, Nat.add_assoc]

end Minnow.Foundation.Tiling
