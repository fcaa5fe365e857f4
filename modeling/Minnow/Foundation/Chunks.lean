import Mathlib.Algebra.Order.Ring.Nat
import Mathlib.Data.List.Basic
import Mathlib.Algebra.BigOperators.Group.List.Basic
import Mathlib.Order.Interval.Finset.Nat

/-!
# Sparse sequences stored as chunks

A partial sequence is stored as a list of chunks, each a start index and the
items from there on.  `Laid low` says that the chunks start at or after `low`,
are not empty, do not overlap and come in order.  `itemAt?` is the sequence the
chunks denote.
-/

namespace Minnow.Foundation.Chunks

variable {Item : Type*}

/-- The index after the last item of a chunk. -/
def finish (chunk : Nat × List Item) : Nat := chunk.1 + chunk.2.length

/-- The index lies in the chunk. -/
def Within (chunk : Nat × List Item) (index : Nat) : Prop :=
  chunk.1 ≤ index ∧ index < finish chunk

instance (chunk : Nat × List Item) (index : Nat) : Decidable (Within chunk index) :=
  inferInstanceAs (Decidable (_ ∧ _))

def Laid : Nat → List (Nat × List Item) → Prop
  | _, [] => True
  | low, chunk :: rest => low ≤ chunk.1 ∧ chunk.2 ≠ [] ∧ Laid (finish chunk) rest

/-- The item stored for an index. -/
def itemAt? : List (Nat × List Item) → Nat → Option Item
  | [], _ => none
  | chunk :: rest, index =>
      if Within chunk index then chunk.2[index - chunk.1]? else itemAt? rest index

/-- The end of the last chunk, `low` when there is none. -/
def reach : Nat → List (Nat × List Item) → Nat
  | low, [] => low
  | _, chunk :: rest => reach (finish chunk) rest

/-- The number of items stored. -/
def total (chunks : List (Nat × List Item)) : Nat := (chunks.map fun chunk => chunk.2.length).sum

@[simp] theorem total_nil : total ([] : List (Nat × List Item)) = 0 := rfl

@[simp] theorem total_cons (chunk : Nat × List Item) (rest : List (Nat × List Item)) :
    total (chunk :: rest) = chunk.2.length + total rest := by
  simp [total]

@[simp] theorem total_append (first second : List (Nat × List Item)) :
    total (first ++ second) = total first + total second := by
  simp [total]

@[simp] theorem itemAt?_nil (index : Nat) : itemAt? ([] : List (Nat × List Item)) index = none := rfl

theorem start_lt_finish {chunk : Nat × List Item} (nonempty : chunk.2 ≠ []) :
    chunk.1 < finish chunk := by
  have positive := List.length_pos_iff.mpr nonempty
  unfold finish
  omega

/-! ## The denoted sequence -/

theorem itemAt?_ne_none_iff (chunks : List (Nat × List Item)) (index : Nat) :
    itemAt? chunks index ≠ none ↔ ∃ chunk ∈ chunks, Within chunk index := by
  induction chunks with
  | nil => simp
  | cons chunk rest ih =>
      by_cases inside : Within chunk index
      · have bound : index - chunk.1 < chunk.2.length := by
          have := inside.2
          have := inside.1
          unfold finish at *
          omega
        simp [itemAt?, inside, bound]
      · rw [itemAt?, if_neg inside, ih]
        simp only [List.mem_cons, exists_eq_or_imp, inside, false_or]

theorem itemAt?_eq_none_iff (chunks : List (Nat × List Item)) (index : Nat) :
    itemAt? chunks index = none ↔ ∀ chunk ∈ chunks, ¬ Within chunk index := by
  have exact_iff := (itemAt?_ne_none_iff chunks index).not
  simpa only [not_not, not_exists, not_and] using exact_iff

theorem itemAt?_append (first second : List (Nat × List Item)) (index : Nat) :
    itemAt? (first ++ second) index = (itemAt? first index).or (itemAt? second index) := by
  induction first with
  | nil => rfl
  | cons chunk rest ih =>
      by_cases inside : Within chunk index
      · have found : itemAt? (chunk :: rest) index ≠ none :=
          (itemAt?_ne_none_iff _ _).mpr ⟨chunk, List.mem_cons_self, inside⟩
        obtain ⟨item, itemEq⟩ := Option.ne_none_iff_exists'.mp found
        rw [itemEq, List.cons_append, itemAt?, if_pos inside, Option.some_or]
        rwa [itemAt?, if_pos inside] at itemEq
      · rw [List.cons_append, itemAt?, itemAt?, if_neg inside, if_neg inside, ih]

/-! ## Laid chunks -/

theorem Laid.lower {low lower : Nat} {chunks : List (Nat × List Item)}
    (laid : Laid low chunks) (le : lower ≤ low) : Laid lower chunks := by
  cases chunks with
  | nil => exact True.intro
  | cons chunk rest => exact ⟨Nat.le_trans le laid.1, laid.2⟩

theorem Laid.start_le {low : Nat} {chunks : List (Nat × List Item)} (laid : Laid low chunks)
    {chunk : Nat × List Item} (inside : chunk ∈ chunks) : low ≤ chunk.1 := by
  induction chunks generalizing low with
  | nil => cases inside
  | cons head rest ih =>
      rcases List.mem_cons.mp inside with same | later
      · rw [same]
        exact laid.1
      · have after := ih laid.2.2 later
        have wide := start_lt_finish laid.2.1
        have := laid.1
        omega

theorem Laid.nonempty {low : Nat} {chunks : List (Nat × List Item)} (laid : Laid low chunks)
    {chunk : Nat × List Item} (inside : chunk ∈ chunks) : chunk.2 ≠ [] := by
  induction chunks generalizing low with
  | nil => cases inside
  | cons head rest ih =>
      rcases List.mem_cons.mp inside with same | later
      · rw [same]
        exact laid.2.1
      · exact ih laid.2.2 later

/-- Only the first chunk is asked about the lower limit. -/
theorem Laid.raise {low higher : Nat} {chunks : List (Nat × List Item)} (laid : Laid low chunks)
    (above : ∀ chunk ∈ chunks, higher ≤ chunk.1) : Laid higher chunks := by
  cases chunks with
  | nil => exact True.intro
  | cons chunk rest => exact ⟨above chunk List.mem_cons_self, laid.2⟩

theorem laid_append {low : Nat} {first second : List (Nat × List Item)} :
    Laid low (first ++ second) ↔ Laid low first ∧ Laid (reach low first) second := by
  induction first generalizing low with
  | nil => simp [Laid, reach]
  | cons chunk rest ih => simp only [List.cons_append, Laid, reach, ih, and_assoc]

theorem reach_le {low bound : Nat} {chunks : List (Nat × List Item)} (start : low ≤ bound)
    (within : ∀ chunk ∈ chunks, finish chunk ≤ bound) : reach low chunks ≤ bound := by
  induction chunks generalizing low with
  | nil => exact start
  | cons chunk rest ih =>
      exact ih (within chunk List.mem_cons_self)
        (fun other inside => within other (List.mem_cons_of_mem _ inside))

theorem Laid.low_add_total_le {low : Nat} {chunks : List (Nat × List Item)}
    (laid : Laid low chunks) : low + total chunks ≤ reach low chunks := by
  induction chunks generalizing low with
  | nil => exact Nat.le_refl _
  | cons chunk rest ih =>
      have tail := ih laid.2.2
      have head := laid.1
      simp only [total_cons, reach, finish] at tail ⊢
      omega

theorem Laid.itemAt?_eq_none {low : Nat} {chunks : List (Nat × List Item)}
    (laid : Laid low chunks) {index : Nat} (below : index < low) : itemAt? chunks index = none := by
  refine (itemAt?_eq_none_iff chunks index).mpr ?_
  intro chunk inside hit
  have := laid.start_le inside
  have := hit.1
  omega

theorem Laid.le_of_itemAt? {low : Nat} {chunks : List (Nat × List Item)}
    (laid : Laid low chunks) {index : Nat} (held : itemAt? chunks index ≠ none) : low ≤ index := by
  rcases Nat.lt_or_ge index low with below | above
  · exact absurd (laid.itemAt?_eq_none below) held
  · exact above

/-- Chunks that come before another one end before it starts. -/
theorem Laid.finish_le_of_append {low : Nat} {first second : List (Nat × List Item)}
    (laid : Laid low (first ++ second)) {before after : Nat × List Item}
    (beforeIn : before ∈ first) (afterIn : after ∈ second) : finish before ≤ after.1 := by
  induction first generalizing low with
  | nil => cases beforeIn
  | cons head rest ih =>
      rcases List.mem_cons.mp beforeIn with same | later
      · rw [same]
        exact laid.2.2.start_le (List.mem_append_right _ afterIn)
      · exact ih laid.2.2 later

/-- Of two chunks the one that starts first ends before the other starts. -/
theorem Laid.finish_le {low : Nat} {chunks : List (Nat × List Item)} (laid : Laid low chunks)
    {first second : Nat × List Item} (firstIn : first ∈ chunks) (secondIn : second ∈ chunks)
    (lt : first.1 < second.1) : finish first ≤ second.1 := by
  induction chunks generalizing low with
  | nil => cases firstIn
  | cons head rest ih =>
      have wide := start_lt_finish laid.2.1
      rcases List.mem_cons.mp firstIn with firstIs | firstLater
      · rcases List.mem_cons.mp secondIn with secondIs | secondLater
        · rw [firstIs, secondIs] at lt
          exact absurd lt (Nat.lt_irrefl _)
        · rw [firstIs]
          exact laid.2.2.start_le secondLater
      · rcases List.mem_cons.mp secondIn with secondIs | secondLater
        · have above := laid.2.2.start_le firstLater
          rw [secondIs] at lt
          omega
        · exact ih laid.2.2 firstLater secondLater

/-! ## The first index that is not stored -/

/-- No chunk starts at a free index. -/
theorem Laid.start_ne {low index : Nat} {chunks : List (Nat × List Item)} (laid : Laid low chunks)
    (free : itemAt? chunks index = none) : ∀ chunk ∈ chunks, chunk.1 ≠ index := by
  intro chunk inside same
  refine (itemAt?_eq_none_iff _ _).mp free chunk inside ⟨Nat.le_of_eq same, ?_⟩
  rw [← same]
  exact start_lt_finish (laid.nonempty inside)

/-- The first index from `index` on that no chunk holds. -/
structure FirstFree (chunks : List (Nat × List Item)) (index free : Nat) : Prop where
  le : index ≤ free
  missing : itemAt? chunks free = none
  covered : ∀ other, index ≤ other → other < free → itemAt? chunks other ≠ none

theorem FirstFree.here {chunks : List (Nat × List Item)} {index : Nat}
    (missing : itemAt? chunks index = none) : FirstFree chunks index index :=
  ⟨Nat.le_refl _, missing, fun _ le lt => absurd lt (Nat.not_lt.mpr le)⟩

/-- Where the first index asked for is not stored, it is the answer. -/
theorem FirstFree.eq {chunks : List (Nat × List Item)} {index free : Nat}
    (first : FirstFree chunks index free) (missing : itemAt? chunks index = none) :
    free = index := by
  rcases Nat.eq_or_lt_of_le first.le with same | later
  · exact same.symm
  · exact absurd missing (first.covered index (Nat.le_refl _) later)

/-! ## The indices stored -/

/-- The indices that the chunks hold. -/
def indices (chunks : List (Nat × List Item)) : Finset Nat :=
  chunks.foldr (fun chunk rest => Finset.Ico chunk.1 (finish chunk) ∪ rest) ∅

theorem mem_indices_iff (chunks : List (Nat × List Item)) (index : Nat) :
    index ∈ indices chunks ↔ itemAt? chunks index ≠ none := by
  rw [itemAt?_ne_none_iff]
  induction chunks with
  | nil => simp [indices]
  | cons chunk rest ih =>
      change index ∈ Finset.Ico chunk.1 (finish chunk) ∪ indices rest ↔ _
      rw [Finset.mem_union, ih, Finset.mem_Ico, List.exists_mem_cons_iff]
      rfl

/-- Laid chunks hold as many items as indices. -/
theorem Laid.card_indices {low : Nat} {chunks : List (Nat × List Item)} (laid : Laid low chunks) :
    (indices chunks).card = total chunks := by
  induction chunks generalizing low with
  | nil => rfl
  | cons chunk rest ih =>
      have apart : Disjoint (Finset.Ico chunk.1 (finish chunk)) (indices rest) := by
        rw [Finset.disjoint_left]
        intro index here there
        have later := laid.2.2.le_of_itemAt? ((mem_indices_iff rest index).mp there)
        exact absurd (Finset.mem_Ico.mp here).2 (Nat.not_lt.mpr later)
      change (Finset.Ico chunk.1 (finish chunk) ∪ indices rest).card = _
      rw [Finset.card_union_of_disjoint apart, Nat.card_Ico, ih laid.2.2, total_cons, finish,
        Nat.add_sub_cancel_left]

/-- Chunks that hold the same indices have the same size, however they are cut. -/
theorem Laid.total_eq {low other : Nat} {first second : List (Nat × List Item)}
    (laid : Laid low first) (otherLaid : Laid other second)
    (same : ∀ index, itemAt? first index ≠ none ↔ itemAt? second index ≠ none) :
    total first = total second := by
  have sets : indices first = indices second := by
    ext index
    rw [mem_indices_iff, mem_indices_iff]
    exact same index
  rw [← laid.card_indices, sets, otherLaid.card_indices]

/-! ## Putting one chunk in the place of others -/

section Splice

variable {low start : Nat} {piece : List Item}
variable {before inside after : List (Nat × List Item)}

/-- The chunks `inside` are covered by the piece laid at `start`, the chunks
`before` end before it and the chunks `after` start behind it. -/
structure Covers (start : Nat) (piece : List Item) (before inside after : List (Nat × List Item)) :
    Prop where
  before_finish : ∀ chunk ∈ before, finish chunk ≤ start
  inside_start : ∀ chunk ∈ inside, start ≤ chunk.1
  inside_finish : ∀ chunk ∈ inside, finish chunk ≤ start + piece.length
  after_start : ∀ chunk ∈ after, start + piece.length ≤ chunk.1

theorem Covers.laid (covers : Covers start piece before inside after) (startLow : low ≤ start)
    (nonempty : piece ≠ []) (laid : Laid low (before ++ inside ++ after)) :
    Laid low (before ++ (start, piece) :: after) := by
  rw [List.append_assoc, laid_append] at laid
  have afterLaid := (laid_append.mp laid.2).2
  refine laid_append.mpr ⟨laid.1, reach_le startLow covers.before_finish, nonempty, ?_⟩
  exact afterLaid.raise covers.after_start

/-- A piece laid at a free index covers the chunks up to its end, when it cuts none. -/
theorem Covers.of_free {chunks : List (Nat × List Item)} (parts : before ++ inside ++ after = chunks)
    (free : Chunks.itemAt? chunks start = none)
    (below : ∀ chunk ∈ before, chunk.1 < start) (above : ∀ chunk ∈ inside, start < chunk.1)
    (passed : ∀ chunk ∈ inside, finish chunk ≤ start + piece.length)
    (stopped : ∀ chunk ∈ after, start + piece.length < finish chunk)
    (apart : ∀ chunk ∈ chunks, chunk.1 < start + piece.length →
      finish chunk ≤ start + piece.length) : Covers start piece before inside after where
  before_finish := by
    intro chunk chunkIn
    refine Nat.le_of_not_lt (fun cut => ?_)
    refine (itemAt?_eq_none_iff _ _).mp free chunk ?_ ⟨Nat.le_of_lt (below chunk chunkIn), cut⟩
    rw [← parts]
    exact List.mem_append_left _ (List.mem_append_left _ chunkIn)
  inside_start := fun chunk chunkIn => Nat.le_of_lt (above chunk chunkIn)
  inside_finish := passed
  after_start := by
    intro chunk chunkIn
    refine Nat.le_of_not_lt (fun cut => ?_)
    refine absurd (apart chunk ?_ cut) (Nat.not_le.mpr (stopped chunk chunkIn))
    rw [← parts]
    exact List.mem_append_right _ chunkIn

theorem Covers.itemAt? (covers : Covers start piece before inside after) (index : Nat) :
    itemAt? (before ++ (start, piece) :: after) index =
      if start ≤ index ∧ index < start + piece.length then piece[index - start]?
      else itemAt? (before ++ inside ++ after) index := by
  split
  · rename_i hit
    have beforeNone : Chunks.itemAt? before index = none := by
      refine (itemAt?_eq_none_iff _ _).mpr ?_
      intro chunk chunkIn within
      have := covers.before_finish chunk chunkIn
      have := within.2
      omega
    rw [itemAt?_append, beforeNone, Option.none_or, Chunks.itemAt?]
    exact if_pos hit
  · rename_i miss
    have insideNone : Chunks.itemAt? inside index = none := by
      refine (itemAt?_eq_none_iff _ _).mpr ?_
      intro chunk chunkIn within
      have := covers.inside_start chunk chunkIn
      have := covers.inside_finish chunk chunkIn
      have := within.1
      have := within.2
      omega
    rw [List.append_assoc, itemAt?_append, itemAt?_append before, itemAt?_append inside, insideNone,
      Option.none_or, Chunks.itemAt?]
    exact congrArg _ (if_neg miss)

end Splice

end Minnow.Foundation.Chunks
