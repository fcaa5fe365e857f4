import Minnow.Stream.Reassembler

/-!
# What one insertion stores

The stored chunks are read as a partial sequence of bytes.  The begin of new data is
clamped to the first index that is not stored yet, its end to an index no stored
chunk straddles; the piece between them replaces exactly the chunks it covers.
-/

namespace Minnow.Stream

open Foundation Foundation.Words Foundation.Chunks

namespace Reassembler

/-- The stored byte of an index. -/
def heldAt (reassembler : Reassembler) (index : Nat) : Option UInt8 :=
  itemAt? reassembler.buf.entries index

/-- The stored chunks start at or after `low`, in order and apart, their ends are
64-bit words and the pending count is their size. -/
structure Stored (reassembler : Reassembler) (low : Nat) : Prop where
  laid : Laid low reassembler.buf.entries
  fits : ∀ chunk ∈ reassembler.buf.entries, finish chunk < 2 ^ 64
  pending : reassembler.bytesPending = total reassembler.buf.entries

theorem new_stored (low : Nat) : new.Stored low :=
  ⟨True.intro, (fun _ inside => nomatch inside), rfl⟩

theorem add64_finish {chunk : Nat × List UInt8} (fits : finish chunk < 2 ^ 64) :
    add64 chunk.1 chunk.2.length = finish chunk :=
  add64_of_lt fits

/-! ## The clamped begin -/

/-- From an index at which the chunks begin, the loop stops at the first index that
is not stored. -/
theorem skipLoop_spec {chunks : List (Nat × List UInt8)} {index : Nat} (laid : Laid index chunks)
    (fits : ∀ chunk ∈ chunks, finish chunk < 2 ^ 64) :
    index ≤ skipLoop chunks index ∧ itemAt? chunks (skipLoop chunks index) = none ∧
      ∀ other, index ≤ other → other < skipLoop chunks index → itemAt? chunks other ≠ none := by
  induction chunks generalizing index with
  | nil => exact ⟨Nat.le_refl _, rfl, fun other le lt => absurd lt (Nat.not_lt.mpr le)⟩
  | cons chunk rest ih =>
      obtain ⟨above, nonempty, restLaid⟩ := laid
      have endEq := add64_finish (fits chunk List.mem_cons_self)
      have wide := start_lt_finish nonempty
      rw [skipLoop]
      split
      · rename_i starts
        rw [endEq]
        obtain ⟨grows, free, covered⟩ :=
          ih restLaid (fun other inside => fits other (List.mem_cons_of_mem _ inside))
        have outside : ¬ Within chunk (skipLoop rest (finish chunk)) := by
          intro within
          have := within.2
          omega
        refine ⟨by omega, ?_, ?_⟩
        · rw [itemAt?, if_neg outside]
          exact free
        · intro other le lt
          rcases Nat.lt_or_ge other (finish chunk) with inside | later
          · refine (itemAt?_ne_none_iff _ _).mpr ⟨chunk, List.mem_cons_self, ?_, inside⟩
            omega
          · rw [itemAt?, if_neg (fun within => absurd within.2 (Nat.not_lt.mpr later))]
            exact covered other later lt
      · rename_i later
        refine ⟨Nat.le_refl _, ?_, fun other le lt => absurd lt (Nat.not_lt.mpr le)⟩
        have high : Laid (index + 1) (chunk :: rest) := ⟨by omega, nonempty, restLaid⟩
        exact high.itemAt?_eq_none (Nat.lt_succ_self index)

/-- The search begins in a chunk that starts at or before the index, when all
chunks behind it start later. -/
theorem firstFree_of_split {low : Nat} {before rest : List (Nat × List UInt8)}
    {chunk : Nat × List UInt8} (laid : Laid low (before ++ chunk :: rest))
    (fits : ∀ other ∈ before ++ chunk :: rest, finish other < 2 ^ 64) {index : Nat}
    (starts : chunk.1 ≤ index) (later : ∀ other ∈ rest, index < other.1) :
    FirstFree (before ++ chunk :: rest) index
      (if index < add64 chunk.1 chunk.2.length then skipLoop (chunk :: rest) index else index) := by
  have chunkIn : chunk ∈ before ++ chunk :: rest := List.mem_append_right _ List.mem_cons_self
  have restLaid : Laid (finish chunk) rest := (laid_append.mp laid).2.2.2
  have restFits : ∀ other ∈ rest, finish other < 2 ^ 64 := fun other inside =>
    fits other (List.mem_append_right _ (List.mem_cons_of_mem _ inside))
  have beforeNone : ∀ other, chunk.1 ≤ other → itemAt? before other = none := by
    intro other le
    refine (itemAt?_eq_none_iff _ _).mpr ?_
    intro earlier inside within
    have ends := laid.finish_le_of_append inside (List.mem_cons_self (a := chunk) (l := rest))
    have := within.2
    omega
  rw [add64_finish (fits chunk chunkIn)]
  split
  · rename_i inside
    rw [skipLoop, if_pos starts, add64_finish (fits chunk chunkIn)]
    obtain ⟨grows, free, covered⟩ := skipLoop_spec restLaid restFits
    refine ⟨by omega, ?_, ?_⟩
    · have outside : ¬ Within chunk (skipLoop rest (finish chunk)) := by
        intro within
        have := within.2
        omega
      rw [itemAt?_append, beforeNone _ (by omega), Option.none_or, itemAt?, if_neg outside]
      exact free
    · intro other le lt
      rcases Nat.lt_or_ge other (finish chunk) with within | behind
      · exact (itemAt?_ne_none_iff _ _).mpr ⟨chunk, chunkIn, by omega, within⟩
      · obtain ⟨holder, holderIn, holds⟩ := (itemAt?_ne_none_iff _ _).mp (covered other behind lt)
        refine (itemAt?_ne_none_iff _ _).mpr ⟨holder, ?_, holds⟩
        exact List.mem_append_right _ (List.mem_cons_of_mem _ holderIn)
  · rename_i ended
    refine FirstFree.here ?_
    have restNone : itemAt? rest index = none := by
      refine (itemAt?_eq_none_iff _ _).mpr ?_
      intro other inside within
      have := later other inside
      have := within.1
      omega
    rw [itemAt?_append, beforeNone index starts, Option.none_or, itemAt?,
      if_neg (fun within => ended within.2)]
    exact restNone

theorem clampBegin_spec {buf : OrderedMap Nat (List UInt8)} {acceptBegin : Nat} (firstIndex : Nat)
    (laid : Laid (acceptBegin + 1) buf.entries)
    (fits : ∀ chunk ∈ buf.entries, finish chunk < 2 ^ 64) :
    FirstFree buf.entries (max acceptBegin firstIndex) (clampBegin buf acceptBegin firstIndex) := by
  have startEq : (if firstIndex < acceptBegin then acceptBegin else firstIndex) =
      max acceptBegin firstIndex := by
    split <;> omega
  unfold clampBegin
  simp only [startEq]
  by_cases atBegin : buf.upperBound firstIndex = 0
  · -- no chunk starts at or before the data, so none reaches the begin asked for
    have behind : ∀ chunk ∈ buf.entries, max acceptBegin firstIndex + 1 ≤ chunk.1 := by
      intro chunk inside
      have above := laid.start_le inside
      have after : firstIndex < chunk.1 := by
        refine buf.lt_of_mem_drop_upperBound ?_
        rw [atBegin, List.drop_zero]
        exact inside
      omega
    have free := (laid.raise behind).itemAt?_eq_none (Nat.lt_succ_self _)
    rw [if_neg (not_not.mpr atBegin), atBegin]
    cases found : buf.entryAt 0 with
    | none => exact FirstFree.here free
    | some chunk =>
        have inside : chunk ∈ buf.entries := List.mem_of_getElem? found
        have stops : skipLoop (buf.entries.drop 0) (max acceptBegin firstIndex) =
            max acceptBegin firstIndex := by
          rw [List.drop_zero]
          cases entriesEq : buf.entries with
          | nil => rfl
          | cons head rest =>
              have := behind head (by rw [entriesEq]; exact List.mem_cons_self)
              rw [skipLoop, if_neg (by omega)]
        simp only [stops, ite_self]
        exact FirstFree.here free
  · obtain ⟨chunk, found, starts, dropEq⟩ := buf.exists_before_upperBound atBegin
    have parts := List.take_append_drop (buf.upperBound firstIndex - 1) buf.entries
    rw [dropEq] at parts
    have above := laid.start_le (List.mem_of_getElem? found)
    have startIs : max acceptBegin firstIndex = firstIndex := by omega
    rw [if_pos atBegin, found, startIs]
    simp only [dropEq]
    rw [← parts] at laid fits
    have first := firstFree_of_split laid fits starts
      (fun other inside => buf.lt_of_mem_drop_upperBound inside)
    rw [parts] at first
    exact first

/-! ## The clamped end -/

/-- What the end of the data is clamped to.  `reach` is the flaw of the clamp: when
chunks are stored, the end can be the end of the data, past the window. -/
structure ClampedEnd (chunks : List (Nat × List UInt8)) (acceptEnd endIndex clamped : Nat) :
    Prop where
  le : clamped ≤ endIndex
  apart : ∀ chunk ∈ chunks, chunk.1 < clamped → finish chunk ≤ clamped
  covered : ∀ index, clamped ≤ index → index < endIndex → index < acceptEnd →
    itemAt? chunks index ≠ none
  reach : clamped ≤ acceptEnd ∨ itemAt? chunks clamped ≠ none ∨
    (chunks ≠ [] ∧ clamped = endIndex)
  overrun : chunks ≠ [] → (∀ chunk ∈ chunks, finish chunk < endIndex) → clamped = endIndex
  taken : ∀ index, index < endIndex →
    ((index < clamped ∨ itemAt? chunks index ≠ none) ↔
      (index < acceptEnd ∨ itemAt? chunks index ≠ none ∨ ∃ chunk ∈ chunks, chunk.1 < endIndex))

theorem clampEnd_spec {buf : OrderedMap Nat (List UInt8)} {low : Nat} (acceptEnd endIndex : Nat)
    (laid : Laid low buf.entries) (fits : ∀ chunk ∈ buf.entries, finish chunk < 2 ^ 64) :
    ClampedEnd buf.entries acceptEnd endIndex (clampEnd buf acceptEnd endIndex) := by
  unfold clampEnd
  by_cases atBegin : buf.lowerBound endIndex = 0
  · have behind : ∀ chunk ∈ buf.entries, endIndex ≤ chunk.1 := by
      intro chunk inside
      refine buf.le_of_mem_drop_lowerBound ?_
      rw [atBegin, List.drop_zero]
      exact inside
    simp only [atBegin, ne_eq, not_true_eq_false, if_false]
    refine ⟨by split <;> omega, ?_, ?_, Or.inl (by split <;> omega), ?_, ?_⟩
    · intro chunk inside starts
      have := behind chunk inside
      split at starts <;> omega
    · intro index above below window
      split at above <;> omega
    · intro nonempty ends
      obtain ⟨chunk, inside⟩ := List.exists_mem_of_ne_nil _ nonempty
      have := behind chunk inside
      have := ends chunk inside
      have := start_lt_finish (laid.nonempty inside)
      omega
    · intro index below
      have inWindow : index < (if acceptEnd < endIndex then acceptEnd else endIndex) ↔
          index < acceptEnd := by
        split <;> omega
      rw [inWindow]
      constructor
      · exact fun taken => taken.imp_right Or.inl
      · rintro (window | held | ⟨chunk, inside, starts⟩)
        · exact Or.inl window
        · exact Or.inr held
        · exact absurd starts (Nat.not_lt.mpr (behind chunk inside))
  · obtain ⟨chunk, found, starts, dropEq⟩ := buf.exists_before_lowerBound atBegin
    have inside : chunk ∈ buf.entries := List.mem_of_getElem? found
    have parts := List.take_append_drop (buf.lowerBound endIndex - 1) buf.entries
    rw [dropEq] at parts
    rw [if_pos atBegin, found]
    have earlier : ∀ other ∈ buf.entries, other.1 < endIndex → other = chunk ∨
        finish other ≤ chunk.1 := by
      intro other otherIn below
      rw [← parts] at otherIn laid
      rcases List.mem_append.mp otherIn with before | later
      · exact Or.inr (laid.finish_le_of_append before List.mem_cons_self)
      · rcases List.mem_cons.mp later with same | behind
        · exact Or.inl same
        · exact absurd (buf.le_of_mem_drop_lowerBound behind) (Nat.not_le.mpr below)
    have covers : ∃ other ∈ buf.entries, other.1 < endIndex := ⟨chunk, inside, starts⟩
    dsimp only
    rw [add64_finish (fits chunk inside)]
    split_ifs with reaches
    · refine ⟨Nat.le_of_lt starts, ?_, ?_, Or.inr (Or.inl ?_), ?_, ?_⟩
      · intro other otherIn below
        rcases earlier other otherIn (by omega) with same | ends
        · rw [same] at below
          exact absurd below (Nat.lt_irrefl _)
        · exact ends
      · intro index above below _
        exact (itemAt?_ne_none_iff _ _).mpr ⟨chunk, inside, above, by omega⟩
      · refine (itemAt?_ne_none_iff _ _).mpr ⟨chunk, inside, Nat.le_refl _, ?_⟩
        exact start_lt_finish (laid.nonempty inside)
      · intro _ ends
        exact absurd (ends chunk inside) (Nat.not_lt.mpr reaches)
      · intro index below
        refine iff_of_true ?_ (Or.inr (Or.inr covers))
        refine (Nat.lt_or_ge index chunk.1).imp_right (fun above => ?_)
        exact (itemAt?_ne_none_iff _ _).mpr ⟨chunk, inside, above, by omega⟩
    · refine ⟨Nat.le_refl _, ?_, ?_, Or.inr (Or.inr ⟨List.ne_nil_of_mem inside, rfl⟩),
        fun _ _ => rfl, fun index below => iff_of_true (Or.inl below) (Or.inr (Or.inr covers))⟩
      · intro other otherIn below
        rcases earlier other otherIn below with same | ends
        · rw [same]
          omega
        · omega
      · intro index above below _
        omega

/-! ## Storing the piece -/

/-- The loop steps over a prefix of chunks that end by `endIndex`, and stops before
one that does not; the pending count loses their size, modulo `2 ^ 64`. -/
theorem deleteLoop_spec (endIndex : Nat) {low : Nat} {chunks : List (Nat × List UInt8)}
    (laid : Laid low chunks) (fits : ∀ chunk ∈ chunks, finish chunk < 2 ^ 64) {pending : Nat}
    (word : pending < 2 ^ 64) :
    (∀ chunk ∈ chunks.take (deleteLoop endIndex chunks pending).1, finish chunk ≤ endIndex) ∧
      (∀ chunk ∈ chunks.drop (deleteLoop endIndex chunks pending).1, endIndex < finish chunk) ∧
      (deleteLoop endIndex chunks pending).2 < 2 ^ 64 ∧
      ((deleteLoop endIndex chunks pending).2 +
        total (chunks.take (deleteLoop endIndex chunks pending).1)) % 2 ^ 64 = pending := by
  induction chunks generalizing low pending with
  | nil =>
      refine ⟨(fun _ inside => nomatch inside), (fun _ inside => nomatch inside), word, ?_⟩
      exact Nat.mod_eq_of_lt word
  | cons chunk rest ih =>
      have endEq := add64_finish (fits chunk List.mem_cons_self)
      rw [deleteLoop]
      split_ifs with ends
      · have smaller := sub64_lt pending chunk.2.length
        obtain ⟨passed, stopped, next, count⟩ :=
          ih laid.2.2 (fun other inside => fits other (List.mem_cons_of_mem _ inside)) smaller
        rw [endEq] at ends
        simp only [List.take_succ_cons, List.drop_succ_cons, total_cons]
        refine ⟨?_, stopped, next, ?_⟩
        · intro other inside
          rcases List.mem_cons.mp inside with same | later
          · rw [same]
            exact ends
          · exact passed other later
        · have length := fits chunk List.mem_cons_self
          unfold sub64 at count ⊢
          unfold finish at length
          omega
      · rw [endEq] at ends
        refine ⟨(fun _ inside => nomatch inside), ?_, word, Nat.mod_eq_of_lt word⟩
        intro other inside
        rcases List.mem_cons.mp inside with same | later
        · rw [same]
          omega
        · have after := laid.2.2.start_le later
          have := start_lt_finish (laid.nonempty inside)
          omega

/-- The pending count after a piece took the place of chunks.  It may pass `2 ^ 64` between
the addition and the deletions, and comes back. -/
theorem total_of_count {low start left : Nat} {piece : List UInt8}
    {before inside after : List (Nat × List UInt8)}
    (laid : Laid low (before ++ (start, piece) :: after))
    (fits : ∀ chunk ∈ before ++ (start, piece) :: after, finish chunk < 2 ^ 64)
    (small : low < 2 ^ 64) (word : left < 2 ^ 64)
    (count : (left + total inside) % 2 ^ 64 =
      add64 (total (before ++ inside ++ after)) piece.length) :
    left = total (before ++ (start, piece) :: after) := by
  have reached := reach_le (Nat.le_sub_one_of_lt small)
    (fun chunk chunkIn => Nat.le_sub_one_of_lt (fits chunk chunkIn))
  have bounded := laid.low_add_total_le
  simp only [total_append, total_cons] at bounded count ⊢
  unfold add64 at count
  omega

/-- The piece takes its place in the map, and the loop runs from behind it. -/
theorem deleteOverlapping_assign_eq (reassembler : Reassembler) {start : Nat} {piece : List UInt8}
    (word : start + piece.length < 2 ^ 64) :
    let loop := deleteLoop (start + piece.length)
      (reassembler.buf.entries.drop (reassembler.buf.upperBound start))
      (add64 reassembler.bytesPending piece.length)
    let after := deleteOverlapping
      { reassembler with
        buf := reassembler.buf.assign start piece
        bytesPending := add64 reassembler.bytesPending piece.length } start
    after.streamEnd = reassembler.streamEnd ∧ after.bytesPending = loop.2 ∧
      after.buf.entries = reassembler.buf.entries.take (reassembler.buf.lowerBound start) ++
        (start, piece) ::
          (reassembler.buf.entries.drop (reassembler.buf.upperBound start)).drop loop.1 := by
  unfold deleteOverlapping
  simp only [OrderedMap.find_assign, OrderedMap.entryAt_assign, OrderedMap.drop_assign]
  rw [add64_of_lt (by omega : piece.length + start < 2 ^ 64), Nat.add_comm piece.length start]
  exact ⟨True.intro, rfl, OrderedMap.eraseRange_assign _ _ _ _⟩

/-- A piece goes in at a free index and ends where no chunk is cut: it replaces the
chunks it covers and nothing else. -/
theorem deleteOverlapping_assign {reassembler : Reassembler} {low start : Nat} {piece : List UInt8}
    (stored : reassembler.Stored (low + 1)) (startLow : low ≤ start) (nonempty : piece ≠ [])
    (word : start + piece.length < 2 ^ 64)
    (free : itemAt? reassembler.buf.entries start = none)
    (apart : ∀ chunk ∈ reassembler.buf.entries, chunk.1 < start + piece.length →
      finish chunk ≤ start + piece.length) :
    let after := deleteOverlapping
      { reassembler with
        buf := reassembler.buf.assign start piece
        bytesPending := add64 reassembler.bytesPending piece.length } start
    after.Stored low ∧ after.streamEnd = reassembler.streamEnd ∧
      (start, piece) ∈ after.buf.entries ∧ ∀ index, after.heldAt index =
        if start ≤ index ∧ index < start + piece.length then piece[index - start]?
        else reassembler.heldAt index := by
  obtain ⟨laid, fits, pendingEq⟩ := stored
  have joined : reassembler.buf.entries.take (reassembler.buf.lowerBound start) ++
      reassembler.buf.entries.drop (reassembler.buf.upperBound start) = reassembler.buf.entries := by
    rw [← reassembler.buf.lowerBound_eq_upperBound (laid.start_ne free), List.take_append_drop]
  have below : ∀ chunk ∈ reassembler.buf.entries.take (reassembler.buf.lowerBound start),
      chunk.1 < start := fun _ => reassembler.buf.lt_of_mem_take_lowerBound
  have above : ∀ chunk ∈ reassembler.buf.entries.drop (reassembler.buf.upperBound start),
      start < chunk.1 := fun _ => reassembler.buf.lt_of_mem_drop_upperBound
  obtain ⟨endSame, pendingIs, entriesEq⟩ := deleteOverlapping_assign_eq reassembler word
  generalize deleteOverlapping _ start = after at endSame pendingIs entriesEq ⊢
  generalize reassembler.buf.entries.take (reassembler.buf.lowerBound start) = before
    at joined below entriesEq
  generalize reassembler.buf.entries.drop (reassembler.buf.upperBound start) = rest
    at joined above pendingIs entriesEq
  have held : ∀ chunk ∈ before ++ rest, finish chunk < 2 ^ 64 := by
    rw [joined]
    exact fits
  have restLaid : Laid (reach (low + 1) before) rest := by
    rw [← joined] at laid
    exact (laid_append.mp laid).2
  obtain ⟨passed, stopped, next, count⟩ := deleteLoop_spec (start + piece.length) restLaid
    (fun chunk inside => held chunk (List.mem_append_right _ inside))
    (add64_lt reassembler.bytesPending piece.length)
  generalize deleteLoop (start + piece.length) rest _ = loop
    at passed stopped next count pendingIs entriesEq
  have parts : before ++ rest.take loop.1 ++ rest.drop loop.1 = reassembler.buf.entries := by
    rw [List.append_assoc, List.take_append_drop, joined]
  have covers : Covers start piece before (rest.take loop.1) (rest.drop loop.1) :=
    .of_free parts free below (fun chunk inside => above chunk (List.mem_of_mem_take inside)) passed
      stopped apart
  have laidAfter : Laid low (before ++ (start, piece) :: rest.drop loop.1) := by
    refine covers.laid startLow nonempty ?_
    rw [parts]
    exact laid.lower (Nat.le_succ low)
  have fitsAfter : ∀ chunk ∈ before ++ (start, piece) :: rest.drop loop.1,
      finish chunk < 2 ^ 64 := by
    intro chunk inside
    rcases List.mem_append.mp inside with earlier | later
    · exact held chunk (List.mem_append_left _ earlier)
    · rcases List.mem_cons.mp later with same | behind
      · rw [same]
        exact word
      · exact held chunk (List.mem_append_right _ (List.mem_of_mem_drop behind))
  rw [pendingEq, ← parts] at count
  have pendingAfter := total_of_count laidAfter fitsAfter (by omega) next count
  refine ⟨⟨entriesEq ▸ laidAfter, entriesEq ▸ fitsAfter, ?_⟩, endSame, ?_, ?_⟩
  · rw [pendingIs, entriesEq]
    exact pendingAfter
  · rw [entriesEq]
    exact List.mem_append_right _ List.mem_cons_self
  · intro index
    rw [heldAt, entriesEq, covers.itemAt?, parts]
    rfl

/-- What `insertToBuffer` does.  The bytes from `clampedBegin` to `clampedEnd` come from
the data, all others stay as they were; when nothing is stored the range is empty. -/
structure Inserted (before : List (Nat × List UInt8)) (after : Reassembler)
    (acceptBegin acceptEnd firstIndex : Nat) (data : List UInt8)
    (clampedBegin clampedEnd : Nat) : Prop where
  stored : after.Stored acceptBegin
  first : FirstFree before (max acceptBegin firstIndex) clampedBegin
  end_le : clampedEnd ≤ add64 firstIndex data.length
  reach : clampedEnd ≤ acceptEnd ∨ itemAt? before clampedEnd ≠ none ∨
    (before ≠ [] ∧ clampedEnd = add64 firstIndex data.length)
  overrun : firstIndex < acceptEnd → before ≠ [] →
    (∀ chunk ∈ before, finish chunk < add64 firstIndex data.length) →
    clampedEnd = add64 firstIndex data.length
  opened : clampedBegin < clampedEnd → firstIndex < acceptEnd
  taken : firstIndex < acceptEnd → ∀ index, index < add64 firstIndex data.length →
    ((index < clampedEnd ∨ itemAt? before index ≠ none) ↔
      (index < acceptEnd ∨ itemAt? before index ≠ none ∨
        ∃ chunk ∈ before, chunk.1 < add64 firstIndex data.length))
  heldAt : ∀ index, after.heldAt index =
    if clampedBegin ≤ index ∧ index < clampedEnd then data[index - firstIndex]?
    else itemAt? before index
  placed : clampedBegin < clampedEnd →
    ∃ chunk ∈ after.buf.entries, chunk.1 = clampedBegin ∧ finish chunk = clampedEnd
  covered : ∀ index, acceptBegin ≤ index → firstIndex ≤ index →
    index < add64 firstIndex data.length → index < acceptEnd → after.heldAt index ≠ none

/-- What is held stays held when a piece is stored. -/
theorem Inserted.heldAt_ne_none {before : List (Nat × List UInt8)} {after : Reassembler}
    {acceptBegin acceptEnd firstIndex clampedBegin clampedEnd index : Nat} {data : List UInt8}
    (inserted : Inserted before after acceptBegin acceptEnd firstIndex data clampedBegin clampedEnd)
    (held : itemAt? before index ≠ none) : after.heldAt index ≠ none := by
  have first := inserted.first.le
  have last := Nat.le_trans inserted.end_le (add64_le _ _)
  rw [inserted.heldAt]
  split_ifs with range
  · rw [List.getElem?_eq_getElem (by omega)]
    exact Option.some_ne_none _
  · exact held

/-- The bytes at or past the write position that are held afterwards: what was held, and what is
taken of the data.  A chunk that starts before the end of the data lifts the clamp to the window. -/
theorem Inserted.heldAt_ne_none_iff {before : List (Nat × List UInt8)} {after : Reassembler}
    {acceptBegin acceptEnd firstIndex clampedBegin clampedEnd index : Nat} {data : List UInt8}
    (inserted : Inserted before after acceptBegin acceptEnd firstIndex data clampedBegin clampedEnd)
    (above : acceptBegin ≤ index) :
    after.heldAt index ≠ none ↔ itemAt? before index ≠ none ∨
      (firstIndex ≤ index ∧ index < add64 firstIndex data.length ∧ firstIndex < acceptEnd ∧
        (index < acceptEnd ∨ ∃ chunk ∈ before, chunk.1 < add64 firstIndex data.length)) := by
  have first := inserted.first.le
  have last := inserted.end_le
  rw [inserted.heldAt]
  split_ifs with range
  · have inside := Nat.lt_of_lt_of_le range.2 (Nat.le_trans last (add64_le _ _))
    refine iff_of_true (by rw [List.getElem?_eq_getElem (by omega)]; exact Option.some_ne_none _) ?_
    have opened := inserted.opened (by omega)
    have below := Nat.lt_of_lt_of_le range.2 last
    rcases (inserted.taken opened index below).mp (Or.inl range.2) with window | held | chunk
    · exact Or.inr ⟨by omega, below, opened, Or.inl window⟩
    · exact Or.inl held
    · exact Or.inr ⟨by omega, below, opened, Or.inr chunk⟩
  · constructor
    · exact Or.inl
    · rintro (held | ⟨firstLe, below, opened, accepted⟩)
      · exact held
      · have taken := (inserted.taken opened index below).mpr
          (accepted.imp_right Or.inr)
        rcases taken with stored | held
        · exact inserted.first.covered index (Nat.max_le.mpr ⟨above, firstLe⟩) (by omega)
        · exact held

theorem clampData_length {data : List UInt8} {firstIndex clampedBegin clampedEnd : Nat}
    (firstLe : firstIndex ≤ clampedBegin) (endLe : clampedEnd ≤ firstIndex + data.length)
    (lt : clampedBegin < clampedEnd) :
    (clampData data firstIndex clampedBegin clampedEnd).length = clampedEnd - clampedBegin := by
  rw [clampData, List.length_drop, List.length_take]
  omega

theorem clampData_getElem? {data : List UInt8} {firstIndex clampedBegin clampedEnd index : Nat}
    (firstLe : firstIndex ≤ clampedBegin) (above : clampedBegin ≤ index)
    (below : index < clampedEnd) :
    (clampData data firstIndex clampedBegin clampedEnd)[index - clampedBegin]? =
      data[index - firstIndex]? := by
  have position : clampedBegin - firstIndex + (index - clampedBegin) = index - firstIndex := by omega
  rw [clampData, List.getElem?_drop, position, List.getElem?_take, if_pos (by omega)]

theorem insertToBuffer_spec {reassembler : Reassembler} {acceptBegin : Nat}
    (stored : reassembler.Stored (acceptBegin + 1)) (len firstIndex : Nat) (data : List UInt8) :
    (reassembler.insertToBuffer acceptBegin len firstIndex data).streamEnd =
        reassembler.streamEnd ∧
      ∃ clampedBegin clampedEnd, Inserted reassembler.buf.entries
        (reassembler.insertToBuffer acceptBegin len firstIndex data) acceptBegin
        (add64 acceptBegin len) firstIndex data clampedBegin clampedEnd := by
  have first := clampBegin_spec firstIndex stored.laid stored.fits
  have ended := clampEnd_spec (add64 acceptBegin len) (add64 firstIndex data.length)
    stored.laid stored.fits
  have weaker : reassembler.Stored acceptBegin :=
    ⟨stored.laid.lower (Nat.le_succ _), stored.fits, stored.pending⟩
  unfold insertToBuffer
  dsimp only
  generalize clampBegin reassembler.buf acceptBegin firstIndex = clampedBegin at first
  generalize clampEnd reassembler.buf (add64 acceptBegin len) (add64 firstIndex data.length) =
    clampedEnd at ended
  -- outside the clamped range the window is covered by what is stored
  have outsideRange : ∀ index, acceptBegin ≤ index → firstIndex ≤ index →
      index < add64 firstIndex data.length → index < add64 acceptBegin len →
      ¬ (clampedBegin ≤ index ∧ index < clampedEnd) → reassembler.heldAt index ≠ none := by
    intro index above firstLe below window out
    rcases Nat.lt_or_ge index clampedBegin with skipped | behind
    · exact first.covered index (Nat.max_le.mpr ⟨above, firstLe⟩) skipped
    · exact ended.covered index (Nat.not_lt.mp (fun inside => out ⟨behind, inside⟩)) below window
  have unchanged : ∀ index, reassembler.heldAt index =
      if clampedBegin ≤ index ∧ index < 0 then data[index - firstIndex]?
      else reassembler.heldAt index :=
    fun index => (if_neg (fun range => absurd range.2 (Nat.not_lt_zero index))).symm
  by_cases outside : add64 acceptBegin len ≤ firstIndex
  · rw [if_pos outside]
    refine ⟨rfl, clampedBegin, 0, weaker, first, Nat.zero_le _, Or.inl (Nat.zero_le _), ?_, ?_, ?_,
      unchanged, fun range => absurd range (Nat.not_lt_zero _), ?_⟩
    · exact fun inside => absurd inside (Nat.not_lt.mpr outside)
    · exact fun range => absurd range (Nat.not_lt_zero _)
    · exact fun inside => absurd inside (Nat.not_lt.mpr outside)
    · intro index _ above _ below
      omega
  · rw [if_neg outside]
    have opened := Nat.not_le.mp outside
    by_cases nothing : clampedEnd ≤ clampedBegin
    · rw [if_pos nothing]
      refine ⟨rfl, clampedBegin, clampedEnd, weaker, first, ended.le, ended.reach,
        fun _ => ended.overrun, fun _ => opened, fun _ => ended.taken, ?_,
        fun range => absurd range (Nat.not_lt.mpr nothing), ?_⟩
      · intro index
        exact (if_neg (by omega)).symm
      · intro index above firstLe below window
        exact outsideRange index above firstLe below window (by omega)
    · rw [if_neg nothing]
      have range := Nat.not_le.mp nothing
      have firstLe : firstIndex ≤ clampedBegin := Nat.le_trans (Nat.le_max_right _ _) first.le
      have beginLe : acceptBegin ≤ clampedBegin := Nat.le_trans (Nat.le_max_left _ _) first.le
      have endLe := Nat.le_trans ended.le (add64_le firstIndex data.length)
      have endWord := Nat.lt_of_le_of_lt ended.le (add64_lt firstIndex data.length)
      have length := clampData_length firstLe endLe range
      have finishEq : clampedBegin + (clampData data firstIndex clampedBegin clampedEnd).length =
          clampedEnd := by omega
      have placed := deleteOverlapping_assign stored beginLe
        (List.ne_nil_of_length_pos (by omega : 0 < (clampData data firstIndex clampedBegin
          clampedEnd).length))
        (by omega) first.missing (by rw [finishEq]; exact ended.apart)
      dsimp only at placed
      rw [finishEq] at placed
      generalize deleteOverlapping _ clampedBegin = after at placed ⊢
      obtain ⟨storedAfter, endSame, pieceIn, heldAfter⟩ := placed
      have heldEq : ∀ index, after.heldAt index =
          if clampedBegin ≤ index ∧ index < clampedEnd then data[index - firstIndex]?
          else reassembler.heldAt index := by
        intro index
        rw [heldAfter]
        split_ifs with inside
        · exact clampData_getElem? firstLe inside.1 inside.2
        · rfl
      refine ⟨endSame, clampedBegin, clampedEnd, storedAfter, first, ended.le, ended.reach,
        fun _ => ended.overrun, fun _ => opened, fun _ => ended.taken, heldEq,
        fun _ => ⟨_, pieceIn, rfl, finishEq⟩, ?_⟩
      intro index above firstAbove below window
      rw [heldEq]
      split_ifs with inside
      · rw [List.getElem?_eq_getElem (by omega)]
        exact Option.some_ne_none _
      · exact outsideRange index above firstAbove below window inside

end Reassembler

end Minnow.Stream
