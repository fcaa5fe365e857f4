import Minnow.Stream.ReassemblerRuns
import Minnow.Stream.WatchedReassembler

/-!
# The hazards of the reassembler

The representation invariant keeps every iterator and range of an insertion valid, but for one
read: with nothing stored, clamping the begin reads through the end iterator.
-/

namespace Minnow.Stream

open Foundation Foundation.Words Foundation.Chunks Foundation.Watch

theorem total_drop_le (chunks : List (Nat × List UInt8)) (count : Nat) :
    total (chunks.drop count) ≤ total chunks := by
  have parts := total_append (chunks.take count) (chunks.drop count)
  rw [List.take_append_drop] at parts
  omega

namespace Reassembler.Watched

variable (stray : Nat × List UInt8) {buf : OrderedMap Nat (List UInt8)}

theorem hazards_lessen {pending size : Nat} (enough : size ≤ pending) :
    hazards (lessen pending size) = [] := by
  simp [lessen, enough]

/-! ## The loops -/

/-- While the count is the size of the chunks from the position on, there is enough to subtract. -/
theorem hazards_writeLoop (position : Nat) (output : ByteStream) {pending : Nat}
    (word : pending < 2 ^ 64) (pendingEq : pending = total (buf.entries.drop position)) :
    hazards (writeLoop stray buf position output pending) = [] := by
  induction position using buf.walk generalizing output pending with
  | past position outside _ =>
      rw [writeLoop]
      simp [outside]
  | here position chunk inside found dropEq ih =>
      rw [dropEq, total_cons] at pendingEq
      have enough : chunk.2.length ≤ pending := by omega
      have rest : sub64 pending chunk.2.length = total (buf.entries.drop (position + 1)) := by
        rw [sub64_of_le enough word]
        omega
      have later := ih (output.push chunk.2) (sub64_lt _ _) rest
      rw [writeLoop]
      simp [inside, hazards_deref stray buf inside, value_deref stray buf found,
        hazards_lessen enough, later]

/-- Only a subtraction can fail. -/
theorem hazards_deleteLoop (endIndex position pending : Nat) :
    ∀ hazard ∈ hazards (deleteLoop stray buf endIndex position pending),
      hazard = .pendingUnderflow := by
  induction position using buf.walk generalizing pending with
  | past position outside _ =>
      rw [deleteLoop]
      simp [outside]
  | here position chunk inside found _ ih =>
      have later := ih (sub64 pending chunk.2.length)
      intro hazard noted
      rw [deleteLoop] at noted
      simp only [inside, if_true, hazards_bind, hazards_deref stray buf inside,
        value_deref stray buf found, List.nil_append, hazards_ite, value_lessen, hazards_pure]
        at noted
      split at noted
      · rcases List.mem_append.mp noted with here | behind
        · simp [lessen] at here
          exact here.2
        · exact later hazard behind
      · cases noted

/-- A count of at least the chunks stepped over never runs out. -/
theorem hazards_deleteLoop_of_enough (endIndex position : Nat) {pending : Nat}
    (word : pending < 2 ^ 64) (enough : total (buf.entries.drop position) ≤ pending) :
    hazards (deleteLoop stray buf endIndex position pending) = [] := by
  induction position using buf.walk generalizing pending with
  | past position outside _ =>
      rw [deleteLoop]
      simp [outside]
  | here position chunk inside found dropEq ih =>
      rw [dropEq, total_cons] at enough
      have first : chunk.2.length ≤ pending := by omega
      have rest : total (buf.entries.drop (position + 1)) ≤ sub64 pending chunk.2.length := by
        rw [sub64_of_le first word]
        omega
      have later := ih (sub64_lt _ _) rest
      rw [deleteLoop]
      simp [inside, hazards_deref stray buf inside, value_deref stray buf found,
        hazards_lessen first, later]

theorem hazards_skipLoop (position clampedBegin : Nat) :
    hazards (skipLoop stray buf position clampedBegin) = [] := by
  induction position using buf.walk generalizing clampedBegin with
  | past position outside _ =>
      rw [skipLoop]
      simp [outside]
  | here position chunk inside found _ ih =>
      have later := ih (add64 chunk.1 chunk.2.length)
      rw [skipLoop]
      simp [inside, hazards_deref stray buf inside, value_deref stray buf found, later]

/-! ## The helpers -/

theorem hazards_writeToStream {reassembler : Reassembler} {low : Nat}
    (stored : reassembler.Stored low) (output : ByteStream) :
    hazards (writeToStream stray reassembler output) = [] := by
  have word : reassembler.bytesPending < 2 ^ 64 := by
    rw [stored.pending]
    exact total_lt stored.laid stored.fits
  have loop := hazards_writeLoop stray 0 output word stored.pending
  simp [writeToStream, loop]

/-- The guard before the read keeps it off the end. -/
theorem hazards_deleteOverlapping (reassembler : Reassembler) (index : Nat) :
    ∀ hazard ∈ hazards (deleteOverlapping stray reassembler index),
      hazard = .pendingUnderflow := by
  intro hazard noted
  rw [deleteOverlapping] at noted
  simp only [hazards_ite, hazards_pure, hazards_bind, List.append_nil] at noted
  split at noted
  · cases noted
  · rename_i present
    have inside := Nat.lt_of_le_of_ne (reassembler.buf.find_le_past index) present
    rw [hazards_deref stray _ inside, List.nil_append] at noted
    exact hazards_deleteLoop stray _ _ _ hazard noted

theorem hazards_deleteOverlapping_of_enough {reassembler : Reassembler} (index : Nat)
    (word : reassembler.bytesPending < 2 ^ 64)
    (enough : total (reassembler.buf.entries.drop (reassembler.buf.find index + 1)) ≤
      reassembler.bytesPending) :
    hazards (deleteOverlapping stray reassembler index) = [] := by
  rw [deleteOverlapping]
  simp only [hazards_ite, hazards_pure, hazards_bind, List.append_nil]
  split
  · rfl
  · rename_i present
    have inside := Nat.lt_of_le_of_ne (reassembler.buf.find_le_past index) present
    rw [hazards_deref stray _ inside, hazards_deleteLoop_of_enough stray _ _ word enough]
    rfl

theorem hazards_clampEnd (acceptEnd endIndex : Nat) :
    hazards (clampEnd stray buf acceptEnd endIndex) = [] := by
  rw [clampEnd]
  by_cases atBegin : buf.lowerBound endIndex = 0
  · simp [atBegin]
  · have below := buf.boundary_le_past (fun other => other < endIndex)
    have inside : buf.lowerBound endIndex - 1 < buf.past := by
      unfold OrderedMap.lowerBound at atBegin ⊢
      omega
    simp [atBegin, hazards_deref stray buf inside]

/-- The read of the clamped begin has no guard, and hits the end when nothing is stored. -/
theorem hazards_clampBegin (acceptBegin firstIndex : Nat) :
    hazards (clampBegin stray buf acceptBegin firstIndex) =
      if buf.entries = [] then [.endDereferenced] else [] := by
  have bound := buf.boundary_le_past (fun other => other ≤ firstIndex)
  rw [clampBegin]
  simp only [hazards_bind, hazards_stepBack, value_stepBack, hazards_ite, hazards_skipLoop,
    hazards_pure, ite_self, List.nil_append, List.append_nil]
  by_cases nothing : buf.entries = []
  · have past : buf.past = 0 := by simp [OrderedMap.past, nothing]
    simp [nothing, deref, past]
  · have past : 0 < buf.past := List.length_pos_iff.mpr nothing
    rw [if_neg nothing]
    refine hazards_deref stray buf ?_
    unfold OrderedMap.upperBound
    split <;> omega

theorem hazards_clampData {data : List UInt8} {firstIndex clampedBegin clampedEnd : Nat}
    (firstLe : firstIndex ≤ clampedBegin) (lt : clampedBegin < clampedEnd)
    (endLe : clampedEnd ≤ firstIndex + data.length) :
    hazards (clampData data firstIndex clampedBegin clampedEnd) = [] := by
  have front : min (clampedEnd - firstIndex) data.length = clampedEnd - firstIndex := by omega
  have same : firstIndex + (clampedEnd - firstIndex) = clampedEnd := by omega
  simp [clampData, front, same, endLe, firstLe, lt, Nat.le_trans firstLe (Nat.le_of_lt lt)]

/-- Nothing is stored at the clamped begin. -/
theorem contains_eq_false {low index : Nat} (laid : Laid low buf.entries)
    (free : itemAt? buf.entries index = none) : buf.contains index = false := by
  simpa [OrderedMap.contains] using fun first last inside =>
    laid.start_ne free (first, last) inside

/-! ## One insertion -/

/-- What an insertion runs into: the unguarded read, and subtractions that only a wrapped count
can let fail. -/
structure Noted (reassembler : Reassembler) (acceptEnd firstIndex : Nat) (data : List UInt8)
    (hazards : List Hazard) : Prop where
  unguarded : .endDereferenced ∈ hazards ↔
    reassembler.buf.entries = [] ∧ firstIndex < acceptEnd
  others : ∀ hazard ∈ hazards, hazard = .endDereferenced ∨ hazard = .pendingUnderflow
  counted : reassembler.bytesPending + data.length < 2 ^ 64 → .pendingUnderflow ∉ hazards

theorem Noted.of_read {reassembler : Reassembler} {acceptEnd firstIndex : Nat} {data : List UInt8}
    {later : List Hazard} (window : firstIndex < acceptEnd)
    (only : ∀ hazard ∈ later, hazard = .pendingUnderflow)
    (counted : reassembler.bytesPending + data.length < 2 ^ 64 → later = []) :
    Noted reassembler acceptEnd firstIndex data
      ((if reassembler.buf.entries = [] then [.endDereferenced] else []) ++ later) := by
  have absent : .endDereferenced ∉ later := fun inside => nomatch only _ inside
  refine ⟨?_, ?_, ?_⟩
  · split <;> simp [*]
  · intro hazard noted
    rcases List.mem_append.mp noted with read | behind
    · split at read
      · exact Or.inl (List.mem_singleton.mp read)
      · cases read
    · exact Or.inr (only hazard behind)
  · intro fits
    rw [counted fits]
    split <;> simp

theorem hazards_insertToBuffer {reassembler : Reassembler} {acceptBegin : Nat}
    (stored : reassembler.Stored (acceptBegin + 1)) (len firstIndex : Nat) (data : List UInt8) :
    Noted reassembler (add64 acceptBegin len) firstIndex data
      (hazards (insertToBuffer stray reassembler acceptBegin len firstIndex data)) := by
  have first := clampBegin_spec firstIndex stored.laid stored.fits
  have ended := clampEnd_spec (add64 acceptBegin len) (add64 firstIndex data.length)
    stored.laid stored.fits
  rw [insertToBuffer]
  simp only [hazards_ite, hazards_bind, hazards_pure, hazards_clampEnd, hazards_clampBegin,
    value_clampEnd, value_clampBegin, value_clampData, List.nil_append]
  generalize Reassembler.clampBegin reassembler.buf acceptBegin firstIndex = clampedBegin at first
  generalize Reassembler.clampEnd reassembler.buf (add64 acceptBegin len)
    (add64 firstIndex data.length) = clampedEnd at ended
  by_cases outside : add64 acceptBegin len ≤ firstIndex
  · rw [if_pos outside]
    exact ⟨by simp [outside], by simp, by simp⟩
  · have window := Nat.not_le.mp outside
    rw [if_neg outside]
    by_cases nothing : clampedEnd ≤ clampedBegin
    · rw [if_pos nothing]
      exact Noted.of_read window (by simp) (fun _ => rfl)
    · have range := Nat.not_le.mp nothing
      have firstLe : firstIndex ≤ clampedBegin := Nat.le_trans (Nat.le_max_right _ _) first.le
      have endLe := Nat.le_trans ended.le (add64_le firstIndex data.length)
      have fresh := contains_eq_false stored.laid first.missing
      have length := clampData_length firstLe endLe range
      rw [if_neg nothing, hazards_clampData firstLe range endLe, hazards_expect, if_pos fresh,
        List.nil_append, List.nil_append]
      generalize Reassembler.clampData data firstIndex clampedBegin clampedEnd = piece at length
      refine Noted.of_read window (hazards_deleteOverlapping stray _ _) ?_
      intro fits
      have sum : add64 reassembler.bytesPending piece.length =
          reassembler.bytesPending + piece.length := add64_of_lt (by omega)
      refine hazards_deleteOverlapping_of_enough stray _ (add64_lt _ _) ?_
      have rest := total_drop_le reassembler.buf.entries (reassembler.buf.upperBound clampedBegin)
      rw [← stored.pending] at rest
      simp only [OrderedMap.find_assign, OrderedMap.drop_assign, sum]
      omega

theorem hazards_insert {reassembler : Reassembler} {output : ByteStream}
    (stored : reassembler.Stored (output.bytesPushed + 1)) (firstIndex : Nat) (data : List UInt8)
    (isLastSubstring : Bool) :
    Noted reassembler (add64 output.bytesPushed output.availableCapacity) firstIndex data
      (hazards (insert stray reassembler firstIndex data isLastSubstring output)) := by
  have noted := stored.noteEnd firstIndex data isLastSubstring
  obtain ⟨_, clampedBegin, clampedEnd, inserted⟩ :=
    insertToBuffer_spec noted output.availableCapacity firstIndex data
  have buffering := hazards_insertToBuffer stray noted output.availableCapacity firstIndex data
  have writing := hazards_writeToStream stray inserted.stored output
  have same : hazards (insert stray reassembler firstIndex data isLastSubstring output) =
      hazards (insertToBuffer stray (reassembler.noteEnd firstIndex data isLastSubstring)
        output.bytesPushed output.availableCapacity firstIndex data) := by
    simp [insert, value_insertToBuffer, writing]
  rw [same]
  refine ⟨?_, buffering.others, ?_⟩
  · rw [buffering.unguarded, noteEnd_buf]
  · rw [← reassembler.noteEnd_bytesPending firstIndex data isLastSubstring]
    exact buffering.counted

end Reassembler.Watched

namespace Assembly

open Reassembler.Watched

/-- What the next insertion would run into. -/
def hazards (assembly : Assembly) (stray : Nat × List UInt8) (firstIndex : Nat) (data : List UInt8)
    (isLastSubstring : Bool) : List Hazard :=
  Watch.hazards (Reassembler.Watched.insert stray assembly.reassembler firstIndex data
    isLastSubstring assembly.output)

/-- The chunks are apart and in order, not empty and past the write position, and the pending
count is their size. -/
structure Represented (assembly : Assembly) : Prop where
  apart : assembly.reassembler.buf.entries.Pairwise fun first second => finish first ≤ second.1
  nonempty : ∀ chunk ∈ assembly.reassembler.buf.entries, chunk.2 ≠ []
  ahead : ∀ chunk ∈ assembly.reassembler.buf.entries, assembly.position < chunk.1
  pending : assembly.reassembler.bytesPending =
    (assembly.reassembler.buf.entries.map fun chunk => chunk.2.length).sum

/-- The stored strings and the new one have an address for each of their bytes. -/
def Addressable (assembly : Assembly) (data : List UInt8) : Prop :=
  assembly.reassembler.bytesPending + data.length < 2 ^ 64

/-- No read at the end, no step before the begin, no erasure outside the string. -/
def IteratorsHold (assembly : Assembly) (stray : Nat × List UInt8) (firstIndex : Nat)
    (data : List UInt8) (isLastSubstring : Bool) : Prop :=
  ∀ hazard ∈ assembly.hazards stray firstIndex data isLastSubstring,
    hazard ≠ .endDereferenced ∧ hazard ≠ .beginDecremented ∧ hazard ≠ .rangeOutside

theorem Sound.hazards {assembly : Assembly} (sound : assembly.Sound) (stray : Nat × List UInt8)
    (firstIndex : Nat) (data : List UInt8) (isLastSubstring : Bool) :
    Noted assembly.reassembler assembly.acceptEnd firstIndex data
      (assembly.hazards stray firstIndex data isLastSubstring) :=
  hazards_insert stray sound.stored firstIndex data isLastSubstring

theorem Sound.represented {assembly : Assembly} (sound : assembly.Sound) :
    assembly.Represented where
  apart := by
    have laid := sound.stored.laid
    refine assembly.reassembler.buf.sorted.imp_of_mem ?_
    intro first second firstIn secondIn before
    exact laid.finish_le firstIn secondIn before
  nonempty := fun _ inside => sound.stored.laid.nonempty inside
  ahead := fun _ inside => sound.stored.laid.start_le inside
  pending := sound.stored.pending

/-- After every insertion and pop the map is well formed.  The next insertion gives the same
whatever a stray read gives, overwrites no chunk and takes no more from the pending count than
it has. -/
theorem run_represented (capacity : UInt64) (ops : List Op) :
    (run capacity ops).Represented ∧
      ∀ stray firstIndex data isLastSubstring,
        Watch.value (Reassembler.Watched.insert stray (run capacity ops).reassembler firstIndex
            data isLastSubstring (run capacity ops).output) =
          (run capacity ops).reassembler.insert firstIndex data isLastSubstring
            (run capacity ops).output ∧
        .chunkOverwritten ∉ (run capacity ops).hazards stray firstIndex data isLastSubstring ∧
        ((run capacity ops).Addressable data →
          .pendingUnderflow ∉
            (run capacity ops).hazards stray firstIndex data isLastSubstring) := by
  have sound := run_sound capacity ops
  refine ⟨sound.represented, ?_⟩
  intro stray firstIndex data isLastSubstring
  have noted := sound.hazards stray firstIndex data isLastSubstring
  have same := value_insert stray (run capacity ops).reassembler firstIndex data isLastSubstring
    (run capacity ops).output
  refine ⟨same, ?_, noted.counted⟩
  intro overwritten
  rcases noted.others _ overwritten with same | same <;> cases same

theorem run_represented_behind_gap :
    (run 8 [.insert 2 [99] false]).Represented ∧
      .pendingUnderflow ∉ (run 8 [.insert 2 [99] false]).hazards (0, []) 1 [98, 99, 100] false := by
  obtain ⟨represented, later⟩ := run_represented 8 [.insert 2 [99] false]
  refine ⟨represented, (later (0, []) 1 [98, 99, 100] false).2.2 ?_⟩
  unfold Addressable
  decide

/-- The iterators hold unless an insertion into the window finds nothing stored. -/
theorem iteratorsHold_iff (capacity : UInt64) (ops : List Op) (stray : Nat × List UInt8)
    (firstIndex : Nat) (data : List UInt8) (isLastSubstring : Bool) :
    (run capacity ops).IteratorsHold stray firstIndex data isLastSubstring ↔
      (run capacity ops).reassembler.buf.entries ≠ [] ∨
        (run capacity ops).acceptEnd ≤ firstIndex := by
  have noted := (run_sound capacity ops).hazards stray firstIndex data isLastSubstring
  have exact_iff : (run capacity ops).IteratorsHold stray firstIndex data isLastSubstring ↔
      .endDereferenced ∉ (run capacity ops).hazards stray firstIndex data isLastSubstring := by
    constructor
    · exact fun hold read => (hold _ read).1 rfl
    · intro unread hazard inside
      rcases noted.others hazard inside with same | same
      · exact absurd (same ▸ inside) unread
      · simp [same]
  rw [exact_iff, noted.unguarded, not_and_or, Nat.not_lt]

/-- The first byte of a new stream: nothing is stored, and the begin is clamped all the same. -/
theorem iteratorsHold_fails_first :
    ¬ (run 8 []).IteratorsHold (0, []) 0 [97] false := by
  have noted := (run_sound 8 []).hazards (0, []) 0 [97] false
  have read := noted.unguarded.mpr ⟨rfl, by decide⟩
  exact fun hold => (hold _ read).1 rfl

end Assembly

end Minnow.Stream
