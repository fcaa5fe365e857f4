import Minnow.Stream.ReassemblerWrite

/-!
# How far an insertion writes

An insertion pushes the bytes from the write position up to the first one that is missing.
A byte is there when it is held, or when it is taken of the data.
-/

namespace Minnow.Stream

open Foundation Foundation.Words Foundation.Chunks

namespace Reassembler

section Reach

variable (reassembler : Reassembler) (output : ByteStream) (firstIndex : Nat) (data : List UInt8)

/-- The data has the byte and is taken that far: it starts before the end of the window, and the
byte lies inside the window or a chunk is stored that starts before the end of the data. -/
def Takes (index : Nat) : Prop :=
  firstIndex ≤ index ∧ index < add64 firstIndex data.length ∧
    firstIndex < add64 output.bytesPushed output.availableCapacity ∧
    (index < add64 output.bytesPushed output.availableCapacity ∨
      ∃ chunk ∈ reassembler.buf.entries, chunk.1 < add64 firstIndex data.length)

/-- The byte is there, and the stream has room for it. -/
def Ready (index : Nat) : Prop :=
  index < output.bytesPushed + output.availableCapacity ∧
    (reassembler.heldAt index ≠ none ∨ reassembler.Takes output firstIndex data index)

/-- The bytes from the write position up to an index are ready, and the next one is not. -/
def Fills (final : Nat) : Prop :=
  output.bytesPushed ≤ final ∧
    (∀ index, output.bytesPushed ≤ index → index < final →
      reassembler.Ready output firstIndex data index) ∧
    ¬ reassembler.Ready output firstIndex data final

end Reach

variable {reassembler : Reassembler} {output : ByteStream}

/-- An insertion pushes through an index just if every byte up to it is ready. -/
theorem lt_bytesPushed_insert_iff (stored : reassembler.Stored (output.bytesPushed + 1))
    (counted : output.Counted) (firstIndex : Nat) (data : List UInt8) (isLastSubstring : Bool)
    (last : Nat) :
    last < (reassembler.insert firstIndex data isLastSubstring output).2.bytesPushed ↔
      ∀ index, output.bytesPushed ≤ index → index ≤ last →
        reassembler.Ready output firstIndex data index := by
  obtain ⟨middle, clampedBegin, clampedEnd, done⟩ :=
    insert_spec stored counted firstIndex data isLastSubstring
  constructor
  · intro pushed index above below
    have room := done.flushed.room
    obtain ⟨items, -, countEq, itemsEq⟩ := done.flushed.written
    refine ⟨by omega, (done.inserted.heldAt_ne_none_iff above).mp ?_⟩
    have written := itemsEq (index - output.bytesPushed) (by omega)
    rw [Nat.add_sub_cancel' above, List.getElem?_eq_getElem (by omega)] at written
    rw [heldAt, ← written]
    exact Option.some_ne_none _
  · intro ready
    by_contra short
    -- the byte at the new write position would be held, and it never is
    obtain ⟨inside, there⟩ := ready _ done.flushed.grows (Nat.not_lt.mp short)
    have held := (done.inserted.heldAt_ne_none_iff done.flushed.grows).mpr there
    have kept := done.flushed.kept _ (Nat.le_refl _) inside
    exact held (kept.symm.trans (done.stored.laid.itemAt?_eq_none (Nat.lt_succ_self _)))

theorem bytesPushed_insert_eq_iff (stored : reassembler.Stored (output.bytesPushed + 1))
    (counted : output.Counted) (firstIndex : Nat) (data : List UInt8) (isLastSubstring : Bool)
    (final : Nat) :
    (reassembler.insert firstIndex data isLastSubstring output).2.bytesPushed = final ↔
      reassembler.Fills output firstIndex data final := by
  have through := lt_bytesPushed_insert_iff stored counted firstIndex data isLastSubstring
  have grows : output.bytesPushed ≤
      (reassembler.insert firstIndex data isLastSubstring output).2.bytesPushed := by
    obtain ⟨middle, clampedBegin, clampedEnd, done⟩ :=
      insert_spec stored counted firstIndex data isLastSubstring
    exact done.flushed.grows
  constructor
  · rintro rfl
    have before : ∀ index, output.bytesPushed ≤ index →
        index < (reassembler.insert firstIndex data isLastSubstring output).2.bytesPushed →
        reassembler.Ready output firstIndex data index :=
      fun index above below => (through index).mp below index above (Nat.le_refl _)
    refine ⟨grows, before, ?_⟩
    intro ready
    refine absurd ((through _).mpr ?_) (Nat.lt_irrefl _)
    intro index above upTo
    rcases Nat.lt_or_eq_of_le upTo with below | same
    · exact before index above below
    · rw [same]
      exact ready
  · rintro ⟨above, ready, missing⟩
    refine Nat.le_antisymm (Nat.not_lt.mp ?_) (Nat.not_lt.mp ?_)
    · intro past
      exact missing ((through final).mp past final above (Nat.le_refl _))
    · intro short
      refine absurd ((through _).mpr ?_) (Nat.lt_irrefl _)
      intro index start upTo
      exact ready index start (Nat.lt_of_le_of_lt upTo short)

/-- An insertion closes the stream just if the bytes fill it up to the end on record. -/
theorem isClosed_insert_iff (stored : reassembler.Stored (output.bytesPushed + 1))
    (counted : output.Counted) (firstIndex : Nat) (data : List UInt8) (isLastSubstring : Bool) :
    (reassembler.insert firstIndex data isLastSubstring output).2.isClosed = true ↔
      output.isClosed = true ∨ reassembler.Fills output firstIndex data
        (reassembler.noteEnd firstIndex data isLastSubstring).streamEnd := by
  rw [← bytesPushed_insert_eq_iff stored counted firstIndex data isLastSubstring]
  obtain ⟨middle, clampedBegin, clampedEnd, done⟩ :=
    insert_spec stored counted firstIndex data isLastSubstring
  rw [done.closed, done.streamEnd]

end Reassembler

end Minnow.Stream
