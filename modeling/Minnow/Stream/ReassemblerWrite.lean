import Minnow.Stream.ReassemblerInsert

/-!
# What one insertion writes

The chunks that start at the write position are pushed one after the other.  A push
may be cut by the capacity; the rest of its chunk is dropped, and lies past the window.
-/

namespace Minnow.Stream

open Foundation Foundation.Words Foundation.Chunks

namespace Reassembler

/-- What pushing leading chunks does: `before` are the chunks stored, `after` those
that stay, `output` and `flushed` the stream before and after. -/
structure Flushed (before after : List (Nat × List UInt8)) (output flushed : ByteStream) :
    Prop where
  laid : Laid (flushed.bytesPushed + 1) after
  remain : ∀ chunk ∈ after, chunk ∈ before
  counted : flushed.Counted
  grows : output.bytesPushed ≤ flushed.bytesPushed
  room : flushed.bytesPushed ≤ output.bytesPushed + output.availableCapacity
  capacity : flushed.capacity = output.capacity
  popped : flushed.bytesPopped = output.bytesPopped
  written : ∃ items, flushed.buffer = output.buffer ++ items ∧
    output.bytesPushed + items.length = flushed.bytesPushed ∧
    ∀ offset, offset < items.length →
      items[offset]? = itemAt? before (output.bytesPushed + offset)
  kept : ∀ index, flushed.bytesPushed ≤ index →
    index < output.bytesPushed + output.availableCapacity →
    itemAt? after index = itemAt? before index
  only : ∀ index, itemAt? after index ≠ none → itemAt? after index = itemAt? before index
  idle : itemAt? before output.bytesPushed = none → after = before

/-- When no chunk starts at the write position nothing happens. -/
theorem Flushed.refl {chunks : List (Nat × List UInt8)} {output : ByteStream}
    (laid : Laid (output.bytesPushed + 1) chunks) (counted : output.Counted) :
    Flushed chunks chunks output output where
  laid := laid
  remain := fun _ inside => inside
  counted := counted
  grows := Nat.le_refl _
  room := Nat.le_add_right _ _
  capacity := rfl
  popped := rfl
  written := ⟨[], (List.append_nil _).symm, rfl, fun _ inside => absurd inside (Nat.not_lt_zero _)⟩
  kept := fun _ _ _ => rfl
  only := fun _ _ => rfl
  idle := fun _ => rfl

theorem accepted_le_finish {chunk : Nat × List UInt8} {output : ByteStream}
    (starts : chunk.1 = output.bytesPushed) :
    output.bytesPushed + (output.accepted chunk.2).length ≤ finish chunk := by
  have taken := output.accepted_length chunk.2
  unfold finish
  omega

/-- One chunk pushed at the write position, then the others. -/
theorem Flushed.push {chunk : Nat × List UInt8} {rest after : List (Nat × List UInt8)}
    {output flushed : ByteStream} (starts : chunk.1 = output.bytesPushed)
    (nonempty : chunk.2 ≠ []) (restLaid : Laid (finish chunk) rest) (fits : finish chunk < 2 ^ 64)
    (inner : Flushed rest after (output.push chunk.2) flushed) :
    Flushed (chunk :: rest) after output flushed := by
  have taken := output.accepted_length chunk.2
  have pushedEq := output.push_bytesPushed
    (Nat.lt_of_le_of_lt (accepted_le_finish starts) fits)
  have roomEq := output.push_availableCapacity chunk.2
  -- past the pushed bytes but inside the window, the chunk was pushed whole
  have whole : ∀ index, (output.push chunk.2).bytesPushed ≤ index →
      index < output.bytesPushed + output.availableCapacity →
      itemAt? (chunk :: rest) index = itemAt? rest index := by
    intro index above window
    rw [itemAt?, if_neg]
    intro within
    have := within.2
    unfold finish at this
    omega
  have grows := inner.grows
  have room := inner.room
  refine ⟨inner.laid, fun other inside => List.mem_cons_of_mem _ (inner.remain other inside),
    inner.counted, by omega, by omega, inner.capacity, inner.popped, ?_, ?_, ?_, ?_⟩
  · obtain ⟨items, bufferEq, countEq, itemsEq⟩ := inner.written
    refine ⟨output.accepted chunk.2 ++ items, ?_, ?_, ?_⟩
    · rw [bufferEq, ByteStream.push_buffer, List.append_assoc]
    · rw [List.length_append]
      omega
    · intro offset inside
      rw [List.length_append] at inside
      rcases Nat.lt_or_ge offset (output.accepted chunk.2).length with here | later
      · rw [List.getElem?_append_left here, itemAt?, if_pos]
        · rw [starts, Nat.add_sub_cancel_left, ByteStream.accepted, List.getElem?_take, if_pos]
          omega
        · refine ⟨by omega, ?_⟩
          unfold finish
          omega
      · rw [List.getElem?_append_right later, itemsEq _ (by omega), whole _ (by omega) (by omega),
          pushedEq]
        congr 1
        omega
  · intro index above window
    rw [whole index (by omega) window]
    exact inner.kept index above (by omega)
  · intro index held
    have same := inner.only index held
    have behind := restLaid.le_of_itemAt? (same ▸ held)
    rw [same, itemAt?, if_neg]
    intro within
    have := within.2
    omega
  · intro missing
    refine absurd missing ((itemAt?_ne_none_iff _ _).mpr ⟨chunk, List.mem_cons_self, ?_, ?_⟩)
    · exact Nat.le_of_eq starts
    · rw [← starts]
      exact start_lt_finish nonempty

/-- Closing changes nothing that `Flushed` speaks of. -/
theorem Flushed.close {before after : List (Nat × List UInt8)} {output flushed : ByteStream}
    (done : Flushed before after output flushed) : Flushed before after output flushed.close :=
  ⟨done.laid, done.remain, done.counted, done.grows, done.room, done.capacity, done.popped,
    done.written, done.kept, done.only, done.idle⟩

theorem total_lt {low : Nat} {chunks : List (Nat × List UInt8)} (laid : Laid low chunks)
    (fits : ∀ chunk ∈ chunks, finish chunk < 2 ^ 64) : total chunks < 2 ^ 64 := by
  cases chunks with
  | nil => decide
  | cons chunk rest =>
      have bounded := (laid.raise (fun _ _ => Nat.zero_le _)).low_add_total_le
      have reached := reach_le (Nat.zero_le (2 ^ 64 - 1))
        (fun other inside => Nat.le_sub_one_of_lt (fits other inside))
      omega

theorem writeLoop_spec {chunks : List (Nat × List UInt8)} {output : ByteStream} {pending : Nat}
    (laid : Laid output.bytesPushed chunks) (fits : ∀ chunk ∈ chunks, finish chunk < 2 ^ 64)
    (counted : output.Counted) (pendingEq : pending = total chunks) :
    Flushed chunks (chunks.drop (writeLoop chunks output pending).1) output
        (writeLoop chunks output pending).2.1 ∧
      (writeLoop chunks output pending).2.2 =
        total (chunks.drop (writeLoop chunks output pending).1) := by
  induction chunks generalizing output pending with
  | nil => exact ⟨Flushed.refl True.intro counted, pendingEq⟩
  | cons chunk rest ih =>
      have chunkFits := fits chunk List.mem_cons_self
      have restFits : ∀ other ∈ rest, finish other < 2 ^ 64 := fun other inside =>
        fits other (List.mem_cons_of_mem _ inside)
      rw [writeLoop]
      split_ifs with starts
      · have small : _ ≤ finish chunk := accepted_le_finish starts
        have pushedEq := output.push_bytesPushed (Nat.lt_of_le_of_lt small chunkFits)
        have restPending : sub64 pending chunk.2.length = total rest := by
          have word := total_lt laid fits
          rw [total_cons] at pendingEq word
          rw [sub64_of_le (by omega) (by omega)]
          omega
        have nextLaid : Laid (output.push chunk.2).bytesPushed rest := laid.2.2.lower (by omega)
        have nextCounted : (output.push chunk.2).Counted := counted.push (by omega)
        obtain ⟨inner, count⟩ := ih nextLaid restFits nextCounted restPending
        exact ⟨Flushed.push starts laid.2.1 laid.2.2 chunkFits inner, count⟩
      · have above := laid.1
        exact ⟨Flushed.refl ⟨by omega, laid.2⟩ counted, pendingEq⟩

theorem writeLoop_isClose (chunks : List (Nat × List UInt8)) (output : ByteStream)
    (pending : Nat) : (writeLoop chunks output pending).2.1.isClose = output.isClose := by
  induction chunks generalizing output pending with
  | nil => rfl
  | cons chunk rest ih =>
      rw [writeLoop]
      split
      · exact (ih _ _).trans (ByteStream.push_isClose _ _)
      · rfl

theorem writeLoop_hasError (chunks : List (Nat × List UInt8)) (output : ByteStream)
    (pending : Nat) : (writeLoop chunks output pending).2.1.hasError = output.hasError := by
  induction chunks generalizing output pending with
  | nil => rfl
  | cons chunk rest ih =>
      rw [writeLoop]
      split
      · exact ih _ _
      · rfl

/-- Inserting is no error. -/
theorem insert_hasError (reassembler : Reassembler) (firstIndex : Nat) (data : List UInt8)
    (isLastSubstring : Bool) (output : ByteStream) :
    (reassembler.insert firstIndex data isLastSubstring output).2.hasError = output.hasError := by
  rw [insert]
  split
  · exact writeLoop_hasError _ _ _
  · exact writeLoop_hasError _ _ _

/-- Inserting opens no stream again. -/
theorem insert_isClosed (reassembler : Reassembler) (firstIndex : Nat) (data : List UInt8)
    (isLastSubstring : Bool) {output : ByteStream} (closed : output.isClosed = true) :
    (reassembler.insert firstIndex data isLastSubstring output).2.isClosed = true := by
  rw [insert]
  split
  · rfl
  · exact (writeLoop_isClose _ _ _).trans closed

theorem writeToStream_spec {reassembler : Reassembler} {output : ByteStream}
    (stored : reassembler.Stored output.bytesPushed) (counted : output.Counted) :
    (reassembler.writeToStream output).1.Stored
        ((reassembler.writeToStream output).2.bytesPushed + 1) ∧
      (reassembler.writeToStream output).1.streamEnd = reassembler.streamEnd ∧
      (reassembler.writeToStream output).2.isClose = output.isClose ∧
      Flushed reassembler.buf.entries (reassembler.writeToStream output).1.buf.entries output
        (reassembler.writeToStream output).2 := by
  obtain ⟨flushed, count⟩ :=
    writeLoop_spec stored.laid stored.fits counted stored.pending
  unfold writeToStream
  refine ⟨⟨?_, ?_, ?_⟩, rfl, writeLoop_isClose _ _ _, ?_⟩
  · rw [OrderedMap.eraseRange_zero_entries]
    exact flushed.laid
  · rw [OrderedMap.eraseRange_zero_entries]
    exact fun chunk inside => stored.fits chunk (flushed.remain chunk inside)
  · rw [OrderedMap.eraseRange_zero_entries]
    exact count
  · rw [OrderedMap.eraseRange_zero_entries]
    exact flushed

/-! ## One insertion -/

/-- What one insertion does: `middle` is the reassembler between storing and writing. -/
structure Insertion (before : Reassembler) (output : ByteStream) (firstIndex : Nat)
    (data : List UInt8) (isLastSubstring : Bool) (middle after : Reassembler)
    (written : ByteStream) (clampedBegin clampedEnd : Nat) : Prop where
  inserted : Inserted before.buf.entries middle output.bytesPushed
    (add64 output.bytesPushed output.availableCapacity) firstIndex data clampedBegin clampedEnd
  flushed : Flushed middle.buf.entries after.buf.entries output written
  stored : after.Stored (written.bytesPushed + 1)
  streamEnd : after.streamEnd = (before.noteEnd firstIndex data isLastSubstring).streamEnd
  closed : written.isClosed = true ↔
    output.isClosed = true ∨ written.bytesPushed = after.streamEnd

theorem noteEnd_buf (reassembler : Reassembler) (firstIndex : Nat) (data : List UInt8)
    (isLastSubstring : Bool) :
    (reassembler.noteEnd firstIndex data isLastSubstring).buf = reassembler.buf := by
  cases isLastSubstring <;> rfl

theorem noteEnd_bytesPending (reassembler : Reassembler) (firstIndex : Nat) (data : List UInt8)
    (isLastSubstring : Bool) :
    (reassembler.noteEnd firstIndex data isLastSubstring).bytesPending =
      reassembler.bytesPending := by
  cases isLastSubstring <;> rfl

theorem Stored.noteEnd {reassembler : Reassembler} {low : Nat} (stored : reassembler.Stored low)
    (firstIndex : Nat) (data : List UInt8) (isLastSubstring : Bool) :
    (reassembler.noteEnd firstIndex data isLastSubstring).Stored low := by
  have same := reassembler.noteEnd_buf firstIndex data isLastSubstring
  refine ⟨?_, ?_, ?_⟩
  · rw [same]
    exact stored.laid
  · rw [same]
    exact stored.fits
  · rw [same, noteEnd_bytesPending]
    exact stored.pending

theorem insert_spec {reassembler : Reassembler} {output : ByteStream}
    (stored : reassembler.Stored (output.bytesPushed + 1)) (counted : output.Counted)
    (firstIndex : Nat) (data : List UInt8) (isLastSubstring : Bool) :
    ∃ middle clampedBegin clampedEnd, Insertion reassembler output firstIndex data isLastSubstring
      middle (reassembler.insert firstIndex data isLastSubstring output).1
      (reassembler.insert firstIndex data isLastSubstring output).2 clampedBegin clampedEnd := by
  have notedBuf := reassembler.noteEnd_buf firstIndex data isLastSubstring
  obtain ⟨middleEnd, clampedBegin, clampedEnd, inserted⟩ :=
    insertToBuffer_spec (stored.noteEnd firstIndex data isLastSubstring) output.availableCapacity
      firstIndex data
  rw [notedBuf] at inserted
  unfold insert
  dsimp only
  generalize (reassembler.noteEnd firstIndex data isLastSubstring).insertToBuffer _ _ _ _ = middle
    at middleEnd inserted ⊢
  refine ⟨middle, clampedBegin, clampedEnd, ?_⟩
  obtain ⟨after, afterEnd, afterClosed, flushed⟩ := writeToStream_spec inserted.stored counted
  generalize middle.writeToStream output = written at after afterEnd afterClosed flushed ⊢
  have endSame := afterEnd.trans middleEnd
  split_ifs with reached
  · refine ⟨inserted, flushed.close, after, endSame, ?_⟩
    exact iff_of_true rfl (Or.inr reached.1)
  · refine ⟨inserted, flushed, after, endSame, ?_⟩
    unfold ByteStream.isClosed at reached ⊢
    rw [afterClosed] at reached ⊢
    constructor
    · exact Or.inl
    · rintro (closed | atEnd)
      · exact closed
      · exact Bool.of_not_eq_false (fun isOpen => reached ⟨atEnd, isOpen⟩)

/-! ## An insertion that stores nothing -/

/-- What is laid past the write position is not due. -/
theorem writeToStream_of_ahead {reassembler : Reassembler} {output : ByteStream}
    (stored : reassembler.Stored (output.bytesPushed + 1)) :
    reassembler.writeToStream output = (reassembler, output) := by
  have laid := stored.laid
  have same : reassembler.buf.eraseRange 0 0 = reassembler.buf :=
    OrderedMap.ext (OrderedMap.eraseRange_zero_entries _ 0)
  cases entries : reassembler.buf.entries with
  | nil => rw [writeToStream, entries, writeLoop, same]
  | cons chunk rest =>
      rw [entries] at laid
      rw [writeToStream, entries, writeLoop, if_neg (Nat.ne_of_gt laid.1), same]

/-- A substring past the window does no more than announce its end. -/
theorem insert_past_window {reassembler : Reassembler} {output : ByteStream} {firstIndex : Nat}
    (stored : reassembler.Stored (output.bytesPushed + 1))
    (past : add64 output.bytesPushed output.availableCapacity ≤ firstIndex) (data : List UInt8)
    (isLastSubstring : Bool) :
    reassembler.insert firstIndex data isLastSubstring output =
      let noted := reassembler.noteEnd firstIndex data isLastSubstring
      if output.bytesPushed = noted.streamEnd ∧ output.isClosed = false then (noted, output.close)
      else (noted, output) := by
  have ahead := writeToStream_of_ahead (stored.noteEnd firstIndex data isLastSubstring)
  rw [insert, insertToBuffer, if_pos past, ahead]

/-- Nothing is stored of an empty substring. -/
theorem insertToBuffer_nil {reassembler : Reassembler} {acceptBegin : Nat}
    (stored : reassembler.Stored (acceptBegin + 1)) (len firstIndex : Nat) :
    reassembler.insertToBuffer acceptBegin len firstIndex [] = reassembler := by
  have first := (clampBegin_spec firstIndex stored.laid stored.fits).le
  have ended := (clampEnd_spec (add64 acceptBegin len) (add64 firstIndex 0) stored.laid stored.fits).le
  have same := add64_le firstIndex 0
  rw [insertToBuffer]
  dsimp only [List.length_nil]
  split
  · rfl
  · rw [if_pos (by omega)]

/-- An empty substring can be anywhere. -/
theorem insert_nil {reassembler : Reassembler} {output : ByteStream}
    (stored : reassembler.Stored (output.bytesPushed + 1)) (firstIndex other : Nat) :
    reassembler.insert firstIndex [] false output = reassembler.insert other [] false output := by
  have unnoted : ∀ index, reassembler.noteEnd index [] false = reassembler := fun _ => rfl
  rw [insert, insert, unnoted, unnoted, insertToBuffer_nil stored, insertToBuffer_nil stored]

end Reassembler

end Minnow.Stream
