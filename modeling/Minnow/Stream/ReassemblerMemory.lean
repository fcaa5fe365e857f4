import Minnow.Stream.ReassemblerRuns

/-!
# The memory bound

The bytes held should lie inside the window, so that they fit the capacity together
with the bytes buffered.  Clamping the end of the data forgets the window when a
chunk is stored: the bound holds exactly in the runs that never get there.
-/

namespace Minnow.Stream

open Foundation Foundation.Words Foundation.Chunks Foundation.Runs

namespace Assembly

/-- Every byte held lies inside the window, and what is held and what is buffered fit
the capacity. -/
def Bounded (assembly : Assembly) : Prop :=
  (∀ index, assembly.heldAt index ≠ none → index < assembly.edge) ∧
    assembly.reassembler.bytesPending + assembly.output.bytesBuffered ≤
      assembly.output.capacity.toNat

/-- Data that starts behind the write position and reaches past the window is inserted
only while no chunk is stored. -/
def EndsInWindow (assembly : Assembly) : Op → Prop
  | .insert firstIndex data _ =>
      assembly.position < firstIndex → firstIndex < assembly.acceptEnd →
        assembly.acceptEnd < add64 firstIndex data.length →
        assembly.reassembler.buf.entries = []
  | .pop _ => True

/-- The size of what is held follows from where it is held. -/
theorem bounded_of_held {assembly : Assembly} (sound : assembly.Sound)
    (inside : ∀ index, assembly.heldAt index ≠ none → index < assembly.edge) :
    assembly.Bounded := by
  refine ⟨inside, ?_⟩
  have edgeEq := sound.edge_eq
  have full := assembly.output.buffer_le
  rw [sound.stored.pending]
  unfold ByteStream.bytesBuffered
  unfold ByteStream.availableCapacity at edgeEq
  cases entriesEq : assembly.reassembler.buf.entries with
  | nil => exact (Nat.zero_add _).symm ▸ full
  | cons chunk rest =>
      have laid := sound.stored.laid
      have ends : ∀ other ∈ assembly.reassembler.buf.entries, finish other ≤ assembly.edge := by
        intro other otherIn
        have wide := start_lt_finish (laid.nonempty otherIn)
        have last := inside (finish other - 1) ((itemAt?_ne_none_iff _ _).mpr
          ⟨other, otherIn, by omega, by omega⟩)
        omega
      have chunkIn : chunk ∈ assembly.reassembler.buf.entries := by
        rw [entriesEq]
        exact List.mem_cons_self
      have low := laid.start_le chunkIn
      have high := ends chunk chunkIn
      have wide := start_lt_finish (laid.nonempty chunkIn)
      have reached := reach_le (by omega : assembly.position + 1 ≤ assembly.edge) ends
      have size := laid.low_add_total_le
      rw [entriesEq] at reached size
      omega

/-- The step that breaks the bound: the piece keeps its end past the window and waits. -/
theorem exceeds_of_not_endsInWindow {assembly : Assembly} (sound : assembly.Sound)
    (bounded : assembly.Bounded) {firstIndex : Nat} {data : List UInt8} {isLastSubstring : Bool}
    (behind : assembly.position < firstIndex) (opened : firstIndex < assembly.acceptEnd)
    (past : assembly.acceptEnd < add64 firstIndex data.length)
    (stored : assembly.reassembler.buf.entries ≠ []) :
    ¬ (assembly.insert firstIndex data isLastSubstring).Bounded := by
  have edgeIs := acceptEnd_eq_edge sound (Nat.lt_trans behind opened)
  obtain ⟨middle, clampedBegin, clampedEnd, done⟩ :=
    sound.insert_spec firstIndex data isLastSubstring
  have laid := sound.stored.laid
  have endIs : clampedEnd = add64 firstIndex data.length := by
    refine done.inserted.overrun opened stored ?_
    intro chunk inside
    have wide := start_lt_finish (laid.nonempty inside)
    have last := bounded.1 (finish chunk - 1) ((itemAt?_ne_none_iff _ _).mpr
      ⟨chunk, inside, by omega, by omega⟩)
    omega
  have beginLow := done.inserted.first.le
  have dataEnd := Nat.le_trans done.inserted.end_le (add64_le _ _)
  -- the begin is moved over stored bytes only, and those lie inside the window
  have beginInside : clampedBegin ≤ assembly.acceptEnd := by
    refine Nat.le_of_not_lt (fun far => ?_)
    have held := done.inserted.first.covered assembly.acceptEnd
      (by change max assembly.position firstIndex ≤ _; omega) far
    have := bounded.1 _ held
    omega
  have lastHeld : middle.heldAt (clampedEnd - 1) ≠ none := by
    rw [done.inserted.heldAt, if_pos (by omega), List.getElem?_eq_getElem (by omega)]
    exact Option.some_ne_none _
  have idle : (assembly.insert firstIndex data isLastSubstring).reassembler.buf.entries =
      middle.buf.entries := by
    refine done.flushed.idle ?_
    have old : assembly.heldAt assembly.position = none :=
      laid.itemAt?_eq_none (Nat.lt_succ_self _)
    have same := done.inserted.heldAt assembly.position
    rw [if_neg (by omega)] at same
    exact same.trans old
  intro after
  have lastInside := after.1 (clampedEnd - 1) (by
    change itemAt? (assembly.insert firstIndex data isLastSubstring).reassembler.buf.entries _ ≠ none
    rw [idle]
    exact lastHeld)
  have edgeSame : (assembly.insert firstIndex data isLastSubstring).edge = assembly.edge := by
    unfold edge
    rw [done.flushed.popped, done.flushed.capacity]
  omega

/-- Data that starts at the write position or before it leaves nothing new behind. -/
theorem held_of_insert_front {assembly : Assembly} (sound : assembly.Sound) {firstIndex : Nat}
    {data : List UInt8} {isLastSubstring : Bool} (front : firstIndex ≤ assembly.position)
    {index : Nat} (held : (assembly.insert firstIndex data isLastSubstring).heldAt index ≠ none) :
    assembly.heldAt index ≠ none := by
  obtain ⟨middle, clampedBegin, clampedEnd, done⟩ :=
    sound.insert_spec firstIndex data isLastSubstring
  have missing : assembly.heldAt assembly.position = none :=
    sound.stored.laid.itemAt?_eq_none (Nat.lt_succ_self _)
  have startIs : max assembly.output.bytesPushed firstIndex = assembly.position :=
    Nat.max_eq_left front
  have beginIs : clampedBegin = assembly.position := by
    have first := done.inserted.first
    rw [startIs] at first
    exact first.eq missing
  have middleHeld := done.flushed.only index held
  change _ = middle.heldAt index at middleHeld
  rw [done.inserted.heldAt] at middleHeld
  split_ifs at middleHeld with range
  · obtain ⟨piece, pieceIn, pieceStart, pieceEnd⟩ := done.inserted.placed (by omega)
    obtain ⟨chunk, chunkIn, within⟩ := (itemAt?_ne_none_iff _ _).mp held
    have after := done.stored.laid.start_le chunkIn
    have grows := done.flushed.grows
    have apart := done.inserted.stored.laid.finish_le pieceIn (done.flushed.remain chunk chunkIn)
      (by change assembly.position ≤ _ at grows; omega)
    have := within.1
    omega
  · exact fun gone => held (middleHeld.trans gone)

theorem bounded_step {assembly : Assembly} (sound : assembly.Sound) (bounded : assembly.Bounded)
    {op : Op} (ends : assembly.EndsInWindow op) : (assembly.step op).Bounded := by
  refine bounded_of_held (sound.step op) ?_
  intro index held
  refine Nat.lt_of_lt_of_le ?_ (edge_le_step sound op)
  cases op with
  | pop len => exact bounded.1 index held
  | insert firstIndex data isLastSubstring =>
      rcases Nat.lt_or_ge assembly.position firstIndex with behind | front
      · obtain ⟨middle, clampedBegin, clampedEnd, done⟩ :=
          sound.insert_spec firstIndex data isLastSubstring
        have middleHeld := done.flushed.only index held
        change _ = middle.heldAt index at middleHeld
        rw [done.inserted.heldAt] at middleHeld
        split_ifs at middleHeld with range
        · have opened := done.inserted.opened (by omega)
          have acceptLe := acceptEnd_le_edge sound
          rcases done.inserted.reach with inWindow | atChunk | ⟨stored, atEnd⟩
          · exact Nat.lt_of_lt_of_le range.2 (Nat.le_trans inWindow acceptLe)
          · exact Nat.lt_trans range.2 (bounded.1 clampedEnd atChunk)
          · refine Nat.lt_of_lt_of_le range.2 (Nat.le_trans (Nat.le_of_not_lt fun past => ?_) acceptLe)
            exact stored (ends behind opened (atEnd ▸ past))
        · exact bounded.1 index (fun gone => held (middleHeld.trans gone))
      · exact bounded.1 index (held_of_insert_front sound front held)

theorem start_bounded (capacity : UInt64) : (start capacity).Bounded :=
  ⟨fun _ held => absurd rfl held, Nat.zero_le _⟩

/-- The memory bound holds after every call exactly in the runs in which no insertion
reaches from behind the write position past the window while a chunk is stored. -/
theorem bounded_iff_endsInWindow (capacity : UInt64) (ops : List Op) :
    EachState step Bounded (start capacity) ops ↔ EachStep step EndsInWindow (start capacity) ops := by
  refine eachState_iff_eachStep Sound Bounded EndsInWindow (fun _ op sound => sound.step op) ?_
    (start_sound capacity) (start_bounded capacity) ops
  intro assembly op sound bounded
  refine ⟨fun after => ?_, bounded_step sound bounded⟩
  cases op with
  | pop len => exact True.intro
  | insert firstIndex data isLastSubstring =>
      intro behind opened past
      by_contra stored
      exact exceeds_of_not_endsInWindow sound bounded behind opened past stored after

/-- Seven bytes are held at capacity four, up to index seven. -/
theorem bounded_fails_past_chunk :
    ¬ EachState step Bounded (start 4)
      [.insert 1 [98] false, .insert 2 [99, 100, 101, 102, 103, 104] false] := by
  intro each
  have size := each.2.2.2
  exact absurd size (by decide)

end Assembly

end Minnow.Stream
