import Minnow.Transport.SenderAccount

/-!
# A push fills the window

The loop and the remainder are one: each segment takes as much as the limit on payloads and
the window allow, and the last one ends the window, the bytes or the stream.
-/

namespace Minnow.Transport

open Foundation Foundation.Words Foundation.Runs Foundation.Tiling Minnow.Stream

open TCPSenderMessage (sequenceLength)

namespace TCPSender

/-- The outstanding segments begin below the next number. -/
def Ascending (sender : TCPSender) : Prop :=
  ∀ entry ∈ sender.outstandingMessages.entries, entry.1 < sender.getAbsoluteSeqno

variable {sender last : TCPSender} {outbound rest : ByteStream} {right : Nat}
  {segments : List TCPSenderMessage}

theorem Ascending.pushMessage_entries (ascending : sender.Ascending) (payload : List UInt8)
    (syn fin : Bool) : (sender.pushMessage payload syn fin).outstandingMessages.entries =
      sender.outstandingMessages.entries ++
        [(sender.getAbsoluteSeqno, sender.segment payload syn fin)] := by
  rw [pushMessage_outstandingMessages]
  exact OrderedMap.insert_entries_of_above _ ascending _

theorem Ascending.pushMessage_next (ascending : sender.Ascending) {payload : List UInt8}
    {syn fin : Bool}
    (fits : sender.getAbsoluteSeqno + (sender.segment payload syn fin).sequenceLength < 2 ^ 64) :
    (sender.pushMessage payload syn fin).getAbsoluteSeqno =
      sender.getAbsoluteSeqno + (sender.segment payload syn fin).sequenceLength := by
  have last : (sender.pushMessage payload syn fin).outstandingMessages.entries.getLast? =
      some (sender.getAbsoluteSeqno, sender.segment payload syn fin) := by
    rw [ascending.pushMessage_entries, List.getLast?_concat]
  rw [getAbsoluteSeqno_of_last last, add64_of_lt fits]

theorem Ascending.pushMessage (ascending : sender.Ascending) {payload : List UInt8}
    {syn fin : Bool}
    (fits : sender.getAbsoluteSeqno + (sender.segment payload syn fin).sequenceLength < 2 ^ 64)
    (positive : 0 < (sender.segment payload syn fin).sequenceLength) :
    (sender.pushMessage payload syn fin).Ascending := by
  intro entry inside
  rw [ascending.pushMessage_next fits]
  rw [ascending.pushMessage_entries] at inside
  rcases List.mem_append.mp inside with old | new
  · have below := ascending entry old
    omega
  · rw [List.mem_singleton.mp new]
    change sender.getAbsoluteSeqno < _
    omega

/-! ## One segment -/

theorem isFinMsg_iff {payload : List UInt8}
    (fits : payload.length + sender.getAbsoluteSeqno < 2 ^ 64) :
    sender.isFinMsg right payload outbound = true ↔
      payload.length + sender.getAbsoluteSeqno < right ∧ outbound.isFinished = true := by
  rw [isFinMsg, add64_of_lt fits, Bool.and_eq_true, decide_eq_true_eq]

/-- How many bytes the next segment takes. -/
def share (sender : TCPSender) (right : Nat) : Nat :=
  min TCPConfig.maxPayloadSize (right - sender.getAbsoluteSeqno)

/-- A segment can be cut that takes its share. -/
structure Cuts (right : Nat) (sender : TCPSender) (outbound : ByteStream) : Prop where
  unfinished : sender.finPushed = false
  room : sender.getAbsoluteSeqno < right
  something : outbound.buffer.take (sender.share right) ≠ [] ∨
    sender.isFinMsg right (outbound.buffer.take (sender.share right))
      (outbound.pop (sender.share right)) = true

theorem take_share_length (outbound : ByteStream) (room : sender.getAbsoluteSeqno < right) :
    sender.getAbsoluteSeqno + (outbound.buffer.take (sender.share right)).length ≤ right := by
  have taken := List.length_take_le (sender.share right) outbound.buffer
  rw [share] at taken ⊢
  omega

/-- The flag is set just where the stream ends before the window does. -/
theorem Cuts.fin_iff (cuts : Cuts right sender outbound) (small : right < 2 ^ 64) :
    (sender.dataSegment outbound right (sender.share right)).FIN = true ↔
    sender.getAbsoluteSeqno + (outbound.buffer.take (sender.share right)).length < right ∧
      (outbound.pop (sender.share right)).isFinished = true := by
  have inside := take_share_length outbound cuts.room
  rw [Nat.add_comm]
  exact isFinMsg_iff (by omega)

theorem Cuts.ends_le (cuts : Cuts right sender outbound) (small : right < 2 ^ 64) :
    sender.getAbsoluteSeqno +
      (sender.dataSegment outbound right (sender.share right)).sequenceLength ≤ right := by
  have inside := take_share_length outbound cuts.room
  have fin := cuts.fin_iff small
  rw [sequenceLength]
  change _ + (0 + (outbound.buffer.take (sender.share right)).length + _) ≤ _
  cases flag : (sender.dataSegment outbound right (sender.share right)).FIN with
  | false =>
      rw [Bool.toNat_false]
      omega
  | true =>
      obtain ⟨before, -⟩ := fin.mp flag
      rw [Bool.toNat_true]
      omega

theorem Cuts.positive (cuts : Cuts right sender outbound) :
    0 < (sender.dataSegment outbound right (sender.share right)).sequenceLength := by
  rw [sequenceLength]
  rcases cuts.something with bytes | fin
  · have some := List.length_pos_of_ne_nil bytes
    change 0 < _ + (outbound.buffer.take (sender.share right)).length + _
    omega
  · have flag : (sender.dataSegment outbound right (sender.share right)).FIN = true := fin
    rw [flag, Bool.toNat_true]
    omega

theorem Cuts.next (cuts : Cuts right sender outbound) (small : right < 2 ^ 64)
    (ascending : sender.Ascending) :
    (sender.emit outbound right (sender.share right)).getAbsoluteSeqno =
      sender.getAbsoluteSeqno +
        (sender.dataSegment outbound right (sender.share right)).sequenceLength := by
  have ends := cuts.ends_le small
  exact @Ascending.pushMessage_next { sender with finPushed := _ } ascending _ _ _
    (Nat.lt_of_le_of_lt ends small)

theorem Cuts.ascending (cuts : Cuts right sender outbound) (small : right < 2 ^ 64)
    (ascending : sender.Ascending) :
    (sender.emit outbound right (sender.share right)).Ascending :=
  @Ascending.pushMessage { sender with finPushed := _ } ascending _ _ _
    (Nat.lt_of_le_of_lt (cuts.ends_le small) small) cuts.positive

theorem Cuts.finPushed (cuts : Cuts right sender outbound) :
    (sender.emit outbound right (sender.share right)).finPushed =
    (sender.dataSegment outbound right (sender.share right)).FIN := by
  change (sender.finPushed || _) = _
  rw [cuts.unfinished, Bool.false_or]
  rfl

/-! ## All segments -/

/-- Segments are cut, each with its share, until the end is flagged, the window is full or
nothing more can be sent. -/
inductive Fills (right : Nat) :
    TCPSender → ByteStream → List TCPSenderMessage → TCPSender → ByteStream → Prop
  | stop {sender : TCPSender} {outbound : ByteStream}
      (reason : sender.finPushed = true ∨ right ≤ sender.getAbsoluteSeqno ∨
        (outbound.buffer = [] ∧ outbound.isClosed = false)) :
      Fills right sender outbound [] sender outbound
  | cut {sender last : TCPSender} {outbound rest : ByteStream} {segments : List TCPSenderMessage}
      (cuts : Cuts right sender outbound)
      (more : Fills right (sender.emit outbound right (sender.share right))
        (outbound.pop (sender.share right)) segments last rest) :
      Fills right sender outbound
        (sender.dataSegment outbound right (sender.share right) :: segments) last rest

/-- Where no flag is set before the end of the window, the stream goes on. -/
theorem isClosed_of_not_fin {payload : List UInt8}
    (fits : payload.length + sender.getAbsoluteSeqno < 2 ^ 64)
    (before : payload.length + sender.getAbsoluteSeqno < right) (empty : outbound.buffer = [])
    (noFin : sender.isFinMsg right payload outbound = false) : outbound.isClosed = false := by
  cases closed : outbound.isClosed with
  | false => rfl
  | true =>
      have finished : outbound.isFinished = true :=
        Bool.and_eq_true_iff.mpr ⟨closed, List.isEmpty_iff.mpr empty⟩
      exact absurd ((isFinMsg_iff fits).mpr ⟨before, finished⟩) (by rw [noFin]; exact Bool.false_ne_true)

/-- Where nothing is cut from the stream and no flag is set, it is drained, but goes on. -/
theorem goesOn_of_nothing {len : Nat} (positive : 0 < len) (small : right < 2 ^ 64)
    (room : sender.getAbsoluteSeqno < right)
    (nothing : (outbound.buffer.take len).isEmpty = true)
    (noFin : sender.isFinMsg right (outbound.buffer.take len) (outbound.pop len) = false) :
    outbound.buffer = [] ∧ outbound.isClosed = false ∧
      sender.isFinMsg right [] outbound = false := by
  have empty : outbound.buffer = [] := by
    rcases List.take_eq_nil_iff.mp (List.isEmpty_iff.mp nothing) with zero | empty
    · omega
    · exact empty
  rw [outbound.pop_of_empty _ empty, empty, List.take_nil] at noFin
  have goesOn := isClosed_of_not_fin (by rw [List.length_nil]; omega)
    (by rw [List.length_nil]; omega) empty noFin
  exact ⟨empty, goesOn, noFin⟩

/-- After a segment that takes the rest of the window there is a reason to stop. -/
theorem Cuts.stops (cuts : Cuts right sender outbound) (small : right < 2 ^ 64)
    (ascending : sender.Ascending)
    (least : right - sender.getAbsoluteSeqno ≤ TCPConfig.maxPayloadSize) :
    Fills right (sender.emit outbound right (sender.share right)) (outbound.pop (sender.share right))
      [] (sender.emit outbound right (sender.share right)) (outbound.pop (sender.share right)) := by
  apply Fills.stop
  have whole : sender.share right = right - sender.getAbsoluteSeqno := Nat.min_eq_right least
  have inside := take_share_length outbound cuts.room
  have taken := @List.length_take _ (sender.share right) outbound.buffer
  have room := cuts.room
  rw [cuts.finPushed, cuts.next small ascending]
  cases flag : (sender.dataSegment outbound right (sender.share right)).FIN with
  | true => exact Or.inl rfl
  | false =>
      refine Or.inr ?_
      rcases Nat.lt_or_ge (sender.getAbsoluteSeqno +
        (outbound.buffer.take (sender.share right)).length) right with short | full
      · have empty : (outbound.pop (sender.share right)).buffer = [] := by
          rw [ByteStream.pop_buffer, List.drop_eq_nil_iff]
          omega
        rw [Nat.add_comm] at short
        exact Or.inr ⟨empty, isClosed_of_not_fin (by omega) short empty flag⟩
      · refine Or.inl ?_
        rw [sequenceLength]
        change right ≤ _ + (0 + (outbound.buffer.take (sender.share right)).length + _)
        omega

/-- The remainder, where no full segment fits. -/
theorem pushRemainder_fills (small : right < 2 ^ 64) (ascending : sender.Ascending)
    (least : right - sender.getAbsoluteSeqno ≤ TCPConfig.maxPayloadSize) :
    ∃ segments last rest, sender.pushRemainder right outbound = .ok (last, rest) ∧
      Fills right sender outbound segments last rest := by
  have whole : sender.share right = right - sender.getAbsoluteSeqno := Nat.min_eq_right least
  rw [pushRemainder_eq]
  split
  case isTrue enters =>
      obtain ⟨unfinished, room⟩ := enters
      rw [sub64_of_le (Nat.le_of_lt room) small, ← whole]
      split
      case isTrue something =>
          have cuts : Cuts right sender outbound :=
            ⟨unfinished, room, something.imp_left List.isEmpty_eq_false_iff.mp⟩
          exact ⟨_, _, _, rfl, .cut cuts (cuts.stops small ascending least)⟩
      case isFalse nothing =>
          rw [not_or, Bool.not_eq_false, Bool.not_eq_true] at nothing
          obtain ⟨empty, goesOn, -⟩ :=
            goesOn_of_nothing (by omega) small room nothing.1 nothing.2
          rw [outbound.pop_of_empty _ empty]
          exact ⟨[], _, _, rfl, .stop (Or.inr (Or.inr ⟨empty, goesOn⟩))⟩
  case isFalse leaves =>
      rw [not_and_or, Bool.not_eq_false, Nat.not_lt] at leaves
      exact ⟨[], _, _, rfl, .stop (leaves.imp_right Or.inl)⟩

/-- The loop and the remainder after it. -/
theorem pushLoop_fills {fuel : Nat} (small : right + TCPConfig.maxPayloadSize < 2 ^ 64)
    (ascending : sender.Ascending)
    (below : sender.getAbsoluteSeqno + TCPConfig.maxPayloadSize < 2 ^ 64)
    (enough : turns sender outbound < fuel) :
    ∃ segments full between last rest, pushLoop right fuel sender outbound = .ok (full, between) ∧
      full.pushRemainder right between = .ok (last, rest) ∧
      Fills right sender outbound segments last rest := by
  induction fuel generalizing sender outbound with
  | zero => exact absurd enough (Nat.not_lt_zero _)
  | succ fuel ih =>
      rw [pushLoop_succ, add64_of_lt below]
      split
      case isTrue enters =>
          obtain ⟨unfinished, fits⟩ := enters
          have size : TCPConfig.maxPayloadSize = 1000 := rfl
          have share : sender.share right = TCPConfig.maxPayloadSize :=
            Nat.min_eq_left (by omega)
          rw [← share]
          split
          case isTrue nothing =>
              obtain ⟨empty, goesOn, noFin⟩ :=
                goesOn_of_nothing (by omega) (by omega) (by omega) nothing.1 nothing.2
              rw [outbound.pop_of_empty _ empty]
              have leaves : sender.pushRemainder right outbound = .ok (sender, outbound) := by
                rw [pushRemainder_eq, outbound.pop_of_empty _ empty, empty, List.take_nil, noFin]
                simp
              exact ⟨[], _, _, _, _, rfl, leaves, .stop (Or.inr (Or.inr ⟨empty, goesOn⟩))⟩
          case isFalse something =>
              rw [not_and_or, Bool.not_eq_false] at something
              have cuts : Cuts right sender outbound := by
                refine ⟨unfinished, by omega, something.imp_left ?_⟩
                exact fun full nothing => full (List.isEmpty_iff.mpr nothing)
              have ends := cuts.ends_le (by omega)
              have next := cuts.next (by omega) ascending
              have fewer := turns_emit_lt (share ▸ by decide) unfinished cuts.something
              obtain ⟨segments, full, between, last, rest, looped, ended, fills⟩ :=
                ih (cuts.ascending (by omega) ascending) (by omega)
                  (Nat.lt_of_lt_of_le fewer (Nat.le_of_lt_succ enough))
              exact ⟨_, full, between, last, rest, looped, ended, .cut cuts fills⟩
      case isFalse leaves =>
          rw [not_and_or, Bool.not_eq_false, Nat.not_le] at leaves
          rcases leaves with finished | least
          · have ends : sender.pushRemainder right outbound = .ok (sender, outbound) := by
              rw [pushRemainder_eq, if_neg (by simp [finished])]
            exact ⟨[], _, _, _, _, rfl, ends, .stop (Or.inl finished)⟩
          · obtain ⟨segments, last, rest, ended, fills⟩ :=
              @pushRemainder_fills _ outbound right (by omega) ascending (by omega)
            exact ⟨segments, _, _, last, rest, rfl, ended, fills⟩

end TCPSender

end Minnow.Transport
