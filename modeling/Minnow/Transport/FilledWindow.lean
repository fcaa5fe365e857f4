import Minnow.Transport.SenderFill

/-!
# The segments that fill the window

What the loop stops at, how long its segments are, where they end and which of them carries
the flag for the end, in every state that a run reaches and for every outbound stream.
-/

namespace Minnow.Transport

open Foundation Foundation.Words Foundation.Runs Foundation.Tiling Minnow.Stream

open TCPSenderMessage (sequenceLength)

namespace TCPSender

variable {sender last : TCPSender} {outbound rest : ByteStream} {right : Nat}
  {segments : List TCPSenderMessage}

/-! ## The segments of the loop -/

/-- The segments are also those of a push, with less said about their lengths. -/
theorem Fills.emits (fills : Fills right sender outbound segments last rest) :
    Emits right sender outbound segments last rest := by
  induction fills with
  | stop reason => exact .nil _ _
  | @cut sender last outbound rest segments cuts more ih =>
      have room := cuts.room
      have size := Nat.min_le_left TCPConfig.maxPayloadSize (right - sender.getAbsoluteSeqno)
      have width := Nat.min_le_right TCPConfig.maxPayloadSize (right - sender.getAbsoluteSeqno)
      refine .cons (sender.share right) cuts.unfinished (fun _ => ⟨?_, ?_⟩) cuts.something ih
      · rw [share]
        omega
      · exact Nat.le_trans (List.length_take_le _ _) size

theorem Fills.stopped (fills : Fills right sender outbound segments last rest) :
    last.finPushed = true ∨ right ≤ last.getAbsoluteSeqno ∨
      (rest.buffer = [] ∧ rest.isClosed = false) := by
  induction fills with
  | stop reason => exact reason
  | cut cuts more ih => exact ih

theorem Fills.plain (fills : Fills right sender outbound segments last rest) :
    ∀ segment ∈ segments, segment.SYN = false := by
  induction fills with
  | stop reason => exact fun _ inside => absurd inside List.not_mem_nil
  | cut cuts more ih =>
      intro segment inside
      rcases List.mem_cons.mp inside with here | later
      · rw [here]
        rfl
      · exact ih segment later

/-- Every byte that leaves the stream is in a segment. -/
theorem Fills.carried (fills : Fills right sender outbound segments last rest) :
    carriedBytes segments ++ rest.buffer = outbound.buffer := by
  induction fills with
  | stop reason => rfl
  | @cut sender last outbound rest segments cuts more ih =>
      rw [ByteStream.pop_buffer] at ih
      change (outbound.buffer.take (sender.share right) ++ carriedBytes segments) ++ rest.buffer = _
      rw [List.append_assoc, ih, List.take_append_drop]

/-- Every segment has the number of its place and ends inside the window. -/
theorem Fills.placed (fills : Fills right sender outbound segments last rest)
    (small : right < 2 ^ 64) (ascending : sender.Ascending) :
    ∀ start segment,
      (start, segment) ∈ placed sequenceLength sender.getAbsoluteSeqno segments →
      segment.seqno = Wrap32.wrap start sender.isn ∧ start + segment.sequenceLength ≤ right := by
  induction fills with
  | stop reason => exact fun _ _ inside => absurd inside List.not_mem_nil
  | cut cuts more ih =>
      intro start segment inside
      rw [placed_cons, ← cuts.next small ascending] at inside
      rcases List.mem_cons.mp inside with here | later
      · cases here
        exact ⟨rfl, cuts.ends_le small⟩
      · exact ih (cuts.ascending small ascending) start segment later

/-- Where another segment can be cut, the one before took all that a segment may take. -/
theorem Cuts.full (cuts : Cuts right sender outbound) (small : right < 2 ^ 64)
    (ascending : sender.Ascending)
    (another : Cuts right (sender.emit outbound right (sender.share right))
      (outbound.pop (sender.share right))) :
    (outbound.buffer.take (sender.share right)).length = TCPConfig.maxPayloadSize := by
  have inside := take_share_length outbound cuts.room
  have room := another.room
  have flag : (sender.dataSegment outbound right (sender.share right)).FIN = false :=
    cuts.finPushed.symm.trans another.unfinished
  have next : (sender.emit outbound right (sender.share right)).getAbsoluteSeqno =
      sender.getAbsoluteSeqno + (outbound.buffer.take (sender.share right)).length := by
    rw [cuts.next small ascending, sequenceLength, flag, Bool.toNat_false]
    change _ + (0 + (outbound.buffer.take (sender.share right)).length + 0) = _
    rw [Nat.zero_add, Nat.add_zero]
  rw [next] at room
  have goesOn : ¬ (outbound.pop (sender.share right)).isFinished = true := fun finished =>
    absurd ((cuts.fin_iff small).mpr ⟨room, finished⟩) (by rw [flag]; exact Bool.false_ne_true)
  have taken := @List.length_take _ (sender.share right) outbound.buffer
  have more : (outbound.pop (sender.share right)).buffer ≠ [] := by
    intro empty
    rcases another.something with bytes | fin
    · rw [empty, List.take_nil] at bytes
      exact bytes rfl
    · rw [ByteStream.pop_of_empty _ _ empty] at fin
      exact goesOn (Bool.and_eq_true_iff.mp fin).2
  rw [ByteStream.pop_buffer, Ne, List.drop_eq_nil_iff] at more
  have least : sender.share right = min TCPConfig.maxPayloadSize (right - sender.getAbsoluteSeqno) := rfl
  omega

/-- All segments but the last are full. -/
theorem Fills.full (fills : Fills right sender outbound segments last rest)
    (small : right < 2 ^ 64) (ascending : sender.Ascending) :
    ∀ segment ∈ segments.dropLast, segment.payload.length = TCPConfig.maxPayloadSize := by
  induction fills with
  | stop reason => exact fun _ inside => absurd inside List.not_mem_nil
  | cut cuts more ih =>
      intro segment inside
      cases more with
      | stop reason => exact absurd inside List.not_mem_nil
      | cut another later =>
          rw [List.dropLast_cons_cons] at inside
          rcases List.mem_cons.mp inside with here | behind
          · rw [here]
            exact cuts.full small ascending another
          · exact ih (cuts.ascending small ascending) segment behind

/-- The flag for the end is on the last segment with bytes, where the stream has ended and the
window has room for it. -/
theorem Fills.fin_iff (fills : Fills right sender outbound segments last rest)
    (small : right < 2 ^ 64) (ascending : sender.Ascending) :
    ∀ front segment behind, segments = front ++ segment :: behind →
      (segment.FIN = true ↔ carriedBytes behind = [] ∧ rest.isFinished = true ∧
        sender.getAbsoluteSeqno + extent sequenceLength front + segment.payload.length < right) := by
  induction fills with
  | stop reason =>
      intro front segment behind split
      exact absurd split.symm (List.append_ne_nil_of_right_ne_nil _ (List.cons_ne_nil _ _))
  | @cut sender last outbound rest segments cuts more ih =>
      intro front segment behind split
      cases front with
      | nil =>
          obtain ⟨rfl, rfl⟩ := List.cons.inj split
          have carried := more.carried
          have closed : rest.isClosed = outbound.isClosed := more.emits.isClosed
          rw [cuts.fin_iff small, extent_nil, Nat.add_zero]
          change _ ↔ _ ∧ _ ∧ sender.getAbsoluteSeqno + (outbound.buffer.take _).length < right
          have finished : (outbound.pop (sender.share right)).isFinished = true ↔
              carriedBytes segments = [] ∧ rest.isFinished = true := by
            rw [ByteStream.isFinished, ByteStream.isFinished, ← carried]
            change (outbound.isClosed && _) = true ↔ _ ∧ (rest.isClosed && _) = true
            rw [closed]
            simp [and_left_comm]
          rw [finished]
          tauto
      | cons head front =>
          obtain ⟨rfl, rfl⟩ := List.cons.inj split
          rw [ih (cuts.ascending small ascending) front segment behind rfl,
            cuts.next small ascending, extent_cons, Nat.add_assoc sender.getAbsoluteSeqno]

/-! ## A push -/

/-- The SYN where it is due, and after it the segments of the loop. -/
theorem push_fills (small : sender.windowRight + TCPConfig.maxPayloadSize < 2 ^ 64)
    (ascending : (sender.pushSyn outbound).Ascending)
    (below : (sender.pushSyn outbound).getAbsoluteSeqno + TCPConfig.maxPayloadSize < 2 ^ 64) :
    ∃ segments last rest, sender.push outbound = .ok (last, rest) ∧
      Fills sender.windowRight (sender.pushSyn outbound) outbound segments last rest := by
  rw [push]
  dsimp only
  rw [pushSyn_windowRight]
  split
  case isTrue finished => exact ⟨[], _, _, rfl, .stop (Or.inl finished)⟩
  case isFalse unfinished =>
      have enough : turns (sender.pushSyn outbound) outbound < outbound.bytesBuffered + 2 := by
        have flag := Bool.toNat_le (!(sender.pushSyn outbound).finPushed)
        rw [turns, ByteStream.bytesBuffered]
        omega
      obtain ⟨segments, full, between, last, rest, looped, ended, fills⟩ :=
        pushLoop_fills small ascending below enough
      refine ⟨segments, last, rest, ?_, fills⟩
      rw [looped]
      exact ended

/-- The SYN keeps the order of what is outstanding. -/
theorem Ascending.pushSyn (ascending : sender.Ascending) (outbound : ByteStream)
    (fits : sender.getAbsoluteSeqno + 2 < 2 ^ 64) :
    (sender.pushSyn outbound).Ascending ∧ (sender.pushSyn outbound).getAbsoluteSeqno =
      sender.getAbsoluteSeqno + extent sequenceLength (sender.opening outbound) := by
  rw [TCPSender.pushSyn, opening]
  split
  case isTrue unopened =>
      have fin := Bool.toNat_le outbound.isFinished
      have room : sender.getAbsoluteSeqno +
          (sender.segment [] true outbound.isFinished).sequenceLength < 2 ^ 64 := by
        change _ + (1 + 0 + outbound.isFinished.toNat) < _
        omega
      have positive : 0 < (sender.segment [] true outbound.isFinished).sequenceLength := by
        change 0 < 1 + 0 + outbound.isFinished.toNat
        omega
      refine ⟨@Ascending.pushMessage { sender with finPushed := _, sycPushed := true } ascending
        [] true _ room positive, ?_⟩
      exact @Ascending.pushMessage_next { sender with finPushed := _, sycPushed := true } ascending
        [] true _ room
  case isFalse opened => exact ⟨ascending, rfl⟩

/-- A push that leaves no room it could have used: why it stopped, where the segments it
created lie, and which of them are full or carry the flag for the end. -/
structure Filled (sender : TCPSender) (outbound : ByteStream) (created : List TCPSenderMessage)
    (last : TCPSender) (rest : ByteStream) : Prop where
  queued : last.sendQueue = sender.sendQueue ++ created
  carried : carriedBytes created ++ rest.buffer = outbound.buffer
  isClosed : rest.isClosed = outbound.isClosed
  stopped : last.finPushed = true ∨
    sender.windowLeft + max sender.windowSize 1 ≤ last.getAbsoluteSeqno ∨
    (rest.buffer = [] ∧ rest.isClosed = false)
  numbered : ∀ start segment,
    (start, segment) ∈ placed sequenceLength sender.getAbsoluteSeqno created →
    segment.seqno = Wrap32.wrap start sender.isn
  inside : ∀ start segment,
    (start, segment) ∈ placed sequenceLength sender.getAbsoluteSeqno created →
    segment.SYN = false →
    start + segment.sequenceLength ≤ sender.windowLeft + max sender.windowSize 1
  full : ∀ segment ∈ created.dropLast, segment.SYN = false →
    segment.payload.length = TCPConfig.maxPayloadSize
  fin : ∀ front segment behind, created = front ++ segment :: behind → segment.SYN = false →
    (segment.FIN = true ↔ carriedBytes behind = [] ∧ rest.isFinished = true ∧
      sender.getAbsoluteSeqno + extent sequenceLength front + segment.payload.length <
        sender.windowLeft + max sender.windowSize 1)

/-- Before the segments of the loop comes nothing, or the SYN alone. -/
theorem opening_split {front behind : List TCPSenderMessage} {segment : TCPSenderMessage}
    (split : sender.opening outbound ++ segments = front ++ segment :: behind)
    (plain : segment.SYN = false) :
    ∃ later, front = sender.opening outbound ++ later ∧ segments = later ++ segment :: behind := by
  rw [opening] at split ⊢
  split
  case isTrue unopened =>
      rw [if_pos unopened] at split
      cases front with
      | nil =>
          obtain ⟨rfl, -⟩ := List.cons.inj split
          exact absurd plain (Bool.false_ne_true ∘ Eq.symm)
      | cons head later =>
          obtain ⟨rfl, rest⟩ := List.cons.inj split
          exact ⟨later, rfl, rest⟩
  case isFalse opened =>
      rw [if_neg opened] at split
      exact ⟨front, rfl, split⟩

/-- The SYN comes first, and nothing else before the loop. -/
theorem of_mem_opening {start position : Nat} {segment : TCPSenderMessage}
    (inside : (start, segment) ∈ placed sequenceLength position (sender.opening outbound)) :
    start = position ∧ segment = sender.segment [] true outbound.isFinished := by
  rw [opening] at inside
  split at inside
  · exact Prod.mk.inj (List.mem_singleton.mp inside)
  · exact absurd inside List.not_mem_nil

/-- What comes before the last segment, the SYN aside, comes before the last of the loop. -/
theorem mem_dropLast_of_opening {segment : TCPSenderMessage}
    (inside : segment ∈ (sender.opening outbound ++ segments).dropLast)
    (plain : segment.SYN = false) : segment ∈ segments.dropLast := by
  obtain ⟨front, behind, split⟩ := List.append_of_mem inside
  have nonempty : sender.opening outbound ++ segments ≠ [] := by
    intro empty
    rw [empty] at inside
    exact absurd inside List.not_mem_nil
  have whole := List.dropLast_append_getLast nonempty
  rw [split, List.append_assoc, List.cons_append] at whole
  obtain ⟨later, -, cut⟩ := opening_split whole.symm plain
  have some : behind ++ [(sender.opening outbound ++ segments).getLast nonempty] ≠ [] :=
    List.append_ne_nil_of_right_ne_nil _ (List.cons_ne_nil _ _)
  rw [cut, List.dropLast_append_of_ne_nil (List.cons_ne_nil _ _),
    List.dropLast_cons_of_ne_nil some]
  exact List.mem_append_right _ List.mem_cons_self

/-- The window that is filled, from the segments of the loop. -/
theorem Fills.filled
    (fills : Fills sender.windowRight (sender.pushSyn outbound) outbound segments last rest)
    (whole : sender.windowRight = sender.windowLeft + max sender.windowSize 1)
    (ascending : (sender.pushSyn outbound).Ascending)
    (next : (sender.pushSyn outbound).getAbsoluteSeqno =
      sender.getAbsoluteSeqno + extent sequenceLength (sender.opening outbound)) :
    Filled sender outbound (sender.opening outbound ++ segments) last rest := by
  have small := sender.windowRight_lt
  have placedIn := fills.placed small ascending
  have isn : (sender.pushSyn outbound).isn = sender.isn := by
    rw [pushSyn]
    split
    · rfl
    · rfl
  have noBytes : carriedBytes (sender.opening outbound) = [] := by
    rw [opening]
    split
    · rfl
    · rfl
  rw [next, isn, whole] at placedIn
  refine ⟨?_, ?_, fills.emits.isClosed, ?_, ?_, ?_, ?_, ?_⟩
  · rw [fills.emits.frame.1, pushSyn_sendQueue, List.append_assoc]
  · rw [carriedBytes, List.flatMap_append]
    change carriedBytes (sender.opening outbound) ++ carriedBytes segments ++ rest.buffer = _
    rw [noBytes, List.nil_append, fills.carried]
  · rw [← whole]
    exact fills.stopped
  · intro start segment inside
    rw [placed_append] at inside
    rcases List.mem_append.mp inside with syn | data
    · obtain ⟨rfl, rfl⟩ := of_mem_opening syn
      rfl
    · exact (placedIn start segment data).1
  · intro start segment inside plain
    rw [placed_append] at inside
    rcases List.mem_append.mp inside with syn | data
    · obtain ⟨-, rfl⟩ := of_mem_opening syn
      exact absurd plain (Bool.false_ne_true ∘ Eq.symm)
    · exact (placedIn start segment data).2
  · intro segment inside plain
    exact fills.full small ascending segment (mem_dropLast_of_opening inside plain)
  · intro front segment behind split plain
    obtain ⟨later, rfl, cut⟩ := opening_split split plain
    rw [fills.fin_iff small ascending later segment behind cut, next, whole, extent_append,
      Nat.add_assoc sender.getAbsoluteSeqno]

end TCPSender

/-! ## Runs -/

namespace Account

variable {isn : Wrap32} {written : List UInt8} {created : List TCPSenderMessage}
  {sender : TCPSender} {outbound : ByteStream}

/-- What is outstanding begins below the next number. -/
theorem ascending (account : Account isn written created sender outbound)
    (small : written.length + 2 < 2 ^ 64) : sender.Ascending := by
  rintro ⟨start, segment⟩ inside
  have placedIn := account.mem_placed inside
  have last := end_le_of_mem_placed placedIn
  have positive := account.tiled.positive segment (mem_of_mem_placed placedIn)
  rw [account.next small]
  change start < _
  omega

end Account

namespace Session

theorem run_windowSize {capacity initialRTO : UInt64} {isn : Wrap32} {ops : List Op}
    {session : Session} (ran : run capacity initialRTO isn ops = .ok session) :
    session.sender.windowSize ≤ 0xFFFF := by
  refine attempt_invariant (fun state : Session => state.sender.windowSize ≤ 0xFFFF) ?_
    (show 1 ≤ 0xFFFF by decide) ran
  intro state op next bounded last
  cases stepped_of_step last with
  | push emits =>
      obtain ⟨-, -, -, -, -, sizeSame⟩ := emits.frame
      rw [TCPSender.pushSyn_windowSize] at sizeSame
      exact sizeSame.trans_le bounded
  | @receive message ackno acked after carries received =>
      exact received.windowSize.trans_le (Nat.le_of_lt_succ message.windowSize.toNat_lt)
  | tick ticked => exact ticked.windowSize.trans_le bounded
  | _ => exact bounded

/-- In every state reached and for every stream a push fills the window: it stops at the end, at
the right edge of the window or where nothing can be sent; and its segments are full, stay inside
the window and carry the flag for the end where that fits. -/
theorem push_fills_window (capacity initialRTO : UInt64) (isn : Wrap32) (ops : List Op)
    (session : Session) (ran : run capacity initialRTO isn ops = .ok session)
    (small : session.written.length < 2 ^ 62) (outbound : ByteStream) :
    ∃ created last rest, session.sender.push outbound = .ok (last, rest) ∧
      TCPSender.Filled session.sender outbound created last rest := by
  have accounted : Account isn session.written session.created session.sender session.outbound :=
    run_accounted ran (by omega)
  have bound := accounted.extent_le
  have left := accounted.left
  have next := accounted.next (by omega)
  have window := run_windowSize ran
  have size : TCPConfig.maxPayloadSize = 1000 := rfl
  have whole : session.sender.windowRight =
      session.sender.windowLeft + max session.sender.windowSize 1 := by
    rw [TCPSender.windowRight]
    split
    case isTrue zero =>
        rw [zero]
        exact add64_of_lt (by omega)
    case isFalse positive =>
        rw [Nat.max_eq_left (Nat.one_le_iff_ne_zero.mpr positive)]
        exact add64_of_lt (by omega)
  obtain ⟨ascending, nextIs⟩ :=
    (accounted.ascending (by omega)).pushSyn outbound (by omega)
  have opening : extent sequenceLength (session.sender.opening outbound) ≤ 2 := by
    have fin := Bool.toNat_le outbound.isFinished
    rw [TCPSender.opening]
    split
    · change 1 + 0 + outbound.isFinished.toNat + 0 ≤ 2
      omega
    · exact Nat.zero_le _
  obtain ⟨segments, last, rest, pushed, fills⟩ :=
    TCPSender.push_fills (by omega) ascending (by omega)
  exact ⟨_, last, rest, pushed, fills.filled whole ascending nextIs⟩

/-- The SYN is acknowledged with a window of three, and the stream has two bytes and its end. -/
def endInWindow : List Op :=
  [.push, .receive { ackno := some ⟨1⟩, windowSize := 3 }, .write [97, 98], .close]

theorem push_fills_window_endInWindow :
    ∃ session, run 8 1000 ⟨0⟩ endInWindow = .ok session ∧
      ∃ created last rest, session.sender.push session.outbound = .ok (last, rest) ∧
        TCPSender.Filled session.sender session.outbound created last rest :=
  ⟨_, rfl, push_fills_window 8 1000 ⟨0⟩ endInWindow _ rfl (by decide) _⟩

end Session

end Minnow.Transport
