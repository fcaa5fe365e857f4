import Minnow.Foundation.Tiling
import Minnow.Transport.TCPSender

/-!
# What the sender's calls do

`push` is a sequence of segments, each cut from the front of the outbound stream.
`receive` removes the leading segments that the ackno covers, `tick` queues a copy of
the first one.
-/

namespace Minnow.Transport

open Foundation Foundation.Words Minnow.Stream

namespace TCPSender

/-- The segment that `pushMessage` makes. -/
def segment (sender : TCPSender) (payload : List UInt8) (syn fin : Bool) : TCPSenderMessage :=
  { seqno := Wrap32.wrap sender.getAbsoluteSeqno sender.isn, payload := payload, SYN := syn, FIN := fin }

section PushMessage

variable (sender : TCPSender) (payload : List UInt8) (syn fin : Bool)

@[simp] theorem pushMessage_sendQueue :
    (sender.pushMessage payload syn fin).sendQueue =
      sender.sendQueue ++ [sender.segment payload syn fin] := rfl

@[simp] theorem pushMessage_outstandingMessages :
    (sender.pushMessage payload syn fin).outstandingMessages =
      sender.outstandingMessages.insert sender.getAbsoluteSeqno (sender.segment payload syn fin) :=
  rfl

@[simp] theorem pushMessage_sycPushed :
    (sender.pushMessage payload syn fin).sycPushed = sender.sycPushed := rfl

@[simp] theorem pushMessage_finPushed :
    (sender.pushMessage payload syn fin).finPushed = sender.finPushed := rfl

@[simp] theorem pushMessage_retransmissionTimer :
    (sender.pushMessage payload syn fin).retransmissionTimer = sender.retransmissionTimer := rfl

@[simp] theorem pushMessage_isn : (sender.pushMessage payload syn fin).isn = sender.isn := rfl

@[simp] theorem pushMessage_windowLeft :
    (sender.pushMessage payload syn fin).windowLeft = sender.windowLeft := rfl

@[simp] theorem pushMessage_windowSize :
    (sender.pushMessage payload syn fin).windowSize = sender.windowSize := rfl

end PushMessage

/-! ## Pushing -/

/-- The segment cut from the next `len` bytes of the stream. -/
def dataSegment (sender : TCPSender) (outbound : ByteStream) (right len : Nat) : TCPSenderMessage :=
  sender.segment (outbound.buffer.take len) false
    (sender.isFinMsg right (outbound.buffer.take len) (outbound.pop len))

/-- The sender after that segment. -/
def emit (sender : TCPSender) (outbound : ByteStream) (right len : Nat) : TCPSender :=
  { sender with
    finPushed := sender.finPushed ||
      sender.isFinMsg right (outbound.buffer.take len) (outbound.pop len) }.pushMessage
    (outbound.buffer.take len) false
    (sender.isFinMsg right (outbound.buffer.take len) (outbound.pop len))

/-- Segments are cut from the stream one after the other, inside the window, until the
flag for the end is set. -/
inductive Emits (right : Nat) :
    TCPSender → ByteStream → List TCPSenderMessage → TCPSender → ByteStream → Prop
  | nil (sender : TCPSender) (outbound : ByteStream) : Emits right sender outbound [] sender outbound
  | cons {sender last : TCPSender} {outbound rest : ByteStream} {segments : List TCPSenderMessage}
      (len : Nat) (unfinished : sender.finPushed = false)
      (room : sender.getAbsoluteSeqno + TCPConfig.maxPayloadSize < 2 ^ 64 →
        sender.getAbsoluteSeqno + len ≤ right ∧
          (outbound.buffer.take len).length ≤ TCPConfig.maxPayloadSize)
      (something : outbound.buffer.take len ≠ [] ∨
        sender.isFinMsg right (outbound.buffer.take len) (outbound.pop len) = true)
      (more : Emits right (sender.emit outbound right len) (outbound.pop len) segments last rest) :
      Emits right sender outbound (sender.dataSegment outbound right len :: segments) last rest

theorem Emits.append {right : Nat} {first middle last : TCPSender}
    {outbound between rest : ByteStream} {segments more : List TCPSenderMessage}
    (emits : Emits right first outbound segments middle between)
    (others : Emits right middle between more last rest) :
    Emits right first outbound (segments ++ more) last rest := by
  induction emits with
  | nil => exact others
  | cons len unfinished room something _ ih =>
      exact Emits.cons len unfinished room something (ih others)

/-- What the loop leaves for the remainder. -/
def Exhausted (right : Nat) (sender : TCPSender) (outbound : ByteStream) : Prop :=
  sender.finPushed = true ∨ right < add64 sender.getAbsoluteSeqno TCPConfig.maxPayloadSize ∨
    outbound.buffer = []

theorem pushLoop_succ (right fuel : Nat) (sender : TCPSender) (outbound : ByteStream) :
    pushLoop right (fuel + 1) sender outbound =
      if sender.finPushed = false ∧
          add64 sender.getAbsoluteSeqno TCPConfig.maxPayloadSize ≤ right then
        if (outbound.buffer.take TCPConfig.maxPayloadSize).isEmpty ∧
            sender.isFinMsg right (outbound.buffer.take TCPConfig.maxPayloadSize)
              (outbound.pop TCPConfig.maxPayloadSize) = false then
          .ok (sender, outbound.pop TCPConfig.maxPayloadSize)
        else
          pushLoop right fuel (sender.emit outbound right TCPConfig.maxPayloadSize)
            (outbound.pop TCPConfig.maxPayloadSize)
      else .ok (sender, outbound) := by
  rw [pushLoop, ByteStream.read_eq]
  rfl

/-- How many turns the loop can still take. -/
def turns (sender : TCPSender) (outbound : ByteStream) : Nat :=
  outbound.buffer.length + (!sender.finPushed).toNat

/-- A segment takes a byte or sets the flag. -/
theorem turns_emit_lt {right len : Nat} {sender : TCPSender} {outbound : ByteStream}
    (positive : 0 < len) (unfinished : sender.finPushed = false)
    (something : outbound.buffer.take len ≠ [] ∨
      sender.isFinMsg right (outbound.buffer.take len) (outbound.pop len) = true) :
    turns (sender.emit outbound right len) (outbound.pop len) < turns sender outbound := by
  unfold turns
  rw [ByteStream.pop_buffer, List.length_drop, unfinished, Bool.not_false, Bool.toNat_true]
  have flag : (sender.emit outbound right len).finPushed =
      sender.isFinMsg right (outbound.buffer.take len) (outbound.pop len) := by
    change (sender.finPushed || _) = _
    rw [unfinished, Bool.false_or]
  rw [flag]
  cases isFin : sender.isFinMsg right (outbound.buffer.take len) (outbound.pop len) with
  | true =>
      rw [Bool.not_true, Bool.toNat_false]
      omega
  | false =>
      have full : outbound.buffer ≠ [] := by
        rcases something with nonempty | final
        · exact fun empty => nonempty (by rw [empty, List.take_nil])
        · exact nomatch isFin.symm.trans final
      have buffered := List.length_pos_iff.mpr full
      rw [Bool.not_false, Bool.toNat_true]
      omega

theorem pushLoop_spec (right : Nat) {fuel : Nat} {sender : TCPSender} {outbound : ByteStream}
    (enough : turns sender outbound < fuel) :
    ∃ segments last rest, pushLoop right fuel sender outbound = .ok (last, rest) ∧
      Emits right sender outbound segments last rest ∧ Exhausted right last rest := by
  induction fuel generalizing sender outbound with
  | zero => exact absurd enough (Nat.not_lt_zero _)
  | succ fuel ih =>
      rw [pushLoop_succ]
      split_ifs with enters stops
      · have empty : outbound.buffer = [] := by
          rcases List.take_eq_nil_iff.mp (List.isEmpty_iff.mp stops.1) with zero | empty
          · exact absurd zero (by decide)
          · exact empty
        rw [outbound.pop_of_empty _ empty]
        exact ⟨[], sender, outbound, rfl, Emits.nil _ _, Or.inr (Or.inr empty)⟩
      · obtain ⟨unfinished, room⟩ := enters
        have something : outbound.buffer.take TCPConfig.maxPayloadSize ≠ [] ∨
            sender.isFinMsg right (outbound.buffer.take TCPConfig.maxPayloadSize)
              (outbound.pop TCPConfig.maxPayloadSize) = true := by
          rw [not_and_or, Bool.not_eq_false] at stops
          exact stops.imp (fun full nothing => full (List.isEmpty_iff.mpr nothing)) id
        have fewer := turns_emit_lt (by decide) unfinished something
        obtain ⟨segments, last, rest, ran, emits, exhausted⟩ :=
          ih (Nat.lt_of_lt_of_le fewer (Nat.le_of_lt_succ enough))
        refine ⟨_, last, rest, ran, Emits.cons _ unfinished ?_ something emits, exhausted⟩
        intro small
        rw [add64_of_lt small] at room
        exact ⟨room, List.length_take_le _ _⟩
      · refine ⟨[], sender, outbound, rfl, Emits.nil _ _, ?_⟩
        rw [not_and_or, Bool.not_eq_false, Nat.not_le] at enters
        exact enters.imp id Or.inl

theorem pushRemainder_eq (right : Nat) (sender : TCPSender) (outbound : ByteStream) :
    sender.pushRemainder right outbound =
      if sender.finPushed = false ∧ sender.getAbsoluteSeqno < right then
        if (outbound.buffer.take (sub64 right sender.getAbsoluteSeqno)).isEmpty = false ∨
            sender.isFinMsg right (outbound.buffer.take (sub64 right sender.getAbsoluteSeqno))
              (outbound.pop (sub64 right sender.getAbsoluteSeqno)) = true then
          .ok (sender.emit outbound right (sub64 right sender.getAbsoluteSeqno),
            outbound.pop (sub64 right sender.getAbsoluteSeqno))
        else .ok (sender, outbound.pop (sub64 right sender.getAbsoluteSeqno))
      else .ok (sender, outbound) := by
  rw [pushRemainder, ByteStream.read_eq]
  rfl

theorem pushRemainder_spec {right : Nat} {sender : TCPSender} {outbound : ByteStream}
    (fits : right < 2 ^ 64) (exhausted : Exhausted right sender outbound) :
    ∃ segments last rest, sender.pushRemainder right outbound = .ok (last, rest) ∧
      Emits right sender outbound segments last rest := by
  rw [pushRemainder_eq]
  split_ifs with enters something
  · obtain ⟨unfinished, below⟩ := enters
    have len : sub64 right sender.getAbsoluteSeqno = right - sender.getAbsoluteSeqno :=
      sub64_of_le (Nat.le_of_lt below) fits
    refine ⟨_, _, _, rfl, Emits.cons _ unfinished ?_ ?_ (Emits.nil _ _)⟩
    · intro small
      refine ⟨by omega, ?_⟩
      rcases exhausted with finished | near | empty
      · exact nomatch unfinished.symm.trans finished
      · rw [add64_of_lt small] at near
        have cut := List.length_take_le (sub64 right sender.getAbsoluteSeqno) outbound.buffer
        omega
      · rw [empty, List.take_nil]
        exact Nat.zero_le _
    · rw [← List.isEmpty_eq_false_iff]
      exact something
  · have nothing : outbound.buffer = [] := by
      rw [not_or, Bool.not_eq_false, List.isEmpty_iff, List.take_eq_nil_iff] at something
      rcases something.1 with zero | empty
      · rw [sub64_of_le (Nat.le_of_lt enters.2) fits] at zero
        omega
      · exact empty
    rw [outbound.pop_of_empty _ nothing]
    exact ⟨[], sender, outbound, rfl, Emits.nil _ _⟩
  · exact ⟨[], sender, outbound, rfl, Emits.nil _ _⟩

theorem windowRight_lt (sender : TCPSender) : sender.windowRight < 2 ^ 64 := by
  unfold windowRight
  split_ifs
  · exact add64_lt _ _
  · exact add64_lt _ _

/-- `push` always returns: first the SYN when it is due, then segments inside the
window. -/
theorem push_spec (sender : TCPSender) (outbound : ByteStream) :
    ∃ segments last rest, sender.push outbound = .ok (last, rest) ∧
      Emits (sender.pushSyn outbound).windowRight (sender.pushSyn outbound) outbound segments
        last rest := by
  unfold push
  dsimp only
  split_ifs with finished
  · exact ⟨[], _, _, rfl, Emits.nil _ _⟩
  · have enough : turns (sender.pushSyn outbound) outbound < outbound.bytesBuffered + 2 := by
      have flag := Bool.toNat_le (!(sender.pushSyn outbound).finPushed)
      unfold turns ByteStream.bytesBuffered
      omega
    obtain ⟨segments, middle, between, ran, emits, exhausted⟩ :=
      pushLoop_spec (sender.pushSyn outbound).windowRight enough
    obtain ⟨more, last, rest, ended, others⟩ :=
      pushRemainder_spec (sender.pushSyn outbound).windowRight_lt exhausted
    refine ⟨segments ++ more, last, rest, ?_, emits.append others⟩
    rw [ran]
    exact ended

/-- The SYN segment of the first push. -/
def opening (sender : TCPSender) (outbound : ByteStream) : List TCPSenderMessage :=
  if sender.sycPushed = false then [sender.segment [] true outbound.isFinished] else []

theorem pushSyn_sendQueue (sender : TCPSender) (outbound : ByteStream) :
    (sender.pushSyn outbound).sendQueue = sender.sendQueue ++ sender.opening outbound := by
  unfold pushSyn opening
  split_ifs
  · rfl
  · exact (List.append_nil _).symm

theorem pushSyn_sycPushed (sender : TCPSender) (outbound : ByteStream) :
    (sender.pushSyn outbound).sycPushed = true := by
  unfold pushSyn
  split_ifs with unopened
  · rfl
  · exact Bool.eq_true_of_not_eq_false unopened

theorem pushSyn_windowLeft (sender : TCPSender) (outbound : ByteStream) :
    (sender.pushSyn outbound).windowLeft = sender.windowLeft := by
  unfold pushSyn
  split_ifs
  · rfl
  · rfl

theorem pushSyn_windowSize (sender : TCPSender) (outbound : ByteStream) :
    (sender.pushSyn outbound).windowSize = sender.windowSize := by
  unfold pushSyn
  split_ifs
  · rfl
  · rfl

theorem pushSyn_windowRight (sender : TCPSender) (outbound : ByteStream) :
    (sender.pushSyn outbound).windowRight = sender.windowRight := by
  unfold windowRight
  rw [pushSyn_windowLeft, pushSyn_windowSize]

/-- The flag for the end is set only when the stream is closed and drained. -/
theorem pushSyn_finished {sender : TCPSender} {outbound : ByteStream}
    (finished : (sender.pushSyn outbound).finPushed = true) :
    sender.finPushed = true ∨ outbound.isFinished = true := by
  unfold pushSyn at finished
  split_ifs at finished
  · exact Or.inr finished
  · exact Or.inl finished

/-- After the end nothing is created. -/
theorem Emits.of_finished {right : Nat} {sender last : TCPSender} {outbound rest : ByteStream}
    {segments : List TCPSenderMessage} (emits : Emits right sender outbound segments last rest)
    (finished : sender.finPushed = true) : segments = [] ∧ last = sender ∧ rest = outbound := by
  cases emits with
  | nil => exact ⟨rfl, rfl, rfl⟩
  | cons len unfinished room something more => exact nomatch unfinished.symm.trans finished

theorem Emits.finished {right : Nat} {sender last : TCPSender} {outbound rest : ByteStream}
    {segments : List TCPSenderMessage} (emits : Emits right sender outbound segments last rest)
    (finished : last.finPushed = true) : sender.finPushed = true ∨ rest.isFinished = true := by
  induction emits with
  | nil => exact Or.inl finished
  | @cons sender last outbound rest segments len unfinished room something more ih =>
      rcases ih finished with here | later
      · change (sender.finPushed || _) = true at here
        rw [unfinished, Bool.false_or] at here
        have flag : (sender.emit outbound right len).finPushed = true := by
          change (sender.finPushed || _) = true
          rw [here, Bool.or_true]
        obtain ⟨_, _, same⟩ := more.of_finished flag
        rw [same]
        exact Or.inr (Bool.and_eq_true_iff.mp here).2
      · exact Or.inr later

/-- What segments leave alone, and the queue they fill. -/
theorem Emits.frame {right : Nat} {sender last : TCPSender} {outbound rest : ByteStream}
    {segments : List TCPSenderMessage} (emits : Emits right sender outbound segments last rest) :
    last.sendQueue = sender.sendQueue ++ segments ∧ last.sycPushed = sender.sycPushed ∧
      last.retransmissionTimer = sender.retransmissionTimer ∧ last.isn = sender.isn ∧
      last.windowLeft = sender.windowLeft ∧ last.windowSize = sender.windowSize := by
  induction emits with
  | nil => exact ⟨(List.append_nil _).symm, rfl, rfl, rfl, rfl, rfl⟩
  | cons len unfinished room something _ ih =>
      obtain ⟨queue, others⟩ := ih
      refine ⟨?_, others⟩
      rw [queue]
      exact List.append_assoc _ _ _

theorem Emits.isClosed {right : Nat} {sender last : TCPSender} {outbound rest : ByteStream}
    {segments : List TCPSenderMessage} (emits : Emits right sender outbound segments last rest) :
    rest.isClosed = outbound.isClosed := by
  induction emits with
  | nil => rfl
  | cons len unfinished room something _ ih => exact ih

theorem Emits.hasError {right : Nat} {sender last : TCPSender} {outbound rest : ByteStream}
    {segments : List TCPSenderMessage} (emits : Emits right sender outbound segments last rest) :
    rest.hasError = outbound.hasError := by
  induction emits with
  | nil => rfl
  | cons len unfinished room something _ ih => exact ih

theorem Emits.popped {right : Nat} {sender last : TCPSender} {outbound rest : ByteStream}
    {segments : List TCPSenderMessage} (emits : Emits right sender outbound segments last rest)
    (counted : outbound.Counted) : outbound.bytesPopped ≤ rest.bytesPopped := by
  induction emits with
  | nil => exact Nat.le_refl _
  | cons len unfinished room something _ ih =>
      have first := counted.pop_bytesPopped len
      have others := ih (counted.pop len)
      omega

theorem Emits.outstanding_ne_nil {right : Nat} {sender last : TCPSender}
    {outbound rest : ByteStream} {segments : List TCPSenderMessage}
    (emits : Emits right sender outbound segments last rest)
    (nonempty : sender.outstandingMessages.entries ≠ []) :
    last.outstandingMessages.entries ≠ [] := by
  induction emits with
  | nil => exact nonempty
  | cons len unfinished room something _ ih =>
      exact ih (OrderedMap.insert_entries_ne_nil _ _ _)

/-! ## Receiving -/

theorem getAbsoluteSeqno_of_nil {sender : TCPSender}
    (empty : sender.outstandingMessages.entries = []) :
    sender.getAbsoluteSeqno = sender.windowLeft := by
  unfold getAbsoluteSeqno
  rw [empty]
  rfl

theorem getAbsoluteSeqno_of_last {sender : TCPSender} {entry : Nat × TCPSenderMessage}
    (last : sender.outstandingMessages.entries.getLast? = some entry) :
    sender.getAbsoluteSeqno = add64 entry.1 entry.2.sequenceLength := by
  unfold getAbsoluteSeqno
  rw [last]

/-- The loop removes leading segments that end by the ackno, and none when the ackno
lies past everything sent. -/
theorem receiveLoop_spec (absoluteAckno : Nat) {entries : List (Nat × TCPSenderMessage)}
    (sender : TCPSender) (successful : Bool)
    (same : sender.outstandingMessages.entries = entries) :
    ∃ acked, ∃ remaining : OrderedMap Nat TCPSenderMessage,
      receiveLoop absoluteAckno entries sender successful =
        ({ sender with outstandingMessages := remaining }, successful || !acked.isEmpty) ∧
      entries = acked ++ remaining.entries ∧
      (∀ entry ∈ acked, add64 entry.1 entry.2.sequenceLength ≤ absoluteAckno) ∧
      (acked ≠ [] → absoluteAckno ≤ sender.getAbsoluteSeqno) := by
  induction entries generalizing sender successful with
  | nil =>
      refine ⟨[], sender.outstandingMessages, ?_, same.symm, ?_, fun nonempty => absurd rfl nonempty⟩
      · rw [receiveLoop, List.isEmpty_nil, Bool.not_true, Bool.or_false]
      · exact fun entry inside => nomatch inside
  | cons entry rest ih =>
      obtain ⟨start, message⟩ := entry
      rw [receiveLoop]
      split_ifs with stops
      · refine ⟨[], sender.outstandingMessages, ?_, same.symm, ?_,
          fun nonempty => absurd rfl nonempty⟩
        · rw [List.isEmpty_nil, Bool.not_true, Bool.or_false]
        · exact fun entry inside => nomatch inside
      · rw [not_or, Nat.not_lt, Nat.not_lt] at stops
        have shorter : sender.outstandingMessages.eraseFirst.entries = rest := by
          rw [OrderedMap.eraseFirst_entries, same, List.tail_cons]
        obtain ⟨acked, remaining, ran, split, ends, _⟩ :=
          ih { sender with outstandingMessages := sender.outstandingMessages.eraseFirst } true shorter
        refine ⟨(start, message) :: acked, remaining, ?_, ?_, ?_, fun _ => stops.2⟩
        · rw [ran, List.isEmpty_cons, Bool.not_false, Bool.or_true, Bool.true_or]
        · rw [List.cons_append, ← split]
        · intro entry inside
          rcases List.mem_cons.mp inside with same | later
          · rw [same]
            exact stops.1
          · exact ends entry later

/-- What a message with an ackno does: the segments in `acked` leave, and only when there
are some do the left edge and the timer change. -/
structure Received (sender : TCPSender) (message : TCPReceiverMessage) (absoluteAckno : Nat)
    (acked : List (Nat × TCPSenderMessage)) (after : TCPSender) : Prop where
  split : sender.outstandingMessages.entries = acked ++ after.outstandingMessages.entries
  ends : ∀ entry ∈ acked, add64 entry.1 entry.2.sequenceLength ≤ absoluteAckno
  inside : acked ≠ [] → absoluteAckno ≤ sender.getAbsoluteSeqno
  moved : acked ≠ [] → after.windowLeft = absoluteAckno ∧
    after.retransmissionTimer.running = !after.outstandingMessages.entries.isEmpty
  stayed : acked = [] → after.windowLeft = sender.windowLeft ∧
    after.retransmissionTimer = sender.retransmissionTimer
  windowSize : after.windowSize = message.windowSize.toNat
  sendQueue : after.sendQueue = sender.sendQueue
  sycPushed : after.sycPushed = sender.sycPushed
  finPushed : after.finPushed = sender.finPushed
  isn : after.isn = sender.isn

theorem receive_spec (sender : TCPSender) {message : TCPReceiverMessage} {ackno : Wrap32}
    (carries : message.ackno = some ackno) :
    ∃ acked, Received sender message (ackno.unwrap sender.isn sender.windowLeft) acked
      (sender.receive message) := by
  obtain ⟨acked, remaining, ran, split, ends, inside⟩ :=
    receiveLoop_spec (ackno.unwrap sender.isn sender.windowLeft) sender false rfl
  refine ⟨acked, ?_⟩
  unfold receive
  rw [carries]
  dsimp only
  rw [ran]
  cases acked with
  | nil =>
      exact ⟨split, ends, inside, fun nonempty => absurd rfl nonempty, fun _ => ⟨rfl, rfl⟩, rfl, rfl,
        rfl, rfl, rfl⟩
  | cons entry acked =>
      rw [List.isEmpty_cons, Bool.not_false, Bool.or_true, if_pos rfl]
      unfold acknowledged
      dsimp only
      cases empty : remaining.entries.isEmpty with
      | true =>
          rw [if_neg Bool.noConfusion]
          exact ⟨split, ends, inside, fun _ => ⟨rfl, by rw [empty]; rfl⟩,
            (fun none_acked => nomatch none_acked), rfl, rfl, rfl, rfl, rfl⟩
      | false =>
          rw [if_pos rfl]
          exact ⟨split, ends, inside, fun _ => ⟨rfl, by rw [empty]; rfl⟩,
            (fun none_acked => nomatch none_acked), rfl, rfl, rfl, rfl, rfl⟩

theorem receive_of_none (sender : TCPSender) {message : TCPReceiverMessage}
    (bare : message.ackno = none) : sender.receive message = sender := by
  unfold receive
  rw [bare]

/-! ## Sending and waiting -/

theorem maybeSend_of_nil {sender : TCPSender} (empty : sender.sendQueue = []) :
    sender.maybeSend = (sender, none) := by
  unfold maybeSend
  rw [empty]

/-- Sending takes the first of the queue and sees to it that the timer runs. -/
theorem maybeSend_of_cons {sender : TCPSender} {message : TCPSenderMessage}
    {rest : List TCPSenderMessage} (queued : sender.sendQueue = message :: rest) :
    ∃ timer, timer.running = true ∧
      sender.maybeSend =
        ({ sender with sendQueue := rest, retransmissionTimer := timer }, some message) := by
  unfold maybeSend
  rw [queued]
  dsimp only
  split_ifs with idle
  · exact ⟨RetransmissionTimer.restart sender.RTO.value, rfl, rfl⟩
  · exact ⟨sender.retransmissionTimer, Bool.eq_true_of_not_eq_false idle, rfl⟩

/-- What a tick does when it returns. -/
structure Ticked (sender after : TCPSender) (copies : List TCPSenderMessage) : Prop where
  outstandingMessages : after.outstandingMessages = sender.outstandingMessages
  sendQueue : after.sendQueue = sender.sendQueue ++ copies
  copied : ∀ message ∈ copies, ∃ start, (start, message) ∈ sender.outstandingMessages.entries
  running : after.retransmissionTimer.running = sender.retransmissionTimer.running
  sycPushed : after.sycPushed = sender.sycPushed
  finPushed : after.finPushed = sender.finPushed
  isn : after.isn = sender.isn
  windowLeft : after.windowLeft = sender.windowLeft
  windowSize : after.windowSize = sender.windowSize

/-- A tick returns unless the timer has expired with nothing outstanding. -/
theorem tick_spec (sender : TCPSender) (msSinceLastTick : Nat) :
    (∃ copies after, sender.tick msSinceLastTick = .ok after ∧ Ticked sender after copies) ∨
      (sender.tick msSinceLastTick = .error .endDereferenced ∧
        sender.retransmissionTimer.running = true ∧
        sender.outstandingMessages.entries = []) := by
  unfold tick
  dsimp only
  split_ifs with expired
  · have running : sender.retransmissionTimer.running = true := (Bool.and_eq_true_iff.mp expired).1
    cases outstanding : sender.outstandingMessages.entries with
    | nil => exact Or.inr ⟨rfl, running, rfl⟩
    | cons entry rest =>
        obtain ⟨start, earliest⟩ := entry
        refine Or.inl ⟨[earliest], _, rfl, ?_⟩
        have copied : ∀ message ∈ [earliest],
            ∃ start, (start, message) ∈ sender.outstandingMessages.entries := by
          intro message inside
          rw [List.mem_singleton.mp inside, outstanding]
          exact ⟨start, List.mem_cons_self⟩
        unfold backOff
        split_ifs with waits
        · exact ⟨rfl, rfl, copied, running.symm, rfl, rfl, rfl, rfl, rfl⟩
        · exact ⟨rfl, rfl, copied, running.symm, rfl, rfl, rfl, rfl, rfl⟩
  · refine Or.inl ⟨[], _, rfl, rfl, (List.append_nil _).symm, ?_, rfl, rfl, rfl, rfl, rfl, rfl⟩
    exact fun message inside => nomatch inside

end TCPSender

end Minnow.Transport
