import Minnow.Transport.SenderRuns

/-!
# Timer, timeout and counter in the sender's calls

Three variables pace the retransmissions.  Pushing leaves them alone, sending starts the
timer, an ackno that covers a segment resets them and an expiry backs off.
-/

namespace Minnow.Transport

open Foundation Foundation.Words Minnow.Stream

namespace TCPSender

/-- The timer, the timeout and the number of retransmissions in a row. -/
def pace (sender : TCPSender) : RetransmissionTimer × RetransmissionTimeout × Nat :=
  (sender.retransmissionTimer, sender.RTO, sender.consecutiveRetransmissions)

/-! ## Pushing -/

theorem pushSyn_pace (sender : TCPSender) (outbound : ByteStream) :
    (sender.pushSyn outbound).pace = sender.pace := by
  rw [pushSyn]
  split
  · rfl
  · rfl

theorem Emits.pace {right : Nat} {sender last : TCPSender} {outbound rest : ByteStream}
    {segments : List TCPSenderMessage} (emits : Emits right sender outbound segments last rest) :
    last.pace = sender.pace := by
  induction emits with
  | nil => rfl
  | cons len unfinished room something more ih => exact ih

/-- Nothing that a push queues after the SYN touches them. -/
theorem Emits.pace_pushSyn {right : Nat} {sender last : TCPSender} {outbound middle rest : ByteStream}
    {segments : List TCPSenderMessage}
    (emits : Emits right (sender.pushSyn outbound) middle segments last rest) :
    last.pace = sender.pace :=
  emits.pace.trans (pushSyn_pace sender outbound)

/-! ## Sending -/

/-- A segment leaves the queue while the timer stands still. -/
def Starts (sender : TCPSender) : Prop :=
  sender.retransmissionTimer.isRunning = false ∧ sender.sendQueue ≠ []

instance (sender : TCPSender) : Decidable sender.Starts := inferInstanceAs (Decidable (_ ∧ _))

/-- Sending starts a timer that stands still, and changes nothing else. -/
theorem maybeSend_pace (sender : TCPSender) : sender.maybeSend.1.pace =
    if sender.Starts then (RetransmissionTimer.restart sender.RTO.value, sender.pace.2)
    else sender.pace := by
  rw [maybeSend]
  cases queued : sender.sendQueue with
  | nil => rw [if_neg (fun starts => starts.2 queued)]
  | cons message rest =>
      dsimp only
      split
      case isTrue idle =>
          rw [if_pos ⟨idle, by rw [queued]; exact List.cons_ne_nil _ _⟩]
          rfl
      case isFalse running =>
          rw [if_neg (fun starts => running starts.1)]
          rfl

/-! ## Receiving -/

/-- The ackno covers the first outstanding segment whole, and no more than was sent. -/
def Acknowledges (sender : TCPSender) (message : TCPReceiverMessage) : Prop :=
  ∃ ackno ∈ message.ackno, ∃ first ∈ sender.outstandingMessages.entries.head?,
    add64 first.1 first.2.sequenceLength ≤ ackno.unwrap sender.isn sender.windowLeft ∧
      ackno.unwrap sender.isn sender.windowLeft ≤ sender.getAbsoluteSeqno

instance (sender : TCPSender) (message : TCPReceiverMessage) :
    Decidable (sender.Acknowledges message) :=
  inferInstanceAs (Decidable (∃ ackno ∈ message.ackno, ∃ first ∈ _, _ ∧ _))

/-- The loop takes a segment away just if it takes the first. -/
theorem receiveLoop_takes (absoluteAckno : Nat) (sender : TCPSender) :
    ∃ remaining taken, receiveLoop absoluteAckno sender.outstandingMessages.entries sender false =
        ({ sender with outstandingMessages := remaining }, taken) ∧
      (taken = true ↔ ∃ first ∈ sender.outstandingMessages.entries.head?,
        add64 first.1 first.2.sequenceLength ≤ absoluteAckno ∧
          absoluteAckno ≤ sender.getAbsoluteSeqno) := by
  obtain ⟨acked, remaining, ran, split, ends, inside⟩ := receiveLoop_spec absoluteAckno sender false rfl
  refine ⟨remaining, _, ran, ?_⟩
  cases acked with
  | cons first acked =>
      refine iff_of_true rfl ⟨first, ?_, ends first List.mem_cons_self, inside (List.cons_ne_nil _ _)⟩
      rw [split]
      rfl
  | nil =>
      refine iff_of_false Bool.false_ne_true ?_
      rintro ⟨first, atFront, covered, possible⟩
      obtain ⟨rest, entries⟩ := List.head?_eq_some_iff.mp atFront
      obtain ⟨others, left, takes, -⟩ := receiveLoop_spec absoluteAckno
        { sender with outstandingMessages := sender.outstandingMessages.eraseFirst } true
        (by rw [OrderedMap.eraseFirst_entries, entries, List.tail_cons])
      rw [entries, receiveLoop, if_neg (by omega), takes] at ran
      exact absurd (congrArg Prod.snd ran) (by simp)

/-- Where the ackno covers no further segment nothing is changed. -/
theorem receive_pace_of_not {sender : TCPSender} {message : TCPReceiverMessage}
    (nothing : ¬ sender.Acknowledges message) : (sender.receive message).pace = sender.pace := by
  rw [receive]
  cases carries : message.ackno with
  | none => rfl
  | some ackno =>
      obtain ⟨remaining, taken, ran, takenIff⟩ :=
        receiveLoop_takes (ackno.unwrap sender.isn sender.windowLeft) sender
      cases taken with
      | true => exact absurd ⟨ackno, carries, takenIff.mp rfl⟩ nothing
      | false =>
          dsimp only
          rw [ran]
          rfl

/-- Otherwise the backing off is over, and the timer starts anew or stands still. -/
theorem receive_pace_of_acknowledges {sender : TCPSender} {message : TCPReceiverMessage}
    (covers : sender.Acknowledges message) :
    ∃ timer, (timer = RetransmissionTimer.restart sender.RTO.initValue ∨
        timer = RetransmissionTimer.stop) ∧
      (sender.receive message).pace = (timer, { sender.RTO with value := sender.RTO.initValue }, 0) := by
  obtain ⟨ackno, carries, first⟩ := covers
  obtain ⟨remaining, taken, ran, takenIff⟩ :=
    receiveLoop_takes (ackno.unwrap sender.isn sender.windowLeft) sender
  rw [receive, Option.mem_def.mp carries]
  dsimp only
  rw [ran, if_pos (takenIff.mpr first), acknowledged]
  dsimp only
  split
  · exact ⟨_, Or.inl rfl, rfl⟩
  · exact ⟨_, Or.inr rfl, rfl⟩

/-! ## Waiting -/

/-- The time that has passed reaches the timeout. -/
def Expires (sender : TCPSender) (msSinceLastTick : Nat) : Prop :=
  sender.retransmissionTimer.isRunning = true ∧
    sender.retransmissionTimer.timeout ≤ add64 sender.retransmissionTimer.timer msSinceLastTick

instance (sender : TCPSender) (msSinceLastTick : Nat) :
    Decidable (sender.Expires msSinceLastTick) := inferInstanceAs (Decidable (_ ∧ _))

/-- What the tick asks the timer. -/
theorem isTimeout_iff (sender : TCPSender) (msSinceLastTick : Nat) :
    (sender.retransmissionTimer.elapse msSinceLastTick).isTimeout = true ↔
      sender.Expires msSinceLastTick := by
  rw [RetransmissionTimer.isTimeout, Expires, Bool.and_eq_true, decide_eq_true_eq]
  refine and_congr_right fun running => ?_
  rw [RetransmissionTimer.elapse_running] at running
  change _ ≤ (if sender.retransmissionTimer.running then _ else _) ↔ _
  rw [if_pos running]
  rfl

/-- A tick before the timeout lets the time pass and nothing else. -/
theorem tick_waits {sender after : TCPSender} {msSinceLastTick : Nat}
    (waits : ¬ sender.Expires msSinceLastTick) (ran : sender.tick msSinceLastTick = .ok after) :
    after.pace = (sender.retransmissionTimer.elapse msSinceLastTick, sender.pace.2) ∧
      after.sendQueue = sender.sendQueue := by
  rw [← isTimeout_iff] at waits
  rw [tick] at ran
  dsimp only at ran
  rw [if_neg waits] at ran
  cases ran
  exact ⟨rfl, rfl⟩

/-- A tick that reaches the timeout queues the first outstanding segment, backs off and
restarts the timer. -/
theorem tick_expires {sender after : TCPSender} {msSinceLastTick : Nat}
    (expires : sender.Expires msSinceLastTick) (ran : sender.tick msSinceLastTick = .ok after) :
    ∃ first ∈ sender.outstandingMessages.entries.head?,
      after.pace = (RetransmissionTimer.restart sender.backOff.RTO.value, sender.backOff.pace.2) ∧
      after.sendQueue = sender.sendQueue ++ [first.2] := by
  rw [← isTimeout_iff] at expires
  rw [tick] at ran
  dsimp only at ran
  rw [if_pos expires] at ran
  cases outstanding : sender.outstandingMessages.entries with
  | nil =>
      rw [outstanding] at ran
      exact nomatch ran
  | cons first rest =>
      rw [outstanding] at ran
      cases ran
      refine ⟨first, rfl, ?_⟩
      unfold backOff
      split
      · exact ⟨rfl, rfl⟩
      · exact ⟨rfl, rfl⟩

/-- Exactly one segment is queued: the outstanding one with the lowest number. -/
def Retransmits (sender after : TCPSender) : Prop :=
  ∃ start segment rest, sender.outstandingMessages.entries = (start, segment) :: rest ∧
    (∀ entry ∈ rest, start < entry.1) ∧ after.sendQueue = sender.sendQueue ++ [segment]

theorem Retransmits.sendQueue_ne {sender after : TCPSender} (retransmits : sender.Retransmits after) :
    after.sendQueue ≠ sender.sendQueue := by
  obtain ⟨start, segment, rest, -, -, queue⟩ := retransmits
  rw [queue]
  exact fun same => absurd (List.append_right_eq_self.mp same) (List.cons_ne_nil _ _)

/-- A tick retransmits just when it reaches the timeout. -/
theorem tick_retransmits {sender after : TCPSender} {msSinceLastTick : Nat}
    (ran : sender.tick msSinceLastTick = .ok after) :
    if sender.Expires msSinceLastTick then sender.Retransmits after
    else after.sendQueue = sender.sendQueue := by
  split
  case isTrue expires =>
      obtain ⟨first, atFront, -, queue⟩ := tick_expires expires ran
      obtain ⟨rest, entries⟩ := List.head?_eq_some_iff.mp atFront
      refine ⟨first.1, first.2, rest, entries, ?_, queue⟩
      have sorted := sender.outstandingMessages.sorted
      rw [entries, List.pairwise_cons] at sorted
      exact sorted.1
  case isFalse waits => exact (tick_waits waits ran).2

end TCPSender

end Minnow.Transport
