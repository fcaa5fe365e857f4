import Minnow.Transport.SenderBacklog

/-!
# How far the sender runs ahead

The window is a 16-bit word, so the segments created end less than `2 ^ 16` past the left
edge, and every segment that is queued, first or again, ends past that edge.
-/

namespace Minnow.Transport

open Foundation Foundation.Words Foundation.Runs Foundation.Tiling Minnow.Stream

open TCPSenderMessage (sequenceLength)

namespace Account

variable {isn : Wrap32} {written : List UInt8} {created : List TCPSenderMessage}
  {sender : TCPSender} {outbound : ByteStream}

/-- With the first outstanding segment all others end past the left edge. -/
theorem waiting_all (account : Account isn written created sender outbound)
    (waiting : sender.Waiting) {entry : Nat × TCPSenderMessage}
    (inside : entry ∈ sender.outstandingMessages.entries) :
    sender.windowLeft < entry.1 + entry.2.sequenceLength := by
  obtain ⟨acked, outstanding, -, entries, -⟩ := account.outstanding
  rw [entries] at inside
  obtain ⟨start, message⟩ := entry
  obtain ⟨before, after, split, startIs⟩ := mem_placed_iff.mp inside
  cases before with
  | nil =>
      refine waiting (start, message) ?_
      rw [entries, split, startIs]
      rfl
  | cons head rest =>
      have first := waiting (extent sequenceLength acked, head) (by rw [entries, split]; rfl)
      rw [extent_cons] at startIs
      change sender.windowLeft < extent sequenceLength acked + head.sequenceLength at first
      change sender.windowLeft < start + message.sequenceLength
      omega

/-- The SYN segment has the first two numbers at most. -/
theorem extent_opening (account : Account isn written created sender outbound) :
    extent sequenceLength (created ++ sender.opening outbound) ≤
      max (extent sequenceLength created) 2 := by
  rw [TCPSender.opening]
  split
  case isTrue unopened =>
      have nothing : created = [] := by
        by_contra nonempty
        exact absurd (account.opened.mpr nonempty) (by rw [unopened]; exact Bool.false_ne_true)
      have fin := Bool.toNat_le outbound.isFinished
      rw [nothing]
      change 1 + 0 + outbound.isFinished.toNat + 0 ≤ _
      omega
  case isFalse opened =>
      rw [List.append_nil]
      exact Nat.le_max_left _ _

/-- The segments of a push end at the right edge of the window, if not before. -/
theorem extent_emits {right : Nat} {segments : List TCPSenderMessage} {last : TCPSender}
    {rest : ByteStream} (emits : TCPSender.Emits right sender outbound segments last rest)
    (account : Account isn written created sender outbound)
    (small : written.length + 2 + TCPConfig.maxPayloadSize < 2 ^ 64)
    (opened : sender.sycPushed = true) (fits : right < 2 ^ 64) :
    extent sequenceLength (created ++ segments) ≤ max (extent sequenceLength created) right := by
  obtain ⟨-, inside⟩ := account.emits emits (by omega) opened
  cases segments using List.reverseRecOn with
  | nil =>
      rw [List.append_nil]
      exact Nat.le_max_left _ _
  | append_singleton segments segment =>
      have ends := inside fits small (extent sequenceLength created + extent sequenceLength segments)
        segment (by rw [placed_snoc]; exact List.mem_append_right _ List.mem_cons_self)
      rw [extent_append, extent_append, extent_cons, extent_nil]
      omega

end Account

namespace Session

/-- What is created stays near the left edge. -/
structure Reach (session : Session) : Prop where
  window : session.sender.windowSize ≤ 0xFFFF
  ahead : extent sequenceLength session.created ≤ session.sender.windowLeft + 0xFFFF

theorem start_reach (capacity initialRTO : UInt64) (isn : Wrap32) :
    (start capacity initialRTO isn).Reach :=
  ⟨show 1 ≤ 0xFFFF by decide, Nat.zero_le _⟩

theorem Reach.windowRight_le {session : Session} (reach : session.Reach) :
    session.sender.windowRight ≤ session.sender.windowLeft + 0xFFFF := by
  have window := reach.window
  rw [TCPSender.windowRight]
  split
  · exact Nat.le_trans (add64_le _ _) (by omega)
  · exact Nat.le_trans (add64_le _ _) (by omega)

/-- The reach is kept, since the left edge does not go back. -/
theorem Reach.step {isn : Wrap32} {session next : Session} {op : Op} (reach : session.Reach)
    (accounted : session.Accounted isn)
    (small : session.written.length + 2 + TCPConfig.maxPayloadSize < 2 ^ 64)
    (waiting : session.sender.Waiting) (stepped : session.Stepped op next) : next.Reach := by
  have forward := accounted.windowLeft_le (by omega) waiting stepped
  have window := reach.window
  have ahead := reach.ahead
  cases stepped with
  | @push segments last rest emits =>
      obtain ⟨-, -, -, -, leftSame, sizeSame⟩ := emits.frame
      rw [TCPSender.pushSyn_windowLeft] at leftSame
      rw [TCPSender.pushSyn_windowSize] at sizeSame
      have opening := Account.extent_opening accounted
      have more := Account.extent_emits emits (Account.pushSyn accounted (by omega)) small
        (TCPSender.pushSyn_sycPushed _ _) (TCPSender.windowRight_lt _)
      have right := reach.windowRight_le
      rw [TCPSender.pushSyn_windowRight, List.append_assoc] at more
      refine ⟨?_, ?_⟩
      · change last.windowSize ≤ 0xFFFF
        rw [sizeSame]
        exact window
      · change extent sequenceLength (session.created ++
          (session.sender.opening session.outbound ++ segments)) ≤ last.windowLeft + 0xFFFF
        omega
  | @receive message ackno acked after carries received =>
      refine ⟨?_, ?_⟩
      · change after.windowSize ≤ 0xFFFF
        rw [received.windowSize]
        exact Nat.le_of_lt_succ message.windowSize.toNat_lt
      · change extent sequenceLength session.created ≤ after.windowLeft + 0xFFFF
        change session.sender.windowLeft ≤ after.windowLeft at forward
        omega
  | @tick _ copies after ticked =>
      refine ⟨?_, ?_⟩
      · exact ticked.windowSize ▸ window
      · exact ticked.windowLeft ▸ ahead
  | _ => exact ⟨window, ahead⟩

/-- What a call other than sending adds to the queue are segments created that end past the
left edge. -/
theorem queued_step {isn : Wrap32} {session next : Session} {op : Op}
    (accounted : session.Accounted isn) (waiting : session.sender.Waiting)
    (after : next.Accounted isn) (stepped : session.Stepped op next) (other : op ≠ .maybeSend) :
    ∃ more, next.sender.sendQueue = session.sender.sendQueue ++ more ∧
      ∀ message ∈ more, ∃ start, (start, message) ∈ placed sequenceLength 0 next.created ∧
        next.sender.windowLeft < start + message.sequenceLength := by
  have nothing : ∀ message ∈ ([] : List TCPSenderMessage), ∃ start,
      (start, message) ∈ placed sequenceLength 0 next.created ∧
        next.sender.windowLeft < start + message.sequenceLength :=
    fun message inside => absurd inside List.not_mem_nil
  cases stepped with
  | @push segments last rest emits =>
      refine ⟨session.sender.opening session.outbound ++ segments, ?_, ?_⟩
      · exact emits.frame.1.trans (by rw [TCPSender.pushSyn_sendQueue, List.append_assoc])
      · intro message inside
        obtain ⟨before, behind, split⟩ := List.append_of_mem inside
        have created : (session.pushed segments last rest).created =
            session.created ++ before ++ message :: behind := by
          rw [List.append_assoc, ← split]
          rfl
        have positive := (Account.tiled after).positive message (by rw [created]; simp)
        have left := Account.left accounted
        obtain ⟨-, -, -, -, leftSame, -⟩ := emits.frame
        rw [TCPSender.pushSyn_windowLeft] at leftSame
        refine ⟨0 + extent sequenceLength (session.created ++ before),
          mem_placed_iff.mpr ⟨_, behind, created, rfl⟩, ?_⟩
        change last.windowLeft < _
        rw [extent_append]
        omega
  | @tick _ copies sender ticked =>
      refine ⟨copies, ticked.sendQueue, ?_⟩
      intro message inside
      obtain ⟨start, outstanding⟩ := ticked.copied message inside
      refine ⟨start, Account.mem_placed accounted outstanding, ?_⟩
      change sender.windowLeft < _
      rw [ticked.windowLeft]
      exact Account.waiting_all accounted waiting outstanding
  | receive carries received => exact ⟨[], received.sendQueue.trans (List.append_nil _).symm, nothing⟩
  | idle empty => exact absurd rfl other
  | send queued running => exact absurd rfl other
  | _ => exact ⟨[], (List.append_nil _).symm, nothing⟩

/-- What was created stays created. -/
theorem Stepped.created {session next : Session} {op : Op} (stepped : session.Stepped op next) :
    session.created <+: next.created := by
  cases stepped with
  | push emits => exact List.prefix_append _ _
  | _ => exact List.prefix_refl _

end Session

end Minnow.Transport
