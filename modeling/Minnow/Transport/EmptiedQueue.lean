import Minnow.Transport.TCPPeer

/-!
# Senders whose queue is emptied

A copy that waits in the queue can outlive its segment only if an acknowledgement comes in
between.  A caller that empties the queue before it receives never sends such a copy, and its ticks
never fail.
-/

namespace Minnow.Transport

open Foundation Minnow.Stream Minnow.Wire

namespace TCPSender

/-- While the timer runs or a segment is queued, something is outstanding. -/
structure Guarded (sender : TCPSender) : Prop where
  timer : sender.retransmissionTimer.running = true → sender.outstandingMessages.entries ≠ []
  queue : sender.sendQueue ≠ [] → sender.outstandingMessages.entries ≠ []

variable {sender next : TCPSender} {outbound rest : ByteStream}

theorem new_guarded (initialRTO : UInt64) (isn : Wrap32) : (new initialRTO isn).Guarded where
  timer := Bool.noConfusion
  queue := fun queued => absurd rfl queued

/-- What is queued is outstanding, too. -/
theorem Guarded.pushSyn (guarded : sender.Guarded) (outbound : ByteStream) :
    (sender.pushSyn outbound).Guarded := by
  rw [TCPSender.pushSyn]
  split
  · exact ⟨fun _ => OrderedMap.insert_entries_ne_nil _ _ _,
      fun _ => OrderedMap.insert_entries_ne_nil _ _ _⟩
  · exact guarded

theorem Guarded.emits (guarded : sender.Guarded) {right : Nat} {segments : List TCPSenderMessage}
    (emits : Emits right sender outbound segments next rest) : next.Guarded := by
  induction emits with
  | nil => exact guarded
  | cons len unfinished room something _ ih =>
      exact ih ⟨fun _ => OrderedMap.insert_entries_ne_nil _ _ _,
        fun _ => OrderedMap.insert_entries_ne_nil _ _ _⟩

theorem Guarded.push (guarded : sender.Guarded) (ran : sender.push outbound = .ok (next, rest)) :
    next.Guarded := by
  obtain ⟨segments, last, stream, pushed, emits⟩ := sender.push_spec outbound
  cases pushed.symm.trans ran
  exact (guarded.pushSyn outbound).emits emits

theorem Guarded.maybeSend (guarded : sender.Guarded) : sender.maybeSend.1.Guarded := by
  cases queued : sender.sendQueue with
  | nil =>
      rw [maybeSend_of_nil queued]
      exact guarded
  | cons message waiting =>
      have outstanding := guarded.queue (by rw [queued]; exact List.cons_ne_nil _ _)
      obtain ⟨timer, -, popped⟩ := maybeSend_of_cons queued
      rw [popped]
      exact ⟨fun _ => outstanding, fun _ => outstanding⟩

/-- A tick of a guarded sender returns. -/
theorem Guarded.tick (guarded : sender.Guarded) (msSinceLastTick : Nat) :
    ∃ after, sender.tick msSinceLastTick = .ok after ∧ after.Guarded := by
  rcases sender.tick_spec msSinceLastTick with ⟨copies, after, ran, ticked⟩ | ⟨-, running, missing⟩
  · refine ⟨after, ran, ?_, fun queued => ?_⟩
    · rw [ticked.running, ticked.outstandingMessages]
      exact guarded.timer
    · rw [ticked.outstandingMessages]
      by_cases empty : sender.sendQueue = []
      · rw [ticked.sendQueue, empty, List.nil_append] at queued
        obtain ⟨copy, inside⟩ := List.exists_mem_of_ne_nil _ queued
        obtain ⟨start, outstanding⟩ := ticked.copied copy inside
        exact List.ne_nil_of_mem outstanding
      · exact guarded.queue empty
  · exact absurd missing (guarded.timer running)

/-- A message that comes while nothing is queued leaves the sender guarded. -/
theorem Guarded.receive (guarded : sender.Guarded) (emptied : sender.sendQueue = [])
    (message : TCPReceiverMessage) : (sender.receive message).Guarded := by
  cases carries : message.ackno with
  | none =>
      rw [receive_of_none sender carries]
      exact guarded
  | some ackno =>
      obtain ⟨acked, received⟩ := sender.receive_spec carries
      refine ⟨fun running => ?_, fun queued => ?_⟩
      · cases acked with
        | nil =>
            rw [(received.stayed rfl).2] at running
            have outstanding := guarded.timer running
            rwa [received.split, List.nil_append] at outstanding
        | cons entry acked =>
            rw [(received.moved (List.cons_ne_nil _ _)).2, Bool.not_eq_true', List.isEmpty_eq_false_iff]
              at running
            exact running
      · rw [received.sendQueue] at queued
        exact absurd emptied queued

end TCPSender

namespace TCPPeer

variable {peer next : TCPPeer}

theorem push_guarded (guarded : peer.sender.Guarded) (ran : peer.push = .ok next) :
    next.sender.Guarded := by
  obtain ⟨sender, outboundStream, pushed, rfl⟩ := push_ok ran
  exact guarded.push pushed

theorem maybeSend_guarded {seg : Option TCPSegment} (guarded : peer.sender.Guarded)
    (ran : peer.maybeSend = .ok (next, seg)) : next.sender.Guarded := by
  obtain ⟨pushed, refilled, rfl, -⟩ := maybeSend_ok ran
  have still : pushed.sender.Guarded := by
    rw [refill] at refilled
    split at refilled
    · exact push_guarded guarded refilled
    · cases refilled
      exact guarded
  exact still.maybeSend

/-- A peer that has nothing to send has an empty queue. -/
theorem maybeSend_none (ran : peer.maybeSend = .ok (next, none)) : next.sender.sendQueue = [] := by
  obtain ⟨pushed, -, rfl, silent⟩ := maybeSend_ok ran
  cases queued : pushed.sender.sendQueue with
  | nil =>
      rw [TCPSender.maybeSend_of_nil queued]
      exact queued
  | cons message waiting =>
      obtain ⟨timer, -, popped⟩ := TCPSender.maybeSend_of_cons queued
      rw [senderMessage, popped] at silent
      cases silent

theorem tick_returns (guarded : peer.sender.Guarded) (msSinceLastTick : Nat) :
    ∃ next, peer.tick msSinceLastTick = .ok next ∧ next.sender.Guarded := by
  obtain ⟨after, ran, still⟩ := guarded.tick msSinceLastTick
  exact ⟨_, Fault.bind_eq_ok.mpr ⟨after, ran, rfl⟩, still⟩

theorem receive_guarded (guarded : peer.sender.Guarded) (emptied : peer.sender.sendQueue = [])
    (seg : TCPSegment) : (peer.receive seg).sender.Guarded := by
  rw [receive]
  split
  · exact guarded
  · exact guarded.receive emptied seg.receiverMessage

end TCPPeer

end Minnow.Transport
