import Minnow.Socket.TCPMinnowSocket

/-!
# Collecting segments

A peer cannot send for ever: the loop that collects its segments always returns.
-/

namespace Minnow.Transport

open Foundation Minnow.Stream

namespace TCPSender

/-- What a sender and its stream can still make of segments. -/
def pending (sender : TCPSender) (outbound : ByteStream) : Nat :=
  3 * (!sender.sycPushed).toNat +
    2 * (outbound.bytesBuffered + (!sender.finPushed).toNat) + sender.sendQueue.length

theorem pending_pushSyn_le (sender : TCPSender) (outbound : ByteStream) :
    (sender.pushSyn outbound).pending outbound ≤ sender.pending outbound := by
  rw [pushSyn]
  split
  · rename_i unopened
    have flag := Bool.toNat_le (!outbound.isFinished)
    simp only [pending, pushMessage_sycPushed, pushMessage_finPushed, pushMessage_sendQueue,
      List.length_append, List.length_singleton, unopened, Bool.not_true, Bool.not_false,
      Bool.toNat_true, Bool.toNat_false]
    omega
  · exact Nat.le_refl _

/-- Every segment takes a byte or sets the flag for the end. -/
theorem Emits.pending_le {right : Nat} {sender last : TCPSender} {outbound rest : ByteStream}
    {segments : List TCPSenderMessage} (emits : Emits right sender outbound segments last rest) :
    last.pending rest ≤ sender.pending outbound := by
  induction emits with
  | nil => exact Nat.le_refl _
  | @cons sender last outbound rest segments len unfinished room something more ih =>
      refine Nat.le_trans ih ?_
      simp only [pending, emit, pushMessage_sycPushed, pushMessage_finPushed, pushMessage_sendQueue,
        List.length_append, List.length_singleton, unfinished, Bool.false_or, ByteStream.bytesBuffered,
        ByteStream.pop_buffer, List.length_drop, Bool.not_false, Bool.toNat_true]
      rcases something with bytes | fin
      · have taken := List.length_pos_iff.mpr bytes
        have flag := Bool.toNat_le
          (!sender.isFinMsg right (outbound.buffer.take len) (outbound.pop len))
        rw [List.length_take] at taken
        omega
      · rw [fin, Bool.not_true, Bool.toNat_false]
        omega

theorem push_pending_le {sender next : TCPSender} {outbound rest : ByteStream}
    (ran : sender.push outbound = .ok (next, rest)) : next.pending rest ≤ sender.pending outbound := by
  obtain ⟨segments, last, stream, pushed, emits⟩ := sender.push_spec outbound
  cases pushed.symm.trans ran
  exact emits.pending_le.trans (sender.pending_pushSyn_le outbound)

end TCPSender

end Minnow.Transport

namespace Minnow.Socket

open Foundation Transport Wire

namespace TCPMinnowSocket

theorem backlog_eq (tcp : TCPPeer) :
    backlog tcp = tcp.sender.pending tcp.outboundStream + tcp.needSend.toNat := rfl

theorem backlog_refill_le {tcp pushed : TCPPeer} (refilled : tcp.refill = .ok pushed) :
    backlog pushed ≤ backlog tcp := by
  rw [TCPPeer.refill] at refilled
  split at refilled
  · obtain ⟨sender, outboundStream, ran, rfl⟩ := TCPPeer.push_ok refilled
    rw [backlog_eq, backlog_eq]
    exact Nat.add_le_add_right (TCPSender.push_pending_le ran) _
  · cases refilled
    exact Nat.le_refl _

/-- Sending lowers the backlog. -/
theorem backlog_maybeSend_lt {tcp next : TCPPeer} {seg : TCPSegment}
    (ran : tcp.maybeSend = .ok (next, some seg)) : backlog next < backlog tcp := by
  obtain ⟨pushed, refilled, rfl, sends⟩ := TCPPeer.maybeSend_ok ran
  refine Nat.lt_of_lt_of_le ?_ (backlog_refill_le refilled)
  obtain ⟨message, found, -⟩ := Option.map_eq_some_iff.mp sends.symm
  cases queued : pushed.sender.sendQueue with
  | nil =>
      rw [TCPPeer.senderMessage, TCPSender.maybeSend_of_nil queued] at found
      have replies : pushed.needSend = true := by
        by_contra silent
        rw [Bool.not_eq_true] at silent
        rw [silent] at found
        cases found
      rw [TCPSender.maybeSend_of_nil queued, backlog_eq, backlog_eq, replies]
      exact Nat.lt_succ_self _
  | cons first rest =>
      obtain ⟨timer, -, popped⟩ := TCPSender.maybeSend_of_cons queued
      rw [popped]
      simp only [backlog_eq, TCPSender.pending, queued, List.length_cons, Bool.toNat_false]
      omega

/-- A peer always comes to the end of what it has to send. -/
theorem collectLoop_returns {fuel : Nat} {tcp : TCPPeer} (enough : backlog tcp < fuel)
    (outgoingSegments : List TCPSegment) :
    ∃ outcome, collectLoop fuel tcp outgoingSegments = .ok outcome := by
  induction fuel generalizing tcp outgoingSegments with
  | zero => exact absurd enough (Nat.not_lt_zero _)
  | succ fuel ih =>
      obtain ⟨next, seg, ran⟩ := tcp.maybeSend_returns
      cases seg with
      | none => exact ⟨_, Fault.bind_eq_ok.mpr ⟨(next, none), ran, rfl⟩⟩
      | some seg =>
          have less := backlog_maybeSend_lt ran
          obtain ⟨outcome, later⟩ := @ih next (by omega) (outgoingSegments ++ [seg])
          exact ⟨outcome, Fault.bind_eq_ok.mpr ⟨(next, some seg), ran, later⟩⟩

theorem collectSegments_returns {Adapter : Type} (socket : TCPMinnowSocket Adapter) :
    ∃ next, socket.collectSegments = .ok next := by
  obtain ⟨outcome, ran⟩ :=
    collectLoop_returns (Nat.lt_succ_self (backlog socket.tcp)) socket.outgoingSegments
  exact ⟨_, Fault.bind_eq_ok.mpr ⟨outcome, ran, rfl⟩⟩

end TCPMinnowSocket

end Minnow.Socket
