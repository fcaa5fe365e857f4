import Minnow.Transport.SenderRuns

/-!
# Acknos past everything sent

The loop of `receive` takes no segment away for such an ackno, but the window size that
comes with it is kept all the same.
-/

namespace Minnow.Transport

open Foundation Foundation.Runs

namespace TCPSender

/-- The ackno lies beyond the next sequence number to be sent. -/
def Impossible (sender : TCPSender) (message : TCPReceiverMessage) : Prop :=
  ∃ ackno, message.ackno = some ackno ∧
    sender.getAbsoluteSeqno < ackno.unwrap sender.isn sender.windowLeft

/-- The loop stops before the first segment. -/
theorem receiveLoop_of_late {absoluteAckno : Nat} {sender : TCPSender}
    (late : sender.getAbsoluteSeqno < absoluteAckno) (entries : List (Nat × TCPSenderMessage))
    (successful : Bool) : receiveLoop absoluteAckno entries sender successful = (sender, successful) := by
  cases entries with
  | nil => rfl
  | cons entry rest =>
      obtain ⟨start, message⟩ := entry
      rw [receiveLoop, if_pos (Or.inr late)]

/-- Of everything in the sender only the window size changes. -/
theorem receive_of_impossible {sender : TCPSender} {message : TCPReceiverMessage}
    (impossible : sender.Impossible message) :
    sender.receive message = { sender with windowSize := message.windowSize.toNat } := by
  obtain ⟨ackno, carries, late⟩ := impossible
  rw [receive, carries]
  dsimp only
  rw [receiveLoop_of_late late]
  rfl

end TCPSender

namespace Session

/-- The message changes nothing, and what comes after it goes as if it had never arrived. -/
def Ignores (session : Session) (message : TCPReceiverMessage) : Prop :=
  session.step (.receive message) = .ok session ∧
    ∀ later, attempt step session (.receive message :: later) = attempt step session later

theorem edgeAfter_of_impossible {session : Session} {message : TCPReceiverMessage}
    (impossible : session.sender.Impossible message) : session.edgeAfter message = session.edge := by
  obtain ⟨ackno, carries, late⟩ := impossible
  rw [edgeAfter, carries]
  exact if_neg (Nat.not_le.mpr late)

/-- In every state a message whose ackno is impossible is ignored just if it carries the window
size that the sender has. -/
theorem ignores_impossible_iff (session : Session) (message : TCPReceiverMessage)
    (impossible : session.sender.Impossible message) :
    session.Ignores message ↔ message.windowSize.toNat = session.sender.windowSize := by
  have stepped : session.step (.receive message) = .ok
      { session with sender := { session.sender with windowSize := message.windowSize.toNat } } := by
    rw [step, TCPSender.receive_of_impossible impossible, edgeAfter_of_impossible impossible]
  constructor
  · rintro ⟨unchanged, -⟩
    have same := Except.ok.inj (stepped.symm.trans unchanged)
    exact congrArg (fun next : Session => next.sender.windowSize) same
  · intro sameWindow
    rw [sameWindow] at stepped
    refine ⟨stepped, fun later => ?_⟩
    rw [attempt_cons, stepped]
    rfl

/-- Only the SYN is sent, and the second number acknowledged with the window there is. -/
theorem ignores_impossible_iff_sameWindow :
    ∃ session, run 8 1000 ⟨0⟩ [.push, .maybeSend] = .ok session ∧
      session.Ignores { ackno := some ⟨2⟩, windowSize := 1 } := by
  refine ⟨_, rfl, ?_⟩
  exact (ignores_impossible_iff _ _ ⟨⟨2⟩, rfl, by decide⟩).mpr rfl

/-- With a larger window, three bytes are pushed that would have waited. -/
theorem ignores_fails_largerWindow :
    ∃ session, run 8 1000 ⟨0⟩ [.push, .maybeSend, .write [97, 98, 99]] = .ok session ∧
      session.sender.Impossible { ackno := some ⟨2⟩, windowSize := 1000 } ∧
      ¬ session.Ignores { ackno := some ⟨2⟩, windowSize := 1000 } ∧
      (attempt step session [.push]).map created = .ok [{ seqno := ⟨0⟩, SYN := true }] ∧
      (attempt step session [.receive { ackno := some ⟨2⟩, windowSize := 1000 }, .push]).map created =
        .ok [{ seqno := ⟨0⟩, SYN := true }, { seqno := ⟨1⟩, payload := [97, 98, 99] }] := by
  refine ⟨_, rfl, ⟨⟨2⟩, rfl, by decide⟩, ?_, by decide, by decide⟩
  rintro ⟨unchanged, -⟩
  have same := congrArg (Except.map fun next : Session => next.sender.windowSize) unchanged
  exact absurd same (by decide)

end Session

end Minnow.Transport
