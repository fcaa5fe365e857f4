import Minnow.Transport.SenderAccount

/-!
# The sender and the advertised window

The right edge is rebuilt from the left edge and the last window size seen.  An ackno
that does not move the left edge still changes the size: the segments stay inside what
was advertised in the runs in which such messages carry no larger window.
-/

namespace Minnow.Transport

open Foundation Foundation.Words Foundation.Runs Foundation.Tiling Minnow.Stream

open TCPSenderMessage (sequenceLength)

namespace Session

/-- Every segment created, the SYN segment apart, ends by the edge advertised. -/
def WithinEdge (session : Session) : Prop :=
  ∀ start segment, (start, segment) ∈ placed sequenceLength 0 session.created →
    segment.SYN = false → start + segment.sequenceLength ≤ session.edge

/-- The ackno lies between the left edge of the sender and what it sends next: it is
neither outdated nor past everything sent. -/
def Expected (sender : TCPSender) (ackno : Wrap32) : Prop :=
  sender.windowLeft ≤ ackno.unwrap sender.isn sender.windowLeft ∧
    ackno.unwrap sender.isn sender.windowLeft ≤ sender.getAbsoluteSeqno

/-- A message with an unexpected ackno offers no window that reaches past the edge from
the left edge of the sender; and what is written stays far from the end of the 64-bit
numbers. -/
def RespectsEdge (session : Session) : Op → Prop
  | .receive message => ∀ ackno ∈ message.ackno, Expected session.sender ackno ∨
      session.sender.windowLeft + max message.windowSize.toNat 1 ≤ session.edge
  | .write data => session.written.length + (session.outbound.accepted data).length < 2 ^ 63
  | .close => True
  | .push => True
  | .maybeSend => True
  | .tick _ => True

instance (sender : TCPSender) (ackno : Wrap32) : Decidable (Expected sender ackno) :=
  inferInstanceAs (Decidable (_ ∧ _))

instance (session : Session) (op : Op) : Decidable (session.RespectsEdge op) := by
  cases op <;> unfold RespectsEdge <;> infer_instance

/-- The sender works inside the edge. -/
structure Contained (isn : Wrap32) (session : Session) : Prop where
  accounted : session.Accounted isn
  small : session.written.length < 2 ^ 63
  window : session.sender.windowLeft + max session.sender.windowSize 1 ≤ session.edge
  within : session.WithinEdge

theorem start_contained (capacity initialRTO : UInt64) (isn : Wrap32) :
    (start capacity initialRTO isn).Contained isn where
  accounted := start_accounted capacity initialRTO isn
  small := Nat.two_pow_pos 63
  window := Nat.le_refl _
  within := fun _ _ inside => nomatch inside

theorem windowRight_le (sender : TCPSender) :
    sender.windowRight ≤ sender.windowLeft + max sender.windowSize 1 := by
  unfold TCPSender.windowRight
  split_ifs with zero
  · rw [zero]
    exact add64_le _ _
  · rw [Nat.max_eq_left (Nat.one_le_iff_ne_zero.mpr zero)]
    exact add64_le _ _

theorem edge_le_edgeAfter (session : Session) (message : TCPReceiverMessage) :
    session.edge ≤ session.edgeAfter message := by
  unfold edgeAfter
  cases message.ackno with
  | none => exact Nat.le_refl _
  | some ackno =>
      dsimp only
      split_ifs
      · exact Nat.le_max_left _ _
      · exact Nat.le_refl _

/-- The segments of a push end by the edge. -/
theorem push_within {isn : Wrap32} {session : Session} (contained : session.Contained isn)
    {segments : List TCPSenderMessage} {last : TCPSender} {rest : ByteStream}
    (emits : TCPSender.Emits (session.sender.pushSyn session.outbound).windowRight
      (session.sender.pushSyn session.outbound) session.outbound segments last rest) :
    (session.pushed segments last rest).WithinEdge := by
  have small := contained.small
  have opened := Account.pushSyn contained.accounted (by omega)
  have inside := (Account.emits emits opened (by omega) (TCPSender.pushSyn_sycPushed _ _)).2
    (TCPSender.windowRight_lt _) (Nat.lt_of_lt_of_le (Nat.add_lt_add_right
      (Nat.add_lt_add_right small 2) _) (by decide))
  intro start segment placedIn plain
  change (start, segment) ∈ placed sequenceLength 0
    (session.created ++ (session.sender.opening session.outbound ++ segments)) at placedIn
  rw [← List.append_assoc, placed_append, placed_append, Nat.zero_add] at placedIn
  rcases List.mem_append.mp placedIn with earlier | new
  · rcases List.mem_append.mp earlier with old | syn
    · exact contained.within start segment old plain
    · exfalso
      unfold TCPSender.opening at syn
      split_ifs at syn
      · cases List.mem_singleton.mp syn
        exact nomatch plain
      · exact nomatch syn
  · rw [Nat.zero_add] at new
    have right := inside start segment new
    rw [TCPSender.pushSyn_windowRight] at right
    exact Nat.le_trans right (Nat.le_trans (windowRight_le _) contained.window)

/-- An expected ackno counts for the edge. -/
theorem le_edgeAfter {session : Session} {message : TCPReceiverMessage} {ackno : Wrap32}
    (carries : message.ackno = some ackno)
    (possible : ackno.unwrap session.sender.isn session.sender.windowLeft ≤
      session.sender.getAbsoluteSeqno) :
    ackno.unwrap session.sender.isn session.sender.windowLeft + max message.windowSize.toNat 1 ≤
      session.edgeAfter message := by
  unfold edgeAfter
  rw [carries]
  dsimp only
  rw [if_pos possible]
  exact Nat.le_max_right _ _

/-- The window after a message reaches no further than the edge after it. -/
theorem received_window {session : Session} {message : TCPReceiverMessage} {ackno : Wrap32}
    {acked : List (Nat × TCPSenderMessage)} {after : TCPSender}
    (carries : message.ackno = some ackno)
    (received : TCPSender.Received session.sender message
      (ackno.unwrap session.sender.isn session.sender.windowLeft) acked after)
    (respects : session.RespectsEdge (.receive message)) :
    after.windowLeft + max after.windowSize 1 ≤ session.edgeAfter message := by
  rw [received.windowSize]
  cases acked with
  | cons entry acked =>
      have some_acked : entry :: acked ≠ [] := List.cons_ne_nil _ _
      rw [(received.moved some_acked).1]
      exact le_edgeAfter carries (received.inside some_acked)
  | nil =>
      rw [(received.stayed rfl).1]
      rcases respects ackno carries with ⟨notOld, possible⟩ | offered
      · exact Nat.le_trans (Nat.add_le_add_right notOld _) (le_edgeAfter carries possible)
      · exact Nat.le_trans offered (session.edge_le_edgeAfter message)

theorem Contained.step {isn : Wrap32} {session next : Session} {op : Op}
    (contained : session.Contained isn) (respects : session.RespectsEdge op)
    (stepped : session.Stepped op next) : next.Contained isn := by
  have small := contained.small
  have nextSmall : next.written.length < 2 ^ 63 := by
    cases stepped with
    | write data =>
        rw [List.length_append]
        exact respects
    | _ => exact small
  have accounted : next.Accounted isn := contained.accounted.step stepped (by omega)
  cases stepped with
  | write data => exact ⟨accounted, nextSmall, contained.window, contained.within⟩
  | close => exact ⟨accounted, nextSmall, contained.window, contained.within⟩
  | @push segments last rest emits =>
      refine ⟨accounted, nextSmall, ?_, push_within contained emits⟩
      obtain ⟨_, _, _, _, leftSame, sizeSame⟩ := emits.frame
      change last.windowLeft + max last.windowSize 1 ≤ session.edge
      rw [leftSame, sizeSame, TCPSender.pushSyn_windowLeft, TCPSender.pushSyn_windowSize]
      exact contained.window
  | idle empty => exact contained
  | send queued running => exact ⟨accounted, nextSmall, contained.window, contained.within⟩
  | bare bare => exact contained
  | @receive message ackno acked after carries received =>
      refine ⟨accounted, nextSmall, received_window carries received respects, ?_⟩
      intro start segment inside plain
      exact Nat.le_trans (contained.within start segment inside plain)
        (session.edge_le_edgeAfter message)
  | @tick _ copies after ticked =>
      refine ⟨accounted, nextSmall, ?_, contained.within⟩
      change after.windowLeft + max after.windowSize 1 ≤ session.edge
      rw [ticked.windowLeft, ticked.windowSize]
      exact contained.window

/-- In every run in which outdated and impossible acknos offer no window past the edge,
every segment created ends by the edge advertised so far. -/
theorem within_edge_of_respectsEdge (capacity initialRTO : UInt64) (isn : Wrap32) (ops : List Op)
    (respects : EachAttempt step RespectsEdge (start capacity initialRTO isn) ops) :
    EachReached step WithinEdge (start capacity initialRTO isn) ops :=
  eachReached_of_eachAttempt (Contained isn) WithinEdge RespectsEdge
    (fun _ contained => contained.within)
    (fun _ _ _ contained met ran => contained.step met (stepped_of_step ran))
    (start_contained capacity initialRTO isn) respects

/-- A SYN and one byte are acknowledged, and an old ackno comes again with the window it
had: the next byte fits. -/
def repeatedAckno : List Op :=
  [.push, .receive { ackno := some ⟨1⟩, windowSize := 2 }, .write [97], .push,
    .receive { ackno := some ⟨2⟩, windowSize := 2 },
    .receive { ackno := some ⟨1⟩, windowSize := 2 }, .write [98], .push]

theorem within_edge_repeatedAckno :
    EachReached step WithinEdge (start 8 1000 ⟨0⟩) repeatedAckno :=
  within_edge_of_respectsEdge 8 1000 ⟨0⟩ repeatedAckno (by decide)

/-- An outdated ackno with a larger window lets the sender go on to seven, while no
message has advertised more than six. -/
theorem within_edge_fails_outdated :
    ¬ EachReached step WithinEdge (start 8 1000 ⟨0⟩)
      [.push, .receive { ackno := some ⟨1⟩, windowSize := 2 }, .write [97], .push,
        .receive { ackno := some ⟨2⟩, windowSize := 1 },
        .receive { ackno := some ⟨1⟩, windowSize := 5 }, .write [98, 99, 100, 101, 102], .push] := by
  intro each
  have last := each.2.2.2.2.2.2.2.2
  have past := last 2 { seqno := ⟨2⟩, payload := [98, 99, 100, 101, 102] } (by decide) rfl
  exact absurd past (by decide)

end Session

end Minnow.Transport
