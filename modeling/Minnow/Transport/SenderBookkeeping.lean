import Mathlib.Data.List.Chain
import Minnow.Transport.SenderBacklog

/-!
# The sender's bookkeeping

The next sequence number is not stored: it is where the last outstanding segment ends, or the
left edge when nothing is outstanding.  So the map and the left edge must not drift apart,
whatever acknos come in.
-/

namespace Minnow.Transport

open Foundation Foundation.Words Foundation.Runs Foundation.Tiling Minnow.Stream

open TCPSenderMessage (sequenceLength)

namespace TCPSender

/-- The first outstanding segment does not begin past the left edge. -/
def Begun (sender : TCPSender) : Prop :=
  ∀ entry, sender.outstandingMessages.entries.head? = some entry → entry.1 ≤ sender.windowLeft

/-- The outstanding segments follow one another up to the next number, and the left edge lies
in the first of them. -/
structure Bookkept (sender : TCPSender) : Prop where
  chained : sender.outstandingMessages.entries.IsChain fun entry later =>
    entry.1 + entry.2.sequenceLength = later.1
  covers : ∀ first, sender.outstandingMessages.entries.head? = some first → ∀ number,
    (∃ entry ∈ sender.outstandingMessages.entries,
      entry.1 ≤ number ∧ number < entry.1 + entry.2.sequenceLength) ↔
        first.1 ≤ number ∧ number < sender.getAbsoluteSeqno
  edge : ∀ first, sender.outstandingMessages.entries.head? = some first →
    first.1 ≤ sender.windowLeft ∧ sender.windowLeft < first.1 + first.2.sequenceLength
  idle : sender.outstandingMessages.entries = [] → sender.windowLeft = sender.getAbsoluteSeqno
  inFlight : sender.windowLeft ≤ sender.getAbsoluteSeqno ∧
    sender.sequenceNumbersInFlight = sender.getAbsoluteSeqno - sender.windowLeft

end TCPSender

namespace Account

variable {isn : Wrap32} {written : List UInt8} {created : List TCPSenderMessage}
  {sender : TCPSender} {outbound : ByteStream}

/-- Each outstanding segment begins where the one before it ends. -/
theorem chained (account : Account isn written created sender outbound) :
    sender.outstandingMessages.entries.IsChain fun entry later =>
      entry.1 + entry.2.sequenceLength = later.1 := by
  obtain ⟨acked, waiting, _, entries, _⟩ := account.outstanding
  rw [entries]
  exact isChain_placed (extent sequenceLength acked) waiting

/-- What is left when leading segments are acknowledged begins by the ackno. -/
theorem begun_receive (account : Account isn written created sender outbound)
    (small : written.length + 2 < 2 ^ 64) (begun : sender.Begun)
    {message : TCPReceiverMessage} {absoluteAckno : Nat} {acked : List (Nat × TCPSenderMessage)}
    {after : TCPSender} (received : TCPSender.Received sender message absoluteAckno acked after) :
    after.Begun := by
  have bound := account.extent_le
  have chained := account.chained
  rw [received.split] at chained
  intro entry first
  obtain ⟨rest, remaining⟩ := List.head?_eq_some_iff.mp first
  cases acked using List.reverseRecOn with
  | nil =>
      rw [(received.stayed rfl).1]
      refine begun entry ?_
      rw [received.split, List.nil_append]
      exact first
  | append_singleton before last =>
      have some_acked : before ++ [last] ≠ [] :=
        List.append_ne_nil_of_right_ne_nil _ (List.cons_ne_nil _ _)
      have inside : last ∈ before ++ [last] := List.mem_append_right _ List.mem_cons_self
      have covered := received.ends last inside
      have ends := account.ends_le (received.split ▸ List.mem_append_left _ inside)
      rw [add64_of_lt (by omega)] at covered
      rw [remaining, List.append_assoc] at chained
      have joined : last.1 + last.2.sequenceLength = entry.1 :=
        (List.isChain_append_cons_cons.mp chained).2.1
      rw [(received.moved some_acked).1]
      omega

/-- An account whose first segment holds the left edge is in order. -/
theorem bookkept (account : Account isn written created sender outbound)
    (small : written.length + 2 < 2 ^ 64) (begun : sender.Begun) (waiting : sender.Waiting) :
    sender.Bookkept := by
  have bound := account.extent_le
  have left := account.left
  have next := account.next small
  obtain ⟨acked, outstanding, split, entries, _⟩ := account.outstanding
  refine ⟨account.chained, ?_, ?_, ?_, ?_, ?_⟩
  · intro first atFront number
    have begins : first.1 = extent sequenceLength acked := by
      cases outstanding with
      | nil =>
          rw [entries] at atFront
          cases atFront
      | cons head rest =>
          rw [entries] at atFront
          cases atFront
          rfl
    rw [entries, begins, next, split, extent_append]
    exact covered_placed_iff _ outstanding number
  · exact fun first atFront => ⟨begun first atFront, waiting first atFront⟩
  · exact fun empty => (TCPSender.getAbsoluteSeqno_of_nil empty).symm
  · exact next ▸ left
  · exact sub64_of_le (next ▸ left) (by omega)

/-- A message that acknowledges leaves the next number as it was. -/
theorem next_receive (account : Account isn written created sender outbound)
    (small : written.length + 2 < 2 ^ 64) (message : TCPReceiverMessage) :
    (sender.receive message).getAbsoluteSeqno = sender.getAbsoluteSeqno := by
  cases carries : message.ackno with
  | none => rw [TCPSender.receive_of_none _ carries]
  | some ackno =>
      obtain ⟨acked, received⟩ := sender.receive_spec carries
      rw [(account.receive small received).next small, account.next small]

end Account

namespace Session

/-- What the bookkeeping of a session rests on. -/
structure Kept (isn : Wrap32) (session : Session) : Prop where
  accounted : session.Accounted isn
  waiting : session.sender.Waiting
  begun : session.sender.Begun

theorem start_kept (capacity initialRTO : UInt64) (isn : Wrap32) :
    (start capacity initialRTO isn).Kept isn where
  accounted := start_accounted capacity initialRTO isn
  waiting := start_waiting capacity initialRTO isn
  begun := by
    rintro entry ⟨⟩

theorem Accounted.begun_step {isn : Wrap32} {session next : Session} {op : Op}
    (accounted : session.Accounted isn) (small : session.written.length + 2 < 2 ^ 64)
    (begun : session.sender.Begun) (stepped : session.Stepped op next) : next.sender.Begun := by
  cases op with
  | receive message =>
      cases stepped with
      | bare bare => exact begun
      | receive carries received => exact Account.begun_receive accounted small begun received
  | _ =>
      intro entry first
      obtain ⟨same, old | ⟨begins, positive⟩⟩ :=
        accounted.first_step small stepped (by rintro message ⟨⟩) first
      · exact same ▸ begun entry old
      · omega

theorem Kept.step {isn : Wrap32} {session next : Session} {op : Op} (kept : session.Kept isn)
    (ran : session.step op = .ok next) (small : next.written.length + 2 < 2 ^ 64) :
    next.Kept isn := by
  have stepped := stepped_of_step ran
  have smaller := stepped.written.length_le
  exact ⟨kept.accounted.step stepped small, kept.accounted.waiting_step (by omega) kept.waiting ran,
    kept.accounted.begun_step (by omega) kept.begun stepped⟩

/-- A run keeps the books, and never takes the left edge back. -/
theorem Kept.attempt {isn : Wrap32} {session final : Session} {ops : List Op}
    (kept : session.Kept isn) (ran : attempt Session.step session ops = .ok final)
    (small : final.written.length + 2 < 2 ^ 64) :
    final.Kept isn ∧ session.sender.windowLeft ≤ final.sender.windowLeft := by
  refine attempt_invariant (fun state : Session => state.written.length + 2 < 2 ^ 64 →
    state.Kept isn ∧ session.sender.windowLeft ≤ state.sender.windowLeft) ?_
    (fun _ => ⟨kept, Nat.le_refl _⟩) ran small
  intro state op next inner ran nextSmall
  have stepped := stepped_of_step ran
  have smaller := stepped.written.length_le
  obtain ⟨here, forward⟩ := inner (by omega)
  exact ⟨here.step ran nextSmall,
    forward.trans (here.accounted.windowLeft_le (by omega) here.waiting stepped)⟩

/-- After every run that returns and has written fewer than `2 ^ 62` bytes, the books are in
order, the left edge is no further back than at any time before, and neither a message nor a
tick changes the next number. -/
theorem run_bookkept (capacity initialRTO : UInt64) (isn : Wrap32) (ops : List Op)
    (session : Session) (ran : run capacity initialRTO isn ops = .ok session)
    (small : session.written.length < 2 ^ 62) :
    session.sender.Bookkept ∧
      (∀ earlier before, earlier <+: ops → run capacity initialRTO isn earlier = .ok before →
        before.sender.windowLeft ≤ session.sender.windowLeft) ∧
      (∀ message, (session.sender.receive message).getAbsoluteSeqno =
        session.sender.getAbsoluteSeqno) ∧
      ∀ msSinceLastTick after, session.sender.tick msSinceLastTick = .ok after →
        after.getAbsoluteSeqno = session.sender.getAbsoluteSeqno := by
  obtain ⟨kept, -⟩ := (start_kept capacity initialRTO isn).attempt ran (by omega)
  refine ⟨Account.bookkept kept.accounted (by omega) kept.begun kept.waiting, ?_, ?_, ?_⟩
  · rintro earlier before ⟨later, rfl⟩ ranEarlier
    obtain ⟨middle, alsoRan, ranLater⟩ := attempt_append_ok ran
    cases ranEarlier.symm.trans alsoRan
    have grown := (written_attempt ranLater).length_le
    obtain ⟨keptEarlier, -⟩ := (start_kept capacity initialRTO isn).attempt ranEarlier (by omega)
    exact (keptEarlier.attempt ranLater (by omega)).2
  · exact Account.next_receive kept.accounted (by omega)
  · intro msSinceLastTick after ticking
    rcases session.sender.tick_spec msSinceLastTick with ⟨copies, same, ticks, ticked⟩ | ⟨failed, -⟩
    · cases ticks.symm.trans ticking
      rw [TCPSender.getAbsoluteSeqno, TCPSender.getAbsoluteSeqno, ticked.outstandingMessages,
        ticked.windowLeft]
    · rw [failed] at ticking
      cases ticking

/-- Six bytes go out in two segments, and an ackno ends in the middle of the second. -/
def partlyAcked : List Op :=
  [.write [97, 98, 99, 100, 101, 102], .push, .receive { ackno := some ⟨1⟩, windowSize := 3 }, .push,
    .receive { ackno := some ⟨1⟩, windowSize := 6 }, .push,
    .receive { ackno := some ⟨5⟩, windowSize := 6 }]

theorem run_bookkept_partlyAcked :
    ∃ session, run 8 1000 ⟨0⟩ partlyAcked = .ok session ∧ session.sender.Bookkept ∧
      session.sender.windowLeft = 5 ∧
      session.sender.outstandingMessages.entries.map Prod.fst = [4] ∧
      session.sender.sequenceNumbersInFlight = 2 :=
  ⟨_, rfl, (run_bookkept 8 1000 ⟨0⟩ partlyAcked _ rfl (by decide)).1, by decide⟩

end Session

end Minnow.Transport
