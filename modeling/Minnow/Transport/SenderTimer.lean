import Minnow.Transport.SenderRuns

/-!
# The timer and the outstanding segments

`tick` reads the first outstanding segment when the timer has expired.  A copy that
waits in the queue can outlive its segment, and sending it starts the timer anew: the
read is safe exactly in the runs that never send from a queue left over.
-/

namespace Minnow.Transport

open Foundation Foundation.Words Foundation.Runs Minnow.Stream

namespace Session

/-- The timer runs only while something is outstanding. -/
def TimerGuarded (session : Session) : Prop :=
  session.sender.retransmissionTimer.running = true →
    session.sender.outstandingMessages.entries ≠ []

/-- A call of `maybeSend` that sends finds something outstanding. -/
def SendsFresh (session : Session) : Op → Prop
  | .maybeSend =>
      session.sender.sendQueue ≠ [] → session.sender.outstandingMessages.entries ≠ []
  | _ => True

theorem start_guarded (capacity initialRTO : UInt64) (isn : Wrap32) :
    (start capacity initialRTO isn).TimerGuarded :=
  fun running => nomatch running

/-- The opening segment is outstanding, and the timer is left alone. -/
theorem pushSyn_guarded {session : Session} (guarded : session.TimerGuarded) :
    (session.sender.pushSyn session.outbound).retransmissionTimer.running = true →
      (session.sender.pushSyn session.outbound).outstandingMessages.entries ≠ [] := by
  unfold TCPSender.pushSyn
  split_ifs with unopened
  · intro _
    exact OrderedMap.insert_entries_ne_nil _ _ _
  · exact guarded

/-- Only sending from a queue left over breaks the guard. -/
theorem stepped_guarded {session next : Session} {op : Op} (guarded : session.TimerGuarded)
    (stepped : session.Stepped op next) : next.TimerGuarded ↔ session.SendsFresh op := by
  cases stepped with
  | write data => exact iff_of_true guarded True.intro
  | close => exact iff_of_true guarded True.intro
  | push emits =>
      refine iff_of_true ?_ True.intro
      intro running
      obtain ⟨_, _, timer, _⟩ := emits.frame
      apply emits.outstanding_ne_nil
      apply pushSyn_guarded guarded
      rw [← timer]
      exact running
  | idle empty => exact iff_of_true guarded (fun full => absurd empty full)
  | send queued running =>
      constructor
      · exact fun kept _ => kept running
      · intro fresh _
        exact fresh (by rw [queued]; exact List.cons_ne_nil _ _)
  | bare bare => exact iff_of_true guarded True.intro
  | @receive message ackno acked after carries received =>
      refine iff_of_true ?_ True.intro
      intro running
      cases acked with
      | nil =>
          have split := received.split
          rw [List.nil_append] at split
          rw [← split]
          apply guarded
          rw [← (received.stayed rfl).2]
          exact running
      | cons entry acked =>
          have stopped := (received.moved (List.cons_ne_nil _ _)).2
          intro empty
          change after.retransmissionTimer.running = true at running
          rw [stopped, empty] at running
          exact nomatch running
  | tick ticked =>
      refine iff_of_true ?_ True.intro
      intro running
      rw [ticked.outstandingMessages]
      exact guarded (ticked.running.symm.trans running)

/-- A guarded session takes every step: a tick cannot fail. -/
theorem step_guarded {session : Session} (guarded : session.TimerGuarded) (op : Op) :
    ∃ next, session.step op = .ok next ∧ (next.TimerGuarded ↔ session.SendsFresh op) := by
  rcases session.step_ok_or_missing op with ⟨next, ran⟩ | ⟨running, missing⟩
  · exact ⟨next, ran, stepped_guarded guarded (stepped_of_step ran)⟩
  · exact absurd missing (guarded running)

/-- No tick of the run reads a missing segment, and the timer never runs while nothing
is outstanding. -/
def TicksSafely (capacity initialRTO : UInt64) (isn : Wrap32) (ops : List Op) : Prop :=
  ∀ history, history <+: ops →
    ∃ session, run capacity initialRTO isn history = .ok session ∧ session.TimerGuarded

/-- Every call of the run that sends finds something outstanding. -/
def NeverSendsStale (capacity initialRTO : UInt64) (isn : Wrap32) (ops : List Op) : Prop :=
  ∀ history op, history ++ [op] <+: ops →
    ∀ session, run capacity initialRTO isn history = .ok session → session.SendsFresh op

/-- `tick` is safe throughout a run exactly when no segment is sent while nothing is
outstanding. -/
theorem ticksSafely_iff_neverSendsStale (capacity initialRTO : UInt64) (isn : Wrap32)
    (ops : List Op) :
    TicksSafely capacity initialRTO isn ops ↔ NeverSendsStale capacity initialRTO isn ops := by
  constructor
  · intro safe history op begins session ran
    obtain ⟨same, alsoRan, guarded⟩ := safe history ((List.prefix_append _ _).trans begins)
    cases ran.symm.trans alsoRan
    obtain ⟨next, stepped, nextIff⟩ := step_guarded guarded op
    obtain ⟨after, afterRan, afterGuarded⟩ := safe _ begins
    obtain ⟨middle, middleRan, last⟩ := attempt_snoc_ok afterRan
    cases middleRan.symm.trans ran
    cases last.symm.trans stepped
    exact nextIff.mp afterGuarded
  · intro never history begins
    refine history_induction (fun before => ∃ session,
      run capacity initialRTO isn before = .ok session ∧ session.TimerGuarded) ?_ ?_ begins
    · exact ⟨_, rfl, start_guarded capacity initialRTO isn⟩
    · rintro before op grown ⟨session, ran, guarded⟩
      obtain ⟨next, stepped, nextIff⟩ := step_guarded guarded op
      refine ⟨next, ?_, nextIff.mpr (never before op grown session ran)⟩
      exact attempt_snoc_of_ok ran stepped

/-- The copy of the SYN is sent after the SYN was acknowledged; the next expiry then
finds nothing outstanding. -/
theorem ticksSafely_fails_stale_copy :
    ¬ TicksSafely 4 1000 ⟨0⟩
      [.push, .maybeSend, .tick 1000, .receive { ackno := some ⟨1⟩, windowSize := 10 }, .maybeSend,
        .tick 1000] := by
  intro safe
  obtain ⟨session, ran, _⟩ := safe _ (List.prefix_refl _)
  have failed : run 4 1000 ⟨0⟩ [.push, .maybeSend, .tick 1000,
      .receive { ackno := some ⟨1⟩, windowSize := 10 }, .maybeSend, .tick 1000] =
      .error .endDereferenced := by decide
  exact nomatch failed.symm.trans ran

end Session

end Minnow.Transport
