import Minnow.Transport.RetransmissionSteps

/-!
# The law of retransmission

A clock beside the session holds the time since the timer was last started.  Timeout,
counter and timer follow from it in every state of a run.
-/

namespace Minnow.Transport

open Foundation Foundation.Words Foundation.Runs Minnow.Stream

/-- A session with the time since its timer was last started or restarted, and the whole time
that has passed. -/
structure Timed where
  session : Session
  since : Nat
  total : Nat
  deriving DecidableEq

namespace Timed

open Session (Op)

/-- The time a call lets pass. -/
def duration : Op → Nat
  | .tick msSinceLastTick => msSinceLastTick
  | _ => 0

def start (capacity initialRTO : UInt64) (isn : Wrap32) : Timed :=
  ⟨Session.start capacity initialRTO isn, 0, 0⟩

/-- The clock is set back where a segment is sent and the timer stands still, where an ackno
covers a segment, and where a tick retransmits. -/
def sinceAfter (timed : Timed) (next : Session) : Op → Nat
  | .maybeSend => if timed.session.sender.Starts then 0 else timed.since
  | .receive message => if timed.session.sender.Acknowledges message then 0 else timed.since
  | .tick msSinceLastTick =>
      if next.sender.sendQueue = timed.session.sender.sendQueue then timed.since + msSinceLastTick
      else 0
  | _ => timed.since

def step (timed : Timed) (op : Op) : Except Fault Timed := do
  let next ← timed.session.step op
  return ⟨next, timed.sinceAfter next op, timed.total + duration op⟩

def run (capacity initialRTO : UInt64) (isn : Wrap32) (ops : List Op) : Except Fault Timed :=
  attempt step (start capacity initialRTO isn) ops

theorem step_ok {timed next : Timed} {op : Op} (ran : timed.step op = .ok next) :
    ∃ session, timed.session.step op = .ok session ∧
      next = ⟨session, timed.sinceAfter session op, timed.total + duration op⟩ := by
  rw [step] at ran
  cases stepped : timed.session.step op with
  | error fault => exact nomatch stepped ▸ ran
  | ok session =>
      rw [stepped] at ran
      cases ran
      exact ⟨session, rfl, rfl⟩

/-- The clock does not disturb the session. -/
theorem run_of_session {capacity initialRTO : UInt64} {isn : Wrap32} {ops : List Op}
    {session : Session} (ran : Session.run capacity initialRTO isn ops = .ok session) :
    ∃ timed, run capacity initialRTO isn ops = .ok timed ∧ timed.session = session ∧
      timed.total = (ops.map duration).sum := by
  induction ops using List.reverseRecOn generalizing session with
  | nil =>
      cases ran
      exact ⟨_, rfl, rfl, rfl⟩
  | append_singleton ops op ih =>
      obtain ⟨middle, before, last⟩ := attempt_snoc_ok ran
      obtain ⟨timed, timedRan, same, total⟩ := ih before
      have stepped : timed.step op =
          .ok ⟨session, timed.sinceAfter session op, timed.total + duration op⟩ := by
        rw [step, same, last]
        rfl
      refine ⟨_, attempt_snoc_of_ok timedRan stepped, rfl, ?_⟩
      rw [total, List.map_append, List.sum_append, List.map_singleton, List.sum_singleton]

/-! ## Timer, timeout and clock in step -/

/-- The timeout is the initial one doubled for each retransmission, a running timer is set to
it, and shows the time on the clock. -/
structure Paced (initialRTO since : Nat) (timer : RetransmissionTimer)
    (timeout : RetransmissionTimeout) (count : Nat) : Prop where
  initValue : timeout.initValue = initialRTO
  backedOff : timeout.value = initialRTO * 2 ^ count
  armed : timer.isRunning = true → timer.timeout = timeout.value
  shown : timer.isRunning = true → timer.timer = since

section Paced

variable {initialRTO since count : Nat} {timer : RetransmissionTimer}
  {timeout : RetransmissionTimeout}

/-- The timer starts and the clock is set back. -/
theorem Paced.restart (initValue : timeout.initValue = initialRTO)
    (backedOff : timeout.value = initialRTO * 2 ^ count) :
    Paced initialRTO 0 (RetransmissionTimer.restart timeout.value) timeout count :=
  ⟨initValue, backedOff, fun _ => rfl, fun _ => rfl⟩

theorem Paced.stop (initValue : timeout.initValue = initialRTO)
    (backedOff : timeout.value = initialRTO * 2 ^ count) :
    Paced initialRTO since RetransmissionTimer.stop timeout count :=
  ⟨initValue, backedOff, fun running => absurd running Bool.false_ne_true,
    fun running => absurd running Bool.false_ne_true⟩

/-- Time passes on the timer and on the clock. -/
theorem Paced.elapse (paced : Paced initialRTO since timer timeout count) {msTime : Nat}
    (fits : since + msTime < 2 ^ 64) :
    Paced initialRTO (since + msTime) (timer.elapse msTime) timeout count := by
  refine ⟨paced.initValue, paced.backedOff, paced.armed, fun running => ?_⟩
  change timer.isRunning = true at running
  change (if timer.isRunning then add64 timer.timer msTime else timer.timer) = _
  rw [if_pos running, paced.shown running, add64_of_lt fits]

end Paced

/-- The sender is paced by the clock. -/
structure InStep (initialRTO : Nat) (timed : Timed) : Prop where
  paced : Paced initialRTO timed.since timed.session.sender.pace.1 timed.session.sender.pace.2.1
    timed.session.sender.pace.2.2
  elapsed : timed.since ≤ timed.total

theorem start_inStep (capacity initialRTO : UInt64) (isn : Wrap32) :
    (start capacity initialRTO isn).InStep initialRTO.toNat :=
  ⟨Paced.stop rfl (Nat.mul_one _).symm, Nat.le_refl 0⟩

/-- The timer expires when the clock reaches the timeout. -/
theorem InStep.expires_iff {initialRTO : Nat} {timed : Timed} (inStep : timed.InStep initialRTO)
    {msSinceLastTick : Nat} (fits : timed.total + msSinceLastTick < 2 ^ 64) :
    timed.session.sender.Expires msSinceLastTick ↔
      timed.session.sender.retransmissionTimer.isRunning = true ∧
        timed.session.sender.RTO.value ≤ timed.since + msSinceLastTick := by
  refine and_congr_right fun running => ?_
  have elapsed := inStep.elapsed
  have armed : timed.session.sender.retransmissionTimer.timeout = timed.session.sender.RTO.value :=
    inStep.paced.armed running
  have shown : timed.session.sender.retransmissionTimer.timer = timed.since :=
    inStep.paced.shown running
  rw [armed, shown, add64_of_lt (by omega)]

/-! ## One step -/

theorem tick_of_step {session next : Session} {msSinceLastTick : Nat}
    (ran : session.step (.tick msSinceLastTick) = .ok next) :
    session.sender.tick msSinceLastTick = .ok next.sender := by
  rw [Session.step] at ran
  cases ticked : session.sender.tick msSinceLastTick with
  | error fault => exact nomatch ticked ▸ ran
  | ok after =>
      rw [ticked] at ran
      cases ran
      rfl

/-- After an expiry the timeout is still the initial one doubled for each retransmission. -/
theorem backOff_backedOff {sender : TCPSender} {initialRTO : Nat}
    (backedOff : sender.RTO.value = initialRTO * 2 ^ sender.consecutiveRetransmissions)
    (small : initialRTO * 2 ^ sender.consecutiveRetransmissions < 2 ^ 64)
    (smaller : initialRTO * 2 ^ sender.backOff.consecutiveRetransmissions < 2 ^ 64) :
    sender.backOff.RTO.value = initialRTO * 2 ^ sender.backOff.consecutiveRetransmissions := by
  unfold TCPSender.backOff at smaller ⊢
  split at smaller
  case isFalse closed =>
      rw [if_neg closed]
      exact backedOff
  case isTrue opened =>
      rw [if_pos opened]
      change add64 sender.RTO.value sender.RTO.value =
        initialRTO * 2 ^ add64 sender.consecutiveRetransmissions 1
      change initialRTO * 2 ^ add64 sender.consecutiveRetransmissions 1 < 2 ^ 64 at smaller
      rw [backedOff]
      rcases Nat.eq_zero_or_pos initialRTO with zero | positive
      · rw [zero, Nat.zero_mul, Nat.zero_mul]
        rfl
      · have power : 2 ^ sender.consecutiveRetransmissions < 2 ^ 64 :=
          Nat.lt_of_le_of_lt (Nat.le_mul_of_pos_left _ positive) small
        have few := (Nat.pow_lt_pow_iff_right (by decide)).mp power
        have next : add64 sender.consecutiveRetransmissions 1 =
            sender.consecutiveRetransmissions + 1 :=
          add64_of_lt (Nat.lt_of_lt_of_le (Nat.succ_lt_succ few) (by decide))
        rw [next, Nat.pow_succ, ← Nat.mul_assoc, Nat.mul_two] at smaller ⊢
        exact add64_of_lt smaller

/-- A tick lets the time pass, or backs off and restarts the timer. -/
theorem Paced.tick {initialRTO since msSinceLastTick : Nat} {sender after : TCPSender}
    (paced : Paced initialRTO since sender.pace.1 sender.pace.2.1 sender.pace.2.2)
    (ran : sender.tick msSinceLastTick = .ok after) (fits : since + msSinceLastTick < 2 ^ 64)
    (small : initialRTO * 2 ^ sender.consecutiveRetransmissions < 2 ^ 64)
    (smaller : initialRTO * 2 ^ after.consecutiveRetransmissions < 2 ^ 64) :
    Paced initialRTO
      (if after.sendQueue = sender.sendQueue then since + msSinceLastTick else 0)
      after.pace.1 after.pace.2.1 after.pace.2.2 := by
  by_cases expires : sender.Expires msSinceLastTick
  · obtain ⟨first, -, pace, queue⟩ := TCPSender.tick_expires expires ran
    have initValue : sender.backOff.RTO.initValue = initialRTO := by
      rw [← paced.initValue, TCPSender.backOff]
      split
      · rfl
      · rfl
    have counter : after.consecutiveRetransmissions = sender.backOff.consecutiveRetransmissions :=
      congrArg (fun pace => pace.2.2) pace
    rw [counter] at smaller
    rw [if_neg (by rw [queue]; simp), pace]
    exact Paced.restart initValue (backOff_backedOff paced.backedOff small smaller)
  · obtain ⟨pace, queue⟩ := TCPSender.tick_waits expires ran
    rw [if_pos queue, pace]
    exact paced.elapse fits

theorem InStep.step {initialRTO : Nat} {timed next : Timed} {op : Op}
    (inStep : timed.InStep initialRTO) (ran : timed.step op = .ok next)
    (fits : next.total < 2 ^ 64)
    (small : initialRTO * 2 ^ timed.session.sender.consecutiveRetransmissions < 2 ^ 64)
    (smaller : initialRTO * 2 ^ next.session.sender.consecutiveRetransmissions < 2 ^ 64) :
    next.InStep initialRTO := by
  obtain ⟨session, stepped, rfl⟩ := step_ok ran
  have elapsed := inStep.elapsed
  have paced := inStep.paced
  cases op with
  | write data =>
      cases stepped
      exact ⟨paced, elapsed⟩
  | close =>
      cases stepped
      exact ⟨paced, elapsed⟩
  | push =>
      obtain ⟨segments, last, rest, emits, alsoStepped⟩ := timed.session.step_push
      cases alsoStepped.symm.trans stepped
      have pace : last.pace = timed.session.sender.pace := emits.pace_pushSyn
      rw [← pace] at paced
      exact ⟨paced, elapsed⟩
  | maybeSend =>
      cases stepped
      have pace := timed.session.sender.maybeSend_pace
      refine ⟨?_, ?_⟩
      · dsimp only [sinceAfter]
        rw [pace]
        split
        · exact Paced.restart paced.initValue paced.backedOff
        · exact paced
      · dsimp only [sinceAfter]
        split
        · exact Nat.zero_le _
        · exact elapsed
  | receive message =>
      cases stepped
      by_cases covers : timed.session.sender.Acknowledges message
      · obtain ⟨timer, restarts, pace⟩ := TCPSender.receive_pace_of_acknowledges covers
        have initValue := paced.initValue
        have initially : timed.session.sender.RTO.initValue = initialRTO * 2 ^ 0 :=
          initValue.trans (Nat.mul_one _).symm
        refine ⟨?_, ?_⟩
        · dsimp only [sinceAfter]
          rw [if_pos covers, pace]
          rcases restarts with rfl | rfl
          · exact @Paced.restart _ _ { timed.session.sender.RTO with value := _ } initValue initially
          · exact @Paced.stop _ _ _ { timed.session.sender.RTO with value := _ } initValue initially
        · dsimp only [sinceAfter]
          rw [if_pos covers]
          exact Nat.zero_le _
      · refine ⟨?_, ?_⟩
        · dsimp only [sinceAfter]
          rw [if_neg covers, TCPSender.receive_pace_of_not covers]
          exact paced
        · dsimp only [sinceAfter]
          rw [if_neg covers]
          exact elapsed
  | tick msSinceLastTick =>
      change timed.total + msSinceLastTick < 2 ^ 64 at fits
      have ticked := tick_of_step stepped
      refine ⟨paced.tick ticked (by omega) small smaller, ?_⟩
      dsimp only [sinceAfter, duration]
      split
      · exact Nat.add_le_add_right elapsed _
      · exact Nat.zero_le _

/-! ## Runs -/

/-- The backed-off timeout fits its word. -/
def Fits (initialRTO : UInt64) (session : Session) : Prop :=
  initialRTO.toNat * 2 ^ session.sender.consecutiveRetransmissions < 2 ^ 64

instance (initialRTO : UInt64) (session : Session) : Decidable (Fits initialRTO session) :=
  inferInstanceAs (Decidable (_ < _))

/-- What holds of the retransmissions of a sender at any time: how long the timeout is, what the
timer is set to, when a tick retransmits and what, when the counter grows, and which messages
change nothing. -/
structure Law (initialRTO : UInt64) (timed : Timed) : Prop where
  backedOff : timed.session.sender.RTO.value =
    initialRTO.toNat * 2 ^ timed.session.sender.consecutiveRetransmissions
  armed : timed.session.sender.retransmissionTimer.isRunning = true →
    timed.session.sender.retransmissionTimer.timeout = timed.session.sender.RTO.value
  retransmits : ∀ msSinceLastTick next, timed.total + msSinceLastTick < 2 ^ 64 →
    timed.session.step (.tick msSinceLastTick) = .ok next →
    (timed.session.sender.Retransmits next.sender ↔
      timed.session.sender.retransmissionTimer.isRunning = true ∧
        timed.session.sender.RTO.value ≤ timed.since + msSinceLastTick) ∧
    (timed.session.sender.Retransmits next.sender ∨
      next.sender.sendQueue = timed.session.sender.sendQueue)
  grows : ∀ op next, timed.session.step op = .ok next →
    timed.session.sender.consecutiveRetransmissions < next.sender.consecutiveRetransmissions →
    ∃ msSinceLastTick, op = .tick msSinceLastTick ∧
      timed.session.sender.Retransmits next.sender ∧ 0 < timed.session.sender.windowSize
  unacknowledged : ∀ message, ¬ timed.session.sender.Acknowledges message →
    (timed.session.sender.receive message).retransmissionTimer =
        timed.session.sender.retransmissionTimer ∧
      (timed.session.sender.receive message).RTO = timed.session.sender.RTO ∧
      (timed.session.sender.receive message).consecutiveRetransmissions =
        timed.session.sender.consecutiveRetransmissions

/-- The counter grows only where a tick expires with the window open. -/
theorem counter_le {session next : Session} {op : Op} (ran : session.step op = .ok next)
    (grown : session.sender.consecutiveRetransmissions < next.sender.consecutiveRetransmissions) :
    ∃ msSinceLastTick, op = .tick msSinceLastTick ∧ session.sender.Expires msSinceLastTick ∧
      0 < session.sender.windowSize := by
  cases op with
  | write data =>
      cases ran
      exact absurd grown (Nat.lt_irrefl _)
  | close =>
      cases ran
      exact absurd grown (Nat.lt_irrefl _)
  | push =>
      obtain ⟨segments, last, rest, emits, alsoRan⟩ := session.step_push
      cases alsoRan.symm.trans ran
      have pace : last.pace = session.sender.pace := emits.pace_pushSyn
      exact absurd grown (Nat.not_lt_of_le (Nat.le_of_eq (congrArg (fun pace => pace.2.2) pace)))
  | maybeSend =>
      cases ran
      have counter : session.sender.maybeSend.1.pace.2.2 = session.sender.pace.2.2 := by
        rw [TCPSender.maybeSend_pace]
        split
        · rfl
        · rfl
      exact absurd grown (Nat.not_lt_of_le (Nat.le_of_eq counter))
  | receive message =>
      cases ran
      by_cases covers : session.sender.Acknowledges message
      · obtain ⟨timer, -, pace⟩ := TCPSender.receive_pace_of_acknowledges covers
        have counter : (session.sender.receive message).consecutiveRetransmissions = 0 :=
          congrArg (fun pace => pace.2.2) pace
        change _ < (session.sender.receive message).consecutiveRetransmissions at grown
        rw [counter] at grown
        exact absurd grown (Nat.not_lt_zero _)
      · have pace := TCPSender.receive_pace_of_not covers
        exact absurd grown (Nat.not_lt_of_le (Nat.le_of_eq (congrArg (fun pace => pace.2.2) pace)))
  | tick msSinceLastTick =>
      have ticked := tick_of_step ran
      refine ⟨msSinceLastTick, rfl, ?_⟩
      by_cases expires : session.sender.Expires msSinceLastTick
      · refine ⟨expires, Nat.pos_of_ne_zero fun closed => ?_⟩
        obtain ⟨first, -, pace, -⟩ := TCPSender.tick_expires expires ticked
        rw [TCPSender.backOff, if_neg (by rw [closed]; exact Nat.lt_irrefl 0)] at pace
        exact absurd grown (Nat.not_lt_of_le (Nat.le_of_eq (congrArg (fun pace => pace.2.2) pace)))
      · obtain ⟨pace, -⟩ := TCPSender.tick_waits expires ticked
        exact absurd grown (Nat.not_lt_of_le (Nat.le_of_eq (congrArg (fun pace => pace.2.2) pace)))

theorem InStep.law {initialRTO : UInt64} {timed : Timed} (inStep : timed.InStep initialRTO.toNat) :
    timed.Law initialRTO := by
  refine ⟨inStep.paced.backedOff, inStep.paced.armed, ?_, ?_, ?_⟩
  · intro msSinceLastTick next fits ran
    have exactly := TCPSender.tick_retransmits (tick_of_step ran)
    rw [← inStep.expires_iff fits]
    by_cases expires : timed.session.sender.Expires msSinceLastTick
    · rw [if_pos expires] at exactly
      exact ⟨iff_of_true exactly expires, Or.inl exactly⟩
    · rw [if_neg expires] at exactly
      exact ⟨iff_of_false (fun retransmits => retransmits.sendQueue_ne exactly) expires,
        Or.inr exactly⟩
  · intro op next ran grown
    obtain ⟨msSinceLastTick, rfl, expires, opened⟩ := counter_le ran grown
    have exactly := TCPSender.tick_retransmits (tick_of_step ran)
    rw [if_pos expires] at exactly
    exact ⟨msSinceLastTick, rfl, exactly, opened⟩
  · intro message nothing
    have pace := TCPSender.receive_pace_of_not nothing
    exact ⟨congrArg Prod.fst pace, congrArg (fun pace => pace.2.1) pace,
      congrArg (fun pace => pace.2.2) pace⟩

theorem run_inStep {capacity initialRTO : UInt64} {isn : Wrap32} {ops : List Op} {timed : Timed}
    (ran : run capacity initialRTO isn ops = .ok timed) (small : timed.total < 2 ^ 64)
    (fits : EachReached Session.step (Fits initialRTO) (Session.start capacity initialRTO isn) ops)
    (sessionRan : Session.run capacity initialRTO isn ops = .ok timed.session) :
    timed.InStep initialRTO.toNat := by
  induction ops using List.reverseRecOn generalizing timed with
  | nil =>
      cases ran
      exact start_inStep capacity initialRTO isn
  | append_singleton ops op ih =>
      obtain ⟨middle, before, last⟩ := attempt_snoc_ok ran
      obtain ⟨session, stepped, rfl⟩ := step_ok last
      obtain ⟨other, otherRan, otherLast⟩ := attempt_snoc_ok sessionRan
      obtain ⟨copy, copyRan, same, -⟩ := run_of_session otherRan
      cases copyRan.symm.trans before
      rw [← same] at otherRan
      have inStep := ih before (Nat.lt_of_le_of_lt (Nat.le_add_right _ _) small) fits.begins otherRan
      exact inStep.step last small (fits.begins.final otherRan) (fits.final sessionRan)

/-- In every state that a run reaches the retransmissions follow the law. -/
theorem retransmission_law (capacity initialRTO : UInt64) (isn : Wrap32) (ops : List Op)
    (session : Session) (ran : Session.run capacity initialRTO isn ops = .ok session)
    (small : (ops.map duration).sum < 2 ^ 64)
    (fits : EachReached Session.step (Fits initialRTO) (Session.start capacity initialRTO isn)
      ops) :
    ∃ timed, run capacity initialRTO isn ops = .ok timed ∧ timed.session = session ∧
      timed.total = (ops.map duration).sum ∧ timed.Law initialRTO := by
  obtain ⟨timed, timedRan, rfl, total⟩ := run_of_session ran
  exact ⟨timed, timedRan, rfl, total, (run_inStep timedRan (total ▸ small) fits ran).law⟩

/-- The SYN is sent again twice, the second time with the window closed, and then
acknowledged. -/
def resentTwice : List Op :=
  [.push, .maybeSend, .tick 999, .receive { ackno := some ⟨0⟩, windowSize := 1 }, .tick 1,
    .maybeSend, .receive { ackno := some ⟨0⟩, windowSize := 0 }, .tick 2000, .maybeSend,
    .receive { ackno := some ⟨1⟩, windowSize := 5 }]

theorem retransmission_law_resentTwice :
    ∃ timed, run 4 1000 ⟨0⟩ resentTwice = .ok timed ∧ timed.Law 1000 := by
  obtain ⟨timed, ran, -, -, law⟩ :=
    retransmission_law 4 1000 ⟨0⟩ resentTwice _ rfl (by decide) (by decide)
  exact ⟨timed, ran, law⟩

end Timed

end Minnow.Transport
