import Minnow.Transport.SenderFidelity

/-!
# No segment in flight without a timer

The timer is started where a segment leaves the queue and stopped where nothing is
outstanding.  While it stands still, what is outstanding has not left the queue.
-/

namespace Minnow.Transport

open Foundation Foundation.Words Foundation.Runs Foundation.Tiling Minnow.Stream

open TCPSenderMessage (sequenceLength)

namespace Account

variable {isn : Wrap32} {written : List UInt8} {created : List TCPSenderMessage}
  {sender last : TCPSender} {outbound rest : ByteStream} {right : Nat}
  {segments : List TCPSenderMessage}

/-- The segments of the loop are entered behind all that is outstanding. -/
theorem emits_entries (emits : TCPSender.Emits right sender outbound segments last rest)
    (account : Account isn written created sender outbound)
    (small : written.length + 2 < 2 ^ 64) (opened : sender.sycPushed = true) :
    last.outstandingMessages.entries = sender.outstandingMessages.entries ++
      placed sequenceLength (extent sequenceLength created) segments := by
  induction emits generalizing created with
  | nil => exact (List.append_nil _).symm
  | @cons sender last outbound rest segments len unfinished room something more ih =>
      rw [ih (account.emit small opened unfinished room something) opened, placed_cons,
        extent_append, extent_cons, extent_nil, Nat.add_zero]
      change (sender.outstandingMessages.insert sender.getAbsoluteSeqno
        (sender.dataSegment outbound right len)).entries ++ _ = _
      rw [account.insert_eq small, List.append_assoc]
      rfl

/-- So is the SYN. -/
theorem pushSyn_entries (account : Account isn written created sender outbound)
    (small : written.length + 2 < 2 ^ 64) :
    (sender.pushSyn outbound).outstandingMessages.entries = sender.outstandingMessages.entries ++
      placed sequenceLength (extent sequenceLength created) (sender.opening outbound) := by
  rw [TCPSender.pushSyn, TCPSender.opening]
  split
  · exact account.insert_eq small _
  · exact (List.append_nil _).symm

end Account

namespace Session

/-! ## First transmissions -/

/-- The segments that have left the queue for the first time. -/
def firstsSent (session : Session) : List TCPSenderMessage :=
  (session.queued.take session.sent.length).filterMap Queued.first?

/-- The segments that wait in the queue for their first transmission. -/
def firstsWaiting (session : Session) : List TCPSenderMessage :=
  (session.queued.drop session.sent.length).filterMap Queued.first?

/-- What was sent is the front of what was queued, and what waits is the rest. -/
theorem QueueFaithful.split {session : Session} (faithful : session.QueueFaithful) :
    (session.queued.take session.sent.length).map Queued.message = session.sent ∧
      (session.queued.drop session.sent.length).map Queued.message = session.sender.sendQueue ∧
      session.firstsSent ++ session.firstsWaiting = session.created := by
  refine ⟨?_, ?_, ?_⟩
  · rw [List.map_take, ← faithful.order, List.take_left]
  · rw [List.map_drop, ← faithful.order, List.drop_left]
  · rw [firstsSent, firstsWaiting, ← List.filterMap_append, List.take_append_drop, faithful.firsts]

/-- What is queued later was not sent before. -/
theorem QueueFaithful.take_append {session : Session} (faithful : session.QueueFaithful)
    (more : List Queued) :
    (session.queued ++ more).take session.sent.length = session.queued.take session.sent.length := by
  have length := congrArg List.length faithful.order
  rw [List.length_append, List.length_map] at length
  exact List.take_append_of_le_length (by omega)

/-! ## The invariant -/

/-- While the timer stands still every outstanding segment lies behind those sent. -/
def IdleUnsent (session : Session) : Prop :=
  session.sender.retransmissionTimer.running = false →
    ∀ entry ∈ session.sender.outstandingMessages.entries,
      extent sequenceLength session.firstsSent ≤ entry.1

theorem start_idleUnsent (capacity initialRTO : UInt64) (isn : Wrap32) :
    (start capacity initialRTO isn).IdleUnsent :=
  fun _ _ inside => absurd inside List.not_mem_nil

theorem pushSyn_retransmissionTimer (sender : TCPSender) (outbound : ByteStream) :
    (sender.pushSyn outbound).retransmissionTimer = sender.retransmissionTimer := by
  rw [TCPSender.pushSyn]
  split
  · rfl
  · rfl

/-- The segments of a push are entered behind all that is outstanding. -/
theorem Accounted.push_entries {isn : Wrap32} {session : Session}
    {segments : List TCPSenderMessage} {last : TCPSender} {rest : ByteStream}
    (accounted : session.Accounted isn)
    (emits : TCPSender.Emits (session.sender.pushSyn session.outbound).windowRight
      (session.sender.pushSyn session.outbound) session.outbound segments last rest)
    (small : session.written.length + 2 < 2 ^ 64) :
    last.outstandingMessages.entries = session.sender.outstandingMessages.entries ++
      placed sequenceLength (extent sequenceLength session.created)
        (session.sender.opening session.outbound ++ segments) := by
  have opened := Account.pushSyn accounted small
  rw [Account.emits_entries emits opened small (TCPSender.pushSyn_sycPushed _ _),
    Account.pushSyn_entries accounted small, List.append_assoc, placed_append, extent_append]

theorem IdleUnsent.step {isn : Wrap32} {session next : Session} {op : Op}
    (idleUnsent : session.IdleUnsent) (accounted : session.Accounted isn)
    (faithful : session.QueueFaithful) (small : session.written.length + 2 < 2 ^ 64)
    (stepped : session.Stepped op next) : next.IdleUnsent := by
  cases stepped with
  | write data => exact idleUnsent
  | close => exact idleUnsent
  | @push segments last rest emits =>
      intro idle entry inside
      obtain ⟨-, -, timerSame, -⟩ := emits.frame
      have begun : extent sequenceLength session.firstsSent ≤
          extent sequenceLength session.created := by
        rw [← faithful.split.2.2, extent_append]
        exact Nat.le_add_right _ _
      have sentSame : (session.pushed segments last rest).firstsSent = session.firstsSent :=
        congrArg (List.filterMap Queued.first?) (faithful.take_append _)
      rw [sentSame]
      change entry ∈ last.outstandingMessages.entries at inside
      rw [accounted.push_entries emits small] at inside
      rcases List.mem_append.mp inside with old | new
      · refine idleUnsent ?_ entry old
        rw [← idle]
        exact congrArg RetransmissionTimer.running
          ((pushSyn_retransmissionTimer _ _).symm.trans timerSame.symm)
      · obtain ⟨before, -, -, startIs⟩ := mem_placed_iff.mp new
        omega
  | idle empty => exact idleUnsent
  | send queued running =>
      intro idle
      exact absurd running (by rw [idle]; exact Bool.false_ne_true)
  | bare bare => exact idleUnsent
  | @receive message ackno acked after carries received =>
      intro idle entry inside
      change after.retransmissionTimer.running = false at idle
      change entry ∈ after.outstandingMessages.entries at inside
      have split := received.split
      cases acked with
      | nil =>
          rw [(received.stayed rfl).2] at idle
          refine idleUnsent idle entry ?_
          rw [split]
          exact inside
      | cons first acked =>
          have running := (received.moved (List.cons_ne_nil _ _)).2
          rw [idle] at running
          have empty := List.isEmpty_iff.mp (Bool.not_eq_false' _ ▸ running.symm)
          rw [empty] at inside
          exact absurd inside List.not_mem_nil
  | @tick _ copies after ticked =>
      intro idle entry inside
      have sentSame : Session.firstsSent
          { session with sender := after, queued := session.queued ++ copies.map .again } =
          session.firstsSent :=
        congrArg (List.filterMap Queued.first?) (faithful.take_append _)
      rw [sentSame]
      refine idleUnsent (ticked.running.symm.trans idle) entry ?_
      rw [← ticked.outstandingMessages]
      exact inside

theorem run_idleUnsent {capacity initialRTO : UInt64} {isn : Wrap32} {ops : List Op}
    {session : Session} (ran : run capacity initialRTO isn ops = .ok session)
    (small : session.written.length + 2 < 2 ^ 64) : session.IdleUnsent := by
  induction ops using List.reverseRecOn generalizing session with
  | nil =>
      cases ran
      exact start_idleUnsent capacity initialRTO isn
  | append_singleton ops op ih =>
      obtain ⟨middle, before, last⟩ := attempt_snoc_ok ran
      have stepped := stepped_of_step last
      have smaller := stepped.written.length_le
      have fits : middle.written.length + 2 < 2 ^ 64 := by omega
      exact (ih before fits).step (run_accounted before fits) (run_queueFaithful before fits) fits
        stepped

/-! ## What the timer covers -/

/-- What is queued is divided into what has left the queue and what waits there.  With the timer
not running the outstanding segments wait for their first transmission; and while one is
outstanding that has left the queue, the timer runs. -/
structure TimerCovers (session : Session) : Prop where
  sent : (session.queued.take session.sent.length).map Queued.message = session.sent
  waiting : (session.queued.drop session.sent.length).map Queued.message =
    session.sender.sendQueue
  created : session.firstsSent ++ session.firstsWaiting = session.created
  idle : session.sender.retransmissionTimer.isRunning = false →
    ∀ entry ∈ session.sender.outstandingMessages.entries,
      entry ∈ placed sequenceLength (extent sequenceLength session.firstsSent)
        session.firstsWaiting
  handedOut : ∀ entry ∈ session.sender.outstandingMessages.entries,
    entry ∈ placed sequenceLength 0 session.firstsSent →
    session.sender.retransmissionTimer.isRunning = true

/-- In every state that a run reaches no segment in flight is without a timer. -/
theorem timer_covers (capacity initialRTO : UInt64) (isn : Wrap32) (ops : List Op)
    (session : Session) (ran : run capacity initialRTO isn ops = .ok session)
    (small : session.written.length < 2 ^ 62) : session.TimerCovers := by
  have accounted := run_accounted ran (by omega)
  have idleUnsent := run_idleUnsent ran (by omega)
  obtain ⟨sent, waiting, created⟩ := (run_queueFaithful ran (by omega)).split
  refine ⟨sent, waiting, created, ?_, ?_⟩
  · rintro idle ⟨start, segment⟩ outstanding
    have behind : extent sequenceLength session.firstsSent ≤ start := idleUnsent idle _ outstanding
    have inside := Account.mem_placed accounted outstanding
    rw [← created, placed_append, Nat.zero_add] at inside
    rcases List.mem_append.mp inside with before | waits
    · have ends := end_le_of_mem_placed before
      have positive := (Account.tiled accounted).positive segment
        (mem_of_mem_placed (Account.mem_placed accounted outstanding))
      omega
    · exact waits
  · rintro ⟨start, segment⟩ outstanding left
    rw [← Bool.not_eq_false]
    intro idle
    have behind : extent sequenceLength session.firstsSent ≤ start := idleUnsent idle _ outstanding
    have ends := end_le_of_mem_placed left
    have positive := (Account.tiled accounted).positive segment
      (mem_of_mem_placed (Account.mem_placed accounted outstanding))
    omega

/-- The SYN is acknowledged together with a byte that was never sent, and another byte waits. -/
def acknowledgedUnsent : List Op :=
  [.push, .maybeSend, .receive { ackno := some ⟨1⟩, windowSize := 9 }, .write [97], .push,
    .receive { ackno := some ⟨2⟩, windowSize := 9 }, .write [98], .push]

theorem timer_covers_acknowledgedUnsent :
    ∃ session, run 8 1000 ⟨0⟩ acknowledgedUnsent = .ok session ∧ session.TimerCovers :=
  ⟨_, rfl, timer_covers 8 1000 ⟨0⟩ acknowledgedUnsent _ rfl (by decide)⟩

end Session

end Minnow.Transport
