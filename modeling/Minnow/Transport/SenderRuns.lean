import Minnow.Foundation.Runs
import Minnow.Transport.SenderSteps

/-!
# Runs of the sender

The writer writes and closes, and the calls of the sender come in any order with any
receiver messages.  A session remembers what was written, which segments were created,
queued and sent, and the right edge that the receiver has advertised.
-/

namespace Minnow.Transport

open Foundation Foundation.Words Foundation.Runs Minnow.Stream

/-- An entry of the send queue: the first transmission of a segment, or a copy. -/
inductive Queued where
  | first (message : TCPSenderMessage)
  | again (message : TCPSenderMessage)
  deriving DecidableEq

def Queued.message : Queued → TCPSenderMessage
  | .first message => message
  | .again message => message

structure Session where
  sender : TCPSender
  outbound : ByteStream
  written : List UInt8
  created : List TCPSenderMessage
  queued : List Queued
  sent : List TCPSenderMessage
  edge : Nat
  deriving DecidableEq

namespace Session

inductive Op where
  | write (data : List UInt8)
  | close
  | push
  | maybeSend
  | receive (message : TCPReceiverMessage)
  | tick (msSinceLastTick : Nat)
  deriving DecidableEq

def start (capacity initialRTO : UInt64) (isn : Wrap32) : Session where
  sender := TCPSender.new initialRTO isn
  outbound := ByteStream.new capacity
  written := []
  created := []
  queued := []
  sent := []
  edge := 1

/-- The edge after a message: one whose ackno is not past everything sent counts. -/
def edgeAfter (session : Session) (message : TCPReceiverMessage) : Nat :=
  match message.ackno with
  | none => session.edge
  | some ackno =>
      let absoluteAckno := ackno.unwrap session.sender.isn session.sender.windowLeft
      if absoluteAckno ≤ session.sender.getAbsoluteSeqno then
        max session.edge (absoluteAckno + max message.windowSize.toNat 1)
      else session.edge

def step (session : Session) : Op → Except Fault Session
  | .write data =>
      .ok { session with
        outbound := session.outbound.push data
        written := session.written ++ session.outbound.accepted data }
  | .close => .ok { session with outbound := session.outbound.close }
  | .push => do
      let (sender, outbound) ← session.sender.push session.outbound
      let fresh := sender.sendQueue.drop session.sender.sendQueue.length
      return { session with
        sender := sender
        outbound := outbound
        created := session.created ++ fresh
        queued := session.queued ++ fresh.map .first }
  | .maybeSend =>
      let done := session.sender.maybeSend
      .ok { session with sender := done.1, sent := session.sent ++ done.2.toList }
  | .receive message =>
      .ok { session with
        sender := session.sender.receive message
        edge := session.edgeAfter message }
  | .tick msSinceLastTick => do
      let sender ← session.sender.tick msSinceLastTick
      let copies := sender.sendQueue.drop session.sender.sendQueue.length
      return { session with sender := sender, queued := session.queued ++ copies.map .again }

def run (capacity initialRTO : UInt64) (isn : Wrap32) (ops : List Op) : Except Fault Session :=
  attempt step (start capacity initialRTO isn) ops

/-! ## One step -/

/-- The session after a push that created these segments. -/
def pushed (session : Session) (segments : List TCPSenderMessage) (last : TCPSender)
    (rest : ByteStream) : Session :=
  { session with
    sender := last
    outbound := rest
    created := session.created ++ (session.sender.opening session.outbound ++ segments)
    queued := session.queued ++
      (session.sender.opening session.outbound ++ segments).map .first }

/-- A push always succeeds, with the opening segment first and then data segments. -/
theorem step_push (session : Session) :
    ∃ segments last rest,
      TCPSender.Emits (session.sender.pushSyn session.outbound).windowRight
        (session.sender.pushSyn session.outbound) session.outbound segments last rest ∧
      session.step .push = .ok (session.pushed segments last rest) := by
  obtain ⟨segments, last, rest, ran, emits⟩ :=
    TCPSender.push_spec session.sender session.outbound
  refine ⟨segments, last, rest, emits, ?_⟩
  have fresh : last.sendQueue.drop session.sender.sendQueue.length =
      session.sender.opening session.outbound ++ segments := by
    rw [emits.frame.1, TCPSender.pushSyn_sendQueue, List.append_assoc, List.drop_left]
  change (session.sender.push session.outbound).bind _ = _
  rw [ran]
  change Except.ok { session with
    sender := last
    outbound := rest
    created := session.created ++ last.sendQueue.drop session.sender.sendQueue.length
    queued := session.queued ++
      (last.sendQueue.drop session.sender.sendQueue.length).map Queued.first } = _
  rw [fresh]
  rfl

/-- A tick fails, or queues copies of outstanding segments. -/
theorem step_tick (session : Session) (msSinceLastTick : Nat) :
    (∃ copies after, TCPSender.Ticked session.sender after copies ∧
      session.step (.tick msSinceLastTick) =
        .ok { session with sender := after, queued := session.queued ++ copies.map .again }) ∨
      (session.step (.tick msSinceLastTick) = .error .endDereferenced ∧
        session.sender.retransmissionTimer.running = true ∧
        session.sender.outstandingMessages.entries = []) := by
  rcases session.sender.tick_spec msSinceLastTick with ⟨copies, after, ran, ticked⟩ | ⟨failed, state⟩
  · refine Or.inl ⟨copies, after, ticked, ?_⟩
    have fresh : after.sendQueue.drop session.sender.sendQueue.length = copies := by
      rw [ticked.sendQueue, List.drop_left]
    change (session.sender.tick msSinceLastTick).bind _ = _
    rw [ran]
    change Except.ok { session with
      sender := after
      queued := session.queued ++
        (after.sendQueue.drop session.sender.sendQueue.length).map Queued.again } = _
    rw [fresh]
  · refine Or.inr ⟨?_, state⟩
    change (session.sender.tick msSinceLastTick).bind _ = _
    rw [failed]
    rfl

/-- Everything a step can do, one case for each way a call goes. -/
inductive Stepped (session : Session) : Op → Session → Prop
  | write (data : List UInt8) : Stepped session (.write data)
      { session with
        outbound := session.outbound.push data
        written := session.written ++ session.outbound.accepted data }
  | close : Stepped session .close { session with outbound := session.outbound.close }
  | push {segments : List TCPSenderMessage} {last : TCPSender} {rest : ByteStream}
      (emits : TCPSender.Emits (session.sender.pushSyn session.outbound).windowRight
        (session.sender.pushSyn session.outbound) session.outbound segments last rest) :
      Stepped session .push (session.pushed segments last rest)
  | idle (empty : session.sender.sendQueue = []) : Stepped session .maybeSend session
  | send {message : TCPSenderMessage} {rest : List TCPSenderMessage} {timer : RetransmissionTimer}
      (queued : session.sender.sendQueue = message :: rest) (running : timer.running = true) :
      Stepped session .maybeSend
        { session with
          sender := { session.sender with sendQueue := rest, retransmissionTimer := timer }
          sent := session.sent ++ [message] }
  | bare {message : TCPReceiverMessage} (bare : message.ackno = none) :
      Stepped session (.receive message) session
  | receive {message : TCPReceiverMessage} {ackno : Wrap32}
      {acked : List (Nat × TCPSenderMessage)} {after : TCPSender}
      (carries : message.ackno = some ackno)
      (received : TCPSender.Received session.sender message
        (ackno.unwrap session.sender.isn session.sender.windowLeft) acked after) :
      Stepped session (.receive message)
        { session with sender := after, edge := session.edgeAfter message }
  | tick {msSinceLastTick : Nat} {copies : List TCPSenderMessage} {after : TCPSender}
      (ticked : TCPSender.Ticked session.sender after copies) :
      Stepped session (.tick msSinceLastTick)
        { session with sender := after, queued := session.queued ++ copies.map .again }

theorem stepped_of_step {session next : Session} {op : Op} (ran : session.step op = .ok next) :
    session.Stepped op next := by
  cases op with
  | write data =>
      cases ran
      exact .write data
  | close =>
      cases ran
      exact .close
  | push =>
      obtain ⟨segments, last, rest, emits, alsoRan⟩ := session.step_push
      cases alsoRan.symm.trans ran
      exact .push emits
  | maybeSend =>
      cases ran
      cases queued : session.sender.sendQueue with
      | nil =>
          rw [TCPSender.maybeSend_of_nil queued]
          dsimp only [Option.toList_none]
          rw [List.append_nil]
          exact .idle queued
      | cons message rest =>
          obtain ⟨timer, running, sends⟩ := TCPSender.maybeSend_of_cons queued
          rw [sends]
          exact .send queued running
  | receive message =>
      cases ran
      cases carries : message.ackno with
      | none =>
          have sameEdge : session.edgeAfter message = session.edge := by
            unfold edgeAfter
            rw [carries]
          rw [sameEdge, TCPSender.receive_of_none _ carries]
          exact .bare carries
      | some ackno =>
          obtain ⟨acked, received⟩ := session.sender.receive_spec carries
          exact .receive carries received
  | tick msSinceLastTick =>
      rcases session.step_tick msSinceLastTick with ⟨copies, after, ticked, alsoRan⟩ | ⟨failed, _⟩
      · cases alsoRan.symm.trans ran
        exact .tick ticked
      · exact nomatch failed.symm.trans ran

/-- Only a tick can fail, and only where nothing is outstanding. -/
theorem step_ok_or_missing (session : Session) (op : Op) :
    (∃ next, session.step op = .ok next) ∨
      (session.sender.retransmissionTimer.running = true ∧
        session.sender.outstandingMessages.entries = []) := by
  cases op with
  | write data => exact Or.inl ⟨_, rfl⟩
  | close => exact Or.inl ⟨_, rfl⟩
  | push =>
      obtain ⟨segments, last, rest, _, ran⟩ := session.step_push
      exact Or.inl ⟨_, ran⟩
  | maybeSend => exact Or.inl ⟨_, rfl⟩
  | receive message => exact Or.inl ⟨_, rfl⟩
  | tick msSinceLastTick =>
      rcases session.step_tick msSinceLastTick with ⟨copies, after, _, ran⟩ | ⟨_, missing⟩
      · exact Or.inl ⟨_, ran⟩
      · exact Or.inr missing

/-! ## What no step takes back -/

/-- What was written stays written. -/
theorem Stepped.written {session next : Session} {op : Op} (stepped : session.Stepped op next) :
    session.written <+: next.written := by
  cases stepped with
  | write data => exact List.prefix_append _ _
  | _ => exact List.prefix_refl _

/-- What was sent stays sent. -/
theorem Stepped.sent {session next : Session} {op : Op} (stepped : session.Stepped op next) :
    session.sent <+: next.sent := by
  cases stepped with
  | send queued running => exact List.prefix_append _ _
  | _ => exact List.prefix_refl _

/-- A closed stream stays closed. -/
theorem Stepped.isClosed {session next : Session} {op : Op} (stepped : session.Stepped op next)
    (closed : session.outbound.isClosed = true) : next.outbound.isClosed = true := by
  cases stepped with
  | close => rfl
  | push emits => exact emits.isClosed.trans closed
  | _ => exact closed

/-- The outbound stream is only read further. -/
theorem Stepped.popped {session next : Session} {op : Op} (stepped : session.Stepped op next)
    (counted : session.outbound.Counted) :
    session.outbound.bytesPopped ≤ next.outbound.bytesPopped := by
  cases stepped with
  | push emits => exact emits.popped counted
  | _ => exact Nat.le_refl _

/-- Where nothing is written to a closed stream, what was written stays as it is. -/
theorem Stepped.written_of_closed {session next : Session} {op : Op}
    (stepped : session.Stepped op next)
    (writes : ∀ data, op = .write data → session.outbound.isClosed = false)
    (closed : session.outbound.isClosed = true) : next.written = session.written := by
  cases stepped with
  | write data => exact nomatch (writes data rfl).symm.trans closed
  | _ => rfl

/-- Only a message moves the left edge. -/
theorem Stepped.windowLeft {session next : Session} {op : Op} (stepped : session.Stepped op next)
    (other : ∀ message, op ≠ .receive message) :
    next.sender.windowLeft = session.sender.windowLeft := by
  cases stepped with
  | push emits =>
      obtain ⟨_, _, _, _, leftSame, _⟩ := emits.frame
      exact leftSame.trans (TCPSender.pushSyn_windowLeft _ _)
  | tick ticked => exact ticked.windowLeft
  | receive carries received => exact absurd rfl (other _)
  | _ => rfl

/-- The flag for the end is set only when the stream is closed and drained. -/
theorem Stepped.finished {session next : Session} {op : Op} (stepped : session.Stepped op next)
    (finished : next.sender.finPushed = true) :
    session.sender.finPushed = true ∨ next.outbound.isFinished = true := by
  cases stepped with
  | @push segments last rest emits =>
      rcases emits.finished finished with opened | drained
      · rcases TCPSender.pushSyn_finished opened with old | drained
        · exact Or.inl old
        · obtain ⟨_, _, same⟩ := emits.of_finished opened
          apply Or.inr
          change rest.isFinished = true
          rw [same]
          exact drained
      · exact Or.inr drained
  | receive carries received => exact Or.inl (received.finPushed.symm.trans finished)
  | tick ticked => exact Or.inl (ticked.finPushed.symm.trans finished)
  | _ => exact Or.inl finished

theorem written_attempt {session final : Session} {ops : List Op}
    (ran : attempt step session ops = .ok final) : session.written <+: final.written :=
  attempt_invariant (fun state : Session => session.written <+: state.written)
    (fun _ _ _ grown last => grown.trans (stepped_of_step last).written) (List.prefix_refl _) ran

end Session

end Minnow.Transport
