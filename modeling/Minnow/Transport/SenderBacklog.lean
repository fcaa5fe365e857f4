import Minnow.Transport.SenderAccount

/-!
# What is not acknowledged

The first outstanding segment always ends past the left edge: a segment leaves as soon as it
is acknowledged whole.  So nothing is in flight just if nothing is outstanding.
-/

namespace Minnow.Transport

open Foundation Foundation.Words Foundation.Runs Foundation.Tiling Minnow.Stream

open TCPSenderMessage (sequenceLength)

namespace TCPSender

/-- The first outstanding segment is not acknowledged whole. -/
def Waiting (sender : TCPSender) : Prop :=
  ∀ entry, sender.outstandingMessages.entries.head? = some entry →
    sender.windowLeft < entry.1 + entry.2.sequenceLength

/-- The loop stops before a segment that the ackno does not cover, or is too late for. -/
theorem receiveLoop_stops (absoluteAckno : Nat) {entries : List (Nat × TCPSenderMessage)}
    (sender : TCPSender) (successful : Bool)
    (same : sender.outstandingMessages.entries = entries) {entry : Nat × TCPSenderMessage}
    (first : (receiveLoop absoluteAckno entries sender successful).1.outstandingMessages.entries.head? =
      some entry) :
    absoluteAckno < add64 entry.1 entry.2.sequenceLength ∨
      (receiveLoop absoluteAckno entries sender successful).1.getAbsoluteSeqno < absoluteAckno := by
  induction entries generalizing sender successful with
  | nil =>
      rw [receiveLoop, same] at first
      cases first
  | cons head rest ih =>
      obtain ⟨start, message⟩ := head
      rw [receiveLoop] at first ⊢
      split at first
      case isTrue stops =>
          rw [if_pos stops]
          rw [same] at first
          cases first
          exact stops
      case isFalse goes =>
          rw [if_neg goes]
          refine ih _ true ?_ first
          rw [OrderedMap.eraseFirst_entries, same, List.tail_cons]

/-- The ackno that moved the left edge does not cover what is left. -/
theorem receive_stops {sender : TCPSender} {message : TCPReceiverMessage} {ackno : Wrap32}
    (carries : message.ackno = some ackno) {entry : Nat × TCPSenderMessage}
    (first : (sender.receive message).outstandingMessages.entries.head? = some entry) :
    ackno.unwrap sender.isn sender.windowLeft < add64 entry.1 entry.2.sequenceLength ∨
      (sender.receive message).getAbsoluteSeqno < ackno.unwrap sender.isn sender.windowLeft := by
  have stops := @receiveLoop_stops (ackno.unwrap sender.isn sender.windowLeft) _ sender false rfl
    entry
  unfold receive at first ⊢
  rw [carries] at first ⊢
  dsimp only at first ⊢
  generalize receiveLoop (ackno.unwrap sender.isn sender.windowLeft)
    sender.outstandingMessages.entries sender false = loop at first stops ⊢
  have outstanding : (if loop.2 then loop.1.acknowledged (ackno.unwrap sender.isn sender.windowLeft)
      else loop.1).outstandingMessages = loop.1.outstandingMessages := by
    split
    · rw [acknowledged]
      split
      · rfl
      · rfl
    · rfl
  rw [outstanding] at first
  refine (stops first).imp_right fun before => ?_
  rw [getAbsoluteSeqno] at before ⊢
  obtain ⟨last, lastIs⟩ : ∃ last, loop.1.outstandingMessages.entries.getLast? = some last := by
    cases entries : loop.1.outstandingMessages.entries with
    | nil =>
        rw [entries] at first
        cases first
    | cons head rest => exact ⟨_, List.getLast?_cons⟩
  rw [lastIs] at before
  rw [outstanding, lastIs]
  exact before

theorem receive_finPushed (sender : TCPSender) (message : TCPReceiverMessage) :
    (sender.receive message).finPushed = sender.finPushed := by
  cases carries : message.ackno with
  | none => rw [receive_of_none _ carries]
  | some ackno =>
      obtain ⟨acked, received⟩ := sender.receive_spec carries
      exact received.finPushed

end TCPSender

namespace Account

variable {isn : Wrap32} {written : List UInt8} {created : List TCPSenderMessage}
  {sender : TCPSender} {outbound : ByteStream}

/-- What is outstanding ends where the segments created end. -/
theorem ends_le (account : Account isn written created sender outbound)
    {entry : Nat × TCPSenderMessage} (inside : entry ∈ sender.outstandingMessages.entries) :
    entry.1 + entry.2.sequenceLength ≤ extent sequenceLength created := by
  have last := end_le_of_mem_placed (account.mem_placed inside)
  rw [Nat.zero_add] at last
  exact last

/-- The entry is the first that was outstanding, or it is new and begins at the left edge. -/
def KeepsFirst (sender : TCPSender) (entry : Nat × TCPSenderMessage) : Prop :=
  sender.outstandingMessages.entries.head? = some entry ∨
    entry.1 = sender.windowLeft ∧ 0 < entry.2.sequenceLength

theorem first_insert (account : Account isn written created sender outbound)
    (small : written.length + 2 < 2 ^ 64) {segment : TCPSenderMessage}
    (positive : 0 < segment.sequenceLength) {after : TCPSender}
    (map : after.outstandingMessages =
      sender.outstandingMessages.insert sender.getAbsoluteSeqno segment)
    {entry : Nat × TCPSenderMessage}
    (first : after.outstandingMessages.entries.head? = some entry) : KeepsFirst sender entry := by
  rw [map, account.insert_eq small] at first
  cases entries : sender.outstandingMessages.entries with
  | nil =>
      rw [entries] at first
      cases first
      refine Or.inr ⟨?_, positive⟩
      rw [← account.next small]
      exact TCPSender.getAbsoluteSeqno_of_nil entries
  | cons head rest =>
      rw [entries] at first
      cases first
      exact Or.inl (by rw [entries]; rfl)

theorem first_emits {right : Nat} {segments : List TCPSenderMessage} {last : TCPSender}
    {rest : ByteStream} (emits : TCPSender.Emits right sender outbound segments last rest)
    (account : Account isn written created sender outbound)
    (small : written.length + 2 < 2 ^ 64) (opened : sender.sycPushed = true)
    {entry : Nat × TCPSenderMessage}
    (first : last.outstandingMessages.entries.head? = some entry) : KeepsFirst sender entry := by
  induction emits generalizing created with
  | nil => exact Or.inl first
  | cons len unfinished room something _ ih =>
      have after := account.emit small opened unfinished room something
      have positive := after.tiled.positive _ (List.mem_append_right _ List.mem_cons_self)
      rcases ih after opened first with here | fresh
      · exact account.first_insert small positive rfl here
      · exact Or.inr fresh

theorem first_pushSyn (account : Account isn written created sender outbound)
    (small : written.length + 2 < 2 ^ 64) {entry : Nat × TCPSenderMessage}
    (first : (sender.pushSyn outbound).outstandingMessages.entries.head? = some entry) :
    KeepsFirst sender entry := by
  have opened := account.pushSyn small
  rw [TCPSender.opening] at opened
  rw [TCPSender.pushSyn] at opened first
  split_ifs at opened first
  · have positive := opened.tiled.positive _ (List.mem_append_right _ List.mem_cons_self)
    exact account.first_insert small positive rfl first
  · exact Or.inl first

/-- A push leaves the first outstanding segment as it is, or begins at the left edge. -/
theorem first_push {right : Nat} {segments : List TCPSenderMessage} {last : TCPSender}
    {rest : ByteStream}
    (emits : TCPSender.Emits right (sender.pushSyn outbound) outbound segments last rest)
    (account : Account isn written created sender outbound)
    (small : written.length + 2 < 2 ^ 64) {entry : Nat × TCPSenderMessage}
    (first : last.outstandingMessages.entries.head? = some entry) : KeepsFirst sender entry := by
  have syn := account.pushSyn small
  rcases first_emits emits syn small (sender.pushSyn_sycPushed outbound) first with here | fresh
  · exact account.first_pushSyn small here
  · rw [TCPSender.pushSyn_windowLeft] at fresh
    exact Or.inr fresh

theorem waiting_receive (account : Account isn written created sender outbound)
    (small : written.length + 2 < 2 ^ 64) (waiting : sender.Waiting)
    {message : TCPReceiverMessage} {ackno : Wrap32} (carries : message.ackno = some ackno)
    {acked : List (Nat × TCPSenderMessage)}
    (received : TCPSender.Received sender message (ackno.unwrap sender.isn sender.windowLeft) acked
      (sender.receive message)) : (sender.receive message).Waiting := by
  have after := account.receive small received
  have bound := account.extent_le
  intro entry first
  cases acked with
  | nil =>
      rw [(received.stayed rfl).1]
      refine waiting entry ?_
      rw [received.split, List.nil_append]
      exact first
  | cons head others =>
      have inside := received.inside (List.cons_ne_nil _ _)
      have last := after.ends_le (List.mem_of_head? first)
      rw [(received.moved (List.cons_ne_nil _ _)).1]
      rcases TCPSender.receive_stops carries first with covered | late
      · rw [add64_of_lt (by omega)] at covered
        exact covered
      · rw [after.next small, ← account.next small] at late
        omega

/-- Nothing is in flight just if nothing is outstanding, and then everything is acknowledged. -/
theorem inFlight_eq_zero_iff (account : Account isn written created sender outbound)
    (small : written.length + 2 < 2 ^ 64) (waiting : sender.Waiting) :
    sender.sequenceNumbersInFlight = 0 ↔ sender.outstandingMessages.entries = [] := by
  have bound := account.extent_le
  have left := account.left
  have next := account.next small
  rw [TCPSender.sequenceNumbersInFlight, next, sub64_of_le left (by omega)]
  constructor
  · intro none
    cases entries : sender.outstandingMessages.entries with
    | nil => rfl
    | cons head rest =>
        have past := waiting head (by rw [entries]; rfl)
        have last := account.ends_le (entries ▸ List.mem_cons_self)
        omega
  · intro empty
    rw [← next, TCPSender.getAbsoluteSeqno_of_nil empty, Nat.sub_self]

/-- An ackno acknowledges everything just if nothing was in flight, or it is the next number. -/
theorem receive_inFlight_iff (account : Account isn written created sender outbound)
    (small : written.length + 2 < 2 ^ 64) (waiting : sender.Waiting)
    (message : TCPReceiverMessage) :
    (sender.receive message).sequenceNumbersInFlight = 0 ↔
      sender.sequenceNumbersInFlight = 0 ∨
        ∃ ackno, message.ackno = some ackno ∧
          ackno.unwrap sender.isn sender.windowLeft = sender.getAbsoluteSeqno := by
  cases carries : message.ackno with
  | none =>
      rw [TCPSender.receive_of_none _ carries]
      refine (or_iff_left ?_).symm
      rintro ⟨ackno, known, -⟩
      cases known
  | some ackno =>
      obtain ⟨acked, received⟩ := sender.receive_spec carries
      have after := account.receive small received
      have still := account.waiting_receive small waiting carries received
      rw [after.inFlight_eq_zero_iff small still, account.inFlight_eq_zero_iff small waiting]
      constructor
      · intro left
        cases acked with
        | nil => exact Or.inl (received.split.trans left)
        | cons head others =>
            refine Or.inr ⟨ackno, rfl, ?_⟩
            have atEnd := after.next small
            rw [TCPSender.getAbsoluteSeqno_of_nil left,
              (received.moved (List.cons_ne_nil _ _)).1] at atEnd
            rw [atEnd, account.next small]
      · rintro (none | ⟨other, same, reached⟩)
        · exact (List.append_eq_nil_iff.mp (received.split.symm.trans none)).2
        · cases same
          cases entries : (sender.receive message).outstandingMessages.entries with
          | nil => rfl
          | cons head rest =>
              have first : (sender.receive message).outstandingMessages.entries.head? =
                  some head := by
                rw [entries]
                rfl
              have bound := account.extent_le
              have last := after.ends_le (List.mem_of_head? first)
              have nextIs := account.next small
              rcases TCPSender.receive_stops carries first with covered | late
              · rw [add64_of_lt (by omega), reached] at covered
                omega
              · rw [after.next small, reached] at late
                omega

end Account

namespace Session

theorem start_waiting (capacity initialRTO : UInt64) (isn : Wrap32) :
    (start capacity initialRTO isn).sender.Waiting :=
  fun _ first => nomatch first

/-- A call other than receiving leaves the left edge as it is, and the first outstanding segment,
if there is one. -/
theorem Accounted.first_step {isn : Wrap32} {session next : Session} {op : Op}
    (accounted : session.Accounted isn) (small : session.written.length + 2 < 2 ^ 64)
    (stepped : session.Stepped op next) (other : ∀ message, op ≠ .receive message)
    {entry : Nat × TCPSenderMessage}
    (first : next.sender.outstandingMessages.entries.head? = some entry) :
    next.sender.windowLeft = session.sender.windowLeft ∧
      Account.KeepsFirst session.sender entry := by
  refine ⟨stepped.windowLeft other, ?_⟩
  cases stepped with
  | push emits => exact Account.first_push emits accounted small first
  | tick ticked =>
      change _ = some entry at first
      rw [ticked.outstandingMessages] at first
      exact Or.inl first
  | receive carries received => exact absurd rfl (other _)
  | _ => exact Or.inl first

theorem Accounted.waiting_step {isn : Wrap32} {session next : Session} {op : Op}
    (accounted : session.Accounted isn) (small : session.written.length + 2 < 2 ^ 64)
    (waiting : session.sender.Waiting) (ran : session.step op = .ok next) :
    next.sender.Waiting := by
  have stepped := stepped_of_step ran
  cases op with
  | receive message =>
      cases stepped with
      | bare bare => exact waiting
      | receive carries received =>
          cases ran
          exact Account.waiting_receive accounted small waiting carries received
  | _ =>
      intro entry first
      obtain ⟨same, old | ⟨begins, positive⟩⟩ :=
        accounted.first_step small stepped (by rintro message ⟨⟩) first
      · exact same ▸ waiting entry old
      · omega

/-- The left edge moves only to an ackno past the end of the first outstanding segment. -/
theorem Accounted.windowLeft_le {isn : Wrap32} {session next : Session} {op : Op}
    (accounted : session.Accounted isn) (small : session.written.length + 2 < 2 ^ 64)
    (waiting : session.sender.Waiting) (stepped : session.Stepped op next) :
    session.sender.windowLeft ≤ next.sender.windowLeft := by
  cases stepped with
  | @receive message ackno acked after carries received =>
      change _ ≤ after.windowLeft
      cases acked with
      | nil => rw [(received.stayed rfl).1]
      | cons head rest =>
          have first : session.sender.outstandingMessages.entries.head? = some head := by
            rw [received.split]
            rfl
          have past := waiting head first
          have bound := Account.extent_le accounted
          have ends := Account.ends_le accounted (List.mem_of_head? first)
          have covered := received.ends head List.mem_cons_self
          rw [add64_of_lt (by omega)] at covered
          rw [(received.moved (List.cons_ne_nil _ _)).1]
          omega
  | push emits => rw [(Stepped.push emits).windowLeft (by rintro message ⟨⟩)]
  | tick ticked => rw [ticked.windowLeft]
  | _ => exact Nat.le_refl _

/-- The bytes that a call offers to the stream. -/
def Op.offered : Op → Nat
  | .write data => data.length
  | _ => 0

theorem written_le_step {session next : Session} {op : Op} (ran : session.step op = .ok next) :
    next.written.length ≤ session.written.length + op.offered := by
  cases stepped_of_step ran with
  | write data =>
      have most := session.outbound.accepted_length data
      change (session.written ++ session.outbound.accepted data).length ≤ _ + data.length
      rw [List.length_append]
      omega
  | _ => exact Nat.le_add_right _ _

theorem written_le_attempt {session final : Session} {ops : List Op}
    (ran : attempt step session ops = .ok final) :
    final.written.length ≤ session.written.length + (ops.map Op.offered).sum := by
  induction ops using List.reverseRecOn generalizing final with
  | nil =>
      cases ran
      exact Nat.le_refl _
  | append_singleton ops op ih =>
      obtain ⟨middle, before, last⟩ := attempt_snoc_ok ran
      have earlier := ih before
      have here := written_le_step last
      rw [List.map_append, List.sum_append, List.map_singleton, List.sum_singleton]
      omega

/-- The account and the backlog are kept in every run. -/
theorem Accounted.waiting_attempt {isn : Wrap32} {session final : Session} {ops : List Op}
    (accounted : session.Accounted isn) (waiting : session.sender.Waiting)
    (ran : attempt Session.step session ops = .ok final) (small : final.written.length + 2 < 2 ^ 64) :
    final.Accounted isn ∧ final.sender.Waiting := by
  refine attempt_invariant (fun state : Session => state.written.length + 2 < 2 ^ 64 →
    state.Accounted isn ∧ state.sender.Waiting) ?_ (fun _ => ⟨accounted, waiting⟩) ran small
  intro state op next inner ran nextSmall
  have smaller := (stepped_of_step ran).written.length_le
  obtain ⟨here, backlog⟩ := inner (by omega)
  exact ⟨here.step (stepped_of_step ran) nextSmall, here.waiting_step (by omega) backlog ran⟩

/-! ## A FIN that is missing -/

/-- The stream has ended and nothing is in flight, but the FIN was not pushed. -/
structure Stuck (session : Session) : Prop where
  drained : session.outbound.isFinished = true
  idle : session.sender.sequenceNumbersInFlight = 0
  unsent : session.sender.finPushed = false

/-- Neither the stream is closed nor something acknowledged. -/
def Op.Calm : Op → Prop
  | .close => False
  | .receive _ => False
  | _ => True

/-- A push that leaves nothing in flight did nothing. -/
theorem stuck_of_push {isn : Wrap32} {session : Session} {segments : List TCPSenderMessage}
    {last : TCPSender} {rest : ByteStream}
    (emits : TCPSender.Emits (session.sender.pushSyn session.outbound).windowRight
      (session.sender.pushSyn session.outbound) session.outbound segments last rest)
    (accounted : (session.pushed segments last rest).Accounted isn)
    (small : session.written.length + 2 < 2 ^ 64) (waiting : last.Waiting)
    (stuck : (session.pushed segments last rest).Stuck) : session.Stuck := by
  have empty : last.outstandingMessages.entries = [] :=
    (Account.inFlight_eq_zero_iff accounted small waiting).mp stuck.idle
  cases emits with
  | nil =>
      obtain ⟨drained, idle, unsent⟩ := stuck
      change (session.sender.pushSyn session.outbound).sequenceNumbersInFlight = 0 at idle
      change (session.sender.pushSyn session.outbound).finPushed = false at unsent
      rw [TCPSender.pushSyn] at idle unsent empty
      split at empty
      case isTrue unopened => exact absurd empty (OrderedMap.insert_entries_ne_nil _ _ _)
      case isFalse opened =>
          rw [if_neg opened] at idle unsent
          exact ⟨drained, idle, unsent⟩
  | cons len unfinished room something more =>
      exact absurd empty (more.outstanding_ne_nil (OrderedMap.insert_entries_ne_nil _ _ _))

theorem Accounted.stuck_step {isn : Wrap32} {session next : Session} {op : Op}
    (accounted : session.Accounted isn) (waiting : session.sender.Waiting) (calm : op.Calm)
    (ran : session.step op = .ok next) (small : next.written.length + 2 < 2 ^ 64)
    (stuck : next.Stuck) : session.Stuck := by
  have stepped := stepped_of_step ran
  have after := accounted.step stepped small
  have smaller := stepped.written.length_le
  have still := accounted.waiting_step (by omega) waiting ran
  cases stepped with
  | write data =>
      obtain ⟨closed, empty⟩ := Bool.and_eq_true_iff.mp stuck.drained
      have nothing := (List.append_eq_nil_iff.mp (List.isEmpty_iff.mp empty)).1
      exact ⟨Bool.and_eq_true_iff.mpr ⟨closed, List.isEmpty_iff.mpr nothing⟩, stuck.idle,
        stuck.unsent⟩
  | close => exact calm.elim
  | push emits => exact stuck_of_push emits after small still stuck
  | idle empty => exact stuck
  | send queued running => exact ⟨stuck.drained, stuck.idle, stuck.unsent⟩
  | bare bare => exact calm.elim
  | receive carries received => exact calm.elim
  | @tick _ copies sender ticked =>
      have same : sender.sequenceNumbersInFlight = session.sender.sequenceNumbersInFlight := by
        rw [TCPSender.sequenceNumbersInFlight, TCPSender.getAbsoluteSeqno,
          ticked.outstandingMessages, ticked.windowLeft]
        rfl
      exact ⟨stuck.drained, same ▸ stuck.idle, ticked.finPushed ▸ stuck.unsent⟩

/-- Calm operations do not make the FIN go missing. -/
theorem Accounted.stuck_attempt {isn : Wrap32} {session final : Session} {ops : List Op}
    (accounted : session.Accounted isn) (waiting : session.sender.Waiting)
    (calm : ∀ op ∈ ops, op.Calm) (ran : attempt Session.step session ops = .ok final)
    (small : final.written.length + 2 < 2 ^ 64) (stuck : final.Stuck) : session.Stuck := by
  induction ops using List.reverseRecOn generalizing final with
  | nil =>
      cases ran
      exact stuck
  | append_singleton ops op ih =>
      obtain ⟨middle, before, last⟩ := attempt_snoc_ok ran
      have smaller := (stepped_of_step last).written.length_le
      obtain ⟨here, backlog⟩ := accounted.waiting_attempt waiting before (by omega)
      refine ih (fun other inside => calm other (List.mem_append_left _ inside)) before (by omega) ?_
      exact here.stuck_step backlog (calm op (by simp)) last small stuck

end Session

end Minnow.Transport
