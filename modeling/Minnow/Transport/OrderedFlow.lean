import Minnow.Foundation.Channel
import Minnow.Transport.Network
import Minnow.Transport.SenderReach

/-!
# A flow over an ordered link

One direction of a connection: segments go to the receiver over a link that loses but does
not reorder, and the receiver messages come back over another one.  A segment is stamped
with the segments created when it was queued, a receiver message with its absolute ackno.
-/

namespace Minnow.Transport

open Foundation Foundation.Words Foundation.Runs Foundation.Tiling Foundation.Channel
open Minnow.Stream

open TCPSenderMessage (sequenceLength)

/-! ## The two ends -/

/-- A message that was queued when these segments had been created: one of them that ends near
their end, or an empty message that carries the next number. -/
inductive Arrives (isn : Wrap32) (born : List TCPSenderMessage) (message : TCPSenderMessage) : Prop
  | segment (start : Nat) (inside : (start, message) ∈ placed sequenceLength 0 born)
      (near : extent sequenceLength born ≤ start + message.sequenceLength + 0xFFFF)
  | empty (length : message.sequenceLength = 0)
      (seqno : message.seqno = Wrap32.wrap (extent sequenceLength born) isn)

/-- A receiver message that was sent at this absolute ackno. -/
def Replied (isn : Wrap32) (number : Nat) (reply : TCPReceiverMessage) : Prop :=
  ∀ ackno ∈ reply.ackno, ackno = Wrap32.wrap number isn

/-- The receiver has heard of these segments at most: it works from the right zero point, has
a part of their bytes, and knows an end only from a FIN among them. -/
structure Hears (isn : Wrap32) (known : List TCPSenderMessage) (receiving : Receiving) : Prop where
  zeroPoint : receiving.receiver.synRcvd = true → receiving.receiver.recvZeroPoint = isn
  opened : receiving.receiver.synRcvd = true → known ≠ []
  ending :
    Assembly.Ending (carriedBytes known) (receiving.receiver.finRcvd = true) receiving.assembly
  finished : receiving.receiver.finRcvd = true → ∃ segment ∈ known, segment.FIN = true

theorem start_hears (isn : Wrap32) (capacity : UInt64) : Hears isn [] (Receiving.start capacity) where
  zeroPoint := fun seen => absurd seen Bool.false_ne_true
  opened := fun seen => absurd seen Bool.false_ne_true
  ending := Assembly.start_ending [] capacity Bool.false_ne_true
  finished := fun announced => absurd announced Bool.false_ne_true

theorem carriedBytes_of_begins {known born : List TCPSenderMessage} (begins : known <+: born) :
    carriedBytes known <+: carriedBytes born := by
  obtain ⟨more, rfl⟩ := begins
  rw [carriedBytes, carriedBytes, List.flatMap_append]
  exact List.prefix_append _ _

theorem extent_le_of_begins {known born : List TCPSenderMessage} (begins : known <+: born) :
    extent sequenceLength known ≤ extent sequenceLength born := by
  obtain ⟨more, rfl⟩ := begins
  rw [extent_append]
  exact Nat.le_add_right _ _

namespace Hears

variable {isn : Wrap32} {known born : List TCPSenderMessage} {receiving : Receiving}

/-- What the receiver acknowledges was created. -/
theorem absoluteAckno_le (hears : Hears isn known receiving) (tiled : Tiled isn known) :
    receiving.absoluteAckno ≤ max 1 (extent sequenceLength known) := by
  have short := hears.ending.faithful.short
  rw [Assembly.position] at short
  rw [Receiving.absoluteAckno]
  cases closed : receiving.assembly.output.isClosed with
  | true =>
      obtain ⟨announced, -⟩ := hears.ending.closed.mp closed
      obtain ⟨segment, inside, flag⟩ := hears.finished announced
      have counted := tiled.carried_lt_extent_of_fin inside flag
      rw [Bool.toNat_true]
      omega
  | false =>
      rw [Bool.toNat_false]
      cases known with
      | nil => exact Nat.le_trans (Nat.add_le_add_left short 1) (Nat.le_max_left _ _)
      | cons syn rest =>
          have counted := tiled.carried_lt_extent (List.cons_ne_nil _ _)
          omega

/-- After a SYN the acknowledged numbers are among those of the segments. -/
theorem absoluteAckno_le_extent (hears : Hears isn known receiving) (tiled : Tiled isn known)
    (seen : receiving.receiver.synRcvd = true) :
    receiving.absoluteAckno ≤ extent sequenceLength known := by
  have bound := hears.absoluteAckno_le tiled
  have counted := tiled.carried_lt_extent (hears.opened seen)
  omega

/-- More segments may be created, but none after a FIN that was heard. -/
theorem extend (hears : Hears isn known receiving) (tiled : Tiled isn born)
    (begins : known <+: born) : Hears isn born receiving := by
  have ending : Assembly.Ending (carriedBytes born) (receiving.receiver.finRcvd = true)
      receiving.assembly := by
    by_cases announced : receiving.receiver.finRcvd = true
    · obtain ⟨segment, inside, flag⟩ := hears.finished announced
      obtain ⟨more, rfl⟩ := begins
      have nothing : more = [] := by
        by_contra nonempty
        have notLast := tiled.finLast segment (by
          rw [List.dropLast_append_of_ne_nil nonempty]
          exact List.mem_append_left _ inside)
        exact absurd (notLast.symm.trans flag) Bool.false_ne_true
      rw [nothing, List.append_nil]
      exact hears.ending
    · exact hears.ending.extend announced (carriedBytes_of_begins begins)
  refine ⟨hears.zeroPoint, ?_, ending, ?_⟩
  · intro seen
    obtain ⟨more, rfl⟩ := begins
    exact List.append_ne_nil_of_left_ne_nil (hears.opened seen) more
  · intro announced
    obtain ⟨segment, inside, flag⟩ := hears.finished announced
    exact ⟨segment, begins.subset inside, flag⟩

theorem pop (hears : Hears isn known receiving) (len : Nat) : Hears isn known (receiving.pop len) :=
  ⟨hears.zeroPoint, hears.opened, hears.ending.pop len, hears.finished⟩

theorem replied (hears : Hears isn known receiving) :
    Replied isn receiving.absoluteAckno receiving.send := by
  intro ackno carries
  cases seen : receiving.receiver.synRcvd with
  | true =>
      rw [Receiving.send_ackno_of_seen seen, hears.zeroPoint seen] at carries
      exact (Option.some.inj carries).symm
  | false =>
      rw [Receiving.send_ackno_of_unseen seen] at carries
      cases carries

/-- An empty message leaves the bytes as they are. -/
theorem receive_empty (hears : Hears isn known receiving)
    (small : (carriedBytes known).length < 2 ^ 64 - 1) {message : TCPSenderMessage}
    (length : message.sequenceLength = 0) : Hears isn known (receiving.receive message) := by
  obtain ⟨seqno, syn, payload, fin⟩ := message
  obtain ⟨⟨plain, nothing⟩, unfinished⟩ : (syn.toNat = 0 ∧ payload.length = 0) ∧ fin.toNat = 0 := by
    rw [sequenceLength] at length
    dsimp only at length
    omega
  rw [Bool.toNat_eq_zero] at plain unfinished
  rw [List.length_eq_zero_iff] at nothing
  subst plain unfinished nothing
  cases seen : receiving.receiver.synRcvd with
  | false =>
      rw [Receiving.receive_of_unseen seen rfl]
      exact hears
  | true =>
      rw [Receiving.receive_of_seen (by rw [seen]; rfl)]
      refine ⟨fun _ => hears.zeroPoint seen, fun _ => hears.opened seen, ?_, ?_⟩
      · exact (hears.ending.insert_nil small _).congr (by rw [Bool.or_false])
      · intro announced
        rw [Bool.or_false] at announced
        exact hears.finished announced

/-- A segment created gives the receiver a part of the bytes, and their end with the FIN. -/
theorem receive_segment (hears : Hears isn known receiving) (tiled : Tiled isn known)
    (small : extent sequenceLength known < 2 ^ 64) {start : Nat} {message : TCPSenderMessage}
    (inside : (start, message) ∈ placed sequenceLength 0 known)
    (near : Near start receiving.assembly.output.bytesPushed) :
    Hears isn known (receiving.receive message) := by
  obtain ⟨front, carried, bound, atEnd⟩ := tiled.located inside
  have seqno := tiled.numbered start message inside
  have last := end_le_of_mem_placed inside
  have created := mem_of_mem_placed inside
  have counted := tiled.carried_lt_extent (List.ne_nil_of_mem created)
  cases seen : (receiving.receiver.synRcvd || message.SYN) with
  | false =>
      obtain ⟨unseen, plain⟩ := Bool.or_eq_false_iff.mp seen
      rw [Receiving.receive_of_unseen unseen plain]
      exact hears
  | true =>
      rw [Net.receive_numbered seen hears.zeroPoint seqno (by omega) near front]
      refine ⟨fun _ => rfl, fun _ => List.ne_nil_of_mem created, ?_, ?_⟩
      · exact (hears.ending.insert (by omega) ⟨carried, bound, atEnd⟩).congr Bool.or_eq_true_iff
      · intro announced
        rcases Bool.or_eq_true_iff.mp announced with old | flag
        · exact hears.finished old
        · exact ⟨message, created, flag⟩

/-- What arrives over the link is heard. -/
theorem receive (hears : Hears isn born receiving) (tiled : Tiled isn born)
    (small : extent sequenceLength born + TCPConfig.maxPayloadSize < 2 ^ 64)
    {message : TCPSenderMessage}
    (arrives : Arrives isn born message)
    (close : extent sequenceLength born ≤ receiving.absoluteAckno + 0xFFFF) :
    Hears isn born (receiving.receive message) := by
  have payload : TCPConfig.maxPayloadSize = 1000 := rfl
  cases arrives with
  | empty length seqno =>
      have counted := Tiled.carried_le_extent born
      exact hears.receive_empty (by omega) length
  | segment start inside near =>
      have bound := hears.absoluteAckno_le tiled
      have last := end_le_of_mem_placed inside
      have flag := Bool.toNat_le receiving.assembly.output.isClosed
      have length := tiled.sequenceLength_le (by omega) (mem_of_mem_placed inside)
      rw [Receiving.absoluteAckno] at bound close
      exact hears.receive_segment tiled (by omega) inside ⟨by omega, by omega⟩

end Hears

/-! ## The flow -/

/-- The segments on the link and in the queue, the receiver messages on the way back, and what
both ends know of each other. -/
structure Flow (isn : Wrap32) (known : List TCPSenderMessage) (session : Session)
    (segments : List TCPSenderMessage) (receiving : Receiving) (replies : List TCPReceiverMessage) :
    Prop where
  accounted : session.Accounted isn
  waiting : session.sender.Waiting
  reach : session.Reach
  pipeline : Stamped (· <+: ·) (Arrives isn) known (segments ++ session.sender.sendQueue)
    session.created
  hears : Hears isn known receiving
  replies : Stamped (· ≤ ·) (Replied isn) session.sender.windowLeft replies receiving.absoluteAckno

/-- Numbers stay far from the end of the 64-bit words. -/
def Session.Small (session : Session) : Prop := session.written.length + 2 ^ 17 < 2 ^ 64

theorem start_flow (isn : Wrap32) (sendCapacity initialRTO recvCapacity : UInt64) :
    Flow isn [] (Session.start sendCapacity initialRTO isn) [] (Receiving.start recvCapacity) [] where
  accounted := Session.start_accounted _ _ _
  waiting := Session.start_waiting _ _ _
  reach := Session.start_reach _ _ _
  pipeline := .nil (List.prefix_refl _)
  hears := start_hears isn recvCapacity
  replies := .nil (Nat.zero_le _)

namespace Flow

variable {isn : Wrap32} {known : List TCPSenderMessage} {session next : Session}
  {segments : List TCPSenderMessage} {receiving : Receiving} {replies : List TCPReceiverMessage}

/-! ### Losing, reading and replying -/

theorem lose (flow : Flow isn known session segments receiving replies)
    {fewer : List TCPSenderMessage} {less : List TCPReceiverMessage}
    (segmentsKept : fewer.Sublist segments) (repliesKept : less.Sublist replies) :
    Flow isn known session fewer receiving less where
  accounted := flow.accounted
  waiting := flow.waiting
  reach := flow.reach
  pipeline := flow.pipeline.lose (segmentsKept.append_right _)
  hears := flow.hears
  replies := flow.replies.lose repliesKept

theorem pop (flow : Flow isn known session segments receiving replies) (len : Nat) :
    Flow isn known session segments (receiving.pop len) replies :=
  { flow with hears := flow.hears.pop len }

/-- The receiver message of now goes on its way. -/
theorem reply (flow : Flow isn known session segments receiving replies) :
    Flow isn known session segments receiving (replies ++ [receiving.send]) := by
  refine { flow with replies := flow.replies.put ?_ }
  intro other inside
  rw [List.mem_singleton.mp inside]
  exact flow.hears.replied

/-! ### Sending -/

/-- The first message of the queue goes onto the link. -/
theorem send (flow : Flow isn known session segments receiving replies)
    (ran : session.step .maybeSend = .ok next) :
    Flow isn known next (segments ++ session.sender.maybeSend.2.toList) receiving replies := by
  have pipeline := flow.pipeline
  cases Session.stepped_of_step ran with
  | idle empty =>
      rw [TCPSender.maybeSend_of_nil empty]
      exact { flow with pipeline := (List.append_nil segments).symm ▸ pipeline }
  | @send message rest timer queued running =>
      obtain ⟨_, _, sends⟩ := TCPSender.maybeSend_of_cons queued
      rw [sends]
      refine ⟨Account.congr flow.accounted rfl rfl rfl rfl rfl, flow.waiting,
        ⟨flow.reach.window, flow.reach.ahead⟩, ?_, flow.hears, flow.replies⟩
      rw [queued, List.append_cons] at pipeline
      exact pipeline

/-- An empty message goes onto the link when nothing is queued. -/
theorem probe (flow : Flow isn known session segments receiving replies)
    (small : session.Small) (idle : session.sender.sendQueue = []) :
    Flow isn known session (segments ++ [session.sender.sendEmptyMessage]) receiving replies := by
  have size := small
  rw [Session.Small] at size
  have pipeline := flow.pipeline
  rw [idle, List.append_nil] at pipeline
  refine { flow with pipeline := ?_ }
  rw [idle, List.append_nil]
  refine pipeline.put ?_
  intro message inside
  rw [List.mem_singleton.mp inside]
  refine .empty rfl ?_
  rw [← Account.next flow.accounted (by omega), ← Account.sameIsn flow.accounted]
  rfl

/-! ### The sender's other calls -/

theorem extent_lt (flow : Flow isn known session segments receiving replies)
    (small : session.Small) : extent sequenceLength session.created + 2 ^ 16 < 2 ^ 64 := by
  have bound := Account.extent_le flow.accounted
  rw [Session.Small] at small
  omega

/-- A call that does not send. -/
theorem advance (flow : Flow isn known session segments receiving replies) {op : Session.Op}
    (small : next.Small) (stepped : session.Stepped op next) (other : op ≠ .maybeSend)
    {rest : List TCPReceiverMessage}
    (left : Stamped (· ≤ ·) (Replied isn) next.sender.windowLeft rest receiving.absoluteAckno)
    (ran : session.step op = .ok next) : Flow isn known next segments receiving rest := by
  rw [Session.Small] at small
  have smaller := stepped.written.length_le
  have payload : TCPConfig.maxPayloadSize = 1000 := rfl
  have after := flow.accounted.step stepped (by omega)
  have reach := flow.reach.step flow.accounted (by omega) flow.waiting stepped
  refine ⟨after, flow.accounted.waiting_step (by omega) flow.waiting ran, reach, ?_, flow.hears,
    left⟩
  obtain ⟨more, queue, fresh⟩ := Session.queued_step flow.accounted flow.waiting after stepped other
  rw [queue, ← List.append_assoc]
  refine (flow.pipeline.raise stepped.created).put ?_
  intro message inside
  obtain ⟨start, created, past⟩ := fresh message inside
  have ahead := reach.ahead
  exact .segment start created (by omega)

/-- Writing, closing, pushing and waiting. -/
theorem call (flow : Flow isn known session segments receiving replies) {op : Session.Op}
    (small : next.Small) (ran : session.step op = .ok next) (notSend : op ≠ .maybeSend)
    (notReceive : ∀ message, op ≠ .receive message) :
    Flow isn known next segments receiving replies := by
  have stepped := Session.stepped_of_step ran
  have leftSame := stepped.windowLeft notReceive
  refine flow.advance small stepped notSend ?_ ran
  rw [leftSame]
  exact flow.replies

theorem calls (flow : Flow isn known session segments receiving replies) {ops : List Session.Op}
    (plain : ∀ op ∈ ops, op ≠ .maybeSend ∧ ∀ message, op ≠ .receive message) (small : next.Small)
    (ran : attempt Session.step session ops = .ok next) :
    Flow isn known next segments receiving replies := by
  induction ops using List.reverseRecOn generalizing next with
  | nil =>
      cases ran
      exact flow
  | append_singleton ops op ih =>
      obtain ⟨middle, before, last⟩ := attempt_snoc_ok ran
      obtain ⟨notSend, notReceive⟩ := plain op (by simp)
      have smaller := (Session.stepped_of_step last).written.length_le
      have here := ih (fun other inside => plain other (List.mem_append_left _ inside))
        (Nat.lt_of_le_of_lt (Nat.add_le_add_right smaller _) small) before
      exact here.call small last notSend notReceive

/-- What the receiver acknowledges is close to the left edge of the sender. -/
theorem absoluteAckno_le (flow : Flow isn known session segments receiving replies)
    (small : session.Small) :
    receiving.absoluteAckno ≤ session.sender.windowLeft + 0xFFFF := by
  have bound := flow.extent_lt small
  have payload : TCPConfig.maxPayloadSize = 1000 := rfl
  have begins := flow.pipeline.ends
  have tiled := (Account.tiled flow.accounted).of_begins begins (by omega)
  have heard := flow.hears.absoluteAckno_le tiled
  have created := extent_le_of_begins begins
  have ahead := flow.reach.ahead
  omega

/-- A receiver message comes back: the left edge moves to its number, or stays. -/
theorem ackno {reply : TCPReceiverMessage}
    (flow : Flow isn known session segments receiving (reply :: replies)) (small : next.Small)
    (ran : session.step (.receive reply) = .ok next) :
    Flow isn known next segments receiving replies := by
  have stepped := Session.stepped_of_step ran
  have smaller := stepped.written.length_le
  have before : session.Small := Nat.lt_of_le_of_lt (Nat.add_le_add_right smaller _) small
  obtain ⟨number, above, replied, behind⟩ := flow.replies.take
  have moved : next.sender.windowLeft ≤ number := by
    cases stepped with
    | bare bare => exact above
    | @receive _ ackno acked after carries received =>
        have heard := flow.absoluteAckno_le before
        have reached := behind.ends
        have bound := flow.extent_lt before
        have left := Account.left flow.accounted
        rw [replied ackno carries, Account.sameIsn flow.accounted,
          Wrap32.unwrap_wrap isn (by omega) (by omega) (by omega) (by omega)] at received
        cases acked with
        | nil => exact Nat.le_trans (Nat.le_of_eq (received.stayed rfl).1) above
        | cons entry acked => exact Nat.le_of_eq (received.moved (List.cons_ne_nil _ _)).1
  exact flow.advance small stepped (fun same => nomatch same) (behind.lower moved) ran

/-! ### Delivering -/

/-- The next message on the link was sent when the segments in `born` had been created, which the
receiver is not far behind. -/
theorem front {message : TCPSenderMessage}
    (flow : Flow isn known session (message :: segments) receiving replies)
    (small : session.Small) :
    ∃ born, Arrives isn born message ∧
      Stamped (· <+: ·) (Arrives isn) born (segments ++ session.sender.sendQueue) session.created ∧
      Tiled isn born ∧ Hears isn born receiving ∧
      extent sequenceLength born + TCPConfig.maxPayloadSize < 2 ^ 64 ∧
      extent sequenceLength born ≤ receiving.absoluteAckno + 0xFFFF := by
  obtain ⟨born, begins, arrives, behind⟩ := flow.pipeline.take
  have bound := flow.extent_lt small
  have payload : TCPConfig.maxPayloadSize = 1000 := rfl
  have created := extent_le_of_begins behind.ends
  have ahead := flow.reach.ahead
  have acknowledged := flow.replies.ends
  have tiled := (Account.tiled flow.accounted).of_begins behind.ends (by omega)
  exact ⟨born, arrives, behind, tiled, flow.hears.extend tiled begins, by omega, by omega⟩

/-- The next message on the link reaches the receiver. -/
theorem deliver {message : TCPSenderMessage}
    (flow : Flow isn known session (message :: segments) receiving replies)
    (small : session.Small) :
    ∃ heard, Flow isn heard session segments (receiving.receive message) replies := by
  obtain ⟨born, arrives, behind, tiled, hears, fits, close⟩ := flow.front small
  have grows := Receiving.absoluteAckno_le_step flow.hears.ending.faithful.sound (.receive message)
  exact ⟨born, flow.accounted, flow.waiting, flow.reach, behind,
    hears.receive tiled fits arrives close, flow.replies.raise grows⟩

/-- An empty message from an ordered link never carries the number right before the ackno. -/
theorem not_keepAlive {message : TCPSenderMessage}
    (flow : Flow isn known session (message :: segments) receiving replies)
    (small : session.Small) (empty : message.sequenceLength = 0) {ackno : Wrap32}
    (carries : receiving.send.ackno = some ackno) : message.seqno + (1 : UInt32) ≠ ackno := by
  obtain ⟨born, arrives, -, tiled, hears, fits, close⟩ := flow.front small
  cases arrives with
  | segment start inside near =>
      have positive := tiled.positive message (mem_of_mem_placed inside)
      omega
  | empty length seqno =>
      have seen : receiving.receiver.synRcvd = true := by
        by_contra unseen
        rw [Receiving.send_ackno_of_unseen (Bool.eq_false_of_not_eq_true unseen)] at carries
        cases carries
      have heard := hears.absoluteAckno_le_extent tiled seen
      rw [flow.hears.replied ackno carries, seqno]
      exact Wrap32.wrap_plus_one_ne isn (by omega) (by omega)

end Flow

end Minnow.Transport
