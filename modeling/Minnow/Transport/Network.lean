import Mathlib.Logic.Relation
import Minnow.Stream.ReassemblerDelivery
import Minnow.Transport.ReceiverRuns
import Minnow.Transport.SenderAccount

/-!
# Sender and receiver over a network

The network keeps every message ever sent and delivers any of them at any time: what is
never delivered is lost, what is delivered twice is duplicated, and the order is free.
-/

namespace Minnow.Transport

open Foundation Foundation.Words Foundation.Runs Foundation.Tiling Minnow.Stream

open TCPSenderMessage (sequenceLength)

/-- Two numbers are less than half of the 32-bit numbers apart. -/
def Near (first second : Nat) : Prop := first < second + 2 ^ 31 ∧ second < first + 2 ^ 31

instance (first second : Nat) : Decidable (Near first second) := inferInstanceAs (Decidable (_ ∧ _))

/-- A sender, a receiver, and every receiver message sent, with its absolute ackno. -/
structure Net where
  session : Session
  receiving : Receiving
  replies : List (Nat × TCPReceiverMessage)

namespace Net

def start (sendCapacity recvCapacity initialRTO : UInt64) (isn : Wrap32) : Net where
  session := Session.start sendCapacity initialRTO isn
  receiving := Receiving.start recvCapacity
  replies := []

/-- The calls on the sender's side that need no message; the writer never pushes after
the close. -/
def Local (session : Session) : Session.Op → Prop
  | .write _ => session.outbound.isClosed = false
  | .receive _ => False
  | _ => True

/-- One call at either side.  A segment is delivered as one of the segments created that
it is a transmission of, and a reply with the ackno it was sent for. -/
inductive Step : Net → Net → Prop
  | sender {net : Net} {next : Session} (op : Session.Op) (allowed : Local net.session op)
      (ran : net.session.step op = .ok next) : Step net { net with session := next }
  | segment {net : Net} (number : Nat) (message : TCPSenderMessage)
      (sent : message ∈ net.session.sent)
      (created : (number, message) ∈ placed sequenceLength 0 net.session.created)
      (near : Near number net.receiving.assembly.output.bytesPushed) :
      Step net { net with receiving := net.receiving.receive message }
  | pop {net : Net} (len : Nat) : Step net { net with receiving := net.receiving.pop len }
  | reply {net : Net} :
      Step net
        { net with replies := net.replies ++ [(net.receiving.absoluteAckno, net.receiving.send)] }
  | ackno {net : Net} {next : Session} (number : Nat) (message : TCPReceiverMessage)
      (sent : (number, message) ∈ net.replies)
      (near : message.ackno ≠ none → Near number net.session.sender.windowLeft)
      (ran : net.session.step (.receive message) = .ok next) : Step net { net with session := next }

/-- Any number of calls. -/
def Steps : Net → Net → Prop := Relation.ReflTransGen Step

/-! ## The joint invariant -/

/-- The sender's side: its account, and a stream that is closed and drained once the FIN
is created. -/
structure SenderSide (isn : Wrap32) (session : Session) : Prop where
  accounted : session.Accounted isn
  drained : session.sender.finPushed = true →
    session.outbound.isClosed = true ∧ session.outbound.bytesPopped = session.written.length

/-- The receiver's side, against what was written: it works from the right zero point,
has a part of the string, and knows an end only from a FIN that was sent. -/
structure ReceiverSide (isn : Wrap32) (session : Session) (receiving : Receiving) : Prop where
  zeroPoint : receiving.receiver.synRcvd = true → receiving.receiver.recvZeroPoint = isn
  ending : Assembly.Ending session.written (receiving.receiver.finRcvd = true) receiving.assembly
  finSent : receiving.receiver.finRcvd = true → session.outbound.isClosed = true ∧
    ∃ message ∈ session.sent, message.FIN = true

/-- Every reply in flight carries the ackno of its number, which the receiver has since
reached; and the sender's left edge is such a number. -/
structure Joint (isn : Wrap32) (net : Net) : Prop where
  senderSide : SenderSide isn net.session
  receiverSide : ReceiverSide isn net.session net.receiving
  replies : ∀ number message, (number, message) ∈ net.replies →
    number ≤ net.receiving.absoluteAckno ∧
      ∀ ackno ∈ message.ackno, ackno = Wrap32.wrap number isn
  left : net.session.sender.windowLeft ≤ net.receiving.absoluteAckno

theorem start_joint (sendCapacity recvCapacity initialRTO : UInt64) (isn : Wrap32) :
    (start sendCapacity recvCapacity initialRTO isn).Joint isn where
  senderSide := ⟨Session.start_accounted sendCapacity initialRTO isn, (fun finished => nomatch finished)⟩
  receiverSide := ⟨(fun seen => nomatch seen),
    Assembly.start_ending [] recvCapacity Bool.false_ne_true, (fun finished => nomatch finished)⟩
  replies := fun _ _ inside => nomatch inside
  left := Nat.zero_le _

/-! ## Steps of the sender's side -/

theorem SenderSide.step {isn : Wrap32} {session next : Session} {op : Session.Op}
    (side : SenderSide isn session) (stepped : session.Stepped op next)
    (writes : ∀ data, op = .write data → session.outbound.isClosed = false)
    (small : next.written.length + 2 < 2 ^ 64) : SenderSide isn next := by
  have accounted := side.accounted.step stepped small
  refine ⟨accounted, ?_⟩
  intro finished
  rcases stepped.finished finished with old | drained
  · obtain ⟨closed, all⟩ := side.drained old
    have same := stepped.written_of_closed writes closed
    have further := stepped.popped (Account.counted side.accounted)
    have bound := Account.popped_le accounted
    rw [same] at bound ⊢
    exact ⟨stepped.isClosed closed, by omega⟩
  · exact ⟨(Bool.and_eq_true_iff.mp drained).1, Account.popped_eq accounted drained⟩

/-- What the receiver knows stays right when more is written. -/
theorem ReceiverSide.sender {isn : Wrap32} {session next : Session} {op : Session.Op}
    {receiving : Receiving} (side : ReceiverSide isn session receiving)
    (stepped : session.Stepped op next)
    (writes : ∀ data, op = .write data → session.outbound.isClosed = false) :
    ReceiverSide isn next receiving := by
  refine ⟨side.zeroPoint, ?_, ?_⟩
  · by_cases announced : receiving.receiver.finRcvd = true
    · rw [stepped.written_of_closed writes (side.finSent announced).1]
      exact side.ending
    · exact side.ending.extend announced stepped.written
  · intro announced
    obtain ⟨closed, message, sent, flag⟩ := side.finSent announced
    exact ⟨stepped.isClosed closed, message, stepped.sent.subset sent, flag⟩

/-! ## Steps of the receiver's side -/

/-- Near the write position the receiver recovers the index of the payload. -/
theorem firstIndex_eq {isn : Wrap32} {number position : Nat} {message : TCPSenderMessage}
    (seqno : message.seqno = Wrap32.wrap number isn) (fits : number < 2 ^ 64)
    (positionFits : position < 2 ^ 64) (near : Near number position)
    (front : if message.SYN then number = 0 else 0 < number) :
    TCPReceiver.firstIndex isn position message = number - 1 := by
  unfold TCPReceiver.firstIndex
  rw [seqno, Wrap32.unwrap_wrap isn fits positionFits near.1 near.2]
  cases syn : message.SYN with
  | true =>
      rw [syn, if_pos rfl] at front
      rw [front]
      rfl
  | false =>
      rw [syn, if_neg Bool.false_ne_true] at front
      rw [sub64_of_le front fits]
      exact add64_of_lt (by rw [Bool.toNat_false]; omega)

/-- After a SYN a numbered segment near the write position goes to its place in the stream. -/
theorem receive_numbered {isn : Wrap32} {receiving : Receiving} {number : Nat}
    {message : TCPSenderMessage} (seen : (receiving.receiver.synRcvd || message.SYN) = true)
    (zeroPoint : receiving.receiver.synRcvd = true → receiving.receiver.recvZeroPoint = isn)
    (seqno : message.seqno = Wrap32.wrap number isn) (fits : number < 2 ^ 64)
    (near : Near number receiving.assembly.output.bytesPushed)
    (front : if message.SYN then number = 0 else 0 < number) :
    receiving.receive message =
      { receiver := ⟨isn, true, receiving.receiver.finRcvd || message.FIN⟩
        assembly := receiving.assembly.insert (number - 1) message.payload message.FIN } := by
  have zero : (if message.SYN then message.seqno else receiving.receiver.recvZeroPoint) = isn := by
    cases syn : message.SYN with
    | true =>
        rw [syn, if_pos rfl] at front
        rw [if_pos rfl, seqno, front, Wrap32.wrap_zero]
    | false =>
        rw [if_neg Bool.false_ne_true]
        rw [syn, Bool.or_false] at seen
        exact zeroPoint seen
  rw [Receiving.receive_of_seen seen, zero,
    firstIndex_eq seqno fits receiving.assembly.output.bytesPushed_lt near front]

/-- A segment delivered near the write position hands the receiver a part of the string,
and the end only where the string ends. -/
theorem ReceiverSide.segment {isn : Wrap32} {session : Session} {receiving : Receiving}
    (side : ReceiverSide isn session receiving) (senderSide : SenderSide isn session)
    (small : session.written.length + 2 < 2 ^ 64) {number : Nat} {message : TCPSenderMessage}
    (sent : message ∈ session.sent)
    (created : (number, message) ∈ placed sequenceLength 0 session.created)
    (near : Near number receiving.assembly.output.bytesPushed) :
    ReceiverSide isn session (receiving.receive message) := by
  have accounted := senderSide.accounted
  have bound := Account.extent_le accounted
  have last := end_le_of_mem_placed created
  have seqno := (Account.tiled accounted).numbered number message created
  obtain ⟨front, carried, inside, atEnd⟩ := Account.located accounted created
  cases seen : (receiving.receiver.synRcvd || message.SYN) with
  | false =>
      obtain ⟨unseen, plain⟩ := Bool.or_eq_false_iff.mp seen
      rw [Receiving.receive_of_unseen unseen plain]
      exact side
  | true =>
      have finished : message.FIN = true → session.outbound.isClosed = true ∧
          session.outbound.bytesPopped = session.written.length := by
        intro flag
        apply senderSide.drained
        exact (Account.finPushed accounted).mpr ⟨message, mem_of_mem_placed created, flag⟩
      have agrees : Assembly.Agrees session.written
          (.insert (number - 1) message.payload message.FIN) :=
        ⟨carried, Nat.le_trans inside (Account.popped_le accounted),
          fun flag => (atEnd flag).trans (finished flag).2⟩
      rw [receive_numbered seen side.zeroPoint seqno (by omega) near front]
      refine ⟨fun _ => rfl, ?_, ?_⟩
      · exact (side.ending.insert (by omega) agrees).congr Bool.or_eq_true_iff
      · intro announced
        rcases Bool.or_eq_true_iff.mp announced with old | flag
        · exact side.finSent old
        · exact ⟨(finished flag).1, message, sent, flag⟩

/-! ## Every step -/

theorem writes_of_local {session : Session} {op : Session.Op} (allowed : Local session op) :
    ∀ data, op = .write data → session.outbound.isClosed = false := by
  rintro data rfl
  exact allowed

theorem absoluteAckno_le {isn : Wrap32} {net : Net} (joint : net.Joint isn) :
    net.receiving.absoluteAckno ≤ net.session.written.length + 2 := by
  have short := joint.receiverSide.ending.faithful.short
  have flag := Bool.toNat_le net.receiving.assembly.output.isClosed
  unfold Assembly.position at short
  unfold Receiving.absoluteAckno
  omega

/-- The ackno of a reply is that of its number. -/
theorem ReceiverSide.send_ackno {isn : Wrap32} {session : Session} {receiving : Receiving}
    (side : ReceiverSide isn session receiving) :
    ∀ ackno ∈ receiving.send.ackno, ackno = Wrap32.wrap receiving.absoluteAckno isn := by
  intro ackno carries
  cases seen : receiving.receiver.synRcvd with
  | true =>
      rw [Receiving.send_ackno_of_seen seen, side.zeroPoint seen] at carries
      exact (Option.some.inj carries).symm
  | false =>
      rw [Receiving.send_ackno_of_unseen seen] at carries
      exact nomatch carries

/-- What the receiver does takes back no ackno. -/
theorem Joint.receiving {isn : Wrap32} {net : Net} (joint : net.Joint isn) {next : Receiving}
    (side : ReceiverSide isn net.session next)
    (grows : net.receiving.absoluteAckno ≤ next.absoluteAckno) :
    Joint isn { net with receiving := next } where
  senderSide := joint.senderSide
  receiverSide := side
  replies := by
    intro number reply inside
    obtain ⟨reached, carried⟩ := joint.replies number reply inside
    exact ⟨Nat.le_trans reached grows, carried⟩
  left := Nat.le_trans joint.left grows

/-- The left edge moves to the number of the reply, or stays. -/
theorem windowLeft_le_of_ackno {isn : Wrap32} {net : Net} (joint : net.Joint isn)
    {session : Session} {number : Nat} {message : TCPReceiverMessage}
    (sent : (number, message) ∈ net.replies)
    (near : message.ackno ≠ none → Near number net.session.sender.windowLeft)
    (stepped : net.session.Stepped (.receive message) session)
    (small : net.session.written.length + 2 < 2 ^ 64) :
    session.sender.windowLeft ≤ net.receiving.absoluteAckno := by
  cases stepped with
  | bare bare => exact joint.left
  | @receive _ ackno acked after carries received =>
      obtain ⟨reached, carried⟩ := joint.replies number message sent
      have closeBy := near (by rw [carries]; exact Option.some_ne_none _)
      have bound := absoluteAckno_le joint
      have leftBound := joint.left
      change after.windowLeft ≤ _
      cases acked with
      | nil =>
          rw [(received.stayed rfl).1]
          exact joint.left
      | cons entry acked =>
          rw [(received.moved (List.cons_ne_nil _ _)).1, carried ackno carries,
            Account.sameIsn joint.senderSide.accounted,
            Wrap32.unwrap_wrap isn (by omega) (by omega) closeBy.1 closeBy.2]
          exact reached

theorem Joint.step {isn : Wrap32} {net next : Net} (joint : net.Joint isn) (step : Step net next)
    (small : next.session.written.length + 2 < 2 ^ 64) : next.Joint isn := by
  have sound := joint.receiverSide.ending.faithful.sound
  cases step with
  | @sender session op allowed ran =>
      have stepped := Session.stepped_of_step ran
      have writes := writes_of_local allowed
      refine ⟨joint.senderSide.step stepped writes small, joint.receiverSide.sender stepped writes,
        joint.replies, ?_⟩
      have other : ∀ message, op ≠ .receive message := by
        rintro message rfl
        exact allowed
      change session.sender.windowLeft ≤ _
      rw [stepped.windowLeft other]
      exact joint.left
  | segment number message sent created near =>
      exact joint.receiving
        (joint.receiverSide.segment joint.senderSide small sent created near)
        (Receiving.absoluteAckno_le_step sound (.receive message))
  | pop len =>
      exact joint.receiving
        ⟨joint.receiverSide.zeroPoint, joint.receiverSide.ending.pop len, joint.receiverSide.finSent⟩
        (Receiving.absoluteAckno_le_step sound (.pop len))
  | reply =>
      refine ⟨joint.senderSide, joint.receiverSide, ?_, joint.left⟩
      intro other reply inside
      rcases List.mem_append.mp inside with old | new
      · exact joint.replies other reply old
      · cases List.mem_singleton.mp new
        exact ⟨Nat.le_refl _, joint.receiverSide.send_ackno⟩
  | @ackno session number message sent near ran =>
      have stepped := Session.stepped_of_step ran
      have writes : ∀ data, Session.Op.receive message = .write data →
          net.session.outbound.isClosed = false := fun _ same => nomatch same
      have smaller := stepped.written.length_le
      change session.written.length + 2 < 2 ^ 64 at small
      exact ⟨joint.senderSide.step stepped writes small, joint.receiverSide.sender stepped writes,
        joint.replies, windowLeft_le_of_ackno joint sent near stepped (by omega)⟩

theorem written_step {net next : Net} (step : Step net next) :
    net.session.written <+: next.session.written := by
  cases step with
  | sender op allowed ran => exact (Session.stepped_of_step ran).written
  | ackno number message sent near ran => exact (Session.stepped_of_step ran).written
  | _ => exact List.prefix_refl _

theorem written_steps {net next : Net} (steps : Steps net next) :
    net.session.written <+: next.session.written := by
  induction steps with
  | refl => exact List.prefix_refl _
  | tail _ step ih => exact ih.trans (written_step step)

/-- Once the writer has closed, what was written is the whole string. -/
theorem written_steps_of_closed {net next : Net} (steps : Steps net next)
    (closed : net.session.outbound.isClosed = true) :
    next.session.written = net.session.written ∧ next.session.outbound.isClosed = true := by
  induction steps with
  | refl => exact ⟨rfl, closed⟩
  | tail _ step ih =>
      obtain ⟨same, still⟩ := ih
      cases step with
      | sender op allowed ran =>
          have stepped := Session.stepped_of_step ran
          exact ⟨(stepped.written_of_closed (writes_of_local allowed) still).trans same,
            stepped.isClosed still⟩
      | ackno number message sent near ran =>
          have stepped := Session.stepped_of_step ran
          exact ⟨(stepped.written_of_closed (fun _ same => nomatch same) still).trans same,
            stepped.isClosed still⟩
      | _ => exact ⟨same, still⟩

theorem steps_joint {sendCapacity recvCapacity initialRTO : UInt64} {isn : Wrap32} {net : Net}
    (steps : Steps (start sendCapacity recvCapacity initialRTO isn) net)
    (small : net.session.written.length + 2 < 2 ^ 64) : net.Joint isn := by
  induction steps with
  | refl => exact start_joint sendCapacity recvCapacity initialRTO isn
  | tail _ step ih =>
      have smaller := (written_step step).length_le
      exact (ih (by omega)).step step small

/-- End-to-end delivery, where `final` is any later state and so what is written there
is any later part of the string: the bytes pushed at the receiver are a prefix of the
string, its stream is closed only when it has the whole string and a FIN was sent, and
the sender never believes more acknowledged than the receiver has. -/
theorem delivers_reliably (sendCapacity recvCapacity initialRTO : UInt64) (isn : Wrap32)
    (net final : Net) (reached : Steps (start sendCapacity recvCapacity initialRTO isn) net)
    (continued : Steps net final) (small : final.session.written.length + 2 < 2 ^ 64) :
    net.receiving.assembly.pushedBytes <+: final.session.written ∧
      (net.receiving.assembly.output.isClosed = true →
        net.receiving.assembly.pushedBytes = final.session.written ∧
          net.session.outbound.isClosed = true ∧
          ∃ message ∈ net.session.sent, message.FIN = true) ∧
      net.session.sender.windowLeft ≤ 1 + net.receiving.assembly.output.bytesPushed +
        net.receiving.assembly.output.isClosed.toNat := by
  have grown := written_steps continued
  have smaller := grown.length_le
  have joint := steps_joint reached (by omega)
  have ending := joint.receiverSide.ending
  refine ⟨?_, ?_, joint.left⟩
  · rw [ending.faithful.pushed]
    exact (List.take_prefix _ _).trans grown
  · intro closed
    obtain ⟨announced, whole⟩ := ending.closed.mp closed
    obtain ⟨outboundClosed, finSent⟩ := joint.receiverSide.finSent announced
    refine ⟨?_, outboundClosed, finSent⟩
    rw [ending.faithful.pushed, whole, List.take_length,
      (written_steps_of_closed continued outboundClosed).1]

/-- One byte and the end are sent, and the segment that carries them comes twice. -/
theorem exchange_reached :
    ∃ net, Steps (start 4 4 1000 ⟨7⟩) net ∧ net.receiving.assembly.output.isClosed = true ∧
      net.receiving.assembly.output.bytesPushed = 1 ∧ net.session.written = [97] :=
  ⟨_, Relation.ReflTransGen.refl
    |>.tail (.sender (.write [97]) rfl rfl)
    |>.tail (.sender .close True.intro rfl)
    |>.tail (.sender .push True.intro rfl)
    |>.tail (.sender .maybeSend True.intro rfl)
    |>.tail (.segment 0 { seqno := ⟨7⟩, SYN := true } (by decide) (by decide) (by decide))
    |>.tail .reply
    |>.tail (.ackno 1 { ackno := some ⟨8⟩, windowSize := 4 } (by decide) (fun _ => by decide) rfl)
    |>.tail (.sender .push True.intro rfl)
    |>.tail (.sender .maybeSend True.intro rfl)
    |>.tail (.segment 1 { seqno := ⟨8⟩, payload := [97], FIN := true } (by decide) (by decide)
      (by decide))
    |>.tail (.segment 1 { seqno := ⟨8⟩, payload := [97], FIN := true } (by decide) (by decide)
      (by decide)), rfl, rfl, rfl⟩

theorem delivers_reliably_exchange :
    ∃ net, Steps (start 4 4 1000 ⟨7⟩) net ∧
      net.receiving.assembly.pushedBytes = net.session.written ∧ net.session.sender.windowLeft ≤ 3 := by
  obtain ⟨net, reached, closed, pushed, written⟩ := exchange_reached
  have delivered := delivers_reliably 4 4 1000 ⟨7⟩ net net reached .refl (by rw [written]; decide)
  refine ⟨net, reached, (delivered.2.1 closed).1, ?_⟩
  have left := delivered.2.2
  rw [closed, pushed] at left
  exact left

end Net

end Minnow.Transport
