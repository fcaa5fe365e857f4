import Minnow.Foundation.Simulation
import Minnow.Transport.AckObligation
import Minnow.Transport.SenderFidelity

/-!
# Two peers over any network

Both owners write and read, and both peers send.  The network keeps every segment ever sent
and delivers any of them at any time, so that segments are lost, duplicated and reordered.
Since a segment may be kept for ever, fewer than half of the 32-bit numbers are used.
-/

namespace Minnow.Transport

open Foundation Foundation.Words Foundation.Runs Foundation.Tiling Minnow.Stream Minnow.Wire

open TCPSenderMessage (sequenceLength)

namespace TCPPeer

/-- What the outbound stream accepts in a call. -/
def wrote (peer : TCPPeer) : Op → List UInt8
  | .write data => peer.outboundStream.accepted data
  | _ => []

/-- What the owner reads in a call. -/
def took (peer : TCPPeer) : Op → List UInt8
  | .read len => peer.inboundStream.peek.take len
  | _ => []

/-- The owner writes nothing after the close. -/
def Allows (peer : TCPPeer) : Op → Prop
  | .write _ => peer.outboundStream.isClosed = false
  | _ => True

instance (peer : TCPPeer) (op : Op) : Decidable (peer.Allows op) :=
  match op with
  | .write _ => inferInstanceAs (Decidable (_ = _))
  | .close | .push | .tick _ | .receive _ | .maybeSend | .read _ =>
      inferInstanceAs (Decidable True)

end TCPPeer

/-- Two peers, all that was sent towards each of them, and what their owners wrote and read. -/
structure Exchange extends Connection where
  written : Side → List UInt8
  taken : Side → List UInt8

namespace Exchange

def start (cfg : Side → TCPConfig) (random : Side → Wrap32) : Exchange where
  toConnection := Connection.start cfg random
  written := fun _ => []
  taken := fun _ => []

/-- The exchange after a call of an owner that left the peer like this. -/
def called (exchange : Exchange) (side : Side) (op : TCPPeer.Op) (peer : TCPPeer) : Exchange where
  toConnection := exchange.setPeer side peer
  written := Function.update exchange.written side
    (exchange.written side ++ (exchange.peer side).wrote op)
  taken := Function.update exchange.taken side
    (exchange.taken side ++ (exchange.peer side).took op)

/-- The exchange after a peer has sent. -/
def sent (exchange : Exchange) (side : Side) (peer : TCPPeer) (seg : Option TCPSegment) : Exchange :=
  { exchange with
    toConnection := (exchange.setPeer side peer).setIncoming side.other
      (exchange.incoming side.other ++ seg.toList) }

/-- The exchange after a peer has received. -/
def delivered (exchange : Exchange) (side : Side) (seg : TCPSegment) : Exchange :=
  { exchange with toConnection := exchange.setPeer side ((exchange.peer side).receive seg) }

section Access

variable (exchange : Exchange) (side : Side) (op : TCPPeer.Op) (peer : TCPPeer)

@[simp] theorem called_toConnection :
    (exchange.called side op peer).toConnection = exchange.setPeer side peer := rfl

@[simp] theorem called_written :
    (exchange.called side op peer).written side =
      exchange.written side ++ (exchange.peer side).wrote op :=
  Function.update_self _ _ _

@[simp] theorem called_written_other :
    (exchange.called side op peer).written side.other = exchange.written side.other :=
  Function.update_of_ne side.other_ne _ _

@[simp] theorem called_taken :
    (exchange.called side op peer).taken side =
      exchange.taken side ++ (exchange.peer side).took op :=
  Function.update_self _ _ _

@[simp] theorem called_taken_other :
    (exchange.called side op peer).taken side.other = exchange.taken side.other :=
  Function.update_of_ne side.other_ne _ _

end Access

inductive Step (exchange : Exchange) : Exchange → Prop
  | call {side : Side} {op : TCPPeer.Op} {peer : TCPPeer} (own : op.isOwn = true)
      (allowed : (exchange.peer side).Allows op) (ran : (exchange.peer side).step op = .ok peer) :
      Step exchange (exchange.called side op peer)
  | send {side : Side} {peer : TCPPeer} {seg : Option TCPSegment}
      (ran : (exchange.peer side).maybeSend = .ok (peer, seg)) :
      Step exchange (exchange.sent side peer seg)
  | deliver {side : Side} {seg : TCPSegment} (inside : seg ∈ exchange.incoming side) :
      Step exchange (exchange.delivered side seg)

/-- The bytes that a side has received, whether they are read or not. -/
def received (exchange : Exchange) (side : Side) : List UInt8 :=
  exchange.taken side ++ (exchange.peer side).inboundStream.buffer

/-- Half of the 32-bit numbers are enough for what is written. -/
def Short (exchange : Exchange) : Prop :=
  ∀ side, (exchange.written side).length + 2 < 2 ^ 31

def system (cfg : Side → TCPConfig) (random : Side → Wrap32) : TransitionSystem Exchange where
  Initial := fun exchange => exchange = start cfg random
  Step := Step

end Exchange

/-! ## One direction -/

namespace Net

variable {isn : Wrap32} {net : Net}

theorem Joint.bytesPushed_le (joint : net.Joint isn) :
    net.receiving.assembly.output.bytesPushed ≤ net.session.written.length :=
  joint.receiverSide.ending.faithful.short

/-- An empty message tells the receiver nothing. -/
theorem Joint.probe (joint : net.Joint isn) (small : net.session.written.length + 2 < 2 ^ 64)
    {message : TCPSenderMessage} (length : message.sequenceLength = 0) :
    Joint isn { net with receiving := net.receiving.receive message } := by
  obtain ⟨seqno, syn, payload, fin⟩ := message
  obtain ⟨⟨plain, nothing⟩, unfinished⟩ : (syn.toNat = 0 ∧ payload.length = 0) ∧ fin.toNat = 0 := by
    rw [sequenceLength] at length
    dsimp only at length
    omega
  rw [Bool.toNat_eq_zero] at plain unfinished
  rw [List.length_eq_zero_iff] at nothing
  subst plain unfinished nothing
  have side := joint.receiverSide
  refine joint.receiving ?_
    (Receiving.absoluteAckno_le_step side.ending.faithful.sound (.receive ⟨seqno, false, [], false⟩))
  cases seen : net.receiving.receiver.synRcvd with
  | false =>
      rw [Receiving.receive_of_unseen seen rfl]
      exact side
  | true =>
      rw [Receiving.receive_of_seen (by rw [seen]; rfl)]
      refine ⟨fun _ => side.zeroPoint seen, ?_, ?_⟩
      · exact (side.ending.insert_nil (by omega) _).congr (by rw [Bool.or_false])
      · intro announced
        rw [Bool.or_false] at announced
        exact side.finSent announced

end Net

namespace TCPPeer

/-- The sending half of one peer and the receiving half of the other are the ends of a net that
carries these segments. -/
structure Carries (isn : Wrap32) (net : Net) (source : TCPPeer) (outgoing : List TCPSegment)
    (sink : TCPPeer) (incoming : List TCPSegment) (written taken : List UInt8) : Prop where
  joint : net.Joint isn
  queue : net.session.QueueFaithful
  records : Records net.session source
  hearing : Hearing net.receiving sink
  outgoing : ∀ seg ∈ outgoing,
    seg.senderMessage ∈ net.session.sent ∨ seg.senderMessage.sequenceLength = 0
  incoming : ∀ seg ∈ incoming, ∃ number, (number, seg.receiverMessage) ∈ net.replies
  written : net.session.written = written
  taken : net.receiving.assembly.popped = taken

theorem new_carries (cfg other : TCPConfig) (random otherRandom : Wrap32) :
    Carries (cfg.fixedIsn.getD random)
      (Net.start cfg.sendCapacity other.recvCapacity cfg.rtTimeout.toUInt64
        (cfg.fixedIsn.getD random)) (new cfg random) [] (new other otherRandom) [] [] [] where
  joint := Net.start_joint _ _ _ _
  queue := ⟨rfl, rfl, fun _ _ here => by cases here⟩
  records := ⟨rfl, rfl⟩
  hearing := ⟨rfl, rfl, rfl⟩
  outgoing := fun _ inside => absurd inside List.not_mem_nil
  incoming := fun _ inside => absurd inside List.not_mem_nil
  written := rfl
  taken := rfl

namespace Carries

variable {isn : Wrap32} {net : Net} {source sink next : TCPPeer}
  {outgoing incoming : List TCPSegment} {written taken : List UInt8}

/-! ### The sender's calls -/

/-- A call of the sender that needs no message. -/
theorem sender (carries : Carries isn net source outgoing sink incoming written taken)
    {op : Session.Op} {later : Session} (ran : net.session.step op = .ok later)
    (allowed : Net.Local net.session op) (records : Records later next)
    (small : later.written.length + 2 < 2 ^ 64) :
    Carries isn { net with session := later } next outgoing sink incoming later.written taken where
  joint := carries.joint.step (.sender op allowed ran) small
  queue := carries.queue.step carries.joint.senderSide.accounted (Session.stepped_of_step ran)
  records := records
  hearing := carries.hearing
  outgoing := fun seg inside => (carries.outgoing seg inside).imp_left
    ((Session.stepped_of_step ran).sent.subset ·)
  incoming := carries.incoming
  written := rfl
  taken := carries.taken

theorem ran_of_single {session later : Session} {op : Session.Op}
    (ran : attempt Session.step session [op] = .ok later) : session.step op = .ok later := by
  rw [attempt_cons] at ran
  obtain ⟨middle, stepped, ⟨⟩⟩ := Fault.bind_eq_ok.mp ran
  exact stepped

theorem sourceCall (carries : Carries isn net source outgoing sink incoming written taken) {op : Op}
    (own : op.isOwn = true) (allowed : source.Allows op) (ran : source.step op = .ok next)
    (small : (written ++ source.wrote op).length + 2 < 2 ^ 64) :
    ∃ later, Carries isn later next outgoing sink incoming (written ++ source.wrote op) taken := by
  obtain ⟨later, done, still⟩ := carries.records.step ran
  rw [← carries.written] at small ⊢
  cases op with
  | write data =>
      have stepped := ran_of_single done
      cases stepped
      rw [wrote, ← carries.records.outbound] at small ⊢
      rw [Allows, ← carries.records.outbound] at allowed
      exact ⟨_, carries.sender (ran_of_single done) allowed still small⟩
  | receive seg => cases own
  | maybeSend => cases own
  | read len =>
      cases done
      simp only [wrote, List.append_nil]
      exact ⟨net, { carries with records := still, written := rfl }⟩
  | _ =>
      have stepped := ran_of_single done
      have same : later.written = net.session.written := by
        cases Session.stepped_of_step stepped with
        | _ => rfl
      simp only [wrote, List.append_nil] at small ⊢
      rw [← same] at small ⊢
      exact ⟨_, carries.sender stepped True.intro still small⟩

theorem sinkCall (carries : Carries isn net source outgoing sink incoming written taken) {op : Op}
    (own : op.isOwn = true) (ran : sink.step op = .ok next) (small : written.length + 2 < 2 ^ 64) :
    ∃ later, Carries isn later source outgoing next incoming written (taken ++ sink.took op) := by
  have hearing := carries.hearing
  cases op with
  | receive seg => cases own
  | maybeSend => cases own
  | read len =>
      cases ran
      rw [← carries.written] at small
      refine ⟨{ net with receiving := net.receiving.pop len },
        carries.joint.step (.pop len) small, carries.queue, carries.records,
        ⟨hearing.receiver, hearing.reassembler, ?_⟩, carries.outgoing, carries.incoming,
        carries.written, ?_⟩
      · exact congrArg (ByteStream.pop · len) hearing.inbound
      · rw [took, ← carries.taken, ← hearing.inbound]
        rfl
  | push =>
      obtain ⟨sender, outboundStream, -, rfl⟩ := push_ok ran
      simp only [took, List.append_nil]
      exact ⟨net, { carries with hearing := hearing.congr rfl rfl rfl }⟩
  | tick msSinceLastTick =>
      obtain ⟨sender, -, ⟨⟩⟩ := Fault.bind_eq_ok.mp ran
      simp only [took, List.append_nil]
      exact ⟨net, { carries with hearing := hearing.congr rfl rfl rfl }⟩
  | _ =>
      cases ran
      simp only [took, List.append_nil]
      exact ⟨net, { carries with hearing := hearing.congr rfl rfl rfl }⟩

/-! ### Sending -/

theorem refill (carries : Carries isn net source outgoing sink incoming written taken)
    (small : written.length + 2 < 2 ^ 64) (refilled : source.refill = .ok next) :
    ∃ later, Carries isn later next outgoing sink incoming written taken := by
  rw [TCPPeer.refill] at refilled
  split at refilled
  · have pushed := @sourceCall _ _ _ _ _ _ _ _ _ carries .push rfl True.intro refilled
    simp only [wrote, List.append_nil] at pushed
    exact pushed small
  · cases refilled
    exact ⟨net, carries⟩

theorem sourceSend (carries : Carries isn net source outgoing sink incoming written taken)
    (small : written.length + 2 < 2 ^ 64) {seg : Option TCPSegment}
    (ran : source.maybeSend = .ok (next, seg)) :
    ∃ later, Carries isn later next (outgoing ++ seg.toList) sink incoming written taken := by
  obtain ⟨pushed, refilled, rfl, rfl⟩ := maybeSend_ok ran
  obtain ⟨middle, between⟩ := carries.refill small refilled
  rw [← between.written] at small ⊢
  have ran : middle.session.step .maybeSend = .ok _ := rfl
  have records : Records { middle.session with
      sender := middle.session.sender.maybeSend.1
      sent := middle.session.sent ++ middle.session.sender.maybeSend.2.toList }
      { pushed with sender := pushed.sender.maybeSend.1, needSend := false } :=
    ⟨congrArg (fun sender => sender.maybeSend.1) between.records.sender, between.records.outbound⟩
  have after := between.sender ran True.intro records small
  refine ⟨_, { after with outgoing := ?_ }⟩
  intro sent inside
  rcases List.mem_append.mp inside with old | new
  · exact after.outgoing sent old
  · obtain ⟨message, found, rfl⟩ := Option.map_eq_some_iff.mp (Option.mem_toList.mp new)
    rcases Flows.senderMessage_cases pushed with ⟨first, queued, sends⟩ | ⟨-, -, sends⟩
    · cases sends.symm.trans found
      rw [← between.records.sender] at queued
      refine Or.inl (List.mem_append_right _ ?_)
      rw [queued]
      exact List.mem_cons_self
    · rw [sends] at found
      split at found
      · cases found
        exact Or.inr rfl
      · cases found

theorem sinkSend (carries : Carries isn net source outgoing sink incoming written taken)
    (small : written.length + 2 < 2 ^ 64) {seg : Option TCPSegment}
    (ran : sink.maybeSend = .ok (next, seg)) :
    ∃ later, Carries isn later source outgoing next (incoming ++ seg.toList) written taken := by
  obtain ⟨pushed, refilled, rfl, rfl⟩ := maybeSend_ok ran
  obtain ⟨receiver, reassembler, inbound, -⟩ := refill_frame refilled
  rw [← carries.written] at small
  refine ⟨_, { carries with
    joint := carries.joint.step .reply small
    hearing := carries.hearing.congr receiver reassembler inbound
    incoming := ?_ }⟩
  intro sent inside
  rcases List.mem_append.mp inside with old | new
  · obtain ⟨number, replied⟩ := carries.incoming sent old
    exact ⟨number, List.mem_append_left _ replied⟩
  · obtain ⟨message, -, rfl⟩ := Option.map_eq_some_iff.mp (Option.mem_toList.mp new)
    rw [← carries.hearing.send]
    exact ⟨net.receiving.absoluteAckno, List.mem_append_right _ List.mem_cons_self⟩

/-! ### Receiving -/

theorem sourceReceive (carries : Carries isn net source outgoing sink incoming written taken)
    (small : written.length + 2 < 2 ^ 31) {seg : TCPSegment} (inside : seg ∈ incoming)
    (working : (seg.reset || source.inboundStream.hasError) = false) :
    ∃ later, Carries isn later (source.receive seg) outgoing sink incoming written taken := by
  obtain ⟨number, replied⟩ := carries.incoming seg inside
  have reached := (carries.joint.replies number _ replied).1
  have bound := Net.absoluteAckno_le carries.joint
  have left := carries.joint.left
  rw [carries.written] at bound
  have near : Near number net.session.sender.windowLeft := ⟨by omega, by omega⟩
  have ran : net.session.step (.receive seg.receiverMessage) = .ok _ := rfl
  have stepped := Session.stepped_of_step ran
  rw [TCPPeer.receive, if_neg (by rw [working]; exact Bool.false_ne_true)]
  refine ⟨_, {
    joint := carries.joint.step (.ackno number _ replied (fun _ => near) ran) ?_
    queue := carries.queue.step carries.joint.senderSide.accounted stepped
    records := ⟨?_, carries.records.outbound⟩
    hearing := carries.hearing
    outgoing := carries.outgoing
    incoming := carries.incoming
    written := carries.written
    taken := carries.taken }⟩
  · change net.session.written.length + 2 < 2 ^ 64
    rw [carries.written]
    omega
  · exact congrArg (TCPSender.receive · seg.receiverMessage) carries.records.sender

theorem sinkReceive (carries : Carries isn net source outgoing sink incoming written taken)
    (small : written.length + 2 < 2 ^ 31) {seg : TCPSegment} (inside : seg ∈ outgoing)
    (working : (seg.reset || sink.inboundStream.hasError) = false) :
    ∃ later, Carries isn later source outgoing (sink.receive seg) incoming written taken := by
  have short : net.session.written.length + 2 < 2 ^ 31 := carries.written.symm ▸ small
  have joint : Net.Joint isn
      { net with receiving := net.receiving.receive seg.senderMessage } := by
    rcases carries.outgoing seg inside with sent | empty
    · obtain ⟨number, here⟩ :
          ∃ number, (number, seg.senderMessage) ∈ placed sequenceLength 0 net.session.created :=
        exists_mem_placed (carries.queue.returned _ sent) 0
      have bound := Account.extent_le carries.joint.senderSide.accounted
      have last := end_le_of_mem_placed here
      have pushed := carries.joint.bytesPushed_le
      exact carries.joint.step (.segment number _ sent here ⟨by omega, by omega⟩)
        (show net.session.written.length + 2 < 2 ^ 64 by omega)
    · exact carries.joint.probe (by omega) empty
  rw [TCPPeer.receive, if_neg (by rw [working]; exact Bool.false_ne_true)]
  refine ⟨_, { carries with joint, hearing := ⟨?_, ?_, ?_⟩ }⟩
  all_goals
    rw [Receiving.receive, carries.hearing.receiver, carries.hearing.reassembler,
      carries.hearing.inbound]

end Carries

end TCPPeer

/-! ## Both directions -/

namespace Exchange

/-- Each direction is carried by a net, and nothing fails. -/
structure Joint (isn : Side → Wrap32) (exchange : Exchange) : Prop where
  carries : ∀ side, ∃ net, TCPPeer.Carries (isn side) net (exchange.peer side)
    (exchange.incoming side.other) (exchange.peer side.other) (exchange.incoming side)
    (exchange.written side) (exchange.taken side.other)
  fine : exchange.Fine
  unreset : exchange.Unreset

variable {isn : Side → Wrap32} {exchange next : Exchange}

/-- The direction towards a side comes from the other one. -/
theorem Joint.towards (joint : exchange.Joint isn) (side : Side) :
    ∃ net, TCPPeer.Carries (isn side.other) net (exchange.peer side.other)
      (exchange.incoming side) (exchange.peer side) (exchange.incoming side.other)
      (exchange.written side.other) (exchange.taken side) := by
  have carries := joint.carries side.other
  rw [Side.other_other] at carries
  exact carries

theorem start_joint (cfg : Side → TCPConfig) (random : Side → Wrap32) :
    (start cfg random).Joint (fun side => (cfg side).fixedIsn.getD (random side)) where
  carries := fun side => ⟨_, TCPPeer.new_carries (cfg side) (cfg side.other) _ _⟩
  fine := fun _ => ⟨rfl, rfl⟩
  unreset := fun _ _ inside => absurd inside List.not_mem_nil

/-- What was written stays written. -/
theorem written_step (step : exchange.Step next) (side : Side) :
    exchange.written side <+: next.written side := by
  cases step with
  | @call caller op peer own allowed ran =>
      rcases caller.eq_or_eq_other side with rfl | rfl
      · rw [called_written]
        exact List.prefix_append _ _
      · rw [called_written_other]
  | send ran => exact List.prefix_refl _
  | deliver inside => exact List.prefix_refl _

theorem short_step (step : exchange.Step next) (short : next.Short) : exchange.Short := by
  intro side
  have grown := (written_step step side).length_le
  have bound := short side
  omega

theorem Joint.called (joint : exchange.Joint isn) {side : Side} {op : TCPPeer.Op} {peer : TCPPeer}
    (own : op.isOwn = true) (allowed : (exchange.peer side).Allows op)
    (ran : (exchange.peer side).step op = .ok peer) (short : (exchange.called side op peer).Short) :
    (exchange.called side op peer).Joint isn := by
  have here := short side
  have there := short side.other
  obtain ⟨net, away⟩ := joint.carries side
  obtain ⟨back, towards⟩ := joint.towards side
  rw [called_written] at here
  rw [called_written_other] at there
  refine ⟨Connection.forall_side side ?_ ?_, Connection.forall_side side ?_ ?_, joint.unreset⟩
  · simpa using away.sourceCall own allowed ran (by omega)
  · simpa using towards.sinkCall own ran (by omega)
  · rw [called_toConnection, Connection.setPeer_peer, (TCPPeer.step_own own ran).1,
      (TCPPeer.step_inbound_state ran (TCPPeer.Op.ne_receive_of_own own)).1]
    exact joint.fine side
  · rw [called_toConnection, Connection.setPeer_other]
    exact joint.fine side.other

theorem Joint.sent (joint : exchange.Joint isn) {side : Side} {peer : TCPPeer}
    {seg : Option TCPSegment} (ran : (exchange.peer side).maybeSend = .ok (peer, seg))
    (short : exchange.Short) : (exchange.sent side peer seg).Joint isn := by
  have here := short side
  have there := short side.other
  obtain ⟨net, away⟩ := joint.carries side
  obtain ⟨back, towards⟩ := joint.towards side
  obtain ⟨inbound, outbound⟩ := joint.fine side
  have stillFine : peer.inboundStream.hasError = false ∧ peer.outboundStream.hasError = false := by
    obtain ⟨pushed, refilled, rfl, -⟩ := TCPPeer.maybeSend_ok ran
    obtain ⟨-, -, same, -⟩ := TCPPeer.refill_frame refilled
    exact ⟨same ▸ inbound, (TCPPeer.refill_hasError refilled).trans outbound⟩
  refine ⟨Connection.forall_side side ?_ ?_, Connection.forall_side side ?_ ?_, ?_⟩
  · simpa [Exchange.sent] using away.sourceSend (by omega) ran
  · simpa [Exchange.sent] using towards.sinkSend (by omega) ran
  · simpa [Exchange.sent] using stillFine
  · simpa [Exchange.sent] using joint.fine side.other
  · refine Connection.Unreset.setIncoming joint.unreset ?_
    intro other inside
    rcases List.mem_append.mp inside with old | new
    · exact joint.unreset side.other other old
    · exact TCPPeer.maybeSend_reset ran stillFine.1 stillFine.2 other (Option.mem_toList.mp new)

theorem Joint.delivered (joint : exchange.Joint isn) {side : Side} {seg : TCPSegment}
    (inside : seg ∈ exchange.incoming side) (short : exchange.Short) :
    (exchange.delivered side seg).Joint isn := by
  obtain ⟨inbound, outbound⟩ := joint.fine side
  have working : (seg.reset || (exchange.peer side).inboundStream.hasError) = false := by
    rw [joint.unreset side seg inside, inbound]
    rfl
  obtain ⟨net, away⟩ := joint.carries side
  obtain ⟨back, towards⟩ := joint.towards side
  refine ⟨Connection.forall_side side ?_ ?_, Connection.forall_side side ?_ ?_, joint.unreset⟩
  · simpa [Exchange.delivered] using away.sourceReceive (short side) inside working
  · simpa [Exchange.delivered] using towards.sinkReceive (short side.other) inside working
  · obtain ⟨still, same⟩ := (exchange.peer side).receive_hasError seg
    rw [Exchange.delivered, Connection.setPeer_peer, still, same, working]
    exact ⟨rfl, outbound⟩
  · simpa [Exchange.delivered] using joint.fine side.other

theorem Joint.step (joint : exchange.Joint isn) (step : exchange.Step next) (short : next.Short) :
    next.Joint isn := by
  cases step with
  | call own allowed ran => exact joint.called own allowed ran short
  | send ran => exact joint.sent ran short
  | deliver inside => exact joint.delivered inside short

theorem joint_keeps (cfg : Side → TCPConfig) (random : Side → Wrap32) :
    (system cfg random).Keeps Short
      (Joint fun side => (cfg side).fixedIsn.getD (random side)) where
  monotone := fun _ _ step short => short_step step short
  initial := by
    rintro exchange rfl
    exact start_joint cfg random
  preserved := fun _ _ joint step short => joint.step step short

/-- What each side has received, and what the other sender knows of it. -/
theorem Joint.delivers (joint : exchange.Joint isn) (side : Side) :
    exchange.received side <+: exchange.written side.other ∧
      ((exchange.peer side).inboundStream.isClosed = true →
        exchange.received side = exchange.written side.other ∧
          (exchange.peer side.other).outboundStream.isClosed = true) ∧
      (exchange.peer side.other).sender.windowLeft ≤
        1 + (exchange.received side).length + (exchange.peer side).inboundStream.isClosed.toNat := by
  obtain ⟨net, carries⟩ := joint.towards side
  have ending := carries.joint.receiverSide.ending
  have same : exchange.received side = net.receiving.assembly.pushedBytes := by
    rw [received, Assembly.pushedBytes, carries.taken, carries.hearing.inbound]
  have pushed := ending.faithful.pushed
  rw [← same, carries.written] at pushed
  refine ⟨?_, ?_, ?_⟩
  · rw [pushed]
    exact List.take_prefix _ _
  · intro closed
    rw [← carries.hearing.inbound] at closed
    obtain ⟨announced, whole⟩ := ending.closed.mp closed
    obtain ⟨outboundClosed, -⟩ := carries.joint.receiverSide.finSent announced
    rw [carries.records.outbound] at outboundClosed
    refine ⟨?_, outboundClosed⟩
    rw [pushed, whole, carries.written, List.take_length]
  · have left := carries.joint.left
    have position := carries.joint.bytesPushed_le
    rw [carries.written] at position
    rw [Receiving.absoluteAckno, carries.records.sender, carries.hearing.inbound] at left
    rw [carries.hearing.inbound] at position
    rw [pushed, List.length_take, Assembly.position, carries.hearing.inbound,
      Nat.min_eq_left position]
    exact left

/-- In every state that two peers reach over a network that loses, duplicates and reorders, each
side has received a first part of what the other one has written, its stream is closed only when
that is all and the other stream is closed, the other sender takes nothing for acknowledged that
is not received, and no segment and no stream signals an error. -/
theorem delivers_both_ways (cfg : Side → TCPConfig) (random : Side → Wrap32) (exchange : Exchange)
    (reached : (system cfg random).Reachable exchange) (short : exchange.Short) (side : Side) :
    exchange.received side <+: exchange.written side.other ∧
      ((exchange.peer side).inboundStream.isClosed = true →
        exchange.received side = exchange.written side.other ∧
          (exchange.peer side.other).outboundStream.isClosed = true) ∧
      (exchange.peer side.other).sender.windowLeft ≤
        1 + (exchange.received side).length + (exchange.peer side).inboundStream.isClosed.toNat ∧
      (exchange.peer side).inboundStream.hasError = false ∧
      ∀ seg ∈ exchange.incoming side, seg.reset = false := by
  have joint := (joint_keeps cfg random).reachable reached short
  obtain ⟨inOrder, whole, known⟩ := joint.delivers side
  exact ⟨inOrder, whole, known, (joint.fine side).1, joint.unreset side⟩

/-- Each side writes one byte; the left side closes, and its last segment comes twice. -/
theorem greeting_reached :
    ∃ exchange, (system (fun _ => { fixedIsn := some ⟨0⟩ }) (fun _ => ⟨0⟩)).Reachable exchange ∧
      exchange.written .left = [97] ∧ exchange.written .right = [98] ∧
      (exchange.peer .right).inboundStream.isClosed = true :=
  ⟨_, TransitionSystem.Reachable.start rfl
    |>.step (@Step.call _ .left (.write [97]) _ rfl (by exact rfl) rfl)
    |>.step (@Step.call _ .left .close _ rfl True.intro rfl)
    |>.step (@Step.call _ .left .push _ rfl True.intro rfl)
    |>.step (@Step.send _ .left _ _ rfl)
    |>.step (@Step.deliver _ .right { senderMessage.SYN := true, receiverMessage.windowSize := 64000 }
      (by decide))
    |>.step (@Step.call _ .right (.write [98]) _ rfl (by exact rfl) rfl)
    |>.step (@Step.send _ .right _ _ rfl)
    |>.step (@Step.deliver _ .left { senderMessage.SYN := true, receiverMessage := ⟨some ⟨1⟩, 64000⟩ }
      (by decide))
    |>.step (@Step.send _ .left _ _ rfl)
    |>.step (@Step.deliver _ .right
      { senderMessage := ⟨⟨1⟩, false, [97], true⟩, receiverMessage := ⟨some ⟨1⟩, 64000⟩ } (by decide))
    |>.step (@Step.deliver _ .right
      { senderMessage := ⟨⟨1⟩, false, [97], true⟩, receiverMessage := ⟨some ⟨1⟩, 64000⟩ } (by decide)),
    rfl, rfl, rfl⟩

theorem delivers_both_ways_greeting :
    ∃ exchange : Exchange, exchange.received .right = exchange.written .left ∧
      (exchange.peer .left).outboundStream.isClosed = true ∧
      exchange.received .left <+: exchange.written .right := by
  obtain ⟨exchange, reached, wroteLeft, wroteRight, closed⟩ := greeting_reached
  have short : exchange.Short :=
    Connection.forall_side .left (by rw [wroteLeft]; decide) (by rw [Side.other, wroteRight]; decide)
  have rightward := delivers_both_ways _ _ exchange reached short .right
  have leftward := delivers_both_ways _ _ exchange reached short .left
  exact ⟨exchange, (rightward.2.1 closed).1, (rightward.2.1 closed).2, leftward.1⟩

end Exchange

end Minnow.Transport
