import Minnow.Transport.Connection

/-!
# Every segment is acknowledged, and no acknowledgement is

A peer that has received sequence numbers owes a segment until it sends one.  Over ordered
links an empty message never carries the number right before the ackno, so nothing is owed
for it.
-/

namespace Minnow.Transport

open Foundation Foundation.Words Foundation.Runs Minnow.Stream Minnow.Wire

/-! ## One peer -/

namespace TCPPeer

theorem push_hasError {peer next : TCPPeer} (ran : peer.push = .ok next) :
    next.outboundStream.hasError = peer.outboundStream.hasError := by
  obtain ⟨sender, outboundStream, pushed, rfl⟩ := push_ok ran
  obtain ⟨segments, last, rest, alsoPushed, emits⟩ := peer.sender.push_spec peer.outboundStream
  cases alsoPushed.symm.trans pushed
  exact emits.hasError

theorem refill_hasError {peer pushed : TCPPeer} (refilled : peer.refill = .ok pushed) :
    pushed.outboundStream.hasError = peer.outboundStream.hasError := by
  rw [refill] at refilled
  split at refilled
  · exact push_hasError refilled
  · cases refilled
    rfl

/-- The owner's calls signal no error and leave the obligation. -/
theorem step_own {peer next : TCPPeer} {op : Op} (own : op.isOwn = true)
    (ran : peer.step op = .ok next) :
    next.outboundStream.hasError = peer.outboundStream.hasError ∧ next.needSend = peer.needSend := by
  cases op with
  | receive seg => cases own
  | maybeSend => cases own
  | push =>
      refine ⟨push_hasError ran, ?_⟩
      obtain ⟨sender, outboundStream, -, rfl⟩ := push_ok ran
      rfl
  | tick msSinceLastTick =>
      obtain ⟨sender, -, ⟨⟩⟩ := Fault.bind_eq_ok.mp ran
      exact ⟨rfl, rfl⟩
  | _ =>
      cases ran
      exact ⟨rfl, rfl⟩

theorem receive_of_working {peer : TCPPeer} {seg : TCPSegment}
    (working : (seg.reset || peer.inboundStream.hasError) = false) :
    (peer.receive seg).needSend = (peer.needSend ||
      decide (0 < seg.senderMessage.sequenceLength) || peer.keepsAlive seg.senderMessage) := by
  rw [receive, if_neg (by rw [working]; exact Bool.false_ne_true)]

theorem receive_hasError (peer : TCPPeer) (seg : TCPSegment) :
    (peer.receive seg).inboundStream.hasError = (seg.reset || peer.inboundStream.hasError) ∧
      (peer.receive seg).outboundStream = peer.outboundStream := by
  rw [receive]
  split
  case isTrue failing => exact ⟨failing.symm, rfl⟩
  case isFalse working =>
      refine ⟨?_, rfl⟩
      obtain ⟨-, fine⟩ := Bool.or_eq_false_iff.mp (Bool.eq_false_of_not_eq_true working)
      rw [Bool.eq_false_of_not_eq_true working, ← fine]
      exact receiver_hasError _ _ _ _

/-- What is owed stays owed when more is received. -/
theorem receive_needSend {peer : TCPPeer} (owes : peer.needSend = true) (seg : TCPSegment) :
    (peer.receive seg).needSend = true := by
  rw [receive]
  split
  · exact owes
  · change (peer.needSend || _ || _) = true
    rw [owes, Bool.true_or, Bool.true_or]

/-- A peer that owes a segment sends one, with the receiver message of now. -/
theorem maybeSend_of_needSend {peer : TCPPeer} (owes : peer.needSend = true) :
    ∃ next reply, peer.maybeSend = .ok (next, some reply) ∧
      reply.receiverMessage = peer.receiverMessage := by
  obtain ⟨next, out, sent⟩ := peer.maybeSend_returns
  obtain ⟨pushed, refilled, -, outIs⟩ := maybeSend_ok sent
  obtain ⟨-, -, -, same⟩ := refill_frame refilled
  obtain ⟨message, sends⟩ : ∃ message, pushed.senderMessage = some message := by
    rcases Flows.senderMessage_cases pushed with ⟨message, -, sends⟩ | ⟨-, -, sends⟩
    · exact ⟨message, sends⟩
    · rw [same, owes] at sends
      exact ⟨_, sends⟩
  rw [sends] at outIs
  exact ⟨next, _, outIs ▸ sent, rfl⟩

/-- A peer without an error resets nothing. -/
theorem maybeSend_reset {peer next : TCPPeer} {out : Option TCPSegment}
    (ran : peer.maybeSend = .ok (next, out)) (inbound : next.inboundStream.hasError = false)
    (outbound : next.outboundStream.hasError = false) : ∀ seg ∈ out, seg.reset = false := by
  obtain ⟨pushed, -, rfl, rfl⟩ := maybeSend_ok ran
  intro seg inside
  obtain ⟨message, -, rfl⟩ := Option.map_eq_some_iff.mp inside
  exact Bool.or_eq_false_iff.mpr ⟨outbound, inbound⟩

end TCPPeer

/-! ## Both peers -/

namespace Connection

/-- The bytes that the owner of a side offers in a step. -/
def Op.offered (side : Side) : Op → Nat
  | .call caller op _ => if caller = side then op.offered else 0
  | _ => 0

def offered (side : Side) (ops : List Op) : Nat := (ops.map (Op.offered side)).sum

/-- A flow each way. -/
def Joint (isn : Side → Wrap32) (total : Side → Nat) (connection : Connection) : Prop :=
  ∀ side, TCPPeer.Flows (isn side) (total side) (connection.peer side)
    (connection.incoming side.other) (connection.peer side.other) (connection.incoming side)

/-- No reset is on its way. -/
def Unreset (connection : Connection) : Prop :=
  ∀ side, ∀ seg ∈ connection.incoming side, seg.reset = false

theorem start_joint (cfg : Side → TCPConfig) (random : Side → Wrap32) :
    Joint (fun side => (cfg side).fixedIsn.getD (random side)) (fun _ => 0) (start cfg random) :=
  fun side => TCPPeer.new_flows (cfg side) (cfg side.other) (random side) (random side.other)

/-- Where a peer is replaced, an error at it or the other one is an error of the connection. -/
theorem Fine.of_setPeer {connection : Connection} {side : Side} {peer : TCPPeer}
    (fine : (connection.setPeer side peer).Fine)
    (inbound : peer.inboundStream.hasError = false →
      (connection.peer side).inboundStream.hasError = false)
    (outbound : peer.outboundStream.hasError = false →
      (connection.peer side).outboundStream.hasError = false) : connection.Fine := by
  intro third
  have here := fine side
  have there := fine side.other
  rw [setPeer_peer] at here
  rw [setPeer_other] at there
  rcases side.eq_or_eq_other third with rfl | rfl
  · exact ⟨inbound here.1, outbound here.2⟩
  · exact there

/-- An error is not taken back. -/
theorem Fine.of_stepped {connection next : Connection} {op : Op} (fine : next.Fine)
    (stepped : connection.Stepped op next) : connection.Fine := by
  cases stepped with
  | @call side op own peer ran =>
      refine Fine.of_setPeer fine ?_ ?_
      · rw [(TCPPeer.step_inbound_state ran (TCPPeer.Op.ne_receive_of_own own)).1]
        exact id
      · rw [(TCPPeer.step_own own ran).1]
        exact id
  | @maybeSend side peer seg ran =>
      obtain ⟨pushed, refilled, rfl, -⟩ := TCPPeer.maybeSend_ok ran
      have outbound := TCPPeer.refill_hasError refilled
      obtain ⟨-, -, inbound, -⟩ := TCPPeer.refill_frame refilled
      refine Fine.of_setPeer fine ?_ ?_
      · rw [← inbound]
        exact id
      · rw [← outbound]
        exact id
  | idle empty => exact fine
  | @deliver side seg rest first =>
      obtain ⟨inbound, outbound⟩ := (connection.peer side).receive_hasError seg
      refine Fine.of_setPeer fine ?_ ?_
      · rw [inbound]
        exact fun both => (Bool.or_eq_false_iff.mp both).2
      · rw [outbound]
        exact id
  | lose side index => exact fine
  | failInbound side =>
      have here := (fine side).1
      rw [setPeer_peer] at here
      cases here
  | failOutbound side =>
      have here := (fine side).2
      rw [setPeer_peer] at here
      cases here

/-! ### The flows are kept -/

/-- With a side and the other one everything is said about both sides. -/
theorem forall_side {Holds : Side → Prop} (side : Side) (here : Holds side)
    (there : Holds side.other) : ∀ third, Holds third := by
  intro third
  rcases side.eq_or_eq_other third with rfl | rfl
  · exact here
  · exact there

variable {isn : Side → Wrap32} {total : Side → Nat} {connection next : Connection}

theorem Unreset.setIncoming (unreset : connection.Unreset) {side : Side}
    {segments : List TCPSegment} (plain : ∀ seg ∈ segments, seg.reset = false) :
    (connection.setIncoming side segments).Unreset := by
  refine forall_side side ?_ ?_
  · rw [setIncoming_incoming]
    exact plain
  · rw [setIncoming_other]
    exact unreset side.other

/-- The flow towards a side comes from the other one. -/
theorem Joint.towards (joint : connection.Joint isn total) (side : Side) :
    TCPPeer.Flows (isn side.other) (total side.other) (connection.peer side.other)
      (connection.incoming side) (connection.peer side) (connection.incoming side.other) := by
  have flows := joint side.other
  rw [Side.other_other] at flows
  exact flows

theorem Joint.of_flows (side : Side)
    (away : TCPPeer.Flows (isn side) (total side) (connection.peer side)
      (connection.incoming side.other) (connection.peer side.other) (connection.incoming side))
    (towards : TCPPeer.Flows (isn side.other) (total side.other) (connection.peer side.other)
      (connection.incoming side) (connection.peer side) (connection.incoming side.other)) :
    connection.Joint isn total := by
  refine forall_side side away ?_
  rw [Side.other_other]
  exact towards

theorem Joint.step {op : Op} (joint : connection.Joint isn total) (unreset : connection.Unreset)
    (fine : connection.Fine) (stepped : connection.Stepped op next)
    (small : ∀ side, total side + op.offered side + 2 ^ 17 < 2 ^ 64)
    (stillFine : next.Fine) :
    next.Joint isn (fun side => total side + op.offered side) ∧ next.Unreset := by
  cases stepped with
  | @call side op own peer ran =>
      refine ⟨Joint.of_flows side ?_ ?_, unreset⟩
      · rw [setPeer_peer, setPeer_other, setPeer_incoming, Op.offered, if_pos rfl]
        refine (joint side).sourceCall own ran ?_
        have room := small side
        rw [Op.offered, if_pos rfl] at room
        exact room
      · rw [setPeer_peer, setPeer_other, setPeer_incoming, Op.offered, if_neg side.other_ne.symm]
        exact (joint.towards side).sinkCall own ran
  | @maybeSend side peer seg ran =>
      refine ⟨Joint.of_flows side ?_ ?_, ?_⟩
      · rw [setIncoming_peer, setPeer_peer, setPeer_other, setIncoming_incoming,
          setIncoming_other_incoming]
        exact (joint side).sourceSend (small side) ran
      · rw [setIncoming_peer, setPeer_peer, setPeer_other, setIncoming_incoming,
          setIncoming_other_incoming]
        exact (joint.towards side).sinkSend ran
      · refine Unreset.setIncoming unreset ?_
        intro sent inside
        rcases List.mem_append.mp inside with old | new
        · exact unreset side.other sent old
        · obtain ⟨inbound, outbound⟩ := stillFine side
          rw [setIncoming_peer, setPeer_peer] at inbound outbound
          exact TCPPeer.maybeSend_reset ran inbound outbound sent (Option.mem_toList.mp new)
  | idle empty => exact ⟨joint, unreset⟩
  | @deliver side seg rest first =>
      have working : (seg.reset || (connection.peer side).inboundStream.hasError) = false := by
        rw [unreset side seg (by rw [first]; exact List.mem_cons_self), (fine side).1]
        rfl
      have away := joint side
      have towards := joint.towards side
      rw [first] at away towards
      refine ⟨Joint.of_flows side ?_ ?_, ?_⟩
      · rw [setIncoming_peer, setPeer_peer, setPeer_other, setIncoming_incoming, setIncoming_other]
        exact away.sourceReceive (small side) working
      · rw [setIncoming_peer, setPeer_peer, setPeer_other, setIncoming_incoming, setIncoming_other]
        exact towards.sinkReceive (small side.other) working
      · refine Unreset.setIncoming unreset ?_
        intro other inside
        exact unreset side other (by rw [first]; exact List.mem_cons_of_mem _ inside)
  | lose side index =>
      have kept := List.eraseIdx_sublist (connection.incoming side) index
      refine ⟨Joint.of_flows side ?_ ?_, ?_⟩
      · rw [setIncoming_peer, setIncoming_incoming, setIncoming_other]
        exact (joint side).lose (List.Sublist.refl _) kept
      · rw [setIncoming_peer, setIncoming_incoming, setIncoming_other]
        exact (joint.towards side).lose kept (List.Sublist.refl _)
      · exact Unreset.setIncoming unreset fun other inside =>
          unreset side other (kept.subset inside)
  | failInbound side =>
      have here := (stillFine side).1
      rw [setPeer_peer] at here
      cases here
  | failOutbound side =>
      have here := (stillFine side).2
      rw [setPeer_peer] at here
      cases here

theorem offered_snoc (side : Side) (ops : List Op) (op : Op) :
    offered side (ops ++ [op]) = offered side ops + op.offered side := by
  rw [offered, List.map_append, List.sum_append, List.map_singleton, List.sum_singleton]
  rfl

/-- In every run without an error there is a flow each way. -/
theorem attempt_joint {cfg : Side → TCPConfig} {random : Side → Wrap32} {ops : List Op}
    (ran : attempt step (start cfg random) ops = .ok connection)
    (small : ∀ side, offered side ops + 2 ^ 17 < 2 ^ 64) (fine : connection.Fine) :
    connection.Joint (fun side => (cfg side).fixedIsn.getD (random side))
      (fun side => offered side ops) ∧ connection.Unreset := by
  induction ops using List.reverseRecOn generalizing connection with
  | nil =>
      cases ran
      exact ⟨start_joint cfg random, fun _ _ inside => absurd inside List.not_mem_nil⟩
  | append_singleton ops op ih =>
      obtain ⟨middle, before, last⟩ := attempt_snoc_ok ran
      have stepped := stepped_of_step last
      have middleFine := Fine.of_stepped fine stepped
      simp only [offered_snoc] at small ⊢
      have earlier : ∀ side, offered side ops + 2 ^ 17 < 2 ^ 64 := by
        intro side
        have bound := small side
        omega
      obtain ⟨joint, unreset⟩ := ih before earlier middleFine
      exact joint.step unreset middleFine stepped small fine

/-! ### What is owed -/

theorem needSend_setPeer {side caller : Side} {peer : TCPPeer}
    (owes : (connection.peer side).needSend = true)
    (kept : (connection.peer caller).needSend = true → peer.needSend = true) :
    ((connection.setPeer caller peer).peer side).needSend = true := by
  rcases caller.eq_or_eq_other side with rfl | rfl
  · rw [setPeer_peer]
    exact kept owes
  · rw [setPeer_other]
    exact owes

/-- A peer that owes a segment owes it until it sends. -/
theorem owes_step {op : Op} {side : Side} (owes : (connection.peer side).needSend = true)
    (stepped : connection.Stepped op next) (other : op ≠ .maybeSend side) :
    (next.peer side).needSend = true := by
  cases stepped with
  | @call caller op own peer ran =>
      apply needSend_setPeer owes
      rw [(TCPPeer.step_own own ran).2]
      exact id
  | @maybeSend caller peer seg ran =>
      rw [setIncoming_peer]
      rcases caller.eq_or_eq_other side with rfl | rfl
      · exact absurd rfl other
      · rw [setPeer_other]
        exact owes
  | idle empty => exact owes
  | @deliver caller seg rest first =>
      rw [setIncoming_peer]
      exact needSend_setPeer owes fun here => TCPPeer.receive_needSend here seg
  | lose caller index => exact owes
  | failInbound caller => exact needSend_setPeer owes id
  | failOutbound caller => exact needSend_setPeer owes id

theorem owes_attempt {side : Side} {ops : List Op} (owes : (connection.peer side).needSend = true)
    (unsent : .maybeSend side ∉ ops) (ran : attempt step connection ops = .ok next) :
    (next.peer side).needSend = true := by
  induction ops using List.reverseRecOn generalizing next with
  | nil =>
      cases ran
      exact owes
  | append_singleton ops op ih =>
      obtain ⟨middle, before, last⟩ := attempt_snoc_ok ran
      rw [List.mem_append, not_or, List.mem_singleton] at unsent
      exact owes_step (ih unsent.1 before) (stepped_of_step last) (Ne.symm unsent.2)

/-- The next segment that a side sends, with the receiver message it then has, and with an
ackno after a SYN. -/
def Answers (connection : Connection) (side : Side) : Prop :=
  ∃ peer reply, (connection.peer side).maybeSend = .ok (peer, some reply) ∧
    reply.receiverMessage = (connection.peer side).receiverMessage ∧
    ((connection.peer side).receiver.synRcvd = true → reply.receiverMessage.ackno.isSome = true)

theorem answers_of_owes {side : Side} (owes : (connection.peer side).needSend = true) :
    connection.Answers side := by
  obtain ⟨peer, reply, sent, same⟩ := TCPPeer.maybeSend_of_needSend owes
  refine ⟨peer, reply, sent, same, ?_⟩
  intro seen
  rw [same, TCPPeer.receiverMessage, TCPReceiver.send]
  dsimp only
  rw [if_pos seen]
  rfl

/-- In every state without an error that two peers reach over ordered links: once a segment with
sequence numbers is received, the next call of `maybeSend`, after whatever happened in between,
returns a segment with the ackno of then; and a segment without sequence numbers never makes the
peer owe one. -/
theorem acknowledges_segments_only (cfg : Side → TCPConfig) (random : Side → Wrap32)
    (ops : List Op) (connection : Connection)
    (ran : attempt step (start cfg random) ops = .ok connection)
    (small : ∀ side, offered side ops + 2 ^ 17 < 2 ^ 64) (fine : connection.Fine)
    (side : Side) (seg : TCPSegment) (rest : List TCPSegment)
    (first : connection.incoming side = seg :: rest) :
    (0 < seg.senderMessage.sequenceLength → ∀ later final, .maybeSend side ∉ later →
      attempt step connection (.deliver side :: later) = .ok final → final.Answers side) ∧
    (seg.senderMessage.sequenceLength = 0 → (connection.peer side).needSend = false →
      ∀ next, connection.step (.deliver side) = .ok next →
        (next.peer side).needSend = false) := by
  obtain ⟨joint, unreset⟩ := attempt_joint ran small fine
  have working : (seg.reset || (connection.peer side).inboundStream.hasError) = false := by
    rw [unreset side seg (by rw [first]; exact List.mem_cons_self), (fine side).1]
    rfl
  have delivered : connection.step (.deliver side) = .ok
      ((connection.setPeer side ((connection.peer side).receive seg)).setIncoming side rest) := by
    rw [step, first]
  have needSend := TCPPeer.receive_of_working working
  refine ⟨?_, ?_⟩
  · intro positive later final unsent continued
    rw [attempt_cons, delivered] at continued
    refine answers_of_owes (owes_attempt ?_ unsent continued)
    rw [setIncoming_peer, setPeer_peer, needSend, decide_eq_true positive, Bool.or_true, Bool.true_or]
  · intro empty quiet next stepped
    cases delivered.symm.trans stepped
    have towards := joint.towards side
    rw [first] at towards
    rw [setIncoming_peer, setPeer_peer, needSend, quiet, empty,
      towards.not_keepsAlive (small side.other) empty]
    rfl

/-- The SYN of one side is on its way. -/
def synOnItsWay : List Op := [.call .left .push rfl, .maybeSend .left]

/-- It is answered, and the answer is acknowledged. -/
def ackOnItsWay : List Op :=
  synOnItsWay ++ [.deliver .right, .maybeSend .right, .deliver .left, .maybeSend .left]

/-- The SYN is to be answered, the acknowledgement is not. -/
theorem acknowledges_segments_only_syn :
    (∃ connection seg,
      attempt step (start (fun _ => { fixedIsn := some ⟨0⟩ }) (fun _ => ⟨0⟩)) synOnItsWay =
        .ok connection ∧
      connection.incoming .right = [seg] ∧
      ∀ final, attempt step connection [.deliver .right] = .ok final → final.Answers .right) ∧
    ∃ connection seg,
      attempt step (start (fun _ => { fixedIsn := some ⟨0⟩ }) (fun _ => ⟨0⟩)) ackOnItsWay =
        .ok connection ∧
      connection.incoming .right = [seg] ∧ seg.receiverMessage.ackno = some ⟨1⟩ ∧
      ∀ next, connection.step (.deliver .right) = .ok next →
        (next.peer .right).needSend = false := by
  refine ⟨⟨_, _, rfl, rfl, ?_⟩, ⟨_, _, rfl, rfl, rfl, ?_⟩⟩
  · intro final continued
    refine (acknowledges_segments_only (fun _ => { fixedIsn := some ⟨0⟩ }) (fun _ => ⟨0⟩)
      synOnItsWay _ rfl ?_ ?_ .right _ [] rfl).1 (by decide) [] final List.not_mem_nil continued
    · exact forall_side .left (by decide) (by decide)
    · exact forall_side .left ⟨rfl, rfl⟩ ⟨rfl, rfl⟩
  · refine (acknowledges_segments_only (fun _ => { fixedIsn := some ⟨0⟩ }) (fun _ => ⟨0⟩)
      ackOnItsWay _ rfl ?_ ?_ .right _ [] rfl).2 rfl rfl
    · exact forall_side .left (by decide) (by decide)
    · exact forall_side .left ⟨rfl, rfl⟩ ⟨rfl, rfl⟩

end Connection

end Minnow.Transport
