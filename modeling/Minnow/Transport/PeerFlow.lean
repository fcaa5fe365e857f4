import Minnow.Transport.OrderedFlow
import Minnow.Transport.PeerCompletion

/-!
# The flow from one peer to another

The sending half of one peer and the receiving half of the other are the ends of a flow.
Whatever either peer does keeps it.
-/

namespace Minnow.Transport

open Foundation Foundation.Words Foundation.Runs Minnow.Stream Minnow.Wire

namespace TCPPeer

/-- The receiving half of the peer. -/
structure Hearing (receiving : Receiving) (peer : TCPPeer) : Prop where
  receiver : receiving.receiver = peer.receiver
  reassembler : receiving.assembly.reassembler = peer.reassembler
  inbound : receiving.assembly.output = peer.inboundStream

theorem Hearing.send {receiving : Receiving} {peer : TCPPeer} (hearing : Hearing receiving peer) :
    receiving.send = peer.receiverMessage := by
  rw [Receiving.send, hearing.receiver, hearing.inbound]
  rfl

/-- The peer's owner makes the call, and neither the network nor the loop that sends. -/
def Op.isOwn : Op → Bool
  | .receive _ => false
  | .maybeSend => false
  | _ => true

theorem Op.ne_receive_of_own {op : Op} (own : op.isOwn = true) : ∀ seg, op ≠ .receive seg := by
  rintro seg rfl
  cases own

/-- A flow from `source` to `sink`, with at most `total` bytes written. -/
def Flows (isn : Wrap32) (total : Nat) (source : TCPPeer) (outgoing : List TCPSegment)
    (sink : TCPPeer) (incoming : List TCPSegment) : Prop :=
  ∃ known session receiving, Records session source ∧ Hearing receiving sink ∧
    session.written.length ≤ total ∧
    Flow isn known session (outgoing.map TCPSegment.senderMessage) receiving
      (incoming.map TCPSegment.receiverMessage)

theorem new_flows (cfg other : TCPConfig) (random otherRandom : Wrap32) :
    Flows (cfg.fixedIsn.getD random) 0 (new cfg random) [] (new other otherRandom) [] :=
  ⟨[], Session.start cfg.sendCapacity cfg.rtTimeout.toUInt64 (cfg.fixedIsn.getD random),
    Receiving.start other.recvCapacity, ⟨rfl, rfl⟩, ⟨rfl, rfl, rfl⟩, Nat.le_refl 0,
    start_flow _ _ _ _⟩

theorem senderOps_of_own (peer : TCPPeer) {op : Op} (own : op.isOwn = true) :
    ∀ inner ∈ peer.senderOps op, inner ≠ .maybeSend ∧ ∀ message, inner ≠ .receive message := by
  intro inner inside
  cases op with
  | receive seg => cases own
  | maybeSend => cases own
  | read len => cases inside
  | _ =>
      cases List.mem_singleton.mp inside
      exact ⟨(fun same => nomatch same), fun _ same => nomatch same⟩

theorem Hearing.congr {receiving : Receiving} {peer next : TCPPeer}
    (hearing : Hearing receiving peer) (receiver : next.receiver = peer.receiver)
    (reassembler : next.reassembler = peer.reassembler)
    (inbound : next.inboundStream = peer.inboundStream) : Hearing receiving next :=
  ⟨hearing.receiver.trans receiver.symm, hearing.reassembler.trans reassembler.symm,
    hearing.inbound.trans inbound.symm⟩

namespace Flows

variable {isn : Wrap32} {total : Nat} {source sink next : TCPPeer} {outgoing incoming : List TCPSegment}

theorem lose (flows : Flows isn total source outgoing sink incoming) {fewer less : List TCPSegment}
    (outgoingKept : fewer.Sublist outgoing) (incomingKept : less.Sublist incoming) :
    Flows isn total source fewer sink less := by
  obtain ⟨known, session, receiving, records, hearing, written, flow⟩ := flows
  exact ⟨known, session, receiving, records, hearing, written,
    flow.lose (outgoingKept.map _) (incomingKept.map _)⟩

/-! ## The owner's calls -/

theorem sourceCall (flows : Flows isn total source outgoing sink incoming) {op : Op}
    (own : op.isOwn = true) (ran : source.step op = .ok next)
    (small : total + op.offered + 2 ^ 17 < 2 ^ 64) :
    Flows isn (total + op.offered) next outgoing sink incoming := by
  obtain ⟨known, session, receiving, records, hearing, written, flow⟩ := flows
  obtain ⟨later, done, still⟩ := records.step ran
  have more := Session.written_le_attempt done
  rw [senderOps_offered] at more
  have laterSmall : later.Small := by
    rw [Session.Small]
    omega
  exact ⟨known, later, receiving, still, hearing, by omega,
    flow.calls (source.senderOps_of_own own) laterSmall done⟩

theorem sinkCall (flows : Flows isn total source outgoing sink incoming) {op : Op}
    (own : op.isOwn = true) (ran : sink.step op = .ok next) :
    Flows isn total source outgoing next incoming := by
  obtain ⟨known, session, receiving, records, hearing, written, flow⟩ := flows
  obtain ⟨receiver, reassembler, same | ⟨len, read⟩⟩ := step_inbound ran (Op.ne_receive_of_own own)
  · exact ⟨known, session, receiving, records, hearing.congr receiver reassembler same, written, flow⟩
  · refine ⟨known, session, receiving.pop len, records, ⟨?_, ?_, ?_⟩, written, flow.pop len⟩
    · exact hearing.receiver.trans receiver.symm
    · exact hearing.reassembler.trans reassembler.symm
    · rw [read, ← hearing.inbound]
      rfl

/-! ## Sending -/

/-- Filling the queue keeps the flow. -/
theorem refill (flows : Flows isn total source outgoing sink incoming)
    (small : total + 2 ^ 17 < 2 ^ 64) (refilled : source.refill = .ok next) :
    Flows isn total next outgoing sink incoming := by
  rw [TCPPeer.refill] at refilled
  split at refilled
  · exact @sourceCall _ _ _ _ _ _ _ flows .push rfl refilled small
  · cases refilled
    exact flows

/-- The message that is sent comes from the queue, or is empty and the queue is too. -/
theorem senderMessage_cases (peer : TCPPeer) :
    (∃ message, peer.sender.maybeSend.2 = some message ∧ peer.senderMessage = some message) ∨
      (peer.sender.maybeSend = (peer.sender, none) ∧ peer.sender.sendQueue = [] ∧
        peer.senderMessage = if peer.needSend then some peer.sender.sendEmptyMessage else none) := by
  rw [senderMessage]
  cases queued : peer.sender.sendQueue with
  | nil =>
      rw [TCPSender.maybeSend_of_nil queued]
      exact Or.inr ⟨rfl, rfl, rfl⟩
  | cons message rest =>
      obtain ⟨timer, -, sends⟩ := TCPSender.maybeSend_of_cons queued
      rw [sends]
      exact Or.inl ⟨message, rfl, rfl⟩

theorem sourceSend (flows : Flows isn total source outgoing sink incoming)
    (small : total + 2 ^ 17 < 2 ^ 64) {seg : Option TCPSegment}
    (ran : source.maybeSend = .ok (next, seg)) :
    Flows isn total next (outgoing ++ seg.toList) sink incoming := by
  obtain ⟨pushed, refilled, rfl, rfl⟩ := maybeSend_ok ran
  obtain ⟨known, session, receiving, ⟨sender, outbound⟩, hearing, written, flow⟩ :=
    flows.refill small refilled
  obtain ⟨later, sent, senderLater, outboundLater, writtenLater⟩ :
      ∃ later, session.step .maybeSend = .ok later ∧
        later.sender = pushed.sender.maybeSend.1 ∧ later.outbound = pushed.outboundStream ∧
        later.written.length ≤ total :=
    ⟨_, rfl, congrArg (fun sender => sender.maybeSend.1) sender, outbound, written⟩
  have after := flow.send sent
  rw [sender] at after
  refine ⟨known, later, receiving, ⟨senderLater, outboundLater⟩, hearing, writtenLater, ?_⟩
  rw [List.map_append]
  rcases senderMessage_cases pushed with ⟨message, queued, sends⟩ | ⟨stays, idle, sends⟩
  · rw [queued] at after
    rw [sends]
    exact after
  · rw [stays] at after senderLater
    rw [Option.toList_none, List.append_nil] at after
    rw [sends]
    split
    · have probed := after.probe (Nat.lt_of_le_of_lt (Nat.add_le_add_right writtenLater _) small)
        (senderLater ▸ idle)
      rw [senderLater] at probed
      exact probed
    · rw [Option.map_none, Option.toList_none, List.map_nil, List.append_nil]
      exact after

theorem sinkSend (flows : Flows isn total source outgoing sink incoming) {seg : Option TCPSegment}
    (ran : sink.maybeSend = .ok (next, seg)) :
    Flows isn total source outgoing next (incoming ++ seg.toList) := by
  obtain ⟨pushed, refilled, rfl, rfl⟩ := maybeSend_ok ran
  obtain ⟨receiver, reassembler, inbound, -⟩ := refill_frame refilled
  obtain ⟨known, session, receiving, records, hearing, written, flow⟩ := flows
  refine ⟨known, session, receiving, records, hearing.congr receiver reassembler inbound, written, ?_⟩
  cases pushed.senderMessage with
  | none =>
      rw [Option.map_none, Option.toList_none, List.append_nil]
      exact flow
  | some message =>
      have replied := flow.reply
      rw [hearing.send] at replied
      rw [List.map_append]
      exact replied

/-! ## Receiving -/

theorem sourceReceive {seg : TCPSegment}
    (flows : Flows isn total source outgoing sink (seg :: incoming))
    (small : total + 2 ^ 17 < 2 ^ 64) (working : (seg.reset || source.inboundStream.hasError) = false) :
    Flows isn total (source.receive seg) outgoing sink incoming := by
  obtain ⟨known, session, receiving, records, hearing, written, flow⟩ := flows
  rw [TCPPeer.receive, if_neg (by rw [working]; exact Bool.false_ne_true)]
  obtain ⟨later, received, senderLater, outboundLater, writtenLater⟩ :
      ∃ later, session.step (.receive seg.receiverMessage) = .ok later ∧
        later.sender = source.sender.receive seg.receiverMessage ∧
        later.outbound = source.outboundStream ∧ later.written.length ≤ total :=
    ⟨_, rfl, congrArg (TCPSender.receive · seg.receiverMessage) records.sender, records.outbound,
      written⟩
  have acknowledged :=
    flow.ackno (Nat.lt_of_le_of_lt (Nat.add_le_add_right writtenLater _) small) received
  exact ⟨known, later, receiving, ⟨senderLater, outboundLater⟩, hearing, writtenLater, acknowledged⟩

theorem sinkReceive {seg : TCPSegment}
    (flows : Flows isn total source (seg :: outgoing) sink incoming)
    (small : total + 2 ^ 17 < 2 ^ 64) (working : (seg.reset || sink.inboundStream.hasError) = false) :
    Flows isn total source outgoing (sink.receive seg) incoming := by
  obtain ⟨known, session, receiving, records, hearing, written, flow⟩ := flows
  obtain ⟨heard, delivered⟩ :=
    flow.deliver (Nat.lt_of_le_of_lt (Nat.add_le_add_right written _) small)
  rw [TCPPeer.receive, if_neg (by rw [working]; exact Bool.false_ne_true)]
  refine ⟨heard, session, _, records, ⟨?_, ?_, ?_⟩, written, delivered⟩
  · rw [Receiving.receive, hearing.receiver, hearing.reassembler, hearing.inbound]
  · rw [Receiving.receive, hearing.receiver, hearing.reassembler, hearing.inbound]
  · rw [Receiving.receive, hearing.receiver, hearing.reassembler, hearing.inbound]

/-- No empty message on the link looks like a keep-alive. -/
theorem not_keepsAlive {seg : TCPSegment}
    (flows : Flows isn total source (seg :: outgoing) sink incoming)
    (small : total + 2 ^ 17 < 2 ^ 64) (empty : seg.senderMessage.sequenceLength = 0) :
    sink.keepsAlive seg.senderMessage = false := by
  obtain ⟨known, session, receiving, records, hearing, written, flow⟩ := flows
  rw [keepsAlive, ← hearing.send]
  cases carries : receiving.send.ackno with
  | none => rfl
  | some ackno =>
      have different := flow.not_keepAlive (Nat.lt_of_le_of_lt (Nat.add_le_add_right written _) small)
        empty carries
      exact decide_eq_false different

end Flows

end TCPPeer

end Minnow.Transport
