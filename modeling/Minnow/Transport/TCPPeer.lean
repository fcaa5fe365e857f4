import Minnow.Transport.SenderAccount
import Minnow.Transport.TCPReceiver
import Minnow.Wire.TCPSegment

/-!
# One end of a connection

A peer is a sender, a receiver with its reassembler, and the two streams.
-/

namespace Minnow.Transport

open Foundation Foundation.Words Foundation.Runs Minnow.Stream Minnow.Wire

namespace TCPConfig

def DEFAULT_CAPACITY : UInt64 := 64000

def TIMEOUT_DFLT : UInt16 := 1000

end TCPConfig

structure TCPConfig where
  rtTimeout : UInt16 := TCPConfig.TIMEOUT_DFLT
  recvCapacity : UInt64 := TCPConfig.DEFAULT_CAPACITY
  sendCapacity : UInt64 := TCPConfig.DEFAULT_CAPACITY
  fixedIsn : Option Wrap32 := none
  deriving DecidableEq

structure TCPPeer where
  sender : TCPSender
  receiver : TCPReceiver
  reassembler : Reassembler
  outboundStream : ByteStream
  inboundStream : ByteStream
  needSend : Bool
  deriving DecidableEq

namespace TCPPeer

/-- The sender draws a random number where the configuration fixes none. -/
def new (cfg : TCPConfig) (random : Wrap32) : TCPPeer where
  sender := TCPSender.new cfg.rtTimeout.toUInt64 (cfg.fixedIsn.getD random)
  receiver := TCPReceiver.new
  reassembler := Reassembler.new
  outboundStream := ByteStream.new cfg.sendCapacity
  inboundStream := ByteStream.new cfg.recvCapacity
  needSend := false

def push (peer : TCPPeer) : Except Fault TCPPeer := do
  let (sender, outboundStream) ← peer.sender.push peer.outboundStream
  return { peer with sender, outboundStream }

def tick (peer : TCPPeer) (msSinceLastTick : Nat) : Except Fault TCPPeer := do
  return { peer with sender := ← peer.sender.tick msSinceLastTick }

/-- What the receiver would tell the other end now. -/
def receiverMessage (peer : TCPPeer) : TCPReceiverMessage := peer.receiver.send peer.inboundStream

def active (peer : TCPPeer) : Bool :=
  if peer.inboundStream.hasError then false
  else
    !peer.outboundStream.isFinished || !peer.inboundStream.isClosed ||
      peer.sender.sequenceNumbersInFlight != 0

/-- A segment whose seqno comes right before the ackno is a keep-alive. -/
def keepsAlive (peer : TCPPeer) (message : TCPSenderMessage) : Bool :=
  match peer.receiverMessage.ackno with
  | none => false
  | some ourAckno => message.seqno + (1 : UInt32) == ourAckno

def receive (peer : TCPPeer) (seg : TCPSegment) : TCPPeer :=
  if seg.reset || peer.inboundStream.hasError then
    { peer with inboundStream := peer.inboundStream.setError }
  else
    let received :=
      peer.receiver.receive seg.senderMessage peer.reassembler peer.inboundStream
    { sender := peer.sender.receive seg.receiverMessage
      receiver := received.1
      reassembler := received.2.1
      outboundStream := peer.outboundStream
      inboundStream := received.2.2
      needSend := peer.needSend || decide (0 < seg.senderMessage.sequenceLength) ||
        peer.keepsAlive seg.senderMessage }

/-- The push that comes before sending, once the other end's SYN is there. -/
def refill (peer : TCPPeer) : Except Fault TCPPeer :=
  if peer.receiverMessage.ackno.isSome then peer.push else .ok peer

/-- The message that the sender has, or an empty one if there is something to reply to. -/
def senderMessage (peer : TCPPeer) : Option TCPSenderMessage :=
  match peer.sender.maybeSend.2 with
  | some message => some message
  | none => if peer.needSend then some peer.sender.maybeSend.1.sendEmptyMessage else none

def maybeSend (peer : TCPPeer) : Except Fault (TCPPeer × Option TCPSegment) := do
  let receiverMessage := peer.receiverMessage
  let pushed ← peer.refill
  let reset := pushed.outboundStream.hasError || pushed.inboundStream.hasError
  return ({ pushed with sender := pushed.sender.maybeSend.1, needSend := false },
    pushed.senderMessage.map fun senderMessage => { senderMessage, receiverMessage, reset })

/-- What the owner and the network do with a peer. -/
inductive Op where
  | write (data : List UInt8)
  | close
  | push
  | tick (msSinceLastTick : Nat)
  | receive (seg : TCPSegment)
  | maybeSend
  | read (len : Nat)
  deriving DecidableEq

def step (peer : TCPPeer) : Op → Except Fault TCPPeer
  | .write data => .ok { peer with outboundStream := peer.outboundStream.push data }
  | .close => .ok { peer with outboundStream := peer.outboundStream.close }
  | .push => peer.push
  | .tick msSinceLastTick => peer.tick msSinceLastTick
  | .receive seg => .ok (peer.receive seg)
  | .maybeSend => Prod.fst <$> peer.maybeSend
  | .read len => .ok { peer with inboundStream := peer.inboundStream.pop len }

theorem push_ok {peer next : TCPPeer} (ran : peer.push = .ok next) :
    ∃ sender outboundStream, peer.sender.push peer.outboundStream = .ok (sender, outboundStream) ∧
      next = { peer with sender, outboundStream } := by
  obtain ⟨⟨sender, outboundStream⟩, pushed, ⟨⟩⟩ := Fault.bind_eq_ok.mp ran
  exact ⟨sender, outboundStream, pushed, rfl⟩

/-- A push always returns. -/
theorem push_returns (peer : TCPPeer) : ∃ next, peer.push = .ok next := by
  obtain ⟨segments, last, rest, ran, emits⟩ := peer.sender.push_spec peer.outboundStream
  exact ⟨_, Fault.bind_eq_ok.mpr ⟨_, ran, rfl⟩⟩

theorem refill_returns (peer : TCPPeer) : ∃ pushed, peer.refill = .ok pushed := by
  rw [refill]
  split
  · exact peer.push_returns
  · exact ⟨peer, rfl⟩

/-- Filling the queue leaves everything but the sender and its stream as it is. -/
theorem refill_frame {peer pushed : TCPPeer} (refilled : peer.refill = .ok pushed) :
    pushed.receiver = peer.receiver ∧ pushed.reassembler = peer.reassembler ∧
      pushed.inboundStream = peer.inboundStream ∧ pushed.needSend = peer.needSend := by
  rw [refill] at refilled
  split at refilled
  · obtain ⟨sender, outboundStream, -, rfl⟩ := push_ok refilled
    exact ⟨rfl, rfl, rfl, rfl⟩
  · cases refilled
    exact ⟨rfl, rfl, rfl, rfl⟩

theorem maybeSend_returns (peer : TCPPeer) : ∃ next out, peer.maybeSend = .ok (next, out) := by
  obtain ⟨pushed, refilled⟩ := peer.refill_returns
  exact ⟨_, _, Fault.bind_eq_ok.mpr ⟨pushed, refilled, rfl⟩⟩

theorem maybeSend_ok {peer next : TCPPeer} {out : Option TCPSegment}
    (ran : peer.maybeSend = .ok (next, out)) :
    ∃ pushed, peer.refill = .ok pushed ∧
      next = { pushed with sender := pushed.sender.maybeSend.1, needSend := false } ∧
      out = pushed.senderMessage.map fun senderMessage =>
        { senderMessage, receiverMessage := peer.receiverMessage,
          reset := pushed.outboundStream.hasError || pushed.inboundStream.hasError } := by
  obtain ⟨pushed, refilled, ⟨⟩⟩ := Fault.bind_eq_ok.mp ran
  exact ⟨pushed, refilled, rfl, rfl⟩

/-- Every call that brings no segment leaves the receiving half, or reads from it. -/
theorem step_inbound {peer next : TCPPeer} {op : Op} (ran : peer.step op = .ok next)
    (other : ∀ seg, op ≠ .receive seg) :
    next.receiver = peer.receiver ∧ next.reassembler = peer.reassembler ∧
      (next.inboundStream = peer.inboundStream ∨
        ∃ len, next.inboundStream = peer.inboundStream.pop len) := by
  cases op with
  | push =>
      obtain ⟨sender, outboundStream, -, rfl⟩ := push_ok ran
      exact ⟨rfl, rfl, Or.inl rfl⟩
  | tick msSinceLastTick =>
      obtain ⟨sender, -, ⟨⟩⟩ := Fault.bind_eq_ok.mp ran
      exact ⟨rfl, rfl, Or.inl rfl⟩
  | receive seg => exact absurd rfl (other seg)
  | maybeSend =>
      obtain ⟨⟨_, out⟩, sent, ⟨⟩⟩ := Fault.map_eq_ok.mp ran
      obtain ⟨pushed, refilled, rfl, -⟩ := maybeSend_ok sent
      obtain ⟨receiver, reassembler, inbound, -⟩ := refill_frame refilled
      exact ⟨receiver, reassembler, Or.inl inbound⟩
  | read len =>
      cases ran
      exact ⟨rfl, rfl, Or.inr ⟨len, rfl⟩⟩
  | _ =>
      cases ran
      exact ⟨rfl, rfl, Or.inl rfl⟩

/-! ## The sender's part of a step -/

/-- The session is about the sender and the outbound stream of the peer. -/
structure Records (session : Session) (peer : TCPPeer) : Prop where
  sender : session.sender = peer.sender
  outbound : session.outbound = peer.outboundStream

/-- What the sender and its stream do in a step. -/
def senderOps (peer : TCPPeer) : Op → List Session.Op
  | .write data => [.write data]
  | .close => [.close]
  | .push => [.push]
  | .tick msSinceLastTick => [.tick msSinceLastTick]
  | .receive seg =>
      if seg.reset || peer.inboundStream.hasError then [] else [.receive seg.receiverMessage]
  | .maybeSend => if peer.receiverMessage.ackno.isSome then [.push, .maybeSend] else [.maybeSend]
  | .read _ => []

theorem Records.push {session : Session} {peer next : TCPPeer} (records : Records session peer)
    (ran : peer.push = .ok next) :
    ∃ later, session.step .push = .ok later ∧ Records later next := by
  obtain ⟨sender, outboundStream, pushed, rfl⟩ := push_ok ran
  rw [← records.sender, ← records.outbound] at pushed
  exact ⟨_, Fault.bind_eq_ok.mpr ⟨_, pushed, rfl⟩, rfl, rfl⟩

theorem attempt_single {session later : Session} {op : Session.Op}
    (ran : session.step op = .ok later) : attempt Session.step session [op] = .ok later :=
  attempt_snoc_of_ok (attempt_nil Session.step session) ran

/-- A step of the peer is a run of its sender's session. -/
theorem Records.step {session : Session} {peer next : TCPPeer} {op : Op}
    (records : Records session peer) (ran : peer.step op = .ok next) :
    ∃ later, attempt Session.step session (peer.senderOps op) = .ok later ∧
      Records later next := by
  cases op with
  | write data =>
      cases ran
      exact ⟨_, attempt_single rfl, records.sender, congrArg (ByteStream.push · data) records.outbound⟩
  | close =>
      cases ran
      exact ⟨_, attempt_single rfl, records.sender, congrArg ByteStream.close records.outbound⟩
  | push =>
      obtain ⟨later, pushed, still⟩ := records.push ran
      exact ⟨later, attempt_single pushed, still⟩
  | tick msSinceLastTick =>
      obtain ⟨sender, ticked, ⟨⟩⟩ := Fault.bind_eq_ok.mp ran
      rw [← records.sender] at ticked
      exact ⟨_, attempt_single (Fault.bind_eq_ok.mpr ⟨_, ticked, rfl⟩), rfl, records.outbound⟩
  | receive seg =>
      cases ran
      rw [receive, senderOps]
      split
      · exact ⟨session, rfl, records.sender, records.outbound⟩
      · refine ⟨_, attempt_single rfl, ?_, records.outbound⟩
        exact congrArg (TCPSender.receive · seg.receiverMessage) records.sender
  | maybeSend =>
      obtain ⟨⟨_, out⟩, sent, ⟨⟩⟩ := Fault.map_eq_ok.mp ran
      obtain ⟨pushed, refilled, rfl, -⟩ := maybeSend_ok sent
      rw [refill] at refilled
      rw [senderOps]
      split at refilled
      case isTrue known =>
          obtain ⟨middle, pushedSession, between⟩ := records.push refilled
          rw [if_pos known]
          refine ⟨_, attempt_snoc_of_ok (attempt_single pushedSession) rfl, ?_, between.outbound⟩
          exact congrArg (fun sender => sender.maybeSend.1) between.sender
      case isFalse unknown =>
          cases refilled
          rw [if_neg unknown]
          refine ⟨_, attempt_single rfl, ?_, records.outbound⟩
          exact congrArg (fun sender => sender.maybeSend.1) records.sender
  | read len =>
      cases ran
      exact ⟨session, rfl, records.sender, records.outbound⟩

end TCPPeer

end Minnow.Transport
