import Mathlib.Logic.Function.Basic
import Minnow.Transport.PeerFlow

/-!
# Two peers and the links between them

Both owners make their calls, both peers send onto their link, and the links lose segments
but neither reorder nor duplicate them.
-/

namespace Minnow.Transport

open Foundation Foundation.Words Foundation.Runs Minnow.Stream Minnow.Wire

inductive Side where
  | left
  | right
  deriving DecidableEq

namespace Side

def other : Side → Side
  | .left => .right
  | .right => .left

@[simp] theorem other_other (side : Side) : side.other.other = side := by
  cases side with
  | left => rfl
  | right => rfl

theorem other_ne (side : Side) : side.other ≠ side := by
  cases side with
  | left => exact Side.noConfusion
  | right => exact Side.noConfusion

theorem eq_or_eq_other (side third : Side) : third = side ∨ third = side.other := by
  cases side with
  | left =>
      cases third with
      | left => exact Or.inl rfl
      | right => exact Or.inr rfl
  | right =>
      cases third with
      | left => exact Or.inr rfl
      | right => exact Or.inl rfl

end Side

/-- The peers, and the segments on their way to each of them. -/
structure Connection where
  peer : Side → TCPPeer
  incoming : Side → List TCPSegment

namespace Connection

def start (cfg : Side → TCPConfig) (random : Side → Wrap32) : Connection where
  peer := fun side => TCPPeer.new (cfg side) (random side)
  incoming := fun _ => []

/-- An owner's call, a peer sending, the first segment on a link delivered, one lost, and an
error signalled on a stream. -/
inductive Op where
  | call (side : Side) (op : TCPPeer.Op) (own : op.isOwn = true)
  | maybeSend (side : Side)
  | deliver (side : Side)
  | lose (side : Side) (index : Nat)
  | failInbound (side : Side)
  | failOutbound (side : Side)

def setPeer (connection : Connection) (side : Side) (peer : TCPPeer) : Connection :=
  { connection with peer := Function.update connection.peer side peer }

def setIncoming (connection : Connection) (side : Side) (segments : List TCPSegment) : Connection :=
  { connection with incoming := Function.update connection.incoming side segments }

def step (connection : Connection) : Op → Except Fault Connection
  | .call side op _ => do
      return connection.setPeer side (← (connection.peer side).step op)
  | .maybeSend side => do
      let (peer, seg) ← (connection.peer side).maybeSend
      return (connection.setPeer side peer).setIncoming side.other
        (connection.incoming side.other ++ seg.toList)
  | .deliver side =>
      match connection.incoming side with
      | [] => .ok connection
      | seg :: rest =>
          .ok ((connection.setPeer side ((connection.peer side).receive seg)).setIncoming side rest)
  | .lose side index =>
      .ok (connection.setIncoming side ((connection.incoming side).eraseIdx index))
  | .failInbound side =>
      .ok (connection.setPeer side { connection.peer side with
        inboundStream := (connection.peer side).inboundStream.setError })
  | .failOutbound side =>
      .ok (connection.setPeer side { connection.peer side with
        outboundStream := (connection.peer side).outboundStream.setError })

section Access

variable (connection : Connection) (side : Side)

@[simp] theorem setPeer_peer (peer : TCPPeer) : (connection.setPeer side peer).peer side = peer :=
  Function.update_self _ _ _

@[simp] theorem setPeer_other (peer : TCPPeer) :
    (connection.setPeer side peer).peer side.other = connection.peer side.other :=
  Function.update_of_ne side.other_ne _ _

@[simp] theorem setPeer_incoming (peer : TCPPeer) :
    (connection.setPeer side peer).incoming = connection.incoming := rfl

@[simp] theorem setIncoming_incoming (segments : List TCPSegment) :
    (connection.setIncoming side segments).incoming side = segments :=
  Function.update_self _ _ _

@[simp] theorem setIncoming_other (segments : List TCPSegment) :
    (connection.setIncoming side segments).incoming side.other = connection.incoming side.other :=
  Function.update_of_ne side.other_ne _ _

@[simp] theorem setIncoming_other_incoming (segments : List TCPSegment) :
    (connection.setIncoming side.other segments).incoming side = connection.incoming side :=
  Function.update_of_ne side.other_ne.symm _ _

@[simp] theorem setIncoming_peer (segments : List TCPSegment) :
    (connection.setIncoming side segments).peer = connection.peer := rfl

end Access

/-- No stream has an error. -/
def Fine (connection : Connection) : Prop :=
  ∀ side, (connection.peer side).inboundStream.hasError = false ∧
    (connection.peer side).outboundStream.hasError = false

/-- Everything a step can do. -/
inductive Stepped (connection : Connection) : Op → Connection → Prop
  | call {side : Side} {op : TCPPeer.Op} (own : op.isOwn = true) {peer : TCPPeer}
      (ran : (connection.peer side).step op = .ok peer) :
      Stepped connection (.call side op own) (connection.setPeer side peer)
  | maybeSend {side : Side} {peer : TCPPeer} {seg : Option TCPSegment}
      (ran : (connection.peer side).maybeSend = .ok (peer, seg)) :
      Stepped connection (.maybeSend side)
        ((connection.setPeer side peer).setIncoming side.other
          (connection.incoming side.other ++ seg.toList))
  | idle {side : Side} (empty : connection.incoming side = []) :
      Stepped connection (.deliver side) connection
  | deliver {side : Side} {seg : TCPSegment} {rest : List TCPSegment}
      (first : connection.incoming side = seg :: rest) :
      Stepped connection (.deliver side)
        ((connection.setPeer side ((connection.peer side).receive seg)).setIncoming side rest)
  | lose (side : Side) (index : Nat) :
      Stepped connection (.lose side index)
        (connection.setIncoming side ((connection.incoming side).eraseIdx index))
  | failInbound (side : Side) :
      Stepped connection (.failInbound side)
        (connection.setPeer side { connection.peer side with
          inboundStream := (connection.peer side).inboundStream.setError })
  | failOutbound (side : Side) :
      Stepped connection (.failOutbound side)
        (connection.setPeer side { connection.peer side with
          outboundStream := (connection.peer side).outboundStream.setError })

theorem stepped_of_step {connection next : Connection} {op : Op}
    (ran : connection.step op = .ok next) : connection.Stepped op next := by
  cases op with
  | call side op own =>
      obtain ⟨peer, called, ⟨⟩⟩ := Fault.bind_eq_ok.mp ran
      exact .call own called
  | maybeSend side =>
      obtain ⟨⟨peer, seg⟩, sent, ⟨⟩⟩ := Fault.bind_eq_ok.mp ran
      exact .maybeSend sent
  | deliver side =>
      rw [step] at ran
      split at ran
      case h_1 empty =>
          cases ran
          exact .idle empty
      case h_2 seg rest first =>
          cases ran
          exact .deliver first
  | lose side index =>
      cases ran
      exact .lose side index
  | failInbound side =>
      cases ran
      exact .failInbound side
  | failOutbound side =>
      cases ran
      exact .failOutbound side

end Connection

end Minnow.Transport
