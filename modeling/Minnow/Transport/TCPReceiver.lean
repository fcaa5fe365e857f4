import Minnow.Stream.Reassembler
import Minnow.Transport.Messages

/-!
# The receiver
-/

namespace Minnow.Transport

open Foundation.Words Minnow.Stream

structure TCPReceiver where
  recvZeroPoint : Wrap32
  synRcvd : Bool
  finRcvd : Bool
  deriving DecidableEq

namespace TCPReceiver

def new : TCPReceiver := ⟨⟨0⟩, false, false⟩

def receive (receiver : TCPReceiver) (message : TCPSenderMessage) (reassembler : Reassembler)
    (inboundStream : ByteStream) : TCPReceiver × Reassembler × ByteStream :=
  let seen := { receiver with synRcvd := receiver.synRcvd || message.SYN }
  if seen.synRcvd = false then (seen, reassembler, inboundStream)
  else
    let zeroed :=
      { seen with
        finRcvd := seen.finRcvd || message.FIN
        recvZeroPoint := if message.SYN then message.seqno else seen.recvZeroPoint }
    let firstIndex :=
      add64 (sub64 (message.seqno.unwrap zeroed.recvZeroPoint inboundStream.bytesPushed) 1)
        message.SYN.toNat
    (zeroed, reassembler.insert firstIndex message.payload message.FIN inboundStream)

def send (receiver : TCPReceiver) (inboundStream : ByteStream) : TCPReceiverMessage where
  ackno :=
    if receiver.synRcvd then
      let bytesPushed := inboundStream.bytesPushed
      let absoluteAckno :=
        if inboundStream.isClosed then add64 bytesPushed 2 else add64 bytesPushed 1
      some (Wrap32.wrap absoluteAckno receiver.recvZeroPoint)
    else none
  windowSize :=
    if 0xFFFF < inboundStream.availableCapacity then 0xFFFF
    else UInt16.ofNat inboundStream.availableCapacity

/-- The stream index that a segment gives its payload. -/
def firstIndex (zeroPoint : Wrap32) (checkpoint : Nat) (message : TCPSenderMessage) : Nat :=
  add64 (sub64 (message.seqno.unwrap zeroPoint checkpoint) 1) message.SYN.toNat

theorem receive_before_syn {receiver : TCPReceiver} {message : TCPSenderMessage}
    (unseen : receiver.synRcvd = false) (plain : message.SYN = false) (reassembler : Reassembler)
    (inboundStream : ByteStream) :
    receiver.receive message reassembler inboundStream = (receiver, reassembler, inboundStream) := by
  cases receiver with
  | mk zeroPoint synRcvd finRcvd =>
      cases unseen
      unfold receive
      rw [plain]
      rfl

theorem receive_after_syn {receiver : TCPReceiver} {message : TCPSenderMessage}
    (seen : (receiver.synRcvd || message.SYN) = true) (reassembler : Reassembler)
    (inboundStream : ByteStream) :
    receiver.receive message reassembler inboundStream =
      (⟨if message.SYN then message.seqno else receiver.recvZeroPoint, true,
          receiver.finRcvd || message.FIN⟩,
        reassembler.insert
          (firstIndex (if message.SYN then message.seqno else receiver.recvZeroPoint)
            inboundStream.bytesPushed message)
          message.payload message.FIN inboundStream) := by
  unfold receive
  dsimp only
  rw [if_neg (by rw [seen]; exact Bool.noConfusion), seen]
  rfl

/-- The window sent is the free capacity, cut at 16 bits. -/
theorem send_windowSize (receiver : TCPReceiver) (inboundStream : ByteStream) :
    (receiver.send inboundStream).windowSize.toNat =
      min inboundStream.availableCapacity 0xFFFF := by
  unfold send
  dsimp only
  split_ifs with large
  · rw [Nat.min_eq_right (Nat.le_of_lt large)]
    rfl
  · rw [UInt16.toNat_ofNat', Nat.min_eq_left (Nat.not_lt.mp large)]
    exact Nat.mod_eq_of_lt (Nat.lt_succ_of_le (Nat.not_lt.mp large))

end TCPReceiver

end Minnow.Transport
