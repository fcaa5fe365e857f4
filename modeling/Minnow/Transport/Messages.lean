import Minnow.Transport.WrappingIntegers

/-!
# The messages between sender and receiver
-/

namespace Minnow.Transport

structure TCPSenderMessage where
  seqno : Wrap32 := ⟨0⟩
  SYN : Bool := false
  payload : List UInt8 := []
  FIN : Bool := false
  deriving DecidableEq, Repr

/-- How many sequence numbers the segment uses. -/
def TCPSenderMessage.sequenceLength (message : TCPSenderMessage) : Nat :=
  message.SYN.toNat + message.payload.length + message.FIN.toNat

structure TCPReceiverMessage where
  ackno : Option Wrap32 := none
  windowSize : UInt16 := 0
  deriving DecidableEq, Repr

namespace TCPConfig

def maxPayloadSize : Nat := 1000

end TCPConfig

end Minnow.Transport
