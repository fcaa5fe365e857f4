import Minnow.Foundation.OrderedMap
import Minnow.Stream.ByteStream
import Minnow.Transport.Messages

/-!
# The sender

Segments that are not acknowledged are kept in an ordered map under their absolute
sequence number; what is to be sent waits in a queue.
-/

namespace Minnow.Transport

open Foundation Foundation.Words Minnow.Stream

/-! ## Timer and timeout -/

structure RetransmissionTimer where
  timer : Nat
  timeout : Nat
  running : Bool
  deriving DecidableEq

namespace RetransmissionTimer

def new : RetransmissionTimer := ⟨0, 2 ^ 64 - 1, false⟩

def restart (msTimeout : Nat) : RetransmissionTimer := ⟨0, msTimeout, true⟩

def elapse (timer : RetransmissionTimer) (msTime : Nat) : RetransmissionTimer :=
  { timer with timer := if timer.running then add64 timer.timer msTime else timer.timer }

def stop : RetransmissionTimer := ⟨0, 2 ^ 64 - 1, false⟩

def isRunning (timer : RetransmissionTimer) : Bool := timer.running

def isTimeout (timer : RetransmissionTimer) : Bool :=
  timer.running && decide (timer.timeout ≤ timer.timer)

@[simp] theorem elapse_running (timer : RetransmissionTimer) (msTime : Nat) :
    (timer.elapse msTime).running = timer.running := rfl

end RetransmissionTimer

inductive RetransmissionEvent where
  | timeout
  | successfulReceipt
  deriving DecidableEq

structure RetransmissionTimeout where
  value : Nat
  initValue : Nat
  deriving DecidableEq

namespace RetransmissionTimeout

def new (initialRTO : UInt64) : RetransmissionTimeout := ⟨initialRTO.toNat, initialRTO.toNat⟩

def setTimeout (timeout : RetransmissionTimeout) : RetransmissionEvent → RetransmissionTimeout
  | .timeout => { timeout with value := add64 timeout.value timeout.value }
  | .successfulReceipt => { timeout with value := timeout.initValue }

end RetransmissionTimeout

/-! ## The sender's calls -/

structure TCPSender where
  outstandingMessages : OrderedMap Nat TCPSenderMessage
  sendQueue : List TCPSenderMessage
  sycPushed : Bool
  finPushed : Bool
  timer : Nat
  retransmissionTimer : RetransmissionTimer
  isn : Wrap32
  RTO : RetransmissionTimeout
  consecutiveRetransmissions : Nat
  windowLeft : Nat
  windowSize : Nat
  deriving DecidableEq

namespace TCPSender

/-- The initial sequence number is a parameter: the one given, or the random one drawn. -/
def new (initialRTO : UInt64) (isn : Wrap32) : TCPSender where
  outstandingMessages := OrderedMap.empty
  sendQueue := []
  sycPushed := false
  finPushed := false
  timer := 0
  retransmissionTimer := RetransmissionTimer.new
  isn := isn
  RTO := RetransmissionTimeout.new initialRTO
  consecutiveRetransmissions := 0
  windowLeft := 0
  windowSize := 1

def getAbsoluteSeqno (sender : TCPSender) : Nat :=
  match sender.outstandingMessages.entries.getLast? with
  | none => sender.windowLeft
  | some (start, message) => add64 start message.sequenceLength

def pushMessage (sender : TCPSender) (payload : List UInt8) (syn fin : Bool) : TCPSender :=
  let absoluteSeqno := sender.getAbsoluteSeqno
  let message : TCPSenderMessage :=
    { seqno := Wrap32.wrap absoluteSeqno sender.isn, payload := payload, SYN := syn, FIN := fin }
  { sender with
    outstandingMessages := sender.outstandingMessages.insert absoluteSeqno message
    sendQueue := sender.sendQueue ++ [message] }

def sequenceNumbersInFlight (sender : TCPSender) : Nat :=
  sub64 sender.getAbsoluteSeqno sender.windowLeft

def maybeSend (sender : TCPSender) : TCPSender × Option TCPSenderMessage :=
  match sender.sendQueue with
  | [] => (sender, none)
  | message :: rest =>
      let popped := { sender with sendQueue := rest }
      if popped.retransmissionTimer.isRunning = false then
        ({ popped with retransmissionTimer := RetransmissionTimer.restart popped.RTO.value },
          some message)
      else (popped, some message)

/-- Whether a segment with this payload ends the stream: it does not fill the window
and nothing is left to read. -/
def isFinMsg (sender : TCPSender) (windowRight : Nat) (payload : List UInt8)
    (outboundStream : ByteStream) : Bool :=
  decide (add64 payload.length sender.getAbsoluteSeqno < windowRight) && outboundStream.isFinished

/-- Full segments, while the window has room for one and there is something to send.
Every turn but the last takes a byte or sets the flag, so the fuel of `push` is enough. -/
def pushLoop (windowRight : Nat) :
    Nat → TCPSender → ByteStream → Except Fault (TCPSender × ByteStream)
  | 0, _, _ => .error .outOfFuel
  | fuel + 1, sender, outboundStream =>
      if sender.finPushed = false ∧
          add64 sender.getAbsoluteSeqno TCPConfig.maxPayloadSize ≤ windowRight then do
        let (outboundStream, payload) ← outboundStream.read TCPConfig.maxPayloadSize
        let isFin := sender.isFinMsg windowRight payload outboundStream
        if payload.isEmpty ∧ isFin = false then
          return (sender, outboundStream)
        else
          let marked := { sender with finPushed := sender.finPushed || isFin }
          pushLoop windowRight fuel (marked.pushMessage payload false isFin) outboundStream
      else
        return (sender, outboundStream)

/-- The segment that fills what is left of the window. -/
def pushRemainder (windowRight : Nat) (sender : TCPSender) (outboundStream : ByteStream) :
    Except Fault (TCPSender × ByteStream) :=
  if sender.finPushed = false ∧ sender.getAbsoluteSeqno < windowRight then do
    let (outboundStream, payload) ← outboundStream.read (sub64 windowRight sender.getAbsoluteSeqno)
    let isFin := sender.isFinMsg windowRight payload outboundStream
    if payload.isEmpty = false ∨ isFin = true then
      let marked := { sender with finPushed := sender.finPushed || isFin }
      return (marked.pushMessage payload false isFin, outboundStream)
    else
      return (sender, outboundStream)
  else
    return (sender, outboundStream)

def pushSyn (sender : TCPSender) (outboundStream : ByteStream) : TCPSender :=
  if sender.sycPushed = false then
    let marked := { sender with finPushed := outboundStream.isFinished, sycPushed := true }
    marked.pushMessage [] marked.sycPushed marked.finPushed
  else sender

def windowRight (sender : TCPSender) : Nat :=
  if sender.windowSize = 0 then add64 sender.windowLeft 1
  else add64 sender.windowLeft sender.windowSize

def push (sender : TCPSender) (outboundStream : ByteStream) :
    Except Fault (TCPSender × ByteStream) :=
  let opened := sender.pushSyn outboundStream
  if opened.finPushed = true then
    return (opened, outboundStream)
  else do
    let right := opened.windowRight
    let (full, outboundStream) ←
      pushLoop right (outboundStream.bytesBuffered + 2) opened outboundStream
    full.pushRemainder right outboundStream

def sendEmptyMessage (sender : TCPSender) : TCPSenderMessage :=
  { seqno := Wrap32.wrap sender.getAbsoluteSeqno sender.isn }

/-- Remove the leading segments that the ackno covers.  The list is what stands in the
map; the flag says whether one was removed. -/
def receiveLoop (absoluteAckno : Nat) :
    List (Nat × TCPSenderMessage) → TCPSender → Bool → TCPSender × Bool
  | [], sender, successful => (sender, successful)
  | (start, message) :: rest, sender, successful =>
      if absoluteAckno < add64 start message.sequenceLength ∨
          sender.getAbsoluteSeqno < absoluteAckno then
        (sender, successful)
      else
        receiveLoop absoluteAckno rest
          { sender with outstandingMessages := sender.outstandingMessages.eraseFirst } true

/-- What follows when the ackno covered a segment. -/
def acknowledged (sender : TCPSender) (absoluteAckno : Nat) : TCPSender :=
  let reset :=
    { sender with
      RTO := sender.RTO.setTimeout .successfulReceipt
      consecutiveRetransmissions := 0
      windowLeft := absoluteAckno }
  if reset.outstandingMessages.entries.isEmpty = false then
    { reset with retransmissionTimer := RetransmissionTimer.restart reset.RTO.value }
  else
    { reset with retransmissionTimer := RetransmissionTimer.stop }

def receive (sender : TCPSender) (message : TCPReceiverMessage) : TCPSender :=
  match message.ackno with
  | none => sender
  | some ackno =>
      let absoluteAckno := ackno.unwrap sender.isn sender.windowLeft
      let loop := receiveLoop absoluteAckno sender.outstandingMessages.entries sender false
      let updated := if loop.2 then loop.1.acknowledged absoluteAckno else loop.1
      { updated with windowSize := message.windowSize.toNat }

/-- The timeout doubles only while the receiver has a window. -/
def backOff (sender : TCPSender) : TCPSender :=
  if 0 < sender.windowSize then
    { sender with
      RTO := sender.RTO.setTimeout .timeout
      consecutiveRetransmissions := add64 sender.consecutiveRetransmissions 1 }
  else sender

/-- The call fails where the source reads the first outstanding segment and there is
none. -/
def tick (sender : TCPSender) (msSinceLastTick : Nat) : Except Fault TCPSender :=
  let ticked :=
    { sender with
      timer := add64 sender.timer msSinceLastTick
      retransmissionTimer := sender.retransmissionTimer.elapse msSinceLastTick }
  if ticked.retransmissionTimer.isTimeout then
    match ticked.outstandingMessages.entries with
    | [] => .error .endDereferenced
    | (_, earliest) :: _ =>
        let resent := { ticked with sendQueue := ticked.sendQueue ++ [earliest] }
        let backedOff := resent.backOff
        .ok { backedOff with retransmissionTimer := RetransmissionTimer.restart backedOff.RTO.value }
  else .ok ticked

end TCPSender

end Minnow.Transport
