import Minnow.Socket.EventLoopReturns
import Minnow.Socket.TCPMinnowSocket

/-!
# Copying in both directions

What comes in on the standard input goes out through a socket, and what comes in through the socket
goes to the standard output.  Each direction has a byte stream, and a rule at either end of it.
-/

namespace Minnow.Socket

open Foundation Minnow.Stream

inductive Way where
  | outbound
  | inbound
  deriving DecidableEq

def Way.other : Way → Way
  | .outbound => .inbound
  | .inbound => .outbound

/-- What the kernel has for the calls of one turn. -/
structure CopyAnswers where
  read : Way → ReadAnswer
  write : Way → WriteAnswer
  finishFails : Way → Bool

/-- A stream, whether its end was passed on, and what was read into it and written from it. -/
structure Line where
  stream : ByteStream
  shutdown : Bool
  read : List UInt8
  written : List UInt8

namespace StreamCopy

inductive Fd where
  | socket
  | input
  | output
  deriving DecidableEq

def source : Way → Fd
  | .outbound => .input
  | .inbound => .socket

def sink : Way → Fd
  | .outbound => .socket
  | .inbound => .output

end StreamCopy

/-- The variables of `bidirectional_stream_copy`. -/
structure StreamCopy where
  fd : StreamCopy.Fd → FDWrapper
  line : Way → Line
  answers : CopyAnswers

namespace StreamCopy

def bufferSize : UInt64 := 1048576

/-- Nothing has been copied yet. -/
def new (socket : FDWrapper) (answers : CopyAnswers) : StreamCopy where
  fd
    | .socket => { socket with nonBlocking := true }
    | .input => .new true
    | .output => .new true
  line := fun _ => ⟨.new bufferSize, false, [], []⟩
  answers := answers

def setFd (copy : StreamCopy) (place : Fd) (fd : FDWrapper) : StreamCopy :=
  { copy with fd := Function.update copy.fd place fd }

def setLine (copy : StreamCopy) (way : Way) (line : Line) : StreamCopy :=
  { copy with line := Function.update copy.line way line }

/-! ## The rules -/

/-- Rules 1 and 3: read into a stream. -/
def readInto (way : Way) (copy : StreamCopy) : Except Fault StreamCopy := do
  let line := copy.line way
  let room := List.replicate line.stream.availableCapacity 0
  let (fd, data) ← (copy.fd (source way)).read room (copy.answers.read way)
  let pushed := line.stream.push data
  return (copy.setFd (source way) fd).setLine way { line with
    stream := if fd.eof then pushed.close else pushed
    read := line.read ++ TCPMinnowSocket.found (copy.answers.read way) }

/-- The part of rules 2 and 4 that writes what is buffered, as much as goes. -/
def drain (way : Way) (copy : StreamCopy) : Except Fault StreamCopy :=
  let line := copy.line way
  if line.stream.bytesBuffered = 0 then .ok copy
  else do
    let buffer := line.stream.peek
    let (fd, bytesWritten) ← (copy.fd (sink way)).write buffer (copy.answers.write way)
    return (copy.setFd (sink way) fd).setLine way { line with
      stream := line.stream.pop bytesWritten
      written := line.written ++ buffer.take bytesWritten }

/-- How the end is passed on: the socket is shut down for writing, the standard output is closed. -/
def finish (way : Way) (copy : StreamCopy) : Except Fault StreamCopy :=
  let line := copy.line way
  let fd := copy.fd (sink way)
  let done := copy.setLine way { line with shutdown := true }
  match way with
  | .outbound =>
      if copy.answers.finishFails way then throw (.thrown "shutdown")
      else return done.setFd (sink way) fd.registerWrite
  | .inbound =>
      if copy.answers.finishFails way then throw (.thrown "close")
      else return done.setFd (sink way) fd.close

/-- Rules 2 and 4: write from a stream. -/
def writeFrom (way : Way) (copy : StreamCopy) : Except Fault StreamCopy := do
  let copy ← copy.drain way
  if (copy.line way).stream.isFinished then copy.finish way
  else return copy

def closeStream (way : Way) (copy : StreamCopy) : StreamCopy :=
  let line := copy.line way
  copy.setLine way { line with stream := line.stream.close }

def status (place : Fd) (copy : StreamCopy) : FDWrapper := copy.fd place

/-- The categories in the order in which the rules are added. -/
def readCategory : Way → Nat
  | .outbound => 0
  | .inbound => 2

def writeCategory : Way → Nat
  | .outbound => 1
  | .inbound => 3

def readRule (way : Way) : FDRule Fd StreamCopy where
  categoryId := readCategory way
  fd := source way
  direction := .In
  callback := readInto way
  interest := fun copy => !(copy.line way).stream.hasError &&
    decide (0 < (copy.line way).stream.availableCapacity) && !(copy.line way.other).stream.hasError
  cancel := fun copy => .ok (copy.closeStream way)

def writeRule (way : Way) : FDRule Fd StreamCopy where
  categoryId := writeCategory way
  fd := sink way
  direction := .Out
  callback := writeFrom way
  interest := fun copy => decide ((copy.line way).stream.bytesBuffered ≠ 0) ||
    ((copy.line way).stream.isFinished && !(copy.line way).shutdown)
  cancel := fun copy => .ok (copy.closeStream way)

def eventLoop : EventLoop Fd StreamCopy where
  ruleCategories := ["read from stdin into outbound byte stream",
    "read from outbound byte stream into socket", "read from socket into inbound byte stream",
    "read from inbound byte stream into stdout"]
  fdRules := [readRule .outbound, writeRule .outbound, readRule .inbound, writeRule .inbound]
  nonFdRules := []

/-- The loop is the one that the source makes. -/
theorem eventLoop_added :
    (do
      let loop ← EventLoop.new.addNamedRule "read from stdin into outbound byte stream"
        (readRule .outbound)
      let loop ← loop.addNamedRule "read from outbound byte stream into socket" (writeRule .outbound)
      let loop ← loop.addNamedRule "read from socket into inbound byte stream" (readRule .inbound)
      loop.addNamedRule "read from inbound byte stream into stdout" (writeRule .inbound)) =
        (.ok eventLoop : Except Fault (EventLoop Fd StreamCopy)) := rfl

/-- One turn of the loop, and whether it was the last one. -/
def turn (loop : EventLoop Fd StreamCopy) (copy : StreamCopy) (answers : CopyAnswers)
    (poll : PollAnswer) : Except Fault (EventLoop Fd StreamCopy × StreamCopy × List Note × Bool) := do
  let (loop, copy, ret, notes) ← loop.waitNextEvent status poll { copy with answers }
  return (loop, copy, notes, ret = .Exit)

/-! ## What is changed -/

section Access

variable (copy : StreamCopy) (way : Way) (line : Line) (place : Fd) (fd : FDWrapper)

@[simp] theorem setFd_self : (copy.setFd place fd).fd place = fd := Function.update_self _ _ _

theorem setFd_of_ne {other : Fd} (differs : other ≠ place) :
    (copy.setFd place fd).fd other = copy.fd other :=
  Function.update_of_ne differs _ _

@[simp] theorem setFd_line : (copy.setFd place fd).line = copy.line := rfl

@[simp] theorem setFd_answers : (copy.setFd place fd).answers = copy.answers := rfl

@[simp] theorem setLine_self : (copy.setLine way line).line way = line := Function.update_self _ _ _

theorem setLine_of_ne {other : Way} (differs : other ≠ way) :
    (copy.setLine way line).line other = copy.line other :=
  Function.update_of_ne differs _ _

@[simp] theorem setLine_fd : (copy.setLine way line).fd = copy.fd := rfl

@[simp] theorem setLine_answers : (copy.setLine way line).answers = copy.answers := rfl

end Access

theorem mem_eventLoop {rule : FDRule Fd StreamCopy} (inside : rule ∈ eventLoop.fdRules) :
    ∃ way, rule = readRule way ∨ rule = writeRule way := by
  simp only [eventLoop, List.mem_cons, List.not_mem_nil, or_false] at inside
  rcases inside with rfl | rfl | rfl | rfl
  · exact ⟨.outbound, Or.inl rfl⟩
  · exact ⟨.outbound, Or.inr rfl⟩
  · exact ⟨.inbound, Or.inl rfl⟩
  · exact ⟨.inbound, Or.inr rfl⟩

theorem readRule_mem (way : Way) : readRule way ∈ eventLoop.fdRules := by
  cases way <;> simp [eventLoop]

theorem writeRule_mem (way : Way) : writeRule way ∈ eventLoop.fdRules := by
  cases way <;> simp [eventLoop]

theorem eventLoop_distinct : EventLoop.Distinct eventLoop.fdRules := by
  simp [EventLoop.Distinct, eventLoop, readRule, writeRule, readCategory, writeCategory]

theorem writeCategory_ne_readCategory (way other : Way) : writeCategory way ≠ readCategory other := by
  cases way <;> cases other <;> decide

theorem readCategory_injective : Function.Injective readCategory := by
  intro way other same
  cases way <;> cases other <;> first | rfl | cases same

theorem writeCategory_injective : Function.Injective writeCategory := by
  intro way other same
  cases way <;> cases other <;> first | rfl | cases same

end StreamCopy

end Minnow.Socket
