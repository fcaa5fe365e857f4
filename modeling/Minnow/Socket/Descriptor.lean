import Minnow.Foundation.Fault
import Minnow.Wire.FileDescriptor

/-!
# Descriptors of streams

What the wrapper of a descriptor keeps, and what its calls make of the answers of the kernel.
-/

namespace Minnow.Socket

open Wire

structure FDWrapper where
  eof : Bool
  closed : Bool
  nonBlocking : Bool
  readCount : UInt32
  writeCount : UInt32
  deriving DecidableEq

/-- The kernel reads these bytes, has none yet, or fails. -/
inductive ReadAnswer where
  | bytes (data : List UInt8)
  | again
  | failed
  deriving DecidableEq

/-- The kernel takes that many bytes, has no room for any, or fails. -/
inductive WriteAnswer where
  | count (bytesWritten : Nat)
  | again
  | failed

namespace FDWrapper

def new (nonBlocking : Bool) : FDWrapper := ⟨false, false, nonBlocking, 0, 0⟩

def registerRead (fd : FDWrapper) : FDWrapper := { fd with readCount := fd.readCount + 1 }

def registerWrite (fd : FDWrapper) : FDWrapper := { fd with writeCount := fd.writeCount + 1 }

/-- What is closed has come to its end. -/
def close (fd : FDWrapper) : FDWrapper := { fd with eof := true, closed := true }

/-- The buffer of a read: an empty one gets the full size. -/
def readBuffer (buffer : List UInt8) : List UInt8 :=
  if buffer.isEmpty then List.replicate FileDescriptor.kReadBufferSize 0 else buffer

/-- A read into a buffer.  When nothing is there yet, the buffer stays as long as it is. -/
def read (fd : FDWrapper) (buffer : List UInt8) :
    ReadAnswer → Except Fault (FDWrapper × List UInt8)
  | .failed => .error (.thrown "read")
  | .again =>
      if fd.nonBlocking then .ok (fd, readBuffer buffer) else .error (.thrown "read")
  | .bytes data =>
      if (readBuffer buffer).length < data.length then
        .error (.thrown "read() read more than requested")
      else
        .ok ({ fd.registerRead with eof := fd.eof || data.isEmpty }, data)

/-- `CheckSystemCall` for a `writev`. -/
def taken (fd : FDWrapper) : WriteAnswer → Except Fault Nat
  | .failed => .error (.thrown "writev")
  | .again => if fd.nonBlocking then .ok 0 else .error (.thrown "writev")
  | .count bytesWritten => .ok bytesWritten

/-- A write returns how much of the buffer was taken. -/
def write (fd : FDWrapper) (buffer : List UInt8) (answer : WriteAnswer) :
    Except Fault (FDWrapper × Nat) := do
  let bytesWritten ← fd.taken answer
  if bytesWritten = 0 ∧ buffer.isEmpty = false then
    throw (.thrown "write returned 0 given non-empty input buffer")
  else if buffer.length < bytesWritten then
    throw (.thrown "write wrote more than length of input buffer")
  else
    return (fd.registerWrite, bytesWritten)

/-- A count that goes on once or twice is another one. -/
theorem count_ne (count : UInt32) : count ≠ count + 1 ∧ count ≠ count + 1 + 1 := by
  constructor
  · simp
  · grind

variable {fd next : FDWrapper} {buffer found : List UInt8}

/-- A read that finds something, or the end, returns what the kernel read. -/
theorem read_bytes {data : List UInt8} (ran : fd.read buffer (.bytes data) = .ok (next, found)) :
    found = data ∧ next = { fd.registerRead with eof := fd.eof || data.isEmpty } ∧
      data.length ≤ (readBuffer buffer).length := by
  rw [read] at ran
  split at ran
  · cases ran
  · rename_i fits
    cases ran
    exact ⟨rfl, rfl, Nat.not_lt.mp fits⟩

theorem readBuffer_of_ne_nil (some : buffer ≠ []) : readBuffer buffer = buffer := by
  rw [readBuffer, if_neg (by simpa using some)]

theorem write_ok {answer : WriteAnswer} {bytesWritten : Nat}
    (ran : fd.write buffer answer = .ok (next, bytesWritten)) :
    next = fd.registerWrite ∧ bytesWritten ≤ buffer.length ∧
      (buffer ≠ [] → 0 < bytesWritten) := by
  obtain ⟨count, -, ran⟩ := Fault.bind_eq_ok.mp ran
  split at ran
  · cases ran
  · rename_i moved
    split at ran
    · cases ran
    · rename_i fits
      cases ran
      refine ⟨rfl, Nat.not_lt.mp fits, fun some => Nat.pos_of_ne_zero fun none => moved ⟨none, ?_⟩⟩
      simpa using some

end FDWrapper

end Minnow.Socket
