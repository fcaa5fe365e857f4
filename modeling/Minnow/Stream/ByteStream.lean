import Minnow.Foundation.Fault
import Minnow.Foundation.Words
import Mathlib.Data.List.Basic

/-!
# The byte stream

A bounded queue of bytes with a writing and a reading side.  `Writer` and
`Reader` are views of the one object in the source, so their operations are
operations of `ByteStream` here.  The capacity is a 64-bit word; the counters are
kept below `2 ^ 64` and the buffer below the capacity by fields.
-/

namespace Minnow.Stream

open Foundation.Words

structure ByteStream where
  buffer : List UInt8
  capacity : UInt64
  bytesPushed : Nat
  bytesPopped : Nat
  isClose : Bool
  error : Bool
  buffer_le : buffer.length ≤ capacity.toNat
  bytesPushed_lt : bytesPushed < 2 ^ 64
  bytesPopped_lt : bytesPopped < 2 ^ 64
  deriving DecidableEq

namespace ByteStream

def new (capacity : UInt64) : ByteStream where
  buffer := []
  capacity := capacity
  bytesPushed := 0
  bytesPopped := 0
  isClose := false
  error := false
  buffer_le := Nat.zero_le _
  bytesPushed_lt := by decide
  bytesPopped_lt := by decide

def setError (stream : ByteStream) : ByteStream := { stream with error := true }

def hasError (stream : ByteStream) : Bool := stream.error

/-! ## Writer -/

def availableCapacity (stream : ByteStream) : Nat := stream.capacity.toNat - stream.buffer.length

/-- The part of the data that `push` accepts. -/
def accepted (stream : ByteStream) (data : List UInt8) : List UInt8 :=
  data.take (min data.length stream.availableCapacity)

theorem accepted_length (stream : ByteStream) (data : List UInt8) :
    (stream.accepted data).length = min data.length stream.availableCapacity := by
  rw [accepted, List.length_take]
  omega

theorem accepted_length_le (stream : ByteStream) (data : List UInt8) :
    (stream.accepted data).length ≤ stream.availableCapacity := by
  rw [accepted_length]
  exact Nat.min_le_right _ _

/-- The closed flag is not looked at. -/
def push (stream : ByteStream) (data : List UInt8) : ByteStream where
  buffer := stream.buffer ++ stream.accepted data
  capacity := stream.capacity
  bytesPushed := add64 stream.bytesPushed (stream.accepted data).length
  bytesPopped := stream.bytesPopped
  isClose := stream.isClose
  error := stream.error
  buffer_le := by
    have bound := stream.accepted_length_le data
    have fits := stream.buffer_le
    unfold availableCapacity at bound
    rw [List.length_append]
    omega
  bytesPushed_lt := add64_lt _ _
  bytesPopped_lt := stream.bytesPopped_lt

def close (stream : ByteStream) : ByteStream := { stream with isClose := true }

def isClosed (stream : ByteStream) : Bool := stream.isClose

/-! ## Reader -/

def peek (stream : ByteStream) : List UInt8 := stream.buffer

def bytesBuffered (stream : ByteStream) : Nat := stream.buffer.length

def pop (stream : ByteStream) (len : Nat) : ByteStream where
  buffer := stream.buffer.drop (min len stream.bytesBuffered)
  capacity := stream.capacity
  bytesPushed := stream.bytesPushed
  bytesPopped := add64 stream.bytesPopped (min len stream.bytesBuffered)
  isClose := stream.isClose
  error := stream.error
  buffer_le := by
    have fits := stream.buffer_le
    rw [List.length_drop]
    omega
  bytesPushed_lt := stream.bytesPushed_lt
  bytesPopped_lt := add64_lt _ _

def isFinished (stream : ByteStream) : Bool := stream.isClose && stream.buffer.isEmpty

/-- The loop of `read`: the reader, the bytes taken so far and how many are wanted.
Every turn pops at least one byte, so the number buffered bounds the turns. -/
def readLoop (len : Nat) : Nat → ByteStream → List UInt8 → Except Fault (ByteStream × List UInt8)
  | 0, _, _ => .error .outOfFuel
  | fuel + 1, reader, out =>
      if reader.bytesBuffered ≠ 0 ∧ out.length < len then
        let view := reader.peek
        if view.isEmpty then
          .error (.thrown "Reader::peek() returned empty string_view")
        else
          let view := view.take (len - out.length)
          readLoop len fuel (reader.pop view.length) (out ++ view)
      else
        .ok (reader, out)

def read (reader : ByteStream) (len : Nat) : Except Fault (ByteStream × List UInt8) :=
  readLoop len (reader.bytesBuffered + 1) reader []

/-! ## What the operations change -/

@[simp] theorem push_capacity (stream : ByteStream) (data : List UInt8) :
    (stream.push data).capacity = stream.capacity := rfl

@[simp] theorem push_isClose (stream : ByteStream) (data : List UInt8) :
    (stream.push data).isClose = stream.isClose := rfl

@[simp] theorem push_bytesPopped (stream : ByteStream) (data : List UInt8) :
    (stream.push data).bytesPopped = stream.bytesPopped := rfl

@[simp] theorem push_buffer (stream : ByteStream) (data : List UInt8) :
    (stream.push data).buffer = stream.buffer ++ stream.accepted data := rfl

theorem push_bytesPushed (stream : ByteStream) {data : List UInt8}
    (fits : stream.bytesPushed + (stream.accepted data).length < 2 ^ 64) :
    (stream.push data).bytesPushed = stream.bytesPushed + (stream.accepted data).length :=
  add64_of_lt fits

theorem push_availableCapacity (stream : ByteStream) (data : List UInt8) :
    (stream.push data).availableCapacity =
      stream.availableCapacity - (stream.accepted data).length := by
  rw [availableCapacity, push_capacity, push_buffer, List.length_append, Nat.sub_add_eq]
  rfl

@[simp] theorem close_buffer (stream : ByteStream) : stream.close.buffer = stream.buffer := rfl

@[simp] theorem close_capacity (stream : ByteStream) : stream.close.capacity = stream.capacity := rfl

@[simp] theorem close_bytesPushed (stream : ByteStream) :
    stream.close.bytesPushed = stream.bytesPushed := rfl

@[simp] theorem close_bytesPopped (stream : ByteStream) :
    stream.close.bytesPopped = stream.bytesPopped := rfl

@[simp] theorem close_isClose (stream : ByteStream) : stream.close.isClose = true := rfl

@[simp] theorem pop_capacity (stream : ByteStream) (len : Nat) :
    (stream.pop len).capacity = stream.capacity := rfl

@[simp] theorem pop_isClose (stream : ByteStream) (len : Nat) :
    (stream.pop len).isClose = stream.isClose := rfl

@[simp] theorem pop_bytesPushed (stream : ByteStream) (len : Nat) :
    (stream.pop len).bytesPushed = stream.bytesPushed := rfl

theorem pop_buffer (stream : ByteStream) (len : Nat) :
    (stream.pop len).buffer = stream.buffer.drop len := by
  change stream.buffer.drop (min len stream.buffer.length) = stream.buffer.drop len
  rcases Nat.le_total len stream.buffer.length with short | long
  · rw [Nat.min_eq_left short]
  · rw [Nat.min_eq_right long, List.drop_length, List.drop_eq_nil_of_le long]

theorem pop_zero (stream : ByteStream) : stream.pop 0 = stream := by
  have counter : add64 stream.bytesPopped 0 = stream.bytesPopped := add64_of_lt stream.bytesPopped_lt
  cases stream
  simp only [pop, Nat.zero_min, List.drop_zero, mk.injEq, true_and, and_true]
  exact counter

theorem pop_of_empty (stream : ByteStream) (len : Nat) (empty : stream.buffer = []) :
    stream.pop len = stream := by
  have same : stream.pop len = stream.pop 0 := by
    simp only [pop, bytesBuffered, empty, List.length_nil, Nat.min_zero]
  rw [same, pop_zero]

theorem pop_min (stream : ByteStream) (len : Nat) :
    stream.pop (min len stream.buffer.length) = stream.pop len := by
  simp only [pop, bytesBuffered, Nat.min_assoc, Nat.min_self]

/-- `read` returns after at most one turn of its loop, with the first `len` bytes. -/
theorem read_eq (reader : ByteStream) (len : Nat) :
    reader.read len = .ok (reader.pop len, reader.buffer.take len) := by
  by_cases enters : reader.bytesBuffered ≠ 0 ∧ ([] : List UInt8).length < len
  · obtain ⟨buffered, wanted⟩ := enters
    obtain ⟨fuel, fuelEq⟩ := Nat.exists_eq_succ_of_ne_zero buffered
    have visible : reader.peek.isEmpty = false := by
      rw [List.isEmpty_eq_false_iff, ← List.length_pos_iff]
      exact Nat.pos_of_ne_zero buffered
    have leaves : ¬ ((reader.pop (reader.peek.take len).length).bytesBuffered ≠ 0 ∧
        (reader.peek.take len).length < len) := by
      simp only [bytesBuffered, pop_buffer, peek, List.length_drop, List.length_take]
      omega
    rw [read, readLoop, if_pos ⟨buffered, wanted⟩]
    simp only [visible, Bool.false_eq_true, if_false, List.length_nil, Nat.sub_zero, List.nil_append]
    rw [fuelEq, readLoop, if_neg leaves, List.length_take, peek, pop_min]
  · rw [read, readLoop, if_neg enters]
    rcases Nat.eq_zero_or_pos len with none_wanted | wanted
    · rw [none_wanted, pop_zero, List.take_zero]
    · have empty : reader.buffer = [] := by
        refine List.eq_nil_of_length_eq_zero (Decidable.byContradiction fun buffered => ?_)
        exact enters ⟨buffered, wanted⟩
      rw [pop_of_empty reader len empty, empty, List.take_nil]

/-! ## The counters agree with the buffer -/

/-- What was pushed is what was popped and what is buffered, as numbers that have
not wrapped. -/
def Counted (stream : ByteStream) : Prop :=
  stream.bytesPopped + stream.buffer.length = stream.bytesPushed

theorem new_counted (capacity : UInt64) : (new capacity).Counted := rfl

theorem Counted.push {stream : ByteStream} (counted : stream.Counted) {data : List UInt8}
    (fits : stream.bytesPushed + (stream.accepted data).length < 2 ^ 64) :
    (stream.push data).Counted := by
  unfold Counted at counted ⊢
  rw [stream.push_bytesPushed fits, push_bytesPopped, push_buffer, List.length_append]
  omega

theorem Counted.pop_bytesPopped {stream : ByteStream} (counted : stream.Counted) (len : Nat) :
    (stream.pop len).bytesPopped = stream.bytesPopped + min len stream.buffer.length := by
  have bound := stream.bytesPushed_lt
  unfold Counted at counted
  refine add64_of_lt ?_
  unfold bytesBuffered
  omega

theorem Counted.pop {stream : ByteStream} (counted : stream.Counted) (len : Nat) :
    (stream.pop len).Counted := by
  have popped := counted.pop_bytesPopped len
  unfold Counted at counted ⊢
  rw [popped, pop_buffer, pop_bytesPushed, List.length_drop]
  omega

theorem Counted.close {stream : ByteStream} (counted : stream.Counted) : stream.close.Counted :=
  counted

/-- The right edge of what the stream can take, counted from the start. -/
theorem Counted.edge {stream : ByteStream} (counted : stream.Counted) :
    stream.bytesPushed + stream.availableCapacity =
      stream.bytesPopped + stream.capacity.toNat := by
  have fits := stream.buffer_le
  unfold Counted at counted
  unfold availableCapacity
  omega

end ByteStream

end Minnow.Stream
