import Minnow.Foundation.Fault
import Mathlib.Algebra.Order.Ring.Nat
import Mathlib.Data.List.Basic
import Mathlib.Data.Nat.Bits

/-!
# Reading and writing bytes on the wire

`Parser` reads a message from a list of buffers, wherever their boundaries fall,
and remembers whether it has failed.  `Serializer` writes one.
-/

namespace Minnow.Wire

abbrev Buffer := List UInt8

/-! ## Unsigned integers -/

/-- An unsigned type of a fixed number of bytes. -/
class UnsignedIntegral (T : Type) where
  size : Nat
  toNat : T → Nat
  ofNat : Nat → T
  toNat_lt (value : T) : toNat value < 256 ^ size
  ofNat_toNat (value : T) : ofNat (toNat value) = value

instance : UnsignedIntegral UInt8 where
  size := 1
  toNat := UInt8.toNat
  ofNat := UInt8.ofNat
  toNat_lt := UInt8.toNat_lt
  ofNat_toNat _ := UInt8.ofNat_toNat

instance : UnsignedIntegral UInt16 where
  size := 2
  toNat := UInt16.toNat
  ofNat := UInt16.ofNat
  toNat_lt := UInt16.toNat_lt
  ofNat_toNat _ := UInt16.ofNat_toNat

instance : UnsignedIntegral UInt32 where
  size := 4
  toNat := UInt32.toNat
  ofNat := UInt32.ofNat
  toNat_lt := UInt32.toNat_lt
  ofNat_toNat _ := UInt32.ofNat_toNat

open UnsignedIntegral

/-- The bytes of a number, the most significant first. -/
def bigEndian (size number : Nat) : List UInt8 :=
  (List.range size).map fun i => UInt8.ofNat (number >>> ((size - i - 1) * 8))

@[simp] theorem bigEndian_length (size number : Nat) :
    (bigEndian size number).length = size := by
  rw [bigEndian, List.length_map, List.length_range]

/-! ## The buffers under a parser -/

/-- `skip` bytes of the first buffer are read, and `size` bytes are left. -/
structure Consistent (size : Nat) (buffers : List Buffer) (skip : Nat) : Prop where
  size_eq : size = buffers.flatten.length - skip
  skip_lt : skip = 0 ∨ skip < (buffers.headD []).length

theorem headD_length_le (buffers : List Buffer) :
    (buffers.headD []).length ≤ buffers.flatten.length := by
  cases buffers with
  | nil => exact Nat.le_refl _
  | cons front rest =>
      rw [List.headD_cons, List.flatten_cons, List.length_append]
      exact Nat.le_add_right _ _

theorem headD_append_length (buffers : List Buffer) (str : Buffer) :
    (buffers.headD []).length ≤ ((buffers ++ [str]).headD []).length := by
  cases buffers with
  | nil => exact Nat.zero_le _
  | cons front rest => exact Nat.le_refl _

namespace Consistent

variable {size skip : Nat} {front str : Buffer} {buffers rest : List Buffer}

theorem skip_le (consistent : Consistent size buffers skip) : skip ≤ (buffers.headD []).length := by
  rcases consistent.skip_lt with none | some
  · rw [none]
    exact Nat.zero_le _
  · exact Nat.le_of_lt some

theorem append (consistent : Consistent size buffers skip) :
    Consistent (size + str.length) (buffers ++ [str]) skip := by
  have short := Nat.le_trans consistent.skip_le (headD_length_le buffers)
  constructor
  · rw [List.flatten_append, List.length_append, consistent.size_eq, List.flatten_singleton]
    omega
  · exact consistent.skip_lt.imp_right fun lt =>
      Nat.lt_of_lt_of_le lt (headD_append_length buffers str)

/-- What is left when the first buffer is used up. -/
theorem popFront (consistent : Consistent size (front :: rest) skip) :
    Consistent (size - (front.length - skip)) rest 0 := by
  have short : skip ≤ front.length := consistent.skip_le
  have whole := consistent.size_eq
  rw [List.flatten_cons, List.length_append] at whole
  exact ⟨by omega, Or.inl rfl⟩

theorem advance (consistent : Consistent size (front :: rest) skip) {len : Nat}
    (short : skip + len < front.length) :
    Consistent (size - len) (front :: rest) (skip + len) := by
  have whole := consistent.size_eq
  exact ⟨by omega, Or.inr short⟩

end Consistent

structure BufferList where
  size : Nat
  buffer : List Buffer
  skip : Nat
  consistent : Consistent size buffer skip

namespace BufferList

/-- The bytes not yet read. -/
def remaining (list : BufferList) : List UInt8 := list.buffer.flatten.drop list.skip

@[simp] theorem remaining_length (list : BufferList) : list.remaining.length = list.size := by
  rw [remaining, List.length_drop, list.consistent.size_eq]

def nil : BufferList := ⟨0, [], 0, rfl, Or.inl rfl⟩

def append (list : BufferList) (str : Buffer) : BufferList :=
  ⟨list.size + str.length, list.buffer ++ [str], list.skip, list.consistent.append⟩

def ofBuffers (buffers : List Buffer) : BufferList := buffers.foldl append nil

theorem remaining_append (list : BufferList) (str : Buffer) :
    (list.append str).remaining = list.remaining ++ str := by
  have short := Nat.le_trans list.consistent.skip_le (headD_length_le list.buffer)
  change (list.buffer ++ [str]).flatten.drop list.skip = _
  rw [List.flatten_append, List.flatten_singleton, List.drop_append_of_le_length short]
  rfl

theorem remaining_foldl_append (list : BufferList) (buffers : List Buffer) :
    (buffers.foldl append list).remaining = list.remaining ++ buffers.flatten := by
  induction buffers generalizing list with
  | nil => exact (List.append_nil _).symm
  | cons front rest ih =>
      rw [List.foldl_cons, ih, remaining_append, List.flatten_cons, List.append_assoc]

theorem remaining_ofBuffers (buffers : List Buffer) :
    (ofBuffers buffers).remaining = buffers.flatten :=
  remaining_foldl_append nil buffers

def empty (list : BufferList) : Bool := list.size == 0

/-- The unread part of the first buffer. -/
def peek (list : BufferList) : Except Fault (List UInt8) :=
  match list.buffer with
  | [] => .error (.thrown "peek on empty BufferList")
  | front :: _ => .ok (front.drop list.skip)

/-- The loop of `removePrefix`.  An iteration that leaves the first buffer in place has
used up `len`, so it is the last. -/
def removeLoop (size len : Nat) (buffers : List Buffer) (skip : Nat) :
    Nat × List Buffer × Nat :=
  match buffers with
  | [] => (size, [], skip)
  | front :: rest =>
      if len = 0 then (size, front :: rest, skip)
      else
        let toPopNow := min len (front.drop skip).length
        if skip + toPopNow = front.length then
          removeLoop (size - toPopNow) (len - toPopNow) rest 0
        else (size - toPopNow, front :: rest, skip + toPopNow)

/-- The loop drops `len` bytes, or all there are. -/
theorem removeLoop_spec {size len skip : Nat} {buffers : List Buffer}
    (consistent : Consistent size buffers skip) :
    let left := removeLoop size len buffers skip
    Consistent left.1 left.2.1 left.2.2 ∧
      left.2.1.flatten.drop left.2.2 = (buffers.flatten.drop skip).drop len := by
  induction buffers generalizing size len skip with
  | nil =>
      refine ⟨consistent, ?_⟩
      change List.drop skip [] = List.drop len (List.drop skip [])
      rw [List.drop_nil, List.drop_nil]
  | cons front rest ih =>
      have short : skip ≤ front.length := consistent.skip_le
      rw [removeLoop, List.length_drop]
      by_cases done : len = 0
      · rw [if_pos done, done, List.drop_zero]
        exact ⟨consistent, rfl⟩
      rw [if_neg done]
      by_cases used : skip + min len (front.length - skip) = front.length
      · have whole : min len (front.length - skip) = front.length - skip := by omega
        obtain ⟨kept, left⟩ := @ih _ (len - (front.length - skip)) _ consistent.popFront
        rw [if_pos used, whole]
        refine ⟨kept, left.trans ?_⟩
        have past : front.length ≤ skip + len := by omega
        rw [List.drop_zero, List.drop_drop, List.flatten_cons, List.drop_append,
          List.drop_eq_nil_of_le past, List.nil_append]
        congr 1
        omega
      · have partly : min len (front.length - skip) = len := by omega
        rw [if_neg used, partly, List.drop_drop]
        exact ⟨consistent.advance (by omega), rfl⟩

def removePrefix (list : BufferList) (len : Nat) : BufferList :=
  let left := removeLoop list.size len list.buffer list.skip
  ⟨left.1, left.2.1, left.2.2, (removeLoop_spec list.consistent).1⟩

theorem remaining_removePrefix (list : BufferList) (len : Nat) :
    (list.removePrefix len).remaining = list.remaining.drop len :=
  (removeLoop_spec list.consistent).2

/-- The unread bytes as buffers. -/
def dumpAll (list : BufferList) : List Buffer :=
  if list.empty then []
  else
    match list.buffer with
    | [] => []
    | front :: rest => front.drop list.skip :: rest

theorem dumpAll_flatten (list : BufferList) : list.dumpAll.flatten = list.remaining := by
  have whole := list.remaining_length
  have short := list.consistent.skip_le
  rw [dumpAll, empty]
  by_cases nothing : list.size = 0
  · rw [nothing] at whole
    rw [List.length_eq_zero_iff.mp whole, nothing]
    rfl
  · rw [if_neg (by simpa using nothing), remaining]
    cases buffers : list.buffer with
    | nil => rw [List.flatten_nil, List.drop_nil]
    | cons front rest =>
        rw [buffers, List.headD_cons] at short
        rw [List.flatten_cons, List.flatten_cons, List.drop_append_of_le_length short]

/-- The unread bytes as one buffer. -/
def dumpAllBuffer (list : BufferList) : Buffer :=
  match list.dumpAll with
  | [front] => front
  | concat => concat.foldl (· ++ ·) []

theorem foldl_append_eq (out : Buffer) (buffers : List Buffer) :
    buffers.foldl (· ++ ·) out = out ++ buffers.flatten := by
  induction buffers generalizing out with
  | nil => exact (List.append_nil out).symm
  | cons front rest ih => rw [List.foldl_cons, ih, List.flatten_cons, List.append_assoc]

theorem dumpAllBuffer_eq (list : BufferList) : list.dumpAllBuffer = list.remaining := by
  rw [← dumpAll_flatten, dumpAllBuffer]
  split
  case h_1 front one => rw [one, List.flatten_singleton]
  case h_2 => exact foldl_append_eq [] _

end BufferList

/-! ## The parser -/

structure Parser where
  input : BufferList
  error : Bool

/-- A parsing step, which changes the parser, or throws. -/
abbrev ParseM := StateT Parser (Except Fault)

namespace Parser

def new (input : List Buffer) : Parser := ⟨BufferList.ofBuffers input, false⟩

def hasError : ParseM Bool := do
  return (← get).error

def setError : ParseM Unit := modify fun parser => { parser with error := true }

def checkSize (size : Nat) : ParseM Unit := do
  if size > (← get).input.size then setError

def removePrefix (n : Nat) : ParseM Unit :=
  modify fun parser => { parser with input := parser.input.removePrefix n }

/-- The first byte of the unread part of the first buffer, which may have none. -/
def front : ParseM UInt8 := do
  match ← (← get).input.peek with
  | [] => throw .endDereferenced
  | byte :: _ => return byte

/-- Shift `count` bytes into `out`. -/
def integerLoop : Nat → Nat → ParseM Nat
  | 0, out => return out
  | count + 1, out => do
      let byte ← front
      removePrefix 1
      integerLoop count (out * 256 + byte.toNat)

/-- A number, or the old value of `out` once the parser has failed.  The branch of the
source for a single byte is one round of the loop. -/
def integer {T : Type} [UnsignedIntegral T] (out : T) : ParseM T := do
  checkSize (size T)
  if ← hasError then return out
  return ofNat (← integerLoop (size T) 0)

/-- Copy from the front until there are `count` bytes.  A round that finds no byte at the
front changes nothing, so the loop never ends, and no fuel is enough. -/
def stringLoop : Nat → Nat → ParseM (List UInt8)
  | _, 0 => return []
  | 0, _ + 1 => throw .outOfFuel
  | fuel + 1, count + 1 => do
      let view := (← (← get).input.peek).take (count + 1)
      removePrefix view.length
      return view ++ (← stringLoop fuel (count + 1 - view.length))

/-- The characters of `out`, or the old ones once the parser has failed.  Every round that
copies anything copies a byte, so the length is fuel enough. -/
def string (out : List UInt8) : ParseM (List UInt8) := do
  checkSize out.length
  if ← hasError then return out
  stringLoop out.length out.length

def allRemaining : ParseM (List Buffer) := do
  return (← get).input.dumpAll

def allRemainingBuffer : ParseM Buffer := do
  return (← get).input.dumpAllBuffer

end Parser

/-- Parse an object; nothing if the parser failed. -/
def parse {Object : Type} (method : ParseM Object) (buffers : List Buffer) :
    Except Fault (Option Object) := do
  let (object, parser) ← method (Parser.new buffers)
  return if parser.error then none else some object

/-! ## The serializer -/

structure Serializer where
  output : List Buffer
  buffer : List UInt8

namespace Serializer

def new : Serializer := ⟨[], []⟩

def integer {T : Type} [UnsignedIntegral T] (serializer : Serializer) (val : T) : Serializer :=
  { serializer with buffer := serializer.buffer ++ bigEndian (size T) (toNat val) }

def flush (serializer : Serializer) : Serializer := ⟨serializer.output ++ [serializer.buffer], []⟩

def pushBuffer (serializer : Serializer) (buf : Buffer) : Serializer :=
  let flushed := serializer.flush
  { flushed with output := flushed.output ++ [buf] }

def pushBuffers (serializer : Serializer) (bufs : List Buffer) : Serializer :=
  bufs.foldl pushBuffer serializer

def finish (serializer : Serializer) : List Buffer := serializer.flush.output

end Serializer

/-- Serialize an object by its own method, which may throw. -/
def serialize (method : Serializer → Except Fault Serializer) : Except Fault (List Buffer) :=
  Serializer.finish <$> method Serializer.new

theorem serialize_returns {method : Serializer → Except Fault Serializer}
    (returns : ∃ written, method Serializer.new = .ok written) :
    ∃ buffers, serialize method = .ok buffers := by
  obtain ⟨written, done⟩ := returns
  exact ⟨written.finish, Fault.map_eq_ok.mpr ⟨written, done, rfl⟩⟩

end Minnow.Wire
