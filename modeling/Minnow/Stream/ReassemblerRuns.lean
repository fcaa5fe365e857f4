import Minnow.Foundation.Runs
import Minnow.Stream.ReassemblerWrite

/-!
# Runs of the reassembler

Insertions are interleaved with pops of the reader.  `popped` remembers what the
reader took, so that the bytes pushed so far can be read off a state.
-/

namespace Minnow.Stream

open Foundation Foundation.Words Foundation.Chunks Foundation.Runs

/-- A reassembler, the stream it writes to and the bytes popped from that stream. -/
structure Assembly where
  reassembler : Reassembler
  output : ByteStream
  popped : List UInt8
  deriving DecidableEq

namespace Assembly

inductive Op where
  | insert (firstIndex : Nat) (data : List UInt8) (isLastSubstring : Bool)
  | pop (len : Nat)
  deriving DecidableEq, Repr

def start (capacity : UInt64) : Assembly := ⟨Reassembler.new, ByteStream.new capacity, []⟩

def insert (assembly : Assembly) (firstIndex : Nat) (data : List UInt8) (isLastSubstring : Bool) :
    Assembly :=
  let done := assembly.reassembler.insert firstIndex data isLastSubstring assembly.output
  { assembly with reassembler := done.1, output := done.2 }

def pop (assembly : Assembly) (len : Nat) : Assembly :=
  { assembly with
    output := assembly.output.pop len
    popped := assembly.popped ++ assembly.output.peek.take len }

def step (assembly : Assembly) : Op → Assembly
  | .insert firstIndex data isLastSubstring => assembly.insert firstIndex data isLastSubstring
  | .pop len => assembly.pop len

def run (capacity : UInt64) (ops : List Op) : Assembly := exec step (start capacity) ops

/-- All bytes pushed to the output so far. -/
def pushedBytes (assembly : Assembly) : List UInt8 := assembly.popped ++ assembly.output.buffer

/-- The index of the next byte to write. -/
def position (assembly : Assembly) : Nat := assembly.output.bytesPushed

/-- The right edge of the window in which bytes are accepted. -/
def edge (assembly : Assembly) : Nat :=
  assembly.output.bytesPopped + assembly.output.capacity.toNat

/-- The stored byte of an index. -/
def heldAt (assembly : Assembly) (index : Nat) : Option UInt8 := assembly.reassembler.heldAt index

/-! ## The representation invariant -/

structure Sound (assembly : Assembly) : Prop where
  stored : assembly.reassembler.Stored (assembly.position + 1)
  counted : assembly.output.Counted
  popped_length : assembly.popped.length = assembly.output.bytesPopped

theorem start_sound (capacity : UInt64) : (start capacity).Sound :=
  ⟨Reassembler.new_stored _, ByteStream.new_counted _, rfl⟩

theorem Sound.insert_spec {assembly : Assembly} (sound : assembly.Sound) (firstIndex : Nat)
    (data : List UInt8) (isLastSubstring : Bool) :
    ∃ middle clampedBegin clampedEnd, Reassembler.Insertion assembly.reassembler assembly.output
      firstIndex data isLastSubstring middle
      (assembly.insert firstIndex data isLastSubstring).reassembler
      (assembly.insert firstIndex data isLastSubstring).output clampedBegin clampedEnd :=
  Reassembler.insert_spec sound.stored sound.counted firstIndex data isLastSubstring

theorem Sound.step {assembly : Assembly} (sound : assembly.Sound) (op : Op) :
    (assembly.step op).Sound := by
  cases op with
  | insert firstIndex data isLastSubstring =>
      obtain ⟨middle, clampedBegin, clampedEnd, done⟩ :=
        sound.insert_spec firstIndex data isLastSubstring
      exact ⟨done.stored, done.flushed.counted, sound.popped_length.trans done.flushed.popped.symm⟩
  | pop len =>
      refine ⟨sound.stored, sound.counted.pop len, ?_⟩
      have popped := sound.counted.pop_bytesPopped len
      change (assembly.popped ++ assembly.output.buffer.take len).length =
        (assembly.output.pop len).bytesPopped
      rw [popped, List.length_append, List.length_take, sound.popped_length]

theorem exec_sound {assembly : Assembly} (sound : assembly.Sound) (ops : List Op) :
    (exec step assembly ops).Sound :=
  exec_invariant Sound (fun _ op inner => inner.step op) sound ops

theorem run_sound (capacity : UInt64) (ops : List Op) : (run capacity ops).Sound :=
  exec_sound (start_sound capacity) ops

theorem Sound.edge_eq {assembly : Assembly} (sound : assembly.Sound) :
    assembly.position + assembly.output.availableCapacity = assembly.edge :=
  sound.counted.edge

/-! ## The end of the window -/

/-- The end of the window as `insertToBuffer` computes it. -/
def acceptEnd (assembly : Assembly) : Nat :=
  add64 assembly.output.bytesPushed assembly.output.availableCapacity

theorem acceptEnd_le_edge {assembly : Assembly} (sound : assembly.Sound) :
    assembly.acceptEnd ≤ assembly.edge := by
  rw [← sound.edge_eq]
  exact add64_le _ _

theorem acceptEnd_of_noWrap {assembly : Assembly} (sound : assembly.Sound)
    (noWrap : assembly.edge < 2 ^ 64) : assembly.acceptEnd = assembly.edge := by
  have edgeEq := sound.edge_eq
  rw [← edgeEq]
  exact add64_of_lt (edgeEq ▸ noWrap)

/-- The window end wraps only to the write position or before it. -/
theorem acceptEnd_eq_edge {assembly : Assembly} (sound : assembly.Sound)
    (above : assembly.position < assembly.acceptEnd) : assembly.acceptEnd = assembly.edge := by
  have edgeEq := sound.edge_eq
  have positionFits : assembly.position < 2 ^ 64 := assembly.output.bytesPushed_lt
  have roomFits : assembly.output.availableCapacity < 2 ^ 64 :=
    Nat.lt_of_le_of_lt (Nat.sub_le _ _) assembly.output.capacity.toNat_lt
  rw [← edgeEq]
  refine add64_of_lt (Nat.lt_of_not_le fun overflow => ?_)
  exact absurd (add64_lt_left positionFits roomFits overflow) (Nat.not_lt.mpr (Nat.le_of_lt above))

/-! ## What no step takes back -/

theorem step_capacity {assembly : Assembly} (sound : assembly.Sound) (op : Op) :
    (assembly.step op).output.capacity = assembly.output.capacity := by
  cases op with
  | insert firstIndex data isLastSubstring =>
      obtain ⟨middle, clampedBegin, clampedEnd, done⟩ :=
        sound.insert_spec firstIndex data isLastSubstring
      exact done.flushed.capacity
  | pop len => rfl

theorem run_capacity (capacity : UInt64) (ops : List Op) :
    (run capacity ops).output.capacity = capacity :=
  (exec_invariant (fun state => Sound state ∧ state.output.capacity = capacity)
    (fun _ op inner => ⟨inner.1.step op, (step_capacity inner.1 op).trans inner.2⟩)
    ⟨start_sound capacity, rfl⟩ ops).2

theorem position_le_step {assembly : Assembly} (sound : assembly.Sound) (op : Op) :
    assembly.position ≤ (assembly.step op).position := by
  cases op with
  | insert firstIndex data isLastSubstring =>
      obtain ⟨middle, clampedBegin, clampedEnd, done⟩ :=
        sound.insert_spec firstIndex data isLastSubstring
      exact done.flushed.grows
  | pop len => exact Nat.le_refl _

theorem edge_le_step {assembly : Assembly} (sound : assembly.Sound) (op : Op) :
    assembly.edge ≤ (assembly.step op).edge := by
  have same := step_capacity sound op
  unfold edge
  rw [same]
  cases op with
  | insert firstIndex data isLastSubstring =>
      obtain ⟨middle, clampedBegin, clampedEnd, done⟩ :=
        sound.insert_spec firstIndex data isLastSubstring
      exact Nat.add_le_add_right (Nat.le_of_eq done.flushed.popped.symm) _
  | pop len =>
      have popped := sound.counted.pop_bytesPopped len
      exact Nat.add_le_add_right (by rw [step, pop, popped]; exact Nat.le_add_right _ _) _

theorem edge_le_exec {assembly : Assembly} (sound : assembly.Sound) (ops : List Op) :
    assembly.edge ≤ (exec Assembly.step assembly ops).edge :=
  exec_monotone Sound edge (fun _ op inner => inner.step op)
    (fun _ op inner => edge_le_step inner op) sound ops

theorem isClosed_exec {assembly : Assembly} (sound : assembly.Sound)
    (closed : assembly.output.isClosed = true) (ops : List Op) :
    (exec Assembly.step assembly ops).output.isClosed = true := by
  refine (exec_invariant (fun state => Sound state ∧ state.output.isClosed = true) ?_
    ⟨sound, closed⟩ ops).2
  rintro state op ⟨inner, still⟩
  refine ⟨inner.step op, ?_⟩
  cases op with
  | insert firstIndex data isLastSubstring =>
      obtain ⟨middle, clampedBegin, clampedEnd, done⟩ :=
        inner.insert_spec firstIndex data isLastSubstring
      exact done.closed.mpr (Or.inl still)
  | pop len => exact still

/-- A pop moves bytes from the stream to `popped`. -/
theorem pushedBytes_pop (assembly : Assembly) (len : Nat) :
    (assembly.pop len).pushedBytes = assembly.pushedBytes := by
  change assembly.popped ++ assembly.output.buffer.take len ++ (assembly.output.pop len).buffer = _
  rw [ByteStream.pop_buffer, List.append_assoc, List.take_append_drop]
  rfl

end Assembly

end Minnow.Stream
