import Minnow.Foundation.BoundedQueue
import Minnow.Stream.ByteStream

/-!
# Runs of the byte stream

The stream is a bounded queue: what was popped and what is buffered are what the pushes
accepted.  Closing it does not stop the pushes.
-/

namespace Minnow.Stream

open Foundation Foundation.Runs Foundation.Words

namespace ByteStream

/-- What the stream is for. -/
def queue (stream : ByteStream) : BoundedQueue UInt8 :=
  ⟨stream.capacity.toNat, stream.buffer, stream.buffer_le⟩

theorem queue_push (stream : ByteStream) (data : List UInt8) :
    (stream.push data).queue = stream.queue.offer data :=
  rfl

theorem queue_pop (stream : ByteStream) (len : Nat) :
    (stream.pop len).queue = stream.queue.take len :=
  BoundedQueue.ext rfl (stream.pop_buffer len)

end ByteStream

/-- A stream, with the bytes that it accepted and those that were popped. -/
structure Traffic where
  stream : ByteStream
  accepted : List UInt8
  popped : List UInt8
  deriving DecidableEq

namespace Traffic

inductive Op where
  | push (data : List UInt8)
  | close
  | pop (len : Nat)
  | peek
  | read (len : Nat)
  deriving DecidableEq

def start (capacity : UInt64) : Traffic := ⟨ByteStream.new capacity, [], []⟩

def step (traffic : Traffic) : Op → Except Fault Traffic
  | .push data =>
      .ok { traffic with
        stream := traffic.stream.push data
        accepted := traffic.accepted ++ traffic.stream.accepted data }
  | .close => .ok { traffic with stream := traffic.stream.close }
  | .pop len =>
      .ok { traffic with
        stream := traffic.stream.pop len
        popped := traffic.popped ++ traffic.stream.peek.take len }
  | .peek => .ok traffic
  | .read len => do
      let (reader, out) ← traffic.stream.read len
      return { traffic with stream := reader, popped := traffic.popped ++ out }

def run (capacity : UInt64) (ops : List Op) : Except Fault Traffic :=
  attempt step (start capacity) ops

/-! ## What one call does -/

/-- A read pops what it returns. -/
theorem step_read (traffic : Traffic) (len : Nat) :
    traffic.step (.read len) = traffic.step (.pop len) := by
  change (traffic.stream.read len >>= _) = _
  rw [ByteStream.read_eq]
  rfl

/-- The queue operations of a call. -/
def Op.queued : Op → List (BoundedQueue.Op UInt8)
  | .push data => [.offer data]
  | .close => []
  | .pop len => [.take len]
  | .peek => []
  | .read len => [.take len]

def history (traffic : Traffic) : BoundedQueue.History UInt8 :=
  ⟨traffic.stream.queue, traffic.accepted, traffic.popped⟩

theorem history_push (traffic : Traffic) (data : List UInt8) :
    ({ traffic with
        stream := traffic.stream.push data
        accepted := traffic.accepted ++ traffic.stream.accepted data } : Traffic).history =
      traffic.history.step (.offer data) := by
  rw [history, BoundedQueue.History.step, ByteStream.queue_push]
  rfl

theorem history_pop (traffic : Traffic) (len : Nat) :
    ({ traffic with
        stream := traffic.stream.pop len
        popped := traffic.popped ++ traffic.stream.peek.take len } : Traffic).history =
      traffic.history.step (.take len) := by
  rw [history, BoundedQueue.History.step, ByteStream.queue_pop]
  rfl

/-- Every call returns and does to the queue what it should. -/
theorem step_history (traffic : Traffic) (op : Op) :
    ∃ next, traffic.step op = .ok next ∧
      next.history = exec BoundedQueue.History.step traffic.history op.queued := by
  cases op with
  | push data => exact ⟨_, rfl, traffic.history_push data⟩
  | close => exact ⟨_, rfl, rfl⟩
  | pop len => exact ⟨_, rfl, traffic.history_pop len⟩
  | peek => exact ⟨_, rfl, rfl⟩
  | read len => exact ⟨_, traffic.step_read len, traffic.history_pop len⟩

/-- The counters count the bytes, modulo `2 ^ 64`. -/
structure Counts (traffic : Traffic) : Prop where
  pushed : traffic.stream.bytesPushed = traffic.accepted.length % 2 ^ 64
  popped : traffic.stream.bytesPopped = traffic.popped.length % 2 ^ 64

theorem Counts.pop {traffic : Traffic} (counts : traffic.Counts) (len : Nat) :
    ({ traffic with
        stream := traffic.stream.pop len
        popped := traffic.popped ++ traffic.stream.peek.take len } : Traffic).Counts := by
  refine ⟨counts.pushed, ?_⟩
  change add64 traffic.stream.bytesPopped (min len traffic.stream.buffer.length) =
    (traffic.popped ++ traffic.stream.buffer.take len).length % 2 ^ 64
  rw [counts.popped, List.length_append, List.length_take, add64, Nat.mod_add_mod]

theorem Counts.step {traffic next : Traffic} {op : Op} (counts : traffic.Counts)
    (ran : traffic.step op = .ok next) : next.Counts := by
  cases op with
  | push data =>
      cases ran
      refine ⟨?_, counts.popped⟩
      change add64 traffic.stream.bytesPushed _ = (traffic.accepted ++ _).length % 2 ^ 64
      rw [counts.pushed, List.length_append, add64, Nat.mod_add_mod]
  | close =>
      cases ran
      exact ⟨counts.pushed, counts.popped⟩
  | pop len =>
      cases ran
      exact counts.pop len
  | peek =>
      cases ran
      exact counts
  | read len =>
      rw [step_read] at ran
      cases ran
      exact counts.pop len

/-! ## Runs -/

/-- Every run returns, and refines that of a bounded queue. -/
theorem run_history (capacity : UInt64) (ops : List Op) :
    ∃ traffic, run capacity ops = .ok traffic ∧
      traffic.history = exec BoundedQueue.History.step
        (BoundedQueue.History.start capacity.toNat) (ops.flatMap Op.queued) := by
  induction ops using List.reverseRecOn with
  | nil => exact ⟨_, rfl, rfl⟩
  | append_singleton ops op ih =>
      obtain ⟨traffic, ran, history⟩ := ih
      obtain ⟨next, stepped, added⟩ := traffic.step_history op
      refine ⟨next, attempt_snoc_of_ok ran stepped, ?_⟩
      rw [added, history, List.flatMap_append, exec_append, List.flatMap_singleton]

theorem run_counts {capacity : UInt64} {ops : List Op} {traffic : Traffic}
    (ran : run capacity ops = .ok traffic) : traffic.Counts :=
  attempt_invariant Counts (fun _ _ _ counts stepped => counts.step stepped) ⟨rfl, rfl⟩ ran

theorem run_conserved {capacity : UInt64} {ops : List Op} {traffic : Traffic}
    (ran : run capacity ops = .ok traffic) :
    traffic.popped ++ traffic.stream.buffer = traffic.accepted := by
  obtain ⟨same, alsoRan, history⟩ := run_history capacity ops
  cases ran.symm.trans alsoRan
  have conserved := BoundedQueue.History.exec_conserved capacity.toNat (ops.flatMap Op.queued)
  rw [← history] at conserved
  exact conserved

theorem run_capacity {capacity : UInt64} {ops : List Op} {traffic : Traffic}
    (ran : run capacity ops = .ok traffic) : traffic.stream.capacity = capacity := by
  obtain ⟨same, alsoRan, history⟩ := run_history capacity ops
  cases ran.symm.trans alsoRan
  have kept := BoundedQueue.History.exec_capacity capacity.toNat (ops.flatMap Op.queued)
  rw [← history] at kept
  exact UInt64.toNat_inj.mp kept

/-- Every run of calls returns and refines a bounded queue: what was popped and what is buffered
are what was accepted.  While fewer than `2 ^ 64` bytes were accepted the counters are exact, and a
read returns and removes the first bytes there are. -/
theorem refines_queue (capacity : UInt64) (ops : List Op) :
    ∃ traffic, run capacity ops = .ok traffic ∧
      traffic.history = exec BoundedQueue.History.step
        (BoundedQueue.History.start capacity.toNat) (ops.flatMap Op.queued) ∧
      traffic.popped ++ traffic.stream.buffer = traffic.accepted ∧
      traffic.stream.bytesBuffered ≤ capacity.toNat ∧
      traffic.stream.availableCapacity + traffic.stream.bytesBuffered = capacity.toNat ∧
      (traffic.accepted.length < 2 ^ 64 →
        traffic.stream.bytesPushed = traffic.accepted.length ∧
          traffic.stream.bytesPopped = traffic.popped.length ∧
          traffic.stream.bytesPushed - traffic.stream.bytesPopped =
            traffic.stream.bytesBuffered) ∧
      ∀ len, ∃ reader, traffic.stream.read len =
          .ok (reader, traffic.stream.buffer.take (min len traffic.stream.bytesBuffered)) ∧
        reader.buffer = traffic.stream.buffer.drop (min len traffic.stream.bytesBuffered) ∧
        reader.bytesPushed = traffic.stream.bytesPushed := by
  obtain ⟨traffic, ran, history⟩ := run_history capacity ops
  have conserved := run_conserved ran
  have fits := traffic.stream.buffer_le
  rw [run_capacity ran] at fits
  refine ⟨traffic, ran, history, conserved, fits, ?_, ?_, ?_⟩
  · rw [ByteStream.availableCapacity, run_capacity ran]
    exact Nat.sub_add_cancel fits
  · intro small
    have length := congrArg List.length conserved
    rw [List.length_append] at length
    have pushed := (run_counts ran).pushed
    have popped := (run_counts ran).popped
    rw [Nat.mod_eq_of_lt small] at pushed
    rw [Nat.mod_eq_of_lt (by omega)] at popped
    refine ⟨pushed, popped, ?_⟩
    rw [pushed, popped, ByteStream.bytesBuffered]
    omega
  · intro len
    refine ⟨traffic.stream.pop len, ?_, ?_, rfl⟩
    · rw [ByteStream.read_eq, ByteStream.bytesBuffered, ← List.take_eq_take_min]
    · rw [ByteStream.pop_buffer, ByteStream.bytesBuffered, List.drop_eq_drop_min]

/-- More is pushed than there is room for. -/
theorem refines_queue_cut :
    ∃ traffic, run 2 [.push [1, 2, 3], .read 1] = .ok traffic ∧ traffic.stream.bytesPushed = 2 := by
  obtain ⟨traffic, ran, -, -, -, -, counts, -⟩ := refines_queue 2 [.push [1, 2, 3], .read 1]
  cases ran
  exact ⟨_, rfl, (counts (by decide)).1⟩

end Traffic

end Minnow.Stream
