import Minnow.Stream.StreamTraffic

/-!
# The end of a stream

A stream that is closed should stay as it is but for its pops, and a stream that is finished
should stay finished.  A push looks only at the room there is.
-/

namespace Minnow.Stream

open Foundation Foundation.Runs

namespace Traffic

variable {capacity : UInt64} {ops before after later : List Op} {traffic next final : Traffic}

/-- No push after the close changes the stream, and a stream once finished stays so, with all
that was accepted popped. -/
def EndHolds (capacity : UInt64) (ops : List Op) : Prop :=
  (∀ before data after traffic, ops = before ++ .push data :: after → .close ∈ before →
    run capacity before = .ok traffic →
      (traffic.stream.push data).bytesPushed = traffic.stream.bytesPushed ∧
        (traffic.stream.push data).buffer = traffic.stream.buffer) ∧
  ∀ before after later traffic final, ops = before ++ later ++ after →
    run capacity before = .ok traffic → traffic.stream.isFinished = true →
      run capacity (before ++ later) = .ok final →
        final.stream.isFinished = true ∧ final.popped = final.accepted

/-- No data, or no room for any. -/
def Spares (traffic : Traffic) (op : Op) : Prop :=
  ∀ data, op = .push data → traffic.stream.isClosed = true →
    data = [] ∨ traffic.stream.availableCapacity = 0

/-- Every push to the closed stream brings no data or finds no room. -/
def SparesEnd (capacity : UInt64) (ops : List Op) : Prop :=
  EachAttempt step Spares (start capacity) ops

/-! ## The flag -/

theorem isClosed_step {op : Op} (ran : traffic.step op = .ok next) :
    next.stream.isClosed = true ↔ traffic.stream.isClosed = true ∨ op = .close := by
  cases op with
  | push data =>
      cases ran
      exact (or_iff_left (by simp)).symm
  | close =>
      cases ran
      exact iff_of_true rfl (Or.inr rfl)
  | pop len =>
      cases ran
      exact (or_iff_left (by simp)).symm
  | peek =>
      cases ran
      exact (or_iff_left (by simp)).symm
  | read len =>
      rw [step_read] at ran
      cases ran
      exact (or_iff_left (by simp)).symm

/-- The flag is set just if the stream was closed. -/
theorem run_isClosed (ran : run capacity ops = .ok traffic) :
    traffic.stream.isClosed = true ↔ .close ∈ ops := by
  induction ops using List.reverseRecOn generalizing traffic with
  | nil =>
      cases ran
      exact iff_of_false Bool.false_ne_true List.not_mem_nil
  | append_singleton ops op ih =>
      obtain ⟨middle, earlier, last⟩ := attempt_snoc_ok ran
      rw [isClosed_step last, ih earlier, List.mem_append, List.mem_singleton, eq_comm]

theorem isFinished_iff (stream : ByteStream) :
    stream.isFinished = true ↔ stream.isClosed = true ∧ stream.buffer = [] := by
  rw [ByteStream.isFinished, Bool.and_eq_true, List.isEmpty_iff]
  rfl

/-! ## Pushes that are spared -/

theorem accepted_eq_nil_iff (stream : ByteStream) (data : List UInt8) :
    stream.accepted data = [] ↔ data = [] ∨ stream.availableCapacity = 0 := by
  rw [← List.length_eq_zero_iff, ByteStream.accepted_length, ← List.length_eq_zero_iff]
  omega

/-- A push leaves the buffer just if it accepts nothing, and the count with it. -/
theorem push_unchanged_iff (stream : ByteStream) (data : List UInt8) :
    (stream.push data).bytesPushed = stream.bytesPushed ∧
        (stream.push data).buffer = stream.buffer ↔ stream.accepted data = [] := by
  constructor
  · rintro ⟨-, same⟩
    exact List.append_right_eq_self.mp same
  · intro nothing
    refine ⟨?_, List.append_right_eq_self.mpr nothing⟩
    change Foundation.Words.add64 _ (stream.accepted data).length = _
    rw [nothing]
    exact Foundation.Words.add64_of_lt stream.bytesPushed_lt

/-- A finished stream with nothing pushed stays finished. -/
theorem isFinished_step {op : Op} (spares : traffic.Spares op)
    (finished : traffic.stream.isFinished = true) (ran : traffic.step op = .ok next) :
    next.stream.isFinished = true := by
  obtain ⟨closed, empty⟩ := (isFinished_iff _).mp finished
  refine (isFinished_iff _).mpr ⟨(isClosed_step ran).mpr (Or.inl closed), ?_⟩
  have popped : ∀ len, (traffic.stream.pop len).buffer = [] := by
    intro len
    rw [ByteStream.pop_of_empty _ _ empty]
    exact empty
  cases op with
  | push data =>
      cases ran
      have nothing := (accepted_eq_nil_iff _ _).mpr (spares data rfl closed)
      change traffic.stream.buffer ++ traffic.stream.accepted data = []
      rw [empty, nothing]
      rfl
  | close =>
      cases ran
      exact empty
  | pop len =>
      cases ran
      exact popped len
  | peek =>
      cases ran
      exact empty
  | read len =>
      rw [step_read] at ran
      cases ran
      exact popped len

/-! ## Runs -/

theorem run_isFinished (spared : SparesEnd capacity ops) (split : ops = before ++ later ++ after)
    (ran : run capacity before = .ok traffic) (finished : traffic.stream.isFinished = true)
    (lastRan : run capacity (before ++ later) = .ok final) : final.stream.isFinished = true := by
  induction later using List.reverseRecOn generalizing after final with
  | nil =>
      rw [List.append_nil] at lastRan
      cases ran.symm.trans lastRan
      exact finished
  | append_singleton later op ih =>
      rw [← List.append_assoc] at lastRan
      obtain ⟨middle, middleRan, last⟩ := attempt_snoc_ok lastRan
      have cut : ops = before ++ later ++ op :: after := by
        rw [split]
        simp only [List.append_assoc, List.cons_append, List.nil_append]
      exact isFinished_step (eachAttempt_iff.mp spared _ op after middle cut middleRan)
        (ih cut middleRan) last

/-- For every run the end of the stream holds just if every push after the close brings no data or
finds no room. -/
theorem endHolds_iff_sparesEnd (capacity : UInt64) (ops : List Op) :
    EndHolds capacity ops ↔ SparesEnd capacity ops := by
  constructor
  · rintro ⟨unchanged, -⟩
    refine eachAttempt_iff.mpr ?_
    rintro before op after traffic split ran data rfl closed
    have same := unchanged before data after traffic split ((run_isClosed ran).mp closed) ran
    exact (accepted_eq_nil_iff _ _).mp ((push_unchanged_iff _ _).mp same)
  · intro spared
    constructor
    · intro before data after traffic split closes ran
      have spares := eachAttempt_iff.mp spared before (.push data) after traffic split ran
      refine (push_unchanged_iff _ _).mpr ((accepted_eq_nil_iff _ _).mpr ?_)
      exact spares data rfl ((run_isClosed ran).mpr closes)
    · intro before after later traffic final split ran finished lastRan
      have still := run_isFinished spared split ran finished lastRan
      refine ⟨still, ?_⟩
      rw [← run_conserved lastRan, ((isFinished_iff _).mp still).2, List.append_nil]

/-- A byte that is pushed after the stream was closed and popped. -/
def pushedAfterEnd : List Op := [.push [97], .pop 1, .close, .push [98]]

theorem endHolds_fails_pushedAfterEnd :
    ¬ EndHolds 2 pushedAfterEnd ∧
      (run 2 [.push [97], .pop 1, .close]).map (fun traffic => traffic.stream.isFinished) =
        .ok true ∧
      (run 2 pushedAfterEnd).map (fun traffic => traffic.stream.isFinished) = .ok false := by
  refine ⟨?_, by decide, by decide⟩
  rintro ⟨unchanged, -⟩
  have same := unchanged [.push [97], .pop 1, .close] [98] [] _ rfl (by decide) rfl
  exact absurd same.2 (by decide)

end Traffic

end Minnow.Stream
