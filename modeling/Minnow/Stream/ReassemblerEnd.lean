import Minnow.Stream.ReassemblerReach
import Minnow.Stream.ReassemblerRuns

/-!
# The end of the stream

Once closed, or once one end is announced, the output should not grow past that
point.  Neither storing nor writing looks at the end or at the flag, so it does grow
in the runs in which an insertion supplies the missing bytes up to the end.
-/

namespace Minnow.Stream

open Foundation Foundation.Words Foundation.Chunks Foundation.Runs

namespace Assembly

/-- Every byte from the write position through `last` is held or taken of the substring, and the
stream has room for all of them. -/
def Completes (assembly : Assembly) (firstIndex : Nat) (data : List UInt8) (last : Nat) : Prop :=
  ∀ index, assembly.position ≤ index → index ≤ last →
    assembly.reassembler.Ready assembly.output firstIndex data index

/-- The only end announced so far, by a call at which it was not yet passed. -/
def OnlyEnd (capacity : UInt64) (ops : List Op) (final : Nat) : Prop :=
  (∃ before firstIndex data, before ++ [.insert firstIndex data true] <+: ops ∧
    add64 firstIndex data.length = final ∧ (run capacity before).position ≤ final) ∧
  ∀ firstIndex data, Op.insert firstIndex data true ∈ ops → add64 firstIndex data.length = final

/-- Nothing was pushed since the stream was closed, and nothing at or past the only
end announced. -/
def EndKept (capacity : UInt64) (history : List Op) : Prop :=
  (∀ before, before <+: history → (run capacity before).output.isClosed = true →
    (run capacity history).position = (run capacity before).position) ∧
  ∀ final, OnlyEnd capacity history final → (run capacity history).position ≤ final

/-- The end is kept after every call of the run. -/
def EndIsFinal (capacity : UInt64) (ops : List Op) : Prop :=
  ∀ history, history <+: ops → EndKept capacity history

/-- No insertion of the run supplies the byte at the write position of a closed stream,
or the bytes through the only end announced. -/
def NeverCompletes (capacity : UInt64) (ops : List Op) : Prop :=
  ∀ before firstIndex data isLastSubstring,
    before ++ [.insert firstIndex data isLastSubstring] <+: ops →
    ((run capacity before).output.isClosed = true →
      ¬ (run capacity before).Completes firstIndex data (run capacity before).position) ∧
    ∀ final, (run capacity before).position ≤ final →
      OnlyEnd capacity (before ++ [.insert firstIndex data isLastSubstring]) final →
      ¬ (run capacity before).Completes firstIndex data final

/-! ## One insertion -/

/-- An insertion pushes through an index just if it completes the bytes up to it. -/
theorem lt_position_insert_iff {assembly : Assembly} (sound : assembly.Sound) (firstIndex : Nat)
    (data : List UInt8) (isLastSubstring : Bool) (last : Nat) :
    last < (assembly.insert firstIndex data isLastSubstring).position ↔
      assembly.Completes firstIndex data last :=
  Reassembler.lt_bytesPushed_insert_iff sound.stored sound.counted firstIndex data isLastSubstring
    last

/-! ## Runs -/

theorem run_snoc (capacity : UInt64) (ops : List Op) (op : Op) :
    run capacity (ops ++ [op]) = (run capacity ops).step op :=
  exec_snoc _ _ _ _

/-- The end announced with the last call was announced before it, or is ahead still. -/
theorem OnlyEnd.of_snoc {capacity : UInt64} {ops : List Op} {op : Op} {final : Nat}
    (only : OnlyEnd capacity (ops ++ [op]) final) :
    OnlyEnd capacity ops final ∨ (run capacity ops).position ≤ final := by
  obtain ⟨⟨before, firstIndex, data, begins, announced, ahead⟩, others⟩ := only
  rcases List.prefix_concat_iff.mp begins with whole | earlier
  · obtain ⟨rfl, _⟩ := List.append_inj' whole rfl
    exact Or.inr ahead
  · refine Or.inl ⟨⟨before, firstIndex, data, earlier, announced, ahead⟩, ?_⟩
    exact fun start bytes inside => others start bytes (List.mem_append_left _ inside)

theorem endIsFinal_of_neverCompletes {capacity : UInt64} {ops : List Op}
    (never : NeverCompletes capacity ops) : EndIsFinal capacity ops := by
  intro history begins
  refine history_induction (EndKept capacity) ?_ ?_ begins
  · refine ⟨?_, ?_⟩
    · intro before begins _
      rw [List.prefix_nil.mp begins]
    · exact fun final _ => Nat.zero_le _
  · rintro history op begins ⟨closedHere, endHere⟩
    have sound := run_sound capacity history
    have ahead : ∀ final, OnlyEnd capacity (history ++ [op]) final →
        (run capacity history).position ≤ final := by
      intro final only
      rcases only.of_snoc with old | stillAhead
      · exact endHere final old
      · exact stillAhead
    unfold EndKept
    rw [run_snoc]
    cases op with
    | pop len =>
        refine ⟨?_, ahead⟩
        intro before begins closed
        rcases List.prefix_concat_iff.mp begins with whole | earlier
        · rw [whole, run_snoc]
        · exact closedHere before earlier closed
    | insert firstIndex data isLastSubstring =>
        obtain ⟨closedNever, endNever⟩ := never history firstIndex data isLastSubstring begins
        refine ⟨?_, ?_⟩
        · intro before begins closed
          rcases List.prefix_concat_iff.mp begins with whole | earlier
          · rw [whole, run_snoc]
          · have same := closedHere before earlier closed
            have closedNow : (run capacity history).output.isClosed = true := by
              obtain ⟨after, rfl⟩ := earlier
              rw [run, exec_append]
              exact isClosed_exec (run_sound capacity before) closed after
            refine Nat.le_antisymm ?_ (same ▸ position_le_step sound _)
            refine Nat.le_of_not_lt (fun pushed => closedNever closedNow ?_)
            exact (lt_position_insert_iff sound ..).mp (same ▸ pushed)
        · intro final only
          refine Nat.le_of_not_lt (fun pushed => endNever final (ahead final only) only ?_)
          exact (lt_position_insert_iff sound ..).mp pushed

theorem neverCompletes_of_endIsFinal {capacity : UInt64} {ops : List Op}
    (isFinal : EndIsFinal capacity ops) : NeverCompletes capacity ops := by
  intro before firstIndex data isLastSubstring begins
  have sound := run_sound capacity before
  have earlier : before <+: before ++ [.insert firstIndex data isLastSubstring] :=
    List.prefix_append _ _
  obtain ⟨closedSame, endHolds⟩ := isFinal _ begins
  rw [run_snoc] at closedSame endHolds
  refine ⟨?_, ?_⟩
  · intro closed completes
    have pushed := (lt_position_insert_iff sound _ _ isLastSubstring _).mpr completes
    exact absurd (closedSame before earlier closed) (Nat.ne_of_gt pushed)
  · intro final _ only completes
    have pushed := (lt_position_insert_iff sound _ _ isLastSubstring _).mpr completes
    exact absurd (endHolds final only) (Nat.not_le.mpr pushed)

/-- The end is final in those runs in which no insertion completes the bytes up to it, and in no
others. -/
theorem endIsFinal_iff_neverCompletes (capacity : UInt64) (ops : List Op) :
    EndIsFinal capacity ops ↔ NeverCompletes capacity ops :=
  ⟨neverCompletes_of_endIsFinal, endIsFinal_of_neverCompletes⟩

/-- The first substring closes the stream, the second one is still pushed. -/
theorem endIsFinal_fails_after_close :
    ¬ EndIsFinal 4 [.insert 0 [97] true, .insert 1 [98] false] := by
  intro isFinal
  have same := (isFinal _ (List.prefix_refl _)).1 [.insert 0 [97] true]
    ⟨[.insert 1 [98] false], rfl⟩ (by decide)
  exact absurd same (by decide)

end Assembly

end Minnow.Stream
