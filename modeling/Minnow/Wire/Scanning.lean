import Minnow.Wire.Encoding

/-!
# Reading whatever comes

A method that reads numbers one after the other returns on every input, as long as the buffers
hold what they seem to.  After it the error tells whether the input was too short, and the
numbers are those that the bytes stand for.
-/

namespace Minnow.Wire

open UnsignedIntegral

/-- No buffer is empty among those that hold the first `count` bytes, or all if there are fewer. -/
def Readable (count : Nat) (buffers : List Buffer) : Prop :=
  Solid (min count buffers.flatten.length) buffers

/-- A single buffer can be read, empty or not. -/
theorem readable_single (count : Nat) (buffer : Buffer) : Readable count [buffer] := by
  rw [Readable, List.flatten_singleton]
  exact solid_of_le (Nat.min_le_right _ _) []

namespace Parser

variable {parser : Parser} {Result : Type}

/-- `used` bytes of the input are asked for so far, and `count` more can be. -/
structure Scanned (whole : List UInt8) (used count : Nat) (parser : Parser) : Prop where
  error : parser.error = decide (whole.length < used)
  remaining : used ≤ whole.length → parser.input.remaining = whole.drop used
  solid : used ≤ whole.length → Solid (min count (whole.length - used)) parser.input.unread

variable {whole : List UInt8} {used count : Nat}

theorem scanned_new {buffers : List Buffer} (readable : Readable count buffers) :
    Scanned buffers.flatten 0 count (new buffers) where
  error := (decide_eq_false (Nat.not_lt_zero _)).symm
  remaining := fun _ => BufferList.remaining_ofBuffers buffers
  solid := by
    intro _
    rw [new, BufferList.unread_ofBuffers]
    exact readable

/-- A number is read, or the error is set. -/
theorem Scanned.integer {T : Type} [UnsignedIntegral T] (out : T)
    (scanned : Scanned whole used (size T + count) parser) :
    ∃ value next, integer out parser = .ok (value, next) ∧
      Scanned whole (used + size T) count next ∧
      (used + size T ≤ whole.length → value = decode T (whole.drop used)) := by
  have error := scanned.error
  by_cases short : whole.length < used + size T
  · have failed : parser.error = true ∨ parser.input.remaining.length < size T := by
      rcases Nat.lt_or_ge whole.length used with spent | within
      · exact .inl (error.trans (decide_eq_true spent))
      · refine .inr ?_
        rw [scanned.remaining within, List.length_drop]
        omega
    refine ⟨out, _, checked_of_failed out _ failed, ⟨?_, ?_, ?_⟩, ?_⟩
    · exact (decide_eq_true short).symm
    · exact fun enough => absurd short (Nat.not_lt.mpr enough)
    · exact fun enough => absurd short (Nat.not_lt.mpr enough)
    · exact fun enough => absurd short (Nat.not_lt.mpr enough)
  have enough := Nat.not_lt.mp short
  have within : used ≤ whole.length := by omega
  have remaining := scanned.remaining within
  have solid := scanned.solid within
  rw [decide_eq_false (Nat.not_lt.mpr within)] at error
  have front : ((whole.drop used).take (size T)).length = size T := by
    rw [List.length_take, List.length_drop]
    omega
  have behind : ((whole.drop (used + size T)).take count).length =
      min count (whole.length - (used + size T)) := by
    rw [List.length_take, List.length_drop]
  have split := List.take_append_drop count (whole.drop (used + size T))
  rw [List.drop_drop] at split
  have before : parser.Before
      ((whole.drop used).take (size T) ++ (whole.drop (used + size T)).take count)
      (whole.drop (used + size T + count)) := by
    refine ⟨error, ?_, ?_⟩
    · rw [remaining, List.append_assoc, split, ← List.drop_drop, List.take_append_drop]
    · rw [List.length_append, front, behind]
      refine solid.of_le ?_
      omega
  obtain ⟨next, ran, after⟩ := integer_of_before out before front
  refine ⟨_, next, ran, ⟨?_, ?_, ?_⟩, fun _ => rfl⟩
  · rw [after.fine]
    exact (decide_eq_false short).symm
  · exact fun _ => after.remaining.trans split
  · intro _
    rw [← behind]
    exact after.solid

/-- What follows a number is followed from the parser that reading it leaves. -/
theorem Scanned.followed {T : Type} [UnsignedIntegral T] (out : T) (count : Nat)
    (scanned : Scanned whole used (size T + count) parser) {later : T → ParseM Result}
    {After : Result → Parser → Prop}
    (there : ∀ value next, Scanned whole (used + size T) count next →
      (used + size T ≤ whole.length → value = decode T (whole.drop used)) →
      ∃ result final, later value next = .ok (result, final) ∧ After result final) :
    ∃ result final, (Parser.integer out >>= later) parser = .ok (result, final) ∧
      After result final := by
  obtain ⟨value, next, ran, after, reads⟩ := scanned.integer out
  obtain ⟨result, final, done, last⟩ := there value next after reads
  exact ⟨result, final, bind_eq_ok.mpr ⟨value, next, ran, done⟩, last⟩

end Parser

end Minnow.Wire
