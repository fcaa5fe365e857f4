import Minnow.Wire.Encoding

/-!
# Reading across empty buffers

Where no buffer is empty among those that hold the next bytes, a read takes these bytes.  Where
one is, a number is read through the front of nothing, and a string is waited for for ever.
-/

namespace Minnow.Wire

open UnsignedIntegral

namespace Parser

variable {parser : Parser}

/-- A read of `count` bytes: what it gives for them, what it gives once the parser has failed,
and how it goes wrong. -/
structure Reads {Value : Type} (method : ParseM Value) (count : Nat) (value : List UInt8 → Value)
    (out : Value) (stuck : Fault) : Prop where
  failed : ∀ parser : Parser, parser.error = true ∨ parser.input.remaining.length < count →
    method parser = .ok (out, { parser with error := true })
  solid : ∀ parser : Parser, parser.error = false → count ≤ parser.input.remaining.length →
    Solid count parser.input.unread →
      ∃ next, method parser = .ok (value (parser.input.remaining.take count), next) ∧
        next.error = false ∧ next.input.unread = dropBytes count parser.input.unread
  hollow : ∀ parser : Parser, parser.error = false → count ≤ parser.input.remaining.length →
    ¬ Solid count parser.input.unread → method parser = .error stuck

theorem front_of_hollow {others : List Buffer} (unread : parser.input.unread = [] :: others) :
    front parser = .error .endDereferenced :=
  peek_bind (BufferList.peek_of_unread unread) _

theorem integerLoop_of_hollow {count : Nat} (out : Nat)
    (hollow : ¬ Solid count parser.input.unread) :
    integerLoop count out parser = .error .endDereferenced := by
  induction count generalizing parser out with
  | zero => exact absurd (solid_zero _) hollow
  | succ count ih =>
      cases unread : parser.input.unread with
      | nil => exact absurd (unread ▸ True.intro) hollow
      | cons front others =>
          cases front with
          | nil => exact bind_of_error (front_of_hollow unread)
          | cons byte more =>
              have first : Solid 1 parser.input.unread :=
                unread ▸ solid_of_le (Nat.le_add_left 1 more.length) others
              rw [Nat.add_comm, solid_add, ← unread_skipped] at hollow
              have behind := ih (out * 256 + byte.toNat) (fun solid => hollow ⟨first, solid⟩)
              exact (bind_of_ok (front_of_unread unread)).trans behind

theorem stringLoop_of_hollow (fuel : Nat) {count : Nat}
    (hollow : ¬ Solid count parser.input.unread) :
    stringLoop fuel count parser = .error .outOfFuel := by
  induction fuel generalizing parser count with
  | zero =>
      cases count with
      | zero => exact absurd (solid_zero _) hollow
      | succ count => rfl
  | succ fuel ih =>
      cases count with
      | zero => exact absurd (solid_zero _) hollow
      | succ count =>
          cases unread : parser.input.unread with
          | nil => exact absurd (unread ▸ True.intro) hollow
          | cons front others =>
              have first : Solid (front.take (count + 1)).length parser.input.unread := by
                rw [unread, List.length_take]
                exact solid_of_le (Nat.min_le_right _ _) others
              have short : (front.take (count + 1)).length ≤ count + 1 := by
                rw [List.length_take]
                exact Nat.min_le_left _ _
              rw [← Nat.add_sub_cancel' short, solid_add, ← unread_skipped] at hollow
              have behind := ih (fun solid => hollow ⟨first, solid⟩)
              rw [stringLoop]
              refine (peek_bind (BufferList.peek_of_unread unread) _).trans ?_
              rw [removePrefix_bind]
              exact bind_of_error behind

/-- The view is the beginning of what is left. -/
theorem take_view (front rest : List UInt8) (count : Nat) :
    (front ++ rest).take (front.take count).length = front.take count := by
  rw [List.length_take, List.take_append_of_le_length (Nat.min_le_right _ _),
    ← List.take_eq_take_min]

theorem stringLoop_of_solid {fuel count : Nat} (fuelled : count ≤ fuel)
    (solid : Solid count parser.input.unread) (enough : count ≤ parser.input.remaining.length) :
    ∃ next, stringLoop fuel count parser = .ok (parser.input.remaining.take count, next) ∧
      next.error = parser.error ∧ next.input.unread = dropBytes count parser.input.unread := by
  induction fuel generalizing parser count with
  | zero =>
      cases Nat.eq_zero_of_le_zero fuelled
      exact ⟨parser, rfl, rfl, (dropBytes_zero _).symm⟩
  | succ fuel ih =>
      cases count with
      | zero => exact ⟨parser, rfl, rfl, (dropBytes_zero _).symm⟩
      | succ count =>
          obtain ⟨byte, more, others, unread⟩ := exists_front solid enough
          have view := take_view (byte :: more) others.flatten (count + 1)
          have short : ((byte :: more).take (count + 1)).length ≤ count + 1 :=
            List.length_take_le _ _
          have some : 0 < ((byte :: more).take (count + 1)).length := Nat.succ_pos _
          rw [← List.flatten_cons, ← unread, BufferList.unread_flatten] at view
          rw [← Nat.add_sub_cancel' short, solid_add, ← unread_skipped] at solid
          obtain ⟨next, looped, error, behind⟩ := ih (by omega) solid.2 (by
            rw [remaining_skipped, List.length_drop]
            omega)
          refine ⟨next, ?_, error, ?_⟩
          · have split : parser.input.remaining.take (count + 1) =
                (byte :: more).take (count + 1) ++ (parser.input.remaining.drop
                  ((byte :: more).take (count + 1)).length).take
                    (count + 1 - ((byte :: more).take (count + 1)).length) := by
              conv_lhs => rw [← Nat.add_sub_cancel' short, List.take_add, view]
            rw [remaining_skipped] at looped
            rw [stringLoop, split]
            refine (peek_bind (BufferList.peek_of_unread unread) _).trans ?_
            rw [removePrefix_bind]
            exact bind_of_ok looped
          · rw [behind, unread_skipped, dropBytes_dropBytes, Nat.add_sub_cancel' short]

theorem reads_integer {T : Type} [UnsignedIntegral T] (out : T) :
    Reads (integer out) (size T) (fun bytes => ofNat (fromBigEndian 0 bytes)) out
      .endDereferenced where
  failed := fun _ failed => checked_of_failed out _ failed
  solid := by
    intro parser fine enough solid
    obtain ⟨next, looped, error, unread⟩ := integerLoop_of_solid 0 solid enough
    refine ⟨next, ?_, error.trans fine, unread⟩
    exact (checked_of_fine out _ fine enough).trans (bind_of_ok looped)
  hollow := by
    intro parser fine enough hollow
    exact (checked_of_fine out _ fine enough).trans
      (bind_of_error (integerLoop_of_hollow 0 hollow))

theorem reads_string (out : List UInt8) :
    Reads (string out) out.length id out .outOfFuel where
  failed := fun _ failed => checked_of_failed out _ failed
  solid := by
    intro parser fine enough solid
    obtain ⟨next, looped, error, unread⟩ := stringLoop_of_solid (Nat.le_refl _) solid enough
    exact ⟨next, (checked_of_fine out _ fine enough).trans looped, error.trans fine, unread⟩
  hollow := by
    intro parser fine enough hollow
    exact (checked_of_fine out _ fine enough).trans (stringLoop_of_hollow _ hollow)

end Parser

end Minnow.Wire
