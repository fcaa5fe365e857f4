import Mathlib.Tactic.Common

/-!
# Calls that do not return
-/

namespace Minnow

/-- The ways a call can fail to return: an exception with its text, the read of an
iterator that stands at the end of its container or through a null pointer, or a loop that
goes on for ever. -/
inductive Fault where
  | thrown (message : String)
  | endDereferenced
  | nullDereferenced
  | outOfFuel
  deriving DecidableEq, Repr

namespace Fault

variable {Value Result : Type}

/-- A sequence returns just if both its parts do. -/
theorem bind_eq_ok {call : Except Fault Value} {next : Value → Except Fault Result}
    {result : Result} :
    call >>= next = .ok result ↔ ∃ value, call = .ok value ∧ next value = .ok result := by
  cases call with
  | error fault =>
      constructor
      · exact fun bound => nomatch bound
      · exact fun ⟨_, returned, _⟩ => nomatch returned
  | ok value =>
      constructor
      · exact fun bound => ⟨value, rfl, bound⟩
      · rintro ⟨_, ⟨⟩, returned⟩
        exact returned

theorem map_eq_ok {call : Except Fault Value} {next : Value → Result} {result : Result} :
    next <$> call = .ok result ↔ ∃ value, call = .ok value ∧ next value = result := by
  cases call with
  | error fault =>
      constructor
      · exact fun mapped => nomatch mapped
      · exact fun ⟨_, returned, _⟩ => nomatch returned
  | ok value =>
      constructor
      · exact fun mapped => ⟨value, rfl, Except.ok.inj mapped⟩
      · rintro ⟨_, ⟨⟩, rfl⟩
        rfl

theorem ok_of_toOption {call : Except Fault Value} {value : Value}
    (found : call.toOption = some value) : call = .ok value := by
  cases call with
  | error fault => cases found
  | ok other =>
      cases found
      rfl

/-- A sequence returns when its first part does and its second part always does. -/
theorem bind_returns {call : Except Fault Value} {next : Value → Except Fault Result}
    (first : ∃ value, call = .ok value) (rest : ∀ value, ∃ result, next value = .ok result) :
    ∃ result, call >>= next = .ok result := by
  obtain ⟨value, returned⟩ := first
  obtain ⟨result, done⟩ := rest value
  exact ⟨result, bind_eq_ok.mpr ⟨value, returned, done⟩⟩

theorem ite_returns {test : Prop} [Decidable test] {first second : Except Fault Result}
    (here : ∃ result, first = .ok result) (there : ∃ result, second = .ok result) :
    ∃ result, (if test then first else second) = .ok result := by
  split
  · exact here
  · exact there

end Fault

end Minnow
