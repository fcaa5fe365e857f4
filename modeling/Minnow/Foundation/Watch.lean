import Mathlib.Control.Monad.Writer

/-!
# Watched computations

An operation used outside its precondition can go on without a trace in what is computed.
A watched computation gives its result and, in order, the hazards it ran into.
-/

namespace Minnow.Foundation

abbrev Watch (Hazard : Type) := Writer (List Hazard)

namespace Watch

variable {Hazard Result Next : Type}

def value (watch : Watch Hazard Result) : Result := (WriterT.run watch).1

def hazards (watch : Watch Hazard Result) : List Hazard := (WriterT.run watch).2

/-- Note the hazard unless the precondition holds. -/
def expect (holds : Prop) [Decidable holds] (hazard : Hazard) : Watch Hazard Unit :=
  if holds then pure () else MonadWriter.tell [hazard]

@[simp] theorem value_pure (result : Result) :
    value (pure result : Watch Hazard Result) = result := rfl

@[simp] theorem hazards_pure (result : Result) :
    hazards (pure result : Watch Hazard Result) = [] := rfl

@[simp] theorem value_bind (first : Watch Hazard Result) (next : Result → Watch Hazard Next) :
    value (first >>= next) = value (next (value first)) := rfl

@[simp] theorem hazards_bind (first : Watch Hazard Result) (next : Result → Watch Hazard Next) :
    hazards (first >>= next) = hazards first ++ hazards (next (value first)) := rfl

@[simp] theorem value_ite (test : Prop) [Decidable test] (first second : Watch Hazard Result) :
    value (if test then first else second) = if test then value first else value second :=
  apply_ite value test first second

@[simp] theorem hazards_ite (test : Prop) [Decidable test] (first second : Watch Hazard Result) :
    hazards (if test then first else second) = if test then hazards first else hazards second :=
  apply_ite hazards test first second

@[simp] theorem hazards_expect (holds : Prop) [Decidable holds] (hazard : Hazard) :
    hazards (expect holds hazard) = if holds then [] else [hazard] := by
  rw [expect, hazards_ite]
  rfl

end Watch

end Minnow.Foundation
