import Mathlib.Logic.Relation

/-!
# Transition systems and simulations

A system starts in one of its initial states and takes any number of steps.  Invariants and
simulations are asked only of the states within a bound that, once passed, stays passed.
-/

namespace Minnow.Foundation

structure TransitionSystem (State : Type*) where
  Initial : State → Prop
  Step : State → State → Prop

namespace TransitionSystem

variable {State Other Third : Type*}

/-- Any number of steps. -/
def Steps (system : TransitionSystem State) : State → State → Prop :=
  Relation.ReflTransGen system.Step

def Reachable (system : TransitionSystem State) (state : State) : Prop :=
  ∃ start, system.Initial start ∧ system.Steps start state

variable {system : TransitionSystem State}

theorem Reachable.start {state : State} (initial : system.Initial state) : system.Reachable state :=
  ⟨state, initial, Relation.ReflTransGen.refl⟩

theorem Reachable.step {state next : State} (reached : system.Reachable state)
    (step : system.Step state next) : system.Reachable next := by
  obtain ⟨start, initial, steps⟩ := reached
  exact ⟨start, initial, steps.tail step⟩

theorem Reachable.steps {state final : State} (reached : system.Reachable state)
    (steps : system.Steps state final) : system.Reachable final := by
  obtain ⟨start, initial, before⟩ := reached
  exact ⟨start, initial, before.trans steps⟩

/-- A sequence of moves that can each be made is so many steps. -/
theorem steps_of_moves {Move : Type*} {play : State → Move → Option State}
    (sound : ∀ state move next, play state move = some next → system.Step state next)
    {state final : State} {moves : List Move} (played : moves.foldlM play state = some final) :
    system.Steps state final := by
  induction moves generalizing state with
  | nil =>
      cases played
      exact Relation.ReflTransGen.refl
  | cons move moves ih =>
      rw [List.foldlM_cons] at played
      obtain ⟨middle, first, rest⟩ := Option.bind_eq_some_iff.mp played
      exact Relation.ReflTransGen.head (sound state move middle first) (ih rest)

/-! ## Bounds and invariants -/

/-- Only states within the bound lead to a state within it. -/
def Monotone (system : TransitionSystem State) (Bound : State → Prop) : Prop :=
  ∀ state next, system.Step state next → Bound next → Bound state

theorem Monotone.steps {Bound : State → Prop} (monotone : system.Monotone Bound)
    {state final : State} (steps : system.Steps state final) (bounded : Bound final) :
    Bound state := by
  induction steps with
  | refl => exact bounded
  | tail _ step ih => exact ih (monotone _ _ step bounded)

/-- What holds at the start and is kept by every step within the bound. -/
structure Keeps (system : TransitionSystem State) (Bound Inv : State → Prop) : Prop where
  monotone : system.Monotone Bound
  initial : ∀ state, system.Initial state → Inv state
  preserved : ∀ state next, Inv state → system.Step state next → Bound next → Inv next

theorem Keeps.reachable {Bound Inv : State → Prop} (keeps : system.Keeps Bound Inv) {state : State}
    (reached : system.Reachable state) (bounded : Bound state) : Inv state := by
  obtain ⟨start, initial, steps⟩ := reached
  induction steps with
  | refl => exact keeps.initial _ initial
  | tail _ step ih => exact keeps.preserved _ _ (ih (keeps.monotone _ _ step bounded)) step bounded

/-! ## Simulations -/

/-- Every step of the first system within the bound is matched by steps of the second. -/
structure Simulates (concrete : TransitionSystem State) (abstract : TransitionSystem Other)
    (Bound : State → Prop) (Related : State → Other → Prop) : Prop where
  monotone : concrete.Monotone Bound
  initial : ∀ state, concrete.Initial state → ∃ other, abstract.Initial other ∧ Related state other
  matched : ∀ state next other, Related state other → concrete.Step state next → Bound next →
    ∃ later, abstract.Steps other later ∧ Related next later

variable {concrete : TransitionSystem State} {abstract : TransitionSystem Other}
  {Bound : State → Prop} {Related : State → Other → Prop}

namespace Simulates

theorem steps (simulates : Simulates concrete abstract Bound Related) {state final : State}
    {other : Other} (related : Related state other) (steps : concrete.Steps state final)
    (bounded : Bound final) : ∃ later, abstract.Steps other later ∧ Related final later := by
  induction steps with
  | refl => exact ⟨other, Relation.ReflTransGen.refl, related⟩
  | tail _ step ih =>
      obtain ⟨middle, before, between⟩ := ih (simulates.monotone _ _ step bounded)
      obtain ⟨later, after, still⟩ := simulates.matched _ _ _ between step bounded
      exact ⟨later, before.trans after, still⟩

/-- A reachable state of the first system stands for one of the second. -/
theorem reachable (simulates : Simulates concrete abstract Bound Related) {state : State}
    (reached : concrete.Reachable state) (bounded : Bound state) :
    ∃ other, abstract.Reachable other ∧ Related state other := by
  obtain ⟨start, initial, steps⟩ := reached
  obtain ⟨other, otherInitial, related⟩ := simulates.initial start initial
  obtain ⟨later, after, still⟩ := simulates.steps related steps bounded
  exact ⟨later, ⟨other, otherInitial, after⟩, still⟩

theorem trans {top : TransitionSystem Third} {Within : Other → Prop}
    {Above : Other → Third → Prop} (lower : Simulates concrete abstract Bound Related)
    (upper : Simulates abstract top Within Above)
    (within : ∀ state other, Related state other → Bound state → Within other) :
    Simulates concrete top Bound fun state third => ∃ other, Related state other ∧ Above other third where
  monotone := lower.monotone
  initial := by
    intro state initial
    obtain ⟨other, otherInitial, related⟩ := lower.initial state initial
    obtain ⟨third, thirdInitial, above⟩ := upper.initial other otherInitial
    exact ⟨third, thirdInitial, other, related, above⟩
  matched := by
    rintro state next third ⟨other, related, above⟩ step bounded
    obtain ⟨later, after, still⟩ := lower.matched state next other related step bounded
    obtain ⟨final, last, stillAbove⟩ := upper.steps above after (within next later still bounded)
    exact ⟨final, last, later, still, stillAbove⟩

end Simulates

end TransitionSystem

end Minnow.Foundation
