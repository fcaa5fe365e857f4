import Mathlib.Algebra.Order.Ring.Nat
import Mathlib.Data.List.Induction
import Mathlib.Order.Monotone.Basic

/-!
# Runs of a deterministic machine

A machine is a step function over operations.  A run does a list of operations
from a start state.  `EachStep` holds a condition against every operation in the
state before it, `EachState` a property against every state reached.  A machine whose
steps can fail runs with `attempt`.
-/

namespace Minnow.Foundation.Runs

variable {State Op : Type*} (step : State → Op → State)

/-- The state after doing the operations in order. -/
def exec (start : State) (ops : List Op) : State := ops.foldl step start

@[simp] theorem exec_nil (start : State) : exec step start [] = start := rfl

@[simp] theorem exec_cons (start : State) (op : Op) (ops : List Op) :
    exec step start (op :: ops) = exec step (step start op) ops := rfl

theorem exec_append (start : State) (first second : List Op) :
    exec step start (first ++ second) = exec step (exec step start first) second :=
  List.foldl_append

theorem exec_snoc (start : State) (ops : List Op) (op : Op) :
    exec step start (ops ++ [op]) = step (exec step start ops) op := by
  rw [exec_append, exec_cons, exec_nil]

variable {step}

/-- What every step preserves, every run preserves. -/
theorem exec_invariant (Inv : State → Prop)
    (preserved : ∀ state op, Inv state → Inv (step state op))
    {start : State} (initial : Inv start) (ops : List Op) : Inv (exec step start ops) := by
  induction ops generalizing start with
  | nil => exact initial
  | cons op ops ih => exact ih (preserved start op initial)

/-- A property of the history and the state it leads to, by adding one operation at
the end. -/
theorem exec_history (Allowed : Op → Prop) {start : State} (Inv : List Op → State → Prop)
    (initial : Inv [] start)
    (grows : ∀ ops op, Allowed op → Inv ops (exec step start ops) →
      Inv (ops ++ [op]) (step (exec step start ops) op))
    {ops : List Op} (allowed : ∀ op ∈ ops, Allowed op) : Inv ops (exec step start ops) := by
  induction ops using List.reverseRecOn with
  | nil => exact initial
  | append_singleton ops op ih =>
      rw [exec_snoc]
      refine grows ops op (allowed op (by simp)) (ih ?_)
      exact fun other inside => allowed other (List.mem_append_left _ inside)

/-- What holds before a run and is kept by each of its operations holds of every
history of it. -/
theorem history_induction {ops : List Op} (Holds : List Op → Prop) (initial : Holds [])
    (grows : ∀ history op, history ++ [op] <+: ops → Holds history → Holds (history ++ [op]))
    {history : List Op} (begins : history <+: ops) : Holds history := by
  induction history using List.reverseRecOn with
  | nil => exact initial
  | append_singleton history op ih =>
      exact grows history op begins (ih ((List.prefix_append history [op]).trans begins))

/-- A quantity that no step decreases under an invariant, no run decreases. -/
theorem exec_monotone {Value : Type*} [Preorder Value] (Inv : State → Prop)
    (measure : State → Value) (preserved : ∀ state op, Inv state → Inv (step state op))
    (grows : ∀ state op, Inv state → measure state ≤ measure (step state op))
    {start : State} (initial : Inv start) (ops : List Op) :
    measure start ≤ measure (exec step start ops) := by
  induction ops generalizing start with
  | nil => exact le_refl _
  | cons op ops ih => exact le_trans (grows start op initial) (ih (preserved start op initial))

variable (step)

/-- Every operation of the run meets the condition in the state before it. -/
def EachStep (Condition : State → Op → Prop) : State → List Op → Prop
  | _, [] => True
  | start, op :: ops => Condition start op ∧ EachStep Condition (step start op) ops

/-- Every state of the run, the first and the last included, has the property. -/
def EachState (Property : State → Prop) : State → List Op → Prop
  | start, [] => Property start
  | start, op :: ops => Property start ∧ EachState Property (step start op) ops

variable {step}

theorem EachState.start {Property : State → Prop} {start : State} {ops : List Op}
    (each : EachState step Property start ops) : Property start := by
  cases ops with
  | nil => exact each
  | cons op ops => exact each.1

/-- The two readings of a run agree when, under an invariant, a step meets the
condition exactly if the state it leads to has the property. -/
theorem eachState_iff_eachStep (Inv Property : State → Prop) (Condition : State → Op → Prop)
    (preserved : ∀ state op, Inv state → Inv (step state op))
    (exact_step : ∀ state op, Inv state → Property state →
      (Property (step state op) ↔ Condition state op))
    {start : State} (initial : Inv start) (holds : Property start) (ops : List Op) :
    EachState step Property start ops ↔ EachStep step Condition start ops := by
  induction ops generalizing start with
  | nil => exact iff_of_true holds True.intro
  | cons op ops ih =>
      have here := exact_step start op initial holds
      constructor
      · rintro ⟨_, rest⟩
        exact ⟨here.mp rest.start, (ih (preserved start op initial) rest.start).mp rest⟩
      · rintro ⟨met, rest⟩
        exact ⟨holds, (ih (preserved start op initial) (here.mpr met)).mpr rest⟩

/-! ## Machines whose steps can fail -/

variable {Fault : Type*} (act : State → Op → Except Fault State)

/-- The state after doing the operations in order, or the first fault. -/
def attempt (start : State) (ops : List Op) : Except Fault State := ops.foldlM act start

@[simp] theorem attempt_nil (start : State) : attempt act start [] = .ok start := rfl

theorem attempt_cons (start : State) (op : Op) (ops : List Op) :
    attempt act start (op :: ops) = (act start op).bind (fun next => attempt act next ops) := rfl

theorem attempt_append (start : State) (first second : List Op) :
    attempt act start (first ++ second) =
      (attempt act start first).bind (fun middle => attempt act middle second) :=
  List.foldlM_append

variable {act}

/-- A run that did not fail did not fail halfway. -/
theorem attempt_append_ok {start final : State} {first second : List Op}
    (ran : attempt act start (first ++ second) = .ok final) :
    ∃ middle, attempt act start first = .ok middle ∧ attempt act middle second = .ok final := by
  rw [attempt_append] at ran
  cases half : attempt act start first with
  | error fault => exact nomatch half ▸ ran
  | ok middle =>
      rw [half] at ran
      exact ⟨middle, rfl, ran⟩

theorem attempt_snoc_ok {start final : State} {ops : List Op} {op : Op}
    (ran : attempt act start (ops ++ [op]) = .ok final) :
    ∃ middle, attempt act start ops = .ok middle ∧ act middle op = .ok final := by
  obtain ⟨middle, before, last⟩ := attempt_append_ok ran
  refine ⟨middle, before, ?_⟩
  rw [attempt_cons] at last
  cases stepped : act middle op with
  | error fault => exact nomatch stepped ▸ last
  | ok next =>
      rw [stepped] at last
      exact last

theorem attempt_snoc_of_ok {start middle final : State} {ops : List Op} {op : Op}
    (ran : attempt act start ops = .ok middle) (stepped : act middle op = .ok final) :
    attempt act start (ops ++ [op]) = .ok final := by
  rw [attempt_append, ran]
  change (act middle op).bind _ = _
  rw [stepped]
  rfl

/-- What every step that succeeds preserves, every run that succeeds preserves. -/
theorem attempt_invariant (Inv : State → Prop)
    (preserved : ∀ state op next, Inv state → act state op = .ok next → Inv next)
    {start final : State} {ops : List Op} (initial : Inv start)
    (ran : attempt act start ops = .ok final) : Inv final := by
  induction ops using List.reverseRecOn generalizing final with
  | nil =>
      cases ran
      exact initial
  | append_singleton ops op ih =>
      obtain ⟨middle, before, last⟩ := attempt_snoc_ok ran
      exact preserved middle op final (ih before) last

variable (act)

/-- Every operation of the run, up to a fault, meets the condition in the state before
it. -/
def EachAttempt (Condition : State → Op → Prop) : State → List Op → Prop
  | _, [] => True
  | start, op :: ops =>
      Condition start op ∧
        match act start op with
        | .ok next => EachAttempt Condition next ops
        | .error _ => True

/-- Every state the run reaches has the property. -/
def EachReached (Property : State → Prop) : State → List Op → Prop
  | start, [] => Property start
  | start, op :: ops =>
      Property start ∧
        match act start op with
        | .ok next => EachReached Property next ops
        | .error _ => True

instance decidableEachAttempt (Condition : State → Op → Prop)
    [∀ state op, Decidable (Condition state op)] :
    ∀ start ops, Decidable (EachAttempt act Condition start ops)
  | _, [] => isTrue True.intro
  | start, op :: ops =>
      match ran : act start op with
      | .ok next =>
          have := decidableEachAttempt Condition next ops
          decidable_of_iff (Condition start op ∧ EachAttempt act Condition next ops)
            (by rw [EachAttempt, ran])
      | .error _ =>
          decidable_of_iff (Condition start op ∧ True) (by rw [EachAttempt, ran])

instance decidableEachReached (Property : State → Prop) [∀ state, Decidable (Property state)] :
    ∀ start ops, Decidable (EachReached act Property start ops)
  | start, [] => inferInstanceAs (Decidable (Property start))
  | start, op :: ops =>
      match ran : act start op with
      | .ok next =>
          have := decidableEachReached Property next ops
          decidable_of_iff (Property start ∧ EachReached act Property next ops)
            (by rw [EachReached, ran])
      | .error _ =>
          decidable_of_iff (Property start ∧ True) (by rw [EachReached, ran])

variable {act}

/-- Every operation of a run is met in the state that the run before it leads to. -/
theorem eachAttempt_iff {Condition : State → Op → Prop} {start : State} {ops : List Op} :
    EachAttempt act Condition start ops ↔ ∀ before op after state,
      ops = before ++ op :: after → attempt act start before = .ok state → Condition state op := by
  induction ops generalizing start with
  | nil =>
      refine iff_of_true True.intro ?_
      intro before op after state split
      exact absurd split (List.append_ne_nil_of_right_ne_nil _ (List.cons_ne_nil _ _)).symm
  | cons first rest ih =>
      constructor
      · rintro ⟨here, later⟩ before op after state split ran
        cases before with
        | nil =>
            cases split
            cases ran
            exact here
        | cons head tail =>
            obtain ⟨rfl, tailSplit⟩ := List.cons.inj split
            rw [attempt_cons] at ran
            cases stepped : act start first with
            | error fault => exact nomatch stepped ▸ ran
            | ok next =>
                rw [stepped] at ran later
                exact ih.mp later tail op after state tailSplit ran
      · intro each
        refine ⟨each [] first rest start rfl rfl, ?_⟩
        cases stepped : act start first with
        | error fault => exact True.intro
        | ok next =>
            refine ih.mpr fun before op after state split ran => ?_
            refine each (first :: before) op after state (congrArg _ split) ?_
            rw [attempt_cons, stepped]
            exact ran

theorem EachReached.start {Property : State → Prop} {start : State} {ops : List Op}
    (each : EachReached act Property start ops) : Property start := by
  cases ops with
  | nil => exact each
  | cons op ops => exact each.1

/-- A run is reached through its beginnings. -/
theorem EachReached.begins {Property : State → Prop} {start : State} {first second : List Op}
    (each : EachReached act Property start (first ++ second)) :
    EachReached act Property start first := by
  induction first generalizing start with
  | nil => exact each.start
  | cons op ops ih =>
      obtain ⟨here, later⟩ := each
      refine ⟨here, ?_⟩
      cases ran : act start op with
      | error fault => exact True.intro
      | ok next =>
          rw [ran] at later
          exact ih later

theorem EachReached.final {Property : State → Prop} {start final : State} {ops : List Op}
    (each : EachReached act Property start ops) (ran : attempt act start ops = .ok final) :
    Property final := by
  induction ops generalizing start with
  | nil =>
      cases ran
      exact each
  | cons op ops ih =>
      obtain ⟨_, later⟩ := each
      rw [attempt_cons] at ran
      cases stepped : act start op with
      | error fault => exact nomatch stepped ▸ ran
      | ok next =>
          rw [stepped] at ran later
          exact ih later ran

theorem EachReached.snoc {Property : State → Prop} {start middle final : State} {ops : List Op}
    {op : Op} (each : EachReached act Property start ops)
    (ran : attempt act start ops = .ok middle) (stepped : act middle op = .ok final)
    (last : Property final) : EachReached act Property start (ops ++ [op]) := by
  induction ops generalizing start with
  | nil =>
      cases ran
      refine ⟨each, ?_⟩
      rw [stepped]
      exact last
  | cons first ops ih =>
      obtain ⟨here, later⟩ := each
      refine ⟨here, ?_⟩
      rw [attempt_cons] at ran
      cases began : act start first with
      | error fault => exact True.intro
      | ok next =>
          rw [began] at ran later
          exact ih later ran

/-- What holds after a run but not before it has held ever since some step of the run. -/
theorem attempt_since (Property : State → Prop) {start final : State} {ops : List Op}
    (ran : attempt act start ops = .ok final) (absent : ¬ Property start)
    (present : Property final) :
    ∃ before op after earlier next, ops = before ++ op :: after ∧
      attempt act start before = .ok earlier ∧ ¬ Property earlier ∧ act earlier op = .ok next ∧
      attempt act next after = .ok final ∧ EachReached act Property next after := by
  induction ops using List.reverseRecOn generalizing final with
  | nil =>
      cases ran
      exact absurd present absent
  | append_singleton ops op ih =>
      obtain ⟨middle, most, last⟩ := attempt_snoc_ok ran
      by_cases already : Property middle
      · obtain ⟨before, first, after, earlier, next, rfl, begins, not, stepped, rest, each⟩ :=
          ih most already
        refine ⟨before, first, after ++ [op], earlier, next, ?_, begins, not, stepped, ?_, ?_⟩
        · rw [List.append_assoc, List.cons_append]
        · exact attempt_snoc_of_ok rest last
        · exact each.snoc rest last present
      · exact ⟨ops, op, [], middle, final, rfl, most, already, last, rfl, present⟩

/-- An invariant that steps meeting the condition preserve holds throughout a run that
meets it. -/
theorem eachReached_of_eachAttempt (Inv Property : State → Prop) (Condition : State → Op → Prop)
    (holds : ∀ state, Inv state → Property state)
    (preserved : ∀ state op next, Inv state → Condition state op → act state op = .ok next →
      Inv next)
    {start : State} (initial : Inv start) {ops : List Op}
    (met : EachAttempt act Condition start ops) : EachReached act Property start ops := by
  induction ops generalizing start with
  | nil => exact holds start initial
  | cons op ops ih =>
      obtain ⟨here, later⟩ := met
      refine ⟨holds start initial, ?_⟩
      cases ran : act start op with
      | error fault => exact True.intro
      | ok next =>
          rw [ran] at later
          exact ih (preserved start op next initial here ran) later

/-- The two readings of a run agree when, under an invariant of the state and the operations
still to come, a step that succeeds meets the condition exactly if the state it leads to has
the property, and a step that fails meets it. -/
theorem eachReached_iff_of_remaining (Inv : List Op → State → Prop) (Property : State → Prop)
    (Condition : State → Op → Prop)
    (preserved : ∀ op ops state next, Inv (op :: ops) state → act state op = .ok next →
      Inv ops next)
    (exact_step : ∀ op ops state next, Inv (op :: ops) state → Property state →
      act state op = .ok next → (Property next ↔ Condition state op))
    (failing : ∀ state op fault, act state op = .error fault → Condition state op)
    {start : State} {ops : List Op} (initial : Inv ops start) (holds : Property start) :
    EachReached act Property start ops ↔ EachAttempt act Condition start ops := by
  induction ops generalizing start with
  | nil => exact iff_of_true holds True.intro
  | cons op ops ih =>
      rw [EachReached, EachAttempt]
      cases ran : act start op with
      | error fault => exact iff_of_true ⟨holds, True.intro⟩ ⟨failing start op fault ran, True.intro⟩
      | ok next =>
          have kept := preserved op ops start next initial ran
          have here := exact_step op ops start next initial holds ran
          constructor
          · rintro ⟨_, rest⟩
            have reached := rest.start
            exact ⟨here.mp reached, (ih kept reached).mp rest⟩
          · rintro ⟨met, rest⟩
            exact ⟨holds, (ih kept (here.mpr met)).mpr rest⟩

/-- The same agreement for an invariant of the state alone. -/
theorem eachReached_iff_eachAttempt (Inv Property : State → Prop) (Condition : State → Op → Prop)
    (preserved : ∀ state op next, Inv state → act state op = .ok next → Inv next)
    (exact_step : ∀ state op next, Inv state → Property state → act state op = .ok next →
      (Property next ↔ Condition state op))
    (failing : ∀ state op fault, act state op = .error fault → Condition state op)
    {start : State} (initial : Inv start) (holds : Property start) (ops : List Op) :
    EachReached act Property start ops ↔ EachAttempt act Condition start ops :=
  eachReached_iff_of_remaining (fun _ => Inv) Property Condition
    (fun op _ state next => preserved state op next)
    (fun op _ state next => exact_step state op next) failing initial holds

variable (act)

/-- The condition, asked of the operations that do not fail. -/
def WhenReturning (Condition : State → Op → Prop) (state : State) (op : Op) : Prop :=
  ∀ next, act state op = .ok next → Condition state op

variable {act}

/-- The same agreement, with the condition asked only of steps that succeed. -/
theorem eachReached_iff_whenReturning (Inv Property : State → Prop) (Condition : State → Op → Prop)
    (preserved : ∀ state op next, Inv state → act state op = .ok next → Inv next)
    (exact_step : ∀ state op next, Inv state → Property state → act state op = .ok next →
      (Property next ↔ Condition state op))
    {start : State} (initial : Inv start) (holds : Property start) (ops : List Op) :
    EachReached act Property start ops ↔
      EachAttempt act (WhenReturning act Condition) start ops := by
  refine eachReached_iff_eachAttempt Inv Property _ preserved ?_ ?_ initial holds ops
  · intro state op next inner here ran
    rw [exact_step state op next inner here ran]
    constructor
    · exact fun met _ _ => met
    · exact fun met => met next ran
  · intro state op fault failed next ran
    exact nomatch failed.symm.trans ran

end Minnow.Foundation.Runs
