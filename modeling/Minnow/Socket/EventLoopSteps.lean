import Mathlib.Data.List.Nodup
import Minnow.Socket.EventLoop

/-!
# What a turn of the event loop does

First rules without a descriptor are served.  If none wants to be, some rules are cancelled, and of
those that are left at most one is called, which was interested when the descriptors were polled
and is ready.
-/

namespace Minnow.Socket

open Foundation Foundation.Runs

namespace EventLoop

variable {Fd State : Type}

/-- Each rule is kept, or cancelled, or forgotten since somebody else has cancelled it. -/
inductive Sorted : List (FDRule Fd State) → List (FDRule Fd State) → List (FDRule Fd State) → Prop
  | nil : Sorted [] [] []
  | keep (rule : FDRule Fd State) {rules kept dropped : List (FDRule Fd State)}
      (sorted : Sorted rules kept dropped) : Sorted (rule :: rules) (rule :: kept) dropped
  | drop (rule : FDRule Fd State) {rules kept dropped : List (FDRule Fd State)}
      (sorted : Sorted rules kept dropped) : Sorted (rule :: rules) kept (rule :: dropped)
  | forget (rule : FDRule Fd State) (cancelled : rule.cancelRequested = true)
      {rules kept dropped : List (FDRule Fd State)} (sorted : Sorted rules kept dropped) :
      Sorted (rule :: rules) kept dropped

/-- The rules have different categories. -/
def Distinct (rules : List (FDRule Fd State)) : Prop :=
  rules.Pairwise fun rule other => rule.categoryId ≠ other.categoryId

namespace Sorted

variable {rules kept dropped : List (FDRule Fd State)}

theorem kept_sublist (sorted : Sorted rules kept dropped) : kept.Sublist rules := by
  induction sorted with
  | nil => exact List.Sublist.slnil
  | keep rule _ ih => exact ih.cons_cons rule
  | drop rule _ ih => exact ih.cons rule
  | forget rule _ _ ih => exact ih.cons rule

theorem dropped_sublist (sorted : Sorted rules kept dropped) : dropped.Sublist rules := by
  induction sorted with
  | nil => exact List.Sublist.slnil
  | keep rule _ ih => exact ih.cons rule
  | drop rule _ ih => exact ih.cons_cons rule
  | forget rule _ _ ih => exact ih.cons rule

/-- Every rule is somewhere. -/
theorem cover (sorted : Sorted rules kept dropped) :
    ∀ rule ∈ rules, rule ∈ kept ∨ rule ∈ dropped ∨ rule.cancelRequested = true := by
  induction sorted with
  | nil => exact fun _ inside => absurd inside List.not_mem_nil
  | keep first _ ih =>
      refine List.forall_mem_cons.mpr ⟨Or.inl List.mem_cons_self, fun rule inside => ?_⟩
      exact (ih rule inside).imp_left (List.mem_cons_of_mem first)
  | drop first _ ih =>
      refine List.forall_mem_cons.mpr ⟨Or.inr (Or.inl List.mem_cons_self), fun rule inside => ?_⟩
      exact (ih rule inside).imp_right (Or.imp_left (List.mem_cons_of_mem first))
  | forget first cancelled _ ih =>
      exact List.forall_mem_cons.mpr ⟨Or.inr (Or.inr cancelled), ih⟩

theorem refl (rules : List (FDRule Fd State)) : Sorted rules rules [] := by
  induction rules with
  | nil => exact nil
  | cons rule rules ih => exact keep rule ih

/-- No rule is both kept and cancelled. -/
theorem apart (sorted : Sorted rules kept dropped) (distinct : Distinct rules) :
    ∀ rule ∈ kept, ∀ other ∈ dropped, rule.categoryId ≠ other.categoryId := by
  induction sorted with
  | nil => exact fun _ inside => absurd inside List.not_mem_nil
  | @keep first rules kept dropped sorted ih =>
      obtain ⟨fresh, distinct⟩ := List.pairwise_cons.mp distinct
      intro rule here other there
      rcases List.mem_cons.mp here with rfl | here
      · exact fresh other (sorted.dropped_sublist.subset there)
      · exact ih distinct rule here other there
  | @drop first rules kept dropped sorted ih =>
      obtain ⟨fresh, distinct⟩ := List.pairwise_cons.mp distinct
      intro rule here other there
      rcases List.mem_cons.mp there with rfl | there
      · exact (fresh rule (sorted.kept_sublist.subset here)).symm
      · exact ih distinct rule here other there
  | forget _ _ _ ih => exact ih (List.pairwise_cons.mp distinct).2

theorem distinct_kept (sorted : Sorted rules kept dropped) (distinct : Distinct rules) :
    Distinct kept :=
  distinct.sublist sorted.kept_sublist

end Sorted

/-! ## Cancelling -/

/-- Rules are cancelled one after the other. -/
def cancelEach (rules : List (FDRule Fd State)) (state : State) : Except Fault State :=
  rules.foldlM (fun state rule => rule.cancel state) state

theorem cancelEach_cons {rule : FDRule Fd State} {rules : List (FDRule Fd State)}
    {state middle final : State} (first : rule.cancel state = .ok middle)
    (rest : cancelEach rules middle = .ok final) : cancelEach (rule :: rules) state = .ok final :=
  Fault.bind_eq_ok.mpr ⟨middle, first, rest⟩

def cancelNotes (rules : List (FDRule Fd State)) : List Note :=
  rules.map fun rule => .cancelled rule.categoryId

variable {status : Fd → State → FDWrapper}

/-- Asked before these rules were cancelled, or while they were, a rule said whether it was
interested.  More could come of it at that time. -/
def Asked (status : Fd → State → FDWrapper) (rule : FDRule Fd State)
    (dropped : List (FDRule Fd State)) (state : State) (interested : Bool) : Prop :=
  ∃ before after between, before ++ after = dropped ∧ cancelEach before state = .ok between ∧
    defunct status rule between = false ∧ rule.interest between = interested

theorem Asked.cons {rule first : FDRule Fd State} {dropped : List (FDRule Fd State)}
    {state middle : State} {interested : Bool} (asked : Asked status rule dropped middle interested)
    (cancelled : first.cancel state = .ok middle) :
    Asked status rule (first :: dropped) state interested := by
  obtain ⟨before, after, between, rfl, ran, yes⟩ := asked
  exact ⟨first :: before, after, between, rfl, cancelEach_cons cancelled ran, yes⟩

/-- When it was its turn to be cancelled, nothing more could come of the rule. -/
def Ended (status : Fd → State → FDWrapper) (dropped : List (FDRule Fd State)) (state : State)
    (rule : FDRule Fd State) : Prop :=
  ∃ before after between, before ++ rule :: after = dropped ∧ cancelEach before state = .ok between ∧
    defunct status rule between = true

theorem Ended.cons {rule first : FDRule Fd State} {dropped : List (FDRule Fd State)}
    {state middle : State} (ended : Ended status dropped middle rule)
    (cancelled : first.cancel state = .ok middle) : Ended status (first :: dropped) state rule := by
  obtain ⟨before, after, between, rfl, ran, yes⟩ := ended
  exact ⟨first :: before, after, between, rfl, cancelEach_cons cancelled ran, yes⟩

variable {rules left : List (FDRule Fd State)}
  {pollfds : List (PollFd Fd)} {state final : State} {notes : List Note}

/-- What is polled for a rule. -/
def Polled (status : Fd → State → FDWrapper) (dropped : List (FDRule Fd State)) (state : State)
    (rule : FDRule Fd State) (pollfd : PollFd Fd) : Prop :=
  ∃ interested, Asked status rule dropped state interested ∧
    pollfd = ⟨rule.fd, if interested then some rule.direction else none⟩

/-- What `setUp` makes of the rules: some are dropped, since nothing more can come of them, and the
others are polled, each in its place. -/
structure SetsUp (status : Fd → State → FDWrapper) (rules : List (FDRule Fd State)) (state : State)
    (left : List (FDRule Fd State)) (pollfds : List (PollFd Fd)) (dropped : List (FDRule Fd State))
    (final : State) : Prop where
  ran : setUp status rules state = .ok (left, pollfds, final, cancelNotes dropped)
  sorted : Sorted rules left dropped
  cancelled : cancelEach dropped state = .ok final
  ended : ∀ rule ∈ dropped, Ended status dropped state rule
  polled : List.Forall₂ (Polled status dropped state) left pollfds

theorem setUp_ok (ran : setUp status rules state = .ok (left, pollfds, final, notes)) :
    ∃ dropped, SetsUp status rules state left pollfds dropped final ∧ notes = cancelNotes dropped := by
  suffices parts : ∃ dropped, Sorted rules left dropped ∧ cancelEach dropped state = .ok final ∧
      (∀ rule ∈ dropped, Ended status dropped state rule) ∧ notes = cancelNotes dropped ∧
        List.Forall₂ (Polled status dropped state) left pollfds by
    obtain ⟨dropped, sorted, cancelled, ended, rfl, polled⟩ := parts
    exact ⟨dropped, ⟨ran, sorted, cancelled, ended, polled⟩, rfl⟩
  induction rules generalizing state left pollfds notes with
  | nil =>
      cases ran
      exact ⟨[], .nil, rfl, fun _ inside => absurd inside List.not_mem_nil, rfl, .nil⟩
  | cons rule rules ih =>
      rw [setUp] at ran
      split at ran
      · rename_i cancelled
        obtain ⟨dropped, sorted, rest⟩ := ih ran
        exact ⟨dropped, .forget rule cancelled sorted, rest⟩
      split at ran
      · rename_i lapsed
        obtain ⟨middle, cancelled, ran⟩ := Fault.bind_eq_ok.mp ran
        obtain ⟨⟨others, fds, last, made⟩, later, ⟨⟩⟩ := Fault.bind_eq_ok.mp ran
        obtain ⟨dropped, sorted, ends, ended, rfl, polled⟩ := ih later
        refine ⟨rule :: dropped, .drop rule sorted, cancelEach_cons cancelled ends, ?_, rfl, ?_⟩
        · exact List.forall_mem_cons.mpr ⟨⟨[], dropped, state, rfl, rfl, lapsed⟩,
            fun other inside => (ended other inside).cons cancelled⟩
        refine polled.imp fun other pollfd found => ?_
        obtain ⟨interested, asked, same⟩ := found
        exact ⟨interested, asked.cons cancelled, same⟩
      · rename_i alive
        obtain ⟨⟨others, fds, last, made⟩, later, ⟨⟩⟩ := Fault.bind_eq_ok.mp ran
        obtain ⟨dropped, sorted, ends, ended, rfl, polled⟩ := ih later
        have asked : Asked status rule dropped state (rule.interest state) :=
          ⟨[], dropped, state, rfl, rfl, (Bool.not_eq_true _).mp alive, rfl⟩
        exact ⟨dropped, .keep rule sorted, ends, ended, rfl, .cons ⟨_, asked, rfl⟩ polled⟩

section Polling

variable {dropped : List (FDRule Fd State)} {rule : FDRule Fd State}

/-- Each rule has its own place among the descriptors that are polled. -/
theorem polled_place (polled : List.Forall₂ (Polled status dropped state) left pollfds) {place : Nat}
    {pollfd : PollFd Fd} (here : left[place]? = some rule) (there : pollfds[place]? = some pollfd) :
    Polled status dropped state rule pollfd := by
  induction polled generalizing place with
  | nil => cases here
  | cons first _ ih =>
      cases place with
      | zero =>
          cases here
          cases there
          exact first
      | succ place => exact ih here there

theorem Polled.asked {pollfd : PollFd Fd} (polled : Polled status dropped state rule pollfd) :
    Asked status rule dropped state pollfd.events.isSome ∧
      ∀ direction, pollfd.events = some direction → direction = rule.direction := by
  obtain ⟨interested, asked, rfl⟩ := polled
  cases interested with
  | false => exact ⟨asked, fun _ none => absurd none.symm (Option.some_ne_none _)⟩
  | true =>
      refine ⟨asked, ?_⟩
      rintro _ ⟨⟩
      rfl

theorem polled_idle (polled : List.Forall₂ (Polled status dropped state) left pollfds)
    (nobody : pollfds.any (fun pollfd => pollfd.events.isSome) = false) :
    ∀ rule ∈ left, Asked status rule dropped state false := by
  induction polled with
  | nil => exact fun _ inside => absurd inside List.not_mem_nil
  | @cons rule pollfd left pollfds first _ ih =>
      rw [List.any_cons, Bool.or_eq_false_iff] at nobody
      have asked := first.asked.1
      rw [nobody.1] at asked
      exact List.forall_mem_cons.mpr ⟨asked, ih nobody.2⟩

theorem polled_busy (polled : List.Forall₂ (Polled status dropped state) left pollfds)
    (somebody : pollfds.any (fun pollfd => pollfd.events.isSome) = true) :
    ∃ rule ∈ left, Asked status rule dropped state true := by
  induction polled with
  | nil => cases somebody
  | @cons rule pollfd left pollfds first _ ih =>
      rw [List.any_cons, Bool.or_eq_true_iff] at somebody
      rcases somebody with yes | later
      · have asked := first.asked.1
        rw [yes] at asked
        exact ⟨rule, List.mem_cons_self, asked⟩
      · obtain ⟨other, inside, asked⟩ := ih later
        exact ⟨other, List.mem_cons_of_mem rule inside, asked⟩

end Polling

/-! ## Serving -/

/-- The rule at its place is called: it was asked for, and is ready. -/
structure Calls (status : Fd → State → FDWrapper) (names : List String) (answer : PollAnswer)
    (pollfds : List (PollFd Fd)) (rule : FDRule Fd State) (place : Nat) (state final : State) :
    Prop where
  asked : ∃ pollfd, pollfds[place]? = some pollfd ∧ pollfd.events.isSome = true
  ready : (answer.revents place).ready rule.direction = true
  ran : callRule status names rule state = .ok final

/-- What comes of the answers: some rules are cancelled, then at most one is called. -/
def Answered (status : Fd → State → FDWrapper) (names : List String) (answer : PollAnswer)
    (pollfds : List (PollFd Fd)) (idx : Nat) (rules left : List (FDRule Fd State))
    (state final : State) (notes : List Note) : Prop :=
  ∃ dropped middle, Sorted rules left dropped ∧ cancelEach dropped state = .ok middle ∧
    (∀ rule ∈ dropped, ∃ place, rules[place]? = some rule ∧
      (answer.revents (idx + place)).broken rule.direction = true) ∧
    ((final = middle ∧ notes = cancelNotes dropped) ∨
      ∃ rule place, rules[place]? = some rule ∧ rule ∈ left ∧
        Calls status names answer pollfds rule (idx + place) middle final ∧
        notes = cancelNotes dropped ++ [.called rule.categoryId])

variable {names : List String} {answer : PollAnswer} {idx : Nat} {rule : FDRule Fd State}

theorem Answered.keep (answered : Answered status names answer pollfds (idx + 1) rules left state
    final notes) :
    Answered status names answer pollfds idx (rule :: rules) (rule :: left) state final notes := by
  obtain ⟨dropped, middle, sorted, cancelled, broken, outcome⟩ := answered
  refine ⟨dropped, middle, .keep rule sorted, cancelled, ?_, outcome.imp_right ?_⟩
  · intro other inside
    obtain ⟨place, here, event⟩ := broken other inside
    rw [Nat.add_right_comm, Nat.add_assoc] at event
    exact ⟨place + 1, here, event⟩
  rintro ⟨called, place, here, inside, calls, rfl⟩
  rw [Nat.add_right_comm, Nat.add_assoc] at calls
  exact ⟨called, place + 1, here, List.mem_cons_of_mem rule inside, calls, rfl⟩

theorem Answered.drop {start : State} (cancelled : rule.cancel start = .ok state)
    (event : (answer.revents idx).broken rule.direction = true)
    (answered : Answered status names answer pollfds (idx + 1) rules left state final notes) :
    Answered status names answer pollfds idx (rule :: rules) left start final
      (.cancelled rule.categoryId :: notes) := by
  obtain ⟨dropped, middle, sorted, others, broken, outcome⟩ := answered
  refine ⟨rule :: dropped, middle, .drop rule sorted, cancelEach_cons cancelled others, ?_, ?_⟩
  · refine List.forall_mem_cons.mpr ⟨⟨0, rfl, event⟩, fun other inside => ?_⟩
    obtain ⟨place, here, later⟩ := broken other inside
    rw [Nat.add_right_comm, Nat.add_assoc] at later
    exact ⟨place + 1, here, later⟩
  rcases outcome with ⟨same, rfl⟩ | ⟨called, place, here, inside, calls, rfl⟩
  · exact Or.inl ⟨same, rfl⟩
  · rw [Nat.add_right_comm, Nat.add_assoc] at calls
    exact Or.inr ⟨called, place + 1, here, inside, calls, rfl⟩

theorem broken_of_hungUp {events : Option Direction} {revents : Revents}
    (own : ∀ direction, events = some direction → direction = rule.direction)
    (hangup : hungUp rule events revents = true) : revents.broken rule.direction = true := by
  obtain ⟨hup, lost⟩ := Bool.and_eq_true_iff.mp hangup
  rw [Revents.broken, hup, Bool.true_and, Bool.or_eq_true]
  right
  cases direction : rule.direction with
  | Out => rfl
  | In =>
      rw [direction] at own lost
      cases events with
      | none => cases lost
      | some asked =>
          cases own asked rfl
          simpa [Revents.ready] using lost

theorem pollResults_ok (aligned : ∀ place rule pollfd, rules[place]? = some rule →
      pollfds[idx + place]? = some pollfd →
        ∀ direction, pollfd.events = some direction → direction = rule.direction)
    (ran : pollResults status names answer pollfds idx rules state = .ok (left, final, notes)) :
    Answered status names answer pollfds idx rules left state final notes := by
  induction rules generalizing idx state left notes with
  | nil =>
      cases ran
      exact ⟨[], _, .nil, rfl, fun _ inside => absurd inside List.not_mem_nil, Or.inl ⟨rfl, rfl⟩⟩
  | cons rule rules ih =>
      have later : ∀ place rule pollfd, rules[place]? = some rule →
          pollfds[idx + 1 + place]? = some pollfd →
            ∀ direction, pollfd.events = some direction → direction = rule.direction := by
        intro place other pollfd here
        rw [Nat.add_right_comm, Nat.add_assoc]
        exact aligned (place + 1) other pollfd here
      rw [pollResults] at ran
      split at ran
      case h_2 => cases ran
      case h_1 pollfd found =>
      dsimp only at ran
      split at ran
      · rename_i error
        split at ran
        · obtain ⟨⟨others, last, made⟩, polled, ⟨⟩⟩ := Fault.bind_eq_ok.mp ran
          exact (ih later polled).keep
        · have event : (answer.revents idx).broken rule.direction = true := by
            rw [Revents.broken, error, Bool.true_or]
          obtain ⟨-, -, ran⟩ := Fault.bind_eq_ok.mp ran
          obtain ⟨middle, cancelled, ran⟩ := Fault.bind_eq_ok.mp ran
          obtain ⟨⟨others, last, made⟩, polled, ⟨⟩⟩ := Fault.bind_eq_ok.mp ran
          exact (ih later polled).drop cancelled event
      split at ran
      · rename_i hangup
        have event := broken_of_hungUp (aligned 0 rule pollfd rfl found) hangup
        obtain ⟨middle, cancelled, ran⟩ := Fault.bind_eq_ok.mp ran
        obtain ⟨⟨others, last, made⟩, polled, ⟨⟩⟩ := Fault.bind_eq_ok.mp ran
        exact (ih later polled).drop cancelled event
      split at ran
      · rename_i ready
        obtain ⟨after, called, ⟨⟩⟩ := Fault.bind_eq_ok.mp ran
        cases asked : pollfd.events with
        | none =>
            rw [asked] at ready
            cases ready
        | some direction =>
            rw [asked, aligned 0 rule pollfd rfl found direction asked] at ready
            refine ⟨[], state, .refl _, rfl, fun _ inside => absurd inside List.not_mem_nil,
              Or.inr ⟨rule, 0, rfl, List.mem_cons_self, ?_, rfl⟩⟩
            exact ⟨⟨pollfd, found, by rw [asked, Option.isSome_some]⟩, ready, called⟩
      · obtain ⟨⟨others, last, made⟩, polled, ⟨⟩⟩ := Fault.bind_eq_ok.mp ran
        exact (ih later polled).keep

/-! ## A whole turn -/

/-- A rule that is interested is called. -/
def Serves (rule : BasicRule State) (state next : State) : Prop :=
  rule.interest state = true ∧ rule.callback state = .ok next

theorem busyLoop_ok {rule : BasicRule State} {fuel : Nat} {before fired : Bool}
    (ran : busyLoop names rule fuel state before = .ok (final, fired)) :
    Relation.ReflTransGen (Serves rule) state final ∧ (fired = false → final = state) := by
  induction fuel generalizing state before with
  | zero =>
      rw [busyLoop] at ran
      split at ran
      · cases ran
      · cases ran
        exact ⟨.refl, fun _ => rfl⟩
  | succ fuel ih =>
      rw [busyLoop] at ran
      split at ran
      · rename_i yes
        obtain ⟨next, called, ran⟩ := Fault.bind_eq_ok.mp ran
        have stays : ∀ {fuel : Nat} {state : State},
            busyLoop names rule fuel state true = .ok (final, fired) → fired = true := by
          intro fuel
          induction fuel with
          | zero =>
              intro state ran
              rw [busyLoop] at ran
              split at ran
              · cases ran
              · cases ran
                rfl
          | succ fuel ih =>
              intro state ran
              rw [busyLoop] at ran
              split at ran
              · obtain ⟨next, -, ran⟩ := Fault.bind_eq_ok.mp ran
                exact ih ran
              · cases ran
                rfl
        refine ⟨.head ⟨yes, called⟩ (ih ran).1, fun idle => ?_⟩
        rw [stays ran] at idle
        cases idle
      · cases ran
        exact ⟨.refl, fun _ => rfl⟩

theorem serveBasic_ok {rules left : List (BasicRule State)} {served : Bool}
    (ran : serveBasic names rules state = .ok (left, final, served)) :
    left.Sublist rules ∧ (served = false → final = state) ∧
      (served = true → ∃ rule ∈ rules, Relation.ReflTransGen (Serves rule) state final) := by
  induction rules generalizing state left with
  | nil =>
      cases ran
      exact ⟨.slnil, fun _ => rfl, fun other => absurd other Bool.false_ne_true⟩
  | cons rule rules ih =>
      rw [serveBasic] at ran
      split at ran
      · obtain ⟨sub, idle, busy⟩ := ih ran
        refine ⟨sub.cons rule, idle, fun yes => ?_⟩
        obtain ⟨other, inside, serves⟩ := busy yes
        exact ⟨other, List.mem_cons_of_mem rule inside, serves⟩
      · obtain ⟨⟨next, fired⟩, looped, ran⟩ := Fault.bind_eq_ok.mp ran
        obtain ⟨serves, unmoved⟩ := busyLoop_ok looped
        cases fired with
        | true =>
            cases ran
            exact ⟨List.Sublist.refl _, fun other => absurd other.symm Bool.false_ne_true,
              fun _ => ⟨rule, List.mem_cons_self, serves⟩⟩
        | false =>
            obtain ⟨⟨others, last, yes⟩, later, ⟨⟩⟩ := Fault.bind_eq_ok.mp ran
            obtain ⟨sub, idle, busy⟩ := ih later
            cases unmoved rfl
            refine ⟨sub.cons_cons rule, idle, fun yes => ?_⟩
            obtain ⟨other, inside, serves⟩ := busy yes
            exact ⟨other, List.mem_cons_of_mem rule inside, serves⟩

/-- The rule is among those that are left to be polled, and `poll` has reported in its place that
nothing more goes in its direction. -/
def Struck (status : Fd → State → FDWrapper) (rules : List (FDRule Fd State)) (answer : PollAnswer)
    (state : State) (rule : FDRule Fd State) : Prop :=
  ∃ polled pollfds final notes place, setUp status rules state = .ok (polled, pollfds, final, notes) ∧
    polled[place]? = some rule ∧ (answer.revents place).broken rule.direction = true

/-- The rule is polled in this place for its direction, since it is interested, and `poll` has
reported that its descriptor is ready. -/
structure Chosen (status : Fd → State → FDWrapper) (answer : PollAnswer) (state : State)
    (left : List (FDRule Fd State)) (pollfds : List (PollFd Fd)) (dropped : List (FDRule Fd State))
    (rule : FDRule Fd State) (place : Nat) : Prop where
  here : left[place]? = some rule
  asked : pollfds[place]? = some ⟨rule.fd, some rule.direction⟩
  interested : Asked status rule dropped state true
  ready : (answer.revents place).ready rule.direction = true

/-- Everything that a turn can come to. -/
inductive Waited (status : Fd → State → FDWrapper) (loop : EventLoop Fd State)
    (answer : PollAnswer) (state : State) :
    EventLoop Fd State × State × Result × List Note → Prop
  | served {rule : BasicRule State} {nonFdRules : List (BasicRule State)} {final : State}
      (remaining : nonFdRules.Sublist loop.nonFdRules) (among : rule ∈ loop.nonFdRules)
      (serves : Relation.ReflTransGen (Serves rule) state final) :
      Waited status loop answer state ({ loop with nonFdRules }, final, .Success, [])
  | idle {fdRules dropped : List (FDRule Fd State)} {pollfds : List (PollFd Fd)}
      {nonFdRules : List (BasicRule State)} {final : State}
      (remaining : nonFdRules.Sublist loop.nonFdRules)
      (setsUp : SetsUp status loop.fdRules state fdRules pollfds dropped final)
      (nobody : ∀ rule ∈ fdRules, Asked status rule dropped state false) :
      Waited status loop answer state
        ({ loop with fdRules, nonFdRules }, final, .Exit, cancelNotes dropped)
  | polled {fdRules dropped left more : List (FDRule Fd State)} {pollfds : List (PollFd Fd)}
      {nonFdRules : List (BasicRule State)} {middle final : State} {result : Result}
      (remaining : nonFdRules.Sublist loop.nonFdRules)
      (setsUp : SetsUp status loop.fdRules state fdRules pollfds dropped middle)
      (somebody : ∃ rule ∈ fdRules, Asked status rule dropped state true)
      (resorted : Sorted fdRules left more) (others : cancelEach more middle = .ok final)
      (broken : ∀ rule ∈ more, Struck status loop.fdRules answer state rule)
      (goesOn : result ≠ .Exit) :
      Waited status loop answer state
        ({ loop with fdRules := left, nonFdRules }, final, result,
          cancelNotes dropped ++ cancelNotes more)
  | called {fdRules dropped left more : List (FDRule Fd State)} {pollfds : List (PollFd Fd)}
      {rule : FDRule Fd State} {place : Nat} {nonFdRules : List (BasicRule State)}
      {middle between final : State} (remaining : nonFdRules.Sublist loop.nonFdRules)
      (setsUp : SetsUp status loop.fdRules state fdRules pollfds dropped middle)
      (resorted : Sorted fdRules left more) (others : cancelEach more middle = .ok between)
      (broken : ∀ rule ∈ more, Struck status loop.fdRules answer state rule)
      (chosen : Chosen status answer state fdRules pollfds dropped rule place) (still : rule ∈ left)
      (ran : callRule status loop.ruleCategories rule between = .ok final) :
      Waited status loop answer state
        ({ loop with fdRules := left, nonFdRules }, final, .Success,
          cancelNotes dropped ++ (cancelNotes more ++ [.called rule.categoryId]))

theorem waitNextEvent_ok {loop : EventLoop Fd State}
    {outcome : EventLoop Fd State × State × Result × List Note}
    (ran : loop.waitNextEvent status answer state = .ok outcome) :
    Waited status loop answer state outcome := by
  obtain ⟨⟨nonFdRules, next, served⟩, basic, ran⟩ := Fault.bind_eq_ok.mp ran
  obtain ⟨remaining, unmoved, busy⟩ := serveBasic_ok basic
  cases served with
  | true =>
      cases ran
      obtain ⟨rule, among, serves⟩ := busy rfl
      exact .served remaining among serves
  | false =>
      cases unmoved rfl
      obtain ⟨⟨fdRules, pollfds, middle, dropNotes⟩, settled, ran⟩ := Fault.bind_eq_ok.mp ran
      obtain ⟨dropped, setsUp, rfl⟩ := setUp_ok settled
      dsimp only at ran
      split at ran
      · rename_i nobody
        cases ran
        exact .idle remaining setsUp
          (polled_idle setsUp.polled ((Bool.not_eq_eq_eq_not ..).mp nobody))
      rename_i somebody
      rw [Bool.not_eq_true', Bool.not_eq_false] at somebody
      replace somebody := polled_busy setsUp.polled somebody
      split at ran
      · cases ran
      split at ran
      · cases ran
        have quiet := @Waited.polled _ _ status loop answer state _ _ _ _ _ _ _ _ .Timeout remaining
          setsUp somebody (.refl fdRules) rfl
          (fun _ inside => absurd inside List.not_mem_nil) Result.noConfusion
        rw [cancelNotes, cancelNotes, List.map_nil, List.append_nil] at quiet
        exact quiet
      · obtain ⟨⟨left, final, made⟩, answered, ⟨⟩⟩ := Fault.bind_eq_ok.mp ran
        have aligned : ∀ place rule pollfd, fdRules[place]? = some rule →
            pollfds[0 + place]? = some pollfd →
              ∀ direction, pollfd.events = some direction → direction = rule.direction := by
          intro place rule pollfd here there
          rw [Nat.zero_add] at there
          exact (polled_place setsUp.polled here there).asked.2
        obtain ⟨more, between, resorted, others, broken, outcome⟩ := pollResults_ok aligned answered
        replace broken : ∀ rule ∈ more, Struck status loop.fdRules answer state rule := by
          intro rule inside
          obtain ⟨place, here, event⟩ := broken rule inside
          rw [Nat.zero_add] at event
          exact ⟨_, _, _, _, place, settled, here, event⟩
        rcases outcome with ⟨rfl, rfl⟩ | ⟨rule, place, here, still, calls, rfl⟩
        · exact .polled remaining setsUp somebody resorted others broken Result.noConfusion
        · have ready := calls.ready
          obtain ⟨pollfd, there, asked⟩ := calls.asked
          rw [Nat.zero_add] at ready there
          obtain ⟨interested, was, same⟩ := polled_place setsUp.polled here there
          cases interested with
          | false =>
              rw [same] at asked
              cases asked
          | true =>
              rw [same] at there
              exact .called remaining setsUp resorted others broken ⟨here, there, was, ready⟩ still
                calls.ran

end EventLoop

end Minnow.Socket
