import Minnow.Socket.EventLoopRuns

/-!
# Turns of the event loop that return

Where every callback returns, and reads or writes or loses interest, the loop throws nothing of its
own.
-/

namespace Minnow.Socket

open Foundation

namespace EventLoop

variable {Fd State : Type}

/-- Every callback that can be made returns, and no busy wait is detected after it. -/
structure Returns (status : Fd → State → FDWrapper) (loop : EventLoop Fd State)
    (Inv : State → Prop) (Due : FDRule Fd State → State → Prop) : Prop where
  cancel : ∀ rule ∈ loop.fdRules, ∀ state, Inv state → ∃ next, rule.cancel state = .ok next
  call : ∀ rule ∈ loop.fdRules, ∀ state, Inv state → Due rule state →
    ∃ next, callRule status loop.ruleCategories rule state = .ok next

/-- The kernel answers, whatever the answers are. -/
structure Answering (answer : PollAnswer) : Prop where
  polls : answer.failed = false
  asked : ∀ idx, ∃ nothing, askSocketError (answer.socketError idx) = .ok nothing

/-- Only cancelling is spoken of. -/
def Cancelling (note : Note) : Prop := ∀ categoryId, note ≠ .called categoryId

theorem cancelling_cancelNotes (dropped : List (FDRule Fd State)) :
    ∀ note ∈ cancelNotes dropped, Cancelling note := by
  rintro _ inside categoryId rfl
  exact called_not_mem_cancelNotes categoryId dropped inside

variable {status : Fd → State → FDWrapper} {loop : EventLoop Fd State} {Inv : State → Prop}
  {Due : FDRule Fd State → State → Prop} {answer : PollAnswer} {rules : List (FDRule Fd State)}
  {pollfds : List (PollFd Fd)} {idx : Nat} {state : State}

/-- A rule that has read or written, or is no longer interested, is not a busy wait. -/
theorem callRule_of_moved {names : List String} {rule : FDRule Fd State} {next : State}
    (called : rule.callback state = .ok next)
    (moved : serviceCount status rule state ≠ serviceCount status rule next ∨
      rule.interest next = false) : callRule status names rule state = .ok next := by
  refine Fault.bind_eq_ok.mpr ⟨next, called, if_neg ?_⟩
  rintro ⟨same, -, interested⟩
  rcases moved with different | bored
  · exact different same
  · rw [bored] at interested
    cases interested

namespace Returns

/-- A rule that is cancelled leaves the rest as it is. -/
theorem cancels (returns : loop.Returns status Inv Due) (safe : loop.Safe status Cancelling Inv Due)
    {rule : FDRule Fd State} (inside : rule ∈ loop.fdRules) (holds : Inv state) :
    ∃ next, rule.cancel state = .ok next ∧ Inv next := by
  obtain ⟨next, cancelled⟩ := returns.cancel rule inside state holds
  exact ⟨next, cancelled, safe.cancel rule inside (fun _ => Note.noConfusion) state next holds cancelled⟩

theorem setUp (returns : loop.Returns status Inv Due) (safe : loop.Safe status Cancelling Inv Due)
    (among : rules ⊆ loop.fdRules) (holds : Inv state) :
    ∃ outcome, EventLoop.setUp status rules state = .ok outcome := by
  induction rules generalizing state with
  | nil => exact ⟨_, rfl⟩
  | cons rule rules ih =>
      obtain ⟨here, others⟩ := List.cons_subset.mp among
      rw [EventLoop.setUp]
      split
      · exact ih others holds
      split
      · obtain ⟨next, cancelled, still⟩ := returns.cancels safe here holds
        obtain ⟨outcome, ran⟩ := ih others still
        exact ⟨_, Fault.bind_eq_ok.mpr ⟨next, cancelled, Fault.bind_eq_ok.mpr ⟨outcome, ran, rfl⟩⟩⟩
      · obtain ⟨outcome, ran⟩ := ih others holds
        exact ⟨_, Fault.bind_eq_ok.mpr ⟨outcome, ran, rfl⟩⟩

/-- The rules that are polled for something are due. -/
def Ready (Due : FDRule Fd State → State → Prop) (rules : List (FDRule Fd State))
    (pollfds : List (PollFd Fd)) (idx : Nat) (state : State) : Prop :=
  ∀ place rule, rules[place]? = some rule → ∃ pollfd, pollfds[idx + place]? = some pollfd ∧
    (pollfd.events.isSome = true → Due rule state)

theorem Ready.tail {rule : FDRule Fd State} (ready : Ready Due (rule :: rules) pollfds idx state)
    {next : State} (stays : ∀ other ∈ rules, Due other state → Due other next) :
    Ready Due rules pollfds (idx + 1) next := by
  intro place other there
  obtain ⟨pollfd, found, due⟩ := ready (place + 1) other there
  rw [Nat.add_right_comm, Nat.add_assoc]
  exact ⟨pollfd, found, fun asked => stays other (List.mem_of_getElem? there) (due asked)⟩

theorem pollResults (returns : loop.Returns status Inv Due) (safe : loop.Safe status Cancelling Inv Due)
    (answers : Answering answer) (among : rules ⊆ loop.fdRules) (distinct : Distinct rules)
    (ready : Ready Due rules pollfds idx state) (holds : Inv state) :
    ∃ outcome, EventLoop.pollResults status loop.ruleCategories answer pollfds idx rules state =
      .ok outcome := by
  induction rules generalizing idx state with
  | nil => exact ⟨_, rfl⟩
  | cons rule rules ih =>
      obtain ⟨here, others⟩ := List.cons_subset.mp among
      obtain ⟨fresh, distinct⟩ := List.pairwise_cons.mp distinct
      obtain ⟨pollfd, found, due⟩ := ready 0 rule rfl
      rw [Nat.add_zero] at found
      have kept := ih others distinct (ready.tail fun _ _ => id) holds
      obtain ⟨next, cancelled, still⟩ := returns.cancels safe here holds
      have dropped := ih others distinct
        (ready.tail fun other inside => safe.other other (others inside) rule here
          (fresh other inside).symm state next holds cancelled) still
      obtain ⟨outcome, ran⟩ := kept
      obtain ⟨fewer, later⟩ := dropped
      rw [EventLoop.pollResults, found]
      dsimp only
      split
      · split
        · exact ⟨_, Fault.bind_eq_ok.mpr ⟨outcome, ran, rfl⟩⟩
        · obtain ⟨nothing, asked⟩ := answers.asked idx
          exact ⟨_, Fault.bind_eq_ok.mpr ⟨nothing, asked, Fault.bind_eq_ok.mpr ⟨next, cancelled,
            Fault.bind_eq_ok.mpr ⟨fewer, later, rfl⟩⟩⟩⟩
      split
      · exact ⟨_, Fault.bind_eq_ok.mpr ⟨next, cancelled,
          Fault.bind_eq_ok.mpr ⟨fewer, later, rfl⟩⟩⟩
      split
      · rename_i isReady
        have polled : pollfd.events.isSome = true := by
          cases events : pollfd.events with
          | none =>
              rw [events] at isReady
              cases isReady
          | some direction => rfl
        obtain ⟨after, called⟩ := returns.call rule here state holds (due polled)
        exact ⟨_, Fault.bind_eq_ok.mpr ⟨after, called, rfl⟩⟩
      · exact ⟨_, Fault.bind_eq_ok.mpr ⟨outcome, ran, rfl⟩⟩

/-- A turn of a loop that has only rules with descriptors returns. -/
theorem waitNextEvent (returns : loop.Returns status Inv Due) (safe : loop.Safe status Cancelling Inv Due)
    (answers : Answering answer) (distinct : Distinct loop.fdRules) (basics : loop.nonFdRules = [])
    (holds : Inv state) : ∃ outcome, loop.waitNextEvent status answer state = .ok outcome := by
  obtain ⟨⟨left, pollfds, middle, notes⟩, settled⟩ :=
    returns.setUp safe (List.Subset.refl _) holds
  obtain ⟨dropped, ⟨-, sorted, cancelled, -, polled⟩, -⟩ := setUp_ok settled
  have among := sorted.dropped_sublist.subset
  have may := cancelling_cancelNotes dropped
  have still := safe.cancelEach among may holds cancelled
  have ready : Ready Due left pollfds 0 middle := by
    intro place rule there
    rw [Nat.zero_add]
    have inside := List.mem_of_getElem? there
    obtain ⟨short, -⟩ := List.getElem?_eq_some_iff.mp there
    obtain ⟨pollfd, found⟩ : ∃ pollfd, pollfds[place]? = some pollfd :=
      ⟨_, List.getElem?_eq_getElem (polled.length_eq ▸ short)⟩
    refine ⟨pollfd, found, fun yes => ?_⟩
    have asked := (polled_place polled there found).asked.1
    rw [yes] at asked
    exact safe.dueOfAsked (sorted.kept_sublist.subset inside) among may
      (sorted.apart distinct rule inside) holds asked cancelled
  obtain ⟨outcome, ran⟩ := returns.pollResults safe answers sorted.kept_sublist.subset
    (sorted.distinct_kept distinct) ready still
  rw [EventLoop.waitNextEvent, basics, serveBasic]
  simp only [bind, Except.bind, settled, Bool.false_eq_true, if_false, answers.polls, ran]
  split
  · exact ⟨_, rfl⟩
  split
  · exact ⟨_, rfl⟩
  · exact ⟨_, rfl⟩

end Returns

end EventLoop

end Minnow.Socket
