import Minnow.Foundation.Simulation
import Minnow.Socket.EventLoopSteps

/-!
# Runs of the event loop

What the callbacks of a loop keep, the loop keeps.  A rule that was cancelled is never called or
cancelled again.
-/

namespace Minnow.Socket

open Foundation

namespace EventLoop

variable {Fd State : Type}

/-! ## What the callbacks keep -/

/-- The callbacks that may be made keep the invariant.  A rule is called only when it is due: it
was interested and more could come of it, and other rules were cancelled at most. -/
structure Safe (status : Fd → State → FDWrapper) (loop : EventLoop Fd State) (May : Note → Prop)
    (Inv : State → Prop) (Due : FDRule Fd State → State → Prop) : Prop where
  basic : ∀ rule ∈ loop.nonFdRules, ∀ state next, Inv state → Serves rule state next → Inv next
  cancel : ∀ rule ∈ loop.fdRules, May (.cancelled rule.categoryId) → ∀ state next, Inv state →
    rule.cancel state = .ok next → Inv next
  other : ∀ rule ∈ loop.fdRules, ∀ cancelled ∈ loop.fdRules,
    rule.categoryId ≠ cancelled.categoryId → ∀ state next, Inv state →
      cancelled.cancel state = .ok next → Due rule state → Due rule next
  due : ∀ rule ∈ loop.fdRules, ∀ state, Inv state → defunct status rule state = false →
    rule.interest state = true → Due rule state
  call : ∀ rule ∈ loop.fdRules, May (.called rule.categoryId) → ∀ state next, Inv state →
    Due rule state → rule.callback state = .ok next → Inv next

theorem cancelEach_append {before after : List (FDRule Fd State)} {state between final : State}
    (first : cancelEach before state = .ok between)
    (whole : cancelEach (before ++ after) state = .ok final) :
    cancelEach after between = .ok final := by
  rw [cancelEach, List.foldlM_append] at whole
  obtain ⟨middle, same, rest⟩ := Fault.bind_eq_ok.mp whole
  cases first.symm.trans same
  exact rest

theorem callback_of_callRule {status : Fd → State → FDWrapper} {names : List String}
    {rule : FDRule Fd State} {state final : State}
    (ran : callRule status names rule state = .ok final) : rule.callback state = .ok final := by
  obtain ⟨next, called, ran⟩ := Fault.bind_eq_ok.mp ran
  split at ran
  · cases ran
  · cases ran
    exact called

namespace Safe

variable {status : Fd → State → FDWrapper} {loop : EventLoop Fd State} {May : Note → Prop}
  {Inv : State → Prop} {Due : FDRule Fd State → State → Prop} {dropped : List (FDRule Fd State)}
  {rule : FDRule Fd State} {state final : State}

theorem cancelEach (safe : loop.Safe status May Inv Due) (among : dropped ⊆ loop.fdRules)
    (may : ∀ note ∈ cancelNotes dropped, May note) (holds : Inv state)
    (ran : EventLoop.cancelEach dropped state = .ok final) : Inv final := by
  induction dropped generalizing state with
  | nil =>
      cases ran
      exact holds
  | cons first rest ih =>
      obtain ⟨here, others⟩ := List.cons_subset.mp among
      obtain ⟨mayFirst, mayOthers⟩ := List.forall_mem_cons.mp may
      obtain ⟨next, cancelled, ran⟩ := Fault.bind_eq_ok.mp ran
      exact ih others mayOthers (safe.cancel first here mayFirst state next holds cancelled) ran

/-- A rule stays due while others are cancelled. -/
theorem stillDue (safe : loop.Safe status May Inv Due) (inside : rule ∈ loop.fdRules)
    (among : dropped ⊆ loop.fdRules) (may : ∀ note ∈ cancelNotes dropped, May note)
    (apart : ∀ cancelled ∈ dropped, rule.categoryId ≠ cancelled.categoryId) (holds : Inv state)
    (due : Due rule state) (ran : EventLoop.cancelEach dropped state = .ok final) :
    Due rule final := by
  induction dropped generalizing state with
  | nil =>
      cases ran
      exact due
  | cons first rest ih =>
      obtain ⟨here, others⟩ := List.cons_subset.mp among
      obtain ⟨mayFirst, mayOthers⟩ := List.forall_mem_cons.mp may
      obtain ⟨different, apart⟩ := List.forall_mem_cons.mp apart
      obtain ⟨next, cancelled, ran⟩ := Fault.bind_eq_ok.mp ran
      exact ih others mayOthers apart (safe.cancel first here mayFirst state next holds cancelled)
        (safe.other rule inside first here different state next holds cancelled due) ran

/-- A rule that said it was interested is due when the rest is cancelled. -/
theorem dueOfAsked (safe : loop.Safe status May Inv Due) (inside : rule ∈ loop.fdRules)
    (among : dropped ⊆ loop.fdRules) (may : ∀ note ∈ cancelNotes dropped, May note)
    (apart : ∀ cancelled ∈ dropped, rule.categoryId ≠ cancelled.categoryId) (holds : Inv state)
    (asked : Asked status rule dropped state true)
    (ran : EventLoop.cancelEach dropped state = .ok final) : Due rule final := by
  obtain ⟨before, after, between, rfl, first, alive, interested⟩ := asked
  obtain ⟨amongBefore, amongAfter⟩ := List.append_subset.mp among
  rw [cancelNotes, List.map_append] at may
  obtain ⟨mayBefore, mayAfter⟩ := List.forall_mem_append.mp may
  have invBetween := safe.cancelEach amongBefore mayBefore holds first
  refine safe.stillDue inside amongAfter mayAfter ?_ invBetween
    (safe.due rule inside between invBetween alive interested) (cancelEach_append first ran)
  exact fun cancelled there => apart cancelled (List.mem_append_right before there)

/-- The rule that a turn calls is due when it is called. -/
theorem dueOfCalled (safe : loop.Safe status May Inv Due) (distinct : Distinct loop.fdRules)
    {fdRules left more : List (FDRule Fd State)} {middle : State}
    (sorted : Sorted loop.fdRules fdRules dropped) (resorted : Sorted fdRules left more)
    (mayDropped : ∀ note ∈ cancelNotes dropped, May note)
    (mayMore : ∀ note ∈ cancelNotes more, May note) (holds : Inv state)
    (first : EventLoop.cancelEach dropped state = .ok middle)
    (second : EventLoop.cancelEach more middle = .ok final) (still : rule ∈ left)
    (interested : Asked status rule dropped state true) : Due rule final := by
  have kept := resorted.kept_sublist.subset still
  have inside := sorted.kept_sublist.subset kept
  have apart := sorted.apart distinct rule kept
  have later := resorted.apart (sorted.distinct_kept distinct) rule still
  have due := safe.dueOfAsked inside sorted.dropped_sublist.subset mayDropped apart holds
    interested first
  exact safe.stillDue inside (resorted.dropped_sublist.trans sorted.kept_sublist).subset mayMore later
    (safe.cancelEach sorted.dropped_sublist.subset mayDropped holds first) due second

/-- A turn keeps what the callbacks keep. -/
theorem waited (safe : loop.Safe status May Inv Due) (distinct : Distinct loop.fdRules)
    {answer : PollAnswer} (holds : Inv state) {outcome : EventLoop Fd State × State × Result × List Note}
    (may : ∀ note ∈ outcome.2.2.2, May note) (waited : Waited status loop answer state outcome) :
    Inv outcome.2.1 := by
  cases waited with
  | @served rule nonFdRules final remaining among serves =>
      clear remaining
      induction serves with
      | refl => exact holds
      | tail _ last ih => exact safe.basic rule among _ _ (ih may) last
  | idle remaining setsUp nobody =>
      exact safe.cancelEach setsUp.sorted.dropped_sublist.subset may holds setsUp.cancelled
  | polled remaining setsUp somebody resorted others broken goesOn =>
      obtain ⟨mayDropped, mayMore⟩ := List.forall_mem_append.mp may
      have middle := safe.cancelEach setsUp.sorted.dropped_sublist.subset mayDropped holds
        setsUp.cancelled
      have within := (resorted.dropped_sublist.trans setsUp.sorted.kept_sublist).subset
      exact safe.cancelEach within mayMore middle others
  | @called fdRules dropped left more pollfds rule place nonFdRules middle between final remaining
      setsUp resorted others broken chosen still ran =>
      obtain ⟨mayDropped, mayRest⟩ := List.forall_mem_append.mp may
      obtain ⟨mayMore, mayCall⟩ := List.forall_mem_append.mp mayRest
      have inside := setsUp.sorted.kept_sublist.subset (resorted.kept_sublist.subset still)
      have within := (resorted.dropped_sublist.trans setsUp.sorted.kept_sublist).subset
      have invMiddle := safe.cancelEach setsUp.sorted.dropped_sublist.subset mayDropped holds
        setsUp.cancelled
      have invBetween := safe.cancelEach within mayMore invMiddle others
      have due := safe.dueOfCalled distinct setsUp.sorted resorted mayDropped mayMore holds
        setsUp.cancelled others still chosen.interested
      exact safe.call rule inside (mayCall _ List.mem_cons_self) between final invBetween due
        (callback_of_callRule ran)

/-! ### Marks -/

section Marks

variable {Mark : State → Prop} {categoryId : Nat}

/-- What the cancelling of a rule brings about stays so while others are cancelled. -/
theorem cancelEach_marked (safe : loop.Safe status May Inv Due)
    (marking : loop.Safe status May (fun state => Inv state ∧ Mark state) Due)
    (marks : ∀ rule ∈ loop.fdRules, rule.categoryId = categoryId → ∀ state next, Inv state →
      rule.cancel state = .ok next → Mark next)
    (among : dropped ⊆ loop.fdRules) (may : ∀ note ∈ cancelNotes dropped, May note)
    (holds : Inv state) (noted : .cancelled categoryId ∈ cancelNotes dropped)
    (ran : EventLoop.cancelEach dropped state = .ok final) : Inv final ∧ Mark final := by
  induction dropped generalizing state with
  | nil => exact absurd noted List.not_mem_nil
  | cons first rest ih =>
      obtain ⟨here, others⟩ := List.cons_subset.mp among
      obtain ⟨mayFirst, mayOthers⟩ := List.forall_mem_cons.mp may
      obtain ⟨next, cancelled, ran⟩ := Fault.bind_eq_ok.mp ran
      have still := safe.cancel first here mayFirst state next holds cancelled
      rcases List.mem_cons.mp noted with mine | later
      · have mark := marks first here (Note.cancelled.inj mine).symm state next holds cancelled
        exact marking.cancelEach others mayOthers ⟨still, mark⟩ ran
      · exact ih others mayOthers still later ran

/-- What the cancelling of a rule brings about holds after the turn that has cancelled it. -/
theorem waited_marked (safe : loop.Safe status May Inv Due)
    (marking : loop.Safe status May (fun state => Inv state ∧ Mark state) Due)
    (marks : ∀ rule ∈ loop.fdRules, rule.categoryId = categoryId → ∀ state next, Inv state →
      rule.cancel state = .ok next → Mark next)
    (distinct : Distinct loop.fdRules) {answer : PollAnswer} (holds : Inv state)
    {outcome : EventLoop Fd State × State × Result × List Note}
    (may : ∀ note ∈ outcome.2.2.2, May note) (noted : .cancelled categoryId ∈ outcome.2.2.2)
    (waited : Waited status loop answer state outcome) : Mark outcome.2.1 := by
  cases waited with
  | served remaining among serves => exact absurd noted List.not_mem_nil
  | idle remaining setsUp nobody =>
      exact (safe.cancelEach_marked marking marks setsUp.sorted.dropped_sublist.subset may holds
        noted setsUp.cancelled).2
  | polled remaining setsUp somebody resorted others broken goesOn =>
      obtain ⟨mayDropped, mayMore⟩ := List.forall_mem_append.mp may
      have within := (resorted.dropped_sublist.trans setsUp.sorted.kept_sublist).subset
      rcases List.mem_append.mp noted with early | late
      · have middle := safe.cancelEach_marked marking marks setsUp.sorted.dropped_sublist.subset
          mayDropped holds early setsUp.cancelled
        exact (marking.cancelEach within mayMore middle others).2
      · have middle := safe.cancelEach setsUp.sorted.dropped_sublist.subset mayDropped holds
          setsUp.cancelled
        exact (safe.cancelEach_marked marking marks within mayMore middle late others).2
  | @called fdRules dropped left more pollfds rule place nonFdRules middle between final remaining
      setsUp resorted others broken chosen still ran =>
      obtain ⟨mayDropped, mayRest⟩ := List.forall_mem_append.mp may
      obtain ⟨mayMore, mayCall⟩ := List.forall_mem_append.mp mayRest
      have inside := setsUp.sorted.kept_sublist.subset (resorted.kept_sublist.subset still)
      have within := (resorted.dropped_sublist.trans setsUp.sorted.kept_sublist).subset
      have invMiddle := safe.cancelEach setsUp.sorted.dropped_sublist.subset mayDropped holds
        setsUp.cancelled
      have marked : Inv between ∧ Mark between := by
        rcases List.mem_append.mp noted with early | rest
        · have markMiddle := safe.cancelEach_marked marking marks setsUp.sorted.dropped_sublist.subset
            mayDropped holds early setsUp.cancelled
          exact marking.cancelEach within mayMore markMiddle others
        rcases List.mem_append.mp rest with late | last
        · exact safe.cancelEach_marked marking marks within mayMore invMiddle late others
        · cases List.mem_singleton.mp last
      have due := safe.dueOfCalled distinct setsUp.sorted resorted mayDropped mayMore holds
        setsUp.cancelled others still chosen.interested
      exact (marking.call rule inside (mayCall _ List.mem_cons_self) between final marked due
        (callback_of_callRule ran)).2

end Marks

/-- Fewer rules are as safe. -/
theorem mono (safe : loop.Safe status May Inv Due) {less : EventLoop Fd State}
    (fds : less.fdRules ⊆ loop.fdRules) (basics : less.nonFdRules ⊆ loop.nonFdRules) :
    less.Safe status May Inv Due where
  basic := fun rule inside => safe.basic rule (basics inside)
  cancel := fun rule inside => safe.cancel rule (fds inside)
  other := fun rule inside cancelled there => safe.other rule (fds inside) cancelled (fds there)
  due := fun rule inside => safe.due rule (fds inside)
  call := fun rule inside => safe.call rule (fds inside)

end Safe

/-- A turn only takes rules away. -/
theorem Waited.fewer {status : Fd → State → FDWrapper} {loop : EventLoop Fd State}
    {answer : PollAnswer} {state : State} {outcome : EventLoop Fd State × State × Result × List Note}
    (waited : Waited status loop answer state outcome) :
    outcome.1.fdRules.Sublist loop.fdRules ∧ outcome.1.nonFdRules.Sublist loop.nonFdRules ∧
      outcome.1.ruleCategories = loop.ruleCategories := by
  cases waited with
  | served remaining among serves => exact ⟨List.Sublist.refl _, remaining, rfl⟩
  | idle remaining setsUp nobody => exact ⟨setsUp.sorted.kept_sublist, remaining, rfl⟩
  | polled remaining setsUp somebody resorted others broken goesOn =>
      exact ⟨resorted.kept_sublist.trans setsUp.sorted.kept_sublist, remaining, rfl⟩
  | called remaining setsUp resorted others broken chosen still ran =>
      exact ⟨resorted.kept_sublist.trans setsUp.sorted.kept_sublist, remaining, rfl⟩

/-- Nobody is called while rules are cancelled. -/
theorem called_not_mem_cancelNotes (categoryId : Nat) (dropped : List (FDRule Fd State)) :
    .called categoryId ∉ cancelNotes dropped := by
  intro inside
  obtain ⟨rule, -, other⟩ := List.mem_map.mp inside
  cases other

/-- The rule that a turn calls is still there. -/
theorem Waited.still {status : Fd → State → FDWrapper} {loop : EventLoop Fd State}
    {answer : PollAnswer} {state : State} {outcome : EventLoop Fd State × State × Result × List Note}
    (waited : Waited status loop answer state outcome) {categoryId : Nat}
    (noted : .called categoryId ∈ outcome.2.2.2) :
    ∃ rule ∈ outcome.1.fdRules, rule.categoryId = categoryId := by
  cases waited with
  | served remaining among serves => exact absurd noted List.not_mem_nil
  | @idle fdRules dropped pollfds nonFdRules final remaining setsUp nobody =>
      exact absurd noted (called_not_mem_cancelNotes categoryId dropped)
  | @polled fdRules dropped left more pollfds nonFdRules middle final result remaining setsUp
      somebody resorted others broken goesOn =>
      rcases List.mem_append.mp noted with first | second
      · exact absurd first (called_not_mem_cancelNotes categoryId dropped)
      · exact absurd second (called_not_mem_cancelNotes categoryId more)
  | @called fdRules dropped left more pollfds rule place nonFdRules middle between final remaining
      setsUp resorted others broken chosen still ran =>
      rcases List.mem_append.mp noted with first | rest
      · exact absurd first (called_not_mem_cancelNotes categoryId dropped)
      rcases List.mem_append.mp rest with second | last
      · exact absurd second (called_not_mem_cancelNotes categoryId more)
      · exact ⟨rule, still, (Note.called.inj (List.mem_singleton.mp last)).symm⟩

/-! ## Rules that were cancelled -/

/-- The later callback is not of a rule that was cancelled by the first one. -/
def NotAgain (first later : Note) : Prop :=
  ∀ categoryId, first = .cancelled categoryId → later.categoryId ≠ categoryId

/-- What a turn notes is about rules that it has, and the rules that it cancels are gone. -/
structure Noted (rules left : List (FDRule Fd State)) (notes : List Note) : Prop where
  fewer : left ⊆ rules
  among : ∀ note ∈ notes, ∃ rule ∈ rules, note.categoryId = rule.categoryId
  gone : ∀ categoryId, .cancelled categoryId ∈ notes → ∀ rule ∈ left, rule.categoryId ≠ categoryId
  notAgain : notes.Pairwise NotAgain

section Notes

variable {rules middle left dropped : List (FDRule Fd State)} {before after : List Note}

theorem Noted.refl (rules : List (FDRule Fd State)) : Noted rules rules [] where
  fewer := List.Subset.refl rules
  among := fun _ inside => absurd inside List.not_mem_nil
  gone := fun _ inside => absurd inside List.not_mem_nil
  notAgain := List.Pairwise.nil

theorem Noted.trans (first : Noted rules middle before) (second : Noted middle left after) :
    Noted rules left (before ++ after) where
  fewer := List.Subset.trans second.fewer first.fewer
  among := by
    intro note inside
    rcases List.mem_append.mp inside with old | new
    · exact first.among note old
    · obtain ⟨rule, here, same⟩ := second.among note new
      exact ⟨rule, first.fewer here, same⟩
  gone := by
    intro categoryId inside rule there
    rcases List.mem_append.mp inside with old | new
    · exact first.gone categoryId old rule (second.fewer there)
    · exact second.gone categoryId new rule there
  notAgain := by
    refine List.pairwise_append.mpr ⟨first.notAgain, second.notAgain, ?_⟩
    rintro _ old later new categoryId rfl
    obtain ⟨rule, here, same⟩ := second.among later new
    rw [same]
    exact first.gone categoryId old rule here

theorem Sorted.noted (sorted : Sorted rules left dropped) (distinct : Distinct rules) :
    Noted rules left (cancelNotes dropped) where
  fewer := sorted.kept_sublist.subset
  among := by
    intro note inside
    obtain ⟨rule, here, rfl⟩ := List.mem_map.mp inside
    exact ⟨rule, sorted.dropped_sublist.subset here, rfl⟩
  gone := by
    intro categoryId inside rule there
    obtain ⟨cancelled, here, ⟨⟩⟩ := List.mem_map.mp inside
    exact sorted.apart distinct rule there cancelled here
  notAgain := by
    refine List.pairwise_map.mpr ?_
    refine (distinct.sublist sorted.dropped_sublist).imp fun different categoryId same => ?_
    cases same
    exact different.symm

theorem noted_called {rule : FDRule Fd State} (inside : rule ∈ rules) :
    Noted rules rules [.called rule.categoryId] where
  fewer := List.Subset.refl rules
  among := List.forall_mem_singleton.mpr ⟨rule, inside, rfl⟩
  gone := fun _ other => absurd (List.mem_singleton.mp other) Note.noConfusion
  notAgain := List.pairwise_singleton _ _

theorem Waited.noted {status : Fd → State → FDWrapper} {loop : EventLoop Fd State}
    (distinct : Distinct loop.fdRules) {answer : PollAnswer} {state : State}
    {outcome : EventLoop Fd State × State × Result × List Note}
    (waited : Waited status loop answer state outcome) :
    Noted loop.fdRules outcome.1.fdRules outcome.2.2.2 := by
  cases waited with
  | served remaining among serves => exact .refl _
  | idle remaining setsUp nobody => exact setsUp.sorted.noted distinct
  | polled remaining setsUp somebody resorted others broken goesOn =>
      exact (setsUp.sorted.noted distinct).trans
        (resorted.noted (setsUp.sorted.distinct_kept distinct))
  | called remaining setsUp resorted others broken chosen still ran =>
      exact (setsUp.sorted.noted distinct).trans
        ((resorted.noted (setsUp.sorted.distinct_kept distinct)).trans (noted_called still))

end Notes

/-! ### Whole runs -/

/-- A loop, the state of its owner, and the callbacks that were made. -/
structure Watched (Fd State : Type) where
  loop : EventLoop Fd State
  state : State
  notes : List Note

namespace Watched

/-- A turn, a rule added or cancelled by the owner, and whatever else changes the state. -/
inductive Step (status : Fd → State → FDWrapper) (watched : Watched Fd State) :
    Watched Fd State → Prop
  | wait {answer : PollAnswer} {loop : EventLoop Fd State} {state : State} {result : Result}
      {notes : List Note}
      (ran : watched.loop.waitNextEvent status answer watched.state = .ok (loop, state, result, notes)) :
      Step status watched ⟨loop, state, watched.notes ++ notes⟩
  | add {name : String} {rule : FDRule Fd State} {loop : EventLoop Fd State}
      (ran : watched.loop.addNamedRule name rule = .ok loop) :
      Step status watched { watched with loop }
  | cancel (categoryId : Nat) :
      Step status watched { watched with loop := watched.loop.cancel categoryId }
  | change (state : State) : Step status watched { watched with state }

/-- Nothing is done yet. -/
def system (status : Fd → State → FDWrapper) : TransitionSystem (Watched Fd State) where
  Initial := fun watched => watched.loop = EventLoop.new ∧ watched.notes = []
  Step := Step status

/-- No category is used twice, and the rules that were cancelled are gone. -/
structure Settled (watched : Watched Fd State) : Prop where
  distinct : Distinct watched.loop.fdRules
  known : ∀ rule ∈ watched.loop.fdRules, rule.categoryId < watched.loop.ruleCategories.length
  noted : ∀ note ∈ watched.notes, note.categoryId < watched.loop.ruleCategories.length
  gone : ∀ categoryId, .cancelled categoryId ∈ watched.notes →
    ∀ rule ∈ watched.loop.fdRules, rule.categoryId ≠ categoryId
  notAgain : watched.notes.Pairwise NotAgain

variable {status : Fd → State → FDWrapper} {watched next : Watched Fd State}

theorem Settled.wait (settled : watched.Settled) {answer : PollAnswer} {loop : EventLoop Fd State}
    {state : State} {result : Result} {notes : List Note}
    (ran : watched.loop.waitNextEvent status answer watched.state = .ok (loop, state, result, notes)) :
    Settled ⟨loop, state, watched.notes ++ notes⟩ := by
  have waited := waitNextEvent_ok ran
  obtain ⟨sub, -, categories⟩ := waited.fewer
  have noted := waited.noted settled.distinct
  dsimp only at sub categories noted
  refine ⟨settled.distinct.sublist sub, ?_, ?_, ?_, ?_⟩
  · rw [categories]
    exact fun rule inside => settled.known rule (sub.subset inside)
  · rw [categories]
    refine List.forall_mem_append.mpr ⟨settled.noted, fun note inside => ?_⟩
    obtain ⟨rule, here, same⟩ := noted.among note inside
    rw [same]
    exact settled.known rule here
  · intro categoryId inside rule there
    rcases List.mem_append.mp inside with old | new
    · exact settled.gone categoryId old rule (sub.subset there)
    · exact noted.gone categoryId new rule there
  · refine List.pairwise_append.mpr ⟨settled.notAgain, noted.notAgain, ?_⟩
    rintro _ old later new categoryId rfl
    obtain ⟨rule, here, same⟩ := noted.among later new
    rw [same]
    exact settled.gone categoryId old rule here

theorem Settled.add (settled : watched.Settled) {name : String} {rule : FDRule Fd State}
    {loop : EventLoop Fd State} (ran : watched.loop.addNamedRule name rule = .ok loop) :
    Settled { watched with loop } := by
  rw [addNamedRule_ok ran]
  have longer : watched.loop.ruleCategories.length <
      (watched.loop.ruleCategories ++ [name]).length := by simp
  refine ⟨?_, ?_, ?_, ?_, settled.notAgain⟩
  · refine List.pairwise_append.mpr ⟨settled.distinct, List.pairwise_singleton _ _, ?_⟩
    intro old inside new there
    rw [List.mem_singleton.mp there]
    exact Nat.ne_of_lt (settled.known old inside)
  · refine List.forall_mem_append.mpr ⟨fun old inside => ?_, List.forall_mem_singleton.mpr longer⟩
    exact (settled.known old inside).trans longer
  · exact fun note inside => (settled.noted note inside).trans longer
  · intro categoryId inside
    refine List.forall_mem_append.mpr ⟨settled.gone categoryId inside, ?_⟩
    exact List.forall_mem_singleton.mpr (Nat.ne_of_gt (settled.noted _ inside))

theorem Settled.cancel (settled : watched.Settled) (categoryId : Nat) :
    Settled { watched with loop := watched.loop.cancel categoryId } := by
  have same (rule : FDRule Fd State) : (if rule.categoryId = categoryId then
      { rule with cancelRequested := true } else rule).categoryId = rule.categoryId := by
    split
    · rfl
    · rfl
  refine ⟨?_, ?_, settled.noted, fun other inside => ?_, settled.notAgain⟩
  · refine List.pairwise_map.mpr (settled.distinct.imp fun different => ?_)
    rw [same, same]
    exact different
  · refine List.forall_mem_map.mpr fun rule inside => ?_
    rw [same]
    exact settled.known rule inside
  · refine List.forall_mem_map.mpr fun rule there => ?_
    rw [same]
    exact settled.gone other inside rule there

theorem settled_keeps (status : Fd → State → FDWrapper) :
    (system status).Keeps (fun _ => True) Settled where
  monotone := fun _ _ _ _ => True.intro
  initial := by
    rintro ⟨loop, state, notes⟩ ⟨rfl, rfl⟩
    exact ⟨List.Pairwise.nil, fun _ inside => absurd inside List.not_mem_nil,
      fun _ inside => absurd inside List.not_mem_nil,
      fun _ inside => absurd inside List.not_mem_nil, List.Pairwise.nil⟩
  preserved := by
    intro watched next settled step _
    cases step with
    | wait ran => exact settled.wait ran
    | add ran => exact settled.add ran
    | cancel categoryId => exact settled.cancel categoryId
    | change state =>
        exact ⟨settled.distinct, settled.known, settled.noted, settled.gone, settled.notAgain⟩

/-- In no run of a loop is a rule called or cancelled again once it was cancelled. -/
theorem cancelled_for_good (status : Fd → State → FDWrapper) (watched : Watched Fd State)
    (reached : (system status).Reachable watched) (before after : List Note) (categoryId : Nat)
    (made : watched.notes = before ++ .cancelled categoryId :: after) :
    ∀ later ∈ after, later.categoryId ≠ categoryId := by
  have notAgain := ((settled_keeps status).reachable reached True.intro).notAgain
  rw [made] at notAgain
  have rest := (List.pairwise_append.mp notAgain).2.1
  exact fun later inside => (List.pairwise_cons.mp rest).1 later inside categoryId rfl

/-- A descriptor that is at its end, and one that can be written to once. -/
def endStatus (ended : Bool) (_ : Bool) : FDWrapper := { FDWrapper.new true with eof := ended }

def endedRule : FDRule Bool Bool where
  categoryId := 0
  interest := id
  callback := .ok
  fd := true
  direction := .In

def writeOnceRule : FDRule Bool Bool where
  categoryId := 0
  interest := id
  callback := fun _ => .ok false
  fd := false
  direction := .Out

def twoRules : EventLoop Bool Bool :=
  ⟨["read", "write"], [endedRule, { writeOnceRule with categoryId := 1 }], []⟩

/-- The rule that is left when the other one is at its end. -/
def rest : List (FDRule Bool Bool) := [{ writeOnceRule with categoryId := 1 }]

def allWritable : PollAnswer where
  revents := fun _ => { writable := true }

theorem twoRules_wait : twoRules.waitNextEvent endStatus allWritable true =
    .ok ({ twoRules with fdRules := rest }, false, .Success, [.cancelled 0, .called 1]) := rfl

theorem twoRules_exit : twoRules.waitNextEvent endStatus allWritable false =
    .ok ({ twoRules with fdRules := rest }, false, .Exit, [.cancelled 0]) := rfl

theorem cancelled_for_good_ended :
    ∃ watched, (system endStatus).Reachable watched ∧
      watched.notes = [] ++ .cancelled 0 :: [.called 1] ∧
      ∀ later ∈ [Note.called 1], later.categoryId ≠ 0 := by
  have start : (system endStatus).Reachable ⟨EventLoop.new, true, []⟩ := .start ⟨rfl, rfl⟩
  have first := start.step (.add (show EventLoop.new.addNamedRule "read" endedRule = _ from rfl))
  have second := first.step (.add (show EventLoop.addNamedRule _ "write" writeOnceRule = _ from rfl))
  have third := second.step (.wait twoRules_wait)
  exact ⟨_, third, rfl, cancelled_for_good endStatus _ third [] [.called 1] 0 rfl⟩

end Watched

/-! ### One turn -/

/-- Every rule of a loop is kept by a turn, or noted as cancelled, or its owner had cancelled it. -/
theorem Waited.cover {status : Fd → State → FDWrapper} {loop : EventLoop Fd State}
    {answer : PollAnswer} {state : State} {outcome : EventLoop Fd State × State × Result × List Note}
    (waited : Waited status loop answer state outcome) :
    ∀ rule ∈ loop.fdRules, rule ∈ outcome.1.fdRules ∨
      .cancelled rule.categoryId ∈ outcome.2.2.2 ∨ rule.cancelRequested = true := by
  have noted {rule : FDRule Fd State} {dropped : List (FDRule Fd State)} (inside : rule ∈ dropped) :
      .cancelled rule.categoryId ∈ cancelNotes dropped :=
    List.mem_map_of_mem inside
  have twice {fdRules dropped left more : List (FDRule Fd State)} {last : List Note}
      (sorted : Sorted loop.fdRules fdRules dropped) (resorted : Sorted fdRules left more) :
      ∀ rule ∈ loop.fdRules, rule ∈ left ∨
        .cancelled rule.categoryId ∈ cancelNotes dropped ++ (cancelNotes more ++ last) ∨
          rule.cancelRequested = true := by
    intro rule inside
    rcases sorted.cover rule inside with kept | lost | forgotten
    · rcases resorted.cover rule kept with still | lost | forgotten
      · exact Or.inl still
      · refine Or.inr (Or.inl (List.mem_append_right _ (List.mem_append_left _ ?_)))
        exact noted lost
      · exact Or.inr (Or.inr forgotten)
    · exact Or.inr (Or.inl (List.mem_append_left _ (noted lost)))
    · exact Or.inr (Or.inr forgotten)
  cases waited with
  | served remaining among serves => exact fun rule inside => Or.inl inside
  | idle remaining setsUp nobody =>
      exact fun rule inside => (setsUp.sorted.cover rule inside).imp_right (Or.imp_left noted)
  | polled remaining setsUp somebody resorted others broken goesOn =>
      have once := @twice _ _ _ _ [] setsUp.sorted resorted
      rwa [List.append_nil] at once
  | called remaining setsUp resorted others broken chosen still ran =>
      exact twice setsUp.sorted resorted

/-- Why a turn has cancelled a rule: `setUp` has dropped it, since nothing more could come of it when
it was its turn, or `poll` has reported so in the place in which it was polled. -/
def Caused (status : Fd → State → FDWrapper) (rules : List (FDRule Fd State)) (answer : PollAnswer)
    (state : State) (rule : FDRule Fd State) : Prop :=
  (∃ left pollfds dropped final, SetsUp status rules state left pollfds dropped final ∧
    rule ∈ dropped ∧ Ended status dropped state rule) ∨ Struck status rules answer state rule

theorem Waited.caused {status : Fd → State → FDWrapper} {loop : EventLoop Fd State}
    {answer : PollAnswer} {state : State} {outcome : EventLoop Fd State × State × Result × List Note}
    (waited : Waited status loop answer state outcome) (categoryId : Nat)
    (noted : .cancelled categoryId ∈ outcome.2.2.2) :
    ∃ rule ∈ loop.fdRules, rule.categoryId = categoryId ∧
      Caused status loop.fdRules answer state rule := by
  have early {left dropped : List (FDRule Fd State)} {pollfds : List (PollFd Fd)} {final : State}
      (setsUp : SetsUp status loop.fdRules state left pollfds dropped final)
      (inside : .cancelled categoryId ∈ cancelNotes dropped) :
      ∃ rule ∈ loop.fdRules, rule.categoryId = categoryId ∧
        Caused status loop.fdRules answer state rule := by
    obtain ⟨rule, here, ⟨⟩⟩ := List.mem_map.mp inside
    exact ⟨rule, setsUp.sorted.dropped_sublist.subset here, rfl,
      Or.inl ⟨_, _, _, _, setsUp, here, setsUp.ended rule here⟩⟩
  have late {rules left more : List (FDRule Fd State)} (among : rules.Sublist loop.fdRules)
      (resorted : Sorted rules left more)
      (broken : ∀ rule ∈ more, Struck status loop.fdRules answer state rule)
      (inside : .cancelled categoryId ∈ cancelNotes more) :
      ∃ rule ∈ loop.fdRules, rule.categoryId = categoryId ∧
        Caused status loop.fdRules answer state rule := by
    obtain ⟨rule, here, ⟨⟩⟩ := List.mem_map.mp inside
    exact ⟨rule, among.subset (resorted.dropped_sublist.subset here), rfl, Or.inr (broken rule here)⟩
  cases waited with
  | served remaining among serves => exact absurd noted List.not_mem_nil
  | idle remaining setsUp nobody => exact early setsUp noted
  | polled remaining setsUp somebody resorted others broken goesOn =>
      rcases List.mem_append.mp noted with first | second
      · exact early setsUp first
      · exact late setsUp.sorted.kept_sublist resorted broken second
  | called remaining setsUp resorted others broken chosen still ran =>
      rcases List.mem_append.mp noted with first | later
      · exact early setsUp first
      rcases List.mem_append.mp later with second | last
      · exact late setsUp.sorted.kept_sublist resorted broken second
      · cases List.mem_singleton.mp last

/-- The turn has called this rule, in the place in which `setUp` has put it.  Before, some of the
others were cancelled, and all that were are noted; what its callback left is the outcome. -/
def Called (status : Fd → State → FDWrapper) (loop : EventLoop Fd State) (answer : PollAnswer)
    (state : State) (outcome : EventLoop Fd State × State × Result × List Note)
    (rule : FDRule Fd State) : Prop :=
  ∃ left pollfds dropped middle more between place,
    SetsUp status loop.fdRules state left pollfds dropped middle ∧
      Chosen status answer state left pollfds dropped rule place ∧
      Sorted left outcome.1.fdRules more ∧ rule ∈ outcome.1.fdRules ∧
      cancelEach more middle = .ok between ∧
      callRule status loop.ruleCategories rule between = .ok outcome.2.1 ∧
      outcome.2.2.2 = cancelNotes dropped ++ (cancelNotes more ++ [.called rule.categoryId])

/-- A turn calls at most one rule with a descriptor, as the last thing that it does.  That rule is
not cancelled, it said that it was interested when the descriptors were set up, and `poll` has
reported that its own descriptor is ready.  A turn ends the loop only if it calls nobody and no rule
that is left was interested.  No rule gets lost: it is kept, or noted as cancelled, or its owner had
cancelled it.  A rule that the turn cancels was at its end, or `poll` has reported so. -/
theorem serves_one (status : Fd → State → FDWrapper) (loop : EventLoop Fd State)
    (answer : PollAnswer) (state : State)
    (outcome : EventLoop Fd State × State × Result × List Note)
    (ran : loop.waitNextEvent status answer state = .ok outcome) :
    (∀ categoryId, .called categoryId ∈ outcome.2.2.2 →
      outcome.2.2.1 = .Success ∧ outcome.2.2.2.getLast? = some (.called categoryId) ∧
        (∀ other, .called other ∉ outcome.2.2.2.dropLast) ∧
        ∃ rule, rule.categoryId = categoryId ∧ Called status loop answer state outcome rule) ∧
      (outcome.2.2.1 = .Exit → ∃ pollfds dropped,
        SetsUp status loop.fdRules state outcome.1.fdRules pollfds dropped outcome.2.1 ∧
          ∀ rule ∈ outcome.1.fdRules, Asked status rule dropped state false) ∧
      (∀ rule ∈ loop.fdRules, rule ∈ outcome.1.fdRules ∨
        .cancelled rule.categoryId ∈ outcome.2.2.2 ∨ rule.cancelRequested = true) ∧
      ∀ categoryId, .cancelled categoryId ∈ outcome.2.2.2 → ∃ rule ∈ loop.fdRules,
        rule.categoryId = categoryId ∧ Caused status loop.fdRules answer state rule := by
  have waited := waitNextEvent_ok ran
  refine ⟨?_, ?_, waited.cover, waited.caused⟩
  · cases waited with
    | served remaining among serves => exact fun _ inside => absurd inside List.not_mem_nil
    | @idle fdRules dropped pollfds nonFdRules final remaining setsUp nobody =>
        exact fun categoryId inside =>
          absurd inside (called_not_mem_cancelNotes categoryId dropped)
    | @polled fdRules dropped left more pollfds nonFdRules middle final result remaining setsUp
        somebody resorted others broken goesOn =>
        intro categoryId inside
        rcases List.mem_append.mp inside with first | second
        · exact absurd first (called_not_mem_cancelNotes categoryId dropped)
        · exact absurd second (called_not_mem_cancelNotes categoryId more)
    | @called fdRules dropped left more pollfds rule place nonFdRules middle between final remaining
        setsUp resorted others broken chosen still called =>
        intro categoryId inside
        have silent : ∀ other, .called other ∉ cancelNotes dropped ++ cancelNotes more := by
          intro other inside
          rcases List.mem_append.mp inside with first | second
          · exact called_not_mem_cancelNotes other dropped first
          · exact called_not_mem_cancelNotes other more second
        dsimp only at inside ⊢
        rw [← List.append_assoc] at inside ⊢
        have mine : rule.categoryId = categoryId := by
          rcases List.mem_append.mp inside with early | last
          · exact absurd early (silent categoryId)
          · exact (Note.called.inj (List.mem_singleton.mp last)).symm
        refine ⟨rfl, ?_, ?_, rule, mine, _, _, _, _, _, _, place, setsUp, chosen, resorted, still,
          others, called, by rw [mine, List.append_assoc]⟩
        · rw [List.getLast?_append_of_ne_nil _ (List.cons_ne_nil _ _), mine]
          rfl
        · rw [List.dropLast_concat]
          exact silent
  · cases waited with
    | idle remaining setsUp nobody => exact fun _ => ⟨_, _, setsUp, nobody⟩
    | polled _ _ _ _ _ _ goesOn => exact fun ended => absurd ended goesOn
    | _ => exact Result.noConfusion

section

open Watched

/-- In the first turn one rule is dropped at its end, and the other one is called.  In the second one
it is not interested, and the loop is left. -/
theorem serves_one_writable :
    ((∃ rule, rule.categoryId = 1 ∧ Called endStatus twoRules allWritable true
        ({ twoRules with fdRules := rest }, false, .Success, [.cancelled 0, .called 1]) rule) ∧
      (∀ rule ∈ twoRules.fdRules, rule ∈ rest ∨
        .cancelled rule.categoryId ∈ [Note.cancelled 0, .called 1] ∨ rule.cancelRequested = true) ∧
      ∃ rule ∈ twoRules.fdRules, rule.categoryId = 0 ∧
        Caused endStatus twoRules.fdRules allWritable true rule) ∧
    ∃ pollfds dropped, SetsUp endStatus twoRules.fdRules false rest pollfds dropped false ∧
      ∀ rule ∈ rest, Asked endStatus rule dropped false false := by
  have serves := serves_one endStatus twoRules allWritable true _ twoRules_wait
  have called := (serves.1 1 (List.mem_cons_of_mem _ List.mem_cons_self)).2.2.2
  have exits := (serves_one endStatus twoRules allWritable false _ twoRules_exit).2.1 rfl
  exact ⟨⟨called, serves.2.2.1, serves.2.2.2 0 List.mem_cons_self⟩, exits⟩

end

end EventLoop

end Minnow.Socket
