import Minnow.Foundation.Runs
import Minnow.Socket.Descriptor

/-!
# The event loop

A rule has callbacks on whatever state its owner keeps, the answers of the kernel to come among
it.  The loop notes which rules it calls and which ones it cancels.
-/

namespace Minnow.Socket

inductive Direction where
  | In
  | Out
  deriving DecidableEq

/-- What `poll` reports of a descriptor. -/
structure Revents where
  readable : Bool := false
  writable : Bool := false
  err : Bool := false
  hup : Bool := false
  nval : Bool := false
  deriving DecidableEq

namespace Revents

def ready (revents : Revents) : Direction → Bool
  | .In => revents.readable
  | .Out => revents.writable

def any (revents : Revents) : Bool :=
  revents.readable || revents.writable || revents.err || revents.hup || revents.nval

/-- There is an error, or a hangup after which nothing more goes in this direction. -/
def broken (revents : Revents) (direction : Direction) : Bool :=
  revents.err || revents.nval || (revents.hup && (decide (direction = .Out) || !revents.readable))

end Revents

/-- How `getsockopt` answers when it is asked for the error of a descriptor. -/
inductive SocketError where
  | notSocket
  | failed
  | unexpectedLength (optlen : Nat)
  | value (error : Int)

/-- What the kernel answers in one turn of the loop, by the place of each descriptor. -/
structure PollAnswer where
  failed : Bool := false
  revents : Nat → Revents
  socketError : Nat → SocketError := fun _ => .value 0

structure BasicRule (State : Type) where
  categoryId : Nat
  interest : State → Bool
  callback : State → Except Fault State
  cancelRequested : Bool := false

structure FDRule (Fd State : Type) extends BasicRule State where
  fd : Fd
  direction : Direction
  cancel : State → Except Fault State := pure
  recover : State → Bool := fun _ => false

/-- A descriptor that is polled, for nothing but errors where no direction is given. -/
structure PollFd (Fd : Type) where
  fd : Fd
  events : Option Direction

/-- A callback that the loop has made. -/
inductive Note where
  | called (categoryId : Nat)
  | cancelled (categoryId : Nat)
  deriving DecidableEq

def Note.categoryId : Note → Nat
  | .called categoryId => categoryId
  | .cancelled categoryId => categoryId

inductive EventLoop.Result where
  | Success
  | Timeout
  | Exit
  deriving DecidableEq

structure EventLoop (Fd State : Type) where
  ruleCategories : List String
  fdRules : List (FDRule Fd State)
  nonFdRules : List (BasicRule State)

namespace EventLoop

variable {Fd State : Type}

def new : EventLoop Fd State := ⟨[], [], []⟩

/-- The vector has room for that many. -/
def maxCategories : Nat := 64

def addCategory (loop : EventLoop Fd State) (name : String) :
    Except Fault (EventLoop Fd State × Nat) :=
  if maxCategories ≤ loop.ruleCategories.length then
    .error (.thrown "maximum categories reached")
  else
    .ok ({ loop with ruleCategories := loop.ruleCategories ++ [name] }, loop.ruleCategories.length)

def addRule (loop : EventLoop Fd State) (rule : FDRule Fd State) : Except Fault (EventLoop Fd State) :=
  if loop.ruleCategories.length ≤ rule.categoryId then .error (.thrown "bad category_id")
  else .ok { loop with fdRules := loop.fdRules ++ [rule] }

/-- A rule under a category of its own. -/
def addNamedRule (loop : EventLoop Fd State) (name : String) (rule : FDRule Fd State) :
    Except Fault (EventLoop Fd State) := do
  let (loop, categoryId) ← loop.addCategory name
  loop.addRule { rule with categoryId }

theorem addNamedRule_ok {loop next : EventLoop Fd State} {name : String} {rule : FDRule Fd State}
    (ran : loop.addNamedRule name rule = .ok next) :
    next = { loop with
      ruleCategories := loop.ruleCategories ++ [name]
      fdRules := loop.fdRules ++ [{ rule with categoryId := loop.ruleCategories.length }] } := by
  rw [addNamedRule, addCategory] at ran
  split at ran
  · cases ran
  · simp only [addRule, bind, Except.bind] at ran
    split at ran
    · cases ran
    · exact (Except.ok.inj ran).symm

def addBasicRule (loop : EventLoop Fd State) (rule : BasicRule State) :
    Except Fault (EventLoop Fd State) :=
  if loop.ruleCategories.length ≤ rule.categoryId then .error (.thrown "bad category_id")
  else .ok { loop with nonFdRules := loop.nonFdRules ++ [rule] }

/-- What the handle of a rule does: the loop forgets the rule in the next turn. -/
def cancel (loop : EventLoop Fd State) (categoryId : Nat) : EventLoop Fd State :=
  { loop with
    fdRules := loop.fdRules.map fun rule =>
      if rule.categoryId = categoryId then { rule with cancelRequested := true } else rule }

/-- The name of a rule in a message. -/
def name (names : List String) (rule : BasicRule State) : String :=
  names[rule.categoryId]?.getD ""

/-! ## Rules without a descriptor -/

/-- As often as a rule is called in one turn. -/
def maxIterations : Nat := 128

/-- A rule is called as long as it is interested, so many times more. -/
def busyLoop (names : List String) (rule : BasicRule State) :
    Nat → State → Bool → Except Fault (State × Bool)
  | 0, state, ruleFired =>
      if rule.interest state then
        .error (.thrown ("EventLoop: busy wait detected: rule \"" ++ name names rule ++
          "\" is still interested after 129 iterations"))
      else .ok (state, ruleFired)
  | left + 1, state, ruleFired =>
      if rule.interest state then do
        busyLoop names rule left (← rule.callback state) true
      else .ok (state, ruleFired)

/-- The rules that are left, and whether one of them was served. -/
def serveBasic (names : List String) :
    List (BasicRule State) → State → Except Fault (List (BasicRule State) × State × Bool)
  | [], state => .ok ([], state, false)
  | rule :: rules, state =>
      if rule.cancelRequested then serveBasic names rules state
      else do
        let (state, ruleFired) ← busyLoop names rule maxIterations state false
        if ruleFired then
          return (rule :: rules, state, true)
        else
          let (left, state, served) ← serveBasic names rules state
          return (rule :: left, state, served)

/-! ## Rules with a descriptor -/

section

variable (status : Fd → State → FDWrapper)

/-- Nothing more can come of the rule. -/
def defunct (rule : FDRule Fd State) (state : State) : Bool :=
  (decide (rule.direction = .In) && (status rule.fd state).eof) || (status rule.fd state).closed

/-- The rules that are left, with what is polled for each of them. -/
def setUp : List (FDRule Fd State) → State →
    Except Fault (List (FDRule Fd State) × List (PollFd Fd) × State × List Note)
  | [], state => .ok ([], [], state, [])
  | rule :: rules, state =>
      -- whoever has cancelled the rule is not called back
      if rule.cancelRequested then setUp rules state
      else if defunct status rule state then do
        let (left, pollfds, state, notes) ← setUp rules (← rule.cancel state)
        return (left, pollfds, state, .cancelled rule.categoryId :: notes)
      else do
        let events := if rule.interest state then some rule.direction else none
        let (left, pollfds, state, notes) ← setUp rules state
        return (rule :: left, ⟨rule.fd, events⟩ :: pollfds, state, notes)

/-- The question whether the descriptor of a rule is a socket with an error. -/
def askSocketError : SocketError → Except Fault Unit
  | .notSocket => .ok ()
  | .failed => .error (.thrown "getsockopt")
  | .unexpectedLength optlen =>
      .error (.thrown ("unexpected length from getsockopt: " ++ toString optlen))
  | .value _ => .ok ()

def serviceCount (rule : FDRule Fd State) (state : State) : UInt32 :=
  match rule.direction with
  | .In => (status rule.fd state).readCount
  | .Out => (status rule.fd state).writeCount

/-- A rule whose descriptor is ready is called, and has to read or write, or to lose interest. -/
def callRule (names : List String) (rule : FDRule Fd State) (state : State) : Except Fault State := do
  let countBefore := serviceCount status rule state
  let state ← rule.callback state
  if countBefore = serviceCount status rule state ∧ (status rule.fd state).closed = false ∧
      rule.interest state = true then
    throw (.thrown ("EventLoop: busy wait detected: rule \"" ++ name names rule.toBasicRule ++
      "\" did not read/write fd and is still interested"))
  else
    return state

/-- A hangup is the end of a rule, unless there is still something to read. -/
def hungUp (rule : FDRule Fd State) (events : Option Direction) (revents : Revents) : Bool :=
  let ready := (events.map revents.ready).getD false
  revents.hup && ((events.isSome && !ready) || decide (rule.direction = .Out))

/-- The rules from this place on, of which at most one is called. -/
def pollResults (names : List String) (answer : PollAnswer) (pollfds : List (PollFd Fd)) :
    Nat → List (FDRule Fd State) → State → Except Fault (List (FDRule Fd State) × State × List Note)
  | _, [], state => .ok ([], state, [])
  | idx, rule :: rules, state => do
      let some pollfd := pollfds[idx]? | throw (.thrown "vector::at")
      let revents := answer.revents idx
      if revents.err || revents.nval then
        if !revents.nval && rule.recover state then
          let (left, state, notes) ← pollResults names answer pollfds (idx + 1) rules state
          return (rule :: left, state, notes)
        else
          askSocketError (answer.socketError idx)
          let (left, state, notes) ←
            pollResults names answer pollfds (idx + 1) rules (← rule.cancel state)
          return (left, state, .cancelled rule.categoryId :: notes)
      else if hungUp rule pollfd.events revents then
        let (left, state, notes) ←
          pollResults names answer pollfds (idx + 1) rules (← rule.cancel state)
        return (left, state, .cancelled rule.categoryId :: notes)
      else if (pollfd.events.map revents.ready).getD false then
        return (rule :: rules, ← callRule status names rule state, [.called rule.categoryId])
      else
        let (left, state, notes) ← pollResults names answer pollfds (idx + 1) rules state
        return (rule :: left, state, notes)

/-- One turn of the loop. -/
def waitNextEvent (loop : EventLoop Fd State) (answer : PollAnswer) (state : State) :
    Except Fault (EventLoop Fd State × State × Result × List Note) := do
  let (nonFdRules, state, served) ← serveBasic loop.ruleCategories loop.nonFdRules state
  if served then
    return ({ loop with nonFdRules }, state, .Success, [])
  else
    let (fdRules, pollfds, state, dropped) ← setUp status loop.fdRules state
    let loop := { loop with fdRules, nonFdRules }
    if !pollfds.any (fun pollfd => pollfd.events.isSome) then
      return (loop, state, .Exit, dropped)
    else if answer.failed then
      throw (.thrown "poll")
    else if !(List.range pollfds.length).any (fun idx => (answer.revents idx).any) then
      return (loop, state, .Timeout, dropped)
    else
      let (fdRules, state, notes) ←
        pollResults status loop.ruleCategories answer pollfds 0 fdRules state
      return ({ loop with fdRules }, state, .Success, dropped ++ notes)

end

end EventLoop

end Minnow.Socket
