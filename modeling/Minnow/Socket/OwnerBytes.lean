import Minnow.Socket.Threads

/-!
# What a thread makes of the bytes of its owner

Nothing that was read from the owner or written to it is taken back, and the thread closes the
stream of the owner only at its end, or when the rule that reads is cancelled.
-/

namespace Minnow.Socket

open Foundation Link Transport Wire

namespace TCPMinnowSocket

/-- The owner's end of the connection. -/
structure OwnersEnd where
  fromOwner : List UInt8
  toOwner : List UInt8
  threadData : FDWrapper
  outboundShutdown : Bool

def ownersEnd (socket : TCPOverIPv4OverEthernetMinnowSocket) : OwnersEnd :=
  ⟨socket.fromOwner, socket.toOwner, socket.threadData, socket.outboundShutdown⟩

/-- A later state of the owner's end.  The stream of the owner may have been closed for a reason of
its own. -/
structure OwnersEnd.Grows (reason : Prop) (start later : OwnersEnd) : Prop where
  fromOwner : start.fromOwner <+: later.fromOwner
  toOwner : start.toOwner <+: later.toOwner
  eof : start.threadData.eof = true → later.threadData.eof = true
  closed : later.threadData.closed = start.threadData.closed
  shut : later.outboundShutdown = true →
    start.outboundShutdown = true ∨ later.threadData.eof = true ∨ reason

theorem OwnersEnd.Grows.refl (reason : Prop) (start : OwnersEnd) : start.Grows reason start :=
  ⟨List.prefix_refl _, List.prefix_refl _, id, rfl, Or.inl⟩

variable {socket next : TCPOverIPv4OverEthernetMinnowSocket} {reason : Prop} {start : OwnersEnd}

theorem collectSegments_ownersEnd (ran : socket.collectSegments = .ok next) :
    next.ownersEnd = socket.ownersEnd := by
  obtain ⟨collected, -, ⟨⟩⟩ := Fault.bind_eq_ok.mp ran
  rfl

theorem receiveSegment_ownersEnd (ran : socket.receiveSegment = .ok next) :
    next.ownersEnd = socket.ownersEnd := by
  obtain ⟨⟨adapter, seg, packets⟩, -, ran⟩ := Fault.bind_eq_ok.mp ran
  obtain ⟨after, heard, ran⟩ := Fault.bind_eq_ok.mp ran
  have same : after.ownersEnd = socket.ownersEnd := by
    cases seg with
    | none =>
        cases heard
        rfl
    | some seg =>
        have same := collectSegments_ownersEnd heard
        exact same
  split at ran
  · cases ran
    exact same
  · cases ran
    exact same

theorem sendLoop_ownersEnd (segments : List TCPSegment)
    (ran : TCPMinnowSocket.sendLoop segments socket = .ok next) :
    next.ownersEnd = socket.ownersEnd := by
  induction segments generalizing socket with
  | nil =>
      cases ran
      rfl
  | cons seg rest ih =>
      obtain ⟨written, -, ran⟩ := Fault.bind_eq_ok.mp ran
      have same := ih ran
      exact same

theorem pass_ownersEnd {msSinceLastTick : UInt64} (ran : socket.pass msSinceLastTick = .ok next) :
    next.ownersEnd = socket.ownersEnd := by
  obtain ⟨tcp, -, ran⟩ := Fault.bind_eq_ok.mp ran
  obtain ⟨after, collected, ran⟩ := Fault.bind_eq_ok.mp ran
  obtain ⟨passed, -, ⟨⟩⟩ := Fault.bind_eq_ok.mp ran
  have same := collectSegments_ownersEnd collected
  exact same

theorem connect_ownersEnd (ran : socket.connect = .ok next) : next.ownersEnd = socket.ownersEnd := by
  obtain ⟨tcp, -, ran⟩ := Fault.bind_eq_ok.mp ran
  obtain ⟨after, collected, ran⟩ := Fault.bind_eq_ok.mp ran
  have same := collectSegments_ownersEnd collected
  split at ran
  · cases ran
    exact same
  · cases ran

/-- The bytes that a read finds are noted, and the stream is closed at the end. -/
theorem pushBytes_ownersEnd (grows : start.Grows reason socket.ownersEnd)
    (ran : socket.pushBytes = .ok next) : start.Grows reason next.ownersEnd := by
  obtain ⟨⟨threadData, data⟩, read, ran⟩ := Fault.bind_eq_ok.mp ran
  obtain ⟨tcp, -, collected⟩ := Fault.bind_eq_ok.mp ran
  have kept : (socket.threadData.eof = true → threadData.eof = true) ∧
      threadData.closed = socket.threadData.closed := by
    cases answer : socket.answers.read with
    | failed =>
        rw [answer] at read
        cases read
    | again =>
        rw [answer, FDWrapper.read] at read
        split at read
        · cases read
          exact ⟨id, rfl⟩
        · cases read
    | bytes found =>
        rw [answer] at read
        obtain ⟨rfl, rfl, -⟩ := FDWrapper.read_bytes read
        refine ⟨fun eof => ?_, rfl⟩
        dsimp only
        rw [eof, Bool.true_or]
  have same := collectSegments_ownersEnd collected
  rw [same]
  split
  · rename_i ended
    exact ⟨grows.fromOwner.trans (List.prefix_append _ _), grows.toOwner,
      fun eof => kept.1 (grows.eof eof), kept.2.trans grows.closed, fun _ => Or.inr (Or.inl ended)⟩
  · refine ⟨grows.fromOwner.trans (List.prefix_append _ _), grows.toOwner,
      fun eof => kept.1 (grows.eof eof), kept.2.trans grows.closed, fun shut => ?_⟩
    exact (grows.shut shut).imp_right (Or.imp_left kept.1)

/-- What is written to the owner is noted. -/
theorem readBytes_ownersEnd (grows : start.Grows reason socket.ownersEnd)
    (ran : socket.readBytes = .ok next) : start.Grows reason next.ownersEnd := by
  obtain ⟨after, written, ran⟩ := Fault.bind_eq_ok.mp ran
  have between : start.Grows reason after.ownersEnd := by
    rw [writeInbound] at written
    dsimp only at written
    split at written
    · cases written
      exact grows
    · obtain ⟨⟨threadData, bytesWritten⟩, taken, ⟨⟩⟩ := Fault.bind_eq_ok.mp written
      obtain ⟨rfl, -, -⟩ := FDWrapper.write_ok taken
      exact ⟨grows.fromOwner, grows.toOwner.trans (List.prefix_append _ _), grows.eof, grows.closed,
        grows.shut⟩
  split at ran
  · split at ran
    · cases ran
    · cases ran
      exact ⟨between.fromOwner, between.toOwner, between.eof, between.closed, between.shut⟩
  · cases ran
    exact between

/-- No callback takes anything back. -/
theorem eventLoop_growing (start : OwnersEnd) (reason : Prop) :
    EventLoop.Safe status eventLoop (fun note => note = .cancelled 1 → reason)
      (fun socket => start.Grows reason (ownersEnd socket)) fun _ _ => True where
  basic := fun _ inside => absurd inside List.not_mem_nil
  cancel := by
    intro rule inside may socket next grows ran
    rcases mem_eventLoop inside with rfl | rfl | rfl | rfl
    · cases ran
      exact grows
    · cases ran
      exact ⟨grows.fromOwner, grows.toOwner, grows.eof, grows.closed,
        fun _ => Or.inr (Or.inr (may rfl))⟩
    · cases ran
      exact grows
    · cases ran
      exact grows
  other := fun _ _ _ _ _ _ _ _ _ _ => True.intro
  due := fun _ _ _ _ _ _ => True.intro
  call := by
    intro rule inside _ socket next grows _ ran
    rcases mem_eventLoop inside with rfl | rfl | rfl | rfl
    · rw [receiveSegment_ownersEnd ran]
      exact grows
    · exact pushBytes_ownersEnd grows ran
    · exact readBytes_ownersEnd grows ran
    · rw [sendLoop_ownersEnd _ ran]
      exact grows

/-- Rules that are cancelled do nothing to the owner's descriptor. -/
theorem threadData_of_cancelEach
    {dropped : List (FDRule Polled TCPOverIPv4OverEthernetMinnowSocket)}
    (among : dropped ⊆ eventLoop.fdRules) (ran : EventLoop.cancelEach dropped socket = .ok next) :
    next.threadData = socket.threadData := by
  induction dropped generalizing socket with
  | nil =>
      cases ran
      rfl
  | cons rule rest ih =>
      obtain ⟨here, others⟩ := List.cons_subset.mp among
      obtain ⟨middle, cancelled, ran⟩ := Fault.bind_eq_ok.mp ran
      have same := ih others ran
      rcases mem_eventLoop here with rfl | rfl | rfl | rfl
      all_goals
        cases cancelled
        exact same

section Turn

variable {loop left : EventLoop Polled TCPOverIPv4OverEthernetMinnowSocket} {answers : Answers}
  {poll : PollAnswer} {msSinceLastTick : UInt64} {notes : List Note} {goesOn : Bool}

/-- The loop is that of a socket, or what is left of it. -/
def IsSocketLoop (loop : EventLoop Polled TCPOverIPv4OverEthernetMinnowSocket) : Prop :=
  loop.fdRules.Sublist eventLoop.fdRules ∧ loop.nonFdRules.Sublist eventLoop.nonFdRules

theorem turn_ownersEnd (own : IsSocketLoop loop)
    (ran : turn loop socket answers poll msSinceLastTick = .ok (left, next, notes, goesOn)) :
    socket.ownersEnd.Grows (.cancelled 1 ∈ notes) next.ownersEnd := by
  obtain ⟨⟨after, middle, ret, made⟩, waits, ran⟩ := Fault.bind_eq_ok.mp ran
  have waited := EventLoop.waitNextEvent_ok waits
  have growing := (eventLoop_growing socket.ownersEnd (.cancelled 1 ∈ made)).mono own.1.subset
    own.2.subset
  have grows := growing.waited (eventLoop_distinct.sublist own.1)
    (.refl (.cancelled 1 ∈ made) socket.ownersEnd) (by
      rintro note inside rfl
      exact inside) waited
  dsimp only at ran grows
  split at ran
  · cases ran
    exact grows
  split at ran
  · obtain ⟨last, passed, ⟨⟩⟩ := Fault.bind_eq_ok.mp ran
    rw [pass_ownersEnd passed]
    exact grows
  · cases ran
    exact grows

/-- The rule that reads is cancelled at the end of what it reads, or because `poll` has reported that
there is nothing more. -/
theorem ended_of_cancelled (own : IsSocketLoop loop) (alive : socket.threadData.closed = false)
    (ran : turn loop socket answers poll msSinceLastTick = .ok (left, next, notes, goesOn))
    (noted : .cancelled 1 ∈ notes) : socket.threadData.eof = true ∨
      EventLoop.Struck status loop.fdRules poll { socket with answers, emitted := [] } pushRule := by
  obtain ⟨⟨after, middle, ret, made⟩, waits, ran⟩ := Fault.bind_eq_ok.mp ran
  have waited := EventLoop.waitNextEvent_ok waits
  have same : made = notes := by
    dsimp only at ran
    split at ran
    · cases ran
      rfl
    split at ran
    · obtain ⟨last, passed, ⟨⟩⟩ := Fault.bind_eq_ok.mp ran
      rfl
    · cases ran
      rfl
  subst same
  obtain ⟨rule, inside, category, cause⟩ := waited.caused 1 noted
  rcases mem_eventLoop (own.1.subset inside) with rfl | rfl | rfl | rfl
  · cases category
  · refine cause.imp_left ?_
    rintro ⟨left, pollfds, dropped, final, setsUp, -, before, later, between, rfl, first, lapsed⟩
    have among := (List.sublist_append_left before _).trans
      (setsUp.sorted.dropped_sublist.trans own.1)
    have threadData := threadData_of_cancelEach among.subset first
    simpa [EventLoop.defunct, pushRule, status, threadData, alive] using lapsed
  · cases category
  · cases category

end Turn

end TCPMinnowSocket

end Minnow.Socket
