import Minnow.Socket.CollectSegments
import Minnow.Socket.EventLoopReturns
import Minnow.Transport.EmptiedQueue

/-!
# Threads that do not die

As every callback collects the segments, no copy waits in the queue when a segment arrives.  So the
timer never expires without a segment to send again, and only the kernel makes a turn fail.
-/

namespace Minnow.Link.TCPOverIPv4OverEthernetAdapter

open Wire

variable {adapter next : TCPOverIPv4OverEthernetAdapter} {packets : List Packet}

theorem writable_step {op : Op} (writable : adapter.interface.Writable)
    (ran : adapter.step op = .ok next) : next.interface.Writable := by
  obtain ⟨after, returned, still⟩ := step_returns writable op
  cases returned.symm.trans ran
  exact still

theorem writable_read {packet : Packet} {seg : Option TCPSegment}
    (writable : adapter.interface.Writable) (ran : adapter.read packet = .ok (next, seg, packets)) :
    next.interface.Writable := by
  have stepped : adapter.step (.read packet) = .ok next := Fault.map_eq_ok.mpr ⟨_, ran, rfl⟩
  exact writable_step writable stepped

theorem writable_write {seg : TCPSegment} (writable : adapter.interface.Writable)
    (ran : adapter.write seg = .ok (next, packets)) : next.interface.Writable := by
  have stepped : adapter.step (.write seg) = .ok next := Fault.map_eq_ok.mpr ⟨_, ran, rfl⟩
  exact writable_step writable stepped

theorem writable_tick {msSinceLastTick : UInt64} (writable : adapter.interface.Writable)
    (ran : adapter.tick msSinceLastTick = .ok (next, packets)) : next.interface.Writable := by
  have stepped : adapter.step (.tick msSinceLastTick) = .ok next :=
    Fault.map_eq_ok.mpr ⟨_, ran, rfl⟩
  exact writable_step writable stepped

end Minnow.Link.TCPOverIPv4OverEthernetAdapter

namespace Minnow.Transport.TCPSender

open Minnow.Stream

/-- The first push makes the SYN and nothing else. -/
theorem push_new (initialRTO : UInt64) (isn : Wrap32) (capacity : UInt64) :
    ∃ sender, (new initialRTO isn).push (ByteStream.new capacity) =
      .ok (sender, ByteStream.new capacity) ∧ sender.sequenceNumbersInFlight = 1 := by
  have seqno : ((new initialRTO isn).pushSyn (ByteStream.new capacity)).getAbsoluteSeqno = 1 := rfl
  have right : ((new initialRTO isn).pushSyn (ByteStream.new capacity)).windowRight = 1 := rfl
  have unfinished : ((new initialRTO isn).pushSyn (ByteStream.new capacity)).finPushed = false := rfl
  refine ⟨(new initialRTO isn).pushSyn (ByteStream.new capacity), ?_, ?_⟩
  · rw [TCPSender.push]
    dsimp only
    rw [unfinished, right, if_neg Bool.false_ne_true, pushLoop_succ,
      if_neg fun both => absurd both.2 (by rw [seqno]; decide)]
    simp only [bind, Except.bind]
    rw [pushRemainder_eq, if_neg fun both => absurd both.2 (by rw [seqno]; decide)]
  · rw [sequenceNumbersInFlight, seqno, pushSyn_windowLeft]
    change Foundation.Words.sub64 1 0 = 1
    decide

end Minnow.Transport.TCPSender

namespace Minnow.Socket

open Foundation Link Transport Wire

namespace TCPMinnowSocket

/-- What keeps a socket from failing. -/
structure Sane (socket : TCPOverIPv4OverEthernetMinnowSocket) : Prop where
  guarded : socket.tcp.sender.Guarded
  emptied : socket.tcp.sender.sendQueue = []
  writable : socket.datagramAdapter.interface.Writable

theorem collectLoop_guarded {fuel : Nat} {tcp next : TCPPeer} {segments more : List TCPSegment}
    (guarded : tcp.sender.Guarded) (ran : collectLoop fuel tcp segments = .ok (next, more)) :
    next.sender.Guarded ∧ next.sender.sendQueue = [] := by
  induction fuel generalizing tcp segments with
  | zero => cases ran
  | succ fuel ih =>
      obtain ⟨⟨middle, seg⟩, sends, ran⟩ := Fault.bind_eq_ok.mp ran
      have still := TCPPeer.maybeSend_guarded guarded sends
      cases seg with
      | none =>
          cases ran
          exact ⟨still, TCPPeer.maybeSend_none sends⟩
      | some seg => exact ih still ran

variable {socket next : TCPOverIPv4OverEthernetMinnowSocket}

/-- Collecting changes the peer and the segments that wait, and leaves nothing in the queue. -/
theorem collectSegments_sane (ran : socket.collectSegments = .ok next)
    (guarded : socket.tcp.sender.Guarded)
    (writable : socket.datagramAdapter.interface.Writable) :
    next.Sane ∧ ∃ tcp outgoingSegments, next = { socket with tcp, outgoingSegments } := by
  obtain ⟨⟨tcp, outgoingSegments⟩, looped, ⟨⟩⟩ := Fault.bind_eq_ok.mp ran
  obtain ⟨still, emptied⟩ := collectLoop_guarded guarded looped
  exact ⟨⟨still, emptied, writable⟩, tcp, outgoingSegments, rfl⟩

/-- What the adapter writes is not counted as read. -/
theorem afterAdapter_readCount (socket : TCPOverIPv4OverEthernetMinnowSocket)
    (adapter : TCPOverIPv4OverEthernetAdapter) (packets : List Packet) :
    (socket.afterAdapter adapter packets).device.readCount = socket.device.readCount := by
  have counted (device : FDWrapper) :
      (packets.foldl (fun device _ => device.registerWrite) device).readCount =
        device.readCount := by
    induction packets generalizing device with
    | nil => rfl
    | cons packet packets ih => exact ih device.registerWrite
  exact counted socket.device

/-! ## What a thread does -/

namespace Sane

/-- The first rule counts a read. -/
theorem receiveSegment (sane : socket.Sane) (ran : socket.receiveSegment = .ok next) :
    next.Sane ∧ next.device.readCount = socket.device.readCount + 1 := by
  obtain ⟨⟨adapter, seg, packets⟩, read, ran⟩ := Fault.bind_eq_ok.mp ran
  obtain ⟨after, heard, ran⟩ := Fault.bind_eq_ok.mp ran
  have writable := TCPOverIPv4OverEthernetAdapter.writable_read sane.writable read
  have counted := afterAdapter_readCount { socket with device := socket.device.registerRead }
    adapter packets
  have done : after.Sane ∧ after.device.readCount = socket.device.readCount + 1 := by
    cases seg with
    | none =>
        cases heard
        exact ⟨⟨sane.guarded, sane.emptied, writable⟩, counted⟩
    | some seg =>
        obtain ⟨still, tcp, outgoingSegments, rfl⟩ := collectSegments_sane heard
          (TCPPeer.receive_guarded sane.guarded sane.emptied seg) writable
        exact ⟨still, counted⟩
  split at ran
  · cases ran
    exact ⟨⟨done.1.guarded, done.1.emptied, done.1.writable⟩, done.2⟩
  · cases ran
    exact done

theorem receiveSegment_returns (sane : socket.Sane) : ∃ next, socket.receiveSegment = .ok next := by
  have read := socket.datagramAdapter.read_returns sane.writable socket.answers.packet
  refine Fault.bind_returns read fun answer => Fault.bind_returns ?_ fun after => ?_
  · obtain ⟨adapter, seg, packets⟩ := answer
    cases seg with
    | none => exact ⟨_, rfl⟩
    | some seg => exact collectSegments_returns _
  · exact Fault.ite_returns ⟨_, rfl⟩ ⟨_, rfl⟩

/-- A push is followed by the collection of its segments. -/
theorem pushed {between : TCPOverIPv4OverEthernetMinnowSocket} {tcp : TCPPeer}
    (pushes : between.tcp.push = .ok tcp)
    (ran : TCPMinnowSocket.collectSegments { between with tcp } = .ok next) (sane : between.Sane) :
    next.Sane ∧ next.threadData = between.threadData := by
  obtain ⟨still, after, outgoingSegments, rfl⟩ :=
    collectSegments_sane ran (TCPPeer.push_guarded sane.guarded pushes) sane.writable
  exact ⟨still, rfl⟩

theorem closeOutbound (sane : socket.Sane) : socket.closeOutbound.Sane :=
  ⟨sane.guarded, sane.emptied, sane.writable⟩

/-- A read of bytes is counted by the second rule. -/
theorem pushBytes (sane : socket.Sane) (ran : socket.pushBytes = .ok next) :
    next.Sane ∧ (∀ data, socket.answers.read = .bytes data →
      next.threadData.readCount = socket.threadData.readCount + 1) := by
  obtain ⟨⟨threadData, data⟩, read, ran⟩ := Fault.bind_eq_ok.mp ran
  obtain ⟨tcp, pushes, ran⟩ := Fault.bind_eq_ok.mp ran
  have counted : ∀ data, socket.answers.read = .bytes data →
      threadData.readCount = socket.threadData.readCount + 1 := by
    intro bytes answer
    rw [answer] at read
    obtain ⟨-, rfl, -⟩ := FDWrapper.read_bytes read
    rfl
  split at pushes
  · rename_i ended
    rw [if_pos ended] at ran
    obtain ⟨still, same⟩ := pushed pushes ran ⟨sane.guarded, sane.emptied, sane.writable⟩
    rw [same]
    exact ⟨still, counted⟩
  · rename_i goesOn
    rw [if_neg goesOn] at ran
    obtain ⟨still, same⟩ := pushed pushes ran ⟨sane.guarded, sane.emptied, sane.writable⟩
    rw [same]
    exact ⟨still, counted⟩

theorem pushBytes_returns {data : List UInt8} (answer : socket.answers.read = .bytes data)
    (fits : data.length ≤ socket.tcp.outboundStream.availableCapacity) :
    ∃ next, socket.pushBytes = .ok next := by
  refine Fault.bind_returns ?_ fun found => ?_
  · rw [answer, FDWrapper.read, if_neg]
    · exact ⟨_, rfl⟩
    · rw [FDWrapper.readBuffer]
      split
      · rename_i none
        rw [List.isEmpty_iff, List.replicate_eq_nil_iff] at none
        rw [List.length_replicate]
        omega
      · simpa using fits
  · exact Fault.bind_returns (TCPPeer.push_returns _) fun tcp => collectSegments_returns _

theorem writeInbound (sane : socket.Sane) (ran : socket.writeInbound = .ok next) :
    next.Sane ∧ (next = socket ∧ socket.tcp.inboundStream.bytesBuffered = 0 ∨
      next.threadData = socket.threadData.registerWrite) := by
  rw [TCPMinnowSocket.writeInbound] at ran
  dsimp only at ran
  split at ran
  · rename_i none
    cases ran
    exact ⟨sane, Or.inl ⟨rfl, none⟩⟩
  · obtain ⟨⟨threadData, bytesWritten⟩, written, ⟨⟩⟩ := Fault.bind_eq_ok.mp ran
    obtain ⟨rfl, -, -⟩ := FDWrapper.write_ok written
    exact ⟨⟨sane.guarded, sane.emptied, sane.writable⟩, Or.inr rfl⟩

/-- The third rule writes, or signals the end. -/
theorem readBytes (sane : socket.Sane) (ran : socket.readBytes = .ok next) :
    next.Sane ∧ (readRule.interest socket = true →
      socket.threadData.writeCount ≠ next.threadData.writeCount) := by
  obtain ⟨after, written, ran⟩ := Fault.bind_eq_ok.mp ran
  obtain ⟨still, moved⟩ := sane.writeInbound written
  split at ran
  · split at ran
    · cases ran
    · cases ran
      refine ⟨⟨still.guarded, still.emptied, still.writable⟩, fun _ => ?_⟩
      rcases moved with ⟨rfl, -⟩ | same
      · exact (FDWrapper.count_ne _).1
      · dsimp only
        rw [same]
        exact (FDWrapper.count_ne _).2
  · rename_i goesOn
    cases ran
    refine ⟨still, fun interested => ?_⟩
    rcases moved with ⟨rfl, none⟩ | same
    · rw [Bool.not_eq_true] at goesOn
      simp [readRule, none, goesOn] at interested
    · rw [same]
      exact (FDWrapper.count_ne _).1

theorem readBytes_returns {bytesWritten : Nat} (answer : socket.answers.write = .count bytesWritten)
    (fits : bytesWritten ≤ socket.tcp.inboundStream.bytesBuffered)
    (moves : 0 < socket.tcp.inboundStream.bytesBuffered → 0 < bytesWritten)
    (shuts : socket.answers.shutdownFails = false) : ∃ next, socket.readBytes = .ok next := by
  have written : ∃ after, socket.writeInbound = .ok after ∧ after.answers = socket.answers := by
    rw [TCPMinnowSocket.writeInbound]
    dsimp only
    split
    · exact ⟨socket, rfl, rfl⟩
    · rename_i some
      have taken : socket.threadData.write socket.tcp.inboundStream.peek socket.answers.write =
          .ok (socket.threadData.registerWrite, bytesWritten) := by
        rw [answer, FDWrapper.write, FDWrapper.taken]
        have positive := moves (Nat.pos_of_ne_zero some)
        have within : bytesWritten ≤ socket.tcp.inboundStream.peek.length := fits
        refine Fault.bind_eq_ok.mpr ⟨bytesWritten, rfl, ?_⟩
        rw [if_neg (fun both => Nat.ne_of_gt positive both.1), if_neg (Nat.not_lt.mpr within)]
        rfl
      exact ⟨_, Fault.bind_eq_ok.mpr ⟨_, taken, rfl⟩, rfl⟩
  obtain ⟨after, ran, same⟩ := written
  rw [← same] at shuts
  rw [TCPMinnowSocket.readBytes, ran]
  simp only [bind, Except.bind, shuts, Bool.false_eq_true, if_false]
  exact Fault.ite_returns ⟨_, rfl⟩ ⟨_, rfl⟩

/-- The fourth rule leaves no segments. -/
theorem sendLoop (segments : List TCPSegment) (sane : socket.Sane)
    (waiting : socket.outgoingSegments = segments)
    (ran : TCPMinnowSocket.sendLoop segments socket = .ok next) :
    next.Sane ∧ next.outgoingSegments = [] := by
  induction segments generalizing socket with
  | nil =>
      cases ran
      exact ⟨sane, waiting⟩
  | cons seg rest ih =>
      obtain ⟨⟨adapter, packets⟩, written, ran⟩ := Fault.bind_eq_ok.mp ran
      have after : Sane ({ socket with outgoingSegments := rest }.afterAdapter adapter packets) :=
        ⟨sane.guarded, sane.emptied,
          TCPOverIPv4OverEthernetAdapter.writable_write sane.writable written⟩
      exact ih after rfl ran

theorem sendLoop_returns (segments : List TCPSegment)
    (socket : TCPOverIPv4OverEthernetMinnowSocket) :
    ∃ next, TCPMinnowSocket.sendLoop segments socket = .ok next := by
  induction segments generalizing socket with
  | nil => exact ⟨_, rfl⟩
  | cons seg rest ih =>
      exact Fault.bind_returns (socket.datagramAdapter.write_returns seg) fun _ => ih _

/-- Time that passes is told to a peer that cannot fail on it. -/
theorem pass (sane : socket.Sane) {msSinceLastTick : UInt64}
    (ran : socket.pass msSinceLastTick = .ok next) : next.Sane := by
  obtain ⟨tcp, ticked, ran⟩ := Fault.bind_eq_ok.mp ran
  obtain ⟨after, collected, ran⟩ := Fault.bind_eq_ok.mp ran
  obtain ⟨⟨adapter, packets⟩, passed, ⟨⟩⟩ := Fault.bind_eq_ok.mp ran
  obtain ⟨same, returned, guarded⟩ := TCPPeer.tick_returns sane.guarded msSinceLastTick.toNat
  cases returned.symm.trans ticked
  obtain ⟨still, -⟩ := collectSegments_sane collected guarded sane.writable
  exact ⟨still.guarded, still.emptied,
    TCPOverIPv4OverEthernetAdapter.writable_tick still.writable passed⟩

theorem pass_returns (sane : socket.Sane) (msSinceLastTick : UInt64) :
    ∃ next, socket.pass msSinceLastTick = .ok next := by
  obtain ⟨tcp, ticked, -⟩ := TCPPeer.tick_returns sane.guarded msSinceLastTick.toNat
  refine Fault.bind_returns ⟨tcp, ticked⟩ fun tcp => ?_
  refine Fault.bind_returns (collectSegments_returns _) fun after => ?_
  exact ⟨_, Fault.bind_eq_ok.mpr ⟨_, after.datagramAdapter.tick_eq msSinceLastTick, rfl⟩⟩

theorem connect (sane : socket.Sane) (ran : socket.connect = .ok next) : next.Sane := by
  obtain ⟨tcp, pushes, ran⟩ := Fault.bind_eq_ok.mp ran
  obtain ⟨after, collected, ran⟩ := Fault.bind_eq_ok.mp ran
  split at ran
  · cases ran
    exact (pushed pushes collected sane).1
  · cases ran

end Sane

/-! ## Connecting -/

/-- Nothing is taken for acknowledged before anything is heard. -/
theorem collectLoop_unheard {fuel : Nat} {tcp next : TCPPeer} {segments more : List TCPSegment}
    (unheard : tcp.receiverMessage.ackno = none)
    (ran : collectLoop fuel tcp segments = .ok (next, more)) :
    next.sender.sequenceNumbersInFlight = tcp.sender.sequenceNumbersInFlight := by
  induction fuel generalizing tcp segments with
  | zero => cases ran
  | succ fuel ih =>
      obtain ⟨⟨middle, seg⟩, sends, ran⟩ := Fault.bind_eq_ok.mp ran
      have same : middle.sender.sequenceNumbersInFlight = tcp.sender.sequenceNumbersInFlight ∧
          middle.receiverMessage = tcp.receiverMessage := by
        obtain ⟨pushed, refilled, rfl, -⟩ := TCPPeer.maybeSend_ok sends
        rw [TCPPeer.refill, unheard] at refilled
        cases refilled
        refine ⟨?_, rfl⟩
        cases queued : tcp.sender.sendQueue with
        | nil => rw [TCPSender.maybeSend_of_nil queued]
        | cons message waiting =>
            obtain ⟨timer, -, popped⟩ := TCPSender.maybeSend_of_cons queued
            rw [popped]
            rfl
      cases seg with
      | none =>
          cases ran
          exact same.1
      | some seg =>
          have later := ih (by rw [same.2]; exact unheard) ran
          exact later.trans same.1

/-- A new socket connects: the SYN is in flight, as it is expected to be. -/
theorem connect_new {Adapter : Type} (cfg : TCPConfig) (random : Wrap32) (adapter : Adapter) :
    ∃ socket, (new cfg random adapter).connect = .ok socket := by
  obtain ⟨tcp, pushed⟩ := (TCPPeer.new cfg random).push_returns
  have flight : tcp.sender.sequenceNumbersInFlight = 1 ∧ tcp.receiverMessage.ackno = none := by
    obtain ⟨sender, outboundStream, ran, rfl⟩ := TCPPeer.push_ok pushed
    obtain ⟨first, known, flight⟩ :=
      TCPSender.push_new cfg.rtTimeout.toUInt64 (cfg.fixedIsn.getD random) cfg.sendCapacity
    rw [TCPPeer.new] at ran
    dsimp only at ran
    rw [known] at ran
    obtain ⟨rfl, -⟩ := Prod.mk.inj (Except.ok.inj ran)
    exact ⟨flight, rfl⟩
  obtain ⟨after, collected⟩ :=
    collectSegments_returns { new cfg random adapter with tcp }
  refine ⟨after, Fault.bind_eq_ok.mpr ⟨tcp, pushed, Fault.bind_eq_ok.mpr ⟨after, collected, ?_⟩⟩⟩
  obtain ⟨⟨last, segments⟩, looped, ⟨⟩⟩ := Fault.bind_eq_ok.mp collected
  exact if_pos ((collectLoop_unheard flight.2 looped).trans flight.1)

/-! ## The rules -/

theorem mem_eventLoop {rule : FDRule Polled TCPOverIPv4OverEthernetMinnowSocket}
    (inside : rule ∈ eventLoop.fdRules) :
    rule = receiveRule ∨ rule = pushRule ∨ rule = readRule ∨ rule = sendRule := by
  simpa [eventLoop] using inside

theorem eventLoop_distinct : EventLoop.Distinct
    (eventLoop : EventLoop Polled TCPOverIPv4OverEthernetMinnowSocket).fdRules := by
  simp [EventLoop.Distinct, eventLoop, receiveRule, pushRule, readRule, sendRule]

/-- No callback makes a socket insane. -/
theorem eventLoop_sane : EventLoop.Safe status eventLoop (fun _ => True) Sane fun _ _ => True where
  basic := fun _ inside => absurd inside List.not_mem_nil
  cancel := by
    intro rule inside _ socket next sane ran
    rcases mem_eventLoop inside with rfl | rfl | rfl | rfl
    · cases ran
      exact sane
    · cases ran
      exact sane.closeOutbound
    · cases ran
      exact sane
    · cases ran
      exact sane
  other := fun _ _ _ _ _ _ _ _ _ _ => True.intro
  due := fun _ _ _ _ _ _ => True.intro
  call := by
    intro rule inside _ socket next sane _ ran
    rcases mem_eventLoop inside with rfl | rfl | rfl | rfl
    · exact (sane.receiveSegment ran).1
    · exact (sane.pushBytes ran).1
    · exact (sane.readBytes ran).1
    · exact (sane.sendLoop _ rfl ran).1

/-- The kernel has done its part of what it was asked for: bytes or the end where something is to
be read, and room for a byte at least where something is to be written. -/
structure Obliged (socket : TCPOverIPv4OverEthernetMinnowSocket) : Prop where
  read : ∃ data, socket.answers.read = .bytes data ∧
    data.length ≤ socket.tcp.outboundStream.availableCapacity
  write : ∃ bytesWritten, socket.answers.write = .count bytesWritten ∧
    bytesWritten ≤ socket.tcp.inboundStream.bytesBuffered ∧
      (0 < socket.tcp.inboundStream.bytesBuffered → 0 < bytesWritten)
  shutdown : socket.answers.shutdownFails = false

/-- All but the first rule are still interested when they are called. -/
def Interested (rule : FDRule Polled TCPOverIPv4OverEthernetMinnowSocket)
    (socket : TCPOverIPv4OverEthernetMinnowSocket) : Prop :=
  rule.categoryId = 2 → rule.interest socket = true

theorem eventLoop_cancelling : EventLoop.Safe status eventLoop EventLoop.Cancelling
    (fun socket => socket.Sane ∧ socket.Obliged) Interested where
  basic := fun _ inside => absurd inside List.not_mem_nil
  cancel := by
    intro rule inside _ socket next holds ran
    obtain ⟨sane, obliged⟩ := holds
    rcases mem_eventLoop inside with rfl | rfl | rfl | rfl
    · cases ran
      exact ⟨sane, obliged⟩
    · cases ran
      exact ⟨sane.closeOutbound, obliged.read, obliged.write, obliged.shutdown⟩
    · cases ran
      exact ⟨sane, obliged⟩
    · cases ran
      exact ⟨sane, obliged⟩
  other := by
    intro rule inside cancelled there _ socket next _ ran interested
    rcases mem_eventLoop there with rfl | rfl | rfl | rfl
    · cases ran
      exact interested
    · cases ran
      rcases mem_eventLoop inside with rfl | rfl | rfl | rfl
      · exact fun other => absurd other (by decide)
      · exact fun other => absurd other (by decide)
      · exact interested
      · exact fun other => absurd other (by decide)
    · cases ran
      exact interested
    · cases ran
      exact interested
  due := fun _ _ _ _ _ interested _ => interested
  call := fun rule _ may => absurd rfl (may rule.categoryId)

theorem eventLoop_returns {loop : EventLoop Polled TCPOverIPv4OverEthernetMinnowSocket}
    (among : loop.fdRules ⊆ eventLoop.fdRules) :
    loop.Returns status (fun socket => socket.Sane ∧ socket.Obliged) Interested where
  cancel := by
    intro rule inside socket _
    rcases mem_eventLoop (among inside) with rfl | rfl | rfl | rfl
    · exact ⟨_, rfl⟩
    · exact ⟨_, rfl⟩
    · exact ⟨_, rfl⟩
    · exact ⟨_, rfl⟩
  call := by
    intro rule inside socket holds interested
    obtain ⟨sane, obliged⟩ := holds
    rcases mem_eventLoop (among inside) with rfl | rfl | rfl | rfl
    · obtain ⟨next, ran⟩ := sane.receiveSegment_returns
      refine ⟨next, EventLoop.callRule_of_moved ran (Or.inl ?_)⟩
      change socket.device.readCount ≠ next.device.readCount
      rw [(sane.receiveSegment ran).2]
      exact (FDWrapper.count_ne _).1
    · obtain ⟨data, answer, fits⟩ := obliged.read
      obtain ⟨next, ran⟩ := Sane.pushBytes_returns answer fits
      refine ⟨next, EventLoop.callRule_of_moved ran (Or.inl ?_)⟩
      change socket.threadData.readCount ≠ next.threadData.readCount
      rw [(sane.pushBytes ran).2 data answer]
      exact (FDWrapper.count_ne _).1
    · obtain ⟨bytesWritten, answer, fits, moves⟩ := obliged.write
      obtain ⟨next, ran⟩ := Sane.readBytes_returns answer fits moves obliged.shutdown
      exact ⟨next, EventLoop.callRule_of_moved ran (Or.inl ((sane.readBytes ran).2 (interested rfl)))⟩
    · obtain ⟨next, ran⟩ := Sane.sendLoop_returns socket.outgoingSegments socket
      refine ⟨next, EventLoop.callRule_of_moved ran (Or.inr ?_)⟩
      simp [sendRule, (sane.sendLoop _ rfl ran).2]

end TCPMinnowSocket

/-! ## Whole runs -/

structure Thread where
  loop : EventLoop TCPMinnowSocket.Polled TCPOverIPv4OverEthernetMinnowSocket
  socket : TCPOverIPv4OverEthernetMinnowSocket

namespace Thread

/-- The socket connects, or takes a turn, whatever the kernel answers. -/
inductive Step (thread : Thread) : Thread → Prop
  | connect {socket : TCPOverIPv4OverEthernetMinnowSocket}
      (ran : thread.socket.connect = .ok socket) : Step thread { thread with socket }
  | turn {answers : Answers} {poll : PollAnswer} {msSinceLastTick : UInt64}
      {loop : EventLoop TCPMinnowSocket.Polled TCPOverIPv4OverEthernetMinnowSocket}
      {socket : TCPOverIPv4OverEthernetMinnowSocket} {notes : List Note} {goesOn : Bool}
      (ran : TCPMinnowSocket.turn thread.loop thread.socket answers poll msSinceLastTick =
        .ok (loop, socket, notes, goesOn)) : Step thread ⟨loop, socket⟩

/-- A socket that is about to connect or to listen. -/
def Initial (thread : Thread) : Prop :=
  ∃ cfg random config listening ethernetAddress ipAddress nextHop, thread =
    ⟨TCPMinnowSocket.eventLoop, .new cfg random
      (.new config listening ethernetAddress ipAddress nextHop)⟩

def system : TransitionSystem Thread where
  Initial := Initial
  Step := Step

/-- The loop has no other rules, and the socket does not fail. -/
structure Sound (thread : Thread) : Prop where
  sane : thread.socket.Sane
  fdRules : thread.loop.fdRules.Sublist TCPMinnowSocket.eventLoop.fdRules
  nonFdRules : thread.loop.nonFdRules.Sublist TCPMinnowSocket.eventLoop.nonFdRules

variable {thread : Thread}

theorem sound_keeps : system.Keeps (fun _ => True) Sound where
  monotone := fun _ _ _ _ => True.intro
  initial := by
    rintro _ ⟨cfg, random, config, listening, ethernetAddress, ipAddress, nextHop, rfl⟩
    refine ⟨⟨TCPSender.new_guarded _ _, rfl, ?_⟩, List.Sublist.refl _, List.Sublist.refl _⟩
    exact fun _ _ inside => absurd inside List.not_mem_nil
  preserved := by
    intro thread next sound step _
    obtain ⟨sane, fdRules, nonFdRules⟩ := sound
    cases step with
    | connect ran => exact ⟨sane.connect ran, fdRules, nonFdRules⟩
    | @turn answers poll msSinceLastTick loop socket notes goesOn ran =>
        obtain ⟨⟨after, middle, ret, made⟩, waited, ran⟩ := Fault.bind_eq_ok.mp ran
        replace waited := EventLoop.waitNextEvent_ok waited
        have safe := TCPMinnowSocket.eventLoop_sane.mono fdRules.subset nonFdRules.subset
        have before : { thread.socket with answers, emitted := [] }.Sane :=
          ⟨sane.guarded, sane.emptied, sane.writable⟩
        have between := safe.waited (TCPMinnowSocket.eventLoop_distinct.sublist fdRules) before
          (fun _ _ => True.intro) waited
        obtain ⟨fewer, basics, -⟩ := waited.fewer
        dsimp only at ran between fewer basics
        split at ran
        · cases ran
          exact ⟨between, fewer.trans fdRules, basics.trans nonFdRules⟩
        split at ran
        · obtain ⟨last, passed, ⟨⟩⟩ := Fault.bind_eq_ok.mp ran
          exact ⟨between.pass passed, fewer.trans fdRules, basics.trans nonFdRules⟩
        · cases ran
          exact ⟨between, fewer.trans fdRules, basics.trans nonFdRules⟩

/-- In every state that a thread reaches, whatever packets came in and however much time has passed,
the next turn fails only if the kernel does: no callback throws, the timer finds a segment to send
again, segments are not collected for ever, and no rule is found to be a busy wait. -/
theorem turn_returns (thread : Thread) (reached : system.Reachable thread) (answers : Answers)
    (poll : PollAnswer) (msSinceLastTick : UInt64) (answering : EventLoop.Answering poll)
    (obliged : { thread.socket with answers }.Obliged) :
    ∃ outcome, TCPMinnowSocket.turn thread.loop thread.socket answers poll msSinceLastTick =
      .ok outcome := by
  obtain ⟨sane, fdRules, nonFdRules⟩ := sound_keeps.reachable reached True.intro
  have before : { thread.socket with answers, emitted := [] }.Sane :=
    ⟨sane.guarded, sane.emptied, sane.writable⟩
  have safe := TCPMinnowSocket.eventLoop_cancelling.mono fdRules.subset nonFdRules.subset
  have distinct := TCPMinnowSocket.eventLoop_distinct.sublist fdRules
  obtain ⟨outcome, ran⟩ := (TCPMinnowSocket.eventLoop_returns fdRules.subset).waitNextEvent safe
    answering distinct (List.sublist_nil.mp nonFdRules)
    ⟨before, obliged.read, obliged.write, obliged.shutdown⟩
  have keeps := TCPMinnowSocket.eventLoop_sane.mono fdRules.subset nonFdRules.subset
  have between := keeps.waited distinct before (fun _ _ => True.intro)
    (EventLoop.waitNextEvent_ok ran)
  obtain ⟨last, passed⟩ := between.pass_returns msSinceLastTick
  rw [TCPMinnowSocket.turn, ran]
  simp only [bind, Except.bind, passed]
  split
  · exact ⟨_, rfl⟩
  · exact Fault.ite_returns ⟨_, rfl⟩ ⟨_, rfl⟩

/-- The thread of a socket that is about to connect. -/
def connecting : Thread where
  loop := TCPMinnowSocket.eventLoop
  socket := .new { sendCapacity := 4, recvCapacity := 4 } ⟨0⟩
    (.new ⟨⟨1, 1⟩, ⟨2, 2⟩⟩ false (List.Vector.replicate 6 2) 1 2)

theorem turn_returns_connecting :
    ∃ outcome, TCPMinnowSocket.turn connecting.loop connecting.socket
      { read := .bytes [97], write := .count 0 }
      { revents := fun _ => { readable := true, writable := true } } 10 = .ok outcome := by
  have initial : Initial connecting := ⟨_, _, _, _, _, _, _, rfl⟩
  exact turn_returns connecting (TransitionSystem.Reachable.start initial) _ _ _
    ⟨rfl, fun _ => ⟨(), rfl⟩⟩ ⟨⟨[97], rfl, by decide⟩, ⟨0, rfl, by decide, by decide⟩, rfl⟩

end Thread

end Minnow.Socket
