import Minnow.Socket.CollectSegments
import Minnow.Stack.EndToEnd

/-!
# What the thread of a socket does on the internet

Every callback of the event loop is a number of steps of the host: of its peer, of its adapter, and
of the segments that wait between them.
-/

namespace Minnow.Stack

open Foundation Link Routing Socket Transport Wire

open TCPMinnowSocket (collectLoop)

/-- The peer and the adapter of a socket. -/
def hostOf (socket : TCPOverIPv4OverEthernetMinnowSocket) : Host where
  peer := socket.tcp
  outgoingSegments := socket.outgoingSegments
  adapter := socket.datagramAdapter

section HostOf

variable (socket : TCPOverIPv4OverEthernetMinnowSocket)

@[simp] theorem hostOf_peer : (hostOf socket).peer = socket.tcp := rfl

@[simp] theorem hostOf_outgoingSegments :
    (hostOf socket).outgoingSegments = socket.outgoingSegments := rfl

@[simp] theorem hostOf_adapter : (hostOf socket).adapter = socket.datagramAdapter := rfl

end HostOf

namespace Internet

variable {Node : Type}

/-- The internet in which a side has this socket, which has emitted more packets. -/
def holding (internet : Internet Node) (side : Side) (socket : TCPOverIPv4OverEthernetMinnowSocket) :
    Internet Node where
  host := Function.update internet.host side (hostOf socket)
  router := internet.router
  wire := internet.wire ++ socket.emitted
  written := Function.update internet.written side socket.fromOwner
  taken := Function.update internet.taken side socket.toOwner

section Access

variable (internet : Internet Node) (side : Side) (socket : TCPOverIPv4OverEthernetMinnowSocket)

@[simp] theorem holding_host : (internet.holding side socket).host side = hostOf socket :=
  Function.update_self _ _ _

@[simp] theorem holding_written : (internet.holding side socket).written side = socket.fromOwner :=
  Function.update_self _ _ _

@[simp] theorem holding_taken : (internet.holding side socket).taken side = socket.toOwner :=
  Function.update_self _ _ _

end Access

variable [DecidableEq Node] {internet : Internet Node} {side : Side}
  {socket : TCPOverIPv4OverEthernetMinnowSocket}

/-- The owner calls the peer. -/
theorem step_call {op : TCPPeer.Op} {tcp : TCPPeer} (own : op.isOwn = true)
    (blocked : Blocked (hostOf socket) op) (allowed : socket.tcp.Allows op)
    (ran : socket.tcp.step op = .ok tcp) :
    (internet.holding side socket).Step (internet.holding side { socket with
      tcp
      fromOwner := socket.fromOwner ++ socket.tcp.wrote op
      toOwner := socket.toOwner ++ socket.tcp.took op }) := by
  have step := @Step.call _ _ (internet.holding side socket) side op tcp own
    (by simpa using blocked) (by simpa using allowed) (by simpa using ran)
  simpa [Internet.holding, called, setHost, hostOf] using step

/-- A call that neither writes nor reads. -/
theorem step_silent {op : TCPPeer.Op} {tcp : TCPPeer} (own : op.isOwn = true)
    (blocked : Blocked (hostOf socket) op) (allowed : socket.tcp.Allows op)
    (ran : socket.tcp.step op = .ok tcp) (wrote : socket.tcp.wrote op = [])
    (took : socket.tcp.took op = []) :
    (internet.holding side socket).Step (internet.holding side { socket with tcp }) := by
  have step := @step_call _ _ internet side socket op tcp own blocked allowed ran
  rwa [wrote, took, List.append_nil, List.append_nil] at step

theorem steps_collectLoop {fuel : Nat} {tcp : TCPPeer} {outgoingSegments : List TCPSegment}
    (ran : collectLoop fuel socket.tcp socket.outgoingSegments = .ok (tcp, outgoingSegments)) :
    Relation.ReflTransGen Step (internet.holding side socket)
      (internet.holding side { socket with tcp, outgoingSegments }) := by
  induction fuel generalizing socket with
  | zero => cases ran
  | succ fuel ih =>
      obtain ⟨⟨next, seg⟩, sends, ran⟩ := Fault.bind_eq_ok.mp ran
      have step := @Step.collect _ _ (internet.holding side socket) side next seg (by simpa using sends)
      cases seg with
      | none =>
          cases ran
          refine .single ?_
          simpa [Internet.holding, collected, setHost, hostOf] using step
      | some seg =>
          have later := @ih { socket with
            tcp := next
            outgoingSegments := socket.outgoingSegments ++ [seg] } ran
          refine .head ?_ later
          simpa [Internet.holding, collected, setHost, hostOf] using step

/-- The adapter reads a packet, and the peer receives what it returns. -/
theorem step_read {adapter : TCPOverIPv4OverEthernetAdapter} {seg : Option TCPSegment}
    {packets : List Packet} {packet : Packet} (inside : packet ∈ internet.wire)
    (ran : socket.datagramAdapter.read packet = .ok (adapter, seg, packets)) :
    (internet.holding side socket).Step (internet.holding side
      { socket.afterAdapter adapter packets with
        tcp := seg.toList.foldl TCPPeer.receive socket.tcp }) := by
  have step := @Step.read _ _ (internet.holding side socket) side packet adapter seg packets
    (List.mem_append_left _ inside) (by simpa using ran)
  simpa [Internet.holding, Internet.read, setHost, emit, hostOf, TCPMinnowSocket.afterAdapter] using step

theorem step_write {adapter : TCPOverIPv4OverEthernetAdapter} {seg : TCPSegment}
    {rest : List TCPSegment} {packets : List Packet} (first : socket.outgoingSegments = seg :: rest)
    (ran : socket.datagramAdapter.write seg = .ok (adapter, packets)) :
    (internet.holding side socket).Step (internet.holding side
      ({ socket with outgoingSegments := rest }.afterAdapter adapter packets)) := by
  have step := @Step.write _ _ (internet.holding side socket) side seg rest adapter packets
    (by simpa using first) (by simpa using ran)
  simpa [Internet.holding, wrote, setHost, emit, hostOf, TCPMinnowSocket.afterAdapter] using step

theorem step_tick {adapter : TCPOverIPv4OverEthernetAdapter} {packets : List Packet}
    {msSinceLastTick : UInt64}
    (ran : socket.datagramAdapter.tick msSinceLastTick = .ok (adapter, packets)) :
    (internet.holding side socket).Step (internet.holding side (socket.afterAdapter adapter packets)) := by
  have step := @Step.tick _ _ (internet.holding side socket) side msSinceLastTick adapter packets
    (by simpa using ran)
  simpa [Internet.holding, Internet.read, setHost, emit, hostOf, TCPMinnowSocket.afterAdapter] using step

end Internet

/-! ## The stream of the owner -/

theorem push_isClosed {tcp next : TCPPeer} (ran : tcp.push = .ok next) :
    next.outboundStream.isClosed = tcp.outboundStream.isClosed := by
  obtain ⟨sender, outboundStream, pushed, rfl⟩ := TCPPeer.push_ok ran
  obtain ⟨segments, last, rest, alsoPushed, emits⟩ := tcp.sender.push_spec tcp.outboundStream
  cases alsoPushed.symm.trans pushed
  exact emits.isClosed

theorem maybeSend_isClosed {tcp next : TCPPeer} {seg : Option TCPSegment}
    (ran : tcp.maybeSend = .ok (next, seg)) :
    next.outboundStream.isClosed = tcp.outboundStream.isClosed := by
  obtain ⟨pushed, refilled, rfl, -⟩ := TCPPeer.maybeSend_ok ran
  rw [TCPPeer.refill] at refilled
  split at refilled
  · have same := push_isClosed refilled
    exact same
  · cases refilled
    rfl

theorem collectLoop_isClosed {fuel : Nat} {tcp next : TCPPeer} {segments more : List TCPSegment}
    (ran : collectLoop fuel tcp segments = .ok (next, more)) :
    next.outboundStream.isClosed = tcp.outboundStream.isClosed := by
  induction fuel generalizing tcp segments with
  | zero => cases ran
  | succ fuel ih =>
      obtain ⟨⟨middle, seg⟩, sends, ran⟩ := Fault.bind_eq_ok.mp ran
      cases seg with
      | none =>
          cases ran
          exact maybeSend_isClosed sends
      | some seg => exact (ih ran).trans (maybeSend_isClosed sends)

theorem receive_outboundStream (tcp : TCPPeer) (seg : TCPSegment) :
    (tcp.receive seg).outboundStream = tcp.outboundStream := by
  rw [TCPPeer.receive]
  split
  · rfl
  · rfl

/-- An adapter that reads listens no more than before. -/
theorem read_listening {adapter next : TCPOverIPv4OverEthernetAdapter} {packet : Packet}
    {seg : Option TCPSegment} {packets : List Packet}
    (ran : adapter.read packet = .ok (next, seg, packets)) (listens : next.listening = true) :
    adapter.listening = true := by
  cases TCPOverIPv4OverEthernetAdapter.read_ok ran with
  | rejected unread => exact listens
  | kept parsed handled => exact listens
  | passedUp parsed handled unwraps =>
      by_contra connected
      rw [Bool.not_eq_true] at connected
      have same := (TCPOverIPv4Adapter.unwrap_of_connected connected unwraps).1
      dsimp only at same
      rw [same, connected] at listens
      cases listens

/-! ## The parts of a turn -/

/-- A part of a turn takes the host some steps.  Only a stream that is over is shut down. -/
structure Progress {Node : Type} [DecidableEq Node] (internet : Internet Node) (side : Side)
    (start socket : TCPOverIPv4OverEthernetMinnowSocket) : Prop where
  steps : Relation.ReflTransGen Internet.Step internet (internet.holding side socket)
  answers : socket.answers = start.answers
  listens : socket.datagramAdapter.listening = true → start.datagramAdapter.listening = true
  flagged : socket.tcp.outboundStream.isClosed = true → socket.outboundShutdown = true
  ended : socket.inboundShutdown = true → start.inboundShutdown = true ∨
    ∃ middle : Internet Node, Relation.ReflTransGen Internet.Step internet middle ∧
      Relation.ReflTransGen Internet.Step middle (internet.holding side socket) ∧
      ((middle.host side).peer.inboundStream.isFinished ||
        (middle.host side).peer.inboundStream.hasError) = true

namespace Progress

variable {Node : Type} [DecidableEq Node] {internet : Internet Node} {side : Side}
  {start socket next : TCPOverIPv4OverEthernetMinnowSocket}

/-- More steps that shut down nothing. -/
theorem more (progress : Progress internet side start socket)
    (steps : Relation.ReflTransGen Internet.Step (internet.holding side socket)
      (internet.holding side next))
    (answers : next.answers = socket.answers)
    (listens : next.datagramAdapter.listening = true → socket.datagramAdapter.listening = true)
    (flagged : next.tcp.outboundStream.isClosed = true → next.outboundShutdown = true)
    (inbound : next.inboundShutdown = socket.inboundShutdown) :
    Progress internet side start next where
  steps := progress.steps.trans steps
  answers := answers.trans progress.answers
  listens := fun still => progress.listens (listens still)
  flagged := flagged
  ended := by
    intro shut
    rw [inbound] at shut
    refine (progress.ended shut).imp_right ?_
    rintro ⟨middle, before, after, ended⟩
    exact ⟨middle, before, after.trans steps, ended⟩

theorem collect (progress : Progress internet side start socket)
    (ran : socket.collectSegments = .ok next) : Progress internet side start next := by
  obtain ⟨⟨tcp, outgoingSegments⟩, looped, ⟨⟩⟩ := Fault.bind_eq_ok.mp ran
  refine progress.more (Internet.steps_collectLoop looped) rfl id (fun closed => ?_) rfl
  dsimp only at closed
  rw [collectLoop_isClosed looped] at closed
  exact progress.flagged closed

/-- A silent call of the peer. -/
theorem silent (progress : Progress internet side start socket) {op : TCPPeer.Op} {tcp : TCPPeer}
    (own : op.isOwn = true) (blocked : Internet.Blocked (hostOf socket) op)
    (allowed : socket.tcp.Allows op) (ran : socket.tcp.step op = .ok tcp)
    (wrote : socket.tcp.wrote op = []) (took : socket.tcp.took op = [])
    (isClosed : tcp.outboundStream.isClosed = socket.tcp.outboundStream.isClosed) :
    Progress internet side start { socket with tcp } := by
  refine progress.more (.single (Internet.step_silent own blocked allowed ran wrote took)) rfl id
    (fun closed => ?_) rfl
  rw [isClosed] at closed
  exact progress.flagged closed

/-- The owner of a connected socket is not blocked. -/
theorem unblocked (connected : socket.datagramAdapter.listening = false) (op : TCPPeer.Op) :
    Internet.Blocked (hostOf socket) op := by
  intro listens
  rw [hostOf_adapter, connected] at listens
  cases listens

theorem push (progress : Progress internet side start socket)
    (connected : socket.datagramAdapter.listening = false) {tcp : TCPPeer}
    (ran : socket.tcp.push = .ok tcp) : Progress internet side start { socket with tcp } :=
  @silent _ _ _ _ _ _ progress .push tcp rfl (unblocked connected _) True.intro ran rfl rfl
    (push_isClosed ran)

/-! ### The rules -/

theorem receiveSegment (progress : Progress internet side start socket)
    (inside : start.answers.packet ∈ internet.wire) (ran : socket.receiveSegment = .ok next) :
    Progress internet side start next := by
  rw [← progress.answers] at inside
  obtain ⟨⟨adapter, seg, packets⟩, read, ran⟩ := Fault.bind_eq_ok.mp ran
  obtain ⟨after, heard, ran⟩ := Fault.bind_eq_ok.mp ran
  have reads : socket.datagramAdapter.read socket.answers.packet = .ok (adapter, seg, packets) := read
  have step := @Internet.step_read _ _ internet side
    { socket with device := socket.device.registerRead } adapter seg packets _ inside reads
  have done : Progress internet side start after := by
    cases seg with
    | none =>
        cases heard
        exact progress.more (.single step) rfl (read_listening reads) progress.flagged rfl
    | some seg =>
        refine collect (progress.more (.single step) rfl (read_listening reads) ?_ rfl) heard
        dsimp only [Option.toList_some, List.foldl_cons, List.foldl_nil]
        rw [receive_outboundStream]
        exact progress.flagged
  split at ran
  · cases ran
    exact done.more .refl rfl id done.flagged rfl
  · cases ran
    exact done

/-- The owner of a connected socket writes no more. -/
theorem closeOutbound (progress : Progress internet side start socket)
    (connected : socket.datagramAdapter.listening = false) :
    Progress internet side start socket.closeOutbound := by
  have step := @Internet.step_silent _ _ internet side socket .close _ rfl
    (unblocked connected .close) True.intro rfl rfl rfl
  exact progress.more (.single step) rfl id (fun _ => rfl) rfl

theorem pushBytes (progress : Progress internet side start socket)
    (connected : socket.datagramAdapter.listening = false)
    (prompt : start.answers.read ≠ .again) (unshut : socket.outboundShutdown = false)
    (room : 0 < socket.tcp.outboundStream.availableCapacity) (ran : socket.pushBytes = .ok next) :
    Progress internet side start next := by
  have still : socket.tcp.outboundStream.isClosed = false := by
    by_contra closed
    rw [Bool.not_eq_false] at closed
    rw [progress.flagged closed] at unshut
    cases unshut
  rw [← progress.answers] at prompt
  obtain ⟨⟨threadData, data⟩, read, ran⟩ := Fault.bind_eq_ok.mp ran
  cases answer : socket.answers.read with
  | failed =>
      rw [answer] at read
      cases read
  | again => exact absurd answer prompt
  | bytes found =>
      rw [answer] at read
      obtain ⟨rfl, -, fits⟩ := FDWrapper.read_bytes read
      have whole : socket.tcp.wrote (.write data) = data := by
        rw [FDWrapper.readBuffer_of_ne_nil (by simpa using Nat.ne_of_gt room), List.length_replicate]
          at fits
        exact List.take_of_length_le (Nat.le_min.mpr ⟨Nat.le_refl _, fits⟩)
      have step := @Internet.step_call _ _ internet side { socket with threadData } (.write data) _
        rfl (unblocked connected _) still rfl
      rw [whole, show socket.tcp.took (.write data) = [] from rfl, List.append_nil] at step
      have wrote := progress.more (.single step) rfl id (fun closed => progress.flagged closed) rfl
      rw [answer] at ran
      obtain ⟨tcp, pushed, ran⟩ := Fault.bind_eq_ok.mp ran
      refine collect ?_ ran
      split at pushed
      · rename_i ended
        rw [if_pos ended]
        exact (wrote.closeOutbound connected).push connected pushed
      · rename_i goesOn
        rw [if_neg goesOn]
        exact wrote.push connected pushed

/-- What the owner reads was buffered. -/
theorem writeInbound (progress : Progress internet side start socket)
    (ran : socket.writeInbound = .ok next) : Progress internet side start next := by
  rw [TCPMinnowSocket.writeInbound] at ran
  dsimp only at ran
  split at ran
  · cases ran
    exact progress
  · obtain ⟨⟨threadData, bytesWritten⟩, written, ⟨⟩⟩ := Fault.bind_eq_ok.mp ran
    have step := @Internet.step_call _ _ internet side { socket with threadData } (.read bytesWritten)
      _ rfl (fun _ => Or.inr ⟨bytesWritten, rfl⟩) True.intro rfl
    rw [show socket.tcp.wrote (.read bytesWritten) = [] from rfl, List.append_nil] at step
    exact progress.more (.single step) rfl id progress.flagged rfl

theorem readBytes (progress : Progress internet side start socket)
    (ran : socket.readBytes = .ok next) : Progress internet side start next := by
  obtain ⟨after, written, ran⟩ := Fault.bind_eq_ok.mp ran
  have done := progress.writeInbound written
  split at ran
  · rename_i ended
    split at ran
    · cases ran
    · cases ran
      refine ⟨done.steps, done.answers, done.listens, done.flagged, fun _ => Or.inr ?_⟩
      refine ⟨internet.holding side after, done.steps, .refl, ?_⟩
      rwa [Internet.holding_host]
  · cases ran
    exact done

theorem sendLoop (segments : List TCPSegment) (progress : Progress internet side start socket)
    (waiting : socket.outgoingSegments = segments)
    (ran : TCPMinnowSocket.sendLoop segments socket = .ok next) :
    Progress internet side start next := by
  induction segments generalizing socket with
  | nil =>
      cases ran
      exact progress
  | cons seg rest ih =>
      obtain ⟨⟨adapter, packets⟩, written, ran⟩ := Fault.bind_eq_ok.mp ran
      have writes : socket.datagramAdapter.write seg = .ok (adapter, packets) := written
      have listens : adapter.listening = true → socket.datagramAdapter.listening = true := by
        obtain ⟨sealed, ipDgram, sent, -, -, rfl, -⟩ := TCPOverIPv4OverEthernetAdapter.write_ok writes
        exact id
      have after := progress.more (.single (Internet.step_write waiting writes)) rfl listens
        progress.flagged rfl
      exact ih after rfl ran

theorem pass (progress : Progress internet side start socket) {msSinceLastTick : UInt64}
    (ran : socket.pass msSinceLastTick = .ok next) : Progress internet side start next := by
  obtain ⟨tcp, ticked, ran⟩ := Fault.bind_eq_ok.mp ran
  obtain ⟨after, collected, ran⟩ := Fault.bind_eq_ok.mp ran
  obtain ⟨⟨adapter, packets⟩, passed, ⟨⟩⟩ := Fault.bind_eq_ok.mp ran
  have passes : after.datagramAdapter.tick msSinceLastTick = .ok (adapter, packets) := passed
  have same : tcp.outboundStream.isClosed = socket.tcp.outboundStream.isClosed := by
    obtain ⟨sender, -, ⟨⟩⟩ := Fault.bind_eq_ok.mp ticked
    rfl
  have told := @silent _ _ _ _ _ _ progress (.tick msSinceLastTick.toNat) tcp rfl
    (fun _ => Or.inl ⟨msSinceLastTick.toNat, rfl⟩) True.intro ticked rfl rfl same
  have done := told.collect collected
  have listens : adapter.listening = true → after.datagramAdapter.listening = true := by
    cases (after.datagramAdapter.tick_eq msSinceLastTick).symm.trans passes
    exact id
  exact done.more (.single (Internet.step_tick passes)) rfl listens done.flagged rfl

end Progress

end Minnow.Stack
