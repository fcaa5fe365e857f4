import Minnow.Socket.Threads
import Minnow.Stack.SocketSteps

/-!
# Applications that talk to each other

Two sockets with their event loops, and routers between them.  The kernels answer the calls of the
loops as they like, and the applications write, read and close whenever they like, as far as they
are not blocked.
-/

namespace Minnow.Transport

open Foundation Minnow.Stream Minnow.Wire

/-- What is closed stays closed, whatever arrives. -/
theorem TCPPeer.receive_isClosed {peer : TCPPeer} (closed : peer.inboundStream.isClosed = true)
    (seg : TCPSegment) : (peer.receive seg).inboundStream.isClosed = true := by
  rw [receive]
  split
  · exact closed
  · dsimp only [TCPReceiver.receive]
    split
    · exact closed
    · exact Reassembler.insert_isClosed _ _ _ _ closed

end Minnow.Transport

namespace Minnow.Stack

open Foundation Link Routing Socket Transport Wire

namespace Internet

variable {Node : Type} [DecidableEq Node] {cfg : Side → TCPConfig} {random : Side → Wrap32}
  {address : Side → Address} {internet next : Internet Node} {side : Side}

/-! ## Streams that are over -/

/-- A side has read all that the other one has written, and no more will come. -/
def Complete (internet : Internet Node) (side : Side) : Prop :=
  (internet.host side).peer.inboundStream.isClosed = true ∧
    internet.taken side = internet.written side.other

theorem isClosed_step (step : internet.Step next)
    (closed : (internet.host side).peer.inboundStream.isClosed = true) :
    (next.host side).peer.inboundStream.isClosed = true := by
  cases step with
  | @call caller op peer own blocked allowed ran =>
      rcases caller.eq_or_eq_other side with rfl | rfl
      · rw [← (TCPPeer.step_inbound_state ran (TCPPeer.Op.ne_receive_of_own own)).2] at closed
        simpa [called] using closed
      · simpa [called] using closed
  | @collect sender peer seg ran =>
      rcases sender.eq_or_eq_other side with rfl | rfl
      · obtain ⟨pushed, refilled, rfl, -⟩ := TCPPeer.maybeSend_ok ran
        rw [← (TCPPeer.refill_frame refilled).2.2.1] at closed
        simpa [collected] using closed
      · simpa [collected] using closed
  | @write sender seg rest adapter packets first ran =>
      rcases sender.eq_or_eq_other side with rfl | rfl
      · simpa [wrote] using closed
      · simpa [wrote] using closed
  | @read reader packet adapter seg packets inside ran =>
      rcases reader.eq_or_eq_other side with rfl | rfl
      · cases seg with
        | none => simpa [Internet.read] using closed
        | some seg => simpa [Internet.read] using TCPPeer.receive_isClosed closed seg
      · simpa [Internet.read] using closed
  | @tick waiter msSinceLastTick adapter packets ran =>
      rcases waiter.eq_or_eq_other side with rfl | rfl
      · simpa [Internet.read] using closed
      · simpa [Internet.read] using closed
  | relay relays =>
      cases relays with
      | _ => exact closed

/-- Nothing is written to a stream that is closed. -/
theorem written_of_closed (step : internet.Step next)
    (closed : (internet.host side).peer.outboundStream.isClosed = true) :
    next.written side = internet.written side := by
  cases step with
  | @call caller op peer own blocked allowed ran =>
      rcases caller.eq_or_eq_other side with rfl | rfl
      · cases op with
        | write data =>
            rw [TCPPeer.Allows, closed] at allowed
            cases allowed
        | _ => simp [called, TCPPeer.wrote]
      · simp [called, Function.update_of_ne caller.other_ne]
  | relay relays =>
      cases relays with
      | _ => rfl
  | _ => rfl

theorem Complete.step (complete : internet.Complete side) (distinct : address .left ≠ address .right)
    (reached : (system cfg random address).Reachable internet) (step : internet.Step next)
    (short : next.Short) : next.Complete side := by
  have before : internet.Short :=
    (simulates_exchange cfg random address distinct).monotone _ _ step short
  obtain ⟨closed, whole⟩ := complete
  have closedNext := isClosed_step step closed
  have ended := ((delivers distinct reached before side).2.1 closed).2
  have written := written_of_closed step ended
  have received := ((delivers distinct (reached.step step) short side).2.1 closedNext).1
  refine ⟨closedNext, ?_⟩
  have same : next.taken side ++ (next.host side).peer.inboundStream.buffer = internet.taken side := by
    rw [whole, ← written]
    exact received
  have grown := (prefix_step step side).2.length_le
  have lengths := congrArg List.length same
  rw [List.length_append] at lengths
  have nothing : (next.host side).peer.inboundStream.buffer = [] := by
    rw [← List.length_eq_zero_iff]
    omega
  rw [nothing, List.append_nil] at same
  rw [same, whole, written]

theorem Complete.steps (complete : internet.Complete side)
    (distinct : address .left ≠ address .right)
    (reached : (system cfg random address).Reachable internet)
    (steps : Relation.ReflTransGen Step internet next) (short : next.Short) :
    next.Complete side := by
  induction steps with
  | refl => exact complete
  | tail before step ih =>
      have monotone := (simulates_exchange cfg random address distinct).monotone _ _ step short
      exact (ih monotone).step distinct (reached.steps before) step short

/-- A stream that is over without an error is complete once it is read. -/
theorem complete_of_over (distinct : address .left ≠ address .right)
    (reached : (system cfg random address).Reachable internet) (short : internet.Short)
    (ended : ((internet.host side).peer.inboundStream.isFinished ||
      (internet.host side).peer.inboundStream.hasError) = true) : internet.Complete side := by
  obtain ⟨-, whole, -, fine⟩ := delivers distinct reached short side
  rw [fine, Bool.or_false, Stream.ByteStream.isFinished, Bool.and_eq_true, List.isEmpty_iff] at ended
  obtain ⟨closed, empty⟩ := ended
  have received := (whole closed).1
  rw [Internet.received, empty, List.append_nil] at received
  exact ⟨closed, received⟩

end Internet

/-- A connected socket stays connected. -/
theorem Progress.connected {Node : Type} [DecidableEq Node] {internet : Internet Node} {side : Side}
    {start socket : TCPOverIPv4OverEthernetMinnowSocket} (progress : Progress internet side start socket)
    (connected : start.datagramAdapter.listening = false) :
    socket.datagramAdapter.listening = false := by
  by_contra listens
  rw [Bool.not_eq_false] at listens
  have before := progress.listens listens
  rw [connected] at before
  cases before

/-! ## The network -/

/-- Two sockets with their loops, the routers, and every packet that was written. -/
structure Network (Node : Type) where
  socket : Side → TCPOverIPv4OverEthernetMinnowSocket
  loop : Side → EventLoop TCPMinnowSocket.Polled TCPOverIPv4OverEthernetMinnowSocket
  router : Node → Router
  wire : List Packet

namespace Network

variable {Node : Type}

/-- The hosts and the routers, and what the applications have written and read. -/
def internet (network : Network Node) : Internet Node where
  host := fun side => hostOf (network.socket side)
  router := network.router
  wire := network.wire
  written := fun side => (network.socket side).fromOwner
  taken := fun side => (network.socket side).toOwner

/-- The network after a part of a thread that left the socket and the loop like this. -/
def after (network : Network Node) (side : Side)
    (loop : EventLoop TCPMinnowSocket.Polled TCPOverIPv4OverEthernetMinnowSocket)
    (socket : TCPOverIPv4OverEthernetMinnowSocket) : Network Node :=
  { network with
    socket := Function.update network.socket side socket
    loop := Function.update network.loop side loop
    wire := network.wire ++ socket.emitted }

section Access

variable (network : Network Node) (side : Side)
  (loop : EventLoop TCPMinnowSocket.Polled TCPOverIPv4OverEthernetMinnowSocket)
  (socket : TCPOverIPv4OverEthernetMinnowSocket)

@[simp] theorem after_socket : (network.after side loop socket).socket side = socket :=
  Function.update_self _ _ _

@[simp] theorem after_socket_other :
    (network.after side loop socket).socket side.other = network.socket side.other :=
  Function.update_of_ne side.other_ne _ _

@[simp] theorem after_loop : (network.after side loop socket).loop side = loop :=
  Function.update_self _ _ _

@[simp] theorem after_loop_other :
    (network.after side loop socket).loop side.other = network.loop side.other :=
  Function.update_of_ne side.other_ne _ _

end Access

variable [DecidableEq Node]

/-- A socket connects, the thread of a socket takes a turn, or a router takes a step.  A packet is
read that was written before.  What polls readable has something to read.  The application of a
listening socket is blocked, so that it neither writes nor closes. -/
inductive Step (network : Network Node) : Network Node → Prop
  | connect {side : Side} {socket : TCPOverIPv4OverEthernetMinnowSocket}
      (connects : (network.socket side).datagramAdapter.listening = false)
      (ran : { network.socket side with emitted := [] }.connect = .ok socket) :
      Step network (network.after side (network.loop side) socket)
  | turn {side : Side} {answers : Answers} {poll : PollAnswer} {msSinceLastTick : UInt64}
      {loop : EventLoop TCPMinnowSocket.Polled TCPOverIPv4OverEthernetMinnowSocket}
      {socket : TCPOverIPv4OverEthernetMinnowSocket} {notes : List Note} {goesOn : Bool}
      (inside : .called 0 ∈ notes → answers.packet ∈ network.wire)
      (prompt : .called 1 ∈ notes → answers.read ≠ .again)
      (blocked : (network.socket side).datagramAdapter.listening = true →
        ∀ note ∈ notes, note.categoryId ≠ 1)
      (ran : TCPMinnowSocket.turn (network.loop side) (network.socket side) answers poll
        msSinceLastTick = .ok (loop, socket, notes, goesOn)) :
      Step network (network.after side loop socket)
  | relay {router : Node → Router} {wire : List Packet}
      (relays : network.internet.Relays { network.internet with router, wire }) :
      Step network { network with router, wire }

/-- Two sockets that have done nothing yet, each with a loop of its own, and routers that have not
seen anything. -/
structure Initial (cfg : Side → TCPConfig) (random : Side → Wrap32) (address : Side → Address)
    (network : Network Node) : Prop where
  socket : ∀ side, ∃ adapter, network.socket side = .new (cfg side) (random side) adapter
  loop : ∀ side, network.loop side = TCPMinnowSocket.eventLoop
  internet : Internet.Initial cfg random address network.internet

def system (cfg : Side → TCPConfig) (random : Side → Wrap32) (address : Side → Address) :
    TransitionSystem (Network Node) where
  Initial := Initial cfg random address
  Step := Step

variable {network next : Network Node} {side : Side}

omit [DecidableEq Node] in
@[simp] theorem internet_after
    (loop : EventLoop TCPMinnowSocket.Polled TCPOverIPv4OverEthernetMinnowSocket)
    (socket : TCPOverIPv4OverEthernetMinnowSocket) :
    (network.after side loop socket).internet = network.internet.holding side socket := by
  simp only [internet, after, Internet.holding, Internet.mk.injEq, true_and]
  refine ⟨?_, ?_, ?_⟩
  · exact Function.comp_update hostOf _ _ _
  · exact Function.comp_update TCPMinnowSocket.fromOwner _ _ _
  · exact Function.comp_update TCPMinnowSocket.toOwner _ _ _

/-! ## A turn of the thread -/

/-- What is known of the callbacks of a turn. -/
def May (internet : Internet Node) (start : TCPOverIPv4OverEthernetMinnowSocket) (note : Note) : Prop :=
  (note = .called 0 → start.answers.packet ∈ internet.wire) ∧
    (note = .called 1 → start.answers.read ≠ .again) ∧
      (note.categoryId = 1 → start.datagramAdapter.listening = false)

/-- The owner's bytes are read only while there is room for them. -/
def Due (rule : FDRule TCPMinnowSocket.Polled TCPOverIPv4OverEthernetMinnowSocket)
    (socket : TCPOverIPv4OverEthernetMinnowSocket) : Prop :=
  rule.categoryId = 1 →
    socket.outboundShutdown = false ∧ 0 < socket.tcp.outboundStream.availableCapacity

/-- No callback does more than what the host may do. -/
theorem eventLoop_safe (internet : Internet Node) (side : Side)
    (start : TCPOverIPv4OverEthernetMinnowSocket) :
    EventLoop.Safe TCPMinnowSocket.status TCPMinnowSocket.eventLoop (May internet start)
      (Progress internet side start) Due where
  basic := fun _ inside => absurd inside List.not_mem_nil
  cancel := by
    intro rule inside may socket next progress ran
    rcases TCPMinnowSocket.mem_eventLoop inside with rfl | rfl | rfl | rfl
    · cases ran
      exact progress
    · cases ran
      exact progress.closeOutbound (progress.connected (may.2.2 rfl))
    · cases ran
      exact progress
    · cases ran
      exact progress
  other := by
    intro rule _ cancelled inside different socket next _ ran due
    rcases TCPMinnowSocket.mem_eventLoop inside with rfl | rfl | rfl | rfl
    · cases ran
      exact due
    · exact fun same => absurd same different
    · cases ran
      exact due
    · cases ran
      exact due
  due := by
    intro rule inside socket _ _ interested
    rcases TCPMinnowSocket.mem_eventLoop inside with rfl | rfl | rfl | rfl
    · exact fun other => absurd other (by decide)
    · intro _
      simp only [TCPMinnowSocket.pushRule, Bool.and_eq_true, decide_eq_true_eq, Bool.not_eq_true']
        at interested
      exact ⟨interested.1.2, interested.2⟩
    · exact fun other => absurd other (by decide)
    · exact fun other => absurd other (by decide)
  call := by
    intro rule inside may socket next progress due ran
    rcases TCPMinnowSocket.mem_eventLoop inside with rfl | rfl | rfl | rfl
    · exact progress.receiveSegment (may.1 rfl) ran
    · obtain ⟨unshut, room⟩ := due rfl
      exact progress.pushBytes (progress.connected (may.2.2 rfl)) (may.2.1 rfl) unshut room ran
    · exact progress.readBytes ran
    · exact progress.sendLoop _ rfl ran

/-- Nothing is done yet in a turn. -/
theorem progress_start {answers : Answers}
    (flagged : (network.socket side).tcp.outboundStream.isClosed = true →
      (network.socket side).outboundShutdown = true) :
    Progress network.internet side { network.socket side with answers, emitted := [] }
      { network.socket side with answers, emitted := [] } where
  steps := by
    have same : network.internet.holding side { network.socket side with answers, emitted := [] } =
        network.internet := by
      simp only [internet, Internet.holding, List.append_nil, Internet.mk.injEq, true_and]
      refine ⟨?_, ?_, ?_⟩
      · exact Function.update_eq_self side _
      · exact Function.update_eq_self side _
      · exact Function.update_eq_self side _
    rw [same]
  answers := rfl
  listens := id
  flagged := flagged
  ended := Or.inl

/-- A turn takes the host some steps, and only takes rules away. -/
theorem progress_turn
    (flagged : (network.socket side).tcp.outboundStream.isClosed = true →
      (network.socket side).outboundShutdown = true)
    (fdRules : (network.loop side).fdRules.Sublist TCPMinnowSocket.eventLoop.fdRules)
    (nonFdRules : (network.loop side).nonFdRules.Sublist TCPMinnowSocket.eventLoop.nonFdRules)
    {answers : Answers} {poll : PollAnswer} {msSinceLastTick : UInt64}
    {loop : EventLoop TCPMinnowSocket.Polled TCPOverIPv4OverEthernetMinnowSocket}
    {socket : TCPOverIPv4OverEthernetMinnowSocket} {notes : List Note} {goesOn : Bool}
    (may : ∀ note ∈ notes,
      May network.internet { network.socket side with answers, emitted := [] } note)
    (ran : TCPMinnowSocket.turn (network.loop side) (network.socket side) answers poll
      msSinceLastTick = .ok (loop, socket, notes, goesOn)) :
    Progress network.internet side { network.socket side with answers, emitted := [] } socket ∧
      loop.fdRules.Sublist (network.loop side).fdRules ∧
      loop.nonFdRules.Sublist (network.loop side).nonFdRules := by
  obtain ⟨⟨after, middle, ret, made⟩, waited, ran⟩ := Fault.bind_eq_ok.mp ran
  replace waited := EventLoop.waitNextEvent_ok waited
  have safe := (eventLoop_safe network.internet side
    { network.socket side with answers, emitted := [] }).mono fdRules.subset nonFdRules.subset
  have progress := fun may =>
    safe.waited (TCPMinnowSocket.eventLoop_distinct.sublist fdRules) (progress_start flagged) may waited
  obtain ⟨fewer, basics, -⟩ := waited.fewer
  dsimp only at ran progress fewer basics
  split at ran
  · cases ran
    exact ⟨progress may, fewer, basics⟩
  split at ran
  · obtain ⟨last, passed, ⟨⟩⟩ := Fault.bind_eq_ok.mp ran
    exact ⟨(progress may).pass passed, fewer, basics⟩
  · cases ran
    exact ⟨progress may, fewer, basics⟩

/-! ## Whole runs -/

/-- The sockets are where the hosts and the routers can come.  A stream that is shut down is over. -/
structure Sound (cfg : Side → TCPConfig) (random : Side → Wrap32) (address : Side → Address)
    (network : Network Node) : Prop where
  reached : (Internet.system cfg random address).Reachable network.internet
  flagged : ∀ side, (network.socket side).tcp.outboundStream.isClosed = true →
    (network.socket side).outboundShutdown = true
  fdRules : ∀ side, (network.loop side).fdRules.Sublist TCPMinnowSocket.eventLoop.fdRules
  nonFdRules : ∀ side, (network.loop side).nonFdRules.Sublist TCPMinnowSocket.eventLoop.nonFdRules
  ended : network.internet.Short →
    ∀ side, (network.socket side).inboundShutdown = true → network.internet.Complete side

namespace Sound

variable {cfg : Side → TCPConfig} {random : Side → Wrap32} {address : Side → Address}

/-- A socket that has made progress takes the place of the one before. -/
theorem after (sound : network.Sound cfg random address) (distinct : address .left ≠ address .right)
    {answers : Answers}
    {loop : EventLoop TCPMinnowSocket.Polled TCPOverIPv4OverEthernetMinnowSocket}
    {socket : TCPOverIPv4OverEthernetMinnowSocket}
    (progress : Progress network.internet side { network.socket side with answers, emitted := [] }
      socket)
    (fdRules : loop.fdRules.Sublist (network.loop side).fdRules)
    (nonFdRules : loop.nonFdRules.Sublist (network.loop side).nonFdRules) :
    (network.after side loop socket).Sound cfg random address := by
  refine ⟨?_, Connection.forall_side side ?_ ?_, Connection.forall_side side ?_ ?_,
    Connection.forall_side side ?_ ?_, ?_⟩
  · rw [internet_after]
    exact sound.reached.steps progress.steps
  · simpa using progress.flagged
  · simpa using sound.flagged side.other
  · simpa using fdRules.trans (sound.fdRules side)
  · simpa using sound.fdRules side.other
  · simpa using nonFdRules.trans (sound.nonFdRules side)
  · simpa using sound.nonFdRules side.other
  · rw [internet_after]
    intro short
    have monotone : (Internet.system cfg random address).Monotone (Internet.Short : Internet Node → Prop) :=
      (Internet.simulates_exchange cfg random address distinct).monotone
    have stays : ∀ {other}, network.internet.Complete other →
        (network.internet.holding side socket).Complete other :=
      fun complete => complete.steps distinct sound.reached progress.steps short
    have ended := sound.ended (monotone.steps progress.steps short)
    refine Connection.forall_side side (fun shut => ?_) (fun shut => ?_)
    · rw [after_socket] at shut
      rcases progress.ended shut with already | ⟨middle, before, later, finished⟩
      · exact stays (ended side already)
      · have reached := sound.reached.steps before
        have complete := Internet.complete_of_over distinct reached (monotone.steps later short)
          finished
        exact complete.steps distinct reached later short
    · rw [after_socket_other] at shut
      exact stays (ended side.other shut)

end Sound

theorem sound_keeps (cfg : Side → TCPConfig) (random : Side → Wrap32) (address : Side → Address)
    (distinct : address .left ≠ address .right) :
    (system cfg random address : TransitionSystem (Network Node)).Keeps (fun _ => True)
      (Sound cfg random address) where
  monotone := fun _ _ _ _ => True.intro
  initial := by
    intro network initial
    have fresh (side : Side) : (network.socket side).inboundShutdown = false ∧
        (network.socket side).tcp.outboundStream.isClosed = false := by
      obtain ⟨adapter, same⟩ := initial.socket side
      rw [same]
      exact ⟨rfl, rfl⟩
    refine ⟨.start initial.internet, ?_, ?_, ?_, ?_⟩
    · intro side closed
      rw [(fresh side).2] at closed
      cases closed
    · intro side
      rw [initial.loop]
    · intro side
      rw [initial.loop]
    · intro _ side shut
      rw [(fresh side).1] at shut
      cases shut
  preserved := by
    intro network next sound step _
    cases step with
    | @connect side socket connects ran =>
        obtain ⟨tcp, pushed, ran⟩ := Fault.bind_eq_ok.mp ran
        obtain ⟨after, collected, ran⟩ := Fault.bind_eq_ok.mp ran
        have progress :=
          ((progress_start (sound.flagged side)).push connects pushed).collect collected
        split at ran
        · cases ran
          exact sound.after distinct progress (List.Sublist.refl _) (List.Sublist.refl _)
        · cases ran
    | @turn side answers poll msSinceLastTick loop socket notes goesOn inside prompt blocked ran =>
        have may : ∀ note ∈ notes,
            May network.internet { network.socket side with answers, emitted := [] } note := by
          intro note there
          refine ⟨?_, ?_, ?_⟩
          · rintro rfl
            exact inside there
          · rintro rfl
            exact prompt there
          · intro pushes
            by_contra listens
            rw [Bool.not_eq_false] at listens
            exact blocked listens note there pushes
        obtain ⟨progress, fewer, basics⟩ := progress_turn (sound.flagged side) (sound.fdRules side)
          (sound.nonFdRules side) may ran
        exact sound.after distinct progress fewer basics
    | relay relays =>
        have step := Internet.Step.relay relays
        refine ⟨sound.reached.step step, sound.flagged, sound.fdRules, sound.nonFdRules, ?_⟩
        intro short side shut
        have before : network.internet.Short :=
          (Internet.simulates_exchange cfg random address distinct).monotone _ _ step short
        exact (sound.ended before side shut).step distinct sound.reached step short

theorem delivers {cfg : Side → TCPConfig} {random : Side → Wrap32} {address : Side → Address}
    (distinct : address .left ≠ address .right)
    (reached : (system cfg random address).Reachable network) (short : network.internet.Short)
    (side : Side) :
    (network.socket side).toOwner <+: (network.socket side.other).fromOwner ∧
      ((network.socket side).inboundShutdown = true →
        (network.socket side).toOwner = (network.socket side.other).fromOwner ∧
          (network.socket side.other).outboundShutdown = true) := by
  have sound := (sound_keeps cfg random address distinct).reachable reached True.intro
  have delivers := Internet.delivers distinct sound.reached short side
  refine ⟨(List.prefix_append _ _).trans delivers.1, fun shut => ?_⟩
  obtain ⟨closed, whole⟩ := sound.ended short side shut
  exact ⟨whole, sound.flagged side.other (delivers.2.1 closed).2⟩

/-- What an application has read from its socket the other one has written to its own, in that
order.  When a socket signals the end to its application, that was all, and the other application
writes no more. -/
theorem applications_deliver (cfg : Side → TCPConfig) (random : Side → Wrap32)
    (address : Side → Address) (distinct : address .left ≠ address .right) (network : Network Node)
    (reached : (system cfg random address).Reachable network) (short : network.internet.Short)
    (side : Side) :
    (network.socket side).toOwner <+: (network.socket side.other).fromOwner ∧
      ((network.socket side).inboundShutdown = true →
        (network.socket side).toOwner = (network.socket side.other).fromOwner ∧
          (network.socket side.other).outboundShutdown = true) :=
  delivers distinct reached short side

/-! ### What happens -/

/-- A socket connects, or takes a turn in which one descriptor is ready.  What the device reads has
a place on the wire. -/
inductive Move where
  | connect (side : Side)
  | turn (side : Side) (ready place : Nat) (read : ReadAnswer) (write : WriteAnswer)

/-- The only descriptor that is ready is the one at this place. -/
def onlyReady (place : Nat) : PollAnswer where
  revents := fun other => if other = place then { readable := true, writable := true } else {}

/-- Such callbacks may be made in a turn in which this packet is there to be read. -/
def Permits (network : Network Node) (side : Side) (packet : Packet) (read : ReadAnswer)
    (notes : List Note) : Prop :=
  (.called 0 ∈ notes → packet ∈ network.wire) ∧ (.called 1 ∈ notes → read ≠ .again) ∧
    ((network.socket side).datagramAdapter.listening = true → ∀ note ∈ notes, note.categoryId ≠ 1)

instance {network : Network Node} {packet : Packet} {read : ReadAnswer} {notes : List Note} :
    Decidable (network.Permits side packet read notes) :=
  inferInstanceAs (Decidable (_ ∧ _ ∧ _))

/-- The network after the move, if it can be made and does not fail. -/
def play (network : Network Node) : Move → Option (Network Node)
  | .connect side => do
      let socket := network.socket side
      guard (socket.datagramAdapter.listening = false)
      return network.after side (network.loop side) (← { socket with emitted := [] }.connect.toOption)
  | .turn side ready place read write => do
      let packet := network.wire[place]?.getD []
      let (loop, socket, notes, _) ← (TCPMinnowSocket.turn (network.loop side)
        (network.socket side) { packet, read, write } (onlyReady ready) 0).toOption
      guard (network.Permits side packet read notes)
      return network.after side loop socket

theorem step_of_play {move : Move} (played : network.play move = some next) : network.Step next := by
  cases move with
  | connect side =>
      obtain ⟨_, guarded, played⟩ := Option.bind_eq_some_iff.mp played
      obtain ⟨_, ran, ⟨⟩⟩ := Option.bind_eq_some_iff.mp played
      exact .connect ((Option.guard_eq_some' ..).mp guarded) (Fault.ok_of_toOption ran)
  | turn side ready place read write =>
      obtain ⟨⟨loop, socket, notes, goesOn⟩, ran, played⟩ := Option.bind_eq_some_iff.mp played
      obtain ⟨_, guarded, ⟨⟩⟩ := Option.bind_eq_some_iff.mp played
      obtain ⟨inside, prompt, blocked⟩ := (Option.guard_eq_some' ..).mp guarded
      exact .turn inside prompt blocked (Fault.ok_of_toOption ran)

end Network

/-! ### A letter that ends -/

namespace Network

def letterCfg : TCPConfig := { recvCapacity := 4, sendCapacity := 4, fixedIsn := some ⟨0⟩ }

def neighbours : Side → Address
  | .left => ⟨0x0a000001, 1000⟩
  | .right => ⟨0x0a000002, 2000⟩

/-- The left socket connects to the right one, which listens on the same link. -/
def twoSockets : Network Empty where
  socket
    | .left => .new letterCfg ⟨0⟩ (.new ⟨neighbours .left, neighbours .right⟩ false
        (List.Vector.replicate 6 2) 0x0a000001 0x0a000002)
    | .right => .new letterCfg ⟨0⟩ (.new ⟨neighbours .right, ⟨0, 0⟩⟩ true
        (List.Vector.replicate 6 4) 0x0a000002 0x0a000001)
  loop := fun _ => TCPMinnowSocket.eventLoop
  router := Empty.elim
  wire := []

/-- The sockets find each other and synchronize.  The left application writes a letter and closes,
and all of it passes in three segments. -/
def letterMoves : List Move :=
  let send (side : Side) (ready : Nat) := Move.turn side ready 0 .again .again
  let receive (side : Side) (place : Nat) := Move.turn side 0 place .again .again
  [.connect .left, send .left 3, receive .right 0, receive .left 1, receive .right 2,
    send .right 3, receive .left 3, .turn .left 1 0 (.bytes [97]) .again,
    .turn .left 1 0 (.bytes []) .again, send .left 2, receive .right 4, receive .right 5,
    receive .right 6, .turn .right 2 0 .again (.count 1)]

theorem twoSockets_initial :
    Initial (fun _ => letterCfg) (fun _ => ⟨0⟩) neighbours twoSockets := by
  refine ⟨?_, fun _ => rfl, ⟨?_, ?_, ?_, Empty.rec, ?_, ?_, ?_⟩⟩
  · rintro (_ | _)
    · exact ⟨_, rfl⟩
    · exact ⟨_, rfl⟩
  · rintro (_ | _) <;> rfl
  · rintro (_ | _) <;> rfl
  · rintro (_ | _)
    · exact ⟨_, false, _, _, _, rfl, rfl⟩
    · exact ⟨_, true, _, _, _, rfl, rfl⟩
  · exact fun _ inside => absurd inside List.not_mem_nil
  · rintro (_ | _) <;> rfl
  · rintro (_ | _) <;> rfl

theorem letter_ends :
    ∃ network : Network Empty,
      (system (fun _ => letterCfg) (fun _ => ⟨0⟩) neighbours).Reachable network ∧
        (network.socket .right).inboundShutdown = true ∧
        (network.socket .right).toOwner = [97] ∧ (network.socket .left).fromOwner = [97] ∧
        (network.socket .right).fromOwner = [] := by
  have passes : (letterMoves.foldlM play twoSockets).map (fun network =>
      ((network.socket .right).inboundShutdown, (network.socket .right).toOwner,
        (network.socket .left).fromOwner, (network.socket .right).fromOwner)) =
          some (true, [97], [97], []) := by
    decide +kernel
  obtain ⟨final, played, same⟩ := Option.map_eq_some_iff.mp passes
  have reached := (@TransitionSystem.Reachable.start _ (system _ _ _) twoSockets twoSockets_initial).steps
    (TransitionSystem.steps_of_moves (fun _ _ _ => step_of_play) played)
  obtain ⟨shut, same⟩ := Prod.mk.inj same
  obtain ⟨read, same⟩ := Prod.mk.inj same
  obtain ⟨left, right⟩ := Prod.mk.inj same
  exact ⟨final, reached, shut, read, left, right⟩

theorem applications_deliver_letter :
    ∃ network : Network Empty, (network.socket .right).toOwner = [97] ∧
      (network.socket .right).toOwner = (network.socket .left).fromOwner ∧
      (network.socket .left).outboundShutdown = true := by
  obtain ⟨network, reached, shut, read, left, right⟩ := letter_ends
  have short : network.internet.Short := by
    refine Connection.forall_side .left ?_ ?_
    · change (network.socket .left).fromOwner.length + 2 < 2 ^ 31
      rw [left]
      decide
    · change (network.socket .right).fromOwner.length + 2 < 2 ^ 31
      rw [right]
      decide
  have deliver := applications_deliver _ _ neighbours (by decide) network reached short .right
  exact ⟨network, read, deliver.2 shut⟩

end Network

end Minnow.Stack
