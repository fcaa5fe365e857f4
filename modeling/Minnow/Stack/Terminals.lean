import Minnow.Socket.OwnerBytes
import Minnow.Socket.StreamCopyRuns
import Minnow.Stack.Applications

/-!
# Two terminals

On either host `bidirectional_stream_copy` runs beside the thread of its socket.  A pair of connected
sockets lies between the two, which holds what one has written and the other has not read yet.
-/

namespace Minnow.Stack

open Foundation Routing Socket Transport Wire

open StreamCopy (readCategory writeCategory source)

structure Terminals (Node : Type) where
  network : Network Node
  copy : Side → StreamCopy.Run
  toThread : Side → List UInt8
  fromThread : Side → List UInt8
  troubled : Bool

namespace Terminals

/-- The bytes that have come since. -/
def since (before after : List UInt8) : List UInt8 := after.drop before.length

theorem append_since {before after : List UInt8} (grown : before <+: after) :
    before ++ since before after = after := by
  obtain ⟨more, rfl⟩ := grown
  rw [since, List.drop_left]

variable {Node : Type}

/-- What the standard input of a host has given, and what its standard output has got. -/
def typed (terminals : Terminals Node) (side : Side) : List UInt8 :=
  ((terminals.copy side).copy.line .outbound).read

def shown (terminals : Terminals Node) (side : Side) : List UInt8 :=
  ((terminals.copy side).copy.line .inbound).written

/-- After a turn of `bidirectional_stream_copy`, which has read all from the thread but this. -/
def copied (terminals : Terminals Node) (side : Side) (run : StreamCopy.Run) (unread : List UInt8)
    (trouble : Bool) : Terminals Node where
  network := terminals.network
  copy := Function.update terminals.copy side run
  toThread := Function.update terminals.toThread side (terminals.toThread side ++
    since ((terminals.copy side).copy.line .outbound).written (run.copy.line .outbound).written)
  fromThread := Function.update terminals.fromThread side unread
  troubled := terminals.troubled || trouble

/-- After a turn of the thread, which has read all from its owner but this. -/
def turned (terminals : Terminals Node) (side : Side)
    (loop : EventLoop TCPMinnowSocket.Polled TCPOverIPv4OverEthernetMinnowSocket)
    (socket : TCPOverIPv4OverEthernetMinnowSocket) (unread : List UInt8) (trouble : Bool) :
    Terminals Node where
  network := terminals.network.after side loop socket
  copy := terminals.copy
  toThread := Function.update terminals.toThread side unread
  fromThread := Function.update terminals.fromThread side (terminals.fromThread side ++
    since (terminals.network.socket side).toOwner socket.toOwner)
  troubled := terminals.troubled || trouble

/-- In a turn that starts like this, the socket is not given up as long as it is needed, and the
standard output is not given up at all. -/
structure Healthy (run : StreamCopy.Run) (answers : CopyAnswers) (poll : PollAnswer) : Prop where
  receives : ¬ run.Struck answers poll (StreamCopy.readRule .inbound)
  sends : run.Struck answers poll (StreamCopy.writeRule .outbound) →
    (run.copy.line .outbound).shutdown = true
  shows : ¬ run.Struck answers poll (StreamCopy.writeRule .inbound)

/-- In a turn that starts like this, the end of the owner is given up. -/
def GivenUp (loop : EventLoop TCPMinnowSocket.Polled TCPOverIPv4OverEthernetMinnowSocket)
    (socket : TCPOverIPv4OverEthernetMinnowSocket) (answers : Answers) (poll : PollAnswer) : Prop :=
  EventLoop.Struck TCPMinnowSocket.status loop.fdRules poll { socket with answers, emitted := [] }
    TCPMinnowSocket.pushRule

variable [DecidableEq Node]

/-- Each party takes its turns.  The bytes that are read come from the other end of the pair of
sockets, and the end is read once the other end was shut down and nothing is left.  The application
copies once its socket does not listen any more. -/
inductive Step (terminals : Terminals Node) : Terminals Node → Prop
  | copy {side : Side} {answers : CopyAnswers} {poll : PollAnswer}
      {loop : EventLoop StreamCopy.Fd StreamCopy} {copy : StreamCopy} {notes : List Note}
      {returned : Bool} {unread : List UInt8} {trouble : Bool}
      (connected : (terminals.network.socket side).datagramAdapter.listening = false)
      (running : (terminals.copy side).returned = false)
      (prompt : ∀ way, .called (readCategory way) ∈ notes → answers.read way ≠ .again)
      (ran : StreamCopy.turn (terminals.copy side).loop (terminals.copy side).copy answers poll =
        .ok (loop, copy, notes, returned))
      (reads : terminals.fromThread side =
        since ((terminals.copy side).copy.line .inbound).read (copy.line .inbound).read ++ unread)
      (ends : (copy.fd .socket).eof = true → ((terminals.copy side).copy.fd .socket).eof = true ∨
        (terminals.network.socket side).inboundShutdown = true ∧ terminals.fromThread side = [])
      (healthy : trouble = false → Healthy (terminals.copy side) answers poll) :
      Step terminals (terminals.copied side
        ⟨loop, copy, (terminals.copy side).notes ++ notes, returned⟩ unread trouble)
  | turn {side : Side} {answers : Answers} {poll : PollAnswer} {msSinceLastTick : UInt64}
      {loop : EventLoop TCPMinnowSocket.Polled TCPOverIPv4OverEthernetMinnowSocket}
      {socket : TCPOverIPv4OverEthernetMinnowSocket} {notes : List Note} {goesOn : Bool}
      {unread : List UInt8} {trouble : Bool}
      (inside : .called 0 ∈ notes → answers.packet ∈ terminals.network.wire)
      (prompt : .called 1 ∈ notes → answers.read ≠ .again)
      (blocked : (terminals.network.socket side).datagramAdapter.listening = true →
        ∀ note ∈ notes, note.categoryId ≠ 1)
      (ran : TCPMinnowSocket.turn (terminals.network.loop side) (terminals.network.socket side) answers
        poll msSinceLastTick = .ok (loop, socket, notes, goesOn))
      (reads : terminals.toThread side =
        since (terminals.network.socket side).fromOwner socket.fromOwner ++ unread)
      (ends : socket.threadData.eof = true →
        (terminals.network.socket side).threadData.eof = true ∨
          ((terminals.copy side).copy.line .outbound).shutdown = true ∧ terminals.toThread side = [])
      (healthy : trouble = false → ¬ GivenUp (terminals.network.loop side)
        (terminals.network.socket side) answers poll) :
      Step terminals (terminals.turned side loop socket unread trouble)
  | connect {side : Side} {socket : TCPOverIPv4OverEthernetMinnowSocket}
      (connects : (terminals.network.socket side).datagramAdapter.listening = false)
      (ran : { terminals.network.socket side with emitted := [] }.connect = .ok socket) :
      Step terminals { terminals with
        network := terminals.network.after side (terminals.network.loop side) socket }
  | relay {router : Node → Router} {wire : List Packet}
      (relays : terminals.network.internet.Relays { terminals.network.internet with router, wire }) :
      Step terminals { terminals with network := { terminals.network with router, wire } }

/-- Nothing is done yet. -/
structure Initial (cfg : Side → TCPConfig) (random : Side → Wrap32) (address : Side → Address)
    (terminals : Terminals Node) : Prop where
  network : Network.Initial cfg random address terminals.network
  copy : ∀ side, (terminals.copy side).Initial
  toThread : ∀ side, terminals.toThread side = []
  fromThread : ∀ side, terminals.fromThread side = []

def system (cfg : Side → TCPConfig) (random : Side → Wrap32) (address : Side → Address) :
    TransitionSystem (Terminals Node) where
  Initial := Initial cfg random address
  Step := Step

/-! ## What holds throughout -/

/-- As long as there is no trouble, only the end of what is read ends anything. -/
structure Calm (terminals : Terminals Node) (side : Side) : Prop where
  shut : (terminals.network.socket side).outboundShutdown = true →
    (terminals.network.socket side).threadData.eof = true
  read : (terminals.copy side).Gone (readCategory .inbound) →
    ((terminals.copy side).copy.fd .socket).eof = true
  written : ∀ way, (terminals.copy side).Gone (writeCategory way) →
    ((terminals.copy side).copy.line way).shutdown = true
  sent : (terminals.network.socket side).threadData.eof = true →
    (terminals.network.socket side).fromOwner = terminals.typed side ∧
      (terminals.copy side).Over .outbound
  received : ((terminals.copy side).copy.fd .socket).eof = true →
    ((terminals.copy side).copy.line .inbound).read = terminals.typed side.other ∧
      (terminals.copy side.other).Over .outbound

structure Sound (cfg : Side → TCPConfig) (random : Side → Wrap32) (address : Side → Address)
    (terminals : Terminals Node) : Prop where
  network : (Network.system cfg random address).Reachable terminals.network
  copy : ∀ side, StreamCopy.Run.system.Reachable (terminals.copy side)
  alive : ∀ side, (terminals.network.socket side).threadData.closed = false
  written : ∀ side, ((terminals.copy side).copy.line .outbound).written =
    (terminals.network.socket side).fromOwner ++ terminals.toThread side
  taken : ∀ side, (terminals.network.socket side).toOwner =
    ((terminals.copy side).copy.line .inbound).read ++ terminals.fromThread side
  calm : terminals.network.internet.Short → terminals.troubled = false →
    ∀ side, terminals.Calm side

variable {terminals next : Terminals Node} {side : Side}

omit [DecidableEq Node] in
/-- Only the copies and the owner's end of the own socket matter. -/
theorem Calm.of_same (calm : terminals.Calm side) (copy : next.copy = terminals.copy)
    (same : (next.network.socket side).ownersEnd = (terminals.network.socket side).ownersEnd) :
    next.Calm side := by
  obtain ⟨fromOwner, -, threadData, shutdown⟩ := TCPMinnowSocket.OwnersEnd.mk.inj same
  obtain ⟨shut, read, written, sent, received⟩ := calm
  constructor
  · rw [threadData, shutdown]
    exact shut
  · rw [copy]
    exact read
  · rw [copy]
    exact written
  · rw [typed, copy, threadData, fromOwner]
    exact sent
  · rw [typed, copy]
    exact received

/-! ### A turn of the copying loop -/

section Copy

variable {run : StreamCopy.Run} {unread : List UInt8} {trouble : Bool}

omit [DecidableEq Node] in
@[simp] theorem copied_copy : (terminals.copied side run unread trouble).copy side = run :=
  Function.update_self _ _ _

omit [DecidableEq Node] in
@[simp] theorem copied_copy_other :
    (terminals.copied side run unread trouble).copy side.other = terminals.copy side.other :=
  Function.update_of_ne side.other_ne _ _

variable {cfg : Side → TCPConfig} {random : Side → Wrap32} {address : Side → Address}
  {answers : CopyAnswers} {poll : PollAnswer} {loop : EventLoop StreamCopy.Fd StreamCopy}
  {copy : StreamCopy} {notes : List Note} {returned : Bool}

/-- A direction whose source has ended before does not change any more. -/
theorem Sound.copied (sound : terminals.Sound cfg random address)
    (distinct : address .left ≠ address .right)
    (running : (terminals.copy side).returned = false)
    (prompt : ∀ way, .called (readCategory way) ∈ notes → answers.read way ≠ .again)
    (ran : StreamCopy.turn (terminals.copy side).loop (terminals.copy side).copy answers poll =
      .ok (loop, copy, notes, returned))
    (reads : terminals.fromThread side =
      since ((terminals.copy side).copy.line .inbound).read (copy.line .inbound).read ++ unread)
    (ends : (copy.fd .socket).eof = true → ((terminals.copy side).copy.fd .socket).eof = true ∨
      (terminals.network.socket side).inboundShutdown = true ∧ terminals.fromThread side = [])
    (healthy : trouble = false → Healthy (terminals.copy side) answers poll) :
    (terminals.copied side ⟨loop, copy, (terminals.copy side).notes ++ notes, returned⟩ unread
      trouble).Sound cfg random address := by
  have before := StreamCopy.Run.sound_keeps.reachable (sound.copy side) True.intro
  obtain ⟨grows, cancels⟩ := before.turn_ok prompt ran
  have still (done : (terminals.copy side).Over .outbound) :
      (copy.line .outbound).read = terminals.typed side ∧
        StreamCopy.Run.Over ⟨loop, copy, (terminals.copy side).notes ++ notes, returned⟩ .outbound := by
    have kept := done.imp_right (List.mem_append_left notes)
    exact ⟨grows.still .outbound kept, kept.imp_left (grows.eof .outbound)⟩
  refine ⟨sound.network, Connection.forall_side side ?_ ?_, sound.alive,
    Connection.forall_side side ?_ ?_, Connection.forall_side side ?_ ?_, ?_⟩
  · rw [copied_copy]
    exact (sound.copy side).step (.turn running prompt ran)
  · rw [copied_copy_other]
    exact sound.copy side.other
  · simp only [Terminals.copied, Function.update_self]
    rw [← List.append_assoc, ← sound.written side, append_since (grows.written .outbound)]
  · simp only [Terminals.copied, Function.update_of_ne side.other_ne]
    exact sound.written side.other
  · simp only [Terminals.copied, Function.update_self]
    rw [sound.taken side, reads, ← List.append_assoc, append_since (grows.read .inbound)]
  · simp only [Terminals.copied, Function.update_of_ne side.other_ne]
    exact sound.taken side.other
  · intro short untroubled
    obtain ⟨calmBefore, here⟩ := Bool.or_eq_false_iff.mp untroubled
    have well := healthy here
    have calm := sound.calm short calmBefore
    refine Connection.forall_side side ?_ ?_
    · obtain ⟨shut, read, written, sent, received⟩ := calm side
      refine ⟨shut, ?_, ?_, ?_, ?_⟩
      · intro gone
        rw [copied_copy] at gone ⊢
        apply grows.eof .inbound
        rcases List.mem_append.mp gone with early | late
        · exact read early
        · exact ((cancels .inbound).1 late).resolve_right well.receives
      · intro way gone
        rw [copied_copy] at gone ⊢
        apply grows.shutdown way
        rcases List.mem_append.mp gone with early | late
        · exact written way early
        · refine ((cancels way).2 late).elim id fun struck => ?_
          cases way with
          | outbound => exact well.sends struck
          | inbound => exact absurd struck well.shows
      · intro eof
        obtain ⟨whole, last⟩ := sent eof
        obtain ⟨same, ended⟩ := still last
        rw [typed, copied_copy]
        exact ⟨whole.trans same.symm, ended⟩
      · intro eof
        rw [copied_copy] at eof
        rw [typed, copied_copy_other, copied_copy]
        rcases ends eof with early | ⟨shutdown, nothing⟩
        · have same := grows.still .inbound (Or.inl early)
          rw [same]
          exact received early
        · rw [nothing] at reads
          have none := (List.append_eq_nil_iff.mp reads.symm).1
          have same := append_since (grows.read .inbound)
          rw [none, List.append_nil] at same
          have taken := sound.taken side
          rw [nothing, List.append_nil, same] at taken
          have reached := sound.network
          obtain ⟨all, finished⟩ := (Network.delivers distinct reached short side).2 shutdown
          have far := calm side.other
          obtain ⟨whole, last⟩ := far.sent (far.shut finished)
          exact ⟨(taken.symm.trans all).trans whole, last⟩
    · obtain ⟨shut, read, written, sent, received⟩ := calm side.other
      refine ⟨shut, ?_, ?_, ?_, ?_⟩
      · rw [copied_copy_other]
        exact read
      · intro way gone
        rw [copied_copy_other] at gone ⊢
        exact written way gone
      · rw [typed, copied_copy_other]
        exact sent
      · intro eof
        rw [copied_copy_other] at eof ⊢
        obtain ⟨whole, last⟩ := received eof
        rw [Side.other_other] at whole last ⊢
        obtain ⟨same, ended⟩ := still last
        rw [typed, copied_copy]
        exact ⟨whole.trans same.symm, ended⟩

end Copy

/-! ### A turn of the thread -/

section Turn

variable {loop : EventLoop TCPMinnowSocket.Polled TCPOverIPv4OverEthernetMinnowSocket}
  {socket : TCPOverIPv4OverEthernetMinnowSocket} {unread : List UInt8} {trouble : Bool}

omit [DecidableEq Node] in
/-- Nothing that the owner has written is taken back. -/
theorem short_of_after {network : Network Node}
    (grown : (network.socket side).fromOwner <+: socket.fromOwner)
    (short : (network.after side loop socket).internet.Short) : network.internet.Short := by
  refine Connection.forall_side side ?_ ?_
  · have here := short side
    simp only [Network.internet, Network.after_socket] at here ⊢
    exact lt_of_le_of_lt (Nat.add_le_add_right grown.length_le 2) here
  · have there := short side.other
    simp only [Network.internet, Network.after_socket_other] at there ⊢
    exact there

omit [DecidableEq Node] in
@[simp] theorem turned_network : (terminals.turned side loop socket unread trouble).network =
    terminals.network.after side loop socket := rfl

variable {cfg : Side → TCPConfig} {random : Side → Wrap32} {address : Side → Address}
  {answers : Answers} {poll : PollAnswer} {msSinceLastTick : UInt64} {notes : List Note}
  {goesOn : Bool}

/-- What the thread had read before the end was all that was typed. -/
theorem Sound.turned (sound : terminals.Sound cfg random address)
    (distinct : address .left ≠ address .right)
    (step : terminals.network.Step (terminals.network.after side loop socket))
    (ran : TCPMinnowSocket.turn (terminals.network.loop side) (terminals.network.socket side) answers
      poll msSinceLastTick = .ok (loop, socket, notes, goesOn))
    (reads : terminals.toThread side =
      since (terminals.network.socket side).fromOwner socket.fromOwner ++ unread)
    (ends : socket.threadData.eof = true →
      (terminals.network.socket side).threadData.eof = true ∨
        ((terminals.copy side).copy.line .outbound).shutdown = true ∧ terminals.toThread side = [])
    (healthy : trouble = false →
      ¬ GivenUp (terminals.network.loop side) (terminals.network.socket side) answers poll) :
    (terminals.turned side loop socket unread trouble).Sound cfg random address := by
  have before := (Network.sound_keeps cfg random address distinct).reachable sound.network True.intro
  have own : TCPMinnowSocket.IsSocketLoop (terminals.network.loop side) :=
    ⟨before.fdRules side, before.nonFdRules side⟩
  have grows := TCPMinnowSocket.turn_ownersEnd own ran
  have grown : (terminals.network.socket side).fromOwner <+: socket.fromOwner := grows.fromOwner
  have passed : (terminals.network.socket side).toOwner <+: socket.toOwner := grows.toOwner
  have cancels := TCPMinnowSocket.ended_of_cancelled own (sound.alive side) ran
  have written : ((terminals.copy side).copy.line .outbound).written = socket.fromOwner ++ unread := by
    rw [sound.written side, reads, ← List.append_assoc, append_since grown]
  refine ⟨sound.network.step step, sound.copy, Connection.forall_side side ?_ ?_,
    Connection.forall_side side ?_ ?_, Connection.forall_side side ?_ ?_, ?_⟩
  · rw [turned_network, Network.after_socket]
    exact grows.closed.trans (sound.alive side)
  · rw [turned_network, Network.after_socket_other]
    exact sound.alive side.other
  · rw [turned_network, Network.after_socket]
    simpa only [Terminals.turned, Function.update_self] using written
  · rw [turned_network, Network.after_socket_other]
    simpa only [Terminals.turned, Function.update_of_ne side.other_ne] using sound.written side.other
  · rw [turned_network, Network.after_socket]
    simp only [Terminals.turned, Function.update_self]
    rw [← List.append_assoc, ← sound.taken side, append_since passed]
  · rw [turned_network, Network.after_socket_other]
    simpa only [Terminals.turned, Function.update_of_ne side.other_ne] using sound.taken side.other
  · intro short untroubled
    obtain ⟨calmBefore, here⟩ := Bool.or_eq_false_iff.mp untroubled
    have calm := sound.calm (short_of_after grown short) calmBefore
    refine Connection.forall_side side ?_ ?_
    · have mine := calm side
      refine ⟨?_, mine.read, mine.written, ?_, mine.received⟩
      · rw [turned_network, Network.after_socket]
        intro shutdown
        rcases grows.shut shutdown with early | eof | noted
        · exact grows.eof (mine.shut early)
        · exact eof
        · exact grows.eof ((cancels noted).resolve_right (healthy here))
      · rw [turned_network, Network.after_socket]
        intro eof
        have copied := StreamCopy.Run.sound_keeps.reachable (sound.copy side) True.intro
        have flowing := copied.flowing .outbound
        rcases ends eof with early | ⟨shutdown, nothing⟩
        · obtain ⟨all, last⟩ := mine.sent early
          refine ⟨?_, last⟩
          have more : socket.fromOwner <+: terminals.typed side := by
            rw [typed, flowing.whole, written, List.append_assoc]
            exact List.prefix_append _ _
          rw [← all] at more
          exact (more.eq_of_length_le grown.length_le).trans all
        · obtain ⟨all, last⟩ := flowing.complete shutdown
          rw [nothing] at reads
          rw [(List.append_eq_nil_iff.mp reads.symm).2, List.append_nil] at written
          exact ⟨written.symm.trans all, last⟩
    · refine @Calm.of_same _ terminals _ _ (calm side.other) rfl ?_
      rw [turned_network, Network.after_socket_other]

end Turn

/-! ### Whole runs -/

variable {cfg : Side → TCPConfig} {random : Side → Wrap32} {address : Side → Address}

/-- A step that leaves the owners' ends alone. -/
theorem Sound.of_same {network : Network Node} (sound : terminals.Sound cfg random address)
    (step : terminals.network.Step network)
    (same : ∀ side, (network.socket side).ownersEnd = (terminals.network.socket side).ownersEnd) :
    { terminals with network }.Sound cfg random address := by
  have fromOwner (side : Side) :
      (network.socket side).fromOwner = (terminals.network.socket side).fromOwner :=
    congrArg TCPMinnowSocket.OwnersEnd.fromOwner (same side)
  have toOwner (side : Side) := congrArg TCPMinnowSocket.OwnersEnd.toOwner (same side)
  have threadData (side : Side) := congrArg TCPMinnowSocket.OwnersEnd.threadData (same side)
  refine ⟨sound.network.step step, sound.copy, fun side => ?_, fun side => ?_, fun side => ?_,
    fun short untroubled side => ?_⟩
  · exact (congrArg FDWrapper.closed (threadData side)).trans (sound.alive side)
  · exact (sound.written side).trans (congrArg (· ++ _) (fromOwner side).symm)
  · exact (toOwner side).trans (sound.taken side)
  · have before : terminals.network.internet.Short := by
      intro side
      have here := short side
      simp only [Network.internet] at here ⊢
      rwa [fromOwner side] at here
    exact (sound.calm before untroubled side).of_same rfl (same side)

theorem sound_initial (initial : Initial cfg random address terminals) :
    terminals.Sound cfg random address := by
  have fresh (side : Side) : (terminals.network.socket side).ownersEnd =
      ⟨[], [], .new true, false⟩ := by
    obtain ⟨adapter, same⟩ := initial.network.socket side
    rw [same]
    rfl
  have start (side : Side) : ∃ socket answers, socket.eof = false ∧
      terminals.copy side = ⟨StreamCopy.eventLoop, .new socket answers, [], false⟩ := by
    obtain ⟨socket, answers, goesOn, -, same⟩ := initial.copy side
    exact ⟨socket, answers, goesOn, same⟩
  refine ⟨.start initial.network, fun side => .start (initial.copy side), fun side => ?_,
    fun side => ?_, fun side => ?_, fun _ _ side => ?_⟩
  all_goals
    obtain ⟨fromOwner, toOwner, threadData, shutdown⟩ :=
      TCPMinnowSocket.OwnersEnd.mk.inj (fresh side)
    obtain ⟨socket, answers, goesOn, same⟩ := start side
  · rw [threadData]
    rfl
  · rw [fromOwner, initial.toThread, same]
    rfl
  · rw [toOwner, initial.fromThread, same]
    rfl
  · constructor
    · rw [shutdown]
      exact fun absent => absurd absent Bool.false_ne_true
    · rw [same]
      exact fun absent => absurd absent List.not_mem_nil
    · rw [same]
      exact fun _ absent => absurd absent List.not_mem_nil
    · rw [threadData]
      exact fun absent => absurd absent Bool.false_ne_true
    · rw [same]
      exact fun absent => absurd (goesOn.symm.trans absent) Bool.false_ne_true

theorem sound_keeps (cfg : Side → TCPConfig) (random : Side → Wrap32) (address : Side → Address)
    (distinct : address .left ≠ address .right) :
    (system cfg random address : TransitionSystem (Terminals Node)).Keeps (fun _ => True)
      (Sound cfg random address) where
  monotone := fun _ _ _ _ => True.intro
  initial := fun _ => sound_initial
  preserved := by
    intro terminals next sound step _
    cases step with
    | copy connected running prompt ran reads ends healthy =>
        exact sound.copied distinct running prompt ran reads ends healthy
    | turn inside prompt blocked ran reads ends healthy =>
        exact sound.turned distinct (.turn inside prompt blocked ran) ran reads ends healthy
    | @connect side socket connects ran =>
        refine sound.of_same (.connect connects ran) (Connection.forall_side side ?_ ?_)
        · rw [Network.after_socket]
          have same := TCPMinnowSocket.connect_ownersEnd ran
          exact same
        · rw [Network.after_socket_other]
    | relay relays => exact sound.of_same (.relay relays) fun _ => rfl

/-- What a terminal has shown was typed at the other one, in that order.  Unless a descriptor was in
trouble, the standard output is closed, or the copying is over, only after all was shown that was
typed at the other terminal, up to the end. -/
theorem delivers (distinct : address .left ≠ address .right)
    (reached : (system cfg random address).Reachable terminals)
    (short : terminals.network.internet.Short) (side : Side) :
    terminals.shown side <+: terminals.typed side.other ∧
      (terminals.troubled = false →
        ((terminals.copy side).copy.line .inbound).shutdown = true ∨
          (terminals.copy side).returned = true →
        terminals.shown side = terminals.typed side.other ∧
          (terminals.copy side.other).Over .outbound) := by
  have sound := (sound_keeps cfg random address distinct).reachable reached True.intro
  have here := StreamCopy.Run.sound_keeps.reachable (sound.copy side) True.intro
  have there := StreamCopy.Run.sound_keeps.reachable (sound.copy side.other) True.intro
  refine ⟨?_, fun untroubled done => ?_⟩
  · calc terminals.shown side
      _ <+: ((terminals.copy side).copy.line .inbound).read := ⟨_, (here.flowing .inbound).whole.symm⟩
      _ <+: (terminals.network.socket side).toOwner := ⟨_, (sound.taken side).symm⟩
      _ <+: (terminals.network.socket side.other).fromOwner :=
        (Network.delivers distinct sound.network short side).1
      _ <+: ((terminals.copy side.other).copy.line .outbound).written :=
        ⟨_, (sound.written side.other).symm⟩
      _ <+: terminals.typed side.other := ⟨_, (there.flowing .outbound).whole.symm⟩
  · have calm := sound.calm short untroubled side
    have shutdown : ((terminals.copy side).copy.line .inbound).shutdown = true := by
      rcases done with shutdown | returned
      · exact shutdown
      · exact (here.complete returned .inbound).elim id (calm.written .inbound)
    obtain ⟨all, last⟩ := (here.flowing .inbound).complete shutdown
    obtain ⟨whole, ended⟩ := calm.received (last.elim id calm.read)
    exact ⟨all.trans whole, ended⟩

theorem terminals_deliver (cfg : Side → TCPConfig) (random : Side → Wrap32)
    (address : Side → Address) (distinct : address .left ≠ address .right)
    (terminals : Terminals Node) (reached : (system cfg random address).Reachable terminals)
    (short : terminals.network.internet.Short) (side : Side) :
    terminals.shown side <+: terminals.typed side.other ∧
      (terminals.troubled = false →
        ((terminals.copy side).copy.line .inbound).shutdown = true ∨
          (terminals.copy side).returned = true →
        terminals.shown side = terminals.typed side.other ∧
          (terminals.copy side.other).Over .outbound) :=
  delivers distinct reached short side

/-! ### A letter from one terminal to the other -/

/-- The terminals after a move of the network, if it can be made and does not fail. -/
def play (terminals : Terminals Node) : Network.Move → Option (Terminals Node)
  | .connect side => do
      let socket := terminals.network.socket side
      guard (socket.datagramAdapter.listening = false)
      let next ← { socket with emitted := [] }.connect.toOption
      return { terminals with
        network := terminals.network.after side (terminals.network.loop side) next }
  | .turn side ready place read write => do
      let network := terminals.network
      let packet := network.wire[place]?.getD []
      let (loop, socket, notes, _) ← (TCPMinnowSocket.turn (network.loop side)
        (network.socket side) { packet, read, write } (Network.onlyReady ready) 0).toOption
      let more := since (network.socket side).fromOwner socket.fromOwner
      let unread := (terminals.toThread side).drop more.length
      guard (network.Permits side packet read notes)
      guard (terminals.toThread side = more ++ unread ∧ (socket.threadData.eof = true →
        (network.socket side).threadData.eof = true ∨
          ((terminals.copy side).copy.line .outbound).shutdown = true ∧ terminals.toThread side = []))
      return terminals.turned side loop socket unread false

theorem not_struck {Fd State : Type} {status : Fd → State → FDWrapper} {rules : List (FDRule Fd State)}
    {state : State} {rule : FDRule Fd State} (ready : Nat) :
    ¬ EventLoop.Struck status rules (Network.onlyReady ready) state rule := by
  rintro ⟨_, _, _, _, place, -, -, event⟩
  have fine : ((Network.onlyReady ready).revents place).broken rule.direction = false := by
    simp only [Network.onlyReady]
    split <;> simp [Revents.broken]
  rw [fine] at event
  cases event

theorem step_of_play {move : Network.Move} (played : terminals.play move = some next) :
    terminals.Step next ∧ next.copy = terminals.copy := by
  cases move with
  | connect side =>
      obtain ⟨_, guarded, played⟩ := Option.bind_eq_some_iff.mp played
      obtain ⟨_, ran, ⟨⟩⟩ := Option.bind_eq_some_iff.mp played
      exact ⟨.connect ((Option.guard_eq_some' ..).mp guarded) (Fault.ok_of_toOption ran), rfl⟩
  | turn side ready place read write =>
      obtain ⟨⟨loop, socket, notes, goesOn⟩, ran, played⟩ := Option.bind_eq_some_iff.mp played
      obtain ⟨_, guarded, played⟩ := Option.bind_eq_some_iff.mp played
      obtain ⟨_, passes, ⟨⟩⟩ := Option.bind_eq_some_iff.mp played
      obtain ⟨inside, prompt, blocked⟩ := (Option.guard_eq_some' ..).mp guarded
      obtain ⟨reads, ends⟩ := (Option.guard_eq_some' ..).mp passes
      exact ⟨.turn inside prompt blocked (Fault.ok_of_toOption ran) reads ends
        fun _ => not_struck ready, rfl⟩

theorem steps_of_play {moves : List Network.Move} (played : moves.foldlM play terminals = some next) :
    Relation.ReflTransGen Step terminals next ∧ next.copy = terminals.copy := by
  induction moves generalizing terminals with
  | nil =>
      cases played
      exact ⟨.refl, rfl⟩
  | cons move moves ih =>
      rw [List.foldlM_cons] at played
      obtain ⟨middle, first, rest⟩ := Option.bind_eq_some_iff.mp played
      obtain ⟨step, same⟩ := step_of_play first
      obtain ⟨steps, later⟩ := ih rest
      exact ⟨.head step steps, later.trans same⟩

open StreamCopy.Run (opened found ended passed oneByte onlyReady)

def openedRun : StreamCopy.Run := ⟨StreamCopy.eventLoop, opened, [], false⟩

/-- Nobody has typed anything. -/
def twoTerminals : Terminals Empty where
  network := .twoSockets
  copy := fun _ => openedRun
  toThread := fun _ => []
  fromThread := fun _ => []
  troubled := false


/-- A turn of the copying in which one descriptor is ready. -/
theorem step_of_turn {way : Way} {run : StreamCopy.Run} {read : ReadAnswer} {notes : List Note}
    {loop : EventLoop StreamCopy.Fd StreamCopy} {copy : StreamCopy} {unread : List UInt8}
    (connected : (terminals.network.socket side).datagramAdapter.listening = false)
    (here : terminals.copy side = run) (running : run.returned = false)
    (prompt : ∀ way, .called (readCategory way) ∈ notes → read ≠ .again)
    (ran : StreamCopy.turn run.loop run.copy (oneByte read) (onlyReady (readCategory way)) =
      .ok (loop, copy, notes, false))
    (reads : terminals.fromThread side =
      since (run.copy.line .inbound).read (copy.line .inbound).read ++ unread)
    (ends : (copy.fd .socket).eof = true → (run.copy.fd .socket).eof = true ∨
      (terminals.network.socket side).inboundShutdown = true ∧ terminals.fromThread side = []) :
    terminals.Step (terminals.copied side ⟨loop, copy, run.notes ++ notes, false⟩ unread false) := by
  subst here
  exact .copy connected running prompt ran reads ends fun _ =>
    ⟨not_struck _, fun struck => absurd struck (not_struck _), not_struck _⟩

/-- The three turns in which a byte and the end pass in this direction. -/
def foundRun (way : Way) : StreamCopy.Run :=
  ⟨StreamCopy.eventLoop, found way, [.called (readCategory way)], false⟩

def endedRun (way : Way) : StreamCopy.Run :=
  ⟨StreamCopy.eventLoop, ended way, (foundRun way).notes ++ [.called (readCategory way)], false⟩

def passedRun (way : Way) : StreamCopy.Run :=
  ⟨(passed way).1, (passed way).2, (endedRun way).notes ++
    [.cancelled (readCategory way), .called (writeCategory way)], false⟩

/-- A byte and the end have passed the copying of this side. -/
def letterCopied (terminals : Terminals Node) (side : Side) (way : Way) : Terminals Node :=
  ((terminals.copied side (foundRun way) [] false).copied side (endedRun way) [] false).copied side
    (passedRun way) [] false

theorem steps_copied {way : Way}
    (connected : (terminals.network.socket side).datagramAdapter.listening = false)
    (here : terminals.copy side = openedRun)
    (reads : terminals.fromThread side = if way = .inbound then [97] else [])
    (ends : way = .inbound → (terminals.network.socket side).inboundShutdown = true) :
    Relation.ReflTransGen Step terminals (terminals.letterCopied side way) := by
  have first := @step_of_turn _ _ terminals side way openedRun _ _ _ _ [] connected here rfl
    (fun _ _ => ReadAnswer.noConfusion) (StreamCopy.Run.turn_found way) (by
      cases way with
      | _ => exact reads) (by
      cases way with
      | _ => exact fun eof => absurd eof Bool.false_ne_true)
  have second := @step_of_turn _ _ (terminals.copied side (foundRun way) [] false) side way
    (foundRun way) _ _ _ _ [] connected copied_copy rfl
    (fun _ _ => ReadAnswer.noConfusion) (StreamCopy.Run.turn_ended way) (by
      cases way with
      | _ => exact Function.update_self _ _ _) (by
      cases way with
      | outbound => exact fun eof => absurd eof Bool.false_ne_true
      | inbound => exact fun _ => Or.inr ⟨ends rfl, Function.update_self _ _ _⟩)
  have third := @step_of_turn _ _
    ((terminals.copied side (foundRun way) [] false).copied side (endedRun way) [] false) side way
    (endedRun way) _ _ _ _ [] connected copied_copy rfl
    (fun other noted => absurd noted (StreamCopy.Run.prompt_passed way other))
    (StreamCopy.Run.turn_passed way).1 (by
      cases way with
      | _ => exact Function.update_self _ _ _) (by
      cases way with
      | outbound => exact fun eof => absurd eof Bool.false_ne_true
      | inbound => exact fun _ => Or.inl rfl)
  exact .tail (.tail (.single first) second) third

theorem terminals_deliver_letter :
    ∃ terminals : Terminals Empty, terminals.shown .right = [97] ∧
      terminals.shown .right = terminals.typed .left ∧ (terminals.copy .left).Over .outbound := by
  have passes : (Network.letterMoves.foldlM play (twoTerminals.letterCopied .left .outbound)).map
      (fun terminals => ([(terminals.network.socket .right).datagramAdapter.listening,
        (terminals.network.socket .right).inboundShutdown, terminals.troubled],
        [terminals.fromThread .right, (terminals.network.socket .left).fromOwner,
          (terminals.network.socket .right).fromOwner])) =
        some ([false, true, false], [[97], [97], []]) := by
    decide +kernel
  obtain ⟨letter, played, same⟩ := Option.map_eq_some_iff.mp passes
  simp only [Prod.mk.injEq, List.cons.injEq, and_true] at same
  obtain ⟨⟨connected, shut, untroubled⟩, here, left, right⟩ := same
  obtain ⟨steps, kept⟩ := steps_of_play played
  have initial : Initial (fun _ => Network.letterCfg) (fun _ => ⟨0⟩) Network.neighbours twoTerminals :=
    ⟨Network.twoSockets_initial, fun _ => ⟨_, _, rfl, rfl, rfl⟩, fun _ => rfl, fun _ => rfl⟩
  have typing := @steps_copied _ _ twoTerminals .left .outbound rfl rfl rfl Way.noConfusion
  have showing := @steps_copied _ _ letter .right .inbound connected (congrFun kept .right) here
    fun _ => shut
  have reached := ((@TransitionSystem.Reachable.start _ (system _ _ _) twoTerminals initial).steps
    typing).steps steps |>.steps showing
  have short : letter.network.internet.Short := by
    refine Connection.forall_side .left ?_ ?_
    · change (letter.network.socket .left).fromOwner.length + 2 < 2 ^ 31
      rw [left]
      decide
    · change (letter.network.socket .right).fromOwner.length + 2 < 2 ^ 31
      rw [right]
      decide
  have shown : (letter.letterCopied .right .inbound).shown .right = [97] :=
    (StreamCopy.Run.turn_passed .inbound).2.2
  have shutdown : (((letter.letterCopied .right .inbound).copy .right).copy.line .inbound).shutdown =
      true := (StreamCopy.Run.turn_passed .inbound).2.1
  have fine : (letter.letterCopied .right .inbound).troubled = false := by
    simp only [letterCopied, copied, untroubled, Bool.or_false]
  have deliver := terminals_deliver _ _ Network.neighbours (by decide) _ reached short .right
  exact ⟨_, shown, deliver.2 fine (Or.inl shutdown)⟩

end Terminals

end Minnow.Stack
