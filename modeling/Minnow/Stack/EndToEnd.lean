import Minnow.Stack.Internet

/-!
# Streams across the internet

Two hosts with routers between them do nothing that two peers could not do over a network that
loses, duplicates and reorders segments.
-/

namespace Minnow.Transport

open Foundation Minnow.Wire

namespace TCPPeer

/-- The peer has heard nothing, has nothing to send and waits for nothing. -/
structure Quiet (peer : TCPPeer) : Prop where
  unheard : peer.receiverMessage.ackno = none
  settled : peer.needSend = false
  empty : peer.sender.sendQueue = []
  stopped : peer.sender.retransmissionTimer.isRunning = false
  nothing : peer.inboundStream.buffer = []

theorem new_quiet (cfg : TCPConfig) (random : Wrap32) : (new cfg random).Quiet :=
  ⟨rfl, rfl, rfl, rfl, rfl⟩

theorem Quiet.tick {peer next : TCPPeer} (quiet : peer.Quiet) {msSinceLastTick : Nat}
    (ran : peer.step (.tick msSinceLastTick) = .ok next) : next.Quiet := by
  obtain ⟨sender, ticked, ⟨⟩⟩ := Fault.bind_eq_ok.mp ran
  have stopped := quiet.stopped
  rw [RetransmissionTimer.isRunning] at stopped
  rw [TCPSender.tick, RetransmissionTimer.isTimeout, RetransmissionTimer.elapse_running, stopped]
    at ticked
  cases ticked
  exact ⟨quiet.unheard, quiet.settled, quiet.empty, stopped, quiet.nothing⟩

/-- There is nothing to read. -/
theorem Quiet.read {peer : TCPPeer} (quiet : peer.Quiet) (len : Nat) :
    peer.step (.read len) = .ok peer := by
  rw [step, peer.inboundStream.pop_of_empty len quiet.nothing]

theorem Quiet.maybeSend {peer : TCPPeer} (quiet : peer.Quiet) :
    peer.maybeSend = .ok (peer, none) := by
  have refilled : peer.refill = .ok peer := by
    rw [refill, quiet.unheard]
    rfl
  have idle : peer.sender.maybeSend = (peer.sender, none) := by
    rw [TCPSender.maybeSend, quiet.empty]
  have same : ({ peer with sender := peer.sender, needSend := false } : TCPPeer) = peer := by
    rw [← quiet.settled]
  refine Fault.bind_eq_ok.mpr ⟨peer, refilled, ?_⟩
  rw [senderMessage, idle, quiet.settled, same]
  rfl

/-- A peer does not look at the ports and the checksum of a segment. -/
theorem receive_udinfo (peer : TCPPeer) (seg : TCPSegment) (udinfo : UserDatagramInfo) :
    peer.receive { seg with udinfo } = peer.receive seg := rfl

end TCPPeer

/-- No segment has more than the maximal payload. -/
theorem Exchange.Joint.payload_le {isn : Side → Wrap32} {exchange : Exchange}
    (joint : exchange.Joint isn) (short : exchange.Short) (side : Side) :
    ∀ seg ∈ exchange.incoming side,
      seg.senderMessage.payload.length ≤ TCPConfig.maxPayloadSize := by
  intro seg inside
  obtain ⟨net, carries⟩ := joint.towards side
  rcases carries.outgoing seg inside with sent | empty
  · have accounted := carries.joint.senderSide.accounted
    have extent := Account.extent_le accounted
    have bound := short side.other
    rw [carries.written] at extent
    refine accounted.tiled.short ?_ _ (carries.queue.returned _ sent)
    change _ + 1000 < _
    omega
  · rw [TCPSenderMessage.sequenceLength] at empty
    omega

end Minnow.Transport

namespace Minnow.Stack

open Foundation Link Routing Transport Wire

/-- A host is connected to the other one, or listens on its port and has sent nothing yet. -/
def Attached (address : Side → Address) (pool : Side → List TCPSegment) (side : Side)
    (host : Host) : Prop :=
  (host.adapter.listening = false ∧ host.adapter.config = connection address side) ∨
    (host.adapter.listening = true ∧ host.adapter.config.source.port = (address side).port ∧
      host.peer.Quiet ∧ pool side.other = [])

namespace Internet

variable {Node : Type}

/-- Everything on the way was sent by one of the two peers. -/
structure Grounded (address : Side → Address) (pool : Side → List TCPSegment)
    (internet : Internet Node) : Prop where
  outgoing : ∀ side, ∀ seg ∈ (internet.host side).outgoingSegments, seg ∈ pool side.other
  attached : ∀ side, Attached address pool side (internet.host side)
  sends : ∀ side, (internet.host side).adapter.interface.Traces (Genuine address pool)
  routers : ∀ node, (internet.router node).Traces (Genuine address pool)
  wire : ∀ packet ∈ internet.wire, BearsPacket (Genuine address pool) packet

variable {address : Side → Address} {pool : Side → List TCPSegment} {internet : Internet Node}
  {side : Side}

namespace Grounded

theorem emit (grounded : internet.Grounded address pool) {packets : List Packet}
    (bear : ∀ packet ∈ packets, BearsPacket (Genuine address pool) packet) :
    (internet.emit packets).Grounded address pool where
  outgoing := grounded.outgoing
  attached := grounded.attached
  sends := grounded.sends
  routers := grounded.routers
  wire := List.forall_mem_append.mpr ⟨grounded.wire, bear⟩

/-- One host changes. -/
theorem setHost (grounded : internet.Grounded address pool) {host : Host}
    (outgoing : ∀ seg ∈ host.outgoingSegments, seg ∈ pool side.other)
    (attached : Attached address pool side host)
    (sends : host.adapter.interface.Traces (Genuine address pool)) :
    (internet.setHost side host).Grounded address pool where
  outgoing := Connection.forall_side side (by simpa using outgoing)
    (by simpa using grounded.outgoing side.other)
  attached := Connection.forall_side side (by simpa using attached)
    (by simpa using grounded.attached side.other)
  sends := Connection.forall_side side (by simpa using sends)
    (by simpa using grounded.sends side.other)
  routers := grounded.routers
  wire := grounded.wire

/-- The peer of a host changes, by no segment if the host listens. -/
theorem setPeer (grounded : internet.Grounded address pool) {peer : TCPPeer}
    (quiet : (internet.host side).adapter.listening = true → (internet.host side).peer.Quiet →
      peer.Quiet) :
    (internet.setHost side { internet.host side with peer }).Grounded address pool := by
  refine grounded.setHost (grounded.outgoing side) ?_ (grounded.sends side)
  exact (grounded.attached side).imp_right fun waiting =>
    ⟨waiting.1, waiting.2.1, quiet waiting.1 waiting.2.2.1, waiting.2.2.2⟩

/-! ### The adapter -/

/-- What a host writes was sent by its peer, to the other one. -/
theorem wrote (grounded : internet.Grounded address pool) {seg : TCPSegment}
    {rest : List TCPSegment} {adapter : TCPOverIPv4OverEthernetAdapter} {packets : List Packet}
    (short : ∀ seg ∈ pool side.other, seg.senderMessage.payload.length ≤ TCPConfig.maxPayloadSize)
    (first : (internet.host side).outgoingSegments = seg :: rest)
    (ran : (internet.host side).adapter.write seg = .ok (adapter, packets)) :
    (internet.wrote side rest adapter packets).Grounded address pool := by
  have outgoing := grounded.outgoing side
  rw [first] at outgoing
  obtain ⟨here, others⟩ := List.forall_mem_cons.mp outgoing
  obtain ⟨connected, config⟩ := (grounded.attached side).resolve_right fun waiting =>
    absurd here (waiting.2.2.2 ▸ List.not_mem_nil)
  obtain ⟨sealed, ipDgram, sent, wrapped, stepped, rfl, rfl⟩ :=
    TCPOverIPv4OverEthernetAdapter.write_ok ran
  have genuine : Sound (Genuine address pool) ipDgram := by
    have encloses := Encloses.of_wrap wrapped
    rw [config] at encloses
    exact ⟨side, seg, here, short seg here, encloses⟩
  have traces : sent.Traces (Genuine address pool) := by
    refine (grounded.sends side).stepped genuine_legible stepped ?_
    rintro _ _ ⟨⟩
    exact genuine
  obtain ⟨emptied, bear⟩ := traces.emptied
  have after : (internet.setHost side { internet.host side with
      outgoingSegments := rest
      adapter := { (internet.host side).adapter with interface := sent.emptied } }).Grounded
        address pool := grounded.setHost others (Or.inl ⟨connected, config⟩) emptied
  exact after.emit bear

/-- What an attached adapter makes of a genuine datagram. -/
theorem unwrapped (grounded : internet.Grounded address pool)
    (distinct : address .left ≠ address .right) {ipDgram : InternetDatagram}
    (genuine : Sound (Genuine address pool) ipDgram) (firm : Firm ipDgram.payload)
    {unwrapped : TCPOverIPv4Adapter} {seg : Option TCPSegment}
    (ran : (internet.host side).adapter.unwrapTcpInIp ipDgram = .ok (unwrapped, seg)) :
    (seg = none ∧ unwrapped = (internet.host side).adapter.toTCPOverIPv4Adapter ∨
      unwrapped.listening = false ∧ unwrapped.config = connection address side) ∧
      ∀ found, seg = some found → ∃ original ∈ pool side, ∃ udinfo,
        found = { original with udinfo } := by
  rcases grounded.attached side with ⟨connected, config⟩ | ⟨listens, port, -, unsent⟩
  · obtain ⟨same, hears⟩ := heard_of_connected distinct connected config genuine firm ran
    change unwrapped = _ at same
    refine ⟨Or.inr ?_, fun found heard => (hears found heard).sent⟩
    rw [same]
    exact ⟨connected, config⟩
  · rcases TCPOverIPv4Adapter.unwrap_of_listening listens ran with
      ⟨-, same⟩ | ⟨tcpSeg, opening, same⟩
    · cases same
      exact ⟨Or.inl ⟨rfl, rfl⟩, fun found heard => nomatch heard⟩
    · cases same
      obtain ⟨from_, original, inside, short, encloses⟩ := genuine
      have other : from_.other = side := by
        rcases side.eq_or_eq_other from_ with rfl | rfl
        · rw [unsent] at inside
          exact absurd inside List.not_mem_nil
        · exact side.other_other
      rw [other] at inside
      have hears : Hears address pool side tcpSeg :=
        hears_of_carries inside other encloses firm short opening.toCarries
      refine ⟨Or.inr ⟨rfl, ?_⟩, ?_⟩
      · have dst := encloses.dst
        have src := encloses.src
        change _ = (address from_.other).ipv4Numeric at dst
        rw [other] at dst
        have sender : from_ = side.other := by rw [← other, Side.other_other]
        change _ = (address from_).ipv4Numeric at src
        rw [sender] at src
        exact congrArg₂ FdAdapterConfig.mk (address_ext dst port) (address_ext src hears.srcPort)
      · rintro _ ⟨⟩
        exact hears.sent

/-- What a host reads was sent by the other peer. -/
theorem read (grounded : internet.Grounded address pool) (distinct : address .left ≠ address .right)
    {packet : Packet} {adapter : TCPOverIPv4OverEthernetAdapter} {seg : Option TCPSegment}
    {packets : List Packet} (inside : packet ∈ internet.wire)
    (ran : (internet.host side).adapter.read packet = .ok (adapter, seg, packets)) :
    (internet.read side adapter seg packets).Grounded address pool ∧
      ∀ found, seg = some found → ∃ original ∈ pool side, ∃ udinfo,
        found = { original with udinfo } := by
  have bears := grounded.wire packet inside
  have outgoing := grounded.outgoing side
  have attached := grounded.attached side
  have sends := grounded.sends side
  cases TCPOverIPv4OverEthernetAdapter.read_ok ran with
  | rejected unread =>
      refine ⟨?_, fun found heard => nomatch heard⟩
      exact (grounded.setHost outgoing attached sends).emit
        fun _ nothing => absurd nothing List.not_mem_nil
  | @kept frame received parsed handled =>
      obtain ⟨emptied, bear⟩ := NetworkInterface.Traces.emptied (sends.stepped genuine_legible
        (NetworkInterface.recvFrame_stepped handled) fun _ _ other => nomatch other)
      have after : (internet.setHost side { internet.host side with
          adapter := { (internet.host side).adapter with interface := received.emptied } }).Grounded
            address pool := grounded.setHost outgoing attached emptied
      exact ⟨after.emit bear, fun found heard => nomatch heard⟩
  | @passedUp frame received ipDgram unwrapped seg parsed handled unwraps =>
      obtain ⟨emptied, bear⟩ := NetworkInterface.Traces.emptied (sends.stepped genuine_legible
        (NetworkInterface.recvFrame_stepped handled) fun _ _ other => nomatch other)
      obtain ⟨within, firmFrame⟩ := bears.received genuine_legible parsed
      obtain ⟨genuine, firm⟩ :=
        NetworkInterface.passed_sound genuine_legible within firmFrame handled
      obtain ⟨becomes, heard⟩ := grounded.unwrapped distinct genuine firm unwraps
      have after : (internet.setHost side { internet.host side with
          peer := seg.toList.foldl TCPPeer.receive (internet.host side).peer
          adapter := ⟨unwrapped, received.emptied, (internet.host side).adapter.nextHop⟩ }).Grounded
            address pool := by
        refine grounded.setHost outgoing ?_ emptied
        rcases becomes with ⟨rfl, rfl⟩ | connected
        · exact attached
        · exact Or.inl connected
      exact ⟨after.emit bear, heard⟩

theorem tick (grounded : internet.Grounded address pool) {msSinceLastTick : UInt64}
    {adapter : TCPOverIPv4OverEthernetAdapter} {packets : List Packet}
    (ran : (internet.host side).adapter.tick msSinceLastTick = .ok (adapter, packets)) :
    (internet.read side adapter none packets).Grounded address pool := by
  have ticked : NetworkInterface.Stepped (internet.host side).adapter.interface
    (.tick msSinceLastTick) _ := .ticked
  obtain ⟨emptied, bear⟩ := NetworkInterface.Traces.emptied
    ((grounded.sends side).stepped genuine_legible ticked fun _ _ other => nomatch other)
  cases ((internet.host side).adapter.tick_eq msSinceLastTick).symm.trans ran
  have after : (internet.setHost side { internet.host side with
      adapter := { (internet.host side).adapter with
        interface := ((internet.host side).adapter.interface.tick msSinceLastTick).emptied } }).Grounded
          address pool := grounded.setHost (grounded.outgoing side) (grounded.attached side) emptied
  exact after.emit bear

/-! ### The routers -/

section Routers

variable [DecidableEq Node] {node : Node}

theorem setRouter (grounded : internet.Grounded address pool) {router : Router}
    (traces : router.Traces (Genuine address pool)) :
    (internet.setRouter node router).Grounded address pool where
  outgoing := grounded.outgoing
  attached := grounded.attached
  sends := grounded.sends
  routers := by
    intro other
    by_cases same : other = node
    · simpa [Internet.setRouter, same] using traces
    · simpa [Internet.setRouter, same] using grounded.routers other
  wire := grounded.wire

theorem setInterface (grounded : internet.Grounded address pool) (num : Nat)
    {interface : AsyncNetworkInterface} (traces : interface.Traces (Genuine address pool)) :
    (internet.setInterface node num interface).Grounded address pool :=
  grounded.setRouter ((grounded.routers node).set traces)

variable {num : Nat} {interface next : AsyncNetworkInterface}

theorem receive (grounded : internet.Grounded address pool) {packet : Packet} {frame : EthernetFrame}
    (inside : packet ∈ internet.wire) (parsed : maybeReceiveFrame packet = .ok (some frame))
    (here : (internet.router node).interfaces[num]? = some interface)
    (ran : interface.recvFrame frame = .ok next) :
    (internet.setInterface node num next).Grounded address pool := by
  obtain ⟨bears, firm⟩ := (grounded.wire packet inside).received genuine_legible parsed
  have traces := grounded.routers node interface (List.mem_of_getElem? here)
  exact grounded.setInterface num (traces.recvFrame genuine_legible bears firm ran)

theorem route (grounded : internet.Grounded address pool) {order : List (UInt64 × UInt64)}
    {router : Router} {calls : List Dispatch}
    (ran : (internet.router node).route order = .ok (router, calls)) :
    (internet.setRouter node router).Grounded address pool :=
  grounded.setRouter ((grounded.routers node).route genuine_legible genuine_relayed ran)

theorem pass (grounded : internet.Grounded address pool) (msSinceLastTick : UInt64)
    (here : (internet.router node).interfaces[num]? = some interface) :
    (internet.setInterface node num
      { interface with toNetworkInterface := interface.toNetworkInterface.tick msSinceLastTick }).Grounded
        address pool := by
  have traces := grounded.routers node interface (List.mem_of_getElem? here)
  have ticked : NetworkInterface.Stepped interface.toNetworkInterface (.tick msSinceLastTick) _ :=
    .ticked
  refine grounded.setInterface num ⟨?_, traces.received⟩
  exact traces.sends.stepped genuine_legible ticked fun _ _ other => nomatch other

theorem transmit (grounded : internet.Grounded address pool) {rest : NetworkInterface}
    {frame : EthernetFrame} (here : (internet.router node).interfaces[num]? = some interface)
    (taken : interface.toNetworkInterface.maybeSend = (rest, some frame)) :
    ((internet.setInterface node num { interface with toNetworkInterface := rest }).emit
      [frame.packet]).Grounded address pool := by
  have traces := grounded.routers node interface (List.mem_of_getElem? here)
  have stepped : NetworkInterface.Stepped interface.toNetworkInterface .maybeSend
    interface.toNetworkInterface.maybeSend.1 := .taken
  have still := traces.sends.stepped genuine_legible stepped fun _ _ other => nomatch other
  rw [taken] at still
  have after := @setInterface _ _ _ _ _ node grounded num { interface with toNetworkInterface := rest }
    ⟨still, traces.received⟩
  refine after.emit (List.forall_mem_singleton.mpr ⟨frame, rfl, traces.sends.queued frame ?_⟩)
  rw [NetworkInterface.maybeSend] at taken
  split at taken
  · cases taken
  · rename_i first others queued
    cases taken
    rw [queued]
    exact List.mem_cons_self

end Routers

/-! ### The peers -/

/-- More was sent, to a host that listens by nobody. -/
theorem mono (grounded : internet.Grounded address pool) {more : Side → List TCPSegment}
    (grown : ∀ side, pool side ⊆ more side)
    (attached : ∀ side, Attached address more side (internet.host side)) :
    internet.Grounded address more where
  outgoing := fun side seg inside => grown _ (grounded.outgoing side seg inside)
  attached := attached
  sends := fun side => (grounded.sends side).mono (genuine_mono grown)
  routers := fun node => (grounded.routers node).mono (genuine_mono grown)
  wire := fun packet inside => (grounded.wire packet inside).mono (genuine_mono grown)

/-- A peer sends, unless its host listens. -/
theorem collected (grounded : internet.Grounded address pool) {peer : TCPPeer}
    {seg : Option TCPSegment} (ran : (internet.host side).peer.maybeSend = .ok (peer, seg)) :
    (internet.collected side peer seg).Grounded address
      (Function.update pool side.other (pool side.other ++ seg.toList)) := by
  have attached := grounded.attached side
  have unmoved : Function.update pool side.other (pool side.other ++ seg.toList) side = pool side :=
    Function.update_of_ne side.other_ne.symm _ _
  have sends : Function.update pool side.other (pool side.other ++ seg.toList) side.other =
      pool side.other ++ seg.toList := Function.update_self _ _ _
  have idle : (internet.host side).adapter.listening = true →
      (internet.host side).peer.Quiet → peer.Quiet ∧ seg = none := by
    intro _ quiet
    cases quiet.maybeSend.symm.trans ran
    exact ⟨quiet, rfl⟩
  have more : internet.Grounded address
      (Function.update pool side.other (pool side.other ++ seg.toList)) := by
    refine grounded.mono (Connection.forall_side side ?_ ?_) (Connection.forall_side side ?_ ?_)
    · rw [unmoved]
      exact List.Subset.refl _
    · rw [sends]
      exact List.subset_append_left _ _
    · refine attached.imp_right fun waiting =>
        ⟨waiting.1, waiting.2.1, waiting.2.2.1, ?_⟩
      rw [sends, waiting.2.2.2, (idle waiting.1 waiting.2.2.1).2]
      rfl
    · rw [Attached, Side.other_other, unmoved, ← Side.other_other side]
      have other := grounded.attached side.other
      rw [Attached, Side.other_other] at other
      simpa using other
  refine more.setHost (List.forall_mem_append.mpr ⟨more.outgoing side, ?_⟩) ?_ (more.sends side)
  · intro new inside
    rw [sends]
    exact List.mem_append_right _ inside
  · exact (more.attached side).imp_right fun waiting =>
      ⟨waiting.1, waiting.2.1, (idle waiting.1 waiting.2.2.1).1, waiting.2.2.2⟩

end Grounded

/-! ## The simulation -/

variable {cfg : Side → TCPConfig} {random : Side → Wrap32} {exchange : Exchange}

/-- The peers of the internet are those of the exchange. -/
structure Related (cfg : Side → TCPConfig) (random : Side → Wrap32) (address : Side → Address)
    (internet : Internet Node) (exchange : Exchange) : Prop where
  peer : ∀ side, (internet.host side).peer = exchange.peer side
  written : internet.written = exchange.written
  taken : internet.taken = exchange.taken
  grounded : internet.Grounded address exchange.incoming
  reached : (Exchange.system cfg random).Reachable exchange

namespace Related

theorem short (related : internet.Related cfg random address exchange) (short : internet.Short) :
    exchange.Short := by
  intro side
  rw [← related.written]
  exact short side

/-- Steps that change no peer. -/
theorem still (related : internet.Related cfg random address exchange) {next : Internet Node}
    (peer : ∀ side, (next.host side).peer = (internet.host side).peer)
    (written : next.written = internet.written) (taken : next.taken = internet.taken)
    (grounded : next.Grounded address exchange.incoming) :
    ∃ later, (Exchange.system cfg random).Steps exchange later ∧
      next.Related cfg random address later :=
  ⟨exchange, Relation.ReflTransGen.refl, fun side => (peer side).trans (related.peer side),
    written.trans related.written, taken.trans related.taken, grounded, related.reached⟩

/-- A step of the exchange that leaves the peers like this. -/
theorem moved (related : internet.Related cfg random address exchange) {next : Internet Node}
    {later : Exchange} (step : exchange.Step later)
    (peer : ∀ side, (next.host side).peer = later.peer side) (written : next.written = later.written)
    (taken : next.taken = later.taken) (grounded : next.Grounded address later.incoming) :
    ∃ later, (Exchange.system cfg random).Steps exchange later ∧
      next.Related cfg random address later :=
  ⟨later, Relation.ReflTransGen.single step, peer, written, taken, grounded,
    related.reached.step step⟩

end Related

theorem Initial.related (initial : internet.Initial cfg random address) :
    internet.Related cfg random address (Exchange.start cfg random) where
  peer := initial.peer
  written := funext initial.written
  taken := funext initial.taken
  reached := TransitionSystem.Reachable.start rfl
  grounded := by
    refine ⟨fun side => ?_, fun side => ?_, fun side => ?_, fun node => ?_, ?_⟩
    · rw [initial.outgoing side]
      exact fun _ inside => absurd inside List.not_mem_nil
    · obtain ⟨config, listening, ethernetAddress, ipAddress, nextHop, same, bound⟩ :=
        initial.adapter side
      rw [Attached, same, initial.peer side]
      cases listening with
      | false => exact Or.inl ⟨rfl, bound⟩
      | true => exact Or.inr ⟨rfl, bound, TCPPeer.new_quiet _ _, rfl⟩
    · obtain ⟨config, listening, ethernetAddress, ipAddress, nextHop, same, -⟩ :=
        initial.adapter side
      rw [same]
      exact NetworkInterface.traces_new _ _
    · intro interface inside
      obtain ⟨ethernetAddress, ipAddress, rfl⟩ := initial.router node interface inside
      exact ⟨NetworkInterface.traces_new _ _, fun _ none => absurd none List.not_mem_nil⟩
    · intro packet inside
      exact ⟨_, initial.wire packet inside, fun type => absurd type (by decide)⟩

namespace Related

theorem call (related : internet.Related cfg random address exchange) {side : Side}
    {op : TCPPeer.Op} {peer : TCPPeer} (own : op.isOwn = true)
    (blocked : Blocked (internet.host side) op) (allowed : (internet.host side).peer.Allows op)
    (ran : (internet.host side).peer.step op = .ok peer) :
    ∃ later, (Exchange.system cfg random).Steps exchange later ∧
      (internet.called side op peer).Related cfg random address later := by
  have after : (internet.setHost side { internet.host side with peer }).Grounded address
      exchange.incoming := by
    refine related.grounded.setPeer fun listens quiet => ?_
    rcases blocked listens with ⟨msSinceLastTick, rfl⟩ | ⟨len, rfl⟩
    · exact quiet.tick ran
    · cases (quiet.read len).symm.trans ran
      exact quiet
  have same := related.peer side
  rw [same] at allowed ran
  refine related.moved (.call own allowed ran) (Connection.forall_side side ?_ ?_) ?_ ?_
    ⟨after.outgoing, after.attached, after.sends, after.routers, after.wire⟩
  · simp [called]
  · simpa [called] using related.peer side.other
  · rw [called, related.written, same]
    rfl
  · rw [called, related.taken, same]
    rfl

theorem collect (related : internet.Related cfg random address exchange) {side : Side}
    {peer : TCPPeer} {seg : Option TCPSegment}
    (ran : (internet.host side).peer.maybeSend = .ok (peer, seg)) :
    ∃ later, (Exchange.system cfg random).Steps exchange later ∧
      (internet.collected side peer seg).Related cfg random address later := by
  have after := related.grounded.collected ran
  rw [related.peer side] at ran
  refine related.moved (.send ran) (Connection.forall_side side ?_ ?_) related.written related.taken
    after
  · simp [collected, Exchange.sent]
  · simpa [collected, Exchange.sent] using related.peer side.other

/-- What a host reads is delivered to its peer. -/
theorem read (related : internet.Related cfg random address exchange)
    (distinct : address .left ≠ address .right) {side : Side} {packet : Packet}
    {adapter : TCPOverIPv4OverEthernetAdapter} {seg : Option TCPSegment} {packets : List Packet}
    (inside : packet ∈ internet.wire)
    (ran : (internet.host side).adapter.read packet = .ok (adapter, seg, packets)) :
    ∃ later, (Exchange.system cfg random).Steps exchange later ∧
      (internet.read side adapter seg packets).Related cfg random address later := by
  obtain ⟨after, heard⟩ := related.grounded.read distinct inside ran
  cases seg with
  | none =>
      refine related.still (Connection.forall_side side ?_ ?_) rfl rfl after
      · simp [Internet.read]
      · simp [Internet.read]
  | some found =>
      obtain ⟨original, sent, udinfo, rfl⟩ := heard found rfl
      refine related.moved (.deliver sent) (Connection.forall_side side ?_ ?_) related.written
        related.taken after
      · simpa [Internet.read, Exchange.delivered, TCPPeer.receive_udinfo] using
          congrArg (TCPPeer.receive · original) (related.peer side)
      · simpa [Internet.read, Exchange.delivered] using related.peer side.other

end Related

variable [DecidableEq Node]

/-- What is written or taken stays so. -/
theorem prefix_step {next : Internet Node} (step : internet.Step next) (side : Side) :
    internet.written side <+: next.written side ∧ internet.taken side <+: next.taken side := by
  cases step with
  | @call caller op peer own blocked allowed ran =>
      rcases caller.eq_or_eq_other side with rfl | rfl
      · simp [called]
      · simp [called, Function.update_of_ne caller.other_ne]
  | relay relays =>
      cases relays with
      | _ => exact ⟨List.prefix_refl _, List.prefix_refl _⟩
  | _ => exact ⟨List.prefix_refl _, List.prefix_refl _⟩

/-- What the hosts and the routers do together, two peers do over a network that loses, duplicates
and reorders segments. -/
theorem simulates_exchange (cfg : Side → TCPConfig) (random : Side → Wrap32)
    (address : Side → Address) (distinct : address .left ≠ address .right) :
    (system cfg random address : TransitionSystem (Internet Node)).Simulates
      (Exchange.system cfg random) Short (Related cfg random address) where
  monotone := by
    intro internet next step short side
    have grown := (prefix_step step side).1.length_le
    have bound := short side
    omega
  initial := fun internet initial => ⟨Exchange.start cfg random, rfl, Initial.related initial⟩
  matched := by
    intro internet next exchange related step short
    have grounded := related.grounded
    cases step with
    | call own blocked allowed ran => exact related.call own blocked allowed ran
    | collect ran => exact related.collect ran
    | @write side seg rest adapter packets first ran =>
        have joint := (Exchange.joint_keeps cfg random).reachable related.reached (related.short short)
        refine related.still (Connection.forall_side side ?_ ?_) rfl rfl
          (grounded.wrote (joint.payload_le (related.short short) side.other) first ran)
        · simp [wrote]
        · simp [wrote]
    | read inside ran => exact related.read distinct inside ran
    | @tick side msSinceLastTick adapter packets ran =>
        refine related.still (Connection.forall_side side ?_ ?_) rfl rfl (grounded.tick ran)
        · simp [Internet.read]
        · simp [Internet.read]
    | relay relays =>
        cases relays with
        | receive inside parsed here ran =>
            exact related.still (fun _ => rfl) rfl rfl (grounded.receive inside parsed here ran)
        | route ran => exact related.still (fun _ => rfl) rfl rfl (grounded.route ran)
        | pass msSinceLastTick here =>
            exact related.still (fun _ => rfl) rfl rfl (grounded.pass msSinceLastTick here)
        | transmit here taken =>
            exact related.still (fun _ => rfl) rfl rfl (grounded.transmit here taken)

/-- What each side has received, and what the other one knows of it. -/
theorem delivers (distinct : address .left ≠ address .right)
    (reached : (system cfg random address).Reachable internet) (short : internet.Short)
    (side : Side) :
    internet.received side <+: internet.written side.other ∧
      ((internet.host side).peer.inboundStream.isClosed = true →
        internet.received side = internet.written side.other ∧
          (internet.host side.other).peer.outboundStream.isClosed = true) ∧
      (internet.host side.other).peer.sender.windowLeft ≤ 1 + (internet.received side).length +
        (internet.host side).peer.inboundStream.isClosed.toNat ∧
      (internet.host side).peer.inboundStream.hasError = false := by
  obtain ⟨exchange, -, related⟩ :=
    (simulates_exchange cfg random address distinct).reachable reached short
  have joint := (Exchange.joint_keeps cfg random).reachable related.reached (related.short short)
  have delivers := joint.delivers side
  have fine := (joint.fine side).1
  rw [Exchange.received, ← related.written, ← related.taken, ← related.peer, ← related.peer]
    at delivers
  rw [← related.peer] at fine
  exact ⟨delivers.1, delivers.2.1, delivers.2.2, fine⟩

/-- Two hosts that talk to each other over Ethernet, ARP, IPv4 and any routers, over links that
lose, duplicate and reorder packets, receive in order what the other one has written.  A stream
is closed only when that is all and the other stream is closed, the other sender takes nothing for
acknowledged that is not received, and no stream signals an error. -/
theorem delivers_end_to_end (cfg : Side → TCPConfig) (random : Side → Wrap32)
    (address : Side → Address) (distinct : address .left ≠ address .right)
    (internet : Internet Node) (reached : (system cfg random address).Reachable internet)
    (short : internet.Short) (side : Side) :
    internet.received side <+: internet.written side.other ∧
      ((internet.host side).peer.inboundStream.isClosed = true →
        internet.received side = internet.written side.other ∧
          (internet.host side.other).peer.outboundStream.isClosed = true) ∧
      (internet.host side.other).peer.sender.windowLeft ≤ 1 + (internet.received side).length +
        (internet.host side).peer.inboundStream.isClosed.toNat ∧
      (internet.host side).peer.inboundStream.hasError = false :=
  delivers distinct reached short side

/-! ### A letter through a router -/

def twoAddresses : Side → Address
  | .left => ⟨0x0a000001, 1000⟩
  | .right => ⟨0x0a000102, 2000⟩

/-- The left host connects, the right one listens. -/
def twoHosts : Side → Host
  | .left => ⟨TCPPeer.new { fixedIsn := some ⟨0⟩ } ⟨0⟩, [],
      .new ⟨twoAddresses .left, twoAddresses .right⟩ false (List.Vector.replicate 6 2)
        0x0a000001 0x0a0000fe⟩
  | .right => ⟨TCPPeer.new { fixedIsn := some ⟨0⟩ } ⟨0⟩, [],
      .new ⟨twoAddresses .right, ⟨0, 0⟩⟩ true (List.Vector.replicate 6 4) 0x0a000102 0x0a0001fe⟩

def twoNetworks : List AddRoute :=
  [⟨⟨0x0a000000, 24⟩, none, 0⟩, ⟨⟨0x0a000100, 24⟩, none, 1⟩]

def twoHostsApart : Internet Unit where
  host := twoHosts
  router := fun _ => twoNetworks.foldl Router.addRoute
    ⟨[.new (.new (List.Vector.replicate 6 6) 0x0a0000fe),
      .new (.new (List.Vector.replicate 6 8) 0x0a0001fe)], .new⟩
  wire := []
  written := fun _ => []
  taken := fun _ => []

/-- Both hosts and the router ask for addresses, and the peers synchronize, before the letter
passes. -/
def letterPasses : List (Event Unit) :=
  let order := twoNetworks.map fun call => (call.route.concat, call.interfaceNum)
  [.call .left (.write [97]), .call .left .push, .collect .left, .write .left, .receive () 0 0,
    .transmit () 0, .read .left 1, .receive () 0 2,
    .route () order, .transmit () 1, .read .right 3, .receive () 1 4, .transmit () 1,
    .read .right 5, .collect .right, .write .right, .receive () 1 6, .route () order,
    .transmit () 0, .read .left 7, .collect .left, .write .left, .receive () 0 8,
    .route () order, .transmit () 1, .read .right 9]

theorem letter_reached :
    ∃ internet : Internet Unit,
      (system (fun _ => { fixedIsn := some ⟨0⟩ }) (fun _ => ⟨0⟩) twoAddresses).Reachable internet ∧
        internet.received .right = [97] ∧ internet.written .left = [97] ∧
        internet.written .right = [] := by
  have initial : Initial (fun _ => { fixedIsn := some ⟨0⟩ }) (fun _ => ⟨0⟩) twoAddresses
      twoHostsApart := by
    refine ⟨?_, ?_, ?_, fun _ => ?_, ?_, fun _ => rfl, fun _ => rfl⟩
    · rintro (_ | _) <;> rfl
    · rintro (_ | _) <;> rfl
    · rintro (_ | _)
      · exact ⟨_, false, _, _, _, rfl, rfl⟩
      · exact ⟨_, true, _, _, _, rfl, rfl⟩
    · exact List.forall_mem_cons.mpr ⟨⟨_, _, rfl⟩, List.forall_mem_singleton.mpr ⟨_, _, rfl⟩⟩
    · exact fun _ inside => absurd inside List.not_mem_nil
  have passes : (letterPasses.foldlM happen twoHostsApart).map (fun internet =>
      (internet.received .right, internet.written .left, internet.written .right)) =
        some ([97], [97], []) := by
    decide +kernel
  obtain ⟨final, happened, same⟩ := Option.map_eq_some_iff.mp passes
  have reached := (@TransitionSystem.Reachable.start _ (system _ _ _) twoHostsApart initial).steps
    (steps_of_happen happened)
  obtain ⟨received, written⟩ := Prod.mk.inj same
  exact ⟨final, reached, received, Prod.mk.inj written⟩

theorem delivers_end_to_end_letter :
    ∃ internet : Internet Unit, internet.received .right = [97] ∧
      internet.received .right <+: internet.written .left ∧
      (internet.host .left).peer.sender.windowLeft ≤
        2 + (internet.host .right).peer.inboundStream.isClosed.toNat := by
  obtain ⟨internet, reached, received, left, right⟩ := letter_reached
  have short : internet.Short :=
    Connection.forall_side .left (by rw [left]; decide) (by rw [Side.other, right]; decide)
  have delivers := delivers_end_to_end _ _ twoAddresses (by decide) internet reached short .right
  have known := delivers.2.2.1
  rw [received] at known
  exact ⟨internet, received, delivers.1, known⟩

end Internet

end Minnow.Stack
