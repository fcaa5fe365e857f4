import Minnow.Link.ArpPacing
import Minnow.Link.DatagramLedger

/-!
# Datagrams that wait

A datagram waits only for a next hop that is off record, and since a call that asked for it.
The message that tells the address of the next hop lets go all that waits for it.
-/

namespace Minnow.Link

open Foundation Foundation.Runs Wire

namespace NetworkInterface

/-- No queue is kept that holds nothing. -/
def QueuesFilled (interface : NetworkInterface) : Prop :=
  ∀ hop, interface.datagramCache.at? hop ≠ some []

/-- The datagram is the first of those that wait for the next hop. -/
def WaitsFirst (hop : UInt32) (dgram : InternetDatagram) (interface : NetworkInterface) : Prop :=
  ∃ rest, interface.datagramCache.at? hop = some (dgram :: rest)

/-- What a call that lets a datagram wait does when nothing waits for the next hop so far. -/
structure Opens (interface : NetworkInterface) (hop : UInt32) (dgram : InternetDatagram)
    (next : NetworkInterface) : Prop where
  empty : interface.datagramCache.at? hop = none
  asked : interface.asksSince next = [hop]
  alone : next.datagramCache.at? hop = some [dgram]

/-- All that waits for the sender of a message goes out, in the order it came, and nothing is
left to wait for it.  A reply can follow. -/
def LetsGo (interface : NetworkInterface) (message : ARPMessage) (next : NetworkInterface) : Prop :=
  ∃ (payloads : List (List Buffer)) (replies : List EthernetFrame),
    (interface.cachedFor message.senderIpAddress).map (fun dgram => serialize dgram.serialize) =
      payloads.map .ok ∧
    next.sendQueue = interface.sendQueue ++
      payloads.map (interface.datagramFrame message.senderEthernetAddress) ++ replies ∧
    (∀ frame ∈ replies, frame.header.type = EthernetHeader.TYPE_ARP) ∧
    next.datagramCache = interface.datagramCache.erase message.senderIpAddress

variable {interface next : NetworkInterface} {op : Op} {hop : UInt32} {dgram : InternetDatagram}

theorem cachedFor_of_at? {cacheQueue : List InternetDatagram}
    (cached : interface.datagramCache.at? hop = some cacheQueue) :
    interface.cachedFor hop = cacheQueue := by
  rw [cachedFor, cached]
  rfl

/-! ## One call -/

/-- What a call makes of the queue for a next hop: nothing, a queue with one datagram more for
which it asks, or none. -/
inductive Requeues (interface : NetworkInterface) (hop : UInt32) :
    Op → NetworkInterface → Prop where
  | same {op : Op} {next : NetworkInterface}
      (unchanged : next.datagramCache.at? hop = interface.datagramCache.at? hop) :
      Requeues interface hop op next
  | joined {dgram : InternetDatagram} {next : NetworkInterface}
      (asked : interface.asksSince next = [hop])
      (longer : next.datagramCache.at? hop = some (interface.cachedFor hop ++ [dgram])) :
      Requeues interface hop (.send dgram hop) next
  | gone {op : Op} {next : NetworkInterface} (empty : next.datagramCache.at? hop = none) :
      Requeues interface hop op next

theorem requeues_of_act (acted : interface.act op = .ok next) (hop : UInt32) :
    Requeues interface hop op next := by
  cases stepped_of_act acted with
  | sent known written => exact .same rfl
  | @requested dgram nextHop _ unknown due written =>
      by_cases own : hop = nextHop
      · subst own
        exact .joined (asksSince_await written) (Table.at?_assign_self _ _ _)
      · exact .same (Table.at?_assign_of_ne _ _ own)
  | dropped unknown pending => exact .same rfl
  | passedUp => exact .same rfl
  | @learned _ message _ _ parsed written answered =>
      by_cases own : hop = message.senderIpAddress
      · subst own
        exact .gone (Table.at?_erase_self _ _)
      · exact .same (Table.at?_erase_of_ne _ own)
  | ticked => exact .same (by rw [datagramCache_tick])
  | taken =>
      refine .same ?_
      rw [maybeSend]
      split <;> rfl

theorem queuesFilled_step (filled : interface.QueuesFilled) (acted : interface.act op = .ok next) :
    next.QueuesFilled := by
  intro hop drained
  cases requeues_of_act acted hop with
  | same unchanged => exact filled hop (unchanged.symm.trans drained)
  | joined asked longer =>
      exact List.append_ne_nil_of_right_ne_nil _ (List.cons_ne_nil _ _)
        (Option.some.inj (longer.symm.trans drained))
  | gone empty =>
      rw [empty] at drained
      cases drained

/-- A datagram comes to wait first when it is sent and asked for with nothing waiting. -/
theorem opens_of_act (filled : interface.QueuesFilled) (acted : interface.act op = .ok next)
    (before : ¬ interface.WaitsFirst hop dgram) (after : next.WaitsFirst hop dgram) :
    op = .send dgram hop ∧ Opens interface hop dgram next := by
  obtain ⟨rest, waits⟩ := after
  cases requeues_of_act acted hop with
  | same unchanged => exact absurd ⟨rest, unchanged.symm.trans waits⟩ before
  | gone empty =>
      rw [empty] at waits
      cases waits
  | @joined other _ asked longer =>
      have joined := Option.some.inj (longer.symm.trans waits)
      cases cached : interface.datagramCache.at? hop with
      | none =>
          rw [cachedFor, cached] at joined longer
          cases joined
          exact ⟨rfl, cached, asked, longer⟩
      | some cacheQueue =>
          cases cacheQueue with
          | nil => exact absurd cached (filled hop)
          | cons first others =>
              rw [cachedFor_of_at? cached] at joined
              cases joined
              exact absurd ⟨others, cached⟩ before

/-- The datagrams that wait were passed to the interface for their next hop. -/
theorem passed_step {ops : List Op}
    (passed : ∀ dgram ∈ interface.cachedFor hop, Op.send dgram hop ∈ ops)
    (acted : interface.act op = .ok next) :
    ∀ dgram ∈ next.cachedFor hop, Op.send dgram hop ∈ ops ++ [op] := by
  intro dgram inside
  cases requeues_of_act acted hop with
  | same unchanged =>
      rw [cachedFor, unchanged] at inside
      exact List.mem_append_left _ (passed dgram inside)
  | joined asked longer =>
      rw [cachedFor_of_at? longer] at inside
      rcases List.mem_append.mp inside with old | new
      · exact List.mem_append_left _ (passed dgram old)
      · rw [List.mem_singleton.mp new]
        exact List.mem_append_right _ List.mem_cons_self
  | gone empty =>
      rw [cachedFor, empty] at inside
      exact absurd inside List.not_mem_nil

/-! ## Letting go -/

theorem letsGo_of_received {frame : EthernetFrame} {message : ARPMessage}
    (heard : interface.heard frame = some message) (received : Received interface frame next) :
    interface.LetsGo message next := by
  cases received with
  | silent unheard =>
      rw [unheard] at heard
      cases heard
  | learned alsoHeard learned =>
      cases heard.symm.trans alsoHeard
      obtain ⟨written, answered⟩ := learned
      refine ⟨_, _, written, (List.append_assoc _ _ _).symm, ?_, rfl⟩
      cases answered with
      | silent ignored => exact fun frame inside => absurd inside List.not_mem_nil
      | reply asked replied =>
          intro frame inside
          rw [List.mem_singleton.mp inside]
          rfl

theorem pushAll_returns {dgrams : List InternetDatagram} (dst : EthernetAddress)
    (version : ∀ dgram ∈ dgrams, dgram.header.ver = 4) (interface : NetworkInterface) :
    ∃ next, dgrams.foldlM (fun interface dgram => interface.pushDatagram dgram dst) interface =
      .ok next := by
  induction dgrams generalizing interface with
  | nil => exact ⟨interface, rfl⟩
  | cons dgram rest ih =>
      obtain ⟨payload, written⟩ := IPv4Datagram.serialize_of_ver (version dgram List.mem_cons_self)
      have pushed : interface.pushDatagram dgram dst = .ok _ :=
        Fault.bind_eq_ok.mpr ⟨payload, written, rfl⟩
      obtain ⟨next, ran⟩ := ih (fun other inside => version other (List.mem_cons_of_mem _ inside)) _
      exact ⟨next, Fault.bind_eq_ok.mpr ⟨_, pushed, ran⟩⟩

theorem flushCache_returns {ip : UInt32} (dst : EthernetAddress)
    (version : ∀ dgram ∈ interface.cachedFor ip, dgram.header.ver = 4) :
    ∃ next, interface.flushCache ip dst = .ok next := by
  rw [flushCache]
  cases cached : interface.datagramCache.at? ip with
  | none => exact ⟨interface, rfl⟩
  | some cacheQueue =>
      rw [cachedFor_of_at? cached] at version
      obtain ⟨sent, pushed⟩ := pushAll_returns dst version interface
      exact ⟨_, Fault.bind_eq_ok.mpr ⟨sent, pushed, rfl⟩⟩

/-- A message is taken in without fault when what waits for its sender can be written. -/
theorem recvFrame_returns {frame : EthernetFrame} {message : ARPMessage}
    (heard : interface.heard frame = some message)
    (version : ∀ dgram ∈ interface.cachedFor message.senderIpAddress, dgram.header.ver = 4) :
    ∃ result, interface.recvFrame frame = .ok result := by
  obtain ⟨taken, type, parsed⟩ := heard_eq_some.mp heard
  obtain ⟨flushed, flushing⟩ := @flushCache_returns (interface.learn message)
    message.senderIpAddress message.senderEthernetAddress version
  have answering : ∃ next, (if message.opcode == ARPMessage.OPCODE_REQUEST &&
        flushed.addressMap.contains message.targetIpAddress then
      flushed.pushArpReply message.targetIpAddress message.senderIpAddress
    else (.ok flushed : Except Fault NetworkInterface)) = .ok next := by
    split
    · exact pushArp_returns (Or.inr rfl) _ _ _
    · exact ⟨flushed, rfl⟩
  obtain ⟨next, answered⟩ := answering
  have handled : interface.handleArp frame = .ok next :=
    Fault.bind_eq_ok.mpr ⟨some message, parsed, Fault.bind_eq_ok.mpr ⟨flushed, flushing, answered⟩⟩
  have missed : (!isEqual frame.header.dst interface.ethernetAddress &&
      !isEqual frame.header.dst ETHERNET_BROADCAST) = false := by
    rw [← Bool.not_or]
    change (!interface.takes frame) = false
    rw [taken]
    rfl
  refine ⟨(next, none), ?_⟩
  rw [recvFrame, missed, type]
  exact Fault.bind_eq_ok.mpr ⟨next, handled, rfl⟩

/-- A datagram of IP version 4, or a frame that is parsed or refused. -/
def Op.Fit : Op → Prop
  | .send dgram _ => dgram.header.ver = 4
  | .recv frame => (∃ passed, parse (IPv4Datagram.parse {}) frame.payload = .ok passed) ∧
      ∃ message, parse (ARPMessage.parse {}) frame.payload = .ok message
  | _ => True

theorem act_returns (fit : op.Fit)
    (version : ∀ hop, ∀ dgram ∈ interface.cachedFor hop, dgram.header.ver = 4) :
    ∃ next, interface.act op = .ok next := by
  cases op with
  | send dgram nextHop => exact sendDatagram_returns fit nextHop
  | tick msSinceLastTick => exact ⟨_, rfl⟩
  | maybeSend => exact ⟨_, rfl⟩
  | recv frame =>
      have returns : ∃ result, interface.recvFrame frame = .ok result := by
        cases heard : interface.heard frame with
        | some message => exact recvFrame_returns heard (version message.senderIpAddress)
        | none =>
            obtain ⟨⟨passed, datagram⟩, message, parsed⟩ := fit
            rw [recvFrame]
            split_ifs with missed isDatagram isArp
            · exact ⟨_, rfl⟩
            · exact ⟨_, Fault.bind_eq_ok.mpr ⟨passed, datagram, rfl⟩⟩
            · have taken : interface.takes frame = true := by
                rw [← Bool.not_or, Bool.not_eq_true', Bool.not_eq_false] at missed
                exact missed
              have unheard := heard_of_takes taken (beq_iff_eq.mp isArp) parsed
              rw [unheard.symm.trans heard] at parsed
              have handled : interface.handleArp frame = .ok interface :=
                Fault.bind_eq_ok.mpr ⟨none, parsed, rfl⟩
              exact ⟨_, Fault.bind_eq_ok.mpr ⟨interface, handled, rfl⟩⟩
            · exact ⟨_, rfl⟩
      obtain ⟨result, received⟩ := returns
      exact ⟨result.1, Fault.map_eq_ok.mpr ⟨result, received, rfl⟩⟩

/-! ## Whole runs -/

/-- The datagram has been the first to wait for the next hop since the call that passed it,
which asked for the next hop. -/
def WaitsSince (start : NetworkInterface) (ops : List Op) (hop : UInt32)
    (dgram : InternetDatagram) : Prop :=
  ∃ before after earlier asked, ops = before ++ .send dgram hop :: after ∧
    attempt act start before = .ok earlier ∧ earlier.act (.send dgram hop) = .ok asked ∧
    Opens earlier hop dgram asked ∧ EachReached act (WaitsFirst hop dgram) asked after

/-- What holds of the interface that a run has led to. -/
structure Orderly (start : NetworkInterface) (ops : List Op) (interface : NetworkInterface) :
    Prop where
  disjoint : ∀ hop, interface.addressMap.contains hop = true →
    interface.datagramCache.contains hop = false
  oldest : ∀ hop cacheQueue, interface.datagramCache.at? hop = some cacheQueue →
    ∃ oldest rest, cacheQueue = oldest :: rest ∧ WaitsSince start ops hop oldest
  passed : ∀ hop, ∀ dgram ∈ interface.cachedFor hop, Op.send dgram hop ∈ ops
  letsGo : ∀ frame message next passed, interface.heard frame = some message →
    interface.recvFrame frame = .ok (next, passed) → interface.LetsGo message next
  returns : ∀ frame message, interface.heard frame = some message →
    (∀ dgram ∈ interface.cachedFor message.senderIpAddress, dgram.header.ver = 4) →
    ∃ result, interface.recvFrame frame = .ok result

section Runs

variable {ethernetAddress : EthernetAddress} {ipAddress : UInt32} {ops : List Op}

theorem queuesFilled_of_attempt
    (ran : attempt act (new ethernetAddress ipAddress) ops = .ok interface) :
    interface.QueuesFilled := by
  refine attempt_invariant QueuesFilled
    (fun state op next filled acted => queuesFilled_step filled acted) ?_ ran
  rintro hop ⟨⟩

theorem disjoint_of_attempt
    (ran : attempt act (new ethernetAddress ipAddress) ops = .ok interface) :
    interface.Disjoint :=
  attempt_invariant Disjoint (fun _ _ _ disjoint acted => disjoint.step (stepped_of_act acted))
    (disjoint_new ethernetAddress ipAddress) ran

theorem passed_of_attempt
    (ran : attempt act (new ethernetAddress ipAddress) ops = .ok interface) :
    ∀ dgram ∈ interface.cachedFor hop, Op.send dgram hop ∈ ops := by
  induction ops using List.reverseRecOn generalizing interface with
  | nil =>
      cases ran
      exact fun dgram inside => absurd inside List.not_mem_nil
  | append_singleton ops op ih =>
      obtain ⟨middle, before, last⟩ := attempt_snoc_ok ran
      exact passed_step (ih before) last

theorem waitsSince_of_attempt
    (ran : attempt act (new ethernetAddress ipAddress) ops = .ok interface)
    (waits : interface.WaitsFirst hop dgram) :
    WaitsSince (new ethernetAddress ipAddress) ops hop dgram := by
  have absent : ¬ (new ethernetAddress ipAddress).WaitsFirst hop dgram := by
    rintro ⟨rest, ⟨⟩⟩
  obtain ⟨before, op, after, earlier, asked, split, begins, not, acted, -, each⟩ :=
    attempt_since (WaitsFirst hop dgram) ran absent waits
  obtain ⟨rfl, opens⟩ := opens_of_act (queuesFilled_of_attempt begins) acted not each.start
  exact ⟨before, after, earlier, asked, split, begins, acted, opens, each⟩

theorem orderly_of_attempt
    (ran : attempt act (new ethernetAddress ipAddress) ops = .ok interface) :
    Orderly (new ethernetAddress ipAddress) ops interface where
  disjoint := by
    intro hop known
    obtain ⟨entry, present⟩ := Table.contains_eq_true.mp known
    exact Table.contains_eq_false.mpr (disjoint_of_attempt ran hop entry present)
  oldest := by
    intro hop cacheQueue cached
    cases cacheQueue with
    | nil => exact absurd cached (queuesFilled_of_attempt ran hop)
    | cons oldest rest => exact ⟨oldest, rest, rfl, waitsSince_of_attempt ran ⟨rest, cached⟩⟩
  passed := fun _ => passed_of_attempt ran
  letsGo := fun _ _ _ _ heard received => letsGo_of_received heard (recvFrame_received received)
  returns := fun _ _ heard version => recvFrame_returns heard version

/-- Runs of fit calls return. -/
theorem attempt_returns (fit : ∀ op ∈ ops, op.Fit) :
    ∃ interface, attempt act (new ethernetAddress ipAddress) ops = .ok interface := by
  induction ops using List.reverseRecOn with
  | nil => exact ⟨_, rfl⟩
  | append_singleton ops op ih =>
      obtain ⟨interface, ran⟩ := ih fun other inside => fit other (List.mem_append_left _ inside)
      have version : ∀ hop, ∀ dgram ∈ interface.cachedFor hop, dgram.header.ver = 4 :=
        fun hop dgram inside => fit _ (List.mem_append_left _ (passed_of_attempt ran dgram inside))
      obtain ⟨next, acted⟩ := act_returns (fit op (by simp)) version
      exact ⟨next, attempt_snoc_of_ok ran acted⟩

end Runs

/-- After every run that returns no datagram waits for a next hop on record, no queue is empty,
and the first datagram of each has waited since a call that asked for its next hop.  A message
that is accepted lets go all that waits for its sender.  Runs of fit calls return. -/
theorem run_orderly (ethernetAddress : EthernetAddress) (ipAddress : UInt32) (ops : List Op) :
    (∀ interface, attempt act (new ethernetAddress ipAddress) ops = .ok interface →
      Orderly (new ethernetAddress ipAddress) ops interface) ∧
    ((∀ op ∈ ops, op.Fit) →
      ∃ interface, attempt act (new ethernetAddress ipAddress) ops = .ok interface) :=
  ⟨fun _ ran => orderly_of_attempt ran, attempt_returns⟩

/-- A datagram for the third host, which then is heard. -/
theorem run_orderly_third :
    ∃ interface message result,
      attempt act (new ⟨[2, 0, 0, 0, 0, 1], rfl⟩ 0x0a000001) [.send {} 0x0a000003] =
        .ok interface ∧
      interface.heard Answering.askForSecond = some message ∧
      interface.recvFrame Answering.askForSecond = .ok result ∧ interface.LetsGo message result.1 := by
  obtain ⟨orderly, returns⟩ :=
    run_orderly ⟨[2, 0, 0, 0, 0, 1], rfl⟩ 0x0a000001 [.send {} 0x0a000003]
  obtain ⟨interface, ran⟩ := returns (by
    intro op inside
    rw [List.mem_singleton.mp inside]
    rfl)
  cases ran
  obtain ⟨result, received⟩ := (orderly _ rfl).returns Answering.askForSecond _ rfl (by
    intro dgram inside
    rw [List.mem_singleton.mp inside])
  exact ⟨_, _, result, rfl, rfl, received, (orderly _ rfl).letsGo _ _ _ _ rfl received⟩

end NetworkInterface

end Minnow.Link
