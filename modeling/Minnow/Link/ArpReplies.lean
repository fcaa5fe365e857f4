import Minnow.Link.AddressHistory

/-!
# Replies

A request is answered when its target is on record, and hosts come on record as they are
heard.  So the interface answers for other hosts too, in the runs in which a request for
one of them comes in while it is on record.
-/

namespace Minnow.Link

open Foundation Foundation.Runs Wire NetworkInterface

/-- An interface, and the frames it queued when it received a frame, each beside it. -/
structure Answering where
  interface : NetworkInterface
  answered : List (EthernetFrame × EthernetFrame)

namespace NetworkInterface

/-- An Ethernet frame that holds an ARP reply. -/
def IsReply (frame : EthernetFrame) : Prop :=
  frame.header.type = EthernetHeader.TYPE_ARP ∧
    ∃ message, parse (ARPMessage.parse {}) frame.payload = .ok (some message) ∧
      message.opcode = ARPMessage.OPCODE_REPLY

/-- The frame, to the interface or to all, holds an ARP request for the own IP address. -/
def AsksForItself (interface : NetworkInterface) (frame : EthernetFrame) : Prop :=
  (frame.header.dst = interface.ethernetAddress ∨ frame.header.dst = ETHERNET_BROADCAST) ∧
    ∃ message, parse (ARPMessage.parse {}) frame.payload = .ok (some message) ∧
      message.opcode = ARPMessage.OPCODE_REQUEST ∧
      message.targetIpAddress = interface.ipAddress

/-- The message asks for another host, which is on record or its own sender. -/
def AsksForKnown (interface : NetworkInterface) (message : ARPMessage) : Prop :=
  message.opcode = ARPMessage.OPCODE_REQUEST ∧ message.targetIpAddress ≠ interface.ipAddress ∧
    (message.targetIpAddress = message.senderIpAddress ∨
      interface.addressMap.contains message.targetIpAddress = true)

variable {interface next : NetworkInterface} {frame : EthernetFrame} {message : ARPMessage}

theorem isEqual_iff {lhs rhs : EthernetAddress} : isEqual lhs rhs = true ↔ lhs = rhs := by
  rw [isEqual, List.all_eq_true]
  constructor
  · intro all
    ext i
    exact congrArg UInt8.toNat (beq_iff_eq.mp (all i (List.mem_finRange i)))
  · rintro rfl i -
    exact beq_self_eq_true _

theorem takes_iff : interface.takes frame = true ↔
    frame.header.dst = interface.ethernetAddress ∨ frame.header.dst = ETHERNET_BROADCAST := by
  rw [takes, Bool.or_eq_true, isEqual_iff, isEqual_iff]

/-- The target is on record once the message is learned. -/
theorem answers_learn_iff : (interface.learn message).answers message = true ↔
    message.opcode = ARPMessage.OPCODE_REQUEST ∧
      (message.targetIpAddress = message.senderIpAddress ∨
        interface.addressMap.contains message.targetIpAddress = true) := by
  rw [answers, Bool.and_eq_true, beq_iff_eq]
  apply and_congr_right
  intro _
  change Table.contains (Table.assign _ _ _) _ = true ↔ _
  by_cases same : message.targetIpAddress = message.senderIpAddress
  · rw [same, Table.contains, Table.at?_assign_self]
    exact iff_of_true rfl (Or.inl rfl)
  · rw [Table.contains, Table.at?_assign_of_ne _ _ same, ← Table.contains]
    exact ⟨Or.inr, fun known => known.resolve_left same⟩

/-- The frames in the send queue of the second interface behind those of the first. -/
def queuedSince (before after : NetworkInterface) : List EthernetFrame :=
  after.sendQueue.drop before.sendQueue.length

/-- What receiving a frame queues, a reply among it just if a message is answered. -/
theorem queuedSince_received (received : Received interface frame next) :
    (∀ queued ∈ interface.queuedSince next, interface.Emits (.recv frame) queued) ∧
      ∀ message, interface.heard frame = some message →
        (interface.learn message).answers message = true →
        ∃ queued ∈ interface.queuedSince next, IsReply queued := by
  cases received with
  | silent unheard =>
      rw [queuedSince, List.drop_length]
      refine ⟨fun _ inside => absurd inside List.not_mem_nil, ?_⟩
      exact fun _ heard => nomatch unheard.symm.trans heard
  | @learned message _ heard learned =>
      obtain ⟨frames, queue, emits, answer⟩ := learned.queued heard
      rw [queuedSince, queue, List.drop_left]
      refine ⟨emits, ?_⟩
      intro other same asked
      cases heard.symm.trans same
      obtain ⟨payload, written, inside⟩ := answer asked
      exact ⟨_, inside, rfl, _, parse_arpMessage (Or.inr rfl) written, rfl⟩

/-- Only a request is answered with a reply, one that asks for a host on record. -/
theorem answers_of_reply {queued : EthernetFrame} (emits : interface.Emits (.recv frame) queued)
    (reply : IsReply queued) : ∃ message, interface.heard frame = some message ∧
      (interface.learn message).answers message = true := by
  obtain ⟨type, message, parsed, opcode⟩ := reply
  cases emits with
  | datagram isIPv4 => exact absurd (isIPv4.symm.trans type) (by decide)
  | request written =>
      change parse (ARPMessage.parse {}) _ = _ at parsed
      cases (parse_arpMessage (Or.inl rfl) written).symm.trans parsed
      exact absurd opcode (show ARPMessage.OPCODE_REQUEST ≠ ARPMessage.OPCODE_REPLY by decide)
  | reply heard asked written => exact ⟨_, heard, asked⟩

end NetworkInterface

namespace Answering

def new (ethernetAddress : EthernetAddress) (ipAddress : UInt32) : Answering :=
  ⟨NetworkInterface.new ethernetAddress ipAddress, []⟩

/-- The record after a call that left the interface as `next`. -/
def record (answering : Answering) (op : Op) (next : NetworkInterface) : Answering where
  interface := next
  answered :=
    match op with
    | .recv frame => answering.answered ++ (answering.interface.queuedSince next).map (frame, ·)
    | _ => answering.answered

def step (answering : Answering) (op : Op) : Except Fault Answering :=
  answering.record op <$> answering.interface.act op

/-- Every reply queued was asked of the interface for itself. -/
def OnlyForItself (answering : Answering) : Prop :=
  ∀ entry ∈ answering.answered, IsReply entry.2 → answering.interface.AsksForItself entry.1

/-- The call brings no request for another host that is on record. -/
def AsksNoOther (answering : Answering) : Op → Prop
  | .recv frame => ∀ message, answering.interface.heard frame = some message →
      ¬ answering.interface.AsksForKnown message
  | _ => True

variable {answering next : Answering} {op : Op} {after : NetworkInterface}

theorem onlyForItself_iff (only : answering.OnlyForItself)
    (acted : answering.interface.act op = .ok after) :
    (answering.record op after).OnlyForItself ↔ answering.AsksNoOther op := by
  have names := acted_of_act acted
  have still : ∀ frame, after.AsksForItself frame ↔ answering.interface.AsksForItself frame := by
    intro frame
    rw [AsksForItself, AsksForItself, names.ethernetAddress, names.ipAddress]
  have kept : ∀ entry ∈ answering.answered, IsReply entry.2 → after.AsksForItself entry.1 :=
    fun entry inside reply => (still entry.1).mpr (only entry inside reply)
  cases op with
  | recv frame =>
      obtain ⟨⟨_, passed⟩, received, rfl⟩ := Fault.map_eq_ok.mp acted
      obtain ⟨emits, answer⟩ := queuedSince_received (recvFrame_received received)
      constructor
      · rintro each message heard ⟨request, another, known⟩
        obtain ⟨queued, inside, reply⟩ :=
          answer message heard (answers_learn_iff.mpr ⟨request, known⟩)
        have entry := each (frame, queued)
          (List.mem_append_right _ (List.mem_map_of_mem inside)) reply
        obtain ⟨-, other, parsed, -, target⟩ := (still frame).mp entry
        cases (heard_eq_some.mp heard).2.2.symm.trans parsed
        exact another target
      · intro noOther entry inside reply
        rcases List.mem_append.mp inside with old | new
        · exact kept entry old reply
        · obtain ⟨queued, here, rfl⟩ := List.mem_map.mp new
          obtain ⟨message, heard, asked⟩ := answers_of_reply (emits queued here) reply
          obtain ⟨request, known⟩ := answers_learn_iff.mp asked
          obtain ⟨taken, -, parsed⟩ := heard_eq_some.mp heard
          have own : message.targetIpAddress = answering.interface.ipAddress := by
            by_contra another
            exact noOther message heard ⟨request, another, known⟩
          exact (still frame).mpr ⟨takes_iff.mp taken, message, parsed, request, own⟩
  | send dgram nextHop => exact iff_of_true kept True.intro
  | tick msSinceLastTick => exact iff_of_true kept True.intro
  | maybeSend => exact iff_of_true kept True.intro

/-- Throughout a run the interface replies only for itself just if no call of the run that
returns brings a request for another host that is on record. -/
theorem onlyForItself_iff_asksNoOther (ethernetAddress : EthernetAddress) (ipAddress : UInt32)
    (ops : List Op) :
    EachReached step OnlyForItself (new ethernetAddress ipAddress) ops ↔
      EachAttempt step (WhenReturning step AsksNoOther) (new ethernetAddress ipAddress) ops := by
  refine eachReached_iff_whenReturning (fun _ => True) _ _ (fun _ _ _ _ _ => True.intro) ?_
    True.intro (fun _ inside => absurd inside List.not_mem_nil) ops
  intro answering op next _ only ran
  obtain ⟨after, acted, rfl⟩ := Fault.map_eq_ok.mp ran
  exact onlyForItself_iff only acted

/-- A request from a third host for the second one. -/
def askForSecond : EthernetFrame :=
  ⟨⟨ETHERNET_BROADCAST, ⟨[2, 0, 0, 0, 0, 3], rfl⟩, EthernetHeader.TYPE_ARP⟩,
    [[0, 1, 8, 0, 6, 4, 0, 1, 2, 0, 0, 0, 0, 3, 10, 0, 0, 3, 0, 0, 0, 0, 0, 0, 10, 0, 0, 2]]⟩

/-- The second host is heard, then a third one asks for it. -/
theorem onlyForItself_fails_known :
    ¬ EachReached step OnlyForItself (new ⟨[2, 0, 0, 0, 0, 1], rfl⟩ 0x0a000001)
      [.recv ⟨⟨⟨[2, 0, 0, 0, 0, 1], rfl⟩, ⟨[2, 0, 0, 0, 0, 2], rfl⟩, EthernetHeader.TYPE_ARP⟩,
          [[0, 1, 8, 0, 6, 4, 0, 2, 2, 0, 0, 0, 0, 2, 10, 0, 0, 2, 2, 0, 0, 0, 0, 1, 10, 0, 0, 1]]⟩,
        .recv askForSecond] := by
  rintro ⟨-, each⟩
  have asked : AsksNoOther _ (.recv askForSecond) := (onlyForItself_iff each.start rfl).mp each.2
  apply asked _ rfl
  exact ⟨rfl, ne_of_beq_false rfl, Or.inr rfl⟩

end Answering

end Minnow.Link
