import Minnow.Foundation.Runs
import Minnow.Link.InterfaceSteps

/-!
# What the interface has heard

A history keeps every ARP message that the interface accepted, the latest first, with the
time at which it came.  The addresses on record follow from the history.
-/

namespace Minnow.Link

open Foundation Foundation.Runs Wire

namespace NetworkInterface

/-- The time that passes with a call. -/
def Op.duration : Op → UInt64
  | .tick msSinceLastTick => msSinceLastTick
  | _ => 0

/-- The ARP message that the interface accepts with a call. -/
def hears (interface : NetworkInterface) : Op → Option ARPMessage
  | .recv frame => interface.heard frame
  | _ => none

/-- No time passes with a frame. -/
theorem duration_of_hears {interface : NetworkInterface} {op : Op} {message : ARPMessage}
    (heard : interface.hears op = some message) : op.duration = 0 := by
  cases op with
  | recv frame => rfl
  | tick msSinceLastTick => exact absurd heard.symm (Option.some_ne_none _)
  | send dgram nextHop => rfl
  | maybeSend => rfl

/-- The frames that a call can queue. -/
inductive Emits (interface : NetworkInterface) (op : Op) : EthernetFrame → Prop where
  | datagram {frame : EthernetFrame} (type : frame.header.type = EthernetHeader.TYPE_IPv4) :
      Emits interface op frame
  | request {nextHop : UInt32} {payload : List Buffer}
      (written : serialize (interface.arpMessage ARPMessage.OPCODE_REQUEST interface.ipAddress
        nextHop).serialize = .ok payload) :
      Emits interface op (interface.arpFrame ETHERNET_BROADCAST payload)
  | reply {message : ARPMessage} {payload : List Buffer} (heard : interface.hears op = some message)
      (asked : (interface.learn message).answers message = true)
      (written : serialize ((interface.learn message).arpMessage ARPMessage.OPCODE_REPLY
        message.targetIpAddress message.senderIpAddress).serialize = .ok payload) :
      Emits interface op (interface.arpFrame message.senderEthernetAddress payload)

variable {interface next : NetworkInterface} {op : Op}

/-- What is read from an ARP message of the interface's own making. -/
theorem parse_arpMessage {type : UInt16} {senderIp targetIp : UInt32} {payload : List Buffer}
    (known : type = ARPMessage.OPCODE_REQUEST ∨ type = ARPMessage.OPCODE_REPLY)
    (written : serialize (interface.arpMessage type senderIp targetIp).serialize = .ok payload) :
    parse (ARPMessage.parse {}) payload = .ok (some (interface.arpMessage type senderIp targetIp)) := by
  have supported := interface.arpMessage_supported known senderIp targetIp
  rw [ARPMessage.serialize_eq supported] at written
  cases written
  exact ARPMessage.parse_encoding supported

/-- The messages accepted, and the time, are all that changes the addresses on record. -/
structure Acted (interface : NetworkInterface) (op : Op) (next : NetworkInterface) : Prop where
  ethernetAddress : next.ethernetAddress = interface.ethernetAddress
  ipAddress : next.ipAddress = interface.ipAddress
  timer : next.timer = interface.timer + op.duration
  learned : ∀ message, interface.hears op = some message →
    next.addressMap = (interface.learn message).addressMap
  kept : interface.hears op = none → next.addressMap =
    match op with
    | .tick msSinceLastTick => (interface.tick msSinceLastTick).addressMap
    | _ => interface.addressMap
  emitted : ∃ taken frames, interface.sendQueue ++ frames = taken ++ next.sendQueue ∧
    ∀ frame ∈ frames, interface.Emits op frame

/-- What accepting a message queues: datagrams, and the reply if there is one. -/
theorem Learned.queued {frame : EthernetFrame} {message : ARPMessage}
    (heard : interface.heard frame = some message) (learned : Learned interface message next) :
    ∃ frames, next.sendQueue = interface.sendQueue ++ frames ∧
      (∀ queued ∈ frames, interface.Emits (.recv frame) queued) ∧
      ((interface.learn message).answers message = true → ∃ payload,
        serialize ((interface.learn message).arpMessage ARPMessage.OPCODE_REPLY
          message.targetIpAddress message.senderIpAddress).serialize = .ok payload ∧
        interface.arpFrame message.senderEthernetAddress payload ∈ frames) := by
  obtain ⟨written, answered⟩ := learned
  refine ⟨_, rfl, ?_, ?_⟩
  · intro queued inside
    rcases List.mem_append.mp inside with datagram | answer
    · obtain ⟨payload, -, rfl⟩ := List.mem_map.mp datagram
      exact .datagram rfl
    · cases answered with
      | silent ignored => exact absurd answer List.not_mem_nil
      | reply asked replied =>
          rw [List.mem_singleton.mp answer]
          exact .reply heard asked replied
  · intro asked
    cases answered with
    | silent ignored => exact absurd (ignored.symm.trans asked) Bool.false_ne_true
    | reply _ replied =>
        exact ⟨_, replied, List.mem_append_right _ (List.mem_singleton_self _)⟩

theorem Learned.acted {frame : EthernetFrame} {message : ARPMessage}
    (heard : interface.heard frame = some message) (learned : Learned interface message next) :
    Acted interface (.recv frame) next := by
  obtain ⟨frames, queued, emits, -⟩ := learned.queued heard
  obtain ⟨written, answered⟩ := learned
  refine ⟨rfl, rfl, (UInt64.add_zero _).symm, ?_, ?_, [], frames, queued.symm, emits⟩
  · intro other same
    cases heard.symm.trans same
    rfl
  · intro unheard
    exact nomatch heard.symm.trans unheard

/-- A call that hears no message and queues no frame. -/
theorem Acted.of_silent (unheard : interface.hears op = none)
    (ethernetAddress : next.ethernetAddress = interface.ethernetAddress)
    (ipAddress : next.ipAddress = interface.ipAddress)
    (timer : next.timer = interface.timer + op.duration)
    (kept : next.addressMap =
      match op with
      | .tick msSinceLastTick => (interface.tick msSinceLastTick).addressMap
      | _ => interface.addressMap)
    {taken : List EthernetFrame} (left : interface.sendQueue = taken ++ next.sendQueue) :
    Acted interface op next where
  ethernetAddress := ethernetAddress
  ipAddress := ipAddress
  timer := timer
  learned := fun _ heard => nomatch unheard.symm.trans heard
  kept := by
    intro _
    cases op <;> exact kept
  emitted := by
    refine ⟨taken, [], ?_, fun _ inside => absurd inside List.not_mem_nil⟩
    rw [List.append_nil]
    exact left

theorem acted_of_act (acted : interface.act op = .ok next) : Acted interface op next := by
  cases op with
  | send dgram nextHop =>
      have unheard : ∀ message, interface.hears (.send dgram nextHop) = some message →
          next.addressMap = (interface.learn message).addressMap :=
        fun _ heard => absurd heard.symm (Option.some_ne_none _)
      cases stepped_of_act acted with
      | sent known written =>
          refine ⟨rfl, rfl, (UInt64.add_zero _).symm, unheard, fun _ => rfl, [], _, rfl, ?_⟩
          intro frame inside
          rw [List.mem_singleton.mp inside]
          exact .datagram rfl
      | requested unknown due written =>
          refine ⟨rfl, rfl, (UInt64.add_zero _).symm, unheard, fun _ => rfl, [], _, rfl, ?_⟩
          intro frame inside
          rw [List.mem_singleton.mp inside]
          exact .request written
      | dropped unknown pending =>
          exact .of_silent rfl rfl rfl (UInt64.add_zero _).symm rfl (List.nil_append _).symm
  | recv frame =>
      obtain ⟨⟨after, passed⟩, received, rfl⟩ := Fault.map_eq_ok.mp acted
      cases recvFrame_received received with
      | learned heard learned => exact learned.acted heard
      | silent unheard =>
          exact .of_silent unheard rfl rfl (UInt64.add_zero _).symm rfl (List.nil_append _).symm
  | tick msSinceLastTick =>
      cases acted
      have left : interface.sendQueue = [] ++ (interface.tick msSinceLastTick).sendQueue :=
        (sendQueue_tick msSinceLastTick).symm
      exact .of_silent rfl (ethernetAddress_tick msSinceLastTick) (ipAddress_tick msSinceLastTick)
        (timer_tick msSinceLastTick) rfl left
  | maybeSend =>
      cases acted
      rw [maybeSend]
      cases queued : interface.sendQueue with
      | nil =>
          exact .of_silent rfl rfl rfl (UInt64.add_zero _).symm rfl (List.nil_append _).symm
      | cons frame rest =>
          exact .of_silent rfl rfl rfl (UInt64.add_zero _).symm rfl
            (queued.trans (List.singleton_append).symm)

end NetworkInterface

/-! ## Histories -/

open NetworkInterface

/-- An interface, the milliseconds ticked so far, and the messages heard with their times. -/
structure Listening where
  interface : NetworkInterface
  elapsed : Nat
  heard : List (Nat × ARPMessage)

namespace Listening

def new (ethernetAddress : EthernetAddress) (ipAddress : UInt32) : Listening :=
  ⟨NetworkInterface.new ethernetAddress ipAddress, 0, []⟩

/-- The history after a call that left the interface as `next`. -/
def record (listening : Listening) (op : Op) (next : NetworkInterface) : Listening where
  interface := next
  elapsed := listening.elapsed + op.duration.toNat
  heard :=
    match listening.interface.hears op with
    | some message => (listening.elapsed, message) :: listening.heard
    | none => listening.heard

def step (listening : Listening) (op : Op) : Except Fault Listening :=
  listening.record op <$> listening.interface.act op

/-- The latest message heard from a sender, with its time. -/
def lastFrom (listening : Listening) (ip : UInt32) : Option (Nat × ARPMessage) :=
  listening.heard.find? fun entry => entry.2.senderIpAddress == ip

variable {listening next : Listening} {op : Op}

theorem step_ok (ran : listening.step op = .ok next) :
    ∃ after, Acted listening.interface op after ∧ next = listening.record op after := by
  obtain ⟨after, acted, rfl⟩ := Fault.map_eq_ok.mp ran
  exact ⟨after, acted_of_act acted, rfl⟩

section LastFrom

variable {after : NetworkInterface} {message : ARPMessage} {ip : UInt32}

theorem lastFrom_record_sender (heard : listening.interface.hears op = some message) :
    (listening.record op after).lastFrom message.senderIpAddress =
      some (listening.elapsed, message) := by
  simp [lastFrom, record, heard]

theorem lastFrom_record_of_ne (heard : listening.interface.hears op = some message)
    (differs : ip ≠ message.senderIpAddress) :
    (listening.record op after).lastFrom ip = listening.lastFrom ip := by
  simp [lastFrom, record, heard, differs.symm]

theorem lastFrom_record_unheard (unheard : listening.interface.hears op = none) (ip : UInt32) :
    (listening.record op after).lastFrom ip = listening.lastFrom ip := by
  simp [lastFrom, record, unheard]

theorem sender_of_lastFrom {entry : Nat × ARPMessage} (last : listening.lastFrom ip = some entry) :
    entry.2.senderIpAddress = ip := by
  have found := List.find?_some last
  simpa using found

end LastFrom

/-- What the history and the interface agree on in every run. -/
structure Tracked (ethernetAddress : EthernetAddress) (ipAddress : UInt32)
    (listening : Listening) : Prop where
  ethernetAddress : listening.interface.ethernetAddress = ethernetAddress
  ipAddress : listening.interface.ipAddress = ipAddress
  timer : listening.interface.timer = UInt64.ofNat listening.elapsed
  stamped : ∀ entry ∈ listening.heard, entry.1 ≤ listening.elapsed
  latestFirst : listening.heard.Pairwise fun later earlier => earlier.1 ≤ later.1

variable {ethernetAddress : EthernetAddress} {ipAddress : UInt32}

theorem tracked_new (ethernetAddress : EthernetAddress) (ipAddress : UInt32) :
    (new ethernetAddress ipAddress).Tracked ethernetAddress ipAddress :=
  ⟨rfl, rfl, rfl, fun _ inside => absurd inside List.not_mem_nil, List.Pairwise.nil⟩

theorem Tracked.step (tracked : listening.Tracked ethernetAddress ipAddress)
    (ran : listening.step op = .ok next) : next.Tracked ethernetAddress ipAddress := by
  obtain ⟨after, acted, rfl⟩ := step_ok ran
  refine ⟨acted.ethernetAddress.trans tracked.ethernetAddress,
    acted.ipAddress.trans tracked.ipAddress, ?_, ?_, ?_⟩
  · change after.timer = UInt64.ofNat (listening.elapsed + op.duration.toNat)
    rw [acted.timer, tracked.timer, UInt64.ofNat_add, UInt64.ofNat_toNat]
  · intro entry inside
    have older : ∀ entry ∈ listening.heard, entry.1 ≤ listening.elapsed + op.duration.toNat :=
      fun entry inside => Nat.le_add_right_of_le (tracked.stamped entry inside)
    rw [record] at inside
    cases heard : listening.interface.hears op with
    | none =>
        rw [heard] at inside
        exact older entry inside
    | some message =>
        rw [heard] at inside
        rcases List.mem_cons.mp inside with new | old
        · rw [new]
          exact Nat.le_add_right _ _
        · exact older entry old
  · rw [record]
    cases heard : listening.interface.hears op with
    | none => exact tracked.latestFirst
    | some message => exact List.pairwise_cons.mpr ⟨tracked.stamped, tracked.latestFirst⟩

end Listening

end Minnow.Link
