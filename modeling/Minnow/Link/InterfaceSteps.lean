import Minnow.Link.NetworkInterface

/-!
# What a call of the network interface can do

`Stepped` lists every way a call can return, with what it checked on the way.
-/

namespace Minnow.Link

open Foundation Wire

namespace NetworkInterface

/-- The calls of the interface. -/
inductive Op where
  | send (dgram : InternetDatagram) (nextHop : UInt32)
  | recv (frame : EthernetFrame)
  | tick (msSinceLastTick : UInt64)
  | maybeSend

def act (interface : NetworkInterface) : Op → Except Fault NetworkInterface
  | .send dgram nextHop => interface.sendDatagram dgram nextHop
  | .recv frame => Prod.fst <$> interface.recvFrame frame
  | .tick msSinceLastTick => .ok (interface.tick msSinceLastTick)
  | .maybeSend => .ok interface.maybeSend.1

/-- The frame a datagram with this payload goes out in. -/
def datagramFrame (interface : NetworkInterface) (dst : EthernetAddress) (payload : List Buffer) :
    EthernetFrame :=
  interface.createEthernetFrame EthernetHeader.TYPE_IPv4 payload dst

def arpFrame (interface : NetworkInterface) (dst : EthernetAddress) (payload : List Buffer) :
    EthernetFrame :=
  interface.createEthernetFrame EthernetHeader.TYPE_ARP payload dst

/-- Whether a message is answered: it asks for an address on record. -/
def answers (interface : NetworkInterface) (message : ARPMessage) : Bool :=
  message.opcode == ARPMessage.OPCODE_REQUEST &&
    interface.addressMap.contains message.targetIpAddress

/-- The frames with which a message is answered. -/
inductive Replies (interface : NetworkInterface) (message : ARPMessage) :
    List EthernetFrame → Prop where
  | silent (ignored : interface.answers message = false) : Replies interface message []
  | reply {payload : List Buffer} (asked : interface.answers message = true)
      (written : serialize (interface.arpMessage ARPMessage.OPCODE_REPLY message.targetIpAddress
        message.senderIpAddress).serialize = .ok payload) :
      Replies interface message [interface.arpFrame message.senderEthernetAddress payload]

/-- The interface once it has asked for a next hop, for which the datagram now waits. -/
def await (interface : NetworkInterface) (nextHop : UInt32) (dgram : InternetDatagram)
    (request : EthernetFrame) : NetworkInterface :=
  { interface.queue [request] with
    arpRequestExpireTimers := interface.arpRequestExpireTimers.assign nextHop
      (interface.timer + ARP_REQUEST_TIMEOUT_MS)
    datagramCache := interface.datagramCache.assign nextHop
      (interface.cachedFor nextHop ++ [dgram]) }

/-- The interface once it has learned a message and nothing waits for the sender. -/
def release (interface : NetworkInterface) (message : ARPMessage) (frames : List EthernetFrame) :
    NetworkInterface :=
  { (interface.learn message).queue frames with
    datagramCache := interface.datagramCache.erase message.senderIpAddress }

inductive Stepped (interface : NetworkInterface) : Op → NetworkInterface → Prop where
  | sent {dgram : InternetDatagram} {nextHop : UInt32} {entry : AddressCache}
      {payload : List Buffer} (known : interface.addressMap.at? nextHop = some entry)
      (written : serialize dgram.serialize = .ok payload) :
      Stepped interface (.send dgram nextHop)
        (interface.queue [interface.datagramFrame entry.ethernetAddress payload])
  | requested {dgram : InternetDatagram} {nextHop : UInt32} {payload : List Buffer}
      (unknown : interface.addressMap.at? nextHop = none)
      (due : interface.requestDue nextHop = true)
      (written : serialize (interface.arpMessage ARPMessage.OPCODE_REQUEST interface.ipAddress
        nextHop).serialize = .ok payload) :
      Stepped interface (.send dgram nextHop)
        (interface.await nextHop dgram (interface.arpFrame ETHERNET_BROADCAST payload))
  | dropped {dgram : InternetDatagram} {nextHop : UInt32}
      (unknown : interface.addressMap.at? nextHop = none)
      (pending : interface.requestDue nextHop = false) :
      Stepped interface (.send dgram nextHop) interface
  | passedUp {frame : EthernetFrame} : Stepped interface (.recv frame) interface
  | learned {frame : EthernetFrame} {message : ARPMessage} {payloads : List (List Buffer)}
      {replies : List EthernetFrame}
      (parsed : parse (ARPMessage.parse {}) frame.payload = .ok (some message))
      (written : (interface.cachedFor message.senderIpAddress).map
        (fun dgram => serialize dgram.serialize) = payloads.map .ok)
      (answered : Replies (interface.learn message) message replies) :
      Stepped interface (.recv frame)
        (interface.release message
          (payloads.map (interface.datagramFrame message.senderEthernetAddress) ++ replies))
  | ticked {msSinceLastTick : UInt64} :
      Stepped interface (.tick msSinceLastTick) (interface.tick msSinceLastTick)
  | taken : Stepped interface .maybeSend interface.maybeSend.1

/-- Whether a frame is addressed to the interface, or to all. -/
def takes (interface : NetworkInterface) (frame : EthernetFrame) : Bool :=
  isEqual frame.header.dst interface.ethernetAddress || isEqual frame.header.dst ETHERNET_BROADCAST

/-- The ARP message that the interface accepts with a frame. -/
def heard (interface : NetworkInterface) (frame : EthernetFrame) : Option ARPMessage :=
  if interface.takes frame && frame.header.type == EthernetHeader.TYPE_ARP then
    match parse (ARPMessage.parse {}) frame.payload with
    | .ok message => message
    | .error _ => none
  else none

/-- What accepting a message makes of the interface. -/
inductive Learned (interface : NetworkInterface) (message : ARPMessage) : NetworkInterface → Prop where
  | intro {payloads : List (List Buffer)} {replies : List EthernetFrame}
      (written : (interface.cachedFor message.senderIpAddress).map
        (fun dgram => serialize dgram.serialize) = payloads.map .ok)
      (answered : Replies (interface.learn message) message replies) :
      Learned interface message (interface.release message
        (payloads.map (interface.datagramFrame message.senderEthernetAddress) ++ replies))

inductive Received (interface : NetworkInterface) (frame : EthernetFrame) :
    NetworkInterface → Prop where
  | silent (unheard : interface.heard frame = none) : Received interface frame interface
  | learned {message : ARPMessage} {next : NetworkInterface}
      (heard : interface.heard frame = some message) (learned : Learned interface message next) :
      Received interface frame next

variable {interface next : NetworkInterface}

theorem heard_of_takes {frame : EthernetFrame} {message : Option ARPMessage}
    (taken : interface.takes frame = true) (type : frame.header.type = EthernetHeader.TYPE_ARP)
    (parsed : parse (ARPMessage.parse {}) frame.payload = .ok message) :
    interface.heard frame = message := by
  rw [heard, taken, type, parsed]
  rfl

theorem heard_of_ignored {frame : EthernetFrame}
    (ignored : (interface.takes frame && frame.header.type == EthernetHeader.TYPE_ARP) = false) :
    interface.heard frame = none := by
  rw [heard, ignored]
  rfl

theorem heard_eq_some {frame : EthernetFrame} {message : ARPMessage} :
    interface.heard frame = some message ↔
      interface.takes frame = true ∧ frame.header.type = EthernetHeader.TYPE_ARP ∧
        parse (ARPMessage.parse {}) frame.payload = .ok (some message) := by
  constructor
  · intro accepted
    rw [heard] at accepted
    split at accepted
    · next arrives =>
        obtain ⟨taken, type⟩ := Bool.and_eq_true_iff.mp arrives
        refine ⟨taken, beq_iff_eq.mp type, ?_⟩
        cases parsed : parse (ARPMessage.parse {}) frame.payload with
        | error fault => exact nomatch parsed ▸ accepted
        | ok found =>
            rw [parsed] at accepted
            change found = some message at accepted
            rw [accepted]
    · exact nomatch accepted
  · rintro ⟨taken, type, parsed⟩
    exact heard_of_takes taken type parsed

@[simp] theorem queue_nil : interface.queue [] = interface := by
  rw [queue, List.append_nil]

@[simp] theorem queue_queue (first second : List EthernetFrame) :
    (interface.queue first).queue second = interface.queue (first ++ second) := by
  rw [queue, queue, queue, List.append_assoc]

section Tick

variable (msSinceLastTick : UInt64)

@[simp] theorem timer_tick :
    (interface.tick msSinceLastTick).timer = interface.timer + msSinceLastTick := by
  rw [tick]
  split <;> rfl

@[simp] theorem addressMap_tick :
    (interface.tick msSinceLastTick).addressMap = interface.addressMap.keep fun entry =>
      interface.timer + msSinceLastTick < entry.expireTimeMs := by
  rw [tick]
  split <;> rfl

@[simp] theorem ethernetAddress_tick :
    (interface.tick msSinceLastTick).ethernetAddress = interface.ethernetAddress := by
  rw [tick]
  split <;> rfl

@[simp] theorem ipAddress_tick :
    (interface.tick msSinceLastTick).ipAddress = interface.ipAddress := by
  rw [tick]
  split <;> rfl

@[simp] theorem sendQueue_tick :
    (interface.tick msSinceLastTick).sendQueue = interface.sendQueue := by
  rw [tick]
  split <;> rfl

@[simp] theorem datagramCache_tick :
    (interface.tick msSinceLastTick).datagramCache = interface.datagramCache := by
  rw [tick]
  split <;> rfl

end Tick

theorem cachedFor_await_self (nextHop : UInt32) (dgram : InternetDatagram)
    (request : EthernetFrame) :
    (interface.await nextHop dgram request).cachedFor nextHop =
      interface.cachedFor nextHop ++ [dgram] :=
  congrArg (Option.getD · []) (Table.at?_assign_self _ _ _)

theorem cachedFor_await_of_ne {hop nextHop : UInt32} (differs : hop ≠ nextHop)
    (dgram : InternetDatagram) (request : EthernetFrame) :
    (interface.await nextHop dgram request).cachedFor hop = interface.cachedFor hop :=
  congrArg (Option.getD · []) (Table.at?_assign_of_ne _ _ differs)

theorem cachedFor_release_self (message : ARPMessage) (frames : List EthernetFrame) :
    (interface.release message frames).cachedFor message.senderIpAddress = [] :=
  congrArg (Option.getD · []) (Table.at?_erase_self _ _)

theorem cachedFor_release_of_ne {hop : UInt32} {message : ARPMessage}
    (differs : hop ≠ message.senderIpAddress) (frames : List EthernetFrame) :
    (interface.release message frames).cachedFor hop = interface.cachedFor hop :=
  congrArg (Option.getD · []) (Table.at?_erase_of_ne _ differs)

theorem release_queue (message : ARPMessage) (first second : List EthernetFrame) :
    (interface.release message first).queue second =
      interface.release message (first ++ second) := by
  rw [release, release, ← queue_queue]
  rfl

/-! ## The pushing functions -/

theorem pushDatagram_ok {dgram : InternetDatagram} {dst : EthernetAddress}
    (pushed : interface.pushDatagram dgram dst = .ok next) :
    ∃ payload, serialize dgram.serialize = .ok payload ∧
      next = interface.queue [interface.datagramFrame dst payload] := by
  obtain ⟨payload, written, ⟨⟩⟩ := Fault.bind_eq_ok.mp pushed
  exact ⟨payload, written, rfl⟩

theorem pushArp_ok {type : UInt16} {senderIp targetIp : UInt32} {dst : EthernetAddress}
    (pushed : interface.pushArp type senderIp targetIp dst = .ok next) :
    ∃ payload, serialize (interface.arpMessage type senderIp targetIp).serialize = .ok payload ∧
      next = interface.queue [interface.arpFrame dst payload] := by
  obtain ⟨payload, written, ⟨⟩⟩ := Fault.bind_eq_ok.mp pushed
  exact ⟨payload, written, rfl⟩

/-- An answer to a host on record puts nothing on record. -/
theorem pushArpReply_ok {senderIpv4 targetIpv4 : UInt32} {entry : AddressCache}
    (known : interface.addressMap.at? targetIpv4 = some entry)
    (pushed : interface.pushArpReply senderIpv4 targetIpv4 = .ok next) :
    ∃ payload,
      serialize (interface.arpMessage ARPMessage.OPCODE_REPLY senderIpv4 targetIpv4).serialize =
        .ok payload ∧
      next = interface.queue [interface.arpFrame entry.ethernetAddress payload] := by
  rw [pushArpReply, Table.subscript_of_at? known] at pushed
  exact pushArp_ok pushed

/-- The waiting datagrams go out in the order they came. -/
theorem pushAll_ok {dgrams : List InternetDatagram} {dst : EthernetAddress}
    (pushed : dgrams.foldlM (fun interface dgram => interface.pushDatagram dgram dst) interface =
      .ok next) :
    ∃ payloads : List (List Buffer),
      dgrams.map (fun dgram => serialize dgram.serialize) = payloads.map .ok ∧
      next = interface.queue (payloads.map (interface.datagramFrame dst)) := by
  induction dgrams generalizing interface with
  | nil =>
      cases pushed
      exact ⟨[], rfl, queue_nil.symm⟩
  | cons dgram rest ih =>
      rw [List.foldlM_cons] at pushed
      obtain ⟨middle, first, later⟩ := Fault.bind_eq_ok.mp pushed
      obtain ⟨payload, written, rfl⟩ := pushDatagram_ok first
      obtain ⟨payloads, all, rfl⟩ := ih later
      refine ⟨payload :: payloads, ?_, ?_⟩
      · rw [List.map_cons, List.map_cons, written, all]
      · rw [queue_queue]
        rfl

theorem flushCache_ok {ip : UInt32} {dst : EthernetAddress}
    (flushed : interface.flushCache ip dst = .ok next) :
    ∃ payloads : List (List Buffer),
      (interface.cachedFor ip).map (fun dgram => serialize dgram.serialize) = payloads.map .ok ∧
      next = { interface.queue (payloads.map (interface.datagramFrame dst)) with
        datagramCache := interface.datagramCache.erase ip } := by
  rw [flushCache] at flushed
  rw [cachedFor]
  cases waiting : interface.datagramCache.at? ip with
  | none =>
      rw [waiting] at flushed
      cases flushed
      refine ⟨[], rfl, ?_⟩
      rw [Table.erase_of_absent waiting, List.map_nil, queue_nil]
  | some cacheQueue =>
      rw [waiting] at flushed
      obtain ⟨sent, pushed, ⟨⟩⟩ := Fault.bind_eq_ok.mp flushed
      obtain ⟨payloads, all, rfl⟩ := pushAll_ok pushed
      exact ⟨payloads, all, rfl⟩

theorem flushCache_learn_ok {message : ARPMessage}
    (flushed : (interface.learn message).flushCache message.senderIpAddress
      message.senderEthernetAddress = .ok next) :
    ∃ payloads : List (List Buffer),
      (interface.cachedFor message.senderIpAddress).map
        (fun dgram => serialize dgram.serialize) = payloads.map .ok ∧
      next = interface.release message
        (payloads.map (interface.datagramFrame message.senderEthernetAddress)) :=
  flushCache_ok flushed

/-! ## The calls -/

/-- The sender of a message has just been learned, so answering it learns nothing. -/
theorem handleArp_ok {frame : EthernetFrame} (handled : interface.handleArp frame = .ok next) :
    (parse (ARPMessage.parse {}) frame.payload = .ok none ∧ next = interface) ∨
      ∃ message, parse (ARPMessage.parse {}) frame.payload = .ok (some message) ∧
        Learned interface message next := by
  obtain ⟨parsing, parsed, handled⟩ := Fault.bind_eq_ok.mp handled
  cases parsing with
  | none =>
      cases handled
      exact Or.inl ⟨parsed, rfl⟩
  | some message =>
      refine Or.inr ⟨message, parsed, ?_⟩
      obtain ⟨flushed, flushing, answering⟩ := Fault.bind_eq_ok.mp handled
      obtain ⟨payloads, written, rfl⟩ := flushCache_learn_ok flushing
      change (if (interface.learn message).answers message = true then
        (interface.release message _).pushArpReply _ _ else pure _) = _ at answering
      cases asked : (interface.learn message).answers message with
      | false =>
          have silent := Learned.intro written (.silent asked)
          rw [List.append_nil] at silent
          rw [asked] at answering
          cases answering
          exact silent
      | true =>
          rw [if_pos asked] at answering
          obtain ⟨payload, replied, rfl⟩ := pushArpReply_ok (Table.at?_assign_self _ _ _) answering
          rw [release_queue]
          exact .intro written (.reply asked replied)

theorem sendDatagram_stepped {dgram : InternetDatagram} {nextHop : UInt32}
    (sent : interface.sendDatagram dgram nextHop = .ok next) :
    Stepped interface (.send dgram nextHop) next := by
  rw [sendDatagram] at sent
  cases known : interface.addressMap.at? nextHop with
  | some entry =>
      rw [known] at sent
      obtain ⟨payload, written, rfl⟩ := pushDatagram_ok sent
      exact .sent known written
  | none =>
      rw [known] at sent
      cases due : interface.requestDue nextHop with
      | false =>
          change (if interface.requestDue nextHop then _ else _) = _ at sent
          rw [due] at sent
          cases sent
          exact .dropped known due
      | true =>
          change (if interface.requestDue nextHop then _ else _) = _ at sent
          rw [if_pos due] at sent
          obtain ⟨requested, requesting, ⟨⟩⟩ := Fault.bind_eq_ok.mp sent
          obtain ⟨pushed, pushing, ⟨⟩⟩ := Fault.bind_eq_ok.mp requesting
          obtain ⟨payload, written, rfl⟩ := pushArp_ok pushing
          exact .requested known due written

/-- A frame does something just if a message is heard in it. -/
theorem recvFrame_received {frame : EthernetFrame} {passed : Option InternetDatagram}
    (received : interface.recvFrame frame = .ok (next, passed)) :
    Received interface frame next := by
  have missed : (!isEqual frame.header.dst interface.ethernetAddress &&
      !isEqual frame.header.dst ETHERNET_BROADCAST) = !interface.takes frame :=
    (Bool.not_or _ _).symm
  rw [recvFrame, missed] at received
  cases taken : interface.takes frame with
  | false =>
      rw [taken] at received
      cases received
      exact .silent (heard_of_ignored (by rw [taken, Bool.false_and]))
  | true =>
      rw [taken] at received
      cases type : frame.header.type == EthernetHeader.TYPE_ARP with
      | false =>
          have ignored : interface.heard frame = none :=
            heard_of_ignored (by rw [type, Bool.and_false])
          rw [type] at received
          split at received
          · exact absurd ‹_› Bool.false_ne_true
          split at received
          · obtain ⟨dgram, _, ⟨⟩⟩ := Fault.bind_eq_ok.mp received
            exact .silent ignored
          · cases received
            exact .silent ignored
      | true =>
          have isArp := beq_iff_eq.mp type
          rw [isArp] at received
          obtain ⟨handled, handling, ⟨⟩⟩ := Fault.bind_eq_ok.mp received
          rcases handleArp_ok handling with ⟨parsed, rfl⟩ | ⟨message, parsed, learned⟩
          · exact .silent (heard_of_takes taken isArp parsed)
          · exact .learned (heard_of_takes taken isArp parsed) learned

theorem recvFrame_stepped {frame : EthernetFrame} {passed : Option InternetDatagram}
    (received : interface.recvFrame frame = .ok (next, passed)) :
    Stepped interface (.recv frame) next := by
  cases recvFrame_received received with
  | silent unheard => exact .passedUp
  | learned heard learned =>
      obtain ⟨written, answered⟩ := learned
      exact .learned (heard_eq_some.mp heard).2.2 written answered

theorem stepped_of_act {op : Op} (acted : interface.act op = .ok next) :
    Stepped interface op next := by
  cases op with
  | send dgram nextHop => exact sendDatagram_stepped acted
  | recv frame =>
      obtain ⟨⟨after, passed⟩, received, rfl⟩ := Fault.map_eq_ok.mp acted
      exact recvFrame_stepped received
  | tick msSinceLastTick =>
      cases acted
      exact .ticked
  | maybeSend =>
      cases acted
      exact .taken

/-! ## Calls that return -/

theorem arpMessage_supported {type : UInt16}
    (known : type = ARPMessage.OPCODE_REQUEST ∨ type = ARPMessage.OPCODE_REPLY)
    (senderIp targetIp : UInt32) :
    (interface.arpMessage type senderIp targetIp).supported = true := by
  rcases known with request | reply
  · rw [request]
    rfl
  · rw [reply]
    rfl

/-- A message of the interface's own making is always written. -/
theorem pushArp_returns {type : UInt16}
    (known : type = ARPMessage.OPCODE_REQUEST ∨ type = ARPMessage.OPCODE_REPLY)
    (senderIp targetIp : UInt32) (dst : EthernetAddress) :
    ∃ next, interface.pushArp type senderIp targetIp dst = .ok next := by
  obtain ⟨payload, written⟩ := ARPMessage.serialize_of_supported
    (interface.arpMessage_supported known senderIp targetIp)
  exact ⟨_, Fault.bind_eq_ok.mpr ⟨payload, written, rfl⟩⟩

/-- Only a datagram of another IP version makes `sendDatagram` throw. -/
theorem sendDatagram_returns {dgram : InternetDatagram} (version : dgram.header.ver = 4)
    (nextHop : UInt32) : ∃ next, interface.sendDatagram dgram nextHop = .ok next := by
  rw [sendDatagram]
  cases interface.addressMap.at? nextHop with
  | some entry =>
      obtain ⟨payload, written⟩ := IPv4Datagram.serialize_of_ver version
      exact ⟨_, Fault.bind_eq_ok.mpr ⟨payload, written, rfl⟩⟩
  | none =>
      dsimp only
      split_ifs with due
      · obtain ⟨pushed, pushing⟩ := interface.pushArp_returns (Or.inl rfl) interface.ipAddress
          nextHop ETHERNET_BROADCAST
        have requesting : interface.pushArpRequest nextHop = .ok _ :=
          Fault.bind_eq_ok.mpr ⟨pushed, pushing, rfl⟩
        exact ⟨_, Fault.bind_eq_ok.mpr ⟨_, requesting, rfl⟩⟩
      · exact ⟨interface, rfl⟩

end NetworkInterface

end Minnow.Link
