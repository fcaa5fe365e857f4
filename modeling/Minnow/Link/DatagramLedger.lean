import Minnow.Foundation.Runs
import Minnow.Link.InterfaceSteps

/-!
# What becomes of a datagram

A station is an interface with its ledger: the datagrams passed to it for each next hop,
and the frames it placed them in.  The ledger balances when what was passed for a next
hop is what was placed for it and then what still waits for it, in order.
-/

namespace Minnow.Link

open Foundation Foundation.Runs Wire

namespace NetworkInterface

/-- The sender's IP address in an ARP frame. -/
def arpSender (frame : EthernetFrame) : UInt32 :=
  match parse (ARPMessage.parse {}) frame.payload with
  | .ok (some message) => message.senderIpAddress
  | _ => 0

/-- The next hop a call is about: the one given, or the one learned.  The other calls queue
no frame. -/
def Op.hop : Op → UInt32
  | .send _ nextHop => nextHop
  | .recv frame => arpSender frame
  | .tick _ => 0
  | .maybeSend => 0

/-- The datagrams passed to the interface by a call. -/
def Op.dgrams : Op → List InternetDatagram
  | .send dgram _ => [dgram]
  | _ => []

/-- The IPv4 frames in the send queue of the second interface behind the frames of the
first. -/
def placedSince (before after : NetworkInterface) : List EthernetFrame :=
  (after.sendQueue.drop before.sendQueue.length).filter fun frame =>
    frame.header.type == EthernetHeader.TYPE_IPv4

/-- A next hop that is on record has nothing waiting for it. -/
def Disjoint (interface : NetworkInterface) : Prop :=
  ∀ hop entry, interface.addressMap.at? hop = some entry → interface.datagramCache.at? hop = none

/-- The call does not find its next hop off record with a request for it pending. -/
def Accepts (interface : NetworkInterface) : Op → Prop
  | .send _ nextHop =>
      interface.addressMap.contains nextHop = true ∨ interface.requestDue nextHop = true
  | _ => True

instance (interface : NetworkInterface) (op : Op) : Decidable (interface.Accepts op) := by
  unfold Accepts
  split <;> infer_instance

/-- What a call does to its own next hop and to the others. -/
structure Moves (interface : NetworkInterface) (op : Op) (next : NetworkInterface)
    (sent : List InternetDatagram) : Prop where
  others : ∀ hop, hop ≠ op.hop → next.cachedFor hop = interface.cachedFor hop
  balance : interface.cachedFor op.hop ++ op.dgrams = sent ++ next.cachedFor op.hop
  written : sent.map (fun dgram => serialize dgram.serialize) =
    (interface.placedSince next).map (fun frame => .ok frame.payload)
  addressed : ∀ frame ∈ interface.placedSince next,
    (next.addressMap.at? op.hop).map AddressCache.ethernetAddress = some frame.header.dst

variable {interface next : NetworkInterface}

theorem disjoint_new (ethernetAddress : EthernetAddress) (ipAddress : UInt32) :
    (new ethernetAddress ipAddress).Disjoint :=
  fun _ _ _ => rfl

theorem cachedFor_of_known (disjoint : interface.Disjoint) {hop : UInt32} {entry : AddressCache}
    (known : interface.addressMap.at? hop = some entry) : interface.cachedFor hop = [] := by
  rw [cachedFor, disjoint hop entry known]
  rfl

/-- An address leaves the record at a tick and no other way. -/
theorem at?_tick {msSinceLastTick : UInt64} {hop : UInt32}
    {entry : AddressCache} (known : (interface.tick msSinceLastTick).addressMap.at? hop = some entry) :
    interface.addressMap.at? hop = some entry := by
  rw [addressMap_tick, Table.at?_keep] at known
  exact (Option.filter_eq_some_iff.mp known).1

theorem Disjoint.step {op : Op} (disjoint : interface.Disjoint)
    (stepped : Stepped interface op next) : next.Disjoint := by
  intro hop entry known
  cases stepped with
  | sent _ _ => exact disjoint hop entry known
  | @requested _ nextHop _ unknown _ _ =>
      by_cases same : hop = nextHop
      · rw [same] at known
        exact nomatch unknown.symm.trans known
      · exact (Table.at?_assign_of_ne _ _ same).trans (disjoint hop entry known)
  | dropped _ _ => exact disjoint hop entry known
  | passedUp => exact disjoint hop entry known
  | @learned _ message _ _ _ _ _ =>
      by_cases same : hop = message.senderIpAddress
      · rw [same]
        exact Table.at?_erase_self _ _
      · refine (Table.at?_erase_of_ne _ same).trans (disjoint hop entry ?_)
        exact (Table.at?_assign_of_ne _ _ same).symm.trans known
  | ticked =>
      rw [datagramCache_tick]
      exact disjoint hop entry (at?_tick known)
  | taken =>
      rw [maybeSend] at known ⊢
      split at known <;> exact disjoint hop entry known

theorem placedSince_of_append {frames placed : List EthernetFrame}
    (queued : next.sendQueue = interface.sendQueue ++ frames)
    (filtered : frames.filter (fun frame => frame.header.type == EthernetHeader.TYPE_IPv4) =
      placed) : interface.placedSince next = placed := by
  rw [placedSince, queued, List.drop_left, filtered]

theorem placedSince_of_le (shorter : next.sendQueue.length ≤ interface.sendQueue.length) :
    interface.placedSince next = [] := by
  rw [placedSince, List.drop_eq_nil_of_le shorter, List.filter_nil]

theorem filter_datagramFrame (dst : EthernetAddress) (payloads : List (List Buffer)) :
    (payloads.map (interface.datagramFrame dst)).filter
      (fun frame => frame.header.type == EthernetHeader.TYPE_IPv4) =
        payloads.map (interface.datagramFrame dst) := by
  rw [List.filter_eq_self]
  intro frame inside
  obtain ⟨payload, _, rfl⟩ := List.mem_map.mp inside
  rfl

theorem Replies.filter {message : ARPMessage} {replies : List EthernetFrame}
    (answered : Replies interface message replies) :
    replies.filter (fun frame => frame.header.type == EthernetHeader.TYPE_IPv4) = [] := by
  cases answered with
  | silent ignored => rfl
  | reply asked written => rfl

theorem arpSender_of_parsed {frame : EthernetFrame} {message : ARPMessage}
    (parsed : parse (ARPMessage.parse {}) frame.payload = .ok (some message)) :
    arpSender frame = message.senderIpAddress := by
  rw [arpSender, parsed]

/-- A call that places nothing, takes nothing and leaves what waits as it was. -/
theorem moves_nothing {op : Op} (quiet : op.dgrams = [])
    (same : next.datagramCache = interface.datagramCache)
    (shorter : next.sendQueue.length ≤ interface.sendQueue.length) :
    Moves interface op next [] := by
  have none := placedSince_of_le shorter
  refine ⟨?_, ?_, ?_, ?_⟩
  · intro hop _
    rw [cachedFor, cachedFor, same]
  · rw [quiet, cachedFor, cachedFor, same, List.append_nil, List.nil_append]
  · rw [none]
    rfl
  · rw [none]
    exact fun _ inside => absurd inside List.not_mem_nil

theorem moves_sent (disjoint : interface.Disjoint) {dgram : InternetDatagram} {nextHop : UInt32}
    {entry : AddressCache} {payload : List Buffer}
    (known : interface.addressMap.at? nextHop = some entry)
    (written : serialize dgram.serialize = .ok payload) :
    Moves interface (.send dgram nextHop)
      (interface.queue [interface.datagramFrame entry.ethernetAddress payload]) [dgram] := by
  have placed : interface.placedSince
      (interface.queue [interface.datagramFrame entry.ethernetAddress payload]) =
        [interface.datagramFrame entry.ethernetAddress payload] :=
    placedSince_of_append rfl rfl
  refine ⟨fun _ _ => rfl, ?_, ?_, ?_⟩
  · change interface.cachedFor nextHop ++ [dgram] = [dgram] ++ interface.cachedFor nextHop
    rw [cachedFor_of_known disjoint known]
    rfl
  · rw [placed, List.map_singleton, written]
    rfl
  · intro frame inside
    rw [placed] at inside
    cases List.mem_singleton.mp inside
    change (interface.addressMap.at? nextHop).map _ = _
    rw [known]
    rfl

theorem moves_await {dgram : InternetDatagram} {nextHop : UInt32} {dst : EthernetAddress}
    {payload : List Buffer} :
    Moves interface (.send dgram nextHop)
      (interface.await nextHop dgram (interface.arpFrame dst payload)) [] := by
  have placed : interface.placedSince
      (interface.await nextHop dgram (interface.arpFrame dst payload)) = [] :=
    placedSince_of_append rfl rfl
  refine ⟨fun hop differs => cachedFor_await_of_ne differs _ _, ?_, ?_, ?_⟩
  · exact (cachedFor_await_self _ _ _).symm
  · rw [placed]
    rfl
  · rw [placed]
    exact fun _ inside => absurd inside List.not_mem_nil

theorem moves_release {frame : EthernetFrame} {message : ARPMessage}
    {payloads : List (List Buffer)} {replies : List EthernetFrame}
    (parsed : parse (ARPMessage.parse {}) frame.payload = .ok (some message))
    (written : (interface.cachedFor message.senderIpAddress).map
      (fun dgram => serialize dgram.serialize) = payloads.map .ok)
    (answered : Replies (interface.learn message) message replies) :
    Moves interface (.recv frame)
      (interface.release message
        (payloads.map (interface.datagramFrame message.senderEthernetAddress) ++ replies))
      (interface.cachedFor message.senderIpAddress) := by
  have placed : interface.placedSince (interface.release message
      (payloads.map (interface.datagramFrame message.senderEthernetAddress) ++ replies)) =
        payloads.map (interface.datagramFrame message.senderEthernetAddress) := by
    refine placedSince_of_append rfl ?_
    rw [List.filter_append, filter_datagramFrame, answered.filter, List.append_nil]
  have sender : Op.hop (.recv frame) = message.senderIpAddress := arpSender_of_parsed parsed
  refine ⟨?_, ?_, ?_, ?_⟩
  · intro hop differs
    rw [sender] at differs
    exact cachedFor_release_of_ne differs _
  · rw [sender, cachedFor_release_self]
    rfl
  · rw [placed, written, List.map_map]
    rfl
  · intro sent inside
    rw [placed] at inside
    obtain ⟨payload, _, rfl⟩ := List.mem_map.mp inside
    rw [sender]
    change ((interface.learn message).addressMap.at? message.senderIpAddress).map _ = _
    rw [learn, Table.at?_assign_self]
    rfl

/-- A datagram for a next hop that is off record with a request pending is dropped. -/
theorem sendDatagram_of_refused {dgram : InternetDatagram} {nextHop : UInt32}
    (refused : ¬ interface.Accepts (.send dgram nextHop)) :
    interface.sendDatagram dgram nextHop = .ok interface := by
  obtain ⟨unknown, pending⟩ := not_or.mp refused
  rw [Bool.not_eq_true] at unknown pending
  rw [sendDatagram, Table.contains_eq_false.mp unknown]
  change (if interface.requestDue nextHop then _ else _) = _
  rw [pending]
  rfl

/-- A call that its interface accepts sends what it sends from the front of what waited. -/
theorem Stepped.moves {op : Op} (stepped : Stepped interface op next)
    (disjoint : interface.Disjoint) (accepted : interface.Accepts op) :
    ∃ sent, Moves interface op next sent := by
  cases stepped with
  | sent known written => exact ⟨_, moves_sent disjoint known written⟩
  | requested unknown due written => exact ⟨[], moves_await⟩
  | dropped unknown pending =>
      rcases accepted with known | due
      · exact nomatch (Table.contains_eq_false.mpr unknown).symm.trans known
      · exact nomatch pending.symm.trans due
  | passedUp => exact ⟨[], moves_nothing rfl rfl (Nat.le_refl _)⟩
  | learned parsed written answered => exact ⟨_, moves_release parsed written answered⟩
  | ticked =>
      exact ⟨[], moves_nothing rfl (datagramCache_tick _) (le_of_eq (by rw [sendQueue_tick]))⟩
  | taken =>
      refine ⟨[], moves_nothing rfl ?_ ?_⟩
      · rw [maybeSend]
        split <;> rfl
      · rw [maybeSend]
        split
        · exact Nat.le_refl _
        · next queued =>
            rw [queued]
            exact Nat.le_succ _

end NetworkInterface

end Minnow.Link
