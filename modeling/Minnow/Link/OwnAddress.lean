import Minnow.Link.AddressHistory

/-!
# The interface's own address

The constructor puts the interface's own address on record, to stay there for good.  But
it stands in the table that messages write and ticks clear, so a message that claims the
own IP address replaces it, and lets it expire.
-/

namespace Minnow.Link

open Foundation Foundation.Runs Wire NetworkInterface

namespace NetworkInterface

/-- The own address is on record, and every ARP message queued for the own IP address
gives it. -/
structure KnowsItself (interface : NetworkInterface) : Prop where
  recorded : (interface.addressMap.at? interface.ipAddress).map AddressCache.ethernetAddress =
    some interface.ethernetAddress
  queued : ∀ frame ∈ interface.sendQueue, frame.header.type = EthernetHeader.TYPE_ARP →
    ∀ message, parse (ARPMessage.parse {}) frame.payload = .ok (some message) →
      message.senderIpAddress = interface.ipAddress →
      message.senderEthernetAddress = interface.ethernetAddress

variable {interface next : NetworkInterface} {op : Op}

theorem knowsItself_new (ethernetAddress : EthernetAddress) (ipAddress : UInt32) :
    (new ethernetAddress ipAddress).KnowsItself where
  recorded := by
    rw [new, Table.at?_assign_self]
    rfl
  queued := fun _ inside => absurd inside List.not_mem_nil

/-- An interface that knows itself says so. -/
theorem KnowsItself.recorded_eq (knows : interface.KnowsItself) :
    interface.recorded interface.ipAddress = interface.ethernetAddress := by
  obtain ⟨entry, known, same⟩ := Option.map_eq_some_iff.mp knows.recorded
  rw [NetworkInterface.recorded, known]
  exact same

end NetworkInterface

namespace Listening

variable {listening next : Listening} {op : Op} {ethernetAddress : EthernetAddress}
  {ipAddress : UInt32}

/-- When the own address expires: never, to begin with, and half a minute after the latest
message that claimed the own IP address once there is one. -/
def ownExpiry (listening : Listening) : UInt64 :=
  match listening.lastFrom listening.interface.ipAddress with
  | none => UInt64.ofNat (2 ^ 64 - 1)
  | some (time, _) => UInt64.ofNat time + ADDRESS_CACHE_TIMEOUT_MS

/-- The call gives the own IP address to no one else, and does not let it expire. -/
def SparesItself (listening : Listening) : Op → Prop
  | .recv frame => ∀ message, listening.interface.heard frame = some message →
      message.senderIpAddress = listening.interface.ipAddress →
      message.senderEthernetAddress = listening.interface.ethernetAddress
  | .tick msSinceLastTick => listening.interface.timer + msSinceLastTick < listening.ownExpiry
  | _ => True

/-- What is on record for the own IP address has the expiry that the history gives it. -/
def ExpiryKnown (listening : Listening) : Prop :=
  ∀ entry, listening.interface.addressMap.at? listening.interface.ipAddress = some entry →
    entry.expireTimeMs = listening.ownExpiry

theorem expiryKnown_new (ethernetAddress : EthernetAddress) (ipAddress : UInt32) :
    (new ethernetAddress ipAddress).ExpiryKnown := by
  intro entry known
  change Table.at? (Table.assign _ ipAddress _) ipAddress = some entry at known
  rw [Table.at?_assign_self] at known
  cases known
  rfl

section Record

variable {after : NetworkInterface} {message : ARPMessage}

/-- The own address after a message is heard. -/
theorem at?_own_of_heard (acted : Acted listening.interface op after)
    (heard : listening.interface.hears op = some message) :
    after.addressMap.at? after.ipAddress =
      if message.senderIpAddress = listening.interface.ipAddress then
        some ⟨message.senderEthernetAddress, listening.interface.timer + ADDRESS_CACHE_TIMEOUT_MS⟩
      else listening.interface.addressMap.at? listening.interface.ipAddress := by
  rw [acted.learned message heard, acted.ipAddress]
  split_ifs with same
  · rw [← same]
    exact Table.at?_assign_self _ _ _
  · exact Table.at?_assign_of_ne _ _ (Ne.symm same)

/-- The own address after any other call. -/
theorem at?_own_of_unheard (acted : Acted listening.interface op after)
    (unheard : listening.interface.hears op = none) :
    after.addressMap.at? after.ipAddress =
      match op with
      | .tick msSinceLastTick =>
          (listening.interface.addressMap.at? listening.interface.ipAddress).filter fun entry =>
            listening.interface.timer + msSinceLastTick < entry.expireTimeMs
      | _ => listening.interface.addressMap.at? listening.interface.ipAddress := by
  rw [acted.kept unheard, acted.ipAddress]
  cases op with
  | tick msSinceLastTick =>
      change Table.at? (NetworkInterface.tick _ _).addressMap _ = _
      rw [addressMap_tick, Table.at?_keep]
  | send dgram nextHop => rfl
  | recv frame => rfl
  | maybeSend => rfl

theorem ownExpiry_of_claim (acted : Acted listening.interface op after)
    (heard : listening.interface.hears op = some message)
    (claimed : message.senderIpAddress = listening.interface.ipAddress) :
    (listening.record op after).ownExpiry =
      UInt64.ofNat listening.elapsed + ADDRESS_CACHE_TIMEOUT_MS := by
  have last : (listening.record op after).lastFrom message.senderIpAddress =
      some (listening.elapsed, message) := lastFrom_record_sender heard
  rw [claimed, ← acted.ipAddress] at last
  rw [ownExpiry]
  change (match (listening.record op after).lastFrom after.ipAddress with
    | none => _
    | some (time, _) => _) = _
  rw [last]

theorem ownExpiry_of_same (acted : Acted listening.interface op after)
    (same : (listening.record op after).lastFrom listening.interface.ipAddress =
      listening.lastFrom listening.interface.ipAddress) :
    (listening.record op after).ownExpiry = listening.ownExpiry := by
  rw [ownExpiry, ownExpiry, ← same]
  change (match (listening.record op after).lastFrom after.ipAddress with
    | none => _
    | some (time, _) => _) = _
  rw [acted.ipAddress]

theorem ExpiryKnown.record (known : listening.ExpiryKnown)
    (tracked : listening.Tracked ethernetAddress ipAddress)
    (acted : Acted listening.interface op after) : (listening.record op after).ExpiryKnown := by
  intro entry there
  change after.addressMap.at? after.ipAddress = some entry at there
  cases heard : listening.interface.hears op with
  | some message =>
      rw [at?_own_of_heard acted heard] at there
      by_cases claimed : message.senderIpAddress = listening.interface.ipAddress
      · rw [if_pos claimed, tracked.timer] at there
        rw [ownExpiry_of_claim acted heard claimed]
        cases there
        rfl
      · rw [if_neg claimed] at there
        rw [ownExpiry_of_same acted (lastFrom_record_of_ne heard (Ne.symm claimed))]
        exact known entry there
  | none =>
      rw [at?_own_of_unheard acted heard] at there
      rw [ownExpiry_of_same acted (lastFrom_record_unheard heard _)]
      cases op with
      | tick msSinceLastTick => exact known entry (Option.filter_eq_some_iff.mp there).1
      | send dgram nextHop => exact known entry there
      | recv frame => exact known entry there
      | maybeSend => exact known entry there

/-- No message that is heard in a call that spares the own address gives it to another host. -/
theorem owner_of_spares (spares : listening.SparesItself op)
    (heard : listening.interface.hears op = some message)
    (claimed : message.senderIpAddress = listening.interface.ipAddress) :
    message.senderEthernetAddress = listening.interface.ethernetAddress := by
  cases op with
  | recv frame => exact spares message heard claimed
  | send dgram nextHop => exact absurd heard.symm (Option.some_ne_none _)
  | tick msSinceLastTick => exact absurd heard.symm (Option.some_ne_none _)
  | maybeSend => exact absurd heard.symm (Option.some_ne_none _)

/-- A call that spares the own address keeps it on record. -/
theorem recorded_of_spares (knows : listening.interface.KnowsItself)
    (expiry : listening.ExpiryKnown) (acted : Acted listening.interface op after)
    (spares : listening.SparesItself op) :
    (after.addressMap.at? after.ipAddress).map AddressCache.ethernetAddress =
      some listening.interface.ethernetAddress := by
  cases heard : listening.interface.hears op with
  | some message =>
      rw [at?_own_of_heard acted heard]
      split_ifs with claimed
      · exact congrArg some (owner_of_spares spares heard claimed)
      · exact knows.recorded
  | none =>
      rw [at?_own_of_unheard acted heard]
      cases op with
      | tick msSinceLastTick =>
          obtain ⟨entry, known, same⟩ := Option.map_eq_some_iff.mp knows.recorded
          have alive : listening.interface.timer + msSinceLastTick < entry.expireTimeMs := by
            rw [expiry entry known]
            exact spares
          change Option.map _ (Option.filter _ _) = _
          rw [known, Option.filter_some, if_pos (decide_eq_true alive), Option.map_some, same]
      | send dgram nextHop => exact knows.recorded
      | recv frame => exact knows.recorded
      | maybeSend => exact knows.recorded

/-- What an interface that knows itself, before and after learning, queues for the own IP
address gives the own address. -/
theorem queued_of_emits {frame : EthernetFrame} (knows : listening.interface.KnowsItself)
    (spares : listening.SparesItself op) (emits : listening.interface.Emits op frame)
    (type : frame.header.type = EthernetHeader.TYPE_ARP) {message : ARPMessage}
    (parsed : parse (ARPMessage.parse {}) frame.payload = .ok (some message))
    (own : message.senderIpAddress = listening.interface.ipAddress) :
    message.senderEthernetAddress = listening.interface.ethernetAddress := by
  cases emits with
  | datagram isIPv4 => exact absurd (isIPv4.symm.trans type) (by decide)
  | request written =>
      change parse (ARPMessage.parse {}) _ = _ at parsed
      cases (parse_arpMessage (Or.inl rfl) written).symm.trans parsed
      exact knows.recorded_eq
  | @reply heardMessage payload heard asked written =>
      change parse (ARPMessage.parse {}) _ = _ at parsed
      cases (parse_arpMessage (Or.inr rfl) written).symm.trans parsed
      change heardMessage.targetIpAddress = _ at own
      change (listening.interface.learn heardMessage).recorded heardMessage.targetIpAddress = _
      rw [own, NetworkInterface.recorded, learn]
      by_cases claimed : heardMessage.senderIpAddress = listening.interface.ipAddress
      · rw [← claimed, Table.at?_assign_self]
        exact owner_of_spares spares heard claimed
      · rw [Table.at?_assign_of_ne _ _ (Ne.symm claimed)]
        exact knows.recorded_eq

/-- A call leaves the interface knowing itself just if it spares the own address. -/
theorem knowsItself_iff_spares (knows : listening.interface.KnowsItself)
    (expiry : listening.ExpiryKnown) (acted : Acted listening.interface op after) :
    after.KnowsItself ↔ listening.SparesItself op := by
  constructor
  · intro still
    have recorded := still.recorded
    cases op with
    | recv frame =>
        intro message heard claimed
        rw [at?_own_of_heard acted heard, if_pos claimed, acted.ethernetAddress] at recorded
        exact Option.some.inj recorded
    | tick msSinceLastTick =>
        rw [at?_own_of_unheard acted rfl] at recorded
        obtain ⟨entry, there, -⟩ := Option.map_eq_some_iff.mp recorded
        obtain ⟨known, alive⟩ := Option.filter_eq_some_iff.mp there
        rw [expiry entry known] at alive
        have before := of_decide_eq_true alive
        exact before
    | send dgram nextHop => exact True.intro
    | maybeSend => exact True.intro
  · intro spares
    constructor
    · rw [acted.ethernetAddress]
      exact recorded_of_spares knows expiry acted spares
    · intro frame inside type message parsed own
      rw [acted.ipAddress] at own
      rw [acted.ethernetAddress]
      obtain ⟨taken, frames, split, emits⟩ := acted.emitted
      have kept : frame ∈ listening.interface.sendQueue ++ frames := by
        rw [split]
        exact List.mem_append_right taken inside
      rcases List.mem_append.mp kept with old | new
      · exact knows.queued frame old type message parsed own
      · exact queued_of_emits knows spares (emits frame new) type parsed own

end Record

/-- The interface knows itself throughout a run just if every call of it that returns
spares the own address. -/
theorem knowsItself_iff_sparesItself (ethernetAddress : EthernetAddress) (ipAddress : UInt32)
    (ops : List Op) :
    EachReached step (fun listening => listening.interface.KnowsItself)
        (new ethernetAddress ipAddress) ops ↔
      EachAttempt step (WhenReturning step SparesItself) (new ethernetAddress ipAddress) ops := by
  refine eachReached_iff_whenReturning
    (fun listening : Listening => listening.Tracked ethernetAddress ipAddress ∧
      listening.ExpiryKnown) _ _ ?_ ?_
    ⟨tracked_new ethernetAddress ipAddress, expiryKnown_new ethernetAddress ipAddress⟩
    (knowsItself_new ethernetAddress ipAddress) ops
  · rintro listening op next ⟨tracked, expiry⟩ ran
    refine ⟨tracked.step ran, ?_⟩
    obtain ⟨after, acted, rfl⟩ := step_ok ran
    exact expiry.record tracked acted
  · rintro listening op next ⟨tracked, expiry⟩ knows ran
    obtain ⟨after, acted, rfl⟩ := step_ok ran
    exact knowsItself_iff_spares knows expiry acted

/-- A message from another host that claims the own IP address. -/
theorem knowsItself_fails_claim :
    ¬ EachReached step (fun listening => listening.interface.KnowsItself)
      (new ⟨[2, 0, 0, 0, 0, 1], rfl⟩ 0x0a000001)
      [.recv ⟨⟨⟨[2, 0, 0, 0, 0, 1], rfl⟩, ⟨[2, 0, 0, 0, 0, 2], rfl⟩, EthernetHeader.TYPE_ARP⟩,
        [[0, 1, 8, 0, 6, 4, 0, 2, 2, 0, 0, 0, 0, 2, 10, 0, 0, 1, 2, 0, 0, 0, 0, 1, 10, 0, 0, 1]]⟩] := by
  intro each
  have last := (each.final rfl).recorded
  revert last
  decide

end Listening

end Minnow.Link
