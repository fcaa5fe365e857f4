import Minnow.Link.AddressHistory

/-!
# How fresh the addresses are

An address is on record for a next hop just if a message from it was heard less than half
a minute ago, and it is the one that the latest such message gave.
-/

namespace Minnow.Link

open Foundation Foundation.Runs Wire NetworkInterface

namespace NetworkInterface

/-- The call queued the datagram in an IPv4 frame with this destination, and nothing else. -/
def Places (interface : NetworkInterface) (dgram : InternetDatagram) (dst : EthernetAddress)
    (next : NetworkInterface) : Prop :=
  ∃ payload, serialize dgram.serialize = .ok payload ∧
    next.sendQueue = interface.sendQueue ++
      [⟨⟨dst, interface.ethernetAddress, EthernetHeader.TYPE_IPv4⟩, payload⟩]

variable {interface next : NetworkInterface}

/-- A datagram is placed at once just if the next hop is on record, and goes to the address
there. -/
theorem places_iff {dgram : InternetDatagram} {nextHop : UInt32}
    (sent : interface.sendDatagram dgram nextHop = .ok next) (dst : EthernetAddress) :
    interface.Places dgram dst next ↔
      (interface.addressMap.at? nextHop).map AddressCache.ethernetAddress = some dst := by
  cases sendDatagram_stepped sent with
  | @sent _ _ entry payload known written =>
      rw [known]
      constructor
      · rintro ⟨other, -, queued⟩
        have same := List.append_cancel_left queued
        cases same
        rfl
      · intro there
        cases there
        exact ⟨payload, written, rfl⟩
  | requested unknown due written =>
      rw [unknown]
      constructor
      · rintro ⟨other, -, queued⟩
        have same := List.append_cancel_left queued
        cases same
      · exact fun there => nomatch there
  | dropped unknown pending =>
      rw [unknown]
      constructor
      · rintro ⟨other, -, queued⟩
        have longer := congrArg List.length queued
        rw [List.length_append] at longer
        exact absurd longer (Nat.ne_of_lt (Nat.lt_succ_self _))
      · exact fun there => nomatch there

end NetworkInterface

namespace Listening

variable {listening next : Listening} {op : Op} {ethernetAddress : EthernetAddress}
  {ipAddress hop : UInt32}

/-- What is on record of a message heard at a time, `now`. -/
def remembered (now : Nat) (entry : Nat × ARPMessage) : Option AddressCache :=
  if now < entry.1 + 30000 then
    some ⟨entry.2.senderEthernetAddress, UInt64.ofNat (entry.1 + 30000)⟩
  else none

/-- The address of every other host is the one last heard, while it is fresh. -/
def Fresh (ipAddress : UInt32) (listening : Listening) : Prop :=
  ∀ hop, hop ≠ ipAddress → listening.interface.addressMap.at? hop =
    (listening.lastFrom hop).bind (remembered listening.elapsed)

theorem fresh_new (ethernetAddress : EthernetAddress) (ipAddress : UInt32) :
    (new ethernetAddress ipAddress).Fresh ipAddress :=
  fun _ other => Table.at?_assign_of_ne _ _ other

/-- Time passes over what is remembered. -/
theorem remembered_filter {now : Nat} {entry : Nat × ARPMessage} {msSinceLastTick : UInt64}
    (stamped : entry.1 ≤ now) (bounded : now + msSinceLastTick.toNat < 2 ^ 64 - 30000) :
    (remembered now entry).filter
        (fun cached => UInt64.ofNat now + msSinceLastTick < cached.expireTimeMs) =
      remembered (now + msSinceLastTick.toNat) entry := by
  have compared : UInt64.ofNat now + msSinceLastTick < UInt64.ofNat (entry.1 + 30000) ↔
      now + msSinceLastTick.toNat < entry.1 + 30000 := by
    rw [UInt64.lt_iff_toNat_lt, UInt64.toNat_add, UInt64.toNat_ofNat', UInt64.toNat_ofNat']
    omega
  rw [remembered, remembered]
  by_cases fresh : now < entry.1 + 30000
  · rw [if_pos fresh, Option.filter_some]
    simp only [decide_eq_true_eq, compared]
  · rw [if_neg fresh, if_neg (by omega)]
    rfl

theorem remembered_now (listening : Listening) (message : ARPMessage) :
    remembered listening.elapsed (listening.elapsed, message) =
      some ⟨message.senderEthernetAddress, UInt64.ofNat (listening.elapsed + 30000)⟩ :=
  if_pos (Nat.lt_add_of_pos_right (by decide))

theorem Fresh.step (fresh : listening.Fresh ipAddress)
    (tracked : listening.Tracked ethernetAddress ipAddress) (ran : listening.step op = .ok next)
    (bounded : next.elapsed < 2 ^ 64 - 30000) : next.Fresh ipAddress := by
  obtain ⟨after, acted, rfl⟩ := step_ok ran
  intro hop other
  change after.addressMap.at? hop = _
  cases heard : listening.interface.hears op with
  | some message =>
      have still : (listening.record op after).elapsed = listening.elapsed := by
        rw [record, duration_of_hears heard]
        rfl
      rw [acted.learned message heard, still]
      by_cases same : hop = message.senderIpAddress
      · rw [same, lastFrom_record_sender heard]
        refine (Table.at?_assign_self _ _ _).trans ?_
        rw [Option.bind_some, remembered_now, tracked.timer, UInt64.ofNat_add]
        rfl
      · rw [lastFrom_record_of_ne heard same]
        exact (Table.at?_assign_of_ne _ _ same).trans (fresh hop other)
  | none =>
      rw [acted.kept heard, lastFrom_record_unheard heard]
      cases op with
      | tick msSinceLastTick =>
          change Table.at? (NetworkInterface.tick _ _).addressMap hop = _
          rw [addressMap_tick, Table.at?_keep, fresh hop other, tracked.timer]
          cases last : listening.lastFrom hop with
          | none => rfl
          | some entry =>
              exact remembered_filter (tracked.stamped entry (List.mem_of_find?_eq_some last)) bounded
      | send dgram nextHop => exact fresh hop other
      | recv frame => exact fresh hop other
      | maybeSend => exact fresh hop other

/-- In every run short of the end of the clock the addresses on record are fresh. -/
theorem fresh_of_attempt {ops : List Op}
    (ran : attempt step (new ethernetAddress ipAddress) ops = .ok listening)
    (bounded : listening.elapsed < 2 ^ 64 - 30000) :
    listening.Tracked ethernetAddress ipAddress ∧ listening.Fresh ipAddress := by
  have always := attempt_invariant
    (fun listening => listening.Tracked ethernetAddress ipAddress ∧
      (listening.elapsed < 2 ^ 64 - 30000 → listening.Fresh ipAddress)) ?_
    ⟨tracked_new ethernetAddress ipAddress, fun _ => fresh_new ethernetAddress ipAddress⟩ ran
  · exact ⟨always.1, always.2 bounded⟩
  · rintro listening op next ⟨tracked, fresh⟩ ran
    refine ⟨tracked.step ran, ?_⟩
    intro later
    have earlier : listening.elapsed ≤ next.elapsed := by
      obtain ⟨after, -, rfl⟩ := step_ok ran
      exact Nat.le_add_right _ _
    exact (fresh (Nat.lt_of_le_of_lt earlier later)).step tracked ran later

/-- The first message found is the latest. -/
theorem latest_of_lastFrom (tracked : listening.Tracked ethernetAddress ipAddress)
    {entry : Nat × ARPMessage} (inside : entry ∈ listening.heard)
    (sender : entry.2.senderIpAddress = hop) :
    ∃ latest, listening.lastFrom hop = some latest ∧ entry.1 ≤ latest.1 := by
  cases last : listening.lastFrom hop with
  | none =>
      have missing := List.find?_eq_none.mp last entry inside
      exact absurd (beq_iff_eq.mpr sender) missing
  | some latest =>
      refine ⟨latest, rfl, ?_⟩
      obtain ⟨-, before, after, split, passed⟩ := List.find?_eq_some_iff_append.mp last
      have ordered := tracked.latestFirst
      rw [split] at inside ordered
      obtain ⟨-, later, -⟩ := List.pairwise_append.mp ordered
      rcases List.mem_append.mp inside with early | late
      · have other := passed entry early
        rw [sender] at other
        simp at other
      · rcases List.mem_cons.mp late with here | behind
        · rw [here]
        · exact List.rel_of_pairwise_cons later behind

/-- Something is remembered of a host just if it was heard within the last half minute. -/
theorem remembered_iff_heard (tracked : listening.Tracked ethernetAddress ipAddress) (hop : UInt32) :
    (∃ cached, (listening.lastFrom hop).bind (remembered listening.elapsed) = some cached) ↔
      ∃ entry ∈ listening.heard, entry.2.senderIpAddress = hop ∧
        listening.elapsed < entry.1 + 30000 := by
  constructor
  · rintro ⟨cached, recalled⟩
    obtain ⟨entry, last, kept⟩ := Option.bind_eq_some_iff.mp recalled
    refine ⟨entry, List.mem_of_find?_eq_some last, sender_of_lastFrom last, ?_⟩
    by_contra stale
    exact nomatch (if_neg stale).symm.trans kept
  · rintro ⟨entry, inside, sender, fresh⟩
    obtain ⟨latest, last, newer⟩ := latest_of_lastFrom tracked inside sender
    rw [last]
    exact ⟨_, if_pos (Nat.lt_of_lt_of_le fresh (Nat.add_le_add_right newer 30000))⟩

/-- After every run a datagram that can be written at all is passed on without a fault, and
any datagram is placed in an IPv4 frame at once just if a message from its next hop was
heard less than half a minute ago; the frame then goes where the latest such message said. -/
theorem places_iff_heard (ethernetAddress : EthernetAddress) (ipAddress : UInt32) (ops : List Op)
    (listening : Listening) (ran : attempt step (new ethernetAddress ipAddress) ops = .ok listening)
    (bounded : listening.elapsed < 2 ^ 64 - 30000) (nextHop : UInt32) (other : nextHop ≠ ipAddress)
    (dgram : InternetDatagram) :
    (dgram.header.ver = 4 → ∃ next, listening.interface.sendDatagram dgram nextHop = .ok next) ∧
      ∀ next, listening.interface.sendDatagram dgram nextHop = .ok next →
        ((∃ dst, listening.interface.Places dgram dst next) ↔
          ∃ entry ∈ listening.heard, entry.2.senderIpAddress = nextHop ∧
            listening.elapsed < entry.1 + 30000) ∧
        ∀ dst, listening.interface.Places dgram dst next →
          ∃ entry, listening.lastFrom nextHop = some entry ∧
            entry.2.senderEthernetAddress = dst := by
  obtain ⟨tracked, fresh⟩ := fresh_of_attempt ran bounded
  have onRecord := fresh nextHop other
  refine ⟨fun version => sendDatagram_returns version nextHop, ?_⟩
  intro next sent
  constructor
  · rw [← remembered_iff_heard tracked, ← onRecord]
    constructor
    · rintro ⟨dst, placed⟩
      obtain ⟨cached, known, -⟩ := Option.map_eq_some_iff.mp ((places_iff sent dst).mp placed)
      exact ⟨cached, known⟩
    · rintro ⟨cached, known⟩
      exact ⟨_, (places_iff sent _).mpr (Option.map_eq_some_iff.mpr ⟨cached, known, rfl⟩)⟩
  · intro dst placed
    obtain ⟨cached, known, rfl⟩ := Option.map_eq_some_iff.mp ((places_iff sent dst).mp placed)
    rw [onRecord] at known
    obtain ⟨entry, last, kept⟩ := Option.bind_eq_some_iff.mp known
    refine ⟨entry, last, ?_⟩
    rw [remembered] at kept
    split at kept
    · cases kept
      rfl
    · exact nomatch kept

/-- A reply from another host, and most of half a minute. -/
def heardOnce : List Op :=
  [.recv ⟨⟨⟨[2, 0, 0, 0, 0, 1], rfl⟩, ⟨[2, 0, 0, 0, 0, 2], rfl⟩, EthernetHeader.TYPE_ARP⟩,
      [[0, 1, 8, 0, 6, 4, 0, 2, 2, 0, 0, 0, 0, 2, 10, 0, 0, 2, 2, 0, 0, 0, 0, 1, 10, 0, 0, 1]]⟩,
    .tick 29999]

theorem places_iff_heard_once :
    ∃ listening, attempt step (new ⟨[2, 0, 0, 0, 0, 1], rfl⟩ 0x0a000001) heardOnce = .ok listening ∧
      ∀ next, listening.interface.sendDatagram {} 0x0a000002 = .ok next →
        ∃ dst, listening.interface.Places {} dst next := by
  refine ⟨_, rfl, ?_⟩
  intro next sent
  have placed := (places_iff_heard ⟨[2, 0, 0, 0, 0, 1], rfl⟩ 0x0a000001 heardOnce _ rfl (by decide)
    0x0a000002 (by decide) {}).2 next sent
  exact placed.1.mpr ⟨_, List.mem_cons_self, rfl, by decide⟩

end Listening

end Minnow.Link
