import Minnow.Link.ArpReplies

/-!
# How often the interface asks

A request is pending for five seconds, and what is pending is cleared away no earlier.  So
requests for one address are at least five seconds apart, and none is held back for longer.
-/

namespace Minnow.Link

open Foundation Foundation.Runs Wire NetworkInterface

namespace NetworkInterface

/-- The address for which a frame asks, if it holds an ARP request. -/
def asksFor (frame : EthernetFrame) : Option UInt32 :=
  if frame.header.type = EthernetHeader.TYPE_ARP then
    match parse (ARPMessage.parse {}) frame.payload with
    | .ok (some message) =>
        if message.opcode = ARPMessage.OPCODE_REQUEST then some message.targetIpAddress else none
    | _ => none
  else none

/-- The requests in the send queue of the second interface behind what the first has there. -/
def asksSince (before after : NetworkInterface) : List UInt32 :=
  (before.queuedSince after).filterMap asksFor

/-- The interface has an address for the host that has not expired. -/
def Live (interface : NetworkInterface) (ip : UInt32) : Prop :=
  ∃ entry, interface.addressMap.at? ip = some entry ∧ interface.timer < entry.expireTimeMs

/-- What a call does to the requests that are pending. -/
inductive Asking (interface : NetworkInterface) (op : Op) (next : NetworkInterface) : Prop where
  | quiet (silent : interface.asksSince next = [])
      (kept : ∀ ip expire, interface.arpRequestExpireTimers.at? ip = some expire →
        interface.timer + op.duration < expire →
        next.arpRequestExpireTimers.at? ip = some expire)
      (only : ∀ ip expire, next.arpRequestExpireTimers.at? ip = some expire →
        interface.arpRequestExpireTimers.at? ip = some expire)
  | asks {nextHop : UInt32} (still : op.duration = 0) (due : interface.requestDue nextHop = true)
      (asked : interface.asksSince next = [nextHop])
      (assigned : next.arpRequestExpireTimers = interface.arpRequestExpireTimers.assign nextHop
        (interface.timer + ARP_REQUEST_TIMEOUT_MS))

variable {interface next : NetworkInterface} {op : Op}

theorem asksFor_datagramFrame (dst : EthernetAddress) (payload : List Buffer) :
    asksFor (interface.datagramFrame dst payload) = none :=
  if_neg (show EthernetHeader.TYPE_IPv4 ≠ EthernetHeader.TYPE_ARP by decide)

theorem asksFor_arpFrame {type : UInt16} {senderIp targetIp : UInt32} {payload : List Buffer}
    (known : type = ARPMessage.OPCODE_REQUEST ∨ type = ARPMessage.OPCODE_REPLY)
    (written : serialize (interface.arpMessage type senderIp targetIp).serialize = .ok payload)
    (dst : EthernetAddress) :
    asksFor (interface.arpFrame dst payload) =
      if type = ARPMessage.OPCODE_REQUEST then some targetIp else none := by
  refine (if_pos rfl).trans ?_
  change (match parse (ARPMessage.parse {}) payload with
    | .ok (some message) =>
        if message.opcode = ARPMessage.OPCODE_REQUEST then some message.targetIpAddress else none
    | _ => none) = _
  rw [parse_arpMessage known written]
  rfl

theorem asksSince_of_queued {frames : List EthernetFrame}
    (queued : next.sendQueue = interface.sendQueue ++ frames) :
    interface.asksSince next = frames.filterMap asksFor := by
  rw [asksSince, queuedSince, queued, List.drop_left]

/-- A call that queues nothing asks for nothing. -/
theorem asksSince_of_le (short : next.sendQueue.length ≤ interface.sendQueue.length) :
    interface.asksSince next = [] := by
  rw [asksSince, queuedSince, List.drop_eq_nil_of_le short]
  rfl

theorem asksSince_await {dgram : InternetDatagram} {nextHop : UInt32} {payload : List Buffer}
    (written : serialize (interface.arpMessage ARPMessage.OPCODE_REQUEST interface.ipAddress
      nextHop).serialize = .ok payload) :
    interface.asksSince
      (interface.await nextHop dgram (interface.arpFrame ETHERNET_BROADCAST payload)) = [nextHop] := by
  rw [asksSince_of_queued rfl, List.filterMap_cons, asksFor_arpFrame (Or.inl rfl) written]
  rfl

/-- Waiting datagrams and replies are no requests. -/
theorem asksFor_released {message : ARPMessage} {payloads : List (List Buffer)}
    {replies : List EthernetFrame} (answered : Replies (interface.learn message) message replies) :
    (payloads.map (interface.datagramFrame message.senderEthernetAddress) ++ replies).filterMap
      asksFor = [] := by
  apply List.filterMap_eq_nil_iff.mpr
  intro frame inside
  rcases List.mem_append.mp inside with datagram | answer
  · obtain ⟨payload, -, rfl⟩ := List.mem_map.mp datagram
    exact asksFor_datagramFrame _ _
  · cases answered with
    | silent ignored => exact absurd answer List.not_mem_nil
    | reply asked written =>
        rw [List.mem_singleton.mp answer]
        exact (asksFor_arpFrame (Or.inr rfl) written _).trans
          (if_neg (show ARPMessage.OPCODE_REPLY ≠ ARPMessage.OPCODE_REQUEST by decide))

theorem asking_tick (msSinceLastTick : UInt64) :
    Asking interface (.tick msSinceLastTick) (interface.tick msSinceLastTick) := by
  refine .quiet (asksSince_of_le (by rw [sendQueue_tick])) ?_ ?_
  · intro ip expire pending ahead
    rw [NetworkInterface.tick]
    split
    · refine (Table.at?_keep _ _ _).trans ?_
      rw [pending, Option.filter_some]
      exact if_pos (decide_eq_true ahead)
    · exact pending
  · intro ip expire
    rw [NetworkInterface.tick]
    split
    · exact fun kept => (Option.filter_eq_some_iff.mp kept).1
    · exact id

theorem asking_of_unchanged (silent : interface.asksSince next = [])
    (same : next.arpRequestExpireTimers = interface.arpRequestExpireTimers) :
    Asking interface op next := by
  refine .quiet silent ?_ ?_
  · rw [same]
    exact fun _ _ pending _ => pending
  · rw [same]
    exact fun _ _ pending => pending

theorem asking_of_act (acted : interface.act op = .ok next) : Asking interface op next := by
  cases stepped_of_act acted with
  | sent known written =>
      refine asking_of_unchanged ?_ rfl
      rw [asksSince_of_queued rfl]
      exact List.filterMap_eq_nil_iff.mpr fun frame inside =>
        List.mem_singleton.mp inside ▸ asksFor_datagramFrame _ _
  | requested unknown due written => exact .asks rfl due (asksSince_await written) rfl
  | dropped unknown pending => exact asking_of_unchanged (asksSince_of_le (Nat.le_refl _)) rfl
  | passedUp => exact asking_of_unchanged (asksSince_of_le (Nat.le_refl _)) rfl
  | learned parsed written answered =>
      refine asking_of_unchanged ?_ rfl
      rw [asksSince_of_queued rfl]
      exact asksFor_released answered
  | ticked => exact asking_tick _
  | taken =>
      rw [maybeSend]
      cases queued : interface.sendQueue with
      | nil => exact asking_of_unchanged (asksSince_of_le (Nat.le_refl _)) rfl
      | cons frame rest =>
          refine asking_of_unchanged (asksSince_of_le ?_) rfl
          rw [queued]
          exact Nat.le_succ _

/-- A datagram for a next hop off record, for which no request is pending, makes one. -/
theorem sendDatagram_asks {dgram : InternetDatagram} {nextHop : UInt32}
    (unknown : interface.addressMap.at? nextHop = none)
    (due : interface.requestDue nextHop = true) :
    ∃ next, interface.sendDatagram dgram nextHop = .ok next ∧
      interface.asksSince next = [nextHop] := by
  obtain ⟨payload, written⟩ := ARPMessage.serialize_of_supported
    (interface.arpMessage_supported (Or.inl rfl) interface.ipAddress nextHop)
  have pushed : interface.pushArp ARPMessage.OPCODE_REQUEST interface.ipAddress nextHop
      ETHERNET_BROADCAST = .ok _ := Fault.bind_eq_ok.mpr ⟨payload, written, rfl⟩
  have requesting : interface.pushArpRequest nextHop = .ok _ :=
    Fault.bind_eq_ok.mpr ⟨_, pushed, rfl⟩
  refine ⟨interface.await nextHop dgram (interface.arpFrame ETHERNET_BROADCAST payload), ?_,
    asksSince_await written⟩
  rw [sendDatagram, unknown]
  dsimp only
  rw [if_pos due]
  exact Fault.bind_eq_ok.mpr ⟨_, requesting, rfl⟩

end NetworkInterface

/-- An interface, the milliseconds ticked so far, and the requests it has queued, each with its
time. -/
structure Pacing where
  interface : NetworkInterface
  elapsed : Nat
  requests : List (Nat × UInt32)

namespace Pacing

def new (ethernetAddress : EthernetAddress) (ipAddress : UInt32) : Pacing :=
  ⟨NetworkInterface.new ethernetAddress ipAddress, 0, []⟩

/-- The record after a call that left the interface as `next`. -/
def record (pacing : Pacing) (op : Op) (next : NetworkInterface) : Pacing where
  interface := next
  elapsed := pacing.elapsed + op.duration.toNat
  requests := pacing.requests ++ (pacing.interface.asksSince next).map (pacing.elapsed, ·)

def step (pacing : Pacing) (op : Op) : Except Fault Pacing :=
  pacing.record op <$> pacing.interface.act op

/-- Requests for one address are five seconds apart. -/
def Spaced (requests : List (Nat × UInt32)) : Prop :=
  requests.Pairwise fun earlier later => earlier.2 = later.2 → earlier.1 + 5000 ≤ later.1

/-- Every request for the address is more than five seconds old. -/
def Rested (pacing : Pacing) (ip : UInt32) : Prop :=
  ∀ entry ∈ pacing.requests, entry.2 = ip → entry.1 + 5000 < pacing.elapsed

/-- What holds in every run.  A request is pending for at least five seconds, and only on
account of some request that was made. -/
structure Paced (pacing : Pacing) : Prop where
  timer : pacing.interface.timer = UInt64.ofNat pacing.elapsed
  stamped : ∀ entry ∈ pacing.requests, entry.1 ≤ pacing.elapsed
  pending : ∀ entry ∈ pacing.requests, pacing.elapsed < entry.1 + 5000 →
    ∃ expire, pacing.interface.arpRequestExpireTimers.at? entry.2 = some expire ∧
      entry.1 + 5000 ≤ expire.toNat
  made : ∀ ip expire, pacing.interface.arpRequestExpireTimers.at? ip = some expire →
    ∃ entry ∈ pacing.requests, entry.2 = ip ∧ expire = UInt64.ofNat (entry.1 + 5000)
  spaced : Spaced pacing.requests
  live : ∀ ip entry, pacing.interface.addressMap.at? ip = some entry →
    pacing.interface.timer < entry.expireTimeMs

variable {pacing next : Pacing} {op : Op} {after : NetworkInterface} {ip : UInt32}

theorem paced_new (ethernetAddress : EthernetAddress) (ipAddress : UInt32) :
    (new ethernetAddress ipAddress).Paced where
  timer := rfl
  stamped := fun _ inside => absurd inside List.not_mem_nil
  pending := fun _ inside => absurd inside List.not_mem_nil
  made := fun _ _ present => nomatch present
  spaced := List.Pairwise.nil
  live := by
    intro ip entry present
    change Table.at? (Table.assign _ ipAddress _) ip = _ at present
    by_cases own : ip = ipAddress
    · rw [own, Table.at?_assign_self] at present
      cases present
      exact show (0 : UInt64) < UInt64.ofNat (2 ^ 64 - 1) by decide
    · rw [Table.at?_assign_of_ne _ _ own] at present
      exact nomatch present

/-- Where a request is due, the requests for the address are old enough. -/
theorem Paced.aged_of_due (paced : pacing.Paced) (bounded : pacing.elapsed < 2 ^ 64 - 30000)
    (due : pacing.interface.requestDue ip = true) :
    ∀ entry ∈ pacing.requests, entry.2 = ip → entry.1 + 5000 ≤ pacing.elapsed := by
  intro entry inside same
  by_contra recent
  obtain ⟨expire, present, later⟩ := paced.pending entry inside (Nat.not_le.mp recent)
  rw [same] at present
  rw [requestDue, present] at due
  have passed := UInt64.lt_iff_toNat_lt.mp (of_decide_eq_true due)
  rw [paced.timer, UInt64.toNat_ofNat'] at passed
  omega

/-- Once they have rested, a request is due. -/
theorem Paced.due_of_rested (paced : pacing.Paced) (bounded : pacing.elapsed < 2 ^ 64 - 30000)
    (rested : pacing.Rested ip) : pacing.interface.requestDue ip = true := by
  rw [requestDue]
  cases present : pacing.interface.arpRequestExpireTimers.at? ip with
  | none => rfl
  | some expire =>
      obtain ⟨entry, inside, same, rfl⟩ := paced.made ip expire present
      have old := rested entry inside same
      apply decide_eq_true
      rw [paced.timer, UInt64.lt_iff_toNat_lt, UInt64.toNat_ofNat', UInt64.toNat_ofNat']
      omega

/-- Time is kept, and no address outlives its time. -/
theorem Paced.live_step (paced : pacing.Paced)
    (bounded : pacing.elapsed + op.duration.toNat < 2 ^ 64 - 30000)
    (acted : Acted pacing.interface op after) :
    ∀ ip entry, after.addressMap.at? ip = some entry → after.timer < entry.expireTimeMs := by
  intro ip entry present
  rw [acted.timer]
  cases heard : pacing.interface.hears op with
  | some message =>
      rw [acted.learned message heard] at present
      rw [duration_of_hears heard, UInt64.add_zero]
      change Table.at? (Table.assign _ message.senderIpAddress _) ip = _ at present
      by_cases same : ip = message.senderIpAddress
      · rw [same, Table.at?_assign_self] at present
        cases present
        change _ < pacing.interface.timer + 30000
        rw [paced.timer, UInt64.lt_iff_toNat_lt, UInt64.toNat_add, UInt64.toNat_ofNat']
        change _ < (_ + 30000) % _
        omega
      · rw [Table.at?_assign_of_ne _ _ same] at present
        exact paced.live ip entry present
  | none =>
      rw [acted.kept heard] at present
      cases op with
      | tick msSinceLastTick =>
          change Table.at? (NetworkInterface.tick _ _).addressMap ip = _ at present
          rw [addressMap_tick] at present
          exact of_decide_eq_true (Option.filter_eq_some_iff.mp present).2
      | send dgram nextHop => exact (UInt64.add_zero _).symm ▸ paced.live ip entry present
      | recv frame => exact (UInt64.add_zero _).symm ▸ paced.live ip entry present
      | maybeSend => exact (UInt64.add_zero _).symm ▸ paced.live ip entry present

/-- A call without a request changes nothing but the time. -/
theorem Paced.quiet_step (paced : pacing.Paced)
    (bounded : pacing.elapsed + op.duration.toNat < 2 ^ 64 - 30000)
    (acted : Acted pacing.interface op after) (silent : pacing.interface.asksSince after = [])
    (kept : ∀ ip expire, pacing.interface.arpRequestExpireTimers.at? ip = some expire →
      pacing.interface.timer + op.duration < expire →
      after.arpRequestExpireTimers.at? ip = some expire)
    (only : ∀ ip expire, after.arpRequestExpireTimers.at? ip = some expire →
      pacing.interface.arpRequestExpireTimers.at? ip = some expire) :
    (pacing.record op after).Paced := by
  have same : (pacing.record op after).requests = pacing.requests := by
    rw [record, silent]
    exact List.append_nil _
  have timer : after.timer = UInt64.ofNat (pacing.elapsed + op.duration.toNat) := by
    rw [acted.timer, paced.timer, UInt64.ofNat_add, UInt64.ofNat_toNat]
  refine ⟨timer, ?_, ?_, ?_, same ▸ paced.spaced, paced.live_step bounded acted⟩
  · rw [same]
    exact fun entry inside => Nat.le_add_right_of_le (paced.stamped entry inside)
  · rw [same]
    intro entry inside recent
    obtain ⟨expire, present, later⟩ := paced.pending entry inside
      (Nat.lt_of_le_of_lt (Nat.le_add_right _ _) recent)
    refine ⟨expire, kept _ _ present ?_, later⟩
    change pacing.elapsed + op.duration.toNat < _ at recent
    rw [← acted.timer, timer, UInt64.lt_iff_toNat_lt, UInt64.toNat_ofNat']
    omega
  · rw [same]
    exact fun ip expire present => paced.made ip expire (only ip expire present)

/-- No request is stamped later than the one made now. -/
theorem Paced.stamped_asked (paced : pacing.Paced) (ip : UInt32) :
    ∀ entry ∈ pacing.requests ++ [(pacing.elapsed, ip)], entry.1 ≤ pacing.elapsed := by
  intro entry inside
  rcases List.mem_append.mp inside with old | new
  · exact paced.stamped entry old
  · rw [List.mem_singleton.mp new]

/-- The request made now is pending from now on, and those for other addresses stay. -/
theorem Paced.pending_asked (paced : pacing.Paced) (bounded : pacing.elapsed < 2 ^ 64 - 30000)
    (ip : UInt32) :
    ∀ entry ∈ pacing.requests ++ [(pacing.elapsed, ip)], pacing.elapsed < entry.1 + 5000 →
      ∃ expire, (pacing.interface.arpRequestExpireTimers.assign ip
          (UInt64.ofNat (pacing.elapsed + 5000))).at? entry.2 = some expire ∧
        entry.1 + 5000 ≤ expire.toNat := by
  intro entry inside recent
  by_cases same : entry.2 = ip
  · rw [same]
    refine ⟨_, Table.at?_assign_self _ _ _, ?_⟩
    have sent := paced.stamped_asked ip entry inside
    rw [UInt64.toNat_ofNat']
    omega
  · rcases List.mem_append.mp inside with old | new
    · obtain ⟨expire, present, later⟩ := paced.pending entry old recent
      exact ⟨expire, (Table.at?_assign_of_ne _ _ same).trans present, later⟩
    · exact absurd (congrArg Prod.snd (List.mem_singleton.mp new)) same

/-- What is pending then is so on account of this request or of an earlier one. -/
theorem Paced.made_asked (paced : pacing.Paced) (ip : UInt32) :
    ∀ other expire, (pacing.interface.arpRequestExpireTimers.assign ip
        (UInt64.ofNat (pacing.elapsed + 5000))).at? other = some expire →
      ∃ entry ∈ pacing.requests ++ [(pacing.elapsed, ip)],
        entry.2 = other ∧ expire = UInt64.ofNat (entry.1 + 5000) := by
  intro other expire present
  by_cases same : other = ip
  · rw [same, Table.at?_assign_self] at present
    rw [← Option.some.inj present]
    exact ⟨_, List.mem_append_right _ (List.mem_singleton_self _), same.symm, rfl⟩
  · rw [Table.at?_assign_of_ne _ _ same] at present
    obtain ⟨entry, inside, sent⟩ := paced.made other expire present
    exact ⟨entry, List.mem_append_left _ inside, sent⟩

/-- Where a request is due, making it keeps the distance. -/
theorem Paced.spaced_asked (paced : pacing.Paced) (bounded : pacing.elapsed < 2 ^ 64 - 30000)
    (due : pacing.interface.requestDue ip = true) :
    Spaced (pacing.requests ++ [(pacing.elapsed, ip)]) := by
  have aged := paced.aged_of_due bounded due
  refine List.pairwise_append.mpr ⟨paced.spaced, List.pairwise_singleton _ _, ?_⟩
  intro earlier old later new same
  rw [List.mem_singleton.mp new] at same ⊢
  exact aged earlier old same

/-- A request is queued only where one is due. -/
theorem Paced.asks_step (paced : pacing.Paced)
    (bounded : pacing.elapsed + op.duration.toNat < 2 ^ 64 - 30000)
    (acted : Acted pacing.interface op after) {nextHop : UInt32} (still : op.duration = 0)
    (due : pacing.interface.requestDue nextHop = true)
    (asked : pacing.interface.asksSince after = [nextHop])
    (assigned : after.arpRequestExpireTimers =
      pacing.interface.arpRequestExpireTimers.assign nextHop
        (pacing.interface.timer + ARP_REQUEST_TIMEOUT_MS)) :
    (pacing.record op after).Paced := by
  have now : (pacing.record op after).elapsed = pacing.elapsed := by
    rw [record, still]
    rfl
  have requests : (pacing.record op after).requests =
      pacing.requests ++ [(pacing.elapsed, nextHop)] := by
    rw [record, asked]
    rfl
  have within : pacing.elapsed < 2 ^ 64 - 30000 := by
    rw [still] at bounded
    exact bounded
  have expires : pacing.interface.timer + ARP_REQUEST_TIMEOUT_MS =
      UInt64.ofNat (pacing.elapsed + 5000) := by
    rw [paced.timer, UInt64.ofNat_add]
    rfl
  have timers : (pacing.record op after).interface.arpRequestExpireTimers =
      pacing.interface.arpRequestExpireTimers.assign nextHop
        (UInt64.ofNat (pacing.elapsed + 5000)) := by
    rw [← expires]
    exact assigned
  refine ⟨?_, ?_, ?_, ?_, ?_, paced.live_step bounded acted⟩
  · rw [now]
    exact (acted.timer.trans (still ▸ UInt64.add_zero _)).trans paced.timer
  · rw [requests, now]
    exact paced.stamped_asked nextHop
  · rw [requests, now, timers]
    exact paced.pending_asked within nextHop
  · rw [requests, timers]
    exact paced.made_asked nextHop
  · rw [requests]
    exact paced.spaced_asked within due

theorem Paced.step (paced : pacing.Paced) (ran : pacing.step op = .ok next)
    (bounded : next.elapsed < 2 ^ 64 - 30000) : next.Paced := by
  obtain ⟨after, acting, rfl⟩ := Fault.map_eq_ok.mp ran
  cases asking_of_act acting with
  | quiet silent kept only =>
      exact paced.quiet_step bounded (acted_of_act acting) silent kept only
  | asks still due asked assigned =>
      exact paced.asks_step bounded (acted_of_act acting) still due asked assigned

theorem paced_of_attempt {ethernetAddress : EthernetAddress} {ipAddress : UInt32} {ops : List Op}
    (ran : attempt step (new ethernetAddress ipAddress) ops = .ok pacing)
    (bounded : pacing.elapsed < 2 ^ 64 - 30000) : pacing.Paced := by
  induction ops using List.reverseRecOn generalizing pacing with
  | nil =>
      cases ran
      exact paced_new ethernetAddress ipAddress
  | append_singleton ops op ih =>
      obtain ⟨middle, before, last⟩ := attempt_snoc_ok ran
      have earlier : middle.elapsed ≤ pacing.elapsed := by
        obtain ⟨after, -, rfl⟩ := Fault.map_eq_ok.mp last
        exact Nat.le_add_right _ _
      exact (ih before (Nat.lt_of_le_of_lt earlier bounded)).step last bounded

/-- In every run the requests for one address are at least five seconds apart.  After every run
a datagram for a next hop that has no live address makes a request, if the last one for it is
more than five seconds old or there was none. -/
theorem requests_paced (ethernetAddress : EthernetAddress) (ipAddress : UInt32) (ops : List Op)
    (pacing : Pacing) (ran : attempt step (new ethernetAddress ipAddress) ops = .ok pacing)
    (bounded : pacing.elapsed < 2 ^ 64 - 30000) :
    Spaced pacing.requests ∧
      ∀ dgram nextHop, ¬ pacing.interface.Live nextHop → pacing.Rested nextHop →
        ∃ next, pacing.step (.send dgram nextHop) = .ok next ∧
          next.requests = pacing.requests ++ [(pacing.elapsed, nextHop)] := by
  have paced := paced_of_attempt ran bounded
  refine ⟨paced.spaced, ?_⟩
  intro dgram nextHop dead rested
  have unknown : pacing.interface.addressMap.at? nextHop = none := by
    cases known : pacing.interface.addressMap.at? nextHop with
    | none => rfl
    | some entry => exact absurd ⟨entry, known, paced.live nextHop entry known⟩ dead
  obtain ⟨after, sent, asked⟩ := @sendDatagram_asks pacing.interface dgram nextHop unknown
    (paced.due_of_rested bounded rested)
  refine ⟨_, Fault.map_eq_ok.mpr ⟨after, sent, rfl⟩, ?_⟩
  rw [record, asked]
  rfl

/-- A datagram for an unknown next hop, and a little more than five seconds. -/
def askedOnce : List Op := [.send {} 0x0a000002, .tick 5001]

theorem requests_paced_once :
    ∃ pacing next, attempt step (new EthernetAddress.zero 0x0a000001) askedOnce = .ok pacing ∧
      pacing.step (.send {} 0x0a000002) = .ok next ∧
      next.requests = [(0, 0x0a000002), (5001, 0x0a000002)] := by
  obtain ⟨next, sent, requests⟩ := (requests_paced EthernetAddress.zero 0x0a000001 askedOnce _ rfl
    (by decide)).2 {} 0x0a000002 (fun ⟨_, known, _⟩ => nomatch known) (by
      intro entry inside _
      rw [List.mem_singleton.mp inside]
      decide)
  exact ⟨_, next, rfl, sent, requests⟩

end Pacing

end Minnow.Link
