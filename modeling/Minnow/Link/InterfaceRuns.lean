import Minnow.Link.DatagramLedger

/-!
# Runs of the network interface

The ledger of a station balances throughout a run exactly when no datagram is passed for a
next hop that is off record while a request for it is pending: such a datagram is dropped.
-/

namespace Minnow.Link

open Foundation Foundation.Runs Wire NetworkInterface

/-- A frame placed for a next hop, with the address on record for it at the time. -/
structure Placement where
  hop : UInt32
  frame : EthernetFrame
  resolved : Option EthernetAddress

/-- An interface with all that was passed to it and all that it placed in IPv4 frames. -/
structure Station where
  interface : NetworkInterface
  passed : List (UInt32 × InternetDatagram)
  placed : List Placement

namespace Station

def new (ethernetAddress : EthernetAddress) (ipAddress : UInt32) : Station :=
  ⟨NetworkInterface.new ethernetAddress ipAddress, [], []⟩

/-- A frame placed by a call that left the interface as `next`. -/
def placement (op : Op) (next : NetworkInterface) (frame : EthernetFrame) : Placement :=
  ⟨op.hop, frame, (next.addressMap.at? op.hop).map AddressCache.ethernetAddress⟩

/-- The station after a call that left its interface as `next`. -/
def record (station : Station) (op : Op) (next : NetworkInterface) : Station where
  interface := next
  passed := station.passed ++ op.dgrams.map fun dgram => (op.hop, dgram)
  placed := station.placed ++ (station.interface.placedSince next).map (placement op next)

def step (station : Station) (op : Op) : Except Fault Station :=
  station.record op <$> station.interface.act op

def passedTo (station : Station) (hop : UInt32) : List InternetDatagram :=
  (station.passed.filter fun entry => entry.1 == hop).map Prod.snd

def framesTo (station : Station) (hop : UInt32) : List EthernetFrame :=
  (station.placed.filter fun placement => placement.hop == hop).map Placement.frame

/-- What was passed for a next hop is what was placed for it, in order, and then what waits
for it; and each frame is addressed to the next hop it was placed for. -/
structure Balanced (station : Station) : Prop where
  inOrder : ∀ hop, ∃ sent,
    station.passedTo hop = sent ++ station.interface.cachedFor hop ∧
      sent.map (fun dgram => serialize dgram.serialize) =
        (station.framesTo hop).map fun frame => .ok frame.payload
  addressed : ∀ placement ∈ station.placed,
    placement.resolved = some placement.frame.header.dst

variable {station next : Station}

theorem balanced_new (ethernetAddress : EthernetAddress) (ipAddress : UInt32) :
    (new ethernetAddress ipAddress).Balanced :=
  ⟨fun _ => ⟨[], rfl, rfl⟩, fun _ inside => absurd inside List.not_mem_nil⟩

theorem step_ok {op : Op} (ran : station.step op = .ok next) :
    ∃ after, Stepped station.interface op after ∧ next = station.record op after := by
  obtain ⟨after, acted, rfl⟩ := Fault.map_eq_ok.mp ran
  exact ⟨after, stepped_of_act acted, rfl⟩

/-! ## Entries by their key -/

section Keyed

variable {Entry Item : Type} (key : Entry → UInt32) (value : Entry → Item) (make : Item → Entry)
  {tag hop : UInt32}

theorem filter_append_self (keyed : ∀ item, key (make item) = hop)
    (valued : ∀ item, value (make item) = item) (entries : List Entry) (items : List Item) :
    ((entries ++ items.map make).filter fun entry => key entry == hop).map value =
      (entries.filter fun entry => key entry == hop).map value ++ items := by
  have all : (items.map make).filter (fun entry => key entry == hop) = items.map make := by
    refine List.filter_eq_self.mpr ?_
    intro entry inside
    obtain ⟨item, _, rfl⟩ := List.mem_map.mp inside
    exact beq_iff_eq.mpr (keyed item)
  have back : value ∘ make = id := funext valued
  rw [List.filter_append, all, List.map_append, List.map_map, back, List.map_id]

theorem filter_append_of_ne (keyed : ∀ item, key (make item) = tag) (differs : hop ≠ tag)
    (entries : List Entry) (items : List Item) :
    ((entries ++ items.map make).filter fun entry => key entry == hop).map value =
      (entries.filter fun entry => key entry == hop).map value := by
  have none : (items.map make).filter (fun entry => key entry == hop) = [] := by
    refine List.filter_eq_nil_iff.mpr ?_
    intro entry inside same
    obtain ⟨item, _, rfl⟩ := List.mem_map.mp inside
    exact differs ((keyed item).symm.trans (beq_iff_eq.mp same)).symm
  rw [List.filter_append, none, List.append_nil]

end Keyed

/-! ## One call -/

section Record

variable {op : Op} {after : NetworkInterface} {hop : UInt32}

theorem passedTo_record_self :
    (station.record op after).passedTo op.hop = station.passedTo op.hop ++ op.dgrams :=
  filter_append_self Prod.fst Prod.snd (fun dgram => (op.hop, dgram)) (fun _ => rfl)
    (fun _ => rfl) _ _

theorem passedTo_record_of_ne (differs : hop ≠ op.hop) :
    (station.record op after).passedTo hop = station.passedTo hop :=
  filter_append_of_ne Prod.fst Prod.snd (fun dgram => (op.hop, dgram)) (fun _ => rfl) differs _ _

theorem framesTo_record_self :
    (station.record op after).framesTo op.hop =
      station.framesTo op.hop ++ station.interface.placedSince after :=
  filter_append_self Placement.hop Placement.frame (placement op after) (fun _ => rfl)
    (fun _ => rfl) _ _

theorem framesTo_record_of_ne (differs : hop ≠ op.hop) :
    (station.record op after).framesTo hop = station.framesTo hop :=
  filter_append_of_ne Placement.hop Placement.frame (placement op after) (fun _ => rfl) differs _ _

/-- What moves at a call leaves the ledger balanced. -/
theorem Balanced.record {sent : List InternetDatagram} (balanced : station.Balanced)
    (moves : Moves station.interface op after sent) : (station.record op after).Balanced := by
  constructor
  · intro hop
    obtain ⟨before, passed, written⟩ := balanced.inOrder hop
    by_cases same : hop = op.hop
    · subst same
      refine ⟨before ++ sent, ?_, ?_⟩
      · rw [passedTo_record_self, passed, List.append_assoc, moves.balance, ← List.append_assoc]
        rfl
      · rw [framesTo_record_self, List.map_append, List.map_append, written, moves.written]
    · refine ⟨before, ?_, ?_⟩
      · rw [passedTo_record_of_ne same, passed, ← moves.others hop same]
        rfl
      · rw [framesTo_record_of_ne same, written]
  · intro placement inside
    rcases List.mem_append.mp inside with old | new
    · exact balanced.addressed placement old
    · obtain ⟨frame, placed, rfl⟩ := List.mem_map.mp new
      exact moves.addressed frame placed

/-- A balanced ledger has as many datagrams placed and waiting as were passed. -/
theorem Balanced.count (balanced : station.Balanced) (hop : UInt32) :
    (station.passedTo hop).length =
      (station.framesTo hop).length + (station.interface.cachedFor hop).length := by
  obtain ⟨sent, passed, written⟩ := balanced.inOrder hop
  have same := congrArg List.length written
  rw [List.length_map, List.length_map] at same
  rw [passed, List.length_append, same]

/-- A call that the interface does not accept loses its datagram. -/
theorem Balanced.lost (balanced : station.Balanced) (stepped : Stepped station.interface op after)
    (refused : ¬ station.interface.Accepts op) : ¬ (station.record op after).Balanced := by
  intro still
  cases stepped with
  | sent known written => exact refused (Or.inl (Table.contains_eq_true.mpr ⟨_, known⟩))
  | requested unknown due written => exact refused (Or.inr due)
  | @dropped dgram nextHop unknown pending =>
      have earlier := balanced.count nextHop
      have later := still.count nextHop
      have passed : (station.record (.send dgram nextHop) station.interface).passedTo nextHop =
          station.passedTo nextHop ++ [dgram] := passedTo_record_self
      have placed : (station.record (.send dgram nextHop) station.interface).framesTo nextHop =
          station.framesTo nextHop ++ station.interface.placedSince station.interface :=
        framesTo_record_self
      rw [placedSince_of_le (Nat.le_refl _), List.append_nil] at placed
      rw [passed, placed, List.length_append, earlier] at later
      change _ + 1 = _ at later
      exact Nat.succ_ne_self _ later
  | passedUp => exact refused True.intro
  | learned parsed written answered => exact refused True.intro
  | ticked => exact refused True.intro
  | taken => exact refused True.intro

end Record

/-! ## Whole runs -/

theorem disjoint_step {op : Op} (disjoint : station.interface.Disjoint)
    (ran : station.step op = .ok next) : next.interface.Disjoint := by
  obtain ⟨after, stepped, rfl⟩ := step_ok ran
  exact disjoint.step stepped

/-- Only a call that the interface accepts can fail. -/
theorem accepts_of_error {op : Op} {fault : Fault} (failed : station.step op = .error fault) :
    station.interface.Accepts op := by
  cases op with
  | send dgram nextHop =>
      by_contra refused
      have dropped : station.step (.send dgram nextHop) = .ok _ :=
        Fault.map_eq_ok.mpr ⟨_, sendDatagram_of_refused refused, rfl⟩
      exact nomatch dropped.symm.trans failed
  | recv frame => exact True.intro
  | tick msSinceLastTick => exact True.intro
  | maybeSend => exact True.intro

/-- The ledger balances throughout a run just if every call of it is accepted. -/
theorem balanced_iff_accepted (ethernetAddress : EthernetAddress) (ipAddress : UInt32)
    (ops : List Op) :
    EachReached step Balanced (new ethernetAddress ipAddress) ops ↔
      EachAttempt step (fun station op => station.interface.Accepts op)
        (new ethernetAddress ipAddress) ops := by
  refine eachReached_iff_eachAttempt (fun station => station.interface.Disjoint) Balanced _ ?_ ?_ ?_
    (disjoint_new ethernetAddress ipAddress) (balanced_new ethernetAddress ipAddress) ops
  · exact fun station op next disjoint ran => disjoint_step disjoint ran
  · intro station op next disjoint balanced ran
    obtain ⟨after, stepped, rfl⟩ := step_ok ran
    constructor
    · intro still
      by_contra refused
      exact balanced.lost stepped refused still
    · intro accepted
      obtain ⟨sent, moves⟩ := stepped.moves disjoint accepted
      exact balanced.record moves
  · exact fun station op fault failed => accepts_of_error failed

/-- Two datagrams passed for a next hop before its address is known, and its address. -/
theorem second_datagram_lost :
    ¬ EachReached step Balanced (new ⟨[2, 0, 0, 0, 0, 1], rfl⟩ 0x0a000001)
      [.send { payload := [[1]] } 0x0a000002, .send { payload := [[2]] } 0x0a000002,
        .recv ⟨⟨⟨[2, 0, 0, 0, 0, 1], rfl⟩, ⟨[2, 0, 0, 0, 0, 2], rfl⟩, EthernetHeader.TYPE_ARP⟩,
          [[0, 1, 8, 0, 6, 4, 0, 2, 2, 0, 0, 0, 0, 2, 10, 0, 0, 2, 2, 0, 0, 0, 0, 1, 10, 0, 0, 1]]⟩] := by
  intro each
  have last := (each.final rfl).count 0x0a000002
  revert last
  decide

end Station

end Minnow.Link
