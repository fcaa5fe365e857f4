import Mathlib.Data.List.Forall2
import Minnow.Wire.SegmentAcceptance
import Minnow.Wire.TCPOverIP

/-!
# The peer of a listening adapter

A listening adapter takes the first one that sends a SYN to its port for its peer, and from
then on hears nobody else.
-/

namespace Minnow.Wire

namespace TCPOverIPv4Adapter

/-- The results of unwrapping one datagram after the other, each with the adapter after it. -/
def unwrapEach : TCPOverIPv4Adapter → List InternetDatagram →
    Except Fault (List (TCPOverIPv4Adapter × Option TCPSegment))
  | _, [] => .ok []
  | adapter, ipDgram :: rest => do
      let outcome ← adapter.unwrapTcpInIp ipDgram
      return outcome :: (← unwrapEach outcome.1 rest)

/-- The datagram claims to have a segment for its payload, and has. -/
structure Carries (ipDgram : InternetDatagram) (tcpSeg : TCPSegment) : Prop where
  tcp : ipDgram.header.proto = IPv4Header.PROTO_TCP
  parsed : parse (TCPSegment.parse {} ipDgram.header.pseudoChecksum) ipDgram.payload =
    .ok (some tcpSeg)

/-- The segment asks for a connection to the port. -/
structure Opening (port : UInt16) (ipDgram : InternetDatagram) (tcpSeg : TCPSegment) : Prop
    extends Carries ipDgram tcpSeg where
  ours : tcpSeg.udinfo.dstPort = port
  SYN : tcpSeg.senderMessage.SYN = true
  reset : tcpSeg.reset = false

def Opens (port : UInt16) (ipDgram : InternetDatagram) : Prop :=
  ∃ tcpSeg, Opening port ipDgram tcpSeg

/-- Both addresses and both ports are those of the connection. -/
structure Matches (config : FdAdapterConfig) (ipDgram : InternetDatagram) (tcpSeg : TCPSegment) :
    Prop where
  dst : ipDgram.header.dst = config.source.ipv4Numeric
  src : ipDgram.header.src = config.destination.ipv4Numeric
  dstPort : tcpSeg.udinfo.dstPort = config.source.port
  srcPort : tcpSeg.udinfo.srcPort = config.destination.port

/-- The adapter once it has taken the sender for its peer. -/
def connectedTo (adapter : TCPOverIPv4Adapter) (ipDgram : InternetDatagram)
    (tcpSeg : TCPSegment) : TCPOverIPv4Adapter where
  config.source := ⟨ipDgram.header.dst, adapter.config.source.port⟩
  config.destination := ⟨ipDgram.header.src, tcpSeg.udinfo.srcPort⟩
  listening := false

variable {adapter : TCPOverIPv4Adapter} {ipDgram : InternetDatagram}
  {outcome : TCPOverIPv4Adapter × Option TCPSegment}

theorem Carries.eq {tcpSeg other : TCPSegment} (carries : Carries ipDgram tcpSeg)
    (parsed : parse (TCPSegment.parse {} ipDgram.header.pseudoChecksum) ipDgram.payload =
      .ok (some other)) : tcpSeg = other := by
  have same := carries.parsed.symm.trans parsed
  cases same
  rfl

theorem Carries.ne_none {tcpSeg : TCPSegment} (carries : Carries ipDgram tcpSeg)
    (parsed : parse (TCPSegment.parse {} ipDgram.header.pseudoChecksum) ipDgram.payload =
      .ok none) : False := by
  have same := carries.parsed.symm.trans parsed
  cases same

/-- While it listens, the adapter is left as it is, or connects. -/
theorem unwrap_of_listening (listens : adapter.listening = true)
    (ran : adapter.unwrapTcpInIp ipDgram = .ok outcome) :
    (¬ Opens adapter.config.source.port ipDgram ∧ outcome = (adapter, none)) ∨
      ∃ tcpSeg, Opening adapter.config.source.port ipDgram tcpSeg ∧
        outcome = (adapter.connectedTo ipDgram tcpSeg, some tcpSeg) := by
  rw [unwrapTcpInIp] at ran
  simp only [listens, Bool.true_eq_false, false_and, if_false, true_and] at ran
  split at ran
  case isTrue other =>
      cases ran
      refine Or.inl ⟨?_, rfl⟩
      rintro ⟨tcpSeg, opening⟩
      exact other opening.tcp
  case isFalse tcp =>
      obtain ⟨found, parsed, ran⟩ := Fault.bind_eq_ok.mp ran
      cases found with
      | none =>
          cases ran
          refine Or.inl ⟨?_, rfl⟩
          rintro ⟨tcpSeg, opening⟩
          exact opening.toCarries.ne_none parsed
      | some tcpSeg =>
          dsimp only at ran
          split at ran
          case isTrue elsewhere =>
              cases ran
              refine Or.inl ⟨?_, rfl⟩
              rintro ⟨other, opening⟩
              exact elsewhere (opening.toCarries.eq parsed ▸ opening.ours)
          case isFalse ours =>
              split at ran
              case isTrue silent =>
                  cases ran
                  refine Or.inl ⟨?_, rfl⟩
                  rintro ⟨other, opening⟩
                  exact silent (opening.toCarries.eq parsed ▸ ⟨opening.SYN, opening.reset⟩)
              case isFalse asks =>
                  simp only [if_true, ne_eq, not_true, if_false] at ran
                  cases ran
                  obtain ⟨SYN, reset⟩ := not_not.mp asks
                  exact Or.inr ⟨tcpSeg, ⟨⟨not_not.mp tcp, parsed⟩, not_not.mp ours, SYN, reset⟩, rfl⟩

/-- Once connected, the adapter stays as it is, and returns just the segments of its peer. -/
theorem unwrap_of_connected (connected : adapter.listening = false)
    (ran : adapter.unwrapTcpInIp ipDgram = .ok outcome) :
    outcome.1 = adapter ∧ ∀ tcpSeg, outcome.2 = some tcpSeg ↔
      Carries ipDgram tcpSeg ∧ Matches adapter.config ipDgram tcpSeg := by
  rw [unwrapTcpInIp] at ran
  simp only [connected, true_and, Bool.false_eq_true, if_false, false_and] at ran
  -- what a call that returns nothing has to rule out
  have nothing : outcome = (adapter, none) →
      (∀ tcpSeg, ¬ (Carries ipDgram tcpSeg ∧ Matches adapter.config ipDgram tcpSeg)) →
      outcome.1 = adapter ∧ ∀ tcpSeg, outcome.2 = some tcpSeg ↔
        Carries ipDgram tcpSeg ∧ Matches adapter.config ipDgram tcpSeg := by
    rintro rfl none
    exact ⟨rfl, fun tcpSeg => iff_of_false (Option.some_ne_none tcpSeg).symm (none tcpSeg)⟩
  split at ran
  case isTrue other =>
      cases ran
      exact nothing rfl fun tcpSeg ours => other ours.2.dst
  case isFalse dst =>
      split at ran
      case isTrue other =>
          cases ran
          exact nothing rfl fun tcpSeg ours => other ours.2.src
      case isFalse src =>
          split at ran
          case isTrue other =>
              cases ran
              exact nothing rfl fun tcpSeg ours => other ours.1.tcp
          case isFalse tcp =>
              obtain ⟨found, parsed, ran⟩ := Fault.bind_eq_ok.mp ran
              cases found with
              | none =>
                  cases ran
                  exact nothing rfl fun tcpSeg ours => ours.1.ne_none parsed
              | some found =>
                  dsimp only at ran
                  split at ran
                  case isTrue other =>
                      cases ran
                      exact nothing rfl fun tcpSeg ours =>
                        other (ours.1.eq parsed ▸ ours.2.dstPort)
                  case isFalse dstPort =>
                      split at ran
                      case isTrue other =>
                          cases ran
                          exact nothing rfl fun tcpSeg ours =>
                            other (ours.1.eq parsed ▸ ours.2.srcPort)
                      case isFalse srcPort =>
                          cases ran
                          refine ⟨rfl, fun tcpSeg => ⟨?_, ?_⟩⟩
                          · rintro ⟨⟩
                            exact ⟨⟨not_not.mp tcp, parsed⟩, not_not.mp dst, not_not.mp src,
                              not_not.mp dstPort, not_not.mp srcPort⟩
                          · exact fun ours => congrArg some (ours.1.eq parsed).symm

theorem unwrap_returns (adapter : TCPOverIPv4Adapter) (readable : Readable 20 ipDgram.payload) :
    ∃ outcome, adapter.unwrapTcpInIp ipDgram = .ok outcome := by
  obtain ⟨tcpSeg, final, ran, -⟩ :=
    TCPSegment.parse_returns {} ipDgram.header.pseudoChecksum readable
  have parsed : parse (TCPSegment.parse {} ipDgram.header.pseudoChecksum) ipDgram.payload =
      .ok (if final.error then none else some tcpSeg) :=
    Fault.bind_eq_ok.mpr ⟨_, ran, rfl⟩
  refine Fault.ite_returns ⟨_, rfl⟩ (Fault.ite_returns ⟨_, rfl⟩ (Fault.ite_returns ⟨_, rfl⟩ ?_))
  refine Fault.bind_returns ⟨_, parsed⟩ fun found => ?_
  cases found with
  | none => exact ⟨_, rfl⟩
  | some tcpSeg =>
      exact Fault.ite_returns ⟨_, rfl⟩
        (Fault.ite_returns ⟨_, rfl⟩ (Fault.ite_returns ⟨_, rfl⟩ ⟨_, rfl⟩))

/-! ## A sequence of datagrams -/

/-- What a connected adapter makes of a datagram. -/
def Heard (adapter : TCPOverIPv4Adapter) (ipDgram : InternetDatagram)
    (outcome : TCPOverIPv4Adapter × Option TCPSegment) : Prop :=
  outcome.1 = adapter ∧ ∀ tcpSeg, outcome.2 = some tcpSeg ↔
    Carries ipDgram tcpSeg ∧ Matches adapter.config ipDgram tcpSeg

/-- Nothing comes of the datagrams, or nothing comes of those before the first that opens a
connection, which is returned, and the adapter is connected to its sender for all that follow. -/
inductive LocksOn (adapter : TCPOverIPv4Adapter) :
    List InternetDatagram → List (TCPOverIPv4Adapter × Option TCPSegment) → Prop where
  | waiting {dgrams : List InternetDatagram}
      (others : ∀ ipDgram ∈ dgrams, ¬ Opens adapter.config.source.port ipDgram) :
      LocksOn adapter dgrams (dgrams.map fun _ => (adapter, none))
  | connected {before after : List InternetDatagram} {ipDgram : InternetDatagram}
      {tcpSeg : TCPSegment} {outcomes : List (TCPOverIPv4Adapter × Option TCPSegment)}
      (others : ∀ earlier ∈ before, ¬ Opens adapter.config.source.port earlier)
      (opening : Opening adapter.config.source.port ipDgram tcpSeg)
      (heard : List.Forall₂ (Heard (adapter.connectedTo ipDgram tcpSeg)) after outcomes) :
      LocksOn adapter (before ++ ipDgram :: after)
        (before.map (fun _ => (adapter, none)) ++
          (adapter.connectedTo ipDgram tcpSeg, some tcpSeg) :: outcomes)

variable {dgrams : List InternetDatagram}
  {outcomes : List (TCPOverIPv4Adapter × Option TCPSegment)}

theorem unwrapEach_cons_ok (ran : adapter.unwrapEach (ipDgram :: dgrams) = .ok outcomes) :
    ∃ outcome later, adapter.unwrapTcpInIp ipDgram = .ok outcome ∧
      outcome.1.unwrapEach dgrams = .ok later ∧ outcomes = outcome :: later := by
  obtain ⟨outcome, first, ran⟩ := Fault.bind_eq_ok.mp ran
  obtain ⟨later, rest, ran⟩ := Fault.bind_eq_ok.mp ran
  cases ran
  exact ⟨outcome, later, first, rest, rfl⟩

theorem unwrapEach_of_connected (connected : adapter.listening = false)
    (ran : adapter.unwrapEach dgrams = .ok outcomes) :
    List.Forall₂ (Heard adapter) dgrams outcomes := by
  induction dgrams generalizing outcomes with
  | nil =>
      cases ran
      exact List.Forall₂.nil
  | cons ipDgram dgrams ih =>
      obtain ⟨outcome, later, first, rest, rfl⟩ := unwrapEach_cons_ok ran
      have heard := unwrap_of_connected connected first
      rw [heard.1] at rest
      exact List.Forall₂.cons heard (ih rest)

theorem unwrapEach_of_listening (listens : adapter.listening = true)
    (ran : adapter.unwrapEach dgrams = .ok outcomes) : LocksOn adapter dgrams outcomes := by
  induction dgrams generalizing outcomes with
  | nil =>
      cases ran
      exact .waiting (fun _ inside => nomatch inside)
  | cons ipDgram dgrams ih =>
      obtain ⟨outcome, later, first, rest, rfl⟩ := unwrapEach_cons_ok ran
      rcases unwrap_of_listening listens first with ⟨other, rfl⟩ | ⟨tcpSeg, opening, rfl⟩
      · cases ih rest with
        | waiting others => exact .waiting (List.forall_mem_cons.mpr ⟨other, others⟩)
        | connected others opening heard =>
            exact .connected (List.forall_mem_cons.mpr ⟨other, others⟩) opening heard
      · exact @LocksOn.connected adapter [] dgrams ipDgram tcpSeg later
          (fun _ inside => nomatch inside) opening (unwrapEach_of_connected rfl rest)

theorem unwrapEach_returns (adapter : TCPOverIPv4Adapter)
    (readable : ∀ ipDgram ∈ dgrams, Readable 20 ipDgram.payload) :
    ∃ outcomes, adapter.unwrapEach dgrams = .ok outcomes := by
  induction dgrams generalizing adapter with
  | nil => exact ⟨[], rfl⟩
  | cons ipDgram dgrams ih =>
      obtain ⟨first, rest⟩ := List.forall_mem_cons.mp readable
      obtain ⟨outcome, unwrapped⟩ := unwrap_returns adapter first
      obtain ⟨later, ran⟩ := ih outcome.1 rest
      exact ⟨outcome :: later, Fault.bind_eq_ok.mpr ⟨outcome, unwrapped,
        Fault.bind_eq_ok.mpr ⟨later, ran, rfl⟩⟩⟩

/-- A listening adapter locks onto the first that asks for a connection, whatever datagrams come.
Every call returns when its header can be read. -/
theorem listening_locksOn (adapter : TCPOverIPv4Adapter) (listens : adapter.listening = true)
    (dgrams : List InternetDatagram) :
    ((∀ ipDgram ∈ dgrams, Readable 20 ipDgram.payload) →
        ∃ outcomes, adapter.unwrapEach dgrams = .ok outcomes) ∧
      ∀ outcomes, adapter.unwrapEach dgrams = .ok outcomes → LocksOn adapter dgrams outcomes :=
  ⟨unwrapEach_returns adapter, fun _ => unwrapEach_of_listening listens⟩

def listener : TCPOverIPv4Adapter where
  config.source := ⟨0, 80⟩
  listening := true

/-- The header of a SYN to this port, under this checksum. -/
def synTo (port checksum : UInt8) : List (List UInt8) :=
  [[0x13, 0x88, 0, port, 0, 0, 0, 0, 0, 0, 0, 0, 0x50, 2, 0, 0, 0x9c, checksum, 0, 0]]

/-- Another protocol and another port, then a SYN to port 80, then one of somebody else, and the
first one again. -/
def visitors : List InternetDatagram :=
  let opening := { header := { len := 40, src := 1, dst := 2 }, payload := synTo 80 8 }
  [{ opening with header := { len := 40, proto := 17, src := 1, dst := 2 } },
    { opening with payload := synTo 81 7 }, opening,
    { header := { len := 40, src := 3, dst := 2 }, payload := synTo 80 6 }, opening]

theorem listening_locksOn_syn :
    ∃ outcomes, listener.unwrapEach visitors = .ok outcomes ∧
      outcomes.map (fun outcome => (outcome.1.listening, outcome.2.isSome)) =
        [(true, false), (true, false), (false, true), (false, false), (false, true)] ∧
      LocksOn listener visitors outcomes := by
  obtain ⟨returns, locks⟩ := listening_locksOn listener rfl visitors
  have readable : ∀ ipDgram ∈ visitors, Readable 20 ipDgram.payload := by
    simp [visitors, synTo, readable_single]
  obtain ⟨outcomes, ran⟩ := returns readable
  refine ⟨outcomes, ran, ?_, locks outcomes ran⟩
  have known : listener.unwrapEach visitors = .ok _ := rfl
  cases known.symm.trans ran
  rfl

end TCPOverIPv4Adapter

end Minnow.Wire
