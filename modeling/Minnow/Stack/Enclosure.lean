import Minnow.Routing.Relaying
import Minnow.Transport.Connection
import Minnow.Wire.ListeningAdapter

/-!
# Segments on their way

What encloses a segment, whatever routers have done to the header since, is accepted by the
adapter at the other end of the connection, and by nobody else.
-/

namespace Minnow.Stack

open Foundation Link Routing Transport Wire

/-- The segment as it goes out between these addresses. -/
def addressed (config : FdAdapterConfig) (seg : TCPSegment) (pseudo : UInt32) : TCPSegment :=
  ({ seg with udinfo := ⟨config.source.port, config.destination.port, seg.udinfo.cksum⟩ } :
    TCPSegment).computeChecksum pseudo

/-- The header and the bytes of a datagram that has the segment for the connection. -/
structure Encloses (config : FdAdapterConfig) (seg : TCPSegment) (header : IPv4Header)
    (bytes : List UInt8) : Prop where
  formed : header.WellFormed
  plain : header.hlen = 5
  src : header.src = config.source.ipv4Numeric
  dst : header.dst = config.destination.ipv4Numeric
  proto : header.proto = IPv4Header.PROTO_TCP
  whole : bytes = (addressed config seg header.pseudoChecksum).encoding ++ seg.senderMessage.payload

namespace Encloses

variable {config : FdAdapterConfig} {seg : TCPSegment} {header : IPv4Header} {bytes : List UInt8}

/-- The adapter encloses what it writes. -/
theorem of_wrap {adapter : TCPOverIPv4Adapter} {sealed : TCPSegment} {ipDgram : InternetDatagram}
    (wrapped : adapter.wrapTcpInIp seg = .ok (sealed, ipDgram)) :
    Encloses adapter.config seg ipDgram.header ipDgram.payload.flatten := by
  obtain ⟨_, _, pseudo, again, formed, plain, src, dst, proto, sum, payload, whole⟩ :=
    adapter.wrapTcpInIp_eq seg
  cases again.symm.trans wrapped
  refine ⟨formed, plain, src, dst, proto, ?_⟩
  rw [payload, List.flatten_cons, List.flatten_cons, List.flatten_singleton, List.append_nil, sum,
    whole]
  rfl

theorem length (encloses : Encloses config seg header bytes) :
    bytes.length = 20 + seg.senderMessage.payload.length := by
  rw [encloses.whole, List.length_append, TCPSegment.encoding_length]

/-- Routers change only what the segment does not depend on. -/
theorem relayed (encloses : Encloses config seg header bytes) {ttl : UInt8} {cksum : UInt16}
    (formed : ({ header with ttl, cksum } : IPv4Header).WellFormed) :
    Encloses config seg { header with ttl, cksum } bytes :=
  ⟨formed, encloses.plain, encloses.src, encloses.dst, encloses.proto, encloses.whole⟩

/-- What is read of the payload is the segment as it went out. -/
theorem carries {ipDgram : InternetDatagram}
    (encloses : Encloses config seg ipDgram.header ipDgram.payload.flatten)
    (firm : Firm ipDgram.payload) (short : seg.senderMessage.payload.length ≤ 65495) :
    TCPOverIPv4Adapter.Carries ipDgram (addressed config seg ipDgram.header.pseudoChecksum) := by
  have least := ipDgram.header.pseudoChecksum_le
  have verified : ((InternetChecksum.new ipDgram.header.pseudoChecksum).add
      ((addressed config seg ipDgram.header.pseudoChecksum).encoding ++
        (addressed config seg ipDgram.header.pseudoChecksum).senderMessage.payload)).value = 0 := by
    refine TCPSegment.computeChecksum_verified ?_
    change _ + 65280 * (20 + seg.senderMessage.payload.length) < _
    omega
  refine ⟨encloses.proto, TCPSegment.parse_of_flatten {} verified encloses.whole ?_⟩
  refine firm.of_le ?_
  rw [encloses.length]
  exact Nat.le_add_right _ _

end Encloses

/-! ## Two connected addresses -/

/-- The connection from a side to the other one. -/
def connection (address : Side → Address) (side : Side) : FdAdapterConfig :=
  ⟨address side, address side.other⟩

/-- The datagram encloses a segment that one side sent to the other. -/
def Genuine (address : Side → Address) (pool : Side → List TCPSegment) : DatagramProperty :=
  fun header bytes => ∃ side seg, seg ∈ pool side.other ∧
    seg.senderMessage.payload.length ≤ TCPConfig.maxPayloadSize ∧
    Encloses (connection address side) seg header bytes

variable {address : Side → Address} {pool more : Side → List TCPSegment}

theorem genuine_legible : Legible (Genuine address pool) where
  formed := by
    rintro header bytes ⟨side, seg, -, -, encloses⟩
    exact encloses.formed
  plain := by
    rintro header bytes ⟨side, seg, -, -, encloses⟩
    exact encloses.plain
  short := by
    rintro header bytes ⟨side, seg, -, short, encloses⟩
    have length := encloses.length
    change _ ≤ 1000 at short
    change _ ≤ 16384
    omega

theorem genuine_relayed : Relayed (Genuine address pool) := by
  rintro header bytes cksum ⟨side, seg, inside, short, encloses⟩ - formed
  exact ⟨side, seg, inside, short, encloses.relayed formed⟩

theorem genuine_mono (grown : ∀ side, pool side ⊆ more side) (header : IPv4Header)
    (bytes : List UInt8) (genuine : Genuine address pool header bytes) :
    Genuine address more header bytes := by
  obtain ⟨side, seg, inside, short, encloses⟩ := genuine
  exact ⟨side, seg, grown _ inside, short, encloses⟩

theorem address_ext {first second : Address} (ip : first.ipv4Numeric = second.ipv4Numeric)
    (port : first.port = second.port) : first = second := by
  cases first
  cases second
  exact congrArg₂ Address.mk ip port

/-- What a side hears in a datagram that was sent to it. -/
structure Hears (address : Side → Address) (pool : Side → List TCPSegment) (side : Side)
    (seg : TCPSegment) : Prop where
  sent : ∃ original ∈ pool side, ∃ udinfo, seg = { original with udinfo }
  srcPort : seg.udinfo.srcPort = (address side.other).port

theorem hears_of_carries {side from_ : Side} {ipDgram : InternetDatagram} {seg original : TCPSegment}
    (inside : original ∈ pool side) (other : from_.other = side)
    (encloses : Encloses (connection address from_) original ipDgram.header
      ipDgram.payload.flatten)
    (firm : Firm ipDgram.payload)
    (short : original.senderMessage.payload.length ≤ TCPConfig.maxPayloadSize)
    (carries : TCPOverIPv4Adapter.Carries ipDgram seg) : Hears address pool side seg := by
  change _ ≤ 1000 at short
  have same := (encloses.carries firm (by omega)).eq carries.parsed
  refine ⟨⟨original, inside, _, same.symm⟩, ?_⟩
  rw [← same, ← other, Side.other_other]
  rfl

/-- A connected adapter returns only what the other side has sent. -/
theorem heard_of_connected {adapter : TCPOverIPv4Adapter} {side : Side}
    (distinct : address .left ≠ address .right) (connected : adapter.listening = false)
    (config : adapter.config = connection address side) {ipDgram : InternetDatagram}
    (genuine : Sound (Genuine address pool) ipDgram) (firm : Firm ipDgram.payload)
    {outcome : TCPOverIPv4Adapter × Option TCPSegment}
    (ran : adapter.unwrapTcpInIp ipDgram = .ok outcome) :
    outcome.1 = adapter ∧ ∀ seg, outcome.2 = some seg → Hears address pool side seg := by
  obtain ⟨same, hears⟩ := TCPOverIPv4Adapter.unwrap_of_connected connected ran
  refine ⟨same, fun seg heard => ?_⟩
  obtain ⟨carries, matched⟩ := (hears seg).mp heard
  obtain ⟨from_, original, inside, short, encloses⟩ := genuine
  have received := encloses.carries firm (Nat.le_trans short (by decide))
  have whole := received.eq carries.parsed
  -- whoever wrote the source address of the other side is the other side
  have sender : address from_ = address side.other := by
    have port := matched.srcPort
    rw [← whole] at port
    have src := encloses.src.symm.trans matched.src
    rw [config] at src port
    exact address_ext src port
  have other : from_.other = side := by
    rcases side.eq_or_eq_other from_ with rfl | rfl
    · cases from_ with
      | left => exact absurd sender distinct
      | right => exact absurd sender.symm distinct
    · exact side.other_other
  rw [other] at inside
  exact hears_of_carries inside other encloses firm short carries

end Minnow.Stack
