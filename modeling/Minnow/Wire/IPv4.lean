import Minnow.Wire.Checksum

/-!
# Internet datagrams
-/

namespace Minnow.Wire

namespace IPv4Header

def LENGTH : Nat := 20

def DEFAULT_TTL : UInt8 := 128

def PROTO_TCP : UInt8 := 6

end IPv4Header

/-- The header without options. -/
structure IPv4Header where
  ver : UInt8 := 4
  hlen : UInt8 := UInt8.ofNat (IPv4Header.LENGTH / 4)
  tos : UInt8 := 0
  len : UInt16 := 0
  id : UInt16 := 0
  df : Bool := true
  mf : Bool := false
  offset : UInt16 := 0
  ttl : UInt8 := IPv4Header.DEFAULT_TTL
  proto : UInt8 := IPv4Header.PROTO_TCP
  cksum : UInt16 := 0
  src : UInt32 := 0
  dst : UInt32 := 0
  deriving DecidableEq

namespace IPv4Header

/-- The flags and the fragment offset as one word. -/
def foVal (header : IPv4Header) : UInt16 :=
  (if header.df then 0x4000 else 0) ||| (if header.mf then 0x2000 else 0) |||
    (header.offset &&& 0x1fff)

/-- What the length field leaves for the payload; it wraps if that is less than the header. -/
def payloadLength (header : IPv4Header) : UInt16 := header.len - 4 * header.hlen.toUInt16

/-- What the checksum of an encapsulated segment starts from. -/
def pseudoChecksum (header : IPv4Header) : UInt32 :=
  (header.src >>> 16) + header.src.toUInt16.toUInt32 +
    ((header.dst >>> 16) + header.dst.toUInt16.toUInt32) +
    header.proto.toUInt32 + header.payloadLength.toUInt32

/-- The checksum is written as it stands. -/
def serialize (header : IPv4Header) (serializer : Serializer) : Except Fault Serializer :=
  if header.ver ≠ 4 then .error (.thrown "wrong IP version")
  else
    .ok (serializer
      |>.integer ((header.ver <<< 4) ||| (header.hlen &&& 0xf))
      |>.integer header.tos
      |>.integer header.len
      |>.integer header.id
      |>.integer header.foVal
      |>.integer header.ttl
      |>.integer header.proto
      |>.integer header.cksum
      |>.integer header.src
      |>.integer header.dst)

theorem serialize_of_ver {header : IPv4Header} (version : header.ver = 4)
    (serializer : Serializer) : ∃ written, header.serialize serializer = .ok written := by
  rw [serialize, if_neg (not_not.mpr version)]
  exact ⟨_, rfl⟩

/-- The checksum of the header with its checksum field zero. -/
def computeChecksum (header : IPv4Header) : Except Fault IPv4Header := do
  let serializer ← { header with cksum := 0 }.serialize Serializer.new
  let check := (InternetChecksum.new 0).addBuffers serializer.finish
  return { header with cksum := check.value }

/-- The header's words in order, checked only once all of them are read. -/
def parse (header : IPv4Header) : ParseM IPv4Header := do
  let firstByte ← Parser.integer (0 : UInt8)
  let ver := firstByte >>> 4
  let hlen := firstByte &&& 0x0f
  let tos ← Parser.integer header.tos
  let len ← Parser.integer header.len
  let id ← Parser.integer header.id
  let foVal ← Parser.integer (0 : UInt16)
  let df := foVal &&& 0x4000 != 0
  let mf := foVal &&& 0x2000 != 0
  let offset := foVal &&& 0x1fff
  let ttl ← Parser.integer header.ttl
  let proto ← Parser.integer header.proto
  let cksum ← Parser.integer header.cksum
  let src ← Parser.integer header.src
  let dst ← Parser.integer header.dst
  let read : IPv4Header := ⟨ver, hlen, tos, len, id, df, mf, offset, ttl, proto, cksum, src, dst⟩
  if ver ≠ 4 then Parser.setError
  if hlen < 5 then Parser.setError
  if ← Parser.hasError then return read
  -- the options
  Parser.removePrefix (hlen.toNat * 4 - LENGTH)
  let checked ← read.computeChecksum
  if checked.cksum ≠ cksum then Parser.setError
  return checked

end IPv4Header

structure IPv4Datagram where
  header : IPv4Header := {}
  payload : List Buffer := []
  deriving DecidableEq

abbrev InternetDatagram := IPv4Datagram

namespace IPv4Datagram

def parse (datagram : IPv4Datagram) : ParseM IPv4Datagram := do
  let header ← datagram.header.parse
  return ⟨header, ← Parser.allRemaining⟩

def serialize (datagram : IPv4Datagram) (serializer : Serializer) : Except Fault Serializer := do
  let written ← datagram.header.serialize serializer
  return written.pushBuffers datagram.payload

theorem serialize_of_ver {datagram : IPv4Datagram} (version : datagram.header.ver = 4) :
    ∃ buffers, Wire.serialize datagram.serialize = .ok buffers := by
  obtain ⟨written, headerWritten⟩ := IPv4Header.serialize_of_ver version Serializer.new
  refine serialize_returns ⟨written.pushBuffers datagram.payload, ?_⟩
  exact Fault.bind_eq_ok.mpr ⟨written, headerWritten, rfl⟩

end IPv4Datagram

end Minnow.Wire
