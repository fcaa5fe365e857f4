import Minnow.Wire.Ethernet

/-!
# Address resolution messages
-/

namespace Minnow.Wire

namespace ARPMessage

def TYPE_ETHERNET : UInt16 := 1

def OPCODE_REQUEST : UInt16 := 1

def OPCODE_REPLY : UInt16 := 2

end ARPMessage

structure ARPMessage where
  hardwareType : UInt16 := ARPMessage.TYPE_ETHERNET
  protocolType : UInt16 := EthernetHeader.TYPE_IPv4
  hardwareAddressSize : UInt8 := 6
  protocolAddressSize : UInt8 := 4
  opcode : UInt16 := 0
  senderEthernetAddress : EthernetAddress := EthernetAddress.zero
  senderIpAddress : UInt32 := 0
  targetEthernetAddress : EthernetAddress := EthernetAddress.zero
  targetIpAddress : UInt32 := 0
  deriving DecidableEq

namespace ARPMessage

def supported (message : ARPMessage) : Bool :=
  message.hardwareType == TYPE_ETHERNET && message.protocolType == EthernetHeader.TYPE_IPv4 &&
    message.hardwareAddressSize == 6 && message.protocolAddressSize == 4 &&
    (message.opcode == OPCODE_REQUEST || message.opcode == OPCODE_REPLY)

/-- The addresses are read only if the types and the opcode are supported. -/
def parse (message : ARPMessage) : ParseM ARPMessage := do
  let hardwareType ← Parser.integer message.hardwareType
  let protocolType ← Parser.integer message.protocolType
  let hardwareAddressSize ← Parser.integer message.hardwareAddressSize
  let protocolAddressSize ← Parser.integer message.protocolAddressSize
  let opcode ← Parser.integer message.opcode
  let kind := { message with hardwareType, protocolType, hardwareAddressSize, protocolAddressSize,
                             opcode }
  if !kind.supported then
    Parser.setError
    return kind
  let senderEthernetAddress ← kind.senderEthernetAddress.parse
  let senderIpAddress ← Parser.integer kind.senderIpAddress
  let targetEthernetAddress ← kind.targetEthernetAddress.parse
  let targetIpAddress ← Parser.integer kind.targetIpAddress
  return { kind with senderEthernetAddress, senderIpAddress, targetEthernetAddress,
                     targetIpAddress }

def serialize (message : ARPMessage) (serializer : Serializer) : Except Fault Serializer :=
  if !message.supported then
    .error (.thrown
      "ARPMessage: unsupported field combination (must be Ethernet/IP, and request or reply)")
  else
    let kind := serializer
      |>.integer message.hardwareType
      |>.integer message.protocolType
      |>.integer message.hardwareAddressSize
      |>.integer message.protocolAddressSize
      |>.integer message.opcode
    let sender := (message.senderEthernetAddress.serialize kind).integer message.senderIpAddress
    .ok ((message.targetEthernetAddress.serialize sender).integer message.targetIpAddress)

theorem serialize_of_supported {message : ARPMessage} (supported : message.supported = true) :
    ∃ buffers, Wire.serialize message.serialize = .ok buffers := by
  refine serialize_returns ?_
  rw [serialize, supported]
  exact ⟨_, rfl⟩

/-- The bytes of a message. -/
def encoding (message : ARPMessage) : List UInt8 :=
  [encode message.hardwareType, encode message.protocolType, encode message.hardwareAddressSize,
    encode message.protocolAddressSize, encode message.opcode,
    message.senderEthernetAddress.toList, encode message.senderIpAddress,
    message.targetEthernetAddress.toList, encode message.targetIpAddress].flatten

theorem serialize_eq {message : ARPMessage} (supported : message.supported = true) :
    Wire.serialize message.serialize = .ok [message.encoding] := by
  rw [Wire.serialize, serialize, supported]
  change Except.ok (Serializer.finish _) = _
  rw [EthernetAddress.serialize, EthernetAddress.serialize, Serializer.foldl_integer,
    Serializer.foldl_integer]
  simp only [Serializer.finish, Serializer.flush, Serializer.integer_output,
    Serializer.integer_buffer, Serializer.new, encoding, List.append_assoc, List.nil_append,
    List.flatten_cons, List.flatten_nil, List.append_nil]

theorem yields_parse (old : ARPMessage) {message : ARPMessage} (supported : message.supported = true) :
    Parser.Yields old.parse message.encoding message := by
  refine (Parser.yields_integer _ message.hardwareType).bind ?_
  refine (Parser.yields_integer _ message.protocolType).bind ?_
  refine (Parser.yields_integer _ message.hardwareAddressSize).bind ?_
  refine (Parser.yields_integer _ message.protocolAddressSize).bind ?_
  refine (Parser.yields_integer _ message.opcode).bind ?_
  change Parser.Yields (if (!message.supported) = true then _ else _) _ _
  rw [supported, if_neg (by decide)]
  refine (EthernetAddress.yields_parse _ message.senderEthernetAddress).bind ?_
  refine (Parser.yields_integer _ message.senderIpAddress).bind ?_
  refine (EthernetAddress.yields_parse _ message.targetEthernetAddress).bind ?_
  exact (Parser.yields_integer _ message.targetIpAddress).bind (Parser.yields_pure message)

/-- A message that was written is read back. -/
theorem parse_encoding {message : ARPMessage} (supported : message.supported = true) :
    Wire.parse (parse {}) [message.encoding] = .ok (some message) :=
  (yields_parse {} supported).parse_eq

end ARPMessage

end Minnow.Wire
