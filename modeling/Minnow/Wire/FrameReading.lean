import Minnow.Wire.FileDescriptor

/-!
# Frames from a device

A frame that is written to a device is read from it, and no packet makes the reading of a frame,
or of what is in it, fail otherwise than by an error of the parser.
-/

namespace Minnow.Wire

namespace BufferList

theorem firm_dumpAll {list : BufferList} (firm : Firm list.unread) : Firm list.dumpAll := by
  rw [Firm, unread_flatten] at firm
  rw [Firm, dumpAll_flatten]
  exact solid_dumpAll firm

theorem unread_removePrefix_firm {list : BufferList} (firm : Firm list.unread) (len : Nat) :
    Firm (list.removePrefix len).unread := by
  rw [Firm, unread_removePrefix, dropBytes_flatten, List.length_drop]
  rcases Nat.le_total list.unread.flatten.length len with past | within
  · rw [Nat.sub_eq_zero_of_le past]
    exact solid_zero _
  · rw [Firm, ← Nat.add_sub_cancel' within, solid_add] at firm
    exact firm.2

end BufferList

/-! ## Reading whatever comes -/

namespace EthernetAddress

/-- The bytes of an address are read, or the error is set. -/
theorem scanned_mmap {n : Nat} (old : List.Vector UInt8 n) {whole : List UInt8} {used count : Nat}
    {parser : Parser} (scanned : parser.Scanned whole used (n + count)) :
    ∃ address next, old.mmap Parser.integer parser = .ok (address, next) ∧
      next.Scanned whole (used + n) count := by
  induction n generalizing used parser with
  | zero =>
      rw [Nat.zero_add] at scanned
      exact ⟨_, parser, rfl, scanned⟩
  | succ n ih =>
      have next : parser.Scanned whole used (UnsignedIntegral.size UInt8 + (n + count)) := by
        have same : n + 1 + count = 1 + (n + count) := by omega
        rw [same] at scanned
        exact scanned
      obtain ⟨byte, middle, first, between, -⟩ := next.integer old.head
      obtain ⟨others, last, rest, after⟩ := ih old.tail between
      have all : used + UnsignedIntegral.size UInt8 + n = used + (n + 1) := by
        change used + 1 + n = _
        omega
      rw [all] at after
      exact ⟨_, last, bind_eq_ok.mpr ⟨byte, middle, first,
        bind_eq_ok.mpr ⟨others, last, rest, rfl⟩⟩, after⟩

/-- What follows an address is followed from the parser that reading it leaves. -/
theorem scanned_followed (old : EthernetAddress) (count : Nat) {whole : List UInt8} {used : Nat}
    {parser : Parser} {Result : Type} {later : EthernetAddress → ParseM Result}
    {After : Result → Parser → Prop} (scanned : parser.Scanned whole used (6 + count))
    (there : ∀ address (next : Parser), next.Scanned whole (used + 6) count →
      ∃ result final, later address next = .ok (result, final) ∧ After result final) :
    ∃ result final, (old.parse >>= later) parser = .ok (result, final) ∧ After result final := by
  obtain ⟨address, next, ran, after⟩ := scanned_mmap old scanned
  obtain ⟨result, final, done, last⟩ := there address next after
  exact ⟨result, final, bind_eq_ok.mpr ⟨address, next, ran, done⟩, last⟩

end EthernetAddress

/-- What a method returns that ends on every input. -/
theorem parse_of_ran {Object : Type} {method : ParseM Object} {buffers : List Buffer}
    {object : Object} {final : Parser} (ran : method (Parser.new buffers) = .ok (object, final)) :
    parse method buffers = .ok (if final.error then none else some object) :=
  Fault.bind_eq_ok.mpr ⟨(object, final), ran, rfl⟩

theorem eq_of_accepted {Object : Type} {object found : Object} {error : Bool}
    (accepted : (if error then none else some object) = some found) :
    error = false ∧ object = found := by
  cases error with
  | true => cases accepted
  | false =>
      cases accepted
      exact ⟨rfl, rfl⟩

namespace EthernetHeader

def LENGTH : Nat := 14

@[simp] theorem encoding_length (header : EthernetHeader) : header.encoding.length = LENGTH := by
  simp only [encoding, List.flatten_cons, List.flatten_nil, List.length_append, encode_length,
    List.Vector.toList_length, List.length_nil]
  rfl

/-- Any bytes begin with some header. -/
theorem exists_encoding {bytes : List UInt8} (long : LENGTH ≤ bytes.length) :
    ∃ header : EthernetHeader, bytes = header.encoding ++ bytes.drop LENGTH := by
  change 14 ≤ bytes.length at long
  have dst : (bytes.take 6).length = 6 := by
    rw [List.length_take]
    omega
  have src : ((bytes.drop 6).take 6).length = 6 := by
    rw [List.length_take, List.length_drop]
    omega
  have type := @encode_decode_uint16 (bytes.drop 12) (by rw [List.length_drop]; omega)
  rw [List.drop_drop] at type
  refine ⟨⟨⟨_, dst⟩, ⟨_, src⟩, decode UInt16 (bytes.drop 12)⟩, ?_⟩
  change bytes = [bytes.take 6, (bytes.drop 6).take 6, encode (decode UInt16 (bytes.drop 12))].flatten ++
    bytes.drop (12 + 2)
  simp only [List.flatten_cons, List.flatten_nil, List.append_nil, List.append_assoc, type]
  have second := List.take_append_drop 6 (bytes.drop 6)
  rw [List.drop_drop] at second
  rw [second, List.take_append_drop]

end EthernetHeader

namespace EthernetFrame

/-- Every packet is read as a frame, or rejected if it is too short, and what is read of the
payload is firm. -/
theorem parse_returns (old : EthernetFrame) {buffers : List Buffer} (firm : Firm buffers) :
    ∃ outcome, Wire.parse old.parse buffers = .ok outcome ∧
      (outcome = none ↔ buffers.flatten.length < EthernetHeader.LENGTH) ∧
      ∀ frame, outcome = some frame → Firm frame.payload := by
  have scanned := Parser.scanned_new (firm.readable (6 + (6 + (2 + buffers.flatten.length))))
  have ends : ∃ frame final, old.parse (Parser.new buffers) = .ok (frame, final) ∧
      final.error = decide (buffers.flatten.length < EthernetHeader.LENGTH) ∧
      (final.error = false → Firm frame.payload) := by
    rw [parse, EthernetHeader.parse]
    simp only [bind_assoc, pure_bind]
    refine EthernetAddress.scanned_followed _ _ scanned fun dst _ scanned => ?_
    refine EthernetAddress.scanned_followed _ _ scanned fun src _ scanned => ?_
    refine scanned.followed _ _ fun type last scanned _ => ?_
    refine ⟨_, last, rfl, scanned.error, fun fine => BufferList.firm_dumpAll (scanned.firm ?_)⟩
    rw [scanned.error, decide_eq_false_iff_not] at fine
    exact Nat.not_lt.mp fine
  obtain ⟨frame, final, ran, error, leaves⟩ := ends
  refine ⟨_, parse_of_ran ran, ?_, fun found accepted => ?_⟩
  · rw [error]
    simp
  · obtain ⟨fine, rfl⟩ := eq_of_accepted accepted
    exact leaves fine

/-- A frame is read from its bytes, wherever they are cut. -/
theorem parse_of_flatten (old : EthernetFrame) {header : EthernetHeader} {bytes : List UInt8}
    {received : List Buffer} (flat : received.flatten = header.encoding ++ bytes)
    (firm : Firm received) :
    ∃ payload, Wire.parse old.parse received = .ok (some ⟨header, payload⟩) ∧
      payload.flatten = bytes ∧ Firm payload := by
  have before : (Parser.new received).Before (header.encoding ++ bytes) [] := by
    refine Parser.before_new ?_ ?_
    · rw [List.append_nil, flat]
    · rw [← flat]
      exact firm
  obtain ⟨next, ran, after⟩ := EthernetHeader.yields_parse old.header header _ bytes [] before
  refine ⟨next.input.dumpAll, parse_eq_some.mpr ⟨next, ?_, after.fine⟩, ?_, ?_⟩
  · exact bind_eq_ok.mpr ⟨_, next, ran, rfl⟩
  · rw [BufferList.dumpAll_flatten, after.remaining, List.append_nil]
  · refine BufferList.firm_dumpAll ?_
    rw [Firm, BufferList.unread_flatten, after.remaining, List.append_nil]
    exact after.solid

end EthernetFrame

namespace ARPMessage

theorem parse_returns (old : ARPMessage) {buffers : List Buffer} (firm : Firm buffers) :
    ∃ outcome, Wire.parse old.parse buffers = .ok outcome := by
  have scanned := Parser.scanned_new (firm.readable (2 + (2 + (1 + (1 + (2 + (6 + (4 + (6 + 4)))))))))
  have ends : ∃ message final, old.parse (Parser.new buffers) = .ok (message, final) ∧ True := by
    rw [parse]
    refine scanned.followed _ _ fun _ _ scanned _ => ?_
    refine scanned.followed _ _ fun _ _ scanned _ => ?_
    refine scanned.followed _ _ fun _ _ scanned _ => ?_
    refine scanned.followed _ _ fun _ _ scanned _ => ?_
    refine scanned.followed _ _ fun _ _ scanned _ => ?_
    dsimp only
    split
    · exact ⟨_, _, rfl, True.intro⟩
    · refine EthernetAddress.scanned_followed _ _ scanned fun _ _ scanned => ?_
      refine scanned.followed _ _ fun _ _ scanned _ => ?_
      refine EthernetAddress.scanned_followed _ _ scanned fun _ _ scanned => ?_
      refine scanned.followed _ 0 fun _ last _ _ => ?_
      exact ⟨_, last, rfl, True.intro⟩
  obtain ⟨message, final, ran, -⟩ := ends
  exact ⟨_, parse_of_ran ran⟩

end ARPMessage

namespace IPv4Datagram

/-- Every sequence of bytes is read as a datagram, or rejected. -/
theorem parse_returns (old : IPv4Datagram) {buffers : List Buffer} (firm : Firm buffers) :
    ∃ outcome, Wire.parse old.parse buffers = .ok outcome ∧
      ∀ datagram, outcome = some datagram → Firm datagram.payload := by
  have scanned := Parser.scanned_new (firm.readable
    (1 + (1 + (2 + (2 + (2 + (1 + (1 + (2 + (4 + (4 + buffers.flatten.length)))))))))))
  have ends : ∃ header final, old.header.parse (Parser.new buffers) = .ok (header, final) ∧
      (final.error = false → Firm final.input.unread) := by
    rw [IPv4Header.parse]
    refine scanned.followed _ _ fun firstByte _ scanned _ => ?_
    refine scanned.followed _ _ fun _ _ scanned _ => ?_
    refine scanned.followed _ _ fun _ _ scanned _ => ?_
    refine scanned.followed _ _ fun _ _ scanned _ => ?_
    refine scanned.followed _ _ fun _ _ scanned _ => ?_
    refine scanned.followed _ _ fun _ _ scanned _ => ?_
    refine scanned.followed _ _ fun _ _ scanned _ => ?_
    refine scanned.followed _ _ fun _ _ scanned _ => ?_
    refine scanned.followed _ _ fun _ _ scanned _ => ?_
    refine scanned.followed _ _ fun _ last scanned _ => ?_
    dsimp only
    rw [Parser.setErrorIf_bind, Parser.setErrorIf_bind, Parser.hasError_bind]
    dsimp only
    cases failed : (last.error || decide (firstByte >>> 4 ≠ 4) ||
        decide (firstByte &&& 0x0f < 5)) with
    | true => exact ⟨_, _, rfl, fun fine => absurd fine.symm Bool.false_ne_true⟩
    | false =>
        rw [if_neg Bool.false_ne_true]
        obtain ⟨checked, -⟩ := Bool.or_eq_false_iff.mp failed
        obtain ⟨unfailed, version⟩ := Bool.or_eq_false_iff.mp checked
        replace version := not_not.mp (of_decide_eq_false version)
        refine ⟨_, _, IPv4Header.verify_eq version _ _, fun _ => ?_⟩
        refine BufferList.unread_removePrefix_firm (scanned.firm ?_) _
        rw [scanned.error, decide_eq_false_iff_not] at unfailed
        exact Nat.not_lt.mp unfailed
  obtain ⟨header, final, ran, leaves⟩ := ends
  have whole : old.parse (Parser.new buffers) = .ok (⟨header, final.input.dumpAll⟩, final) :=
    bind_eq_ok.mpr ⟨header, final, ran, rfl⟩
  refine ⟨_, parse_of_ran whole, fun found accepted => ?_⟩
  obtain ⟨fine, rfl⟩ := eq_of_accepted accepted
  exact BufferList.firm_dumpAll (leaves fine)

end IPv4Datagram

/-! ## Frames through a device -/

namespace EthernetFrame

def blank : EthernetFrame := ⟨⟨EthernetAddress.zero, EthernetAddress.zero, 0⟩, []⟩

/-- The bytes of a frame. -/
def packet (frame : EthernetFrame) : Packet := frame.header.encoding ++ frame.payload.flatten

theorem serialize_packet (frame : EthernetFrame) :
    ∃ buffers, Wire.serialize frame.serialize = .ok buffers ∧
      FileDescriptor.write buffers = frame.packet := by
  obtain ⟨rest, written, flat⟩ := frame.serialize_eq
  refine ⟨_, written, ?_⟩
  rw [FileDescriptor.write, List.flatten_cons, flat, packet]

end EthernetFrame

/-- The room that a read leaves for an Ethernet header and an IP header. -/
def frameBuffers : List Buffer :=
  [List.replicate EthernetHeader.LENGTH 0, List.replicate IPv4Header.LENGTH 0, []]

/-- What the longest packet that is read whole has room for. -/
def MAX_FRAME_SIZE : Nat :=
  EthernetHeader.LENGTH + IPv4Header.LENGTH + FileDescriptor.kReadBufferSize

def maybeReceiveFrame (packet : Packet) : Except Fault (Option EthernetFrame) :=
  parse EthernetFrame.blank.parse (FileDescriptor.read frameBuffers packet)

theorem read_frameBuffers (packet : Packet) :
    (FileDescriptor.read frameBuffers packet).flatten = packet.take MAX_FRAME_SIZE ∧
      Firm (FileDescriptor.read frameBuffers packet) := by
  have sizes : (FileDescriptor.resizeBack frameBuffers).map List.length =
      [EthernetHeader.LENGTH, IPv4Header.LENGTH, FileDescriptor.kReadBufferSize] := by
    simp [frameBuffers, FileDescriptor.resizeBack]
  rw [FileDescriptor.read_eq, sizes]
  exact ⟨FileDescriptor.flatten_pieces _ _, FileDescriptor.firm_pieces (by decide) _⟩

/-- A packet is rejected just if it has no whole header, and otherwise the frame has all its bytes
that there is room for. -/
theorem maybeReceiveFrame_returns (packet : Packet) :
    ∃ outcome, maybeReceiveFrame packet = .ok outcome ∧
      (outcome = none ↔ packet.length < EthernetHeader.LENGTH) ∧
      ∀ frame, outcome = some frame →
        Firm frame.payload ∧ frame.packet = packet.take MAX_FRAME_SIZE := by
  obtain ⟨flat, firm⟩ := read_frameBuffers packet
  obtain ⟨outcome, parsed, rejected, leaves⟩ := EthernetFrame.blank.parse_returns firm
  have long : packet.length < EthernetHeader.LENGTH ↔
      (packet.take MAX_FRAME_SIZE).length < EthernetHeader.LENGTH := by
    have room : EthernetHeader.LENGTH ≤ MAX_FRAME_SIZE := by decide
    rw [List.length_take]
    omega
  rw [flat, ← long] at rejected
  refine ⟨outcome, parsed, rejected, fun frame accepted => ⟨leaves frame accepted, ?_⟩⟩
  have whole : EthernetHeader.LENGTH ≤ (packet.take MAX_FRAME_SIZE).length := by
    rw [accepted, long] at rejected
    exact Nat.not_lt.mp fun short => Option.some_ne_none _ (rejected.mpr short)
  obtain ⟨header, split⟩ := EthernetHeader.exists_encoding whole
  obtain ⟨payload, again, same, -⟩ := EthernetFrame.blank.parse_of_flatten (flat.trans split) firm
  rw [accepted] at parsed
  cases parsed.symm.trans again
  rw [EthernetFrame.packet, same, ← split]

/-- What is written to a device as a frame is read as the same frame, as far as there is room for
its payload. -/
theorem maybeReceiveFrame_packet (frame : EthernetFrame) :
    ∃ payload, maybeReceiveFrame frame.packet = .ok (some ⟨frame.header, payload⟩) ∧
      payload.flatten = frame.payload.flatten.take (MAX_FRAME_SIZE - EthernetHeader.LENGTH) ∧
      Firm payload := by
  obtain ⟨flat, firm⟩ := read_frameBuffers frame.packet
  have room : EthernetHeader.LENGTH ≤ MAX_FRAME_SIZE := by decide
  rw [EthernetFrame.packet, List.take_append, EthernetHeader.encoding_length,
    List.take_of_length_le (by rw [EthernetHeader.encoding_length]; exact room)] at flat
  exact EthernetFrame.blank.parse_of_flatten flat firm

/-- What is read of a packet is the frame that was written, as far as there is room, and writing
what is read of a packet gives its bytes again.  Only what has no whole header is not read. -/
theorem frames_roundTrip :
    (∀ frame : EthernetFrame, ∃ buffers payload, serialize frame.serialize = .ok buffers ∧
      maybeReceiveFrame (FileDescriptor.write buffers) = .ok (some ⟨frame.header, payload⟩) ∧
      payload.flatten = frame.payload.flatten.take (MAX_FRAME_SIZE - EthernetHeader.LENGTH)) ∧
      ∀ packet : Packet, ∃ outcome, maybeReceiveFrame packet = .ok outcome ∧
        (outcome = none ↔ packet.length < EthernetHeader.LENGTH) ∧
        ∀ frame, outcome = some frame → ∃ buffers, serialize frame.serialize = .ok buffers ∧
          FileDescriptor.write buffers = packet.take MAX_FRAME_SIZE := by
  refine ⟨fun frame => ?_, fun packet => ?_⟩
  · obtain ⟨buffers, written, same⟩ := frame.serialize_packet
    obtain ⟨payload, read, flat, -⟩ := maybeReceiveFrame_packet frame
    rw [← same] at read
    exact ⟨buffers, payload, written, read, flat⟩
  · obtain ⟨outcome, read, rejected, reads⟩ := maybeReceiveFrame_returns packet
    refine ⟨outcome, read, rejected, fun frame accepted => ?_⟩
    obtain ⟨buffers, written, same⟩ := frame.serialize_packet
    exact ⟨buffers, written, same.trans (reads frame accepted).2⟩

end Minnow.Wire
