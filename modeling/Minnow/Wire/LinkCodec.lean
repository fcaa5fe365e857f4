import Minnow.Wire.ARPMessage

/-!
# Reading the link layer back

What is written is read back, however the bytes are cut, and what is read was written: a step
that ends without an error has taken the encoding of its value off the input.
-/

namespace Minnow.Wire

open UnsignedIntegral

namespace Parser

variable {Value Result : Type}

/-- If the step ends without an error, there was none before it, and its value has the given
relation to the bytes it took. -/
def Recovers (method : ParseM Value) (Taken : Value → List UInt8 → Prop) : Prop :=
  ∀ parser value next, method parser = .ok (value, next) → next.error = false →
    parser.error = false ∧ ∃ taken, parser.input.remaining = taken ++ next.input.remaining ∧
      Taken value taken

theorem recovers_pure {value : Value} {Taken : Value → List UInt8 → Prop} (holds : Taken value []) :
    Recovers (pure value) Taken := by
  rintro parser _ next ⟨⟩ fine
  exact ⟨fine, [], rfl, holds⟩

/-- A step that fails recovers nothing. -/
theorem recovers_setError (value : Value) (Taken : Value → List UInt8 → Prop) :
    Recovers (do setError; return value) Taken := by
  rintro parser _ next ⟨⟩ fine
  exact absurd fine Bool.noConfusion

theorem Recovers.bind {method : ParseM Value} {later : Value → ParseM Result}
    {First : Value → List UInt8 → Prop} {Whole : Result → List UInt8 → Prop}
    (here : Recovers method First)
    (there : ∀ value first,
      Recovers (later value) (fun result rest => First value first → Whole result (first ++ rest))) :
    Recovers (method >>= later) Whole := by
  intro parser result final ran fine
  obtain ⟨value, middle, began, ended⟩ := bind_eq_ok.mp ran
  have between := (there value [] middle result final ended fine).1
  obtain ⟨before, first, split, took⟩ := here parser value middle began between
  obtain ⟨-, rest, behind, whole⟩ := there value first middle result final ended fine
  refine ⟨before, first ++ rest, ?_, whole took⟩
  rw [split, behind, List.append_assoc]

theorem recovers_integer {T : Type} [UnsignedIntegral T] [Spanned T] (out : T) :
    Recovers (integer out) (fun value taken => taken = encode value) := by
  intro parser value next ran fine
  obtain ⟨before, enough, decoded, left⟩ := integer_ok ran fine
  refine ⟨before, encode value, ?_, rfl⟩
  rw [decoded, left, encode_decode enough]

end Parser

namespace EthernetAddress

theorem recovers_mmap {n : Nat} (old : List.Vector UInt8 n) :
    Parser.Recovers (old.mmap Parser.integer) (fun address taken => taken = address.toList) := by
  induction n with
  | zero => exact Parser.recovers_pure rfl
  | succ n ih =>
      refine (Parser.recovers_integer old.head).bind fun byte first => ?_
      refine (ih old.tail).bind fun others rest => Parser.recovers_pure ?_
      rintro rfl rfl
      rw [encode_uint8, List.append_nil, List.Vector.toList_cons, List.singleton_append]

/-- The six bytes of an address that was read. -/
theorem recovers_parse (old : EthernetAddress) :
    Parser.Recovers old.parse (fun address taken => taken = address.toList) :=
  recovers_mmap old

end EthernetAddress

/-! ## Frames -/

namespace EthernetHeader

/-- The fourteen bytes that are written. -/
def encoding (header : EthernetHeader) : List UInt8 :=
  [header.dst.toList, header.src.toList, encode header.type].flatten

theorem serialize_eq (header : EthernetHeader) (serializer : Serializer) :
    header.serialize serializer =
      { serializer with buffer := serializer.buffer ++ header.encoding } := by
  rw [serialize, EthernetAddress.serialize, EthernetAddress.serialize, Serializer.foldl_integer,
    Serializer.foldl_integer]
  simp [Serializer.integer, encoding, encode]

theorem yields_parse (old header : EthernetHeader) :
    Parser.Yields old.parse header.encoding header := by
  refine (EthernetAddress.yields_parse _ header.dst).bind ?_
  refine (EthernetAddress.yields_parse _ header.src).bind ?_
  exact (Parser.yields_integer _ header.type).bind (Parser.yields_pure header)

end EthernetHeader

/-- The header of a written frame fills a buffer of its own, and the payload comes behind it. -/
theorem EthernetFrame.serialize_eq (frame : EthernetFrame) :
    ∃ rest, Wire.serialize frame.serialize = .ok (frame.header.encoding :: rest) ∧
      rest.flatten = frame.payload.flatten := by
  obtain ⟨rest, finished, flat, -⟩ :=
    (frame.header.serialize Serializer.new).pushBuffers_finish frame.payload
  refine ⟨rest, ?_, flat⟩
  rw [EthernetHeader.serialize_eq] at finished
  change Except.ok (Serializer.finish ((frame.header.serialize Serializer.new).pushBuffers
    frame.payload)) = _
  rw [EthernetHeader.serialize_eq, finished]
  rfl

/-- A written frame is read back, whatever buffers its payload came in. -/
theorem EthernetFrame.read_back (frame : EthernetFrame) :
    ∃ buffers, Wire.serialize frame.serialize = .ok buffers ∧ ∀ old : EthernetFrame,
      ∃ payload, Wire.parse old.parse buffers = .ok (some ⟨frame.header, payload⟩) ∧
        payload.flatten = frame.payload.flatten := by
  obtain ⟨rest, written, flat⟩ := frame.serialize_eq
  refine ⟨_, written, fun old => ?_⟩
  have before : (Parser.new (frame.header.encoding :: rest)).Before
      (frame.header.encoding ++ []) rest.flatten := by
    refine Parser.before_new ?_ (solid_of_le ?_ rest)
    · rw [List.append_nil, List.flatten_cons]
    · rw [List.append_nil]
  obtain ⟨next, ran, after⟩ :=
    EthernetHeader.yields_parse old.header frame.header _ [] rest.flatten before
  refine ⟨next.input.dumpAll, parse_eq_some.mpr ⟨next, ?_, after.fine⟩, ?_⟩
  · exact bind_eq_ok.mpr ⟨_, next, ran, rfl⟩
  · rw [BufferList.dumpAll_flatten, after.remaining, List.nil_append, flat]

/-! ## Address resolution -/

namespace ARPMessage

@[simp] theorem encoding_length (message : ARPMessage) : message.encoding.length = 28 := by
  simp only [encoding, List.flatten_cons, List.flatten_nil, List.length_append, encode_length,
    List.Vector.toList_length, List.length_nil]
  rfl

/-- A written message is read back, whatever follows it and however the bytes are cut. -/
theorem read_back {message : ARPMessage} (supported : message.supported = true)
    (old : ARPMessage) {cut : List Buffer} {padding : List UInt8}
    (nonempty : ∀ buffer ∈ cut, buffer ≠ []) (flat : cut.flatten = message.encoding ++ padding) :
    Wire.parse old.parse cut = .ok (some message) := by
  have before : (Parser.new cut).Before (message.encoding ++ []) padding := by
    refine Parser.before_new ?_ (solid_of_nonempty nonempty _)
    rw [List.append_nil, flat]
  obtain ⟨next, ran, after⟩ := yields_parse old supported _ [] padding before
  exact parse_eq_some.mpr ⟨next, ran, after.fine⟩

/-- Only what is written for a supported message is read. -/
theorem recovers_parse (old : ARPMessage) :
    Parser.Recovers old.parse
      (fun message taken => message.supported = true ∧ taken = message.encoding) := by
  refine (Parser.recovers_integer _).bind fun hardwareType first => ?_
  refine (Parser.recovers_integer _).bind fun protocolType second => ?_
  refine (Parser.recovers_integer _).bind fun hardwareAddressSize third => ?_
  refine (Parser.recovers_integer _).bind fun protocolAddressSize fourth => ?_
  refine (Parser.recovers_integer _).bind fun opcode fifth => ?_
  dsimp only
  split
  · exact Parser.recovers_setError _ _
  · rename_i supported
    refine (EthernetAddress.recovers_parse _).bind fun sender sixth => ?_
    refine (Parser.recovers_integer _).bind fun senderIp seventh => ?_
    refine (EthernetAddress.recovers_parse _).bind fun target eighth => ?_
    refine (Parser.recovers_integer _).bind fun targetIp ninth => Parser.recovers_pure ?_
    rintro rfl rfl rfl rfl rfl rfl rfl rfl rfl
    rw [Bool.not_eq_true, Bool.not_eq_false'] at supported
    exact ⟨supported, rfl⟩

/-- A message that was read is written as its first bytes. -/
theorem written_back {old message : ARPMessage} {received : List Buffer}
    (parsed : Wire.parse old.parse received = .ok (some message)) :
    ∃ buffers, Wire.serialize message.serialize = .ok buffers ∧ 28 ≤ received.flatten.length ∧
      buffers.flatten = received.flatten.take 28 := by
  obtain ⟨next, ran, fine⟩ := parse_eq_some.mp parsed
  obtain ⟨-, taken, split, supported, rfl⟩ := recovers_parse old _ _ _ ran fine
  have whole : received.flatten = message.encoding ++ next.input.remaining :=
    (BufferList.remaining_ofBuffers received).symm.trans split
  refine ⟨_, serialize_eq supported, ?_, ?_⟩
  · rw [whole, List.length_append, encoding_length]
    exact Nat.le_add_right _ _
  · rw [whole, List.flatten_singleton, ← message.encoding_length, List.take_left]

end ARPMessage

/-- What the link layer writes it reads back, and it reads no message but what it writes. -/
theorem link_roundTrip :
    (∀ frame : EthernetFrame, ∃ buffers, serialize frame.serialize = .ok buffers ∧
      ∀ old : EthernetFrame, ∃ payload,
        parse old.parse buffers = .ok (some ⟨frame.header, payload⟩) ∧
          payload.flatten = frame.payload.flatten) ∧
    (∀ message : ARPMessage, message.supported = true →
      ∃ buffers, serialize message.serialize = .ok buffers ∧
        ∀ old : ARPMessage, parse old.parse buffers = .ok (some message) ∧
          ∀ cut padding, (∀ buffer ∈ cut, buffer ≠ []) → cut.flatten = buffers.flatten ++ padding →
            parse old.parse cut = .ok (some message)) ∧
    (∀ (old message : ARPMessage) (received : List Buffer),
      parse old.parse received = .ok (some message) →
        ∃ buffers, serialize message.serialize = .ok buffers ∧ 28 ≤ received.flatten.length ∧
          buffers.flatten = received.flatten.take 28) := by
  refine ⟨EthernetFrame.read_back, ?_, fun old message received => ARPMessage.written_back⟩
  intro message supported
  refine ⟨_, ARPMessage.serialize_eq supported, fun old => ⟨?_, ?_⟩⟩
  · exact (ARPMessage.yields_parse old supported).parse_eq
  · intro cut padding nonempty flat
    rw [List.flatten_singleton] at flat
    exact ARPMessage.read_back supported old nonempty flat

/-- A request in two pieces, with a byte of padding. -/
def cutRequest : List Buffer :=
  let request : ARPMessage := { opcode := ARPMessage.OPCODE_REQUEST }
  [request.encoding.take 10, request.encoding.drop 10 ++ [0]]

theorem link_roundTrip_cutRequest :
    ∃ message buffers, parse (ARPMessage.parse {}) cutRequest = .ok (some message) ∧
      serialize message.serialize = .ok buffers ∧
        buffers.flatten = cutRequest.flatten.take 28 := by
  obtain ⟨-, reads, writes⟩ := link_roundTrip
  obtain ⟨buffers, written, whole⟩ := reads { opcode := ARPMessage.OPCODE_REQUEST } rfl
  cases (ARPMessage.serialize_eq rfl).symm.trans written
  have parsed := (whole {}).2 cutRequest [0] (by decide) (by decide)
  obtain ⟨again, rewritten, -, first⟩ := writes _ _ _ parsed
  exact ⟨_, again, parsed, rewritten, first⟩

end Minnow.Wire
