import Minnow.Wire.BufferCursor

/-!
# Encodings

A parsing step yields a value on an encoding when it reads just these bytes, wherever
the boundaries of the buffers fall.  The only boundaries it cannot stand are those of an
empty buffer, whose first byte the parser would look for.
-/

namespace Minnow.Wire

open UnsignedIntegral

/-! ## Numbers as bytes -/

/-- The number that bytes stand for behind a leading number. -/
def fromBigEndian (out : Nat) (bytes : List UInt8) : Nat :=
  bytes.foldl (fun out byte => out * 256 + byte.toNat) out

theorem bigEndian_succ (size number : Nat) :
    bigEndian (size + 1) number =
      UInt8.ofNat (number >>> (size * 8)) :: bigEndian size number := by
  rw [bigEndian, List.range_succ_eq_map, List.map_cons, List.map_map, bigEndian]
  congr 1
  apply List.map_congr_left
  intro i _
  change UInt8.ofNat (number >>> ((size + 1 - (i + 1) - 1) * 8)) = _
  rw [Nat.add_sub_add_right]

theorem fromBigEndian_bigEndian (size number out : Nat) :
    fromBigEndian out (bigEndian size number) = out * 256 ^ size + number % 256 ^ size := by
  induction size generalizing out with
  | zero => rw [Nat.pow_zero, Nat.mod_one, Nat.mul_one]; rfl
  | succ size ih =>
      have digit : (UInt8.ofNat (number >>> (size * 8))).toNat = number / 256 ^ size % 256 := by
        rw [UInt8.toNat_ofNat', Nat.shiftRight_eq_div_pow, Nat.mul_comm, Nat.pow_mul]
      have split : number % 256 ^ (size + 1) =
          number % 256 ^ size + 256 ^ size * (number / 256 ^ size % 256) := Nat.mod_pow_succ
      rw [bigEndian_succ, fromBigEndian, List.foldl_cons, ← fromBigEndian, ih, digit, split,
        Nat.pow_succ, Nat.add_mul, Nat.add_assoc, Nat.add_comm (number % _), Nat.mul_assoc,
        Nat.mul_comm 256, Nat.mul_comm (number / _ % _)]

/-- The leading number stands above the bytes. -/
theorem fromBigEndian_div (bytes : List UInt8) (out : Nat) :
    fromBigEndian out bytes / 256 ^ bytes.length = out := by
  induction bytes generalizing out with
  | nil => exact Nat.div_one out
  | cons byte rest ih =>
      have digit := byte.toNat_lt
      have inner := ih (out * 256 + byte.toNat)
      rw [List.length_cons, Nat.pow_succ, ← Nat.div_div_eq_div_mul, fromBigEndian, List.foldl_cons,
        ← fromBigEndian, inner]
      omega

/-- Bytes are the encoding of the number they stand for. -/
theorem bigEndian_fromBigEndian (bytes : List UInt8) (out : Nat) :
    bigEndian bytes.length (fromBigEndian out bytes) = bytes := by
  induction bytes generalizing out with
  | nil => rfl
  | cons byte rest ih =>
      have number : fromBigEndian out (byte :: rest) =
          fromBigEndian (out * 256 + byte.toNat) rest := rfl
      have digit : UInt8.ofNat (out * 256 + byte.toNat) = byte := by
        apply UInt8.toNat.inj
        have small := byte.toNat_lt
        rw [UInt8.toNat_ofNat']
        omega
      rw [List.length_cons, bigEndian_succ, number, ih, Nat.shiftRight_eq_div_pow,
        Nat.mul_comm rest.length, Nat.pow_mul]
      change UInt8.ofNat (_ / 256 ^ rest.length) :: rest = _
      rw [fromBigEndian_div, digit]

/-- The bytes of an unsigned integer. -/
def encode {T : Type} [UnsignedIntegral T] (value : T) : List UInt8 :=
  bigEndian (size T) (toNat value)

/-- The number that the next bytes stand for. -/
def decode (T : Type) [UnsignedIntegral T] (bytes : List UInt8) : T :=
  ofNat (fromBigEndian 0 (bytes.take (size T)))

theorem fromBigEndian_lt (bytes : List UInt8) : fromBigEndian 0 bytes < 256 ^ bytes.length :=
  (Nat.div_eq_zero_iff_lt (Nat.pow_pos (by decide))).mp (fromBigEndian_div bytes 0)

/-- A type that has all numbers of its size. -/
class Spanned (T : Type) [UnsignedIntegral T] : Prop where
  toNat_ofNat : ∀ number < 256 ^ size T, toNat (ofNat number : T) = number

instance : Spanned UInt8 := ⟨fun _ small => UInt8.toNat_ofNat_of_lt' small⟩

instance : Spanned UInt16 := ⟨fun _ small => UInt16.toNat_ofNat_of_lt' small⟩

instance : Spanned UInt32 := ⟨fun _ small => UInt32.toNat_ofNat_of_lt' small⟩

/-- What is decoded was encoded. -/
theorem encode_decode {T : Type} [UnsignedIntegral T] [Spanned T] {bytes : List UInt8}
    (enough : size T ≤ bytes.length) : encode (decode T bytes) ++ bytes.drop (size T) = bytes := by
  have length := List.length_take_of_le enough
  have small := fromBigEndian_lt (bytes.take (size T))
  have back := bigEndian_fromBigEndian (bytes.take (size T)) 0
  rw [length] at small back
  rw [encode, decode, Spanned.toNat_ofNat _ small, back, List.take_append_drop]

theorem encode_decode_uint8 {bytes : List UInt8} (enough : 1 ≤ bytes.length) :
    encode (decode UInt8 bytes) ++ bytes.drop 1 = bytes :=
  @encode_decode UInt8 _ _ bytes enough

theorem encode_decode_uint16 {bytes : List UInt8} (enough : 2 ≤ bytes.length) :
    encode (decode UInt16 bytes) ++ bytes.drop 2 = bytes :=
  @encode_decode UInt16 _ _ bytes enough

theorem encode_decode_uint32 {bytes : List UInt8} (enough : 4 ≤ bytes.length) :
    encode (decode UInt32 bytes) ++ bytes.drop 4 = bytes :=
  @encode_decode UInt32 _ _ bytes enough

@[simp] theorem encode_length {T : Type} [UnsignedIntegral T] (value : T) :
    (encode value).length = size T :=
  bigEndian_length _ _

@[simp] theorem encode_uint8 (byte : UInt8) : encode byte = [byte] := by
  change [UInt8.ofNat byte.toNat] = [byte]
  rw [UInt8.ofNat_toNat]

namespace Serializer

@[simp] theorem integer_output {T : Type} [UnsignedIntegral T] (serializer : Serializer) (val : T) :
    (serializer.integer val).output = serializer.output :=
  rfl

@[simp] theorem integer_buffer {T : Type} [UnsignedIntegral T] (serializer : Serializer) (val : T) :
    (serializer.integer val).buffer = serializer.buffer ++ encode val :=
  rfl

/-- Bytes written one by one. -/
theorem foldl_integer (serializer : Serializer) (bytes : List UInt8) :
    bytes.foldl integer serializer = { serializer with buffer := serializer.buffer ++ bytes } := by
  induction bytes generalizing serializer with
  | nil => rw [List.append_nil]; rfl
  | cons byte rest ih =>
      rw [List.foldl_cons, ih, integer_buffer, encode_uint8, List.append_assoc]
      rfl

/-- What was written before the buffers comes in a buffer of its own. -/
theorem pushBuffers_finish (serializer : Serializer) (bufs : List Buffer) :
    ∃ rest, (serializer.pushBuffers bufs).finish =
      serializer.output ++ serializer.buffer :: rest ∧
        rest.flatten = bufs.flatten ∧ rest.head? = bufs.head? := by
  induction bufs generalizing serializer with
  | nil => exact ⟨[], rfl, rfl, rfl⟩
  | cons buf others ih =>
      obtain ⟨rest, finished, flat, -⟩ := ih (serializer.pushBuffer buf)
      refine ⟨buf :: [] :: rest, ?_, ?_, rfl⟩
      · change ((serializer.pushBuffer buf).pushBuffers others).finish = _
        rw [finished, pushBuffer, flush]
        simp only [List.append_assoc, List.cons_append, List.nil_append]
      · rw [List.flatten_cons, List.flatten_cons, List.flatten_cons, flat, List.nil_append]

end Serializer

/-! ## Steps of the parser -/

section Bind

variable {Value Result : Type} {method : ParseM Value} {later : Value → ParseM Result}
  {parser next final : Parser} {result : Result}

theorem bind_of_ok {value : Value} (ran : method parser = .ok (value, next)) :
    (method >>= later) parser = later value next := by
  change (method parser >>= fun step => later step.1 step.2) = _
  rw [ran]
  rfl

theorem bind_of_error {fault : Fault} (failed : method parser = .error fault) :
    (method >>= later) parser = .error fault := by
  change (method parser >>= fun step => later step.1 step.2) = _
  rw [failed]
  rfl

/-- A sequence of steps returns just if both parts do. -/
theorem bind_eq_ok :
    (method >>= later) parser = .ok (result, final) ↔
      ∃ value next, method parser = .ok (value, next) ∧ later value next = .ok (result, final) := by
  change (method parser >>= fun step => later step.1 step.2) = _ ↔ _
  rw [Fault.bind_eq_ok]
  constructor
  · rintro ⟨⟨value, next⟩, first, second⟩
    exact ⟨value, next, first, second⟩
  · rintro ⟨value, next, first, second⟩
    exact ⟨(value, next), first, second⟩

end Bind

/-- An object is parsed just if its method ends without an error. -/
theorem parse_eq_some {Object : Type} {method : ParseM Object} {buffers : List Buffer}
    {object : Object} :
    parse method buffers = .ok (some object) ↔
      ∃ final, method (Parser.new buffers) = .ok (object, final) ∧ final.error = false := by
  rw [parse, Fault.bind_eq_ok]
  constructor
  · rintro ⟨⟨result, final⟩, ran, done⟩
    change Except.ok (if final.error then none else some result) = _ at done
    cases failed : final.error with
    | true =>
        rw [failed] at done
        cases done
    | false =>
        rw [failed] at done
        cases done
        exact ⟨final, ran, failed⟩
  · rintro ⟨final, ran, fine⟩
    refine ⟨(object, final), ran, ?_⟩
    change Except.ok (if final.error then none else some object) = _
    rw [fine]
    rfl

namespace Parser

/-- The parser has not failed; `bytes` come next, where it can read them, and then `rest`. -/
structure Before (parser : Parser) (bytes rest : List UInt8) : Prop where
  fine : parser.error = false
  remaining : parser.input.remaining = bytes ++ rest
  solid : Solid bytes.length parser.input.unread

theorem before_new {buffers : List Buffer} {bytes rest : List UInt8}
    (flat : buffers.flatten = bytes ++ rest) (solid : Solid bytes.length buffers) :
    (new buffers).Before bytes rest where
  fine := rfl
  remaining := (BufferList.remaining_ofBuffers buffers).trans flat
  solid := by
    rw [new, BufferList.unread_ofBuffers]
    exact solid

variable {parser : Parser} {bytes rest : List UInt8}

/-- Steps after a failure. -/
@[simp] theorem setError_bind {Result : Type} (later : Unit → ParseM Result) (parser : Parser) :
    (setError >>= later) parser = later () { parser with error := true } :=
  rfl

@[simp] theorem hasError_bind {Result : Type} (later : Bool → ParseM Result) (parser : Parser) :
    (hasError >>= later) parser = later parser.error parser :=
  rfl

@[simp] theorem get_bind {Result : Type} (later : Parser → ParseM Result) (parser : Parser) :
    ((get : ParseM Parser) >>= later) parser = later parser parser :=
  rfl

/-- A check that only sets the error. -/
theorem setErrorIf_bind {Result : Type} (wrong : Prop) [Decidable wrong]
    (later : Unit → ParseM Result) (parser : Parser) :
    (if wrong then setError >>= later else later ()) parser =
      later () { parser with error := parser.error || decide wrong } := by
  by_cases failing : wrong
  · rw [if_pos failing, setError_bind, decide_eq_true failing, Bool.or_true]
  · rw [if_neg failing, decide_eq_false failing, Bool.or_false]

theorem checkSize_of_gt {size : Nat} (short : size > parser.input.size) :
    checkSize size parser = .ok ((), { parser with error := true }) := by
  refine bind_eq_ok.mpr ⟨parser, parser, rfl, ?_⟩
  rw [if_pos short]
  rfl

theorem checkSize_of_le {size : Nat} (enough : size ≤ parser.input.size) :
    checkSize size parser = .ok ((), parser) := by
  refine bind_eq_ok.mpr ⟨parser, parser, rfl, ?_⟩
  rw [if_neg (Nat.not_lt.mpr enough)]
  rfl

/-- A loop behind the check that there are `count` bytes for it. -/
def checked {Value : Type} (count : Nat) (out : Value) (loop : ParseM Value) : ParseM Value := do
  checkSize count
  if ← hasError then return out
  loop

theorem checked_of_failed {Value : Type} {count : Nat} (out : Value) (loop : ParseM Value)
    (failed : parser.error = true ∨ parser.input.remaining.length < count) :
    checked count out loop parser = .ok (out, { parser with error := true }) := by
  rw [BufferList.remaining_length] at failed
  by_cases short : count > parser.input.size
  · exact bind_of_ok (checkSize_of_gt short)
  · have error : parser.error = true := failed.resolve_right short
    have stays : ({ parser with error := true } : Parser) = parser := by
      rw [← error]
    refine (bind_of_ok (checkSize_of_le (Nat.not_lt.mp short))).trans ?_
    rw [hasError_bind, error, stays]
    rfl

theorem checked_of_fine {Value : Type} {count : Nat} (out : Value) (loop : ParseM Value)
    (fine : parser.error = false) (enough : count ≤ parser.input.remaining.length) :
    checked count out loop parser = loop parser := by
  rw [BufferList.remaining_length] at enough
  refine (bind_of_ok (checkSize_of_le enough)).trans ?_
  rw [hasError_bind, fine]
  rfl

/-- What is at the front decides how a step goes on. -/
theorem peek_bind {Result : Type} {view : List UInt8} (peeked : parser.input.peek = .ok view)
    (later : List UInt8 → ParseM Result) :
    (do later (← (← get).input.peek) : ParseM Result) parser = later view parser := by
  change (liftM parser.input.peek >>= later) parser = _
  rw [peeked]
  rfl

theorem front_of_unread {byte : UInt8} {more : Buffer} {others : List Buffer}
    (unread : parser.input.unread = (byte :: more) :: others) : front parser = .ok (byte, parser) :=
  peek_bind (BufferList.peek_of_unread unread) _

/-- The parser once `count` bytes are removed. -/
def skipped (parser : Parser) (count : Nat) : Parser :=
  { parser with input := parser.input.removePrefix count }

theorem removePrefix_apply (parser : Parser) (count : Nat) :
    removePrefix count parser = .ok ((), parser.skipped count) :=
  rfl

@[simp] theorem removePrefix_bind {Result : Type} (count : Nat) (later : Unit → ParseM Result)
    (parser : Parser) : (removePrefix count >>= later) parser = later () (parser.skipped count) :=
  rfl

@[simp] theorem allRemainingBuffer_bind {Result : Type} (later : Buffer → ParseM Result)
    (parser : Parser) :
    (allRemainingBuffer >>= later) parser = later parser.input.remaining parser := by
  rw [← BufferList.dumpAllBuffer_eq]
  rfl

theorem remaining_skipped (parser : Parser) (count : Nat) :
    (parser.skipped count).input.remaining = parser.input.remaining.drop count :=
  parser.input.remaining_removePrefix count

@[simp] theorem unread_skipped (parser : Parser) (count : Nat) :
    (parser.skipped count).input.unread = dropBytes count parser.input.unread :=
  parser.input.unread_removePrefix count

/-- The buffers that hold the next bytes have one to begin with. -/
theorem exists_front {count : Nat} (solid : Solid (count + 1) parser.input.unread)
    (enough : count + 1 ≤ parser.input.remaining.length) :
    ∃ byte more others, parser.input.unread = (byte :: more) :: others := by
  rw [← BufferList.unread_flatten] at enough
  cases unread : parser.input.unread with
  | nil =>
      rw [unread] at enough
      exact absurd enough (Nat.not_succ_le_zero count)
  | cons front others =>
      rw [unread] at solid
      rcases solid with none | ⟨nonempty, -⟩
      · exact absurd none (Nat.succ_ne_zero count)
      · obtain ⟨byte, more, rfl⟩ := List.exists_cons_of_ne_nil nonempty
        exact ⟨byte, more, others, rfl⟩

/-- Where the next bytes can be read, the loop takes them. -/
theorem integerLoop_of_solid {count : Nat} (out : Nat) (solid : Solid count parser.input.unread)
    (enough : count ≤ parser.input.remaining.length) :
    ∃ next, integerLoop count out parser =
        .ok (fromBigEndian out (parser.input.remaining.take count), next) ∧
      next.error = parser.error ∧ next.input.unread = dropBytes count parser.input.unread := by
  induction count generalizing parser out with
  | zero => exact ⟨parser, rfl, rfl, (dropBytes_zero _).symm⟩
  | succ count ih =>
      obtain ⟨byte, more, others, unread⟩ := exists_front solid enough
      have whole : parser.input.remaining = byte :: parser.input.remaining.drop 1 := by
        rw [← BufferList.unread_flatten, unread]
        rfl
      have left := remaining_skipped parser 1
      rw [Nat.add_comm, solid_add, ← unread_skipped] at solid
      obtain ⟨next, looped, error, behind⟩ := ih (out * 256 + byte.toNat) solid.2 (by
        rw [left, List.length_drop]
        omega)
      refine ⟨next, ?_, error, ?_⟩
      · rw [left] at looped
        rw [whole, List.take_succ_cons]
        exact bind_eq_ok.mpr ⟨byte, parser, front_of_unread unread,
          bind_eq_ok.mpr ⟨(), _, removePrefix_apply parser 1, looped⟩⟩
      · rw [behind, unread_skipped, dropBytes_dropBytes, Nat.add_comm]

theorem integerLoop_of_before {first : List UInt8} (out : Nat)
    (before : parser.Before (first ++ bytes) rest) :
    ∃ next, integerLoop first.length out parser = .ok (fromBigEndian out first, next) ∧
      next.Before bytes rest := by
  have remaining := before.remaining
  have solid := before.solid
  rw [List.append_assoc] at remaining
  rw [List.length_append, solid_add] at solid
  obtain ⟨next, looped, error, unread⟩ := integerLoop_of_solid out solid.1 (by
    rw [remaining, List.length_append]
    exact Nat.le_add_right _ _)
  rw [remaining, List.take_left] at looped
  refine ⟨next, looped, error.trans before.fine, ?_, unread ▸ solid.2⟩
  rw [← BufferList.unread_flatten, unread, dropBytes_flatten, BufferList.unread_flatten, remaining,
    List.drop_left]

/-- Bytes of the right number yield what they stand for. -/
theorem integer_of_before {T : Type} [UnsignedIntegral T] (out : T) {first : List UInt8}
    (before : parser.Before (first ++ bytes) rest) (whole : first.length = size T) :
    ∃ next, integer out parser = .ok (ofNat (fromBigEndian 0 first), next) ∧
      next.Before bytes rest := by
  obtain ⟨next, looped, after⟩ := integerLoop_of_before 0 before
  have enough : size T ≤ parser.input.remaining.length := by
    rw [before.remaining, List.append_assoc, List.length_append, whole]
    exact Nat.le_add_right _ _
  rw [whole] at looped
  refine ⟨next, ?_, after⟩
  exact (checked_of_fine out _ before.fine enough).trans (bind_of_ok looped)

/-! ## What a step yields -/

/-- On the encoding the step gives the value, and leaves what follows. -/
def Yields {Value : Type} (method : ParseM Value) (encoding : List UInt8) (value : Value) : Prop :=
  ∀ parser bytes rest, Before parser (encoding ++ bytes) rest →
    ∃ next, method parser = .ok (value, next) ∧ next.Before bytes rest

theorem yields_pure {Value : Type} (value : Value) : Yields (pure value) [] value :=
  fun parser _ _ before => ⟨parser, rfl, before⟩

theorem Yields.bind {Value Result : Type} {method : ParseM Value} {later : Value → ParseM Result}
    {first second : List UInt8} {value : Value} {result : Result}
    (here : Yields method first value) (there : Yields (later value) second result) :
    Yields (method >>= later) (first ++ second) result := by
  intro parser bytes rest before
  rw [List.append_assoc] at before
  obtain ⟨middle, ran, between⟩ := here parser _ rest before
  obtain ⟨next, done, after⟩ := there middle bytes rest between
  exact ⟨next, bind_eq_ok.mpr ⟨value, middle, ran, done⟩, after⟩

theorem yields_integer {T : Type} [UnsignedIntegral T] (out value : T) :
    Yields (integer out) (encode value) value := by
  intro parser bytes rest before
  obtain ⟨next, ran, after⟩ := integer_of_before out before (bigEndian_length _ _)
  rw [encode, fromBigEndian_bigEndian, Nat.zero_mul, Nat.zero_add, Nat.mod_eq_of_lt (toNat_lt value),
    ofNat_toNat] at ran
  exact ⟨next, ran, after⟩

/-- What follows a step that yields a value can be followed from the parser it leaves. -/
theorem Yields.followed {Value Result : Type} {method : ParseM Value}
    {later : Value → ParseM Result} {encoding bytes rest : List UInt8} {value : Value}
    (here : Yields method encoding value) {parser : Parser}
    (before : parser.Before (encoding ++ bytes) rest) {After : Result → Parser → Prop}
    (there : ∀ next : Parser, next.Before bytes rest →
      ∃ result final, later value next = .ok (result, final) ∧ After result final) :
    ∃ result final, (method >>= later) parser = .ok (result, final) ∧ After result final := by
  obtain ⟨middle, ran, between⟩ := here parser bytes rest before
  obtain ⟨result, final, done, after⟩ := there middle between
  exact ⟨result, final, bind_eq_ok.mpr ⟨value, middle, ran, done⟩, after⟩

/-- An encoding in one buffer is parsed whole. -/
theorem Yields.parse_eq {Object : Type} {method : ParseM Object} {encoding : List UInt8}
    {object : Object} (yields : Yields method encoding object) :
    parse method [encoding] = .ok (some object) := by
  have flat : [encoding].flatten = (encoding ++ []) ++ [] := by simp
  have solid : Solid (encoding ++ []).length [encoding] := by
    rw [List.append_nil]
    exact solid_of_le (Nat.le_refl _) []
  obtain ⟨next, ran, after⟩ := yields _ [] [] (before_new flat solid)
  exact parse_eq_some.mpr ⟨next, ran, after.fine⟩

/-! ## What a step has read -/

variable {next : Parser}

theorem front_ok {byte : UInt8} (ran : front parser = .ok (byte, next)) :
    next = parser ∧ parser.input.remaining = byte :: parser.input.remaining.drop 1 := by
  obtain ⟨asked, same, ⟨⟩, ran⟩ := bind_eq_ok.mp ran
  obtain ⟨view, between, lifted, ran⟩ := bind_eq_ok.mp ran
  obtain ⟨seen, peeked, ⟨⟩⟩ := Fault.bind_eq_ok.mp lifted
  cases view with
  | nil => exact nomatch ran
  | cons first more =>
      cases ran
      refine ⟨rfl, ?_⟩
      obtain ⟨rest, unread⟩ := BufferList.unread_of_peek peeked
      rw [← parser.input.unread_flatten, unread]
      rfl

theorem integerLoop_ok {count out number : Nat}
    (ran : integerLoop count out parser = .ok (number, next)) :
    next.error = parser.error ∧ count ≤ parser.input.remaining.length ∧
      number = fromBigEndian out (parser.input.remaining.take count) ∧
      next.input.remaining = parser.input.remaining.drop count := by
  induction count generalizing parser out with
  | zero =>
      cases ran
      exact ⟨rfl, Nat.zero_le _, rfl, rfl⟩
  | succ count ih =>
      rw [integerLoop] at ran
      obtain ⟨byte, same, fronted, rest⟩ := bind_eq_ok.mp ran
      obtain ⟨rfl, whole⟩ := front_ok fronted
      obtain ⟨_, shorter, removed, looped⟩ := bind_eq_ok.mp rest
      rw [removePrefix_apply] at removed
      cases removed
      obtain ⟨fine, enough, numberIs, left⟩ := ih looped
      rw [remaining_skipped] at enough numberIs left
      rw [whole]
      refine ⟨fine, Nat.succ_le_succ enough, numberIs, ?_⟩
      rw [left, List.drop_succ_cons]

theorem integer_ok {T : Type} [UnsignedIntegral T] {out value : T}
    (ran : integer out parser = .ok (value, next)) (fine : next.error = false) :
    parser.error = false ∧ size T ≤ parser.input.remaining.length ∧
      value = decode T parser.input.remaining ∧
      next.input.remaining = parser.input.remaining.drop (size T) := by
  rw [integer] at ran
  obtain ⟨_, checked, checking, asked⟩ := bind_eq_ok.mp ran
  obtain ⟨failed, same, asking, rest⟩ := bind_eq_ok.mp asked
  cases asking
  by_cases short : size T > parser.input.size
  · rw [checkSize_of_gt short] at checking
    cases checking
    cases rest
    exact absurd fine Bool.noConfusion
  · rw [checkSize_of_le (Nat.not_lt.mp short)] at checking
    cases checking
    cases wrong : parser.error with
    | true =>
        rw [wrong, if_pos rfl] at rest
        cases rest
        exact absurd (wrong.symm.trans fine) Bool.noConfusion
    | false =>
        rw [wrong, if_neg Bool.false_ne_true] at rest
        obtain ⟨number, after, looped, ⟨⟩⟩ := bind_eq_ok.mp rest
        obtain ⟨-, enough, numberIs, left⟩ := integerLoop_ok looped
        refine ⟨rfl, enough, ?_, left⟩
        rw [numberIs, decode]

end Parser

end Minnow.Wire
