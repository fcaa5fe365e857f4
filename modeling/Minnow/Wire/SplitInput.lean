import Minnow.Wire.HollowBuffers

/-!
# Buffers against their concatenation

The calls of a parser, in any order and on any buffers, beside the same calls on one buffer
that holds all bytes.  Dumping what remains takes the buffers away but not their size, so the
calls after it are modelled too.
-/

namespace Minnow.Wire

open UnsignedIntegral

inductive Call : Type 1 where
  | integer {T : Type} [UnsignedIntegral T] (out : T)
  | string (out : List UInt8)
  | removePrefix (n : Nat)
  | allRemaining

/-- What a call hands out. -/
inductive Value where
  | number (number : Nat)
  | bytes (bytes : List UInt8)
  deriving DecidableEq, Repr

/-- The buffers under a parser.  Once they are dumped, the first is gone, the `behind` others
are moved from, and the size is what it was. -/
inductive Source where
  | whole (list : BufferList)
  | dumped (size behind : Nat)

structure Reader where
  input : Source
  error : Bool

namespace Reader

def new (buffers : List Buffer) : Reader := ⟨.whole (BufferList.ofBuffers buffers), false⟩

/-- A step of the parser. -/
def readWhole {Result : Type} (list : BufferList) (error : Bool) (method : ParseM Result)
    (value : Result → Value) : Except Fault (Reader × List Value) := do
  let (result, parser) ← method ⟨list, error⟩
  return (⟨.whole parser.input, parser.error⟩, [value result])

/-- A read after the dump: the size passes the check, and then there is no front, or one that
is moved from. -/
def readDumped (size behind : Nat) (error : Bool) (count : Nat) (none out : Value) :
    Except Fault (Reader × List Value) :=
  if error = true ∨ size < count then .ok (⟨.dumped size behind, true⟩, [out])
  else if count = 0 then .ok (⟨.dumped size behind, error⟩, [none])
  else if behind = 0 then .error (.thrown "peek on empty BufferList")
  else .error .nullDereferenced

def call : Reader → Call → Except Fault (Reader × List Value)
  | ⟨.whole list, error⟩, @Call.integer T _ out =>
      readWhole list error (Parser.integer out) (fun value : T => .number (toNat value))
  | ⟨.whole list, error⟩, .string out => readWhole list error (Parser.string out) .bytes
  | ⟨.whole list, error⟩, .removePrefix n => .ok (⟨.whole (list.removePrefix n), error⟩, [])
  | ⟨.whole list, error⟩, .allRemaining =>
      if list.empty then .ok (⟨.whole list, error⟩, [.bytes list.dumpAll.flatten])
      else .ok (⟨.dumped list.size (list.buffer.length - 1), error⟩, [.bytes list.dumpAll.flatten])
  | ⟨.dumped size behind, error⟩, @Call.integer T _ out =>
      readDumped size behind error (UnsignedIntegral.size T) (.number 0) (.number (toNat out))
  | ⟨.dumped size behind, error⟩, .string out =>
      readDumped size behind error out.length (.bytes []) (.bytes out)
  | ⟨.dumped size behind, error⟩, .removePrefix n =>
      if n = 0 ∨ behind = 0 then .ok (⟨.dumped size behind, error⟩, [])
      else .error .nullDereferenced
  | ⟨.dumped size behind, error⟩, .allRemaining =>
      if size = 0 then .ok (⟨.dumped size behind, error⟩, [.bytes []])
      else if behind = 0 then .error .endDereferenced
      else .error .nullDereferenced

/-- The values handed out, and the reader at the end or what went wrong. -/
def run : Reader → List Call → List Value × Except Fault Reader
  | reader, [] => ([], .ok reader)
  | reader, called :: calls =>
      match reader.call called with
      | .error fault => ([], .error fault)
      | .ok (next, values) =>
          let later := run next calls
          (values ++ later.1, later.2)

/-- The bytes not yet handed out. -/
def remaining : Reader → List UInt8
  | ⟨.whole list, _⟩ => list.remaining
  | ⟨.dumped _ _, _⟩ => []

end Reader

/-- The run came to its end, or to an exception. -/
def Defined : Except Fault Reader → Prop
  | .ok _ => True
  | .error (.thrown _) => True
  | .error _ => False

/-- The first run has no undefined behaviour and no endless loop, and cannot be told from the
second by its values, its error flag, what remains or an exception. -/
structure Agree (split single : List Value × Except Fault Reader) : Prop where
  values : split.1 = single.1
  final : split.2.map (fun reader => (reader.error, reader.remaining)) =
    single.2.map (fun reader => (reader.error, reader.remaining))
  defined : Defined split.2

/-- The calls do not depend on how the bytes are split. -/
def SplitFree (buffers : List Buffer) (calls : List Call) : Prop :=
  Agree ((Reader.new buffers).run calls) ((Reader.new [buffers.flatten]).run calls)

/-! ## When they do not -/

/-- A read that does not fail has no empty buffer among those that hold its bytes. -/
def ReadsCarefully (count : Nat) (later : Bool → List Buffer → Prop) (failed : Bool)
    (unread : List Buffer) : Prop :=
  if failed = true ∨ unread.flatten.length < count then later true unread
  else Solid count unread ∧ later failed (dropBytes count unread)

/-- A read after the dump fails, asks for nothing, or throws. -/
def ReadsSpent (count size behind : Nat) (later : Bool → Prop) (failed : Bool) : Prop :=
  if failed = true ∨ size < count then later true
  else if count = 0 then later failed
  else behind = 0

/-- The calls after the dump of `size` bytes, with `behind` buffers behind the first. -/
def Spent (size behind : Nat) : List Call → Bool → Prop
  | [], _ => True
  | @Call.integer T _ _ :: calls, failed =>
      ReadsSpent (UnsignedIntegral.size T) size behind (Spent size behind calls) failed
  | .string out :: calls, failed =>
      ReadsSpent out.length size behind (Spent size behind calls) failed
  | .removePrefix n :: calls, failed => (n = 0 ∨ behind = 0) ∧ Spent size behind calls failed
  | .allRemaining :: _, _ => False

/-- The calls on buffers of which `unread` are left. -/
def Careful : List Call → Bool → List Buffer → Prop
  | [], _, _ => True
  | @Call.integer T _ _ :: calls, failed, unread =>
      ReadsCarefully (UnsignedIntegral.size T) (Careful calls) failed unread
  | .string out :: calls, failed, unread =>
      ReadsCarefully out.length (Careful calls) failed unread
  | .removePrefix n :: calls, failed, unread => Careful calls failed (dropBytes n unread)
  | .allRemaining :: calls, failed, unread =>
      if unread.flatten = [] then Careful calls failed unread
      else Spent unread.flatten.length (unread.length - 1) calls failed

/-! ## One call -/

section Cons

variable {first second firstNext secondNext : Reader} {called : Call} {calls : List Call}
  {values : List Value} {fault : Fault}

theorem agree_of_ok (firstRan : first.call called = .ok (firstNext, values))
    (secondRan : second.call called = .ok (secondNext, values)) :
    Agree (first.run (called :: calls)) (second.run (called :: calls)) ↔
      Agree (firstNext.run calls) (secondNext.run calls) := by
  rw [Reader.run, Reader.run, firstRan, secondRan]
  constructor
  · rintro ⟨same, final, defined⟩
    exact ⟨List.append_cancel_left same, final, defined⟩
  · rintro ⟨same, final, defined⟩
    exact ⟨congrArg (values ++ ·) same, final, defined⟩

theorem not_agree_of_error (failed : first.call called = .error fault)
    (undefined : ¬ Defined (.error fault)) :
    ¬ Agree (first.run (called :: calls)) (second.run (called :: calls)) := by
  intro agree
  have defined := agree.defined
  rw [Reader.run, failed] at defined
  exact undefined defined

theorem agree_of_thrown {message : String} (firstThrew : first.call called = .error (.thrown message))
    (secondThrew : second.call called = .error (.thrown message)) :
    Agree (first.run (called :: calls)) (second.run (called :: calls)) := by
  rw [Reader.run, Reader.run, firstThrew, secondThrew]
  exact ⟨rfl, rfl, True.intro⟩

end Cons

/-! ## After the dump -/

theorem agree_readDumped {size behind count : Nat} {failed : Bool} {none out : Value}
    {called : Call} {calls : List Call}
    (reads : ∀ behind, (⟨.dumped size behind, failed⟩ : Reader).call called =
      Reader.readDumped size behind failed count none out)
    {Later : Bool → Prop} (later : ∀ failed,
      Agree ((⟨.dumped size behind, failed⟩ : Reader).run calls)
        ((⟨.dumped size 0, failed⟩ : Reader).run calls) ↔ Later failed) :
    Agree ((⟨.dumped size behind, failed⟩ : Reader).run (called :: calls))
      ((⟨.dumped size 0, failed⟩ : Reader).run (called :: calls)) ↔
        ReadsSpent count size behind Later failed := by
  have here := reads behind
  have single := reads 0
  rw [Reader.readDumped] at here single
  rw [ReadsSpent]
  by_cases short : failed = true ∨ size < count
  · rw [if_pos short] at here single ⊢
    exact (agree_of_ok here single).trans (later true)
  · rw [if_neg short] at here single ⊢
    by_cases nothing : count = 0
    · rw [if_pos nothing] at here single ⊢
      exact (agree_of_ok here single).trans (later failed)
    · rw [if_neg nothing] at here single ⊢
      rw [if_pos rfl] at single
      by_cases alone : behind = 0
      · rw [if_pos alone] at here
        exact iff_of_true (agree_of_thrown here single) alone
      · rw [if_neg alone] at here
        exact iff_of_false (not_agree_of_error here id) alone

theorem agree_dumped_iff {size behind : Nat} (some : size ≠ 0) (calls : List Call)
    (failed : Bool) :
    Agree ((⟨.dumped size behind, failed⟩ : Reader).run calls)
      ((⟨.dumped size 0, failed⟩ : Reader).run calls) ↔ Spent size behind calls failed := by
  induction calls generalizing failed with
  | nil => exact iff_of_true ⟨rfl, rfl, True.intro⟩ True.intro
  | cons called calls ih =>
      cases called with
      | integer out => exact agree_readDumped (fun _ => rfl) ih
      | string out => exact agree_readDumped (fun _ => rfl) ih
      | removePrefix n =>
          have single : (⟨.dumped size 0, failed⟩ : Reader).call (.removePrefix n) =
              .ok (⟨.dumped size 0, failed⟩, []) := if_pos (Or.inr rfl)
          by_cases kept : n = 0 ∨ behind = 0
          · have here : (⟨.dumped size behind, failed⟩ : Reader).call (.removePrefix n) =
                .ok (⟨.dumped size behind, failed⟩, []) := if_pos kept
            exact (agree_of_ok here single).trans ((ih failed).trans (and_iff_right kept).symm)
          · have here : (⟨.dumped size behind, failed⟩ : Reader).call (.removePrefix n) =
                .error .nullDereferenced := if_neg kept
            exact iff_of_false (not_agree_of_error here id) (fun spent => kept spent.1)
      | allRemaining =>
          have here : (⟨.dumped size behind, failed⟩ : Reader).call .allRemaining =
              if behind = 0 then .error .endDereferenced else .error .nullDereferenced :=
            if_neg some
          by_cases alone : behind = 0
          · rw [if_pos alone] at here
            exact iff_of_false (not_agree_of_error here id) id
          · rw [if_neg alone] at here
            exact iff_of_false (not_agree_of_error here id) id

/-! ## Before the dump -/

/-- The same bytes are left in one buffer. -/
structure Twin (list other : BufferList) : Prop where
  flat : other.unread.flatten = list.unread.flatten
  single : other.unread.length ≤ 1

theorem Twin.remaining {list other : BufferList} (twin : Twin list other) :
    other.remaining = list.remaining := by
  rw [← BufferList.unread_flatten, ← BufferList.unread_flatten, twin.flat]

/-- One buffer that is long enough can be read. -/
theorem solid_of_single {count : Nat} {buffers : List Buffer} (single : buffers.length ≤ 1)
    (enough : count ≤ buffers.flatten.length) : Solid count buffers := by
  cases buffers with
  | nil => exact True.intro
  | cons front rest =>
      have none : rest = [] := List.length_eq_zero_iff.mp (Nat.le_zero.mp (Nat.le_of_succ_le_succ single))
      rw [none, List.flatten_singleton] at enough
      exact solid_of_le enough rest

theorem length_dropBytes_le (count : Nat) (buffers : List Buffer) :
    (dropBytes count buffers).length ≤ buffers.length := by
  induction buffers generalizing count with
  | nil => simp
  | cons front rest ih =>
      rcases Nat.eq_zero_or_pos count with none | some
      · simp [none]
      · rw [dropBytes_cons some]
        split
        · exact Nat.le_succ_of_le (ih _)
        · exact Nat.le_refl _

theorem Twin.dropBytes {list other listNext otherNext : BufferList} (twin : Twin list other)
    {count : Nat} (first : listNext.unread = Wire.dropBytes count list.unread)
    (second : otherNext.unread = Wire.dropBytes count other.unread) : Twin listNext otherNext where
  flat := by
    rw [first, second, dropBytes_flatten, dropBytes_flatten, twin.flat]
  single := by
    rw [second]
    exact Nat.le_trans (length_dropBytes_le count _) twin.single

section Whole

variable {Result : Type} {method : ParseM Result} {seen : Result → Value} {called : Call}
  {calls : List Call} {list other : BufferList} {failed : Bool}

theorem readWhole_of_ok {result : Result} {next : Parser}
    (ran : method ⟨list, failed⟩ = .ok (result, next)) :
    Reader.readWhole list failed method seen =
      .ok (⟨.whole next.input, next.error⟩, [seen result]) :=
  Fault.bind_eq_ok.mpr ⟨_, ran, rfl⟩

theorem readWhole_of_error {fault : Fault} (ran : method ⟨list, failed⟩ = .error fault) :
    Reader.readWhole list failed method seen = .error fault := by
  rw [Reader.readWhole, ran]
  rfl

theorem agree_readWhole {count : Nat} {value : List UInt8 → Result} {out : Result} {stuck : Fault}
    (reads : Parser.Reads method count value out stuck) (undefined : ¬ Defined (.error stuck))
    (calling : ∀ list, (⟨.whole list, failed⟩ : Reader).call called =
      Reader.readWhole list failed method seen)
    {Later : Bool → List Buffer → Prop} (later : ∀ {list other} failed, Twin list other →
      (Agree ((⟨.whole list, failed⟩ : Reader).run calls)
        ((⟨.whole other, failed⟩ : Reader).run calls) ↔ Later failed list.unread))
    (twin : Twin list other) :
    Agree ((⟨.whole list, failed⟩ : Reader).run (called :: calls))
      ((⟨.whole other, failed⟩ : Reader).run (called :: calls)) ↔
        ReadsCarefully count Later failed list.unread := by
  have same := twin.remaining
  rw [ReadsCarefully, BufferList.unread_flatten]
  by_cases short : failed = true ∨ list.remaining.length < count
  · rw [if_pos short]
    have first := reads.failed ⟨list, failed⟩ short
    have second := reads.failed ⟨other, failed⟩ (by rw [same]; exact short)
    exact (agree_of_ok ((calling list).trans (readWhole_of_ok first))
      ((calling other).trans (readWhole_of_ok second))).trans (later true twin)
  · rw [if_neg short]
    obtain ⟨unfailed, enough⟩ := not_or.mp short
    obtain rfl := Bool.eq_false_of_not_eq_true unfailed
    have long := Nat.not_lt.mp enough
    by_cases solid : Solid count list.unread
    · have enoughSingle : count ≤ other.remaining.length := by rw [same]; exact long
      have solidSingle : Solid count other.unread :=
        solid_of_single twin.single (by rw [BufferList.unread_flatten]; exact enoughSingle)
      obtain ⟨next, first, nextFine, nextUnread⟩ := reads.solid ⟨list, false⟩ rfl long solid
      obtain ⟨otherNext, second, otherFine, otherUnread⟩ :=
        reads.solid ⟨other, false⟩ rfl enoughSingle solidSingle
      rw [same] at second
      have firstCall := (calling list).trans (readWhole_of_ok first)
      have secondCall := (calling other).trans (readWhole_of_ok second)
      rw [nextFine] at firstCall
      rw [otherFine] at secondCall
      have following := later false (twin.dropBytes nextUnread otherUnread)
      rw [nextUnread] at following
      rw [and_iff_right solid]
      exact (agree_of_ok firstCall secondCall).trans following
    · have first := reads.hollow ⟨list, false⟩ rfl long solid
      exact iff_of_false
        (not_agree_of_error ((calling list).trans (readWhole_of_error first)) undefined)
        (fun careful => solid careful.1)

end Whole

theorem call_allRemaining (list : BufferList) (failed : Bool) :
    (⟨.whole list, failed⟩ : Reader).call .allRemaining =
      if list.remaining = [] then .ok (⟨.whole list, failed⟩, [.bytes list.remaining])
      else .ok (⟨.dumped list.remaining.length (list.unread.length - 1), failed⟩,
        [.bytes list.remaining]) := by
  have length : list.unread.length = list.buffer.length := by
    rw [BufferList.unread]
    cases list.buffer <;> rfl
  have nothing : list.empty = true ↔ list.remaining = [] := by
    rw [BufferList.empty, beq_iff_eq, ← BufferList.remaining_length, List.length_eq_zero_iff]
  rw [Reader.call, BufferList.dumpAll_flatten, length, BufferList.remaining_length]
  exact if_congr nothing rfl rfl

/-- The runs of two readers of the same bytes, one of which has them in one buffer. -/
theorem agree_whole_iff (calls : List Call) {list other : BufferList} (failed : Bool)
    (twin : Twin list other) :
    Agree ((⟨.whole list, failed⟩ : Reader).run calls)
      ((⟨.whole other, failed⟩ : Reader).run calls) ↔ Careful calls failed list.unread := by
  induction calls generalizing list other failed with
  | nil =>
      refine iff_of_true ⟨rfl, ?_, True.intro⟩ True.intro
      change Except.ok (failed, list.remaining) = Except.ok (failed, other.remaining)
      rw [twin.remaining]
  | cons called calls ih =>
      cases called with
      | integer out =>
          have calling : ∀ list, (⟨.whole list, failed⟩ : Reader).call (.integer out) =
              Reader.readWhole list failed (Parser.integer out) (fun value => .number (toNat value)) :=
            fun _ => rfl
          exact agree_readWhole (Parser.reads_integer out) id calling ih twin
      | string out => exact agree_readWhole (Parser.reads_string out) id (fun _ => rfl) ih twin
      | removePrefix n =>
          have first := list.unread_removePrefix n
          have behind := ih failed (twin.dropBytes first (other.unread_removePrefix n))
          rw [first] at behind
          exact (agree_of_ok rfl rfl).trans behind
      | allRemaining =>
          have here := call_allRemaining list failed
          have single := call_allRemaining other failed
          have alone : other.unread.length - 1 = 0 := Nat.sub_eq_zero_of_le twin.single
          rw [twin.remaining, alone] at single
          rw [Careful, BufferList.unread_flatten]
          by_cases nothing : list.remaining = []
          · rw [if_pos nothing] at here single ⊢
            exact (agree_of_ok here single).trans (ih failed twin)
          · rw [if_neg nothing] at here single ⊢
            have some : list.remaining.length ≠ 0 := fun none =>
              nothing (List.length_eq_zero_iff.mp none)
            exact (agree_of_ok here single).trans (agree_dumped_iff some calls failed)

/-- For all buffers and all calls, the calls do not depend on how the bytes are split just if
they are careful with empty buffers and with what is left by a dump. -/
theorem splitFree_iff_careful (buffers : List Buffer) (calls : List Call) :
    SplitFree buffers calls ↔ Careful calls false buffers := by
  have twin : Twin (BufferList.ofBuffers buffers) (BufferList.ofBuffers [buffers.flatten]) := by
    constructor
    · rw [BufferList.unread_ofBuffers, BufferList.unread_ofBuffers, List.flatten_singleton]
    · rw [BufferList.unread_ofBuffers]
      exact Nat.le_refl 1
  have whole := agree_whole_iff calls false twin
  rw [BufferList.unread_ofBuffers] at whole
  exact whole

/-- Two bytes around an empty buffer, as they are written. -/
def sandwiched : List Buffer :=
  (((Serializer.new.integer (1 : UInt8)).pushBuffer []).integer (2 : UInt8)).finish

/-- The second byte is looked for in the empty buffer. -/
theorem splitFree_fails_sandwiched :
    sandwiched = [[1], [], [2]] ∧
      ((Reader.new sandwiched).run [.integer (0 : UInt8), .integer (0 : UInt8)]).2 =
        .error .endDereferenced ∧
      ¬ SplitFree sandwiched [.integer (0 : UInt8), .integer (0 : UInt8)] := by
  have failed : ((Reader.new sandwiched).run [.integer (0 : UInt8), .integer (0 : UInt8)]).2 =
      .error .endDereferenced := rfl
  refine ⟨rfl, failed, fun agree => ?_⟩
  have defined := agree.defined
  rw [failed] at defined
  exact defined

end Minnow.Wire
