import Mathlib.Algebra.Order.BigOperators.Group.List
import Minnow.Transport.SenderRuns

/-!
# The account of the segments created

The segments tile the sequence space from zero: the SYN, the bytes taken from the
outbound stream, and the FIN.  What is outstanding is a tail of them.
-/

namespace Minnow.Transport

open Foundation Foundation.Words Foundation.Runs Foundation.Tiling Minnow.Stream

open TCPSenderMessage (sequenceLength)

/-- The bytes the segments carry. -/
def carriedBytes (segments : List TCPSenderMessage) : List UInt8 :=
  segments.flatMap TCPSenderMessage.payload

theorem carriedBytes_snoc (segments : List TCPSenderMessage) (segment : TCPSenderMessage) :
    carriedBytes (segments ++ [segment]) = carriedBytes segments ++ segment.payload := by
  unfold carriedBytes
  rw [List.flatMap_append, List.flatMap_singleton]

/-! ## Tilings by segments -/

/-- Segments that tile the sequence space: each is numbered by its start, the first one
alone is the SYN, and only the last can be the FIN. -/
structure Tiled (isn : Wrap32) (created : List TCPSenderMessage) : Prop where
  numbered : ∀ start segment, (start, segment) ∈ placed sequenceLength 0 created →
    segment.seqno = Wrap32.wrap start isn
  positive : ∀ segment ∈ created, 0 < segment.sequenceLength
  synFirst : ∀ segment, created.head? = some segment → segment.SYN = true ∧ segment.payload = []
  synOnly : ∀ segment ∈ created.tail, segment.SYN = false
  finLast : ∀ segment ∈ created.dropLast, segment.FIN = false
  short : extent sequenceLength created + TCPConfig.maxPayloadSize < 2 ^ 64 →
    ∀ segment ∈ created, segment.payload.length ≤ TCPConfig.maxPayloadSize

namespace Tiled

variable {isn : Wrap32} {created : List TCPSenderMessage}

theorem nil (isn : Wrap32) : Tiled isn [] where
  numbered := fun _ _ inside => nomatch inside
  positive := fun _ inside => nomatch inside
  synFirst := fun _ first => nomatch first
  synOnly := fun _ inside => nomatch inside
  finLast := fun _ inside => nomatch inside
  short := fun _ _ inside => nomatch inside

/-- The SYN segment alone. -/
theorem syn {segment : TCPSenderMessage} (number : segment.seqno = isn)
    (flag : segment.SYN = true) (empty : segment.payload = []) : Tiled isn [segment] where
  numbered := by
    intro start other inside
    cases List.mem_singleton.mp inside
    rw [number, Wrap32.wrap_zero]
  positive := by
    intro other inside
    rw [List.mem_singleton.mp inside, sequenceLength, flag, Bool.toNat_true]
    omega
  synFirst := by
    intro other first
    cases first
    exact ⟨flag, empty⟩
  synOnly := fun _ inside => nomatch inside
  finLast := fun _ inside => nomatch inside
  short := by
    intro _ other inside
    rw [List.mem_singleton.mp inside, empty]
    exact Nat.zero_le _

/-- A data segment at the end. -/
theorem snoc (tiled : Tiled isn created) (nonempty : created ≠ [])
    (unfinished : ∀ segment ∈ created, segment.FIN = false) {segment : TCPSenderMessage}
    (number : segment.seqno = Wrap32.wrap (extent sequenceLength created) isn)
    (plain : segment.SYN = false) (positive : 0 < segment.sequenceLength)
    (short : extent sequenceLength created + TCPConfig.maxPayloadSize < 2 ^ 64 →
      segment.payload.length ≤ TCPConfig.maxPayloadSize) :
    Tiled isn (created ++ [segment]) where
  numbered := by
    intro start other inside
    rw [placed_snoc, Nat.zero_add] at inside
    rcases List.mem_append.mp inside with old | new
    · exact tiled.numbered start other old
    · cases List.mem_singleton.mp new
      exact number
  positive := by
    intro other inside
    rcases List.mem_append.mp inside with old | new
    · exact tiled.positive other old
    · rw [List.mem_singleton.mp new]
      exact positive
  synFirst := by
    intro other first
    rw [List.head?_append_of_ne_nil _ nonempty] at first
    exact tiled.synFirst other first
  synOnly := by
    intro other inside
    rw [List.tail_append_of_ne_nil nonempty] at inside
    rcases List.mem_append.mp inside with old | new
    · exact tiled.synOnly other old
    · rw [List.mem_singleton.mp new]
      exact plain
  finLast := by
    intro other inside
    rw [List.dropLast_concat] at inside
    exact unfinished other inside
  short := by
    intro small other inside
    rw [extent_append] at small
    rcases List.mem_append.mp inside with old | new
    · exact tiled.short (by omega) other old
    · rw [List.mem_singleton.mp new]
      exact short (by omega)

/-! ### Where a segment lies -/

theorem extent_of_plain {segments : List TCPSenderMessage}
    (plain : ∀ segment ∈ segments, segment.SYN = false ∧ segment.FIN = false) :
    extent sequenceLength segments = (carriedBytes segments).length := by
  induction segments with
  | nil => rfl
  | cons segment rest ih =>
      obtain ⟨syn, fin⟩ := plain segment List.mem_cons_self
      have later := ih (fun other inside => plain other (List.mem_cons_of_mem _ inside))
      have joined : carriedBytes (segment :: rest) =
          segment.payload ++ carriedBytes rest := List.flatMap_cons
      rw [extent_cons, later, sequenceLength, syn, fin, joined, List.length_append]
      simp

/-- A segment behind the first starts one past the bytes before it. -/
theorem start_of_later {before after : List TCPSenderMessage} {segment : TCPSenderMessage}
    (tiled : Tiled isn (before ++ segment :: after)) (later : before ≠ []) :
    extent sequenceLength before = (carriedBytes before).length + 1 ∧
      segment.SYN = false := by
  cases before with
  | nil => exact absurd rfl later
  | cons syn rest =>
      have tail : (syn :: rest ++ segment :: after).tail = rest ++ segment :: after := rfl
      have last : (syn :: rest ++ segment :: after).dropLast =
          syn :: rest ++ (segment :: after).dropLast :=
        List.dropLast_append_of_ne_nil (List.cons_ne_nil _ _)
      obtain ⟨flag, empty⟩ := tiled.synFirst syn rfl
      have synOnly := tiled.synOnly
      have finLast := tiled.finLast
      rw [tail] at synOnly
      rw [last] at finLast
      have plain : ∀ other ∈ rest, other.SYN = false ∧ other.FIN = false := fun other inside =>
        ⟨synOnly other (List.mem_append_left _ inside),
          finLast other (List.mem_append_left _ (List.mem_cons_of_mem _ inside))⟩
      have joined : carriedBytes (syn :: rest) =
          syn.payload ++ carriedBytes rest := List.flatMap_cons
      refine ⟨?_, synOnly segment (by simp)⟩
      rw [extent_cons, extent_of_plain plain, joined, sequenceLength, flag, empty,
        finLast syn (List.mem_append_left _ List.mem_cons_self), Bool.toNat_true, Bool.toNat_false,
        List.length_append, List.length_nil]
      omega

/-- The payload of a segment is the part of the bytes from its start on, the SYN not
counted; a FIN segment ends where the bytes end. -/
theorem located (tiled : Tiled isn created) {start : Nat} {segment : TCPSenderMessage}
    (inside : (start, segment) ∈ placed sequenceLength 0 created) :
    (if segment.SYN then start = 0 else 0 < start) ∧
      segment.payload =
        ((carriedBytes created).drop (start - 1)).take segment.payload.length ∧
      start - 1 + segment.payload.length ≤ (carriedBytes created).length ∧
      (segment.FIN = true →
        start - 1 + segment.payload.length = (carriedBytes created).length) := by
  obtain ⟨before, after, split, startEq⟩ := mem_placed_iff.mp inside
  rw [split] at tiled ⊢
  have joined : carriedBytes (before ++ segment :: after) =
      carriedBytes before ++ (segment.payload ++ carriedBytes after) := by
    unfold carriedBytes
    rw [List.flatMap_append, List.flatMap_cons]
  have front : (if segment.SYN then start = 0 else 0 < start) ∧
      start - 1 = (carriedBytes before).length := by
    cases before with
    | nil =>
        rw [(tiled.synFirst segment rfl).1]
        exact ⟨startEq, by rw [startEq]; rfl⟩
    | cons syn rest =>
        obtain ⟨extentEq, plain⟩ := start_of_later tiled (List.cons_ne_nil syn rest)
        rw [plain, startEq, extentEq]
        exact ⟨by simp, by omega⟩
  rw [joined, List.length_append, List.length_append, front.2]
  refine ⟨front.1, ?_, by omega, ?_⟩
  · rw [List.drop_left, List.take_left]
  · intro flag
    have none_after : after = [] := by
      by_contra more
      have last : (before ++ segment :: after).dropLast = before ++ segment :: after.dropLast := by
        rw [List.dropLast_append_of_ne_nil (List.cons_ne_nil _ _), List.dropLast_cons_of_ne_nil more]
      have notLast := tiled.finLast segment (by rw [last]; simp)
      exact nomatch flag.symm.trans notLast
    rw [none_after]
    rfl

/-- The sequence numbers are those of the SYNs, the bytes and the FINs. -/
theorem extent_eq_sums (segments : List TCPSenderMessage) :
    extent sequenceLength segments = (segments.map fun segment => segment.SYN.toNat).sum +
      (carriedBytes segments).length + (segments.map fun segment => segment.FIN.toNat).sum := by
  rw [carriedBytes, List.length_flatMap, ← List.sum_map_add, ← List.sum_map_add]
  rfl

theorem carried_le_extent (segments : List TCPSenderMessage) :
    (carriedBytes segments).length ≤ extent sequenceLength segments := by
  rw [extent_eq_sums]
  omega

theorem sequenceLength_le (tiled : Tiled isn created)
    (small : extent sequenceLength created + TCPConfig.maxPayloadSize < 2 ^ 64)
    {segment : TCPSenderMessage} (inside : segment ∈ created) :
    segment.sequenceLength ≤ TCPConfig.maxPayloadSize + 2 := by
  have short := tiled.short small segment inside
  have syn := Bool.toNat_le segment.SYN
  have fin := Bool.toNat_le segment.FIN
  rw [sequenceLength]
  omega

theorem carried_lt_extent (tiled : Tiled isn created) (nonempty : created ≠ []) :
    (carriedBytes created).length < extent sequenceLength created := by
  obtain ⟨syn, rest, rfl⟩ := List.exists_cons_of_ne_nil nonempty
  rw [extent_eq_sums, List.map_cons, List.sum_cons, (tiled.synFirst syn rfl).1, Bool.toNat_true]
  omega

/-- With a FIN there is one number more. -/
theorem carried_lt_extent_of_fin (tiled : Tiled isn created) {segment : TCPSenderMessage}
    (inside : segment ∈ created) (flag : segment.FIN = true) :
    (carriedBytes created).length + 1 < extent sequenceLength created := by
  obtain ⟨syn, rest, rfl⟩ := List.exists_cons_of_ne_nil (List.ne_nil_of_mem inside)
  have counted := List.le_sum_of_mem
    (List.mem_map_of_mem (f := fun segment => segment.FIN.toNat) inside)
  rw [flag, Bool.toNat_true] at counted
  have opened := (tiled.synFirst syn rfl).1
  rw [extent_eq_sums, List.map_cons, List.sum_cons, opened, Bool.toNat_true]
  omega

/-- The first segments tile the sequence space as far as they go. -/
theorem of_begins (tiled : Tiled isn created) {known : List TCPSenderMessage}
    (begins : known <+: created)
    (small : extent sequenceLength created + TCPConfig.maxPayloadSize < 2 ^ 64) :
    Tiled isn known := by
  have short := tiled.short small
  obtain ⟨more, rfl⟩ := begins
  refine ⟨?_, ?_, ?_, ?_, ?_, fun _ segment inside => short segment (List.mem_append_left _ inside)⟩
  · intro start segment inside
    apply tiled.numbered
    rw [placed_append]
    exact List.mem_append_left _ inside
  · exact fun segment inside => tiled.positive segment (List.mem_append_left _ inside)
  · intro segment first
    apply tiled.synFirst
    rw [List.head?_append, first]
    rfl
  · intro segment inside
    cases known with
    | nil => cases inside
    | cons head rest => exact tiled.synOnly segment (List.mem_append_left _ inside)
  · intro segment inside
    cases more with
    | nil =>
        rw [List.append_nil] at tiled
        exact tiled.finLast segment inside
    | cons head rest =>
        apply tiled.finLast
        rw [List.dropLast_append_of_ne_nil (List.cons_ne_nil _ _)]
        exact List.mem_append_left _ (List.dropLast_subset known inside)

end Tiled

/-! ## Sender, stream and segments -/

/-- What sender, stream and the segments created have in common at any time. -/
structure Account (isn : Wrap32) (written : List UInt8) (created : List TCPSenderMessage)
    (sender : TCPSender) (outbound : ByteStream) : Prop where
  sameIsn : sender.isn = isn
  counted : outbound.Counted
  pushed : outbound.bytesPushed = written.length
  buffered : outbound.buffer = written.drop outbound.bytesPopped
  tiled : Tiled isn created
  payloads : carriedBytes created = written.take outbound.bytesPopped
  size : extent sequenceLength created =
    sender.sycPushed.toNat + outbound.bytesPopped + sender.finPushed.toNat
  opened : sender.sycPushed = true ↔ created ≠ []
  finPushed : sender.finPushed = true ↔ ∃ segment ∈ created, segment.FIN = true
  left : sender.windowLeft ≤ extent sequenceLength created
  outstanding : ∃ acked waiting, created = acked ++ waiting ∧
    sender.outstandingMessages.entries =
      placed sequenceLength (extent sequenceLength acked) waiting ∧
    (waiting = [] → sender.windowLeft = extent sequenceLength created)

namespace Account

variable {isn : Wrap32} {written : List UInt8} {created : List TCPSenderMessage}
  {sender : TCPSender} {outbound : ByteStream}

theorem initial (capacity initialRTO : UInt64) (isn : Wrap32) :
    Account isn [] [] (TCPSender.new initialRTO isn) (ByteStream.new capacity) where
  sameIsn := rfl
  counted := ByteStream.new_counted capacity
  pushed := rfl
  buffered := rfl
  tiled := Tiled.nil isn
  payloads := rfl
  size := rfl
  opened := ⟨(fun opened => nomatch opened), fun nonempty => absurd rfl nonempty⟩
  finPushed := ⟨(fun finished => nomatch finished), (fun ⟨_, inside, _⟩ => nomatch inside)⟩
  left := Nat.le_refl _
  outstanding := ⟨[], [], rfl, rfl, fun _ => rfl⟩

/-- Only these fields of the sender enter the account. -/
theorem congr (account : Account isn written created sender outbound) {other : TCPSender}
    (outstandingSame : other.outstandingMessages = sender.outstandingMessages)
    (sycSame : other.sycPushed = sender.sycPushed) (finSame : other.finPushed = sender.finPushed)
    (isnSame : other.isn = sender.isn) (leftSame : other.windowLeft = sender.windowLeft) :
    Account isn written created other outbound where
  sameIsn := isnSame.trans account.sameIsn
  counted := account.counted
  pushed := account.pushed
  buffered := account.buffered
  tiled := account.tiled
  payloads := account.payloads
  size := by rw [sycSame, finSame]; exact account.size
  opened := by rw [sycSame]; exact account.opened
  finPushed := by rw [finSame]; exact account.finPushed
  left := by rw [leftSame]; exact account.left
  outstanding := by rw [outstandingSame, leftSame]; exact account.outstanding

theorem popped_le (account : Account isn written created sender outbound) :
    outbound.bytesPopped ≤ written.length := by
  have counted := account.counted
  unfold ByteStream.Counted at counted
  rw [account.pushed] at counted
  omega

/-- A stream that is closed and drained has been read to the end. -/
theorem popped_eq (account : Account isn written created sender outbound)
    (finished : outbound.isFinished = true) : outbound.bytesPopped = written.length := by
  have empty := List.isEmpty_iff.mp (Bool.and_eq_true_iff.mp finished).2
  have counted := account.counted
  unfold ByteStream.Counted at counted
  rw [account.pushed, empty] at counted
  exact counted

theorem extent_le (account : Account isn written created sender outbound) :
    extent sequenceLength created ≤ written.length + 2 := by
  have syc := Bool.toNat_le sender.sycPushed
  have fin := Bool.toNat_le sender.finPushed
  have popped := account.popped_le
  rw [account.size]
  omega

/-- The next number is where the segments created end. -/
theorem next (account : Account isn written created sender outbound)
    (small : written.length + 2 < 2 ^ 64) :
    sender.getAbsoluteSeqno = extent sequenceLength created := by
  have bound := account.extent_le
  obtain ⟨acked, waiting, split, entries, atEnd⟩ := account.outstanding
  cases waiting using List.reverseRecOn with
  | nil =>
      rw [TCPSender.getAbsoluteSeqno_of_nil entries]
      exact atEnd rfl
  | append_singleton waiting last =>
      have final : sender.outstandingMessages.entries.getLast? =
          some (extent sequenceLength acked + extent sequenceLength waiting, last) := by
        rw [entries]
        exact getLast?_placed_snoc _ _ _
      have total : extent sequenceLength created = extent sequenceLength acked +
          extent sequenceLength waiting + last.sequenceLength := by
        rw [split, extent_append, extent_append, extent_cons, extent_nil]
        omega
      rw [TCPSender.getAbsoluteSeqno_of_last final, total]
      exact add64_of_lt (total ▸ Nat.lt_of_le_of_lt bound small)

/-- Every outstanding segment stands under its start. -/
theorem mem_placed (account : Account isn written created sender outbound)
    {entry : Nat × TCPSenderMessage} (inside : entry ∈ sender.outstandingMessages.entries) :
    entry ∈ placed sequenceLength 0 created := by
  obtain ⟨acked, waiting, split, entries, _⟩ := account.outstanding
  rw [split, placed_append]
  apply List.mem_append_right
  rw [Nat.zero_add, ← entries]
  exact inside

/-! ## Pushing -/

/-- The map takes a new segment at its end. -/
theorem insert_eq (account : Account isn written created sender outbound)
    (small : written.length + 2 < 2 ^ 64) (segment : TCPSenderMessage) :
    (sender.outstandingMessages.insert sender.getAbsoluteSeqno segment).entries =
      sender.outstandingMessages.entries ++ [(extent sequenceLength created, segment)] := by
  rw [account.next small, OrderedMap.insert_entries_of_above]
  rintro ⟨start, other⟩ inside
  have placedIn := account.mem_placed inside
  have last := end_le_of_mem_placed placedIn
  have positive := account.tiled.positive other (mem_of_mem_placed placedIn)
  change start < _
  omega

theorem insert_entries (account : Account isn written created sender outbound)
    (small : written.length + 2 < 2 ^ 64) (segment : TCPSenderMessage) :
    ∃ acked waiting, created ++ [segment] = acked ++ waiting ∧
      (sender.outstandingMessages.insert sender.getAbsoluteSeqno segment).entries =
        placed sequenceLength (extent sequenceLength acked) waiting ∧ waiting ≠ [] := by
  obtain ⟨acked, waiting, split, entries, _⟩ := account.outstanding
  have total : extent sequenceLength created =
      extent sequenceLength acked + extent sequenceLength waiting := by
    rw [split, extent_append]
  refine ⟨acked, waiting ++ [segment], by rw [split, List.append_assoc], ?_, by simp⟩
  rw [account.insert_eq small, entries, placed_snoc, total]

/-- While the flag for the end is not set no segment carries it. -/
theorem fin_false (account : Account isn written created sender outbound)
    (unfinished : sender.finPushed = false) : ∀ segment ∈ created, segment.FIN = false := by
  intro segment inside
  cases flag : segment.FIN with
  | false => rfl
  | true => exact nomatch unfinished.symm.trans (account.finPushed.mpr ⟨segment, inside, flag⟩)

/-- The account with one segment more, which carries the bytes that left the stream. -/
theorem snoc (account : Account isn written created sender outbound)
    (small : written.length + 2 < 2 ^ 64) (unfinished : sender.finPushed = false)
    {segment : TCPSenderMessage} {after : TCPSender} {rest : ByteStream} {len : Nat}
    (taken : rest = outbound.pop len) (tiled : Tiled isn (created ++ [segment]))
    (carries : segment.payload = outbound.buffer.take len)
    (map : after.outstandingMessages =
      sender.outstandingMessages.insert sender.getAbsoluteSeqno segment)
    (isnSame : after.isn = sender.isn) (leftSame : after.windowLeft = sender.windowLeft)
    (syc : after.sycPushed = true) (syn : segment.SYN = !sender.sycPushed)
    (fin : after.finPushed = segment.FIN) :
    Account isn written (created ++ [segment]) after rest := by
  rw [taken]
  have popped := account.counted.pop_bytesPopped len
  have grown : extent sequenceLength (created ++ [segment]) =
      extent sequenceLength created + segment.sequenceLength := by
    rw [extent_append, extent_cons, extent_nil, Nat.add_zero]
  have cut : outbound.buffer.take len = outbound.buffer.take (min len outbound.buffer.length) := by
    rw [List.take_eq_take_iff]
    omega
  have left : outbound.buffer.drop len = outbound.buffer.drop (min len outbound.buffer.length) := by
    rw [List.drop_eq_drop_iff]
    omega
  obtain ⟨acked, waiting, split, entries, nonempty⟩ := account.insert_entries small segment
  refine ⟨isnSame.trans account.sameIsn, account.counted.pop len, account.pushed, ?_, tiled, ?_, ?_,
    ?_, ?_, ?_, acked, waiting, split, map ▸ entries, fun empty => absurd empty nonempty⟩
  · rw [ByteStream.pop_buffer, left, popped, account.buffered, List.drop_drop]
  · rw [carriedBytes_snoc, account.payloads, carries, popped, cut, account.buffered, List.take_add]
  · have length : segment.payload.length = min len outbound.buffer.length := by
      rw [carries, List.length_take]
    rw [grown, account.size, popped, syc, fin, unfinished, sequenceLength, syn, length]
    cases sender.sycPushed
    · simp
      omega
    · simp
      omega
  · exact iff_of_true syc (by simp)
  · rw [fin]
    constructor
    · exact fun flag => ⟨segment, by simp, flag⟩
    · rintro ⟨other, inside, flag⟩
      rcases List.mem_append.mp inside with old | new
      · exact nomatch (account.fin_false unfinished other old).symm.trans flag
      · rw [← List.mem_singleton.mp new]
        exact flag
  · rw [leftSame, grown]
    exact Nat.le_trans account.left (Nat.le_add_right _ _)

/-- The account after one data segment. -/
theorem emit (account : Account isn written created sender outbound)
    (small : written.length + 2 < 2 ^ 64) {right len : Nat} (opened : sender.sycPushed = true)
    (unfinished : sender.finPushed = false)
    (room : sender.getAbsoluteSeqno + TCPConfig.maxPayloadSize < 2 ^ 64 →
      sender.getAbsoluteSeqno + len ≤ right ∧
        (outbound.buffer.take len).length ≤ TCPConfig.maxPayloadSize)
    (something : outbound.buffer.take len ≠ [] ∨
      sender.isFinMsg right (outbound.buffer.take len) (outbound.pop len) = true) :
    Account isn written (created ++ [sender.dataSegment outbound right len])
      (sender.emit outbound right len) (outbound.pop len) := by
  have next := account.next small
  have positive : 0 < (sender.dataSegment outbound right len).sequenceLength := by
    change 0 < 0 + (outbound.buffer.take len).length + (sender.isFinMsg right _ _).toNat
    rcases something with nonempty | final
    · have taken := List.length_pos_iff.mpr nonempty
      omega
    · rw [final, Bool.toNat_true]
      omega
  have tiled : Tiled isn (created ++ [sender.dataSegment outbound right len]) := by
    refine account.tiled.snoc (account.opened.mp opened) (account.fin_false unfinished) ?_ rfl positive
      (fun fits => (room (next ▸ fits)).2)
    rw [← next, ← account.sameIsn]
    rfl
  refine account.snoc small unfinished rfl tiled rfl rfl rfl rfl opened ?_ ?_
  · rw [opened]
    rfl
  · change (sender.finPushed || _) = _
    rw [unfinished, Bool.false_or]
    rfl

/-- The account after the segments of one push, none of which ends past the window. -/
theorem emits {right : Nat} {segments : List TCPSenderMessage} {last : TCPSender}
    {rest : ByteStream} (emits : TCPSender.Emits right sender outbound segments last rest)
    (account : Account isn written created sender outbound)
    (small : written.length + 2 < 2 ^ 64) (opened : sender.sycPushed = true) :
    Account isn written (created ++ segments) last rest ∧
      (right < 2 ^ 64 → written.length + 2 + TCPConfig.maxPayloadSize < 2 ^ 64 →
        ∀ start segment, (start, segment) ∈
            placed sequenceLength (extent sequenceLength created) segments →
          start + segment.sequenceLength ≤ right) := by
  induction emits generalizing created with
  | nil => exact ⟨(List.append_nil created).symm ▸ account, fun _ _ _ _ inside => nomatch inside⟩
  | @cons sender last outbound rest segments len unfinished room something more ih =>
      have after := account.emit small opened unfinished room something
      obtain ⟨final, inside⟩ := ih after opened
      rw [List.append_assoc] at final
      refine ⟨final, ?_⟩
      intro fits wide start segment placedIn
      rcases List.mem_cons.mp placedIn with here | later
      · cases here
        have next := account.next small
        have bound := account.extent_le
        obtain ⟨below, _⟩ := room (by omega)
        have taken := List.length_take_le len outbound.buffer
        change _ + (0 + (outbound.buffer.take len).length +
          (sender.isFinMsg right (outbound.buffer.take len) (outbound.pop len)).toNat) ≤ right
        cases isFin : sender.isFinMsg right (outbound.buffer.take len) (outbound.pop len) with
        | false =>
            rw [Bool.toNat_false]
            omega
        | true =>
            have fresh := of_decide_eq_true (Bool.and_eq_true_iff.mp isFin).1
            rw [add64_of_lt (by omega)] at fresh
            rw [Bool.toNat_true]
            omega
      · apply inside fits wide start segment
        rw [extent_append, extent_cons, extent_nil, Nat.add_zero]
        exact later

/-- The account after the opening segment. -/
theorem pushSyn (account : Account isn written created sender outbound)
    (small : written.length + 2 < 2 ^ 64) :
    Account isn written (created ++ sender.opening outbound) (sender.pushSyn outbound) outbound := by
  unfold TCPSender.opening TCPSender.pushSyn
  split_ifs with unopened
  · have none_created : created = [] := by
      by_contra nonempty
      exact nomatch unopened.symm.trans (account.opened.mpr nonempty)
    have unfinished : sender.finPushed = false := by
      apply Bool.eq_false_iff.mpr
      intro finished
      obtain ⟨segment, inside, _⟩ := account.finPushed.mp finished
      rw [none_created] at inside
      exact nomatch inside
    have next := account.next small
    rw [none_created] at next
    have tiled : Tiled isn (created ++ [sender.segment [] true outbound.isFinished]) := by
      rw [none_created]
      refine Tiled.syn ?_ rfl rfl
      change Wrap32.wrap sender.getAbsoluteSeqno sender.isn = isn
      rw [next, account.sameIsn]
      exact Wrap32.wrap_zero isn
    exact account.snoc small unfinished outbound.pop_zero.symm tiled rfl rfl rfl rfl rfl
      (by rw [unopened]; rfl) rfl
  · rw [List.append_nil]
    exact account

/-! ## Receiving -/

/-- The account after the leading segments that an ackno covers have left. -/
theorem receive (account : Account isn written created sender outbound)
    (small : written.length + 2 < 2 ^ 64) {message : TCPReceiverMessage} {absoluteAckno : Nat}
    {gone : List (Nat × TCPSenderMessage)} {next : TCPSender}
    (received : TCPSender.Received sender message absoluteAckno gone next) :
    Account isn written created next outbound := by
  have nextIs := account.next small
  have bound := account.extent_le
  obtain ⟨acked, waiting, split, entries, atEnd⟩ := account.outstanding
  obtain ⟨before, after, waitingEq, goneEq, leftEq⟩ :=
    split_of_placed_eq_append (entries.symm.trans received.split)
  have cut : created = acked ++ before ++ after := by
    rw [split, waitingEq, List.append_assoc]
  have moved : next.windowLeft ≤ extent sequenceLength created ∧
      (after = [] → next.windowLeft = extent sequenceLength created) := by
    cases before using List.reverseRecOn with
    | nil =>
        rw [(received.stayed goneEq).1]
        refine ⟨account.left, fun empty => atEnd ?_⟩
        rw [waitingEq, empty]
        rfl
    | append_singleton before last =>
        have some_gone : gone ≠ [] := by
          rw [goneEq, placed_snoc]
          exact List.append_ne_nil_of_right_ne_nil _ (List.cons_ne_nil _ _)
        have inside := received.inside some_gone
        rw [nextIs] at inside
        rw [(received.moved some_gone).1]
        refine ⟨inside, fun empty => Nat.le_antisymm inside ?_⟩
        have covered := received.ends
          (extent sequenceLength acked + extent sequenceLength before, last) (by
            rw [goneEq, placed_snoc]
            exact List.mem_append_right _ List.mem_cons_self)
        have total : extent sequenceLength created = extent sequenceLength acked +
            extent sequenceLength before + last.sequenceLength := by
          rw [cut, empty, List.append_nil, extent_append, extent_append, extent_cons, extent_nil]
          omega
        rw [total, ← add64_of_lt (total ▸ Nat.lt_of_le_of_lt bound small)]
        exact covered
  refine ⟨received.isn.trans account.sameIsn, account.counted, account.pushed, account.buffered,
    account.tiled, account.payloads, ?_, ?_, ?_, moved.1, acked ++ before, after, cut, ?_, moved.2⟩
  · rw [received.sycPushed, received.finPushed]
    exact account.size
  · rw [received.sycPushed]
    exact account.opened
  · rw [received.finPushed]
    exact account.finPushed
  · rw [leftEq, extent_append]

/-! ## Writing -/

theorem write (account : Account isn written created sender outbound) {data : List UInt8}
    (small : (written ++ outbound.accepted data).length < 2 ^ 64) :
    Account isn (written ++ outbound.accepted data) created sender (outbound.push data) := by
  have popped := account.popped_le
  rw [List.length_append] at small
  have fits : outbound.bytesPushed + (outbound.accepted data).length < 2 ^ 64 := by
    rw [account.pushed]
    exact small
  refine ⟨account.sameIsn, account.counted.push fits, ?_, ?_, account.tiled, ?_, account.size,
    account.opened, account.finPushed, account.left, account.outstanding⟩
  · rw [outbound.push_bytesPushed fits, account.pushed, List.length_append]
  · rw [ByteStream.push_buffer, ByteStream.push_bytesPopped, account.buffered,
      List.drop_append_of_le_length popped]
  · rw [ByteStream.push_bytesPopped, List.take_append_of_le_length popped]
    exact account.payloads

theorem close (account : Account isn written created sender outbound) :
    Account isn written created sender outbound.close :=
  ⟨account.sameIsn, account.counted.close, account.pushed, account.buffered, account.tiled,
    account.payloads, account.size, account.opened, account.finPushed, account.left,
    account.outstanding⟩

/-- The payload of a segment is the part of the stream from its start on, the SYN not
counted; a FIN segment ends where the stream has been read to. -/
theorem located (account : Account isn written created sender outbound) {start : Nat}
    {segment : TCPSenderMessage} (inside : (start, segment) ∈ placed sequenceLength 0 created) :
    (if segment.SYN then start = 0 else 0 < start) ∧
      segment.payload = (written.drop (start - 1)).take segment.payload.length ∧
      start - 1 + segment.payload.length ≤ outbound.bytesPopped ∧
      (segment.FIN = true → start - 1 + segment.payload.length = outbound.bytesPopped) := by
  obtain ⟨front, carried, bound, atEnd⟩ := account.tiled.located inside
  have length : (carriedBytes created).length = outbound.bytesPopped := by
    rw [account.payloads, List.length_take, Nat.min_eq_left account.popped_le]
  rw [length] at bound atEnd
  refine ⟨front, ?_, bound, atEnd⟩
  rw [account.payloads, List.drop_take, List.take_take, Nat.min_eq_left (by omega)] at carried
  exact carried

end Account

/-! ## Runs -/

namespace Session

/-- The account of a session. -/
def Accounted (isn : Wrap32) (session : Session) : Prop :=
  Account isn session.written session.created session.sender session.outbound

theorem start_accounted (capacity initialRTO : UInt64) (isn : Wrap32) :
    (start capacity initialRTO isn).Accounted isn :=
  Account.initial capacity initialRTO isn

theorem Accounted.step {isn : Wrap32} {session next : Session} {op : Op}
    (accounted : session.Accounted isn) (stepped : session.Stepped op next)
    (small : next.written.length + 2 < 2 ^ 64) : next.Accounted isn := by
  cases stepped with
  | write data => exact Account.write accounted (Nat.lt_of_le_of_lt (Nat.le_add_right _ _) small)
  | close => exact Account.close accounted
  | push emits =>
      have opened := Account.pushSyn accounted small
      have final := (Account.emits emits opened small (TCPSender.pushSyn_sycPushed _ _)).1
      rw [List.append_assoc] at final
      exact final
  | idle empty => exact accounted
  | send queued running => exact Account.congr accounted rfl rfl rfl rfl rfl
  | bare bare => exact accounted
  | receive carries received => exact Account.receive accounted small received
  | tick ticked =>
      exact Account.congr accounted ticked.outstandingMessages ticked.sycPushed ticked.finPushed
        ticked.isn ticked.windowLeft

theorem run_accounted {capacity initialRTO : UInt64} {isn : Wrap32} {ops : List Op}
    {session : Session} (ran : run capacity initialRTO isn ops = .ok session)
    (small : session.written.length + 2 < 2 ^ 64) : session.Accounted isn := by
  refine attempt_invariant
    (fun state : Session => state.written.length + 2 < 2 ^ 64 → state.Accounted isn) ?_ ?_ ran small
  · intro state op next inner ran nextSmall
    have stepped := stepped_of_step ran
    have smaller := stepped.written.length_le
    exact (inner (by omega)).step stepped nextSmall
  · exact fun _ => start_accounted capacity initialRTO isn

end Session

end Minnow.Transport
