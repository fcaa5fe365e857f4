import Minnow.Stream.ReassemblerRuns

/-!
# Delivery of one string

All insertions agree with one string.  Then the output is a prefix of it, a byte
offered inside the window is held until it is pushed, nothing at the write position
is held back, and the stream is closed exactly at its end.
-/

namespace Minnow.Stream

open Foundation Foundation.Words Foundation.Chunks Foundation.Runs

namespace Assembly

/-- The substring is the part of the string from its index on, and is called last only
where the string ends. -/
def Agrees (string : List UInt8) : Op → Prop
  | .insert firstIndex data isLastSubstring =>
      data = (string.drop firstIndex).take data.length ∧
        firstIndex + data.length ≤ string.length ∧
        (isLastSubstring = true → firstIndex + data.length = string.length)
  | .pop _ => True

instance (string : List UInt8) (op : Op) : Decidable (Agrees string op) := by
  cases op <;> unfold Agrees <;> infer_instance

theorem getElem?_of_agrees {string data : List UInt8} {firstIndex : Nat}
    (same : data = (string.drop firstIndex).take data.length) {index : Nat}
    (above : firstIndex ≤ index) (below : index - firstIndex < data.length) :
    data[index - firstIndex]? = string[index]? := by
  rw [same, List.getElem?_take, if_pos below, List.getElem?_drop, Nat.add_sub_cancel' above]

/-! ## A byte inside the window is never lost -/

/-- The byte of the index is pushed, or held inside the window. -/
def Secured (assembly : Assembly) (index : Nat) : Prop :=
  index < assembly.position ∨ (assembly.heldAt index ≠ none ∧ index < assembly.edge)

/-- What is held between storing and writing is then held or pushed. -/
theorem secured_of_middle {assembly : Assembly} (sound : assembly.Sound) {firstIndex : Nat}
    {data : List UInt8} {isLastSubstring : Bool} {middle : Reassembler}
    {clampedBegin clampedEnd : Nat}
    (done : Reassembler.Insertion assembly.reassembler assembly.output firstIndex data
      isLastSubstring middle (assembly.insert firstIndex data isLastSubstring).reassembler
      (assembly.insert firstIndex data isLastSubstring).output clampedBegin clampedEnd)
    {index : Nat} (held : middle.heldAt index ≠ none) (inside : index < assembly.edge) :
    (assembly.insert firstIndex data isLastSubstring).Secured index := by
  rcases Nat.lt_or_ge index (assembly.insert firstIndex data isLastSubstring).position with
    pushed | waiting
  · exact Or.inl pushed
  · refine Or.inr ⟨?_, ?_⟩
    · have kept := done.flushed.kept index waiting (sound.edge_eq ▸ inside)
      intro gone
      exact held (kept.symm.trans gone)
    · exact Nat.lt_of_lt_of_le inside
        (edge_le_step sound (.insert firstIndex data isLastSubstring))

theorem Secured.step {assembly : Assembly} (sound : assembly.Sound) {index : Nat}
    (secured : assembly.Secured index) (op : Op) : (assembly.step op).Secured index := by
  rcases secured with pushed | ⟨held, inside⟩
  · exact Or.inl (Nat.lt_of_lt_of_le pushed (position_le_step sound op))
  · cases op with
    | insert firstIndex data isLastSubstring =>
        obtain ⟨middle, clampedBegin, clampedEnd, done⟩ :=
          sound.insert_spec firstIndex data isLastSubstring
        exact secured_of_middle sound done (done.inserted.heldAt_ne_none held) inside
    | pop len =>
        exact Or.inr ⟨held, Nat.lt_of_lt_of_le inside (edge_le_step sound (.pop len))⟩

theorem Secured.exec {assembly : Assembly} (sound : assembly.Sound) {index : Nat}
    (secured : assembly.Secured index) (ops : List Op) :
    (exec Assembly.step assembly ops).Secured index :=
  (exec_invariant (fun state => Sound state ∧ Secured state index)
    (fun _ op inner => ⟨inner.1.step op, inner.2.step inner.1 op⟩) ⟨sound, secured⟩ ops).2

/-- An insertion secures every byte it offers inside the window. -/
theorem secured_insert {assembly : Assembly} (sound : assembly.Sound)
    (noWrap : assembly.edge < 2 ^ 64) {firstIndex : Nat} {data : List UInt8}
    (fits : firstIndex + data.length < 2 ^ 64) (isLastSubstring : Bool) {index : Nat}
    (offered : firstIndex ≤ index ∧ index < firstIndex + data.length)
    (window : assembly.position ≤ index ∧ index < assembly.edge) :
    (assembly.insert firstIndex data isLastSubstring).Secured index := by
  obtain ⟨middle, clampedBegin, clampedEnd, done⟩ :=
    sound.insert_spec firstIndex data isLastSubstring
  refine secured_of_middle sound done ?_ window.2
  refine done.inserted.covered index window.1 offered.1 ?_ ?_
  · rw [add64_of_lt fits]
    exact offered.2
  · exact Nat.lt_of_lt_of_le window.2 (Nat.le_of_eq (acceptEnd_of_noWrap sound noWrap).symm)

/-! ## The output is a prefix of the string -/

structure Faithful (string : List UInt8) (assembly : Assembly) : Prop where
  sound : assembly.Sound
  short : assembly.position ≤ string.length
  pushed : assembly.pushedBytes = string.take assembly.position
  held : ∀ index, assembly.heldAt index ≠ none → assembly.heldAt index = string[index]?

theorem start_faithful (string : List UInt8) (capacity : UInt64) :
    Faithful string (start capacity) :=
  ⟨start_sound capacity, Nat.zero_le _, rfl, fun _ held => absurd rfl held⟩

/-- Items that agree with the string from `position` on lengthen its first part. -/
theorem take_append_of_agree {string items : List UInt8} {position : Nat}
    (short : position ≤ string.length)
    (agree : ∀ offset, offset < items.length → items[offset]? = string[position + offset]?) :
    position + items.length ≤ string.length ∧
      string.take position ++ items = string.take (position + items.length) := by
  constructor
  · cases items with
    | nil => exact short
    | cons item rest =>
        have final := agree rest.length (Nat.lt_succ_self _)
        rw [List.getElem?_eq_getElem (Nat.lt_succ_self _)] at final
        exact (List.getElem?_eq_some_iff.mp final.symm).1
  · rw [List.take_add]
    refine congrArg _ (List.ext_getElem? ?_)
    intro offset
    rw [List.getElem?_take]
    split_ifs with inside
    · rw [List.getElem?_drop]
      exact agree offset inside
    · exact List.getElem?_eq_none (Nat.not_lt.mp inside)

theorem Faithful.pop {string : List UInt8} {assembly : Assembly}
    (faithful : Faithful string assembly) (len : Nat) : Faithful string (assembly.pop len) :=
  ⟨faithful.sound.step (.pop len), faithful.short,
    (pushedBytes_pop assembly len).trans faithful.pushed, faithful.held⟩

theorem Faithful.insert {string : List UInt8} {assembly : Assembly}
    (faithful : Faithful string assembly) {firstIndex : Nat} {data : List UInt8}
    {isLastSubstring : Bool} (agrees : Agrees string (.insert firstIndex data isLastSubstring)) :
    Faithful string (assembly.insert firstIndex data isLastSubstring) := by
  have sound := faithful.sound
  obtain ⟨same, within, _⟩ := agrees
  obtain ⟨middle, clampedBegin, clampedEnd, done⟩ :=
    sound.insert_spec firstIndex data isLastSubstring
  have first := done.inserted.first.le
  have last := Nat.le_trans done.inserted.end_le (add64_le _ _)
  have middleHeld : ∀ index, middle.heldAt index ≠ none →
      middle.heldAt index = string[index]? := by
    intro index
    rw [done.inserted.heldAt]
    split_ifs with range
    · intro _
      exact getElem?_of_agrees same (by omega) (by omega)
    · exact faithful.held index
  obtain ⟨items, bufferEq, countEq, itemsEq⟩ := done.flushed.written
  have agree : ∀ offset, offset < items.length →
      items[offset]? = string[assembly.position + offset]? := by
    intro offset inside
    have stored := itemsEq offset inside
    rw [stored]
    refine middleHeld _ ?_
    rw [Reassembler.heldAt, ← stored, List.getElem?_eq_getElem inside]
    exact Option.some_ne_none _
  obtain ⟨short, taken⟩ := take_append_of_agree faithful.short agree
  have positionEq : (assembly.insert firstIndex data isLastSubstring).position =
      assembly.position + items.length := countEq.symm
  refine ⟨sound.step (.insert firstIndex data isLastSubstring), positionEq ▸ short, ?_, ?_⟩
  · change assembly.popped ++ (assembly.insert firstIndex data isLastSubstring).output.buffer = _
    rw [bufferEq, ← List.append_assoc, positionEq, ← taken, ← faithful.pushed]
    rfl
  · intro index held
    have kept := done.flushed.only index held
    exact kept.trans (middleHeld index (fun gone => held (kept.trans gone)))

/-- A longer string is as good, while nothing lies past the shorter one. -/
theorem Faithful.extend {string longer : List UInt8} {assembly : Assembly}
    (faithful : Faithful string assembly) (begins : string <+: longer) :
    Faithful longer assembly := by
  obtain ⟨more, rfl⟩ := begins
  have short := faithful.short
  refine ⟨faithful.sound, ?_, ?_, ?_⟩
  · rw [List.length_append]
    omega
  · rw [List.take_append_of_le_length short]
    exact faithful.pushed
  · intro index held
    have same := faithful.held index held
    rw [same] at held ⊢
    rw [List.getElem?_append_left]
    exact (List.getElem?_eq_some_iff.mp (Option.ne_none_iff_exists'.mp held).choose_spec).1

/-! ## The end of the string -/

/-- The recorded end and the flag are right, for an end that is announced or not. -/
structure Ending (string : List UInt8) (announced : Prop) (assembly : Assembly) : Prop where
  faithful : Faithful string assembly
  known : announced → assembly.reassembler.streamEnd = string.length
  unknown : ¬ announced → assembly.reassembler.streamEnd = unknownEnd
  closed : assembly.output.isClosed = true ↔ announced ∧ assembly.position = string.length

theorem start_ending (string : List UInt8) (capacity : UInt64) {announced : Prop}
    (silent : ¬ announced) : Ending string announced (start capacity) where
  faithful := start_faithful string capacity
  known := fun loud => absurd loud silent
  unknown := fun _ => rfl
  closed := ⟨(fun closed => nomatch closed), fun ⟨loud, _⟩ => absurd loud silent⟩

/-- A longer string is as good, while no end is announced. -/
theorem Ending.extend {string longer : List UInt8} {announced : Prop} {assembly : Assembly}
    (ending : Ending string announced assembly) (silent : ¬ announced)
    (begins : string <+: longer) : Ending longer announced assembly where
  faithful := ending.faithful.extend begins
  known := fun loud => absurd loud silent
  unknown := ending.unknown
  closed := by
    rw [ending.closed]
    exact iff_of_false (fun both => silent both.1) (fun both => silent both.1)

/-- What an insertion makes of the flag, once the recorded end is right. -/
theorem Ending.insert {string : List UInt8} {announced : Prop} {assembly : Assembly}
    (small : string.length < 2 ^ 64 - 1) (ending : Ending string announced assembly)
    {firstIndex : Nat} {data : List UInt8} {isLastSubstring : Bool}
    (agrees : Agrees string (.insert firstIndex data isLastSubstring)) :
    Ending string (announced ∨ isLastSubstring = true)
      (assembly.insert firstIndex data isLastSubstring) := by
  have after : Faithful string (assembly.insert firstIndex data isLastSubstring) :=
    ending.faithful.insert agrees
  have short := after.short
  have grows : assembly.position ≤ (assembly.insert firstIndex data isLastSubstring).position :=
    position_le_step ending.faithful.sound (.insert firstIndex data isLastSubstring)
  obtain ⟨middle, clampedBegin, clampedEnd, done⟩ :=
    ending.faithful.sound.insert_spec firstIndex data isLastSubstring
  have endEq := done.streamEnd
  have closedIff := done.closed
  generalize assembly.insert firstIndex data isLastSubstring = next at *
  cases isLastSubstring with
  | true =>
      have lastEnd : next.reassembler.streamEnd = string.length := by
        rw [endEq, Reassembler.noteEnd, if_pos rfl, ← agrees.2.2 rfl]
        refine add64_of_lt ?_
        have within := agrees.2.1
        omega
      refine ⟨after, fun _ => lastEnd, fun silent => absurd (Or.inr rfl) silent, ?_⟩
      rw [closedIff, ending.closed, lastEnd]
      constructor
      · rintro (⟨_, atEnd⟩ | atEnd)
        · exact ⟨Or.inr rfl, Nat.le_antisymm short (atEnd ▸ grows)⟩
        · exact ⟨Or.inr rfl, atEnd⟩
      · rintro ⟨_, atEnd⟩
        exact Or.inr atEnd
  | false =>
      have sameEnd : next.reassembler.streamEnd = assembly.reassembler.streamEnd := endEq
      have seen : announced ∨ false = true ↔ announced := or_iff_left Bool.false_ne_true
      rw [seen]
      refine ⟨after, fun loud => sameEnd.trans (ending.known loud),
        fun silent => sameEnd.trans (ending.unknown silent), ?_⟩
      rw [closedIff, ending.closed, sameEnd]
      constructor
      · rintro (⟨loud, atEnd⟩ | atEnd)
        · exact ⟨loud, Nat.le_antisymm short (atEnd ▸ grows)⟩
        · have loud : announced := by
            by_contra silent
            rw [ending.unknown silent] at atEnd
            change next.position = unknownEnd at atEnd
            unfold unknownEnd at atEnd
            omega
          exact ⟨loud, atEnd.trans (ending.known loud)⟩
      · rintro ⟨loud, atEnd⟩
        exact Or.inr (atEnd.trans (ending.known loud).symm)

theorem Ending.pop {string : List UInt8} {announced : Prop} {assembly : Assembly}
    (ending : Ending string announced assembly) (len : Nat) :
    Ending string announced (assembly.pop len) :=
  ⟨ending.faithful.pop len, ending.known, ending.unknown, ending.closed⟩

theorem Ending.congr {string : List UInt8} {announced other : Prop} {assembly : Assembly}
    (ending : Ending string announced assembly) (same : other ↔ announced) :
    Ending string other assembly := by
  rw [propext same]
  exact ending

/-- An empty substring, wherever it lies, changes nothing. -/
theorem Ending.insert_nil {string : List UInt8} {announced : Prop} {assembly : Assembly}
    (small : string.length < 2 ^ 64 - 1) (ending : Ending string announced assembly)
    (firstIndex : Nat) : Ending string announced (assembly.insert firstIndex [] false) := by
  have agrees : Agrees string (.insert 0 [] false) :=
    ⟨rfl, Nat.zero_le _, fun last => absurd last Bool.false_ne_true⟩
  rw [Assembly.insert, Reassembler.insert_nil ending.faithful.sound.stored firstIndex 0]
  exact (ending.insert small agrees).congr (or_iff_left Bool.false_ne_true).symm

/-- A last substring is among the operations. -/
def Announced (ops : List Op) : Prop := ∃ firstIndex data, Op.insert firstIndex data true ∈ ops

theorem announced_append_insert {ops : List Op} {firstIndex : Nat} {data : List UInt8}
    {isLastSubstring : Bool} :
    Announced (ops ++ [.insert firstIndex data isLastSubstring]) ↔
      Announced ops ∨ isLastSubstring = true := by
  constructor
  · rintro ⟨otherIndex, otherData, inside⟩
    rcases List.mem_append.mp inside with earlier | last
    · exact Or.inl ⟨otherIndex, otherData, earlier⟩
    · cases List.mem_singleton.mp last
      exact Or.inr rfl
  · rintro (⟨otherIndex, otherData, earlier⟩ | rfl)
    · exact ⟨otherIndex, otherData, List.mem_append_left _ earlier⟩
    · exact ⟨firstIndex, data, List.mem_append_right _ List.mem_cons_self⟩

theorem announced_append_pop {ops : List Op} {len : Nat} :
    Announced (ops ++ [.pop len]) ↔ Announced ops := by
  constructor
  · rintro ⟨firstIndex, data, inside⟩
    rcases List.mem_append.mp inside with earlier | last
    · exact ⟨firstIndex, data, earlier⟩
    · cases List.mem_singleton.mp last
  · rintro ⟨firstIndex, data, earlier⟩
    exact ⟨firstIndex, data, List.mem_append_left _ earlier⟩

theorem run_ending {string : List UInt8} (small : string.length < 2 ^ 64 - 1) (capacity : UInt64)
    {ops : List Op} (agrees : ∀ op ∈ ops, Agrees string op) :
    Ending string (Announced ops) (run capacity ops) := by
  refine exec_history (Agrees string) (fun history => Ending string (Announced history)) ?_ ?_ agrees
  · exact start_ending string capacity (fun ⟨_, _, inside⟩ => nomatch inside)
  · intro history op allowed ending
    cases op with
    | insert firstIndex data isLastSubstring =>
        exact (ending.insert small allowed).congr announced_append_insert
    | pop len => exact (ending.pop len).congr announced_append_pop

/-- The reassembler delivers the string: the bytes pushed are a prefix of it, a byte
offered inside the window is pushed or held from then on, the byte at the write
position is never held back, and the stream is closed at the end of the string. -/
theorem reassembles_string (string : List UInt8) (capacity : UInt64) (ops : List Op)
    (agrees : ∀ op ∈ ops, Agrees string op) (small : string.length < 2 ^ 64 - 1)
    (window : (run capacity ops).output.bytesPopped + capacity.toNat < 2 ^ 64 - 1) :
    (run capacity ops).pushedBytes = string.take (run capacity ops).output.bytesPushed ∧
      (∀ before firstIndex data isLastSubstring after,
        ops = before ++ .insert firstIndex data isLastSubstring :: after →
        ∀ index, firstIndex ≤ index → index < firstIndex + data.length →
          (run capacity before).output.bytesPushed ≤ index →
          index < (run capacity before).output.bytesPushed +
            (run capacity before).output.availableCapacity →
          index < (run capacity ops).output.bytesPushed ∨
            ((run capacity ops).heldAt index ≠ none ∧
              (run capacity ops).heldAt index = string[index]?)) ∧
      (run capacity ops).heldAt (run capacity ops).output.bytesPushed = none ∧
      ((run capacity ops).output.isClosed = true ↔
        (∃ firstIndex data, Op.insert firstIndex data true ∈ ops) ∧
          (run capacity ops).output.bytesPushed = string.length) := by
  have ending := run_ending small capacity agrees
  have sound := ending.faithful.sound
  refine ⟨ending.faithful.pushed, ?_, ?_, ending.closed⟩
  · intro before firstIndex data isLastSubstring after split index above below atLeast inWindow
    have beforeSound := run_sound capacity before
    have within : firstIndex + data.length ≤ string.length := by
      have here := agrees (.insert firstIndex data isLastSubstring) (by rw [split]; simp)
      exact here.2.1
    have runEq : run capacity ops = exec Assembly.step ((run capacity before).step
        (.insert firstIndex data isLastSubstring)) after := by
      rw [split, run, exec_append]
      rfl
    have edgeFits : (run capacity before).edge < 2 ^ 64 := by
      have grown := edge_le_exec beforeSound (.insert firstIndex data isLastSubstring :: after)
      rw [exec_cons, ← runEq] at grown
      unfold edge at grown ⊢
      rw [run_capacity capacity before] at grown ⊢
      rw [run_capacity capacity ops] at grown
      exact Nat.lt_of_le_of_lt grown (Nat.lt_of_lt_of_le window (Nat.sub_le _ _))
    have secured : ((run capacity before).step (.insert firstIndex data isLastSubstring)).Secured
        index :=
      secured_insert beforeSound edgeFits (by omega) isLastSubstring ⟨above, below⟩
        ⟨atLeast, beforeSound.edge_eq ▸ inWindow⟩
    have final := secured.exec (beforeSound.step _) after
    rw [← runEq] at final
    rcases final with pushed | ⟨held, _⟩
    · exact Or.inl pushed
    · exact Or.inr ⟨held, ending.faithful.held index held⟩
  · exact sound.stored.laid.itemAt?_eq_none (Nat.lt_succ_self _)

/-- Two substrings in the wrong order, with a pop after them. -/
def swappedSubstrings : List Op := [.insert 1 [98, 99] true, .insert 0 [97, 98] false, .pop 2]

theorem reassembles_string_swapped :
    (run 4 swappedSubstrings).pushedBytes =
        [97, 98, 99].take (run 4 swappedSubstrings).output.bytesPushed ∧
      (run 4 swappedSubstrings).output.isClosed = true :=
  have delivered := reassembles_string [97, 98, 99] 4 swappedSubstrings (by decide) (by decide)
    (by decide)
  ⟨delivered.1, delivered.2.2.2.mpr ⟨⟨1, [98, 99], by decide⟩, by decide⟩⟩

end Assembly

end Minnow.Stream
