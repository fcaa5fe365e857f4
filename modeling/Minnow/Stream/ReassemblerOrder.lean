import Minnow.Stream.ReassemblerDelivery
import Minnow.Stream.ReassemblerReach

/-!
# The order of arrival does not matter

When all substrings lie inside the first window nothing is refused.  What is pushed or held
is then what some substring covers, however the chunks are cut.
-/

namespace Minnow.Stream

open Foundation Foundation.Words Foundation.Chunks Foundation.Runs

namespace Assembly

/-- A piece of the string, called last just where the string ends, that lies inside the
capacity. -/
def Piece (string : List UInt8) (capacity : UInt64) : Op → Prop
  | .insert firstIndex data isLastSubstring =>
      data = (string.drop firstIndex).take data.length ∧
        firstIndex + data.length ≤ string.length ∧
        (isLastSubstring = true ↔ firstIndex + data.length = string.length) ∧
        firstIndex + data.length ≤ capacity.toNat
  | .pop _ => False

instance (string : List UInt8) (capacity : UInt64) : ∀ op, Decidable (Piece string capacity op)
  | .insert _ _ _ => inferInstanceAs (Decidable (_ ∧ _ ∧ (_ ↔ _) ∧ _))
  | .pop _ => inferInstanceAs (Decidable False)

/-- The substring has a byte for the index. -/
def Offers (index : Nat) : Op → Prop
  | .insert firstIndex data _ => firstIndex ≤ index ∧ index < firstIndex + data.length
  | .pop _ => False

/-- Some substring has a byte for the index. -/
def Offered (ops : List Op) (index : Nat) : Prop := ∃ op ∈ ops, Offers index op

theorem offered_append_iff {ops : List Op} {op : Op} {index : Nat} :
    Offered (ops ++ [op]) index ↔ Offered ops index ∨ Offers index op := by
  simp [Offered, List.mem_append, or_and_right, exists_or]

/-! ## What the pieces have in common -/

/-- Pieces agree with the string as far as the capacity goes. -/
theorem agrees_of_piece {string : List UInt8} {capacity : UInt64} {op : Op}
    (piece : Piece string capacity op) : Agrees (string.take capacity.toNat) op := by
  cases op with
  | pop len => exact piece.elim
  | insert firstIndex data isLastSubstring =>
      obtain ⟨same, within, last, inside⟩ := piece
      refine ⟨?_, ?_, ?_⟩
      · rw [List.drop_take, List.take_take, Nat.min_eq_left (by omega)]
        exact same
      · rw [List.length_take]
        omega
      · intro called
        have atEnd := last.mp called
        rw [List.length_take]
        omega

/-- What is pushed or held after these substrings is what they offer, and nothing was read. -/
structure Gathered (capacity : UInt64) (ops : List Op) (assembly : Assembly) : Prop where
  sound : assembly.Sound
  sized : assembly.output.capacity = capacity
  unread : assembly.popped = []
  gathered : ∀ index, index < assembly.position ∨ assembly.heldAt index ≠ none ↔ Offered ops index
  inside : ∀ index, Offered ops index → index < capacity.toNat

theorem start_gathered (capacity : UInt64) : Gathered capacity [] (start capacity) where
  sound := start_sound capacity
  sized := rfl
  unread := rfl
  gathered := by
    intro index
    refine iff_of_false ?_ ?_
    · rintro (pushed | held)
      · exact absurd pushed (Nat.not_lt_zero _)
      · exact held rfl
    · rintro ⟨op, inside, -⟩
      exact absurd inside List.not_mem_nil
  inside := by
    rintro index ⟨op, inside, -⟩
    exact absurd inside List.not_mem_nil

/-- The window ends at the capacity as long as nothing is read. -/
theorem Gathered.edge_eq {capacity : UInt64} {ops : List Op} {assembly : Assembly}
    (gathered : Gathered capacity ops assembly) : assembly.edge = capacity.toNat := by
  have popped := gathered.sound.popped_length
  rw [gathered.unread] at popped
  rw [edge, gathered.sized, ← popped, List.length_nil, Nat.zero_add]

theorem Gathered.secured {capacity : UInt64} {ops : List Op} {assembly : Assembly}
    (gathered : Gathered capacity ops assembly) {index : Nat} (offered : Offered ops index) :
    assembly.Secured index := by
  refine ((gathered.gathered index).mpr offered).imp_right fun held => ⟨held, ?_⟩
  rw [gathered.edge_eq]
  exact gathered.inside index offered

/-- An insertion pushes or holds no more than was there and what it offers. -/
theorem Sound.offered_of_insert {assembly : Assembly} (sound : assembly.Sound) {firstIndex : Nat}
    {data : List UInt8} {isLastSubstring : Bool} {index : Nat}
    (there : index < (assembly.insert firstIndex data isLastSubstring).position ∨
      (assembly.insert firstIndex data isLastSubstring).heldAt index ≠ none) :
    (index < assembly.position ∨ assembly.heldAt index ≠ none) ∨
      Offers index (.insert firstIndex data isLastSubstring) := by
  have ends := add64_le firstIndex data.length
  rcases Nat.lt_or_ge index assembly.position with pushed | ahead
  · exact Or.inl (Or.inl pushed)
  · rcases there with pushed | held
    · have ready := (Reassembler.lt_bytesPushed_insert_iff sound.stored sound.counted firstIndex data
        isLastSubstring index).mp pushed index ahead (Nat.le_refl _)
      rcases ready.2 with held | ⟨first, last, -⟩
      · exact Or.inl (Or.inr held)
      · exact Or.inr ⟨first, Nat.lt_of_lt_of_le last ends⟩
    · obtain ⟨middle, clampedBegin, clampedEnd, done⟩ :=
        sound.insert_spec firstIndex data isLastSubstring
      have stored : middle.heldAt index ≠ none :=
        fun missing => held ((done.flushed.only index held).trans missing)
      rcases (done.inserted.heldAt_ne_none_iff ahead).mp stored with held | ⟨first, last, -⟩
      · exact Or.inl (Or.inr held)
      · exact Or.inr ⟨first, Nat.lt_of_lt_of_le last ends⟩

/-- One more piece. -/
theorem Gathered.insert {string : List UInt8} {capacity : UInt64} {ops : List Op}
    {assembly : Assembly} (gathered : Gathered capacity ops assembly)
    (small : capacity.toNat < 2 ^ 64 - 1) {firstIndex : Nat} {data : List UInt8}
    {isLastSubstring : Bool}
    (piece : Piece string capacity (.insert firstIndex data isLastSubstring)) :
    Gathered capacity (ops ++ [.insert firstIndex data isLastSubstring])
      (assembly.insert firstIndex data isLastSubstring) := by
  have sound := gathered.sound
  have edge := gathered.edge_eq
  obtain ⟨-, -, -, fits⟩ := piece
  refine ⟨sound.step (.insert firstIndex data isLastSubstring),
    (step_capacity sound (.insert firstIndex data isLastSubstring)).trans gathered.sized,
    gathered.unread, ?_, ?_⟩
  · intro index
    rw [offered_append_iff, ← gathered.gathered index]
    constructor
    · exact sound.offered_of_insert
    · intro there
      have secured : (assembly.insert firstIndex data isLastSubstring).Secured index := by
        rcases there with old | offers
        · exact (gathered.secured ((gathered.gathered index).mp old)).step sound
            (.insert firstIndex data isLastSubstring)
        · rcases Nat.lt_or_ge index assembly.position with pushed | ahead
          · exact Or.inl (Nat.lt_of_lt_of_le pushed
              (position_le_step sound (.insert firstIndex data isLastSubstring)))
          · have last := offers.2
            exact secured_insert sound (by omega) (by omega) isLastSubstring offers ⟨ahead, by omega⟩
      exact secured.imp_right And.left
  · intro index offered
    rcases offered_append_iff.mp offered with old | offers
    · exact gathered.inside index old
    · exact Nat.lt_of_lt_of_le offers.2 fits

theorem run_gathered {string : List UInt8} {capacity : UInt64} (small : capacity.toNat < 2 ^ 64 - 1)
    {ops : List Op} (pieces : ∀ op ∈ ops, Piece string capacity op) :
    Gathered capacity ops (run capacity ops) := by
  refine exec_history (Piece string capacity) (Gathered capacity) (start_gathered capacity) ?_ pieces
  intro history op piece gathered
  cases op with
  | pop len => exact piece.elim
  | insert firstIndex data isLastSubstring => exact gathered.insert small piece

/-! ## Two orders -/

/-- The same bytes were pushed, the flag is the same, and the same bytes are held. -/
structure SameResult (first second : Assembly) : Prop where
  pushedBytes : first.pushedBytes = second.pushedBytes
  bytesPushed : first.output.bytesPushed = second.output.bytesPushed
  isClosed : first.output.isClosed = second.output.isClosed
  bytesPending : first.reassembler.bytesPending = second.reassembler.bytesPending
  heldAt : ∀ index, first.heldAt index = second.heldAt index

/-- The write position is the first index that is not offered. -/
theorem Gathered.position_le {capacity : UInt64} {ops other : List Op} {first second : Assembly}
    (gathered : Gathered capacity ops first) (otherGathered : Gathered capacity other second)
    (same : ∀ index, Offered ops index ↔ Offered other index) : first.position ≤ second.position := by
  by_contra ahead
  have offered := (same _).mp ((gathered.gathered second.position).mp (Or.inl (Nat.not_le.mp ahead)))
  rcases (otherGathered.gathered second.position).mpr offered with pushed | held
  · exact absurd pushed (Nat.lt_irrefl _)
  · exact held (otherGathered.sound.stored.laid.itemAt?_eq_none (Nat.lt_succ_self _))

/-- Held is what is offered past the write position. -/
theorem Gathered.held_iff {capacity : UInt64} {ops : List Op} {assembly : Assembly}
    (gathered : Gathered capacity ops assembly) (index : Nat) :
    assembly.heldAt index ≠ none ↔ assembly.position ≤ index ∧ Offered ops index := by
  rw [← gathered.gathered index]
  constructor
  · intro held
    have ahead := gathered.sound.stored.laid.le_of_itemAt? held
    exact ⟨Nat.le_of_succ_le ahead, Or.inr held⟩
  · rintro ⟨ahead, pushed | held⟩
    · exact absurd pushed (Nat.not_lt.mpr ahead)
    · exact held

/-- The result of a run is determined by which pieces came. -/
theorem sameResult_of_same_members {string : List UInt8} {capacity : UInt64}
    (small : capacity.toNat < 2 ^ 64 - 1) {ops other : List Op}
    (pieces : ∀ op ∈ ops, Piece string capacity op) (same : ∀ op, op ∈ other ↔ op ∈ ops) :
    SameResult (run capacity other) (run capacity ops) := by
  have otherPieces : ∀ op ∈ other, Piece string capacity op :=
    fun op inside => pieces op ((same op).mp inside)
  have short : (string.take capacity.toNat).length < 2 ^ 64 - 1 :=
    Nat.lt_of_le_of_lt (List.length_take_le _ _) small
  have gathered := run_gathered small pieces
  have otherGathered := run_gathered small otherPieces
  have ending := run_ending short capacity fun op inside => agrees_of_piece (pieces op inside)
  have otherEnding :=
    run_ending short capacity fun op inside => agrees_of_piece (otherPieces op inside)
  have offered : ∀ index, Offered other index ↔ Offered ops index := by
    intro index
    simp only [Offered, same]
  have announced : Announced other ↔ Announced ops := by
    simp only [Announced, same]
  have position : (run capacity other).position = (run capacity ops).position :=
    Nat.le_antisymm (otherGathered.position_le gathered offered)
      (gathered.position_le otherGathered fun index => (offered index).symm)
  have held : ∀ index, (run capacity other).heldAt index ≠ none ↔
      (run capacity ops).heldAt index ≠ none := by
    intro index
    rw [otherGathered.held_iff, gathered.held_iff, position, offered]
  refine ⟨?_, position, ?_, ?_, ?_⟩
  · rw [otherEnding.faithful.pushed, ending.faithful.pushed, position]
  · rw [Bool.eq_iff_iff, otherEnding.closed, ending.closed, announced, position]
  · rw [otherGathered.sound.stored.pending, gathered.sound.stored.pending]
    exact otherGathered.sound.stored.laid.total_eq gathered.sound.stored.laid held
  · intro index
    by_cases there : (run capacity ops).heldAt index = none
    · rw [there]
      by_contra otherHeld
      exact (held index).mp otherHeld there
    · rw [otherEnding.faithful.held index ((held index).mpr there),
        ending.faithful.held index there]

/-- The pieces of a string can come in any order, and again: the bytes pushed, the flag, the
count and the bytes held are the same. -/
theorem reassembly_order_independent (string : List UInt8) (capacity : UInt64)
    (small : capacity.toNat < 2 ^ 64 - 1) (ops other again : List Op)
    (pieces : ∀ op ∈ ops, Piece string capacity op) (order : other.Perm ops)
    (repeats : ∀ op ∈ again, op ∈ ops) :
    SameResult (run capacity other) (run capacity ops) ∧
      SameResult (run capacity (other ++ again)) (run capacity other) := by
  have otherPieces : ∀ op ∈ other, Piece string capacity op :=
    fun op inside => pieces op (order.mem_iff.mp inside)
  refine ⟨sameResult_of_same_members small pieces fun op => order.mem_iff,
    sameResult_of_same_members small otherPieces fun op => ?_⟩
  rw [List.mem_append]
  exact or_iff_left_of_imp fun inside => order.mem_iff.mpr (repeats op inside)

/-- Three pieces that overlap, of which the end comes first, a gap in front of them, and two of them
again. -/
theorem reassembly_order_independent_overlapping :
    SameResult
        (run 5 [.insert 2 [99, 100, 101] true, .insert 3 [100] false,
          .insert 1 [98, 99, 100] false])
        (run 5 [.insert 1 [98, 99, 100] false, .insert 2 [99, 100, 101] true,
          .insert 3 [100] false]) ∧
      SameResult
        (run 5 ([.insert 2 [99, 100, 101] true, .insert 3 [100] false,
            .insert 1 [98, 99, 100] false] ++
          [.insert 1 [98, 99, 100] false, .insert 2 [99, 100, 101] true]))
        (run 5 [.insert 2 [99, 100, 101] true, .insert 3 [100] false,
          .insert 1 [98, 99, 100] false]) :=
  reassembly_order_independent [97, 98, 99, 100, 101] 5 (by decide) _ _ _ (by decide) (by decide)
    (by decide)

end Assembly

end Minnow.Stream
