import Minnow.Foundation.Watch
import Minnow.Stream.Reassembler

/-!
# The reassembler under watch

The helpers once more, with every use of an iterator and of a range, every subtraction from
the pending count and every new chunk checked.  A read through the end iterator gives `stray`,
which is arbitrary; what is computed does not depend on it.
-/

namespace Minnow.Stream

open Foundation Foundation.Words

/-- What the source does without a check. -/
inductive Hazard where
  | endDereferenced
  | beginDecremented
  | rangeOutside
  | pendingUnderflow
  | chunkOverwritten
  deriving DecidableEq, Repr

namespace Reassembler.Watched

open Watch

variable (stray : Nat × List UInt8)

/-- Read the chunk an iterator is at. -/
def deref (buf : OrderedMap Nat (List UInt8)) (position : Nat) :
    Watch Hazard (Nat × List UInt8) := do
  expect (position < buf.past) .endDereferenced
  return (buf.entryAt position).getD stray

/-- Decrement an iterator. -/
def previous (position : Nat) : Watch Hazard Nat := do
  expect (position ≠ 0) .beginDecremented
  return position - 1

/-- Decrement an iterator that is not at the begin. -/
def stepBack (position : Nat) : Watch Hazard Nat :=
  if position ≠ 0 then previous position else pure position

/-- Subtract from the pending count. -/
def lessen (pending size : Nat) : Watch Hazard Nat := do
  expect (size ≤ pending) .pendingUnderflow
  return sub64 pending size

/-- The result is the position behind the chunks pushed, the stream and the pending count. -/
def writeLoop (buf : OrderedMap Nat (List UInt8)) (position : Nat) (output : ByteStream)
    (pending : Nat) : Watch Hazard (Nat × ByteStream × Nat) :=
  if position < buf.past then do
    let chunk ← deref stray buf position
    if chunk.1 = output.bytesPushed then do
      let left ← lessen pending chunk.2.length
      writeLoop buf (position + 1) (output.push chunk.2) left
    else pure (position, output, pending)
  else pure (position, output, pending)
termination_by buf.past - position

def writeToStream (reassembler : Reassembler) (output : ByteStream) :
    Watch Hazard (Reassembler × ByteStream) := do
  let loop ← writeLoop stray reassembler.buf 0 output reassembler.bytesPending
  return ({ reassembler with
    buf := reassembler.buf.eraseRange 0 loop.1
    bytesPending := loop.2.2 }, loop.2.1)

/-- The result is the position behind the chunks stepped over and the pending count. -/
def deleteLoop (buf : OrderedMap Nat (List UInt8)) (endIndex position pending : Nat) :
    Watch Hazard (Nat × Nat) :=
  if position < buf.past then do
    let chunk ← deref stray buf position
    if add64 chunk.1 chunk.2.length ≤ endIndex then do
      let left ← lessen pending chunk.2.length
      deleteLoop buf endIndex (position + 1) left
    else pure (position, pending)
  else pure (position, pending)
termination_by buf.past - position

def deleteOverlapping (reassembler : Reassembler) (index : Nat) : Watch Hazard Reassembler :=
  let position := reassembler.buf.find index
  if position = reassembler.buf.past then pure reassembler
  else do
    let chunk ← deref stray reassembler.buf position
    let loop ← deleteLoop stray reassembler.buf (add64 chunk.2.length chunk.1) (position + 1)
      reassembler.bytesPending
    return { reassembler with
      buf := reassembler.buf.eraseRange (position + 1) loop.1
      bytesPending := loop.2 }

def clampEnd (buf : OrderedMap Nat (List UInt8)) (acceptEnd endIndex : Nat) : Watch Hazard Nat :=
  let clampedEnd := if acceptEnd < endIndex then acceptEnd else endIndex
  if buf.lowerBound endIndex ≠ 0 then do
    let position ← previous (buf.lowerBound endIndex)
    let chunk ← deref stray buf position
    return if endIndex ≤ add64 chunk.1 chunk.2.length then chunk.1 else endIndex
  else pure clampedEnd

def skipLoop (buf : OrderedMap Nat (List UInt8)) (position clampedBegin : Nat) :
    Watch Hazard Nat :=
  if position < buf.past then do
    let chunk ← deref stray buf position
    if chunk.1 ≤ clampedBegin then skipLoop buf (position + 1) (add64 chunk.1 chunk.2.length)
    else pure clampedBegin
  else pure clampedBegin
termination_by buf.past - position

/-- No test of the end comes before the read. -/
def clampBegin (buf : OrderedMap Nat (List UInt8)) (acceptBegin firstIndex : Nat) :
    Watch Hazard Nat := do
  let clampedBegin := if firstIndex < acceptBegin then acceptBegin else firstIndex
  let position ← stepBack (buf.upperBound firstIndex)
  let chunk ← deref stray buf position
  if clampedBegin < add64 chunk.1 chunk.2.length then skipLoop stray buf position clampedBegin
  else return clampedBegin

def clampData (data : List UInt8) (firstIndex clampedBegin clampedEnd : Nat) :
    Watch Hazard (List UInt8) := do
  expect (firstIndex ≤ clampedEnd ∧ clampedEnd ≤ firstIndex + data.length) .rangeOutside
  let front := data.take (clampedEnd - firstIndex)
  expect (firstIndex ≤ clampedBegin ∧ clampedBegin < firstIndex + front.length) .rangeOutside
  return front.drop (clampedBegin - firstIndex)

def insertToBuffer (reassembler : Reassembler) (acceptBegin len firstIndex : Nat)
    (data : List UInt8) : Watch Hazard Reassembler :=
  let acceptEnd := add64 acceptBegin len
  if acceptEnd ≤ firstIndex then pure reassembler
  else do
    let clampedEnd ← clampEnd stray reassembler.buf acceptEnd (add64 firstIndex data.length)
    let clampedBegin ← clampBegin stray reassembler.buf acceptBegin firstIndex
    if clampedEnd ≤ clampedBegin then pure reassembler
    else do
      let piece ← clampData data firstIndex clampedBegin clampedEnd
      expect (reassembler.buf.contains clampedBegin = false) .chunkOverwritten
      deleteOverlapping stray
        { reassembler with
          buf := reassembler.buf.assign clampedBegin piece
          bytesPending := add64 reassembler.bytesPending piece.length }
        clampedBegin

def insert (reassembler : Reassembler) (firstIndex : Nat) (data : List UInt8)
    (isLastSubstring : Bool) (output : ByteStream) : Watch Hazard (Reassembler × ByteStream) := do
  let noted := reassembler.noteEnd firstIndex data isLastSubstring
  let stored ← insertToBuffer stray noted output.bytesPushed output.availableCapacity firstIndex data
  let written ← writeToStream stray stored output
  return if written.2.bytesPushed = written.1.streamEnd ∧ written.2.isClosed = false then
    (written.1, written.2.close)
  else written

/-! ## The results -/

section Results

variable (buf : OrderedMap Nat (List UInt8))

@[simp] theorem value_previous (position : Nat) : value (previous position) = position - 1 := rfl

@[simp] theorem hazards_previous {position : Nat} (inner : position ≠ 0) :
    hazards (previous position) = [] := by
  simp [previous, inner]

@[simp] theorem value_stepBack (position : Nat) :
    value (stepBack position) = if position ≠ 0 then position - 1 else position := by
  rw [stepBack, value_ite]
  rfl

@[simp] theorem hazards_stepBack (position : Nat) : hazards (stepBack position) = [] := by
  simp +contextual [stepBack]

@[simp] theorem value_lessen (pending size : Nat) :
    value (lessen pending size) = sub64 pending size := rfl

theorem value_deref {position : Nat} {chunk : Nat × List UInt8}
    (found : buf.entryAt position = some chunk) : value (deref stray buf position) = chunk := by
  change (buf.entryAt position).getD stray = chunk
  simp [found]

theorem hazards_deref {position : Nat} (inside : position < buf.past) :
    hazards (deref stray buf position) = [] := by
  simp [deref, inside]

theorem value_writeLoop (position : Nat) (output : ByteStream) (pending : Nat) :
    let loop := Reassembler.writeLoop (buf.entries.drop position) output pending
    value (writeLoop stray buf position output pending) = (position + loop.1, loop.2) := by
  induction position using buf.walk generalizing output pending with
  | past position outside dropEq =>
      rw [writeLoop, dropEq]
      simp [outside, Reassembler.writeLoop]
  | here position chunk inside found dropEq ih =>
      rw [writeLoop, dropEq]
      simp only [inside, if_true, value_bind, value_deref stray buf found, value_ite,
        value_lessen, value_pure, Reassembler.writeLoop]
      split
      · rw [ih, Nat.add_right_comm, Nat.add_assoc]
      · rfl

theorem value_deleteLoop (endIndex position pending : Nat) :
    let loop := Reassembler.deleteLoop endIndex (buf.entries.drop position) pending
    value (deleteLoop stray buf endIndex position pending) = (position + loop.1, loop.2) := by
  induction position using buf.walk generalizing pending with
  | past position outside dropEq =>
      rw [deleteLoop, dropEq]
      simp [outside, Reassembler.deleteLoop]
  | here position chunk inside found dropEq ih =>
      rw [deleteLoop, dropEq]
      simp only [inside, if_true, value_bind, value_deref stray buf found, value_ite,
        value_lessen, value_pure, Reassembler.deleteLoop]
      split
      · rw [ih, Nat.add_right_comm, Nat.add_assoc]
      · rfl

theorem value_skipLoop (position clampedBegin : Nat) :
    value (skipLoop stray buf position clampedBegin) =
      Reassembler.skipLoop (buf.entries.drop position) clampedBegin := by
  induction position using buf.walk generalizing clampedBegin with
  | past position outside dropEq =>
      rw [skipLoop, dropEq]
      simp [outside, Reassembler.skipLoop]
  | here position chunk inside found dropEq ih =>
      rw [skipLoop, dropEq]
      simp only [inside, if_true, value_bind, value_deref stray buf found, value_ite,
        value_pure, Reassembler.skipLoop]
      split
      · exact ih _
      · rfl

theorem value_clampEnd (acceptEnd endIndex : Nat) :
    value (clampEnd stray buf acceptEnd endIndex) =
      Reassembler.clampEnd buf acceptEnd endIndex := by
  rw [clampEnd, Reassembler.clampEnd]
  by_cases atBegin : buf.lowerBound endIndex = 0
  · simp [atBegin]
  · obtain ⟨chunk, found, _⟩ := buf.exists_before_lowerBound atBegin
    simp [atBegin, found, value_deref stray buf found]

theorem value_clampBegin (acceptBegin firstIndex : Nat) :
    value (clampBegin stray buf acceptBegin firstIndex) =
      Reassembler.clampBegin buf acceptBegin firstIndex := by
  rw [clampBegin, Reassembler.clampBegin]
  simp only [value_bind, value_stepBack]
  generalize (if buf.upperBound firstIndex ≠ 0 then buf.upperBound firstIndex - 1
    else buf.upperBound firstIndex) = position
  by_cases inside : position < buf.past
  · obtain ⟨chunk, found, _⟩ := buf.exists_entryAt inside
    simp only [found, value_deref stray buf found, value_ite, value_skipLoop, value_pure]
  · -- past the end the guard of the loop makes the stray read harmless
    have missing : buf.entryAt position = none :=
      List.getElem?_eq_none (Nat.not_lt.mp inside)
    simp only [missing, value_ite, value_skipLoop, buf.drop_of_past_le inside,
      Reassembler.skipLoop, value_pure, ite_self]

@[simp] theorem value_clampData (data : List UInt8) (firstIndex clampedBegin clampedEnd : Nat) :
    value (clampData data firstIndex clampedBegin clampedEnd) =
      Reassembler.clampData data firstIndex clampedBegin clampedEnd := rfl

end Results

variable (reassembler : Reassembler)

theorem value_writeToStream (output : ByteStream) :
    value (writeToStream stray reassembler output) = reassembler.writeToStream output := by
  have loop := value_writeLoop stray reassembler.buf 0 output reassembler.bytesPending
  simp only [List.drop_zero, Nat.zero_add] at loop
  rw [writeToStream, value_bind, loop]
  rfl

theorem value_deleteOverlapping (index : Nat) :
    value (deleteOverlapping stray reassembler index) = reassembler.deleteOverlapping index := by
  rw [deleteOverlapping, Reassembler.deleteOverlapping]
  rcases Nat.lt_or_ge (reassembler.buf.find index) reassembler.buf.past with inside | outside
  · obtain ⟨chunk, found, _⟩ := reassembler.buf.exists_entryAt inside
    simp [Nat.ne_of_lt inside, found, value_deref stray _ found, value_deleteLoop]
  · have same := Nat.le_antisymm (reassembler.buf.find_le_past index) outside
    have missing : reassembler.buf.entryAt reassembler.buf.past = none :=
      List.getElem?_eq_none (Nat.le_refl _)
    simp [same, missing]

theorem value_insertToBuffer (acceptBegin len firstIndex : Nat) (data : List UInt8) :
    value (insertToBuffer stray reassembler acceptBegin len firstIndex data) =
      reassembler.insertToBuffer acceptBegin len firstIndex data := by
  simp only [insertToBuffer, Reassembler.insertToBuffer, value_ite, value_bind, value_pure,
    value_clampEnd, value_clampBegin, value_clampData, value_deleteOverlapping]

/-- The watched insertion computes what the insertion computes, whatever a stray read gives. -/
theorem value_insert (firstIndex : Nat) (data : List UInt8) (isLastSubstring : Bool)
    (output : ByteStream) :
    value (insert stray reassembler firstIndex data isLastSubstring output) =
      reassembler.insert firstIndex data isLastSubstring output := by
  simp only [insert, Reassembler.insert, value_bind, value_pure, value_insertToBuffer,
    value_writeToStream]

end Reassembler.Watched

end Minnow.Stream
