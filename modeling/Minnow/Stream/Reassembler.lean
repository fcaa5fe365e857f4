import Minnow.Foundation.OrderedMap
import Minnow.Foundation.Chunks
import Minnow.Stream.ByteStream

/-!
# The reassembler

Substrings arrive with the index of their first byte; the chunks that cannot be
written yet are kept in an ordered map.  Iterators of the source are positions of
the map, its loops over iterators are recursions over the entries from a position.
-/

namespace Minnow.Stream

open Foundation Foundation.Words

/-- `UINT64_MAX`, the stream end before it is known. -/
def unknownEnd : Nat := 2 ^ 64 - 1

structure Reassembler where
  buf : OrderedMap Nat (List UInt8)
  bytesPending : Nat
  streamEnd : Nat
  deriving DecidableEq

namespace Reassembler

def new : Reassembler := ⟨OrderedMap.empty, 0, unknownEnd⟩

/-- Push the leading chunks that start at the write position.  The result is the
number of chunks pushed, the stream and the pending count. -/
def writeLoop : List (Nat × List UInt8) → ByteStream → Nat → Nat × ByteStream × Nat
  | [], output, pending => (0, output, pending)
  | (start, data) :: rest, output, pending =>
      if start = output.bytesPushed then
        let inner := writeLoop rest (output.push data) (sub64 pending data.length)
        (inner.1 + 1, inner.2)
      else (0, output, pending)

def writeToStream (reassembler : Reassembler) (output : ByteStream) : Reassembler × ByteStream :=
  let loop := writeLoop reassembler.buf.entries output reassembler.bytesPending
  ({ reassembler with buf := reassembler.buf.eraseRange 0 loop.1, bytesPending := loop.2.2 },
    loop.2.1)

/-- Step over the chunks that end by `endIndex`: how many, and the pending count
without them. -/
def deleteLoop (endIndex : Nat) : List (Nat × List UInt8) → Nat → Nat × Nat
  | [], pending => (0, pending)
  | (start, data) :: rest, pending =>
      if add64 start data.length ≤ endIndex then
        let inner := deleteLoop endIndex rest (sub64 pending data.length)
        (inner.1 + 1, inner.2)
      else (0, pending)

def deleteOverlapping (reassembler : Reassembler) (index : Nat) : Reassembler :=
  let position := reassembler.buf.find index
  match reassembler.buf.entryAt position with
  | none => reassembler
  | some (start, data) =>
      let endIndex := add64 data.length start
      let first := position + 1
      let loop := deleteLoop endIndex (reassembler.buf.entries.drop first) reassembler.bytesPending
      { reassembler with
        buf := reassembler.buf.eraseRange first (first + loop.1)
        bytesPending := loop.2 }

/-- Clamp the end of the data: to the window, or, when a chunk starts before the
end of the data, to that chunk alone. -/
def clampEnd (buf : OrderedMap Nat (List UInt8)) (acceptEnd endIndex : Nat) : Nat :=
  let clampedEnd := if acceptEnd < endIndex then acceptEnd else endIndex
  let position := buf.lowerBound endIndex
  if position ≠ 0 then
    match buf.entryAt (position - 1) with
    | some (start, data) => if endIndex ≤ add64 start data.length then start else endIndex
    | none => clampedEnd
  else clampedEnd

/-- Move the begin of the data over the chunks that start at or before it. -/
def skipLoop : List (Nat × List UInt8) → Nat → Nat
  | [], clampedBegin => clampedBegin
  | (start, data) :: rest, clampedBegin =>
      if start ≤ clampedBegin then skipLoop rest (add64 start data.length) else clampedBegin

/-- Clamp the begin of the data.  On an empty map the source reads through the end
iterator; the loop it guards then stops at once, whatever the read gives. -/
def clampBegin (buf : OrderedMap Nat (List UInt8)) (acceptBegin firstIndex : Nat) : Nat :=
  let clampedBegin := if firstIndex < acceptBegin then acceptBegin else firstIndex
  let position := buf.upperBound firstIndex
  let position := if position ≠ 0 then position - 1 else position
  match buf.entryAt position with
  | some (start, data) =>
      if clampedBegin < add64 start data.length then
        skipLoop (buf.entries.drop position) clampedBegin
      else clampedBegin
  | none => clampedBegin

/-- The two erasures: everything from `clampedEnd` on, then everything before
`clampedBegin`. -/
def clampData (data : List UInt8) (firstIndex clampedBegin clampedEnd : Nat) : List UInt8 :=
  (data.take (clampedEnd - firstIndex)).drop (clampedBegin - firstIndex)

def insertToBuffer (reassembler : Reassembler) (acceptBegin len firstIndex : Nat)
    (data : List UInt8) : Reassembler :=
  let acceptEnd := add64 acceptBegin len
  if acceptEnd ≤ firstIndex then reassembler
  else
    let endIndex := add64 firstIndex data.length
    let clampedEnd := clampEnd reassembler.buf acceptEnd endIndex
    let clampedBegin := clampBegin reassembler.buf acceptBegin firstIndex
    if clampedEnd ≤ clampedBegin then reassembler
    else
      let piece := clampData data firstIndex clampedBegin clampedEnd
      deleteOverlapping
        { reassembler with
          buf := reassembler.buf.assign clampedBegin piece
          bytesPending := add64 reassembler.bytesPending piece.length }
        clampedBegin

/-- Record the end announced by a last substring. -/
def noteEnd (reassembler : Reassembler) (firstIndex : Nat) (data : List UInt8)
    (isLastSubstring : Bool) : Reassembler :=
  if isLastSubstring then { reassembler with streamEnd := add64 firstIndex data.length }
  else reassembler

def insert (reassembler : Reassembler) (firstIndex : Nat) (data : List UInt8)
    (isLastSubstring : Bool) (output : ByteStream) : Reassembler × ByteStream :=
  let noted := reassembler.noteEnd firstIndex data isLastSubstring
  let stored := noted.insertToBuffer output.bytesPushed output.availableCapacity firstIndex data
  let written := stored.writeToStream output
  if written.2.bytesPushed = written.1.streamEnd ∧ written.2.isClosed = false then
    (written.1, written.2.close)
  else written

end Reassembler

end Minnow.Stream
