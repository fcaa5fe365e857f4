import Minnow.Wire.IPv4Parsing
import Minnow.Wire.LinkCodec
import Minnow.Wire.Scanning

/-!
# Packets through a file descriptor

A device takes the bytes of a `writev` for one packet, and gives one packet to each `readv`,
which fills the buffers one after the other.  However long the packet is, the buffers that are
returned can be read by every parser.
-/

namespace Minnow.Wire

/-- The bytes that go through a device at once. -/
abbrev Packet := List UInt8

namespace FileDescriptor

def kReadBufferSize : Nat := 16384

/-- The buffers are filled in turn, and keep what the packet does not cover. -/
def readv : List Buffer → Packet → List Buffer
  | [], _ => []
  | buf :: bufs, packet =>
      (packet.take buf.length ++ buf.drop packet.length) :: readv bufs (packet.drop buf.length)

/-- The loop that cuts the buffers to the bytes that were read. -/
def resizeLoop : Nat → List Buffer → List Buffer
  | _, [] => []
  | remainingSize, buf :: bufs =>
      if buf.length ≤ remainingSize then buf :: resizeLoop (remainingSize - buf.length) bufs
      else buf.take remainingSize :: resizeLoop 0 bufs

/-- The last buffer is cleared and gets its full size. -/
def resizeBack : List Buffer → List Buffer
  | [] => []
  | [_] => [List.replicate kReadBufferSize 0]
  | buf :: next :: bufs => buf :: resizeBack (next :: bufs)

/-- What a read of a packet makes of the buffers. -/
def read (buffers : List Buffer) (packet : Packet) : List Buffer :=
  let sized := resizeBack buffers
  resizeLoop (min packet.length sized.flatten.length) (readv sized packet)

/-- The packet of a write. -/
def write (buffers : List Buffer) : Packet := buffers.flatten

/-! ## The pieces of a packet -/

/-- A packet cut into pieces of these sizes. -/
def pieces : List Nat → Packet → List Buffer
  | [], _ => []
  | size :: sizes, packet => packet.take size :: pieces sizes (packet.drop size)

theorem resizeLoop_zero (buffers : List Buffer) :
    resizeLoop 0 buffers = pieces (buffers.map List.length) [] := by
  induction buffers with
  | nil => rfl
  | cons buf bufs ih =>
      rw [resizeLoop, Nat.zero_sub, ih, List.take_zero, List.map_cons, pieces, List.take_nil,
        List.drop_nil]
      split
      · rename_i none
        rw [List.length_eq_zero_iff.mp (Nat.le_zero.mp none)]
      · rfl

theorem map_length_readv (buffers : List Buffer) (packet : Packet) :
    (readv buffers packet).map List.length = buffers.map List.length := by
  induction buffers generalizing packet with
  | nil => rfl
  | cons buf bufs ih =>
      rw [readv, List.map_cons, List.map_cons, ih, List.length_append, List.length_take,
        List.length_drop]
      congr 1
      omega

/-- Filling the buffers and cutting them again leaves just the packet. -/
theorem resizeLoop_readv (buffers : List Buffer) (packet : Packet) :
    resizeLoop (min packet.length buffers.flatten.length) (readv buffers packet) =
      pieces (buffers.map List.length) packet := by
  induction buffers generalizing packet with
  | nil => rfl
  | cons buf bufs ih =>
      have filled : (packet.take buf.length ++ buf.drop packet.length).length = buf.length := by
        rw [List.length_append, List.length_take, List.length_drop]
        omega
      rw [readv, resizeLoop, filled, List.flatten_cons, List.length_append, List.map_cons, pieces]
      rcases Nat.le_total buf.length packet.length with covered | partly
      · have left : min packet.length (buf.length + bufs.flatten.length) - buf.length =
            min (packet.drop buf.length).length bufs.flatten.length := by
          rw [List.length_drop]
          omega
        rw [if_pos (by omega), left, ih, List.drop_eq_nil_of_le covered, List.append_nil]
      · have all : min packet.length (buf.length + bufs.flatten.length) = packet.length := by omega
        rw [all, List.drop_eq_nil_of_le partly, List.take_of_length_le partly]
        split
        · rename_i whole
          have exactly : packet.length = buf.length := Nat.le_antisymm partly whole
          have nothing := ih []
          rw [List.length_nil, Nat.zero_min] at nothing
          rw [exactly, Nat.sub_self, nothing, List.drop_length, List.append_nil]
        · rw [List.take_left, resizeLoop_zero, map_length_readv]

theorem read_eq (buffers : List Buffer) (packet : Packet) :
    read buffers packet = pieces ((resizeBack buffers).map List.length) packet :=
  resizeLoop_readv (resizeBack buffers) packet

theorem flatten_pieces (sizes : List Nat) (packet : Packet) :
    (pieces sizes packet).flatten = packet.take sizes.sum := by
  induction sizes generalizing packet with
  | nil => rfl
  | cons size sizes ih =>
      rw [pieces, List.flatten_cons, ih, List.sum_cons, List.take_add]

theorem solid_pieces {sizes : List Nat} (positive : ∀ size ∈ sizes, 0 < size) {count : Nat}
    {packet : Packet} (enough : count ≤ packet.length) : Solid count (pieces sizes packet) := by
  induction sizes generalizing count packet with
  | nil => exact True.intro
  | cons size sizes ih =>
      obtain ⟨some, others⟩ := List.forall_mem_cons.mp positive
      rcases Nat.eq_zero_or_pos count with none | needed
      · exact Or.inl none
      · refine Or.inr ⟨?_, ih others ?_⟩
        · rw [ne_eq, ← List.length_eq_zero_iff, List.length_take]
          omega
        · rw [List.length_take, List.length_drop]
          omega

end FileDescriptor

/-! ## Firm buffers -/

/-- No buffer is empty where bytes come after it. -/
def Firm (buffers : List Buffer) : Prop := Solid buffers.flatten.length buffers

theorem Firm.readable {buffers : List Buffer} (firm : Firm buffers) (count : Nat) :
    Readable count buffers :=
  Solid.of_le firm (Nat.min_le_right _ _)

theorem FileDescriptor.firm_pieces {sizes : List Nat} (positive : ∀ size ∈ sizes, 0 < size)
    (packet : Packet) : Firm (pieces sizes packet) := by
  refine solid_pieces positive ?_
  rw [flatten_pieces, List.length_take]
  exact Nat.min_le_right _ _

namespace Parser

variable {parser : Parser} {whole : List UInt8} {used count : Nat}

/-- The buffers behind what was read are still firm. -/
theorem Scanned.firm (scanned : Scanned whole used whole.length parser)
    (within : used ≤ whole.length) : Firm parser.input.unread := by
  have solid := scanned.solid within
  rw [Nat.min_eq_right (Nat.sub_le _ _)] at solid
  rw [Firm, BufferList.unread_flatten, scanned.remaining within, List.length_drop]
  exact solid

end Parser

end Minnow.Wire
