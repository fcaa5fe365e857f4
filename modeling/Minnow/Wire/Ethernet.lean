import Minnow.Wire.Encoding
import Mathlib.Data.Vector.Basic

/-!
# Ethernet frames
-/

namespace Minnow.Wire

/-- An array of six bytes. -/
abbrev EthernetAddress := List.Vector UInt8 6

/-- ff:ff:ff:ff:ff:ff. -/
def ETHERNET_BROADCAST : EthernetAddress := List.Vector.replicate 6 0xff

/-- The address `EthernetAddress {}`. -/
def EthernetAddress.zero : EthernetAddress := List.Vector.replicate 6 0

namespace EthernetAddress

/-- Read the bytes one by one. -/
def parse (address : EthernetAddress) : ParseM EthernetAddress :=
  address.mmap Parser.integer

def serialize (address : EthernetAddress) (serializer : Serializer) : Serializer :=
  address.toList.foldl Serializer.integer serializer

theorem yields_mmap {n : Nat} (old address : List.Vector UInt8 n) :
    Parser.Yields (old.mmap Parser.integer) address.toList address := by
  induction n with
  | zero =>
      rw [List.Vector.eq_nil address]
      exact Parser.yields_pure _
  | succ n ih =>
      have first := Parser.yields_integer old.head address.head
      have whole : encode address.head ++ (address.tail.toList ++ []) = address.toList := by
        rw [encode_uint8, List.append_nil, List.singleton_append, ← List.Vector.toList_cons,
          List.Vector.cons_head_tail]
      rw [← whole]
      refine first.bind ((ih old.tail address.tail).bind ?_)
      rw [List.Vector.cons_head_tail]
      exact Parser.yields_pure _

/-- Reading an address gives back the one that was written. -/
theorem yields_parse (old address : EthernetAddress) :
    Parser.Yields old.parse address.toList address :=
  yields_mmap old address

end EthernetAddress

structure EthernetHeader where
  dst : EthernetAddress
  src : EthernetAddress
  type : UInt16
  deriving DecidableEq

namespace EthernetHeader

def TYPE_IPv4 : UInt16 := 0x800

def TYPE_ARP : UInt16 := 0x806

def parse (header : EthernetHeader) : ParseM EthernetHeader := do
  let dst ← header.dst.parse
  let src ← header.src.parse
  let type ← Parser.integer header.type
  return ⟨dst, src, type⟩

def serialize (header : EthernetHeader) (serializer : Serializer) : Serializer :=
  (header.src.serialize (header.dst.serialize serializer)).integer header.type

end EthernetHeader

structure EthernetFrame where
  header : EthernetHeader
  payload : List Buffer
  deriving DecidableEq

namespace EthernetFrame

def parse (frame : EthernetFrame) : ParseM EthernetFrame := do
  let header ← frame.header.parse
  return ⟨header, ← Parser.allRemaining⟩

def serialize (frame : EthernetFrame) (serializer : Serializer) : Except Fault Serializer :=
  .ok ((frame.header.serialize serializer).pushBuffers frame.payload)

end EthernetFrame

end Minnow.Wire
