import Infinigpu.Device.Dma

/-!
# Wire messages (`infinigpu-abi`, `wire.rs`)

The fixed little-endian records the guest writes and the device reads, with the tags and bits it compares them
with.  Floats travel as their bit patterns.  `readFromPrefix` is `read_from_prefix` of the source: the record at the
front of a byte string, and what follows it, if the string is long enough.
-/

namespace Infinigpu

namespace MsgType
def resourceCreateBlob : UInt32 := 0x20
def resourceAttachBacking : UInt32 := 0x21
def resourceDestroy : UInt32 := 0x24
def submitCmd : UInt32 := 0x30
def setScanoutBlob : UInt32 := 0x40
def resourceFlush : UInt32 := 0x41
def cursorUpdate : UInt32 := 0x42
end MsgType

namespace Encoding
def vulkanVenuslike : UInt32 := 1
def displayClear : UInt32 := 0x100
def displayScanout : UInt32 := 0x101
def displayScanoutDamage : UInt32 := 0x102
end Encoding

namespace Format
def b8g8r8a8 : UInt32 := 1
def r8g8b8a8 : UInt32 := 2
end Format

namespace VkOp
def triangle : UInt32 := 1
def forwarded : UInt32 := 2
def forwardedCmdlist : UInt32 := 3
end VkOp

namespace DescFlags
def payloadAbs : UInt32 := 4
end DescFlags

namespace CursorFlags
def visible : UInt32 := 1
def moveOnly : UInt32 := 2
def shapeByResid : UInt32 := 4
def premultiplied : UInt32 := 8
def warp : UInt32 := 16
def relative : UInt32 := 32
end CursorFlags

/-! ### Reading fields -/

def u16At (bs : List UInt8) (i : Nat) : UInt16 := Bytes.u16 (Bytes.slice bs i 2)

def u32At (bs : List UInt8) (i : Nat) : UInt32 := Bytes.u32 (Bytes.slice bs i 4)

def u64At (bs : List UInt8) (i : Nat) : UInt64 := Bytes.u64 (Bytes.slice bs i 8)

/-- A record of `size` bytes at the front of a byte string, and the rest of it. -/
def readFromPrefix {α : Type*} (size : Nat) (decode : List UInt8 → α) (bs : List UInt8) :
    Option (α × List UInt8) :=
  if bs.length < size then none else some (decode (bs.take size), bs.drop size)

/-- A buffer of `size` zero bytes with `bs` copied to its front. -/
def zeroFilled (size : Nat) (bs : List UInt8) : List UInt8 := bs ++ List.replicate (size - bs.length) 0

/-- How much of a record of `size` bytes a message claims to carry; zero stands for all of it. -/
def claimed (len : UInt32) (size : Nat) : Nat := if len = 0 then size else min len.toNat size

/-! ### Records -/

structure Descriptor where
  msgType : UInt32
  flags : UInt32
  len : UInt32
  dataOffset : UInt32
  seqno : UInt64
  payloadAddr : UInt64
deriving DecidableEq, Repr

def Descriptor.decode (bs : List UInt8) : Descriptor where
  msgType := u32At bs 0
  flags := u32At bs 4
  len := u32At bs 8
  dataOffset := u32At bs 12
  seqno := u64At bs 16
  payloadAddr := u64At bs 24

/-- The descriptor in a ring slot. -/
def Descriptor.ofSlot (slot : Fin descriptorSize → UInt8) : Descriptor := .decode (List.ofFn slot)

structure Rgba where
  r : UInt32
  g : UInt32
  b : UInt32
  a : UInt32
deriving DecidableEq, Repr

def Rgba.decode (bs : List UInt8) : Rgba where
  r := u32At bs 0
  g := u32At bs 4
  b := u32At bs 8
  a := u32At bs 12

structure SubmitCmd where
  ctxId : UInt32
  encoding : UInt32
  payloadLen : UInt32
  flags : UInt32
  seqno : UInt64
  inFence : UInt64
  outFence : UInt64
deriving DecidableEq, Repr

namespace SubmitCmd

def size : Nat := 40

def decode (bs : List UInt8) : SubmitCmd where
  ctxId := u32At bs 0
  encoding := u32At bs 4
  payloadLen := u32At bs 8
  flags := u32At bs 12
  seqno := u64At bs 16
  inFence := u64At bs 24
  outFence := u64At bs 32

end SubmitCmd

structure ClearPresent where
  width : UInt32
  height : UInt32
  rgba : Rgba
  scanoutAddr : UInt64
deriving DecidableEq, Repr

namespace ClearPresent

def size : Nat := 32

def decode (bs : List UInt8) : ClearPresent where
  width := u32At bs 0
  height := u32At bs 4
  rgba := .decode (Bytes.slice bs 8 16)
  scanoutAddr := u64At bs 24

end ClearPresent

structure ScanoutPresent where
  width : UInt32
  height : UInt32
  pitch : UInt32
  format : UInt32
  scanoutAddr : UInt64
deriving DecidableEq, Repr

namespace ScanoutPresent

def size : Nat := 24

def decode (bs : List UInt8) : ScanoutPresent where
  width := u32At bs 0
  height := u32At bs 4
  pitch := u32At bs 8
  format := u32At bs 12
  scanoutAddr := u64At bs 16

end ScanoutPresent

/-- A `ScanoutPresent` with the damaged rectangle. -/
structure ScanoutPresentDamaged extends ScanoutPresent where
  dx : UInt32
  dy : UInt32
  dw : UInt32
  dh : UInt32
deriving DecidableEq, Repr

namespace ScanoutPresentDamaged

def size : Nat := 40

def decode (bs : List UInt8) : ScanoutPresentDamaged where
  toScanoutPresent := .decode bs
  dx := u32At bs 24
  dy := u32At bs 28
  dw := u32At bs 32
  dh := u32At bs 36

end ScanoutPresentDamaged

structure VulkanWorkload where
  op : UInt32
  width : UInt32
  height : UInt32
  bg : Rgba
  scanoutAddr : UInt64
deriving DecidableEq, Repr

namespace VulkanWorkload

def size : Nat := 40

def decode (bs : List UInt8) : VulkanWorkload where
  op := u32At bs 0
  width := u32At bs 4
  height := u32At bs 8
  bg := .decode (Bytes.slice bs 16 16)
  scanoutAddr := u64At bs 32

end VulkanWorkload

structure CursorUpdate where
  scanoutId : UInt32
  flags : UInt32
  posX : Int32
  posY : Int32
  hotX : UInt16
  hotY : UInt16
  width : UInt16
  height : UInt16
  pitch : UInt32
  format : UInt32
  shapeRef : UInt64
deriving DecidableEq

namespace CursorUpdate

def size : Nat := 48

def decode (bs : List UInt8) : CursorUpdate where
  scanoutId := u32At bs 0
  flags := u32At bs 4
  posX := (u32At bs 8).toInt32
  posY := (u32At bs 12).toInt32
  hotX := u16At bs 16
  hotY := u16At bs 18
  width := u16At bs 20
  height := u16At bs 22
  pitch := u32At bs 24
  format := u32At bs 28
  shapeRef := u64At bs 32

end CursorUpdate

structure ResourceCreateBlob where
  resId : UInt32
  ctxId : UInt32
  blobMem : UInt32
  blobFlags : UInt32
  size : UInt64
deriving DecidableEq, Repr

def ResourceCreateBlob.decode (bs : List UInt8) : ResourceCreateBlob where
  resId := u32At bs 0
  ctxId := u32At bs 4
  blobMem := u32At bs 8
  blobFlags := u32At bs 12
  size := u64At bs 16

structure AttachBacking where
  resId : UInt32
  numEntries : UInt32
deriving DecidableEq, Repr

def AttachBacking.decode (bs : List UInt8) : AttachBacking where
  resId := u32At bs 0
  numEntries := u32At bs 4

structure MemEntry where
  addr : UInt64
  length : UInt64
deriving DecidableEq, Repr

def MemEntry.decode (bs : List UInt8) : MemEntry where
  addr := u64At bs 0
  length := u64At bs 8

structure SetScanoutBlob where
  scanoutId : UInt32
  resId : UInt32
  width : UInt32
  height : UInt32
  format : UInt32
  stride : UInt32
deriving DecidableEq, Repr

def SetScanoutBlob.decode (bs : List UInt8) : SetScanoutBlob where
  scanoutId := u32At bs 0
  resId := u32At bs 4
  width := u32At bs 8
  height := u32At bs 12
  format := u32At bs 16
  stride := u32At bs 20

structure ResourceFlush where
  resId : UInt32
  x : UInt32
  y : UInt32
  w : UInt32
  h : UInt32
deriving DecidableEq, Repr

def ResourceFlush.decode (bs : List UInt8) : ResourceFlush where
  resId := u32At bs 0
  x := u32At bs 4
  y := u32At bs 8
  w := u32At bs 12
  h := u32At bs 16

end Infinigpu
