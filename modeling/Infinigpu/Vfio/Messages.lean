import Infinigpu.Device.Wire

/-!
# The messages of the device socket (`vfio_user`)

Requests and replies start with the same header of 16 bytes; the fixed part of the body follows, and for some commands
data.  Integers are little-endian.  What is written is read back (`Header.decode_toBytes` and the like).
-/

namespace Infinigpu

namespace Vfio

inductive Command where
  | unknown
  | version
  | dmaMap
  | dmaUnmap
  | deviceGetInfo
  | deviceGetRegionInfo
  | getRegionIoFds
  | getIrqInfo
  | setIrqs
  | regionRead
  | regionWrite
  | dmaRead
  | dmaWrite
  | deviceReset
  | userDirtyPages
deriving DecidableEq, Repr

namespace Command

def toRaw : Command → UInt16
  | unknown => 0
  | version => 1
  | dmaMap => 2
  | dmaUnmap => 3
  | deviceGetInfo => 4
  | deviceGetRegionInfo => 5
  | getRegionIoFds => 6
  | getIrqInfo => 7
  | setIrqs => 8
  | regionRead => 9
  | regionWrite => 10
  | dmaRead => 11
  | dmaWrite => 12
  | deviceReset => 13
  | userDirtyPages => 14

/-- The commands that are handled, by the number on the wire. -/
def serviced (raw : UInt16) : Option Command :=
  [version, dmaMap, dmaUnmap, deviceGetInfo, deviceGetRegionInfo, getIrqInfo, setIrqs, regionRead, regionWrite,
    deviceReset].find? fun c => c.toRaw == raw

end Command

namespace HeaderFlags
def command : UInt32 := 0
def reply : UInt32 := 1
def noReply : UInt32 := 16
def error : UInt32 := 32
end HeaderFlags

def EINVAL : UInt32 := 22

/-- The header, with the command as it is on the wire. -/
structure Header where
  messageId : UInt16
  command : UInt16
  messageSize : UInt32
  flags : UInt32
  error : UInt32
deriving DecidableEq, Repr

namespace Header

def size : Nat := 16

def toBytes (h : Header) : List UInt8 :=
  Bytes.ofValue 2 h.messageId.toNat ++ Bytes.ofValue 2 h.command.toNat ++ Bytes.ofValue 4 h.messageSize.toNat ++
    Bytes.ofValue 4 h.flags.toNat ++ Bytes.ofValue 4 h.error.toNat

def decode (bs : List UInt8) : Header where
  messageId := u16At bs 0
  command := u16At bs 2
  messageSize := u32At bs 4
  flags := u32At bs 8
  error := u32At bs 12

end Header

/-! ### Bodies -/

structure Version where
  major : UInt16
  minor : UInt16
deriving DecidableEq, Repr

structure DmaMap where
  argsz : UInt32
  flags : UInt32
  offset : UInt64
  address : UInt64
  size : UInt64
deriving DecidableEq, Repr

structure DmaUnmap where
  argsz : UInt32
  flags : UInt32
  address : UInt64
  size : UInt64
deriving DecidableEq, Repr

structure DeviceGetInfo where
  argsz : UInt32
  flags : UInt32
  numRegions : UInt32
  numIrqs : UInt32
deriving DecidableEq, Repr

/-- `vfio_region_info` -/
structure RegionInfo where
  argsz : UInt32
  flags : UInt32
  index : UInt32
  capOffset : UInt32
  size : UInt64
  offset : UInt64
deriving DecidableEq, Repr

structure RegionAccess where
  offset : UInt64
  region : UInt32
  count : UInt32
deriving DecidableEq, Repr

structure GetIrqInfo where
  argsz : UInt32
  flags : UInt32
  index : UInt32
  count : UInt32
deriving DecidableEq, Repr

structure SetIrqs where
  argsz : UInt32
  flags : UInt32
  index : UInt32
  start : UInt32
  count : UInt32
deriving DecidableEq, Repr

namespace Version

def size : Nat := 4

def toBytes (m : Version) : List UInt8 := Bytes.ofValue 2 m.major.toNat ++ Bytes.ofValue 2 m.minor.toNat

def decode (bs : List UInt8) : Version where
  major := u16At bs 0
  minor := u16At bs 2

end Version

namespace DmaMap

def bodySize : Nat := 32

def toBytes (m : DmaMap) : List UInt8 :=
  Bytes.ofValue 4 m.argsz.toNat ++ Bytes.ofValue 4 m.flags.toNat ++ Bytes.ofValue 8 m.offset.toNat ++
    Bytes.ofValue 8 m.address.toNat ++ Bytes.ofValue 8 m.size.toNat

def decode (bs : List UInt8) : DmaMap where
  argsz := u32At bs 0
  flags := u32At bs 4
  offset := u64At bs 8
  address := u64At bs 16
  size := u64At bs 24

end DmaMap

namespace DmaUnmap

def bodySize : Nat := 24

def toBytes (m : DmaUnmap) : List UInt8 :=
  Bytes.ofValue 4 m.argsz.toNat ++ Bytes.ofValue 4 m.flags.toNat ++ Bytes.ofValue 8 m.address.toNat ++
    Bytes.ofValue 8 m.size.toNat

def decode (bs : List UInt8) : DmaUnmap where
  argsz := u32At bs 0
  flags := u32At bs 4
  address := u64At bs 8
  size := u64At bs 16

end DmaUnmap

namespace DeviceGetInfo

def bodySize : Nat := 16

def toBytes (m : DeviceGetInfo) : List UInt8 :=
  Bytes.ofValue 4 m.argsz.toNat ++ Bytes.ofValue 4 m.flags.toNat ++ Bytes.ofValue 4 m.numRegions.toNat ++
    Bytes.ofValue 4 m.numIrqs.toNat

def decode (bs : List UInt8) : DeviceGetInfo where
  argsz := u32At bs 0
  flags := u32At bs 4
  numRegions := u32At bs 8
  numIrqs := u32At bs 12

end DeviceGetInfo

namespace RegionInfo

/-- The size of the record, which is the body of `DeviceGetRegionInfo`. -/
def bodySize : Nat := 32

def toBytes (m : RegionInfo) : List UInt8 :=
  Bytes.ofValue 4 m.argsz.toNat ++ Bytes.ofValue 4 m.flags.toNat ++ Bytes.ofValue 4 m.index.toNat ++
    Bytes.ofValue 4 m.capOffset.toNat ++ Bytes.ofValue 8 m.size.toNat ++ Bytes.ofValue 8 m.offset.toNat

def decode (bs : List UInt8) : RegionInfo where
  argsz := u32At bs 0
  flags := u32At bs 4
  index := u32At bs 8
  capOffset := u32At bs 12
  size := u64At bs 16
  offset := u64At bs 24

end RegionInfo

namespace RegionAccess

def bodySize : Nat := 16

def toBytes (m : RegionAccess) : List UInt8 :=
  Bytes.ofValue 8 m.offset.toNat ++ Bytes.ofValue 4 m.region.toNat ++ Bytes.ofValue 4 m.count.toNat

def decode (bs : List UInt8) : RegionAccess where
  offset := u64At bs 0
  region := u32At bs 8
  count := u32At bs 12

end RegionAccess

namespace GetIrqInfo

def bodySize : Nat := 16

def toBytes (m : GetIrqInfo) : List UInt8 :=
  Bytes.ofValue 4 m.argsz.toNat ++ Bytes.ofValue 4 m.flags.toNat ++ Bytes.ofValue 4 m.index.toNat ++
    Bytes.ofValue 4 m.count.toNat

def decode (bs : List UInt8) : GetIrqInfo where
  argsz := u32At bs 0
  flags := u32At bs 4
  index := u32At bs 8
  count := u32At bs 12

end GetIrqInfo

namespace SetIrqs

def bodySize : Nat := 20

def toBytes (m : SetIrqs) : List UInt8 :=
  Bytes.ofValue 4 m.argsz.toNat ++ Bytes.ofValue 4 m.flags.toNat ++ Bytes.ofValue 4 m.index.toNat ++
    Bytes.ofValue 4 m.start.toNat ++ Bytes.ofValue 4 m.count.toNat

def decode (bs : List UInt8) : SetIrqs where
  argsz := u32At bs 0
  flags := u32At bs 4
  index := u32At bs 8
  start := u32At bs 12
  count := u32At bs 16

end SetIrqs

/-! ### What is written is read back -/

@[simp] theorem Header.toBytes_length (h : Header) : h.toBytes.length = Header.size := rfl
@[simp] theorem Version.toBytes_length (m : Version) : m.toBytes.length = Version.size := rfl
@[simp] theorem DmaMap.toBytes_length (m : DmaMap) : m.toBytes.length = DmaMap.bodySize := rfl
@[simp] theorem DmaUnmap.toBytes_length (m : DmaUnmap) : m.toBytes.length = DmaUnmap.bodySize := rfl
@[simp] theorem DeviceGetInfo.toBytes_length (m : DeviceGetInfo) : m.toBytes.length = DeviceGetInfo.bodySize := rfl
@[simp] theorem RegionInfo.toBytes_length (m : RegionInfo) : m.toBytes.length = RegionInfo.bodySize := rfl
@[simp] theorem RegionAccess.toBytes_length (m : RegionAccess) : m.toBytes.length = RegionAccess.bodySize := rfl
@[simp] theorem GetIrqInfo.toBytes_length (m : GetIrqInfo) : m.toBytes.length = GetIrqInfo.bodySize := rfl
@[simp] theorem SetIrqs.toBytes_length (m : SetIrqs) : m.toBytes.length = SetIrqs.bodySize := rfl

theorem Header.decode_toBytes (h : Header) : Header.decode h.toBytes = h := by
  have hid : u16At h.toBytes 0 = h.messageId := Bytes.u16_ofValue _
  have hcmd : u16At h.toBytes 2 = h.command := Bytes.u16_ofValue _
  have hsize : u32At h.toBytes 4 = h.messageSize := Bytes.u32_ofValue _
  have hflags : u32At h.toBytes 8 = h.flags := Bytes.u32_ofValue _
  have herror : u32At h.toBytes 12 = h.error := Bytes.u32_ofValue _
  rw [decode, hid, hcmd, hsize, hflags, herror]

theorem DmaMap.decode_toBytes (m : DmaMap) : decode m.toBytes = m := by
  have hargsz : u32At m.toBytes 0 = m.argsz := Bytes.u32_ofValue _
  have hflags : u32At m.toBytes 4 = m.flags := Bytes.u32_ofValue _
  have hoffset : u64At m.toBytes 8 = m.offset := Bytes.u64_ofValue _
  have haddress : u64At m.toBytes 16 = m.address := Bytes.u64_ofValue _
  have hsize : u64At m.toBytes 24 = m.size := Bytes.u64_ofValue _
  rw [decode, hargsz, hflags, hoffset, haddress, hsize]

theorem DmaUnmap.decode_toBytes (m : DmaUnmap) : decode m.toBytes = m := by
  have hargsz : u32At m.toBytes 0 = m.argsz := Bytes.u32_ofValue _
  have hflags : u32At m.toBytes 4 = m.flags := Bytes.u32_ofValue _
  have haddress : u64At m.toBytes 8 = m.address := Bytes.u64_ofValue _
  have hsize : u64At m.toBytes 16 = m.size := Bytes.u64_ofValue _
  rw [decode, hargsz, hflags, haddress, hsize]

theorem DeviceGetInfo.decode_toBytes (m : DeviceGetInfo) : decode m.toBytes = m := by
  have hargsz : u32At m.toBytes 0 = m.argsz := Bytes.u32_ofValue _
  have hflags : u32At m.toBytes 4 = m.flags := Bytes.u32_ofValue _
  have hregions : u32At m.toBytes 8 = m.numRegions := Bytes.u32_ofValue _
  have hirqs : u32At m.toBytes 12 = m.numIrqs := Bytes.u32_ofValue _
  rw [decode, hargsz, hflags, hregions, hirqs]

theorem RegionInfo.decode_toBytes (m : RegionInfo) : decode m.toBytes = m := by
  have hargsz : u32At m.toBytes 0 = m.argsz := Bytes.u32_ofValue _
  have hflags : u32At m.toBytes 4 = m.flags := Bytes.u32_ofValue _
  have hindex : u32At m.toBytes 8 = m.index := Bytes.u32_ofValue _
  have hcap : u32At m.toBytes 12 = m.capOffset := Bytes.u32_ofValue _
  have hsize : u64At m.toBytes 16 = m.size := Bytes.u64_ofValue _
  have hoffset : u64At m.toBytes 24 = m.offset := Bytes.u64_ofValue _
  rw [decode, hargsz, hflags, hindex, hcap, hsize, hoffset]

theorem RegionAccess.decode_toBytes (m : RegionAccess) : decode m.toBytes = m := by
  have hoffset : u64At m.toBytes 0 = m.offset := Bytes.u64_ofValue _
  have hregion : u32At m.toBytes 8 = m.region := Bytes.u32_ofValue _
  have hcount : u32At m.toBytes 12 = m.count := Bytes.u32_ofValue _
  rw [decode, hoffset, hregion, hcount]

theorem GetIrqInfo.decode_toBytes (m : GetIrqInfo) : decode m.toBytes = m := by
  have hargsz : u32At m.toBytes 0 = m.argsz := Bytes.u32_ofValue _
  have hflags : u32At m.toBytes 4 = m.flags := Bytes.u32_ofValue _
  have hindex : u32At m.toBytes 8 = m.index := Bytes.u32_ofValue _
  have hcount : u32At m.toBytes 12 = m.count := Bytes.u32_ofValue _
  rw [decode, hargsz, hflags, hindex, hcount]

theorem SetIrqs.decode_toBytes (m : SetIrqs) : decode m.toBytes = m := by
  have hargsz : u32At m.toBytes 0 = m.argsz := Bytes.u32_ofValue _
  have hflags : u32At m.toBytes 4 = m.flags := Bytes.u32_ofValue _
  have hindex : u32At m.toBytes 8 = m.index := Bytes.u32_ofValue _
  have hstart : u32At m.toBytes 12 = m.start := Bytes.u32_ofValue _
  have hcount : u32At m.toBytes 16 = m.count := Bytes.u32_ofValue _
  rw [decode, hargsz, hflags, hindex, hstart, hcount]

end Vfio

end Infinigpu
