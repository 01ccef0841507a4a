import Infinigpu.Device.Subword
import Infinigpu.Vfio.Server

/-!
# The device behind the socket (`infinigpu-device`, `impl ServerBackend for InfinigpuBackend`)

The device with its configuration space and the eventfds of its interrupt vectors, and the regions and interrupts that
it announces.  What the guest reaches through region 0 are the registers of `Device`.
-/

namespace Infinigpu

namespace Vfio

def pciBar0RegionIndex : UInt32 := 0
def pciBar1RegionIndex : UInt32 := 1
def pciConfigRegionIndex : UInt32 := 7
def pciNumRegions : Nat := 9
def pciMsixIrqIndex : UInt32 := 2
def pciNumIrqs : Nat := 5

def regionInfoFlagRead : UInt32 := 1
def regionInfoFlagWrite : UInt32 := 2
def irqInfoEventfd : UInt32 := 1
def irqSetDataEventfd : UInt32 := 4
def irqSetActionTrigger : UInt32 := 32
def dmaUnmapAll : UInt32 := 4

def BAR0_SIZE : UInt64 := 64 * 1024
def BAR1_SIZE : UInt64 := 16 * 1024

/-! ### The configuration space -/

namespace PciConfig

def configSpaceSize : Nat := 4096
def msixCap : Nat := 0x40
def msixVectors : UInt16 := 64

def vendorId : UInt16 := 0x1b36
def deviceId : UInt16 := 0x0110
def revisionId : UInt8 := 1
def subsystemVendorId : UInt16 := 0x1b36
def subsystemDeviceId : UInt16 := 1
def classDisplayOther : UInt32 := 0x38000

def putU8 (off : Nat) (v : UInt8) (c : List UInt8) : List UInt8 := c.set off v
def putU16 (off : Nat) (v : UInt16) (c : List UInt8) : List UInt8 := Bytes.splice c off (Bytes.ofValue 2 v.toNat)
def putU32 (off : Nat) (v : UInt32) (c : List UInt8) : List UInt8 := Bytes.splice c off (Bytes.ofValue 4 v.toNat)

/-- `config::build` -/
def build : List UInt8 :=
  let c := List.replicate configSpaceSize 0
  let c := putU16 0x00 vendorId c
  let c := putU16 0x02 deviceId c
  let c := putU16 0x06 0x0010 c
  let c := putU8 0x08 revisionId c
  let c := putU8 0x09 (classDisplayOther &&& 0xff).toUInt8 c
  let c := putU8 0x0a (classDisplayOther >>> 8 &&& 0xff).toUInt8 c
  let c := putU8 0x0b (classDisplayOther >>> 16 &&& 0xff).toUInt8 c
  let c := putU8 0x0e 0 c
  let c := putU16 0x2c subsystemVendorId c
  let c := putU16 0x2e subsystemDeviceId c
  let c := putU8 0x34 (UInt8.ofNat msixCap) c
  let c := putU8 msixCap 0x11 c
  let c := putU8 (msixCap + 1) 0 c
  let c := putU16 (msixCap + 2) (msixVectors - 1) c
  let c := putU32 (msixCap + 4) 1 c
  putU32 (msixCap + 8) (0x2000 ||| 1) c

end PciConfig

/-- A file that came over the socket, with the address that mapping a part of it would give. -/
structure File where
  id : Nat
  mmap : UInt64 → UInt64 → Option Nat

/-- The device as the socket sees it. -/
structure Endpoint where
  dev : Device
  config : List UInt8
  msix : List (Option File)

namespace Endpoint

variable (env : Env)

def create (cfg : Device.Config) (broker : Ledger) (mem : Memory) : Endpoint where
  dev := .create cfg broker mem
  config := PciConfig.build
  msix := List.replicate PciConfig.msixVectors.toNat none

private theorem readBar0_length (s : Device) (offset : UInt64) (n : Nat) : (s.readBar0 offset n).length = n := by
  rw [Device.readBar0, gather_eq, List.length_map, List.length_range]

def regionRead (region : UInt32) (offset : UInt64) (n : Nat) (s : Endpoint) :
    Option {data : List UInt8 // data.length = n} × Endpoint :=
  if region = pciConfigRegionIndex then
    (some ⟨(List.range n).map fun i => s.config.getD (offset + UInt64.ofNat i).toNat 0, by simp⟩, s)
  else if region = pciBar0RegionIndex then
    (some ⟨s.dev.readBar0 offset n, readBar0_length s.dev offset n⟩, s)
  else
    (some ⟨List.replicate n 0, List.length_replicate⟩, s)

/-- The configuration space with bytes written from `offset` on, as far as it goes. -/
def writeConfig (offset : UInt64) (data config : List UInt8) : List UInt8 :=
  data.zipIdx.foldl (fun c (b, i) => c.set (offset + UInt64.ofNat i).toNat b) config

def regionWrite (region : UInt32) (offset : UInt64) (data : List UInt8) (s : Endpoint) : Bool × Endpoint :=
  if region = pciConfigRegionIndex then
    (true, { s with config := writeConfig offset data s.config })
  else if region = pciBar0RegionIndex then
    (true, { s with dev := s.dev.writeBar0 env offset data })
  else
    (true, s)

def dmaMap (_flags : UInt32) (offset address size : UInt64) (fd : Option File) (s : Endpoint) : Bool × Endpoint :=
  match fd with
  | some f =>
    let host := f.mmap offset size
    (size == 0 || host.isSome, { s with dev := s.dev.access (.map address size host) })
  | none => (true, s)

def dmaUnmap (flags : UInt32) (address _size : UInt64) (s : Endpoint) : Bool × Endpoint :=
  if flags &&& dmaUnmapAll = dmaUnmapAll then
    (true, { s with dev := s.dev.access .unmapAll })
  else
    (true, { s with dev := s.dev.access (.unmap address) })

def reset (s : Endpoint) : Bool × Endpoint := (true, { s with dev := s.dev.resetState })

/-- The eventfds of the vectors from `start` on. -/
def attachEventfds (start : Nat) (fds : List File) (msix : List (Option File)) : List (Option File) :=
  fds.zipIdx.foldl (fun msix (f, i) => msix.set (start + i) (some f)) msix

def setIrqs (index flags start count : UInt32) (fds : List File) (s : Endpoint) : Bool × Endpoint :=
  if index ≠ pciMsixIrqIndex then
    (true, s)
  else if flags &&& (irqSetDataEventfd ||| irqSetActionTrigger) ≠ 0 ∧ fds ≠ [] then
    (true, { s with msix := attachEventfds start.toNat fds s.msix })
  else
    -- `start..start + count`, where the sum may wrap around
    let vectors := List.range' start.toNat ((start + count).toNat - start.toNat)
    (true, { s with msix := vectors.foldl (fun msix v => msix.set v none) s.msix })

def backend : ServerBackend File Endpoint where
  regionRead := regionRead
  regionWrite := regionWrite env
  dmaMap := dmaMap
  dmaUnmap := dmaUnmap
  reset := reset
  setIrqs := setIrqs

end Endpoint

/-- `build_regions` -/
def buildRegions : List ServerRegion :=
  (List.range pciNumRegions).map fun i =>
    let index := UInt32.ofNat i
    let rw := regionInfoFlagRead ||| regionInfoFlagWrite
    let info (flags : UInt32) (size : UInt64) : RegionInfo :=
      { argsz := UInt32.ofNat RegionInfo.bodySize, flags, index, capOffset := 0, size, offset := 0 }
    { regionInfo :=
        if index = pciBar0RegionIndex then info rw BAR0_SIZE
        else if index = pciBar1RegionIndex then info rw BAR1_SIZE
        else if index = pciConfigRegionIndex then info rw (UInt64.ofNat PciConfig.configSpaceSize)
        else info 0 0
      sparseAreas := [] }

/-- `build_irqs` -/
def buildIrqs : List IrqInfo :=
  (List.range pciNumIrqs).map fun i =>
    let index := UInt32.ofNat i
    if index = pciMsixIrqIndex then { index, flags := irqInfoEventfd, count := PciConfig.msixVectors.toUInt32 }
    else { index, flags := 0, count := 0 }

/-- The server of `serve` and `serve_with_broker`. -/
def Endpoint.server (env : Env) (acceptsCapabilities : List UInt8 → Bool) (versionData : List UInt8) :
    Server File Endpoint where
  backend := Endpoint.backend env
  resettable := true
  irqs := buildIrqs
  regions := buildRegions
  acceptsCapabilities
  versionData

end Vfio

end Infinigpu
