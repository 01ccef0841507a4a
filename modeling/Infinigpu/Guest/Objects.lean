import Infinigpu.Guest.Encoder

/-!
# Objects of the guest driver (`guest/icd`, `infinigpu_private.h`)

Device memories are dumb buffers, named by their GEM handles, and their bytes are seen through a persistent mapping
(`Maps`).  Images and buffers are bound to a part of a memory; a pipeline is what was captured when it was created.
-/

namespace Infinigpu.Icd

def VK_WHOLE_SIZE : UInt64 := 0xFFFFFFFFFFFFFFFF
def MAX_STAGES : Nat := 2
def MAX_ATTRS : Nat := 16

/-! ### Memory -/

/-- The mapped memories, by GEM handle. -/
abbrev Maps := UInt32 → Memory

structure DeviceMemory where
  gemHandle : UInt32
  /-- Whether `map` is not null. -/
  mapped : Bool
deriving DecidableEq, Repr

/-- A pointer into a mapping. -/
structure Ptr where
  handle : UInt32
  at_ : Nat
deriving DecidableEq, Repr

def DeviceMemory.map (m : DeviceMemory) : Option Ptr :=
  if m.mapped then some { handle := m.gemHandle, at_ := 0 } else none

namespace Ptr

def add (p : Ptr) (n : Nat) : Ptr := { p with at_ := p.at_ + n }

/-- The `n` bytes behind a pointer. -/
def load (maps : Maps) (p : Ptr) (n : UInt32) : Counted UInt8 where
  items := (maps p.handle).load p.at_ n.toNat
  lt := by rw [Memory.load_length]; exact n.toNat_lt

@[simp] theorem load_length (maps : Maps) (p : Ptr) (n : UInt32) : (p.load maps n).items.length = n.toNat :=
  Memory.load_length _ _ _

/-- `memcpy` into a mapping. -/
def store (maps : Maps) (p : Ptr) (bs : List UInt8) : Maps :=
  Function.update maps p.handle ((maps p.handle).store p.at_ bs)

end Ptr

/-! ### Images and buffers -/

structure Image where
  format : UInt32
  /-- `vk_format_get_blocksize` of the format. -/
  blocksize : UInt32
  width : UInt32
  height : UInt32
  arrayLayers : UInt32
  /-- The bytes of all layers. -/
  size : UInt64
  rowPitch : UInt32
  mem : Option DeviceMemory
  memOffset : UInt64
deriving DecidableEq, Repr

structure ImageView where
  image : Option Image
deriving DecidableEq, Repr

structure Buffer where
  mem : Option DeviceMemory
  offset : UInt64
  totalSize : UInt64
deriving DecidableEq, Repr

/-- The mapping of the memory behind an image, at the image. -/
def Image.map (img : Image) : Option Ptr := (img.mem.bind DeviceMemory.map).map (·.add img.memOffset.toNat)

/-- `map` of a buffer, as `BindBufferMemory2` sets it. -/
def Buffer.map (b : Buffer) : Option Ptr := (b.mem.bind DeviceMemory.map).map (·.add b.offset.toNat)

structure Sampler where
  linear : Bool
  «repeat» : Bool
deriving DecidableEq, Repr

/-! ### Pipelines -/

inductive ShaderStage where
  | vertex
  | fragment
  | other
deriving DecidableEq, Repr

inductive PrimitiveTopology where
  | triangleList
  | triangleStrip
  | other
deriving DecidableEq, Repr

inductive FrontFace where
  | counterClockwise
  | clockwise
deriving DecidableEq, Repr

/-- A captured stage: the entry name and the whole words of the `spirvSize` bytes of SPIR-V. -/
structure PipelineStage where
  stage : ShaderStage
  entrypoint : CString
  /-- A string lies in memory. -/
  entrypoint_lt : entrypoint.chars.length < 2 ^ 62
  spirvSize : UInt32
  spirv : List UInt32
  spirv_length : spirv.length = spirvSize.toNat / 4

structure Pipeline where
  topology : PrimitiveTopology
  stages : List PipelineStage
  stages_le : stages.length ≤ MAX_STAGES
  vertexStride : UInt32
  attrs : List VertexAttr
  attrs_le : attrs.length ≤ MAX_ATTRS
  depthFlags : UInt32
  rasterFlags : UInt32
  dynamicMask : UInt32

/-- The words that are given to the encoder. -/
def PipelineStage.words (s : PipelineStage) : Counted UInt32 where
  items := s.spirv
  lt := by
    have hlen := s.spirv_length
    have hlt := s.spirvSize.toNat_lt
    omega

theorem PipelineStage.words_lt (s : PipelineStage) : s.words.items.length * 4 < 2 ^ 32 := by
  have hlen : s.words.items.length = s.spirvSize.toNat / 4 := s.spirv_length
  have hlt := s.spirvSize.toNat_lt
  omega

end Infinigpu.Icd
