import Infinigpu.Device.Wire

/-!
# Forwarded draws (`infinigpu-device`, `decode_forwarded` and `decode_forwarded_cmdlist`)

The tails and trailing sections that follow a `VulkanWorkload` in a forwarded 3D submission, and the two decoders.
Every declared length is compared with the bytes that are there; `none` is a rejected payload.  Entry names are the
bytes before the first NUL.
-/

namespace Infinigpu

def MAX_TEXTURES : Nat := 8
def MAX_SSBO_BYTES : Nat := 16 * 1024 * 1024
def SPIRV_MAGIC : UInt32 := 0x07230203

namespace DepthFlags
def test : UInt32 := 1
def write : UInt32 := 2
def compareShift : UInt32 := 4
def compareMask : UInt32 := 0x70
end DepthFlags

namespace SamplerFlags
def linear : UInt32 := 1
def «repeat» : UInt32 := 2
end SamplerFlags

namespace IndexType
def u32 : UInt32 := 1
end IndexType

/-! ### The decoded draw -/

structure VertexAttr where
  location : UInt32
  format : UInt32
  offset : UInt32
deriving DecidableEq, Repr

structure DrawCmd where
  count : UInt32
  instanceCount : UInt32
  first : UInt32
  vertexOffset : Int32
  viewport : Rgba
deriving DecidableEq

structure DepthState where
  test : Bool
  write : Bool
  compare : UInt32
deriving DecidableEq, Repr

structure OwnedTexture where
  width : UInt32
  height : UInt32
  rgba : List UInt8
  linear : Bool
  «repeat» : Bool
deriving DecidableEq, Repr

structure OwnedUniform where
  binding : UInt32
  bytes : List UInt8
deriving DecidableEq, Repr

structure OwnedStorage where
  binding : UInt32
  bytes : List UInt8
deriving DecidableEq, Repr

structure OwnedGeometry where
  vertexData : List UInt8
  vertexStride : UInt32
  attrs : List VertexAttr
  indexData : List UInt8
  indexU32 : Bool
  draws : List DrawCmd
  depth : Option DepthState
  pushConstants : List UInt8
  textures : List OwnedTexture
  texBinding : UInt32
  uniforms : List OwnedUniform
  storage : Option OwnedStorage
  rasterFlags : UInt32
deriving DecidableEq

structure OwnedForwardedDraw where
  vertexSpirv : List UInt32
  fragmentSpirv : List UInt32
  vertexEntry : List UInt8
  fragmentEntry : List UInt8
  vertexCount : UInt32
  topology : UInt32
  geometry : Option OwnedGeometry
deriving DecidableEq

/-! ### Pieces of both decoders -/

/-- `chunks_exact(4)`, each chunk a word. -/
def toWords : List UInt8 → List UInt32
  | b₀ :: b₁ :: b₂ :: b₃ :: rest => Bytes.u32 [b₀, b₁, b₂, b₃] :: toWords rest
  | _ => []

/-- The bytes before the first NUL, if there is one. -/
def cstr (bs : List UInt8) : Option (List UInt8) := (bs.idxOf? 0).map bs.take

/-- A chain of `checked_add` on `usize`. -/
def checkedSum : List Nat → Nat → Option Nat
  | [], acc => some acc
  | n :: ns, acc => if acc + n < 2 ^ 64 then checkedSum ns (acc + n) else none

/-- `checked_mul` on `usize`. -/
def checkedMul (a b : Nat) : Option Nat := if a * b < 2 ^ 64 then some (a * b) else none

/-- `n` records of `size` bytes, one after another. -/
def readArray {α : Type*} (size : Nat) (decode : List UInt8 → α) : Nat → List UInt8 → Option (List α)
  | 0, _ => some []
  | n + 1, bs => (readFromPrefix size decode bs).bind fun (a, rest) => (readArray size decode n rest).map (a :: ·)

/-- The lengths every shader stage must keep to. -/
def badStages (vlen flen velen felen maxBytes : Nat) : Prop :=
  vlen = 0 ∨ flen = 0 ∨ ¬ 4 ∣ vlen ∨ ¬ 4 ∣ flen ∨ vlen > maxBytes ∨ flen > maxBytes ∨
    velen = 0 ∨ felen = 0 ∨ velen > 256 ∨ felen > 256

instance (vlen flen velen felen maxBytes : Nat) : Decidable (badStages vlen flen velen felen maxBytes) := by
  unfold badStages; infer_instance

/-! ### `decode_forwarded` -/

structure ForwardedDrawTail where
  vertexCount : UInt32
  topology : UInt32
  vertexSpirvLen : UInt32
  fragmentSpirvLen : UInt32
  vertexEntryLen : UInt32
  fragmentEntryLen : UInt32
deriving DecidableEq, Repr

def ForwardedDrawTail.decode (bs : List UInt8) : ForwardedDrawTail where
  vertexCount := u32At bs 0
  topology := u32At bs 4
  vertexSpirvLen := u32At bs 8
  fragmentSpirvLen := u32At bs 12
  vertexEntryLen := u32At bs 16
  fragmentEntryLen := u32At bs 20

def decodeForwarded (payload : List UInt8) (maxBytes : Nat) : Option OwnedForwardedDraw :=
  if payload.length < VulkanWorkload.size then
    none
  else
    match readFromPrefix 24 ForwardedDrawTail.decode (payload.drop VulkanWorkload.size) with
    | none => none
    | some (tail, rest) =>
      let vlen := tail.vertexSpirvLen.toNat
      let flen := tail.fragmentSpirvLen.toNat
      let velen := tail.vertexEntryLen.toNat
      let felen := tail.fragmentEntryLen.toNat
      if badStages vlen flen velen felen maxBytes then
        none
      else
        match checkedSum [flen, velen, felen] vlen with
        | none => none
        | some total =>
          if total > rest.length then
            none
          else
            let vertexSpirv := toWords (rest.take vlen)
            let fragmentSpirv := toWords (Bytes.slice rest vlen flen)
            let ventry := Bytes.slice rest (vlen + flen) velen
            let fentry := Bytes.slice rest (vlen + flen + velen) felen
            if vertexSpirv.head? ≠ some SPIRV_MAGIC ∨ fragmentSpirv.head? ≠ some SPIRV_MAGIC then
              none
            else
              match cstr ventry, cstr fentry with
              | some vertexEntry, some fragmentEntry =>
                some
                  { vertexSpirv
                    fragmentSpirv
                    vertexEntry
                    fragmentEntry
                    vertexCount := tail.vertexCount
                    topology := tail.topology
                    geometry := none }
              | _, _ => none

/-! ### `decode_forwarded_cmdlist` -/

structure ForwardedCmdListTail where
  vertexSpirvLen : UInt32
  fragmentSpirvLen : UInt32
  vertexEntryLen : UInt32
  fragmentEntryLen : UInt32
  vertexStride : UInt32
  attrCount : UInt32
  vertexDataLen : UInt32
  indexDataLen : UInt32
  indexType : UInt32
  drawCount : UInt32
  topology : UInt32
  depthFlags : UInt32
  pushConstLen : UInt32
  texCount : UInt32
  uboLen : UInt32
  uboCount : UInt32
  texBinding : UInt32
  rasterFlags : UInt32
  ssboLen : UInt32
  ssboBinding : UInt32
deriving DecidableEq, Repr

def ForwardedCmdListTail.decode (bs : List UInt8) : ForwardedCmdListTail where
  vertexSpirvLen := u32At bs 0
  fragmentSpirvLen := u32At bs 4
  vertexEntryLen := u32At bs 8
  fragmentEntryLen := u32At bs 12
  vertexStride := u32At bs 16
  attrCount := u32At bs 20
  vertexDataLen := u32At bs 24
  indexDataLen := u32At bs 28
  indexType := u32At bs 32
  drawCount := u32At bs 36
  topology := u32At bs 40
  depthFlags := u32At bs 44
  pushConstLen := u32At bs 48
  texCount := u32At bs 52
  uboLen := u32At bs 56
  uboCount := u32At bs 60
  texBinding := u32At bs 64
  rasterFlags := u32At bs 68
  ssboLen := u32At bs 72
  ssboBinding := u32At bs 76

def VertexAttr.decode (bs : List UInt8) : VertexAttr where
  location := u32At bs 0
  format := u32At bs 4
  offset := u32At bs 8

def DrawCmd.decode (bs : List UInt8) : DrawCmd where
  count := u32At bs 0
  instanceCount := u32At bs 4
  first := u32At bs 8
  vertexOffset := (u32At bs 12).toInt32
  viewport := .decode (Bytes.slice bs 16 16)

structure TextureDesc where
  width : UInt32
  height : UInt32
  dataLen : UInt32
  samplerFlags : UInt32
deriving DecidableEq, Repr

def TextureDesc.decode (bs : List UInt8) : TextureDesc where
  width := u32At bs 0
  height := u32At bs 4
  dataLen := u32At bs 8
  samplerFlags := u32At bs 12

/-- A binding that falls among those of the textures. -/
def inTexRange (texCount : Nat) (texBinding b : UInt32) : Bool :=
  decide (texCount > 0) && decide (b ≥ texBinding) &&
    decide (b.toNat < min (texBinding.toNat + 2 * texCount) (2 ^ 32 - 1))

/-- The textures, their descriptors from `texs` and their pixels one after another from `pix`. -/
def readTextures (maxBytes : Nat) : Nat → List UInt8 → List UInt8 → Option (List OwnedTexture)
  | 0, _, _ => some []
  | n + 1, texs, pix =>
    match readFromPrefix 16 TextureDesc.decode texs with
    | none => none
    | some (td, texs) =>
      let dataLen := td.dataLen.toNat
      if td.width = 0 ∨ td.height = 0 then
        none
      else
        match (checkedMul td.width.toNat td.height.toNat).bind (checkedMul · 4) with
        | none => none
        | some expect =>
          if dataLen ≠ expect ∨ dataLen > maxBytes ∨ dataLen > pix.length then
            none
          else
            (readTextures maxBytes n texs (pix.drop dataLen)).map fun out =>
              { width := td.width
                height := td.height
                rgba := pix.take dataLen
                linear := td.samplerFlags &&& SamplerFlags.linear != 0
                «repeat» := td.samplerFlags &&& SamplerFlags.repeat != 0 } :: out

/-- The records of the uniform block, `uniforms` being those read before. -/
def readUniforms (texCount : Nat) (texBinding : UInt32) (ssboLen : Nat) (ssboBinding : UInt32) :
    Nat → List UInt8 → List OwnedUniform → Option (List OwnedUniform)
  | 0, _, uniforms => some uniforms
  | n + 1, ub, uniforms =>
    if ub.length < 8 then
      none
    else
      let binding := u32At ub 0
      let len := (u32At ub 4).toNat
      let ub := ub.drop 8
      if binding > 65535 ∨ len > 65536 ∨ len > ub.length ∨ inTexRange texCount texBinding binding ∨
          (ssboLen > 0 ∧ binding = ssboBinding) ∨ uniforms.any (fun u => u.binding == binding) then
        none
      else
        readUniforms texCount texBinding ssboLen ssboBinding n (ub.drop len)
          (uniforms ++ [{ binding, bytes := ub.take len }])

def unpackDepth (f : UInt32) : Option DepthState :=
  let test := f &&& DepthFlags.test != 0
  let write := f &&& DepthFlags.write != 0
  if test || write then
    some { test, write, compare := (f &&& DepthFlags.compareMask) >>> DepthFlags.compareShift }
  else
    none

/-- The scalar bounds of a command list. -/
def badCmdList (tail : ForwardedCmdListTail) (maxBytes : Nat) : Prop :=
  badStages tail.vertexSpirvLen.toNat tail.fragmentSpirvLen.toNat tail.vertexEntryLen.toNat
      tail.fragmentEntryLen.toNat maxBytes ∨
    tail.drawCount = 0 ∨ tail.drawCount > 4096 ∨ tail.attrCount > 32 ∨ tail.vertexDataLen.toNat > maxBytes ∨
    tail.indexDataLen.toNat > maxBytes ∨ tail.pushConstLen > 256 ∨ tail.texCount.toNat > MAX_TEXTURES ∨
    tail.texBinding > 65535 ∨ tail.uboCount > 16 ∨ tail.ssboBinding > 65535 ∨
    tail.ssboLen.toNat > MAX_SSBO_BYTES

instance (tail : ForwardedCmdListTail) (maxBytes : Nat) : Decidable (badCmdList tail maxBytes) := by
  unfold badCmdList; infer_instance

/-- The sections after the tail, once their total is known to fit. -/
def decodeSections (tail : ForwardedCmdListTail) (rest : List UInt8) (maxBytes : Nat) :
    Option OwnedForwardedDraw :=
  let texCount := tail.texCount.toNat
  let ssboLen := tail.ssboLen.toNat
  let (attrsB, r) := rest.splitAt (tail.attrCount.toNat * 12)
  let (drawsB, r) := r.splitAt (tail.drawCount.toNat * 32)
  let (texsB, r) := r.splitAt (texCount * 16)
  let (vspirvB, r) := r.splitAt tail.vertexSpirvLen.toNat
  let (fspirvB, r) := r.splitAt tail.fragmentSpirvLen.toNat
  let (vdataB, r) := r.splitAt tail.vertexDataLen.toNat
  let (idataB, r) := r.splitAt tail.indexDataLen.toNat
  let (ventryB, r) := r.splitAt tail.vertexEntryLen.toNat
  let (fentryB, r) := r.splitAt tail.fragmentEntryLen.toNat
  let (pcB, r) := r.splitAt tail.pushConstLen.toNat
  let (uboB, r) := r.splitAt tail.uboLen.toNat
  let (ssboB, r) := r.splitAt ssboLen
  match readArray 12 VertexAttr.decode tail.attrCount.toNat attrsB,
      readArray 32 DrawCmd.decode tail.drawCount.toNat drawsB with
  | some attrs, some draws =>
    let vertexSpirv := toWords vspirvB
    let fragmentSpirv := toWords fspirvB
    let indexU32 := tail.indexType == IndexType.u32
    if vertexSpirv.head? ≠ some SPIRV_MAGIC ∨ fragmentSpirv.head? ≠ some SPIRV_MAGIC then
      none
    else if ¬ (if indexU32 then 4 else 2) ∣ tail.indexDataLen.toNat then
      none
    else
      match readTextures maxBytes texCount texsB r,
          readUniforms texCount tail.texBinding ssboLen tail.ssboBinding tail.uboCount.toNat uboB [],
          cstr ventryB, cstr fentryB with
      | some textures, some uniforms, some vertexEntry, some fragmentEntry =>
        some
          { vertexSpirv
            fragmentSpirv
            vertexEntry
            fragmentEntry
            vertexCount := 0
            topology := tail.topology
            geometry := some
              { vertexData := vdataB
                vertexStride := tail.vertexStride
                attrs
                indexData := idataB
                indexU32
                draws
                depth := unpackDepth tail.depthFlags
                pushConstants := pcB
                textures
                texBinding := tail.texBinding
                uniforms
                storage := if ssboLen > 0 then some { binding := tail.ssboBinding, bytes := ssboB } else none
                rasterFlags := tail.rasterFlags } }
      | _, _, _, _ => none
  | _, _ => none

def decodeForwardedCmdlist (payload : List UInt8) (maxBytes : Nat) : Option OwnedForwardedDraw :=
  if payload.length < VulkanWorkload.size then
    none
  else
    match readFromPrefix 80 ForwardedCmdListTail.decode (payload.drop VulkanWorkload.size) with
    | none => none
    | some (tail, rest) =>
      let stride := tail.vertexStride
      let vdataLen := tail.vertexDataLen.toNat
      if badCmdList tail maxBytes then
        none
      else if tail.ssboLen > 0 ∧ inTexRange tail.texCount.toNat tail.texBinding tail.ssboBinding then
        none
      -- a stride without data or data without a stride
      else if (stride = 0) ≠ (vdataLen = 0) then
        none
      else if stride ≠ 0 ∧ ¬ stride.toNat ∣ vdataLen then
        none
      else
        match checkedMul tail.attrCount.toNat 12, checkedMul tail.drawCount.toNat 32,
            checkedMul tail.texCount.toNat 16 with
        | some attrsBytes, some drawsBytes, some texsBytes =>
          match checkedSum [drawsBytes, texsBytes, tail.vertexSpirvLen.toNat, tail.fragmentSpirvLen.toNat, vdataLen,
              tail.indexDataLen.toNat, tail.vertexEntryLen.toNat, tail.fragmentEntryLen.toNat,
              tail.pushConstLen.toNat, tail.uboLen.toNat, tail.ssboLen.toNat] attrsBytes with
          | none => none
          | some total => if total > rest.length then none else decodeSections tail rest maxBytes
        | _, _, _ => none

end Infinigpu
