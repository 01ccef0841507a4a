import Infinigpu.Guest.CmdBuffer
import Mathlib.Data.List.Sort

/-!
# Forwarding a command buffer (`guest/icd`, `infinigpu_sync.c`)

What a submission sends for the draws of a command buffer (`forwardDraws`): the command list for a mesh or a draw with
uniform buffers, the bufferless draw for anything else.  A `ForwardRequest` is what is handed to the kernel driver.
-/

namespace Infinigpu.Icd

inductive VkError where
  | unknown (msg : String)
  | outOfDeviceMemory (msg : String)
  | deviceLost (ret : Int)
deriving DecidableEq, Repr

namespace RasterFlags
def cullMask : UInt32 := 3
def frontFaceCw : UInt32 := 4
def blend : UInt32 := 8
end RasterFlags

namespace VkTopology
def triangleList : UInt32 := 0
def triangleStrip : UInt32 := 1
end VkTopology

/-! ### `infinigpu_resolve_forwarded_state` -/

/-- The fixed-function state as it goes on the wire. -/
structure ForwardedState where
  raster : UInt32
  depth : UInt32
  topo : UInt32
deriving DecidableEq, Repr

structure DynamicValues where
  cull : UInt32
  frontCw : UInt32
  depthTest : UInt32
  depthWrite : UInt32
  depthCompare : UInt32
  topo : UInt32
deriving DecidableEq, Repr

/-- A flag word with `flag` set or not. -/
def flagIf (flag : UInt32) (on : Bool) : UInt32 := if on then flag else 0

def resolveForwardedState (static : ForwardedState) (dynamicMask setMask : UInt32) (dyn : DynamicValues) :
    ForwardedState :=
  let dm := dynamicMask &&& setMask
  let picks (bit : UInt32) : Bool := dm &&& bit != 0
  let raster :=
    if picks (Dyn.cullMode ||| Dyn.frontFace) then
      let cull :=
        if picks Dyn.cullMode then dyn.cull &&& RasterFlags.cullMask else static.raster &&& RasterFlags.cullMask
      let frontCw := if picks Dyn.frontFace then dyn.frontCw != 0 else static.raster &&& RasterFlags.frontFaceCw != 0
      let blend := static.raster &&& RasterFlags.blend != 0
      cull ||| flagIf RasterFlags.frontFaceCw frontCw ||| flagIf RasterFlags.blend blend
    else
      static.raster
  let depth :=
    if picks (Dyn.depthTest ||| Dyn.depthWrite ||| Dyn.depthCompare) then
      let test := if picks Dyn.depthTest then dyn.depthTest != 0 else static.depth &&& DepthFlags.test != 0
      let write := if picks Dyn.depthWrite then dyn.depthWrite != 0 else static.depth &&& DepthFlags.write != 0
      let compare :=
        if picks Dyn.depthCompare then dyn.depthCompare &&& 7 else (static.depth >>> DepthFlags.compareShift) &&& 7
      flagIf DepthFlags.test test ||| flagIf DepthFlags.write write ||| (compare <<< DepthFlags.compareShift)
    else
      static.depth
  -- without a test or a write there is no depth buffer
  { raster
    depth := if depth &&& (DepthFlags.test ||| DepthFlags.write) = 0 then 0 else depth
    topo := if picks Dyn.topology then dyn.topo else static.topo }

def PrimitiveTopology.wire : PrimitiveTopology → UInt32
  | .triangleStrip => VkTopology.triangleStrip
  | .triangleList | .other => VkTopology.triangleList

/-- The dynamic values of a command buffer in wire form. -/
def CmdBuffer.dynamicValues (cmd : CmdBuffer) : DynamicValues where
  cull := cmd.dynCullMode &&& RasterFlags.cullMask
  frontCw := if cmd.dynFrontFace = .clockwise then 1 else 0
  depthTest := if cmd.dynDepthTest then 1 else 0
  depthWrite := if cmd.dynDepthWrite then 1 else 0
  depthCompare := cmd.dynDepthCompare &&& 7
  topo := cmd.dynTopology.wire

/-! ### Bound resources -/

/-- The part of a bound buffer that is forwarded, if it is mapped, not empty and at most `limit` bytes. -/
def boundRange (buffer : Option Buffer) (offset range limit : UInt64) : Option (Ptr × UInt32) :=
  match buffer with
  | none => none
  | some b =>
    match b.map with
    | none => none
    | some p =>
      if offset ≥ b.totalSize then
        none
      else
        let avail := b.totalSize - offset
        let range := min (if range = VK_WHOLE_SIZE then avail else range) avail
        if range = 0 ∨ range > limit then none else some (p.add offset.toNat, range.toUInt32)

def DescUbo.bound (u : DescUbo) : Option (Ptr × UInt32) := boundRange u.buffer u.offset u.range 65536

namespace DescriptorSet

variable (ds : DescriptorSet)

def forwardedUbos (maps : Maps) : List ForwardedUbo :=
  ds.ubos.entries.filterMap fun e => e.2.bound.map fun r => { data := r.1.load maps r.2, binding := e.1 }

def ssboBound : Option (Ptr × UInt32) := boundRange ds.ssboBuffer ds.ssboOffset ds.ssboRange (16 * 1024 * 1024)

/-- The image slots by binding. -/
def sortedTextures : List (UInt32 × DescTexture) := ds.textures.entries.insertionSort fun a b => a.1 ≤ b.1

end DescriptorSet

/-- The images of some slots, if each has one and their bindings are `expected`, `expected + 2` and so on. -/
def denseFrom : UInt32 → List (UInt32 × DescTexture) → Option (List (Image × Option Sampler))
  | _, [] => some []
  | expected, (binding, t) :: rest =>
    match t.image.bind (·.image) with
    | none => none
    | some img => if binding = expected then (denseFrom (expected + 2) rest).map ((img, t.sampler) :: ·) else none

/-- The first binding and the images of the textures that are forwarded: all of the set, or none. -/
def DescriptorSet.forwardedTextures (ds : DescriptorSet) : Option (UInt32 × List (Image × Option Sampler)) :=
  match ds.sortedTextures with
  | [] => none
  | (base, t) :: rest => (denseFrom base ((base, t) :: rest)).map (base, ·)

theorem denseFrom_length {expected : UInt32} {slots : List (UInt32 × DescTexture)}
    {imgs : List (Image × Option Sampler)} (h : denseFrom expected slots = some imgs) :
    imgs.length = slots.length := by
  induction slots generalizing expected imgs with
  | nil =>
    cases h
    rfl
  | cons slot rest ih =>
    simp only [denseFrom] at h
    cases himage : slot.2.image.bind (·.image) with
    | none => simp [himage] at h
    | some img =>
      by_cases hbinding : slot.1 = expected
      · simp only [himage, hbinding, if_true, Option.map_eq_some_iff] at h
        obtain ⟨imgs', himgs', rfl⟩ := h
        simp [ih himgs']
      · simp [himage, hbinding] at h

/-- The textures of a set, none if they are not forwarded. -/
def DescriptorSet.textureImages (ds : DescriptorSet) : List (Image × Option Sampler) :=
  (ds.forwardedTextures.map (·.2)).getD []

/-- The first binding of the textures that are forwarded. -/
def DescriptorSet.texBinding (ds : DescriptorSet) : UInt32 := (ds.forwardedTextures.map (·.1)).getD 0

theorem DescriptorSet.textureImages_length_le (ds : DescriptorSet) : ds.textureImages.length ≤ MAX_SET_TEXTURES := by
  have hsorted : ds.sortedTextures.length = ds.textures.entries.length := List.length_insertionSort _ _
  have hle := ds.textures.le
  unfold textureImages forwardedTextures
  cases htextures : ds.sortedTextures with
  | nil => simp
  | cons slot rest =>
    cases hdense : denseFrom slot.1 (slot :: rest) with
    | none => simp [hdense]
    | some imgs =>
      have hlen := denseFrom_length hdense
      rw [← htextures] at hlen
      simp [hdense]
      omega

theorem DescriptorSet.forwardedUbos_length_le (ds : DescriptorSet) (maps : Maps) :
    (ds.forwardedUbos maps).length ≤ MAX_SET_UBOS := Nat.le_trans (List.length_filterMap_le _ _) ds.ubos.le

/-- Where the pixels of a texture are, if they can be forwarded as they lie in memory. -/
def Image.pixels (img : Image) : Option Ptr := if img.rowPitch = img.width * 4 then img.map else none

def samplerFlags : Option Sampler → UInt32
  | none => 0
  | some s => flagIf SamplerFlags.linear s.linear ||| flagIf SamplerFlags.repeat s.repeat

/-- The texture of a slot; what cannot be forwarded becomes one white texel. -/
def Image.textureDesc (img : Image) (sampler : Option Sampler) : TextureDesc :=
  if img.pixels.isSome then
    { width := img.width
      height := img.height
      dataLen := img.width * img.height * 4
      samplerFlags := samplerFlags sampler }
  else
    { width := 1, height := 1, dataLen := 4, samplerFlags := samplerFlags sampler }

def Image.texturePixels (maps : Maps) (img : Image) : List UInt8 :=
  match img.pixels with
  | some p => (p.load maps (img.width * img.height * 4)).items
  | none => [255, 255, 255, 255]

/-- The bytes of a texture as they are added up in `size_t`. -/
def Image.textureBytes (img : Image) : Nat := if img.pixels.isSome then img.width.toNat * img.height.toNat * 4 else 4

/-- The pixels of all textures, as many as the 32-bit sum of their sizes says. -/
def texturePixels (maps : Maps) (imgs : List (Image × Option Sampler)) : Counted UInt8 where
  items := (imgs.flatMap fun t => t.1.texturePixels maps).take
    (UInt32.ofNat (imgs.map fun t => t.1.textureBytes).sum).toNat
  lt := by
    rw [List.length_take]
    exact Nat.lt_of_le_of_lt (Nat.min_le_left _ _) (UInt32.toNat_lt _)

/-! ### The encoder's arguments -/

structure ForwardRequest where
  image : Image
  width : UInt32
  height : UInt32
  /-- The allocated payload, of which `payloadLen` bytes are sent. -/
  payload : List UInt8
  payloadLen : UInt32

def CmdBuffer.background (cmd : CmdBuffer) : Rgba :=
  if cmd.hasClear then cmd.clearValue else { r := 0, g := 0, b := 0, a := 0x3f800000 }

/-- The bytes of whole vertices behind the bound offset, as a 32-bit count. -/
def vertexBytes (stride : UInt32) (vb : Buffer) (offset : UInt64) : UInt32 :=
  UInt32.ofNat ((vb.totalSize.toNat - offset.toNat) / stride.toNat * stride.toNat)

def CmdBuffer.vertexData (cmd : CmdBuffer) (maps : Maps) (p : Pipeline) : Except VkError (Counted UInt8) :=
  if p.vertexStride > 0 then
    match cmd.vbuf with
    | none => .error (.unknown "cmdlist draw without a valid vertex buffer")
    | some vb =>
      match vb.map with
      | none => .error (.unknown "cmdlist draw without a valid vertex buffer")
      | some ptr =>
        if cmd.vbufOffset ≥ vb.totalSize then
          .error (.unknown "cmdlist draw without a valid vertex buffer")
        else if vertexBytes p.vertexStride vb cmd.vbufOffset = 0 then
          .error (.unknown "vertex buffer smaller than one vertex")
        else
          .ok ((ptr.add cmd.vbufOffset.toNat).load maps (vertexBytes p.vertexStride vb cmd.vbufOffset))
  else
    .ok { items := [], lt := Nat.two_pow_pos 32 }

/-- The index data is forwarded if any draw is indexed. -/
def CmdBuffer.indexData (cmd : CmdBuffer) (maps : Maps) : Except VkError (Counted UInt8) :=
  if cmd.draws.any (·.indexed) then
    match cmd.ibuf with
    | none => .error (.unknown "indexed draw without a valid index buffer")
    | some ib =>
      match ib.map with
      | none => .error (.unknown "indexed draw without a valid index buffer")
      | some ptr =>
        if cmd.ibufOffset ≥ ib.totalSize then
          .error (.unknown "indexed draw without a valid index buffer")
        else
          .ok ((ptr.add cmd.ibufOffset.toNat).load maps
            (vertexBytes (if cmd.indexType = Infinigpu.IndexType.u32 then 4 else 2) ib cmd.ibufOffset))
  else
    .ok { items := [], lt := Nat.two_pow_pos 32 }

def Draw.wire (d : Draw) : DrawCmd where
  count := d.count
  instanceCount := d.instanceCount
  first := d.first
  vertexOffset := d.vertexOffset
  viewport := d.viewport

/-- The arguments that `infinigpu_replay_cmdlist` gives to the encoder. -/
def cmdlistArgs (maps : Maps) (ds : DescriptorSet) (cmd : CmdBuffer) (p : Pipeline) (vs fs : PipelineStage)
    (img : Image) (vdata idata : Counted UInt8) : CmdlistArgs :=
  let state := resolveForwardedState { raster := p.rasterFlags, depth := p.depthFlags, topo := p.topology.wire }
    p.dynamicMask cmd.dynSetMask cmd.dynamicValues
  { width := img.width
    height := img.height
    bg := cmd.background
    scanoutAddr := 0
    vspirv := vs.words
    fspirv := fs.words
    vertexEntry := vs.entrypoint
    fragmentEntry := fs.entrypoint
    vertexStride := p.vertexStride
    attrs :=
      { items := p.attrs
        lt := Nat.lt_of_le_of_lt p.attrs_le (by decide) }
    vertexData := vdata
    indexData := idata
    indexType := cmd.indexType
    topology := state.topo
    depthFlags := state.depth
    pushConst :=
      { items := cmd.pushConst.take cmd.pushConstLen.toNat
        lt := by
          rw [List.length_take]
          exact Nat.lt_of_le_of_lt (Nat.min_le_left _ _) (UInt32.toNat_lt _) }
    ubos :=
      { items := ds.forwardedUbos maps
        lt := Nat.lt_of_le_of_lt (ds.forwardedUbos_length_le maps) (by decide) }
    ssbo := (ds.ssboBound.map fun r => r.1.load maps r.2).getD { items := [], lt := Nat.two_pow_pos 32 }
    ssboBinding := if ds.ssboBound.isSome then ds.ssboBinding else 0
    draws :=
      { items := cmd.draws.map Draw.wire
        lt := by
          rw [List.length_map]
          exact Nat.lt_of_le_of_lt cmd.draws_le (by decide) }
    texs :=
      { items := ds.textureImages.map fun t => t.1.textureDesc t.2
        lt := by
          rw [List.length_map]
          exact Nat.lt_of_le_of_lt ds.textureImages_length_le (by decide) }
    texBinding := ds.texBinding
    texpix := texturePixels maps ds.textureImages
    rasterFlags := state.raster }

/-- The payload that is allocated for a command list; the sizes of the stages are added up in 32 bits. -/
def cmdlistCap (vs fs : PipelineStage) (c : CmdlistArgs) : Nat :=
  (256 + vs.spirvSize + fs.spirvSize).toNat + (vs.entrypoint.chars.length + 1) + (fs.entrypoint.chars.length + 1) +
    c.attrs.items.length * 12 + c.draws.items.length * 32 + c.texs.items.length * 16 + c.vertexData.items.length +
    c.indexData.items.length + c.pushConst.items.length + c.uboBytes + c.ssbo.items.length + c.texpix.items.length

/-- A payload to be sent, unless nothing was encoded. -/
def sendEncoded (img : Image) (msg : String) : Nat × Option (List UInt8) → Except VkError ForwardRequest
  | (n, some payload) =>
    if n = 0 then
      .error (.unknown msg)
    else
      .ok { image := img, width := img.width, height := img.height, payload, payloadLen := UInt32.ofNat n }
  | (_, none) => .error (.unknown msg)

/-- `infinigpu_replay_cmdlist`, up to the submission. -/
def replayCmdlist (maps : Maps) (ds : DescriptorSet) (cmd : CmdBuffer) (p : Pipeline) (vs fs : PipelineStage)
    (img : Image) : Except VkError ForwardRequest := do
  let vdata ← cmd.vertexData maps p
  let idata ← cmd.indexData maps
  let c := cmdlistArgs maps ds cmd p vs fs img vdata idata
  sendEncoded img "cmdlist payload did not fit"
    (encodeForwardedCmdlist (some (List.replicate (cmdlistCap vs fs c) 0)) c)

def forwardedArgs (cmd : CmdBuffer) (p : Pipeline) (vs fs : PipelineStage) (img : Image) : ForwardedArgs where
  width := img.width
  height := img.height
  bg := cmd.background
  scanoutAddr := 0
  vertexCount := cmd.drawVertexCount
  topology := p.topology.wire
  vspirv := vs.words
  fspirv := fs.words
  vertexEntry := vs.entrypoint
  fragmentEntry := fs.entrypoint

/-- The payload that is allocated for a bufferless draw. -/
def forwardedCap (vs fs : PipelineStage) : Nat :=
  (128 + vs.spirvSize + fs.spirvSize).toNat + (vs.entrypoint.chars.length + 1) + (fs.entrypoint.chars.length + 1)

/-- The draw of `infinigpu_replay_cmd_buffer` that needs neither a vertex buffer nor a uniform buffer. -/
def replayBufferless (cmd : CmdBuffer) (p : Pipeline) (vs fs : PipelineStage) (img : Image) :
    Except VkError ForwardRequest :=
  sendEncoded img "forwarded payload did not fit"
    (encodeForwarded (some (List.replicate (forwardedCap vs fs) 0)) (forwardedArgs cmd p vs fs img))

/-! ### `infinigpu_replay_cmd_buffer` -/

/-- The last stage of a kind. -/
def Pipeline.stageOf (p : Pipeline) (stage : ShaderStage) : Option PipelineStage :=
  (p.stages.filter (·.stage == stage)).getLast?

/-- The bound descriptor set; without one there is nothing to forward, as from an empty one. -/
def State.boundSet (st : State) : DescriptorSet := (st.cmd.boundDescSet.map st.sets).getD .empty

/-- Whether the draws go through the command list. -/
def State.takesCmdlist (st : State) (p : Pipeline) : Bool :=
  (p.vertexStride > 0 && st.cmd.vbuf.isSome) || st.boundSet.ubos.entries.length > 0

/-- What is sent for the draws of the command buffer: nothing if there are none, or no attachment, or no pipeline. -/
def State.forwardDraws (st : State) : Except VkError (Option ForwardRequest) :=
  match st.cmd.draws, st.cmd.colorAtt, st.cmd.boundPipeline with
  | _ :: _, some att, some p =>
    match p.stageOf .vertex, p.stageOf .fragment with
    | some vs, some fs =>
      match att.image with
      | none => .error (.unknown "color attachment has no bound memory")
      | some img =>
        if img.mem.isNone then
          .error (.unknown "color attachment has no bound memory")
        else if st.takesCmdlist p then
          (replayCmdlist st.maps st.boundSet st.cmd p vs fs img).map some
        else
          (replayBufferless st.cmd p vs fs img).map some
    | _, _ => .error (.unknown "forwarded draw needs a vertex + fragment stage")
  | _, _, _ => .ok none

end Infinigpu.Icd
