import Infinigpu.Replay.Handles
import Infinigpu.Replay.Resources

/-!
# The uploads of a frame (`infinigpu-replay`, `render_forwarded_cached_present`)

A frame with a mesh has its buffers and its textures uploaded and bound in a descriptor set.  With the resource cache
enabled meshes and textures are kept, by keys of their content; without it all that was uploaded is destroyed after
the frame.  A texture is made in the slots of a guard, and so are the buffers of a descriptor set; textures that are
made but not in the cache yet are destroyed by hand where a later one fails.
-/

namespace Infinigpu.Vulkan

open Guard

/-! ### Slots and owners -/

/-- The handles that `alloc_resident_texture` and `upload_texture_into` make, in the order in which they free them. -/
inductive TextureSlot where
  | sampler
  | view
  | image
  | imageMem
  | staging
  | stagingMem
deriving DecidableEq, Repr

namespace TextureSlot

def kind : TextureSlot → VkObject
  | sampler => .sampler
  | view => .imageView
  | image => .image
  | imageMem | stagingMem => .deviceMemory
  | staging => .buffer

def dropOrder : List TextureSlot := [sampler, view, image, imageMem, staging, stagingMem]

theorem nodup_dropOrder : dropOrder.Nodup := by decide

theorem mem_dropOrder (slot : TextureSlot) : slot ∈ dropOrder := by cases slot <;> decide

end TextureSlot

/-- The handles that `build_frame_descriptors` makes for `n` uniform blocks. -/
inductive DescriptorSlot (n : Nat) where
  | uniform (i : Fin n)
  | uniformMem (i : Fin n)
  | storage
  | storageMem
  | pool
deriving DecidableEq

namespace DescriptorSlot

variable {n : Nat}

def kind : DescriptorSlot n → VkObject
  | uniform _ | storage => .buffer
  | uniformMem _ | storageMem => .deviceMemory
  | pool => .descriptorPool

/-- The order in which they are freed. -/
def dropOrder (n : Nat) : List (DescriptorSlot n) :=
  (List.finRange n).map uniform ++ (List.finRange n).map uniformMem ++ [storage, storageMem, pool]

theorem nodup_dropOrder : (dropOrder n).Nodup := by
  have huniform := (List.nodup_finRange n).map fun _ _ => uniform.inj
  have hmem := (List.nodup_finRange n).map fun _ _ => uniformMem.inj
  refine (huniform.append hmem (by simp [List.Disjoint])).append (by simp) fun slot hslot => ?_
  rcases List.mem_append.1 hslot with h | h
  · obtain ⟨i, -, rfl⟩ := List.mem_map.1 h
    simp
  · obtain ⟨i, -, rfl⟩ := List.mem_map.1 h
    simp

theorem mem_dropOrder (slot : DescriptorSlot n) : slot ∈ dropOrder n := by
  cases slot <;> simp [dropOrder]

end DescriptorSlot

/-- A texture with the buffer that it is uploaded from. -/
structure TextureGpu where
  staging : Nat
  stagingMem : Nat
  image : Nat
  imageMem : Nat
  view : Nat
  sampler : Nat

namespace TextureGpu

def staged (t : TextureGpu) : List (Nat × VkObject) := [(t.staging, .buffer), (t.stagingMem, .deviceMemory)]

def sampled (t : TextureGpu) : List (Nat × VkObject) :=
  [(t.sampler, .sampler), (t.view, .imageView), (t.image, .image), (t.imageMem, .deviceMemory)]

/-- What is destroyed, in this order. -/
def objects (t : TextureGpu) : List (Nat × VkObject) := t.sampled ++ t.staged

/-- What a descriptor set has of it. -/
def bound (t : TextureGpu) : List (Nat × VkObject) := [(t.view, .imageView), (t.sampler, .sampler)]

end TextureGpu

/-- A texture that is made and not in the cache yet. -/
structure PendingTexUpload extends TextureGpu where
  key : UInt64
  bytes : Nat

/-- The texture that goes into the cache. -/
def PendingTexUpload.resident (p : PendingTexUpload) : ResidentTexture where
  image := p.image
  imageMem := p.imageMem
  view := p.view
  sampler := p.sampler
  bytes := p.bytes

/-- The objects of the pending textures. -/
def pendingObjects (pending : List PendingTexUpload) : List (Nat × VkObject) := pending.flatMap (·.objects)

/-- A uniform or a storage buffer with its memory. -/
structure BlockGpu where
  buffer : Nat
  mem : Nat

def BlockGpu.objects (b : BlockGpu) : List (Nat × VkObject) := [(b.buffer, .buffer), (b.mem, .deviceMemory)]

/-- The descriptor set of a frame, which belongs to its pool; `set` is what of textures it refers to.  They are in
`tex` only where the frame has them for itself. -/
structure FrameDescriptors where
  pool : Nat
  ubos : List BlockGpu
  ssbo : Option BlockGpu
  tex : List TextureGpu
  set : List (Nat × VkObject)

namespace FrameDescriptors

/-- What is destroyed, in this order. -/
def objects (f : FrameDescriptors) : List (Nat × VkObject) :=
  (f.pool, .descriptorPool) :: f.ubos.flatMap BlockGpu.objects ++ f.ssbo.toList.flatMap BlockGpu.objects ++
    f.tex.flatMap TextureGpu.objects

/-- What a frame is recorded with: the copies of its own textures, and the set with what it refers to. -/
def used (f : FrameDescriptors) : List (Nat × VkObject) :=
  f.tex.flatMap (fun t => [(t.staging, .buffer), (t.image, .image)]) ++ (f.pool, .descriptorPool) ::
    (f.ubos ++ f.ssbo.toList).map (fun b => (b.buffer, .buffer)) ++ f.set

end FrameDescriptors

section

variable {S : Type} [DecidableEq S] (d : Driver)

/-! ### Meshes -/

/-- A host-visible buffer with `data` in it.  Where a call fails what was made is destroyed. -/
def filledBuffer (t : Target) (data : List UInt8) : Render S (Nat × Nat) := do
  (if data.isEmpty then throw .refused else pure ())
  let buf ← create d.ok (.create t) .buffer []
  onFailure (call d.ok (.memoryType t) []) (destroyAll [(buf, .buffer)])
  let mem ← onFailure (create d.ok (.allocate t) .deviceMemory []) (destroyAll [(buf, .buffer)])
  onFailure (call d.ok (.bind t) [(buf, .buffer), (mem, .deviceMemory)])
    (destroyAll [(mem, .deviceMemory), (buf, .buffer)])
  onFailure (call d.ok (.map t) [(mem, .deviceMemory)]) (destroyAll [(mem, .deviceMemory), (buf, .buffer)])
  return (buf, mem)

def uploadGeometry (g : OwnedGeometry) : Render S GeometryGpu := do
  let (vbo, vboMem) ← filledBuffer d .vertices g.vertexData
  let ibo ← (if g.indexData.isEmpty then pure none else
    some <$> onFailure (filledBuffer d .indices g.indexData)
      (destroyAll [(vbo, .buffer), (vboMem, .deviceMemory)]))
  return { vbo, vboMem, ibo }

/-- A mesh that is not resident is uploaded before the others are evicted for it. -/
def getOrUploadGeometry (g : OwnedGeometry) : Render S GeometryGpu := do
  match ← inspect fun c => c.geomCache.map.lookup (geomKey g) with
  | some r =>
    onRest fun c => { c with geomCache := { c.geomCache with hits := c.geomCache.hits + 1 } }
    return r.gpu
  | none =>
    let gpu ← uploadGeometry d g
    let bytes := g.vertexData.length + g.indexData.length
    onRest fun c => { c with geomCache := { c.geomCache with misses := c.geomCache.misses + 1 } }
    drainWhen (fun c => c.geomCache.map.entries.length ≥ MAX_CACHED_GEOM ∨
        c.geomCache.bytes + bytes > MAX_CACHED_GEOM_BYTES) Caches.meshes
      fun c => { c with geomCache := { c.geomCache with map := ∅, bytes := 0 } }
    onRest fun c => { c with geomCache := { c.geomCache with
      map := c.geomCache.map.insert (geomKey g) { gpu, bytes }
      bytes := c.geomCache.bytes + bytes } }
    return gpu

/-- The mesh of a draw that has one. -/
def meshFor (resourceCache : Bool) (draw : OwnedForwardedDraw) : Render S (Option GeometryGpu) :=
  match uploadedGeometry draw with
  | some g => some <$> (if resourceCache then getOrUploadGeometry d g else uploadGeometry d g)
  | none => pure none

/-! ### Textures -/

/-- The cache is full. -/
def TexCache.full (c : TexCache) : Bool := c.map.entries.length ≥ MAX_CACHED_TEX ∨ c.bytes ≥ MAX_CACHED_TEX_BYTES

/-- `trim_tex_cache`, at the start of a frame. -/
def trimTexCache : Render S Unit :=
  drainWhen (fun c => c.texCache.full) Caches.textures
    fun c => { c with texCache := { c.texCache with map := ∅, bytes := 0 } }

/-- The part that `alloc_resident_texture` and `upload_texture_into` share, for the `i`-th texture. -/
def textureBody (i : Nat) : Render TextureSlot TextureGpu := do
  let (staging, stagingMem) ← backed TextureSlot.kind d (.texels i) .staging .stagingMem
  call d.ok (.map (.texels i)) [(stagingMem, .deviceMemory)]
  let (image, imageMem) ← backed TextureSlot.kind d (.texture i) .image .imageMem
  let view ← acquire TextureSlot.kind d.ok (.view (.texture i)) .view [(image, .image)]
  let sampler ← acquire TextureSlot.kind d.ok (.sampler i) .sampler []
  disarm
  return { staging, stagingMem, image, imageMem, view, sampler }

def allocTexture (i : Nat) : Render S TextureGpu :=
  nested TextureSlot.kind TextureSlot.dropOrder (textureBody d i)

def allocResidentTexture (i : Nat) (t : OwnedTexture) : Render S PendingTexUpload := do
  let gpu ← allocTexture d i
  return { gpu with key := texKey t, bytes := max (d.imageSize i) t.rgba.length }

/-- Writes a view and a sampler into the set of a pool. -/
def writeTextureDescriptor (pool view sampler : Nat) : Render S Unit :=
  touch [(pool, .descriptorPool), (view, .imageView), (sampler, .sampler)]

def uploadTextureInto (pool i : Nat) (t : OwnedTexture) : Render S TextureGpu := do
  (if t.Bad then throw .refused else pure ())
  let gpu ← allocTexture d i
  writeTextureDescriptor pool gpu.view gpu.sampler
  return gpu

/-- Without the cache: the textures from the `i`-th on, after `built`. -/
def uploadTextures (pool : Nat) : Nat → List OwnedTexture → List TextureGpu → Render S (List TextureGpu)
  | _, [], built => return built
  | i, t :: ts, built => do
    let gpu ← onFailure (uploadTextureInto d pool i t) (destroyAll (built.flatMap TextureGpu.objects))
    uploadTextures pool (i + 1) ts (built ++ [gpu])

/-- The textures from the `i`-th on: those that are resident go into the set, the others are made. -/
def stageTextures (pool : Nat) : Nat → List OwnedTexture → List PendingTexUpload → List (Nat × VkObject) →
    Render S (List PendingTexUpload × List (Nat × VkObject))
  | _, [], pending, set => return (pending, set)
  | i, t :: ts, pending, set => do
    onFailure (if t.Bad then throw .refused else pure ()) (destroyAll (pendingObjects pending))
    match ← inspect fun c => c.texCache.map.lookup (texKey t) with
    | some r =>
      onRest fun c => { c with texCache := { c.texCache with hits := c.texCache.hits + 1 } }
      writeTextureDescriptor pool r.view r.sampler
      stageTextures pool (i + 1) ts pending (set ++ [(r.view, .imageView), (r.sampler, .sampler)])
    | none =>
      let p ← onFailure (allocResidentTexture d i t) (destroyAll (pendingObjects pending))
      stageTextures pool (i + 1) ts (pending ++ [p]) set

def ensureUploadCtx : Render S UploadCtx := do
  match ← inspect Caches.uploadCtx with
  | some u => return u
  | none =>
    let pool ← create d.ok .uploadPool .commandPool []
    onFailure (call d.ok .uploadBuffer [(pool, .commandPool)]) (destroyAll [(pool, .commandPool)])
    let fence ← onFailure (create d.ok .uploadFence .fence []) (destroyAll [(pool, .commandPool)])
    onRest fun c => { c with uploadCtx := some { pool, fence } }
    return { pool, fence }

/-- The copies of all pending textures in one submission. -/
def recordAndSubmitUploads (pending : List PendingTexUpload) : Render S Unit := do
  let u ← ensureUploadCtx d
  call d.ok .resetUploadPool [(u.pool, .commandPool)]
  call d.ok .beginUploads [(u.pool, .commandPool)]
  call d.ok .endUploads ((u.pool, .commandPool) ::
    pending.flatMap fun p => [(p.image, .image), (p.staging, .buffer)])
  call d.ok .resetUploadFence [(u.fence, .fence)]
  call d.ok .submitUploads [(u.pool, .commandPool), (u.fence, .fence)]
  call d.ok .waitUploads [(u.fence, .fence)]

def TexCache.commit (c : TexCache) (p : PendingTexUpload) : TexCache :=
  { c with
    map := c.map.insert p.key p.resident
    bytes := c.bytes + p.bytes
    misses := c.misses + 1 }

/-- The pending textures go into the cache and into the set. -/
def commitUploads (pool : Nat) : List PendingTexUpload → List (Nat × VkObject) → Render S (List (Nat × VkObject))
  | [], set => return set
  | p :: pending, set => do
    -- `into_resident`
    destroyAll p.staged
    onRest fun c => { c with texCache := c.texCache.commit p }
    writeTextureDescriptor pool p.view p.sampler
    commitUploads pool pending (set ++ p.bound)

/-- What the set refers to when all textures are in it. -/
def resolveFrameTextures (pool : Nat) (textures : List OwnedTexture) : Render S (List (Nat × VkObject)) := do
  let (pending, set) ← stageTextures d pool 0 textures [] []
  if pending.isEmpty then return set
  onFailure (recordAndSubmitUploads d pending) (destroyAll (pendingObjects pending))
  commitUploads pool pending set

end

/-! ### Descriptors -/

section

variable {n : Nat} (d : Driver)

/-- A host-visible buffer that is written into the set. -/
def blockBuffer (pool : Nat) (t : Target) (buffer mem : DescriptorSlot n) : Render (DescriptorSlot n) BlockGpu := do
  let (b, m) ← backed DescriptorSlot.kind d t buffer mem
  call d.ok (.map t) [(m, DescriptorSlot.kind mem)]
  touch [(pool, .descriptorPool), (b, DescriptorSlot.kind buffer)]
  return { buffer := b, mem := m }

def uniformBuffers (pool : Nat) : List (Fin n) → Render (DescriptorSlot n) (List BlockGpu)
  | [] => return []
  | i :: is => do
    let ubo ← blockBuffer d pool (.uniform i) (.uniform i) (.uniformMem i)
    let ubos ← uniformBuffers pool is
    return ubo :: ubos

/-- The textures of a frame: its own ones, and what the set refers to. -/
def frameTextures (resourceCache : Bool) (pool : Nat) (textures : List OwnedTexture) :
    Render (DescriptorSlot n) (List TextureGpu × List (Nat × VkObject)) :=
  if resourceCache then do
    let set ← resolveFrameTextures d pool textures
    return ([], set)
  else do
    let tex ← uploadTextures d pool 0 textures []
    return (tex, tex.flatMap TextureGpu.bound)

def descriptorsBody (resourceCache : Bool) (setLayout : Nat) (g : OwnedGeometry) :
    Render (DescriptorSlot g.uniforms.length) FrameDescriptors := do
  let pool ← acquire DescriptorSlot.kind d.ok .descriptorPool .pool []
  call d.ok .descriptorSet [(pool, .descriptorPool), (setLayout, .descriptorSetLayout)]
  let ubos ← uniformBuffers d pool (List.finRange g.uniforms.length)
  let ssbo ← (if g.storage.isSome then some <$> blockBuffer d pool .storage .storage .storageMem else pure none)
  let (tex, set) ← frameTextures d resourceCache pool g.textures
  disarm
  return { pool, ubos, ssbo, tex, set }

/-- A block without bytes or with too many, or too many textures. -/
def badDescriptors (g : OwnedGeometry) : Bool :=
  g.uniforms.any (fun u => u.bytes.isEmpty || u.bytes.length > 65536) ||
    g.storage.any (fun s => s.bytes.isEmpty || s.bytes.length > MAX_SSBO_BYTES) || g.textures.length > MAX_TEXTURES

def buildFrameDescriptors {S : Type} [DecidableEq S] (resourceCache : Bool) (g : OwnedGeometry) (setLayout : Nat) :
    Render S FrameDescriptors := do
  (if badDescriptors g then throw .refused else pure ())
  nested DescriptorSlot.kind (DescriptorSlot.dropOrder _) (descriptorsBody d resourceCache setLayout g)

/-- The descriptor set of a draw that has one. -/
def descriptorsFor {S : Type} [DecidableEq S] (resourceCache : Bool) (draw : OwnedForwardedDraw) :
    Render S (Option FrameDescriptors) :=
  match descSigOf draw, draw.geometry with
  | some sig, some g => do
    let sl ← descSetLayout d sig
    some <$> buildFrameDescriptors d resourceCache g sl
  | _, _ => pure none

end

/-! ### Frames -/

/-- What a frame is recorded with besides its pipeline and its target. -/
def drawnWith (found : Resolved) (draw : OwnedForwardedDraw) (geom : Option GeometryGpu)
    (descs : Option FrameDescriptors) : List (Nat × VkObject) :=
  let pushes := draw.geometry.any fun g => !g.pushConstants.isEmpty
  let draws := draw.geometry.any fun g => !g.draws.isEmpty
  descs.toList.flatMap FrameDescriptors.used ++
    (if descs.isSome || pushes then [(found.layout, .pipelineLayout)] else []) ++
    if draws then
      geom.toList.flatMap fun g => (g.vbo, .buffer) :: g.ibo.toList.map fun i => (i.1, .buffer)
    else []

/-- `record_forwarded_frame`, and the submission of what it records. -/
def frameBody (d : Driver) (ss : SizedScratch) (found : Resolved) (draw : OwnedForwardedDraw)
    (geom : Option GeometryGpu) (descs : Option FrameDescriptors) (dst : Nat) : Render RenderSlot Unit := do
  call d.ok .resetPool [(ss.pool, .commandPool)]
  call d.ok .beginCommands [(ss.pool, .commandPool)]
  call d.ok .endCommands (found.objects ++ (drawnWith found draw geom descs ++ [(ss.pool, .commandPool),
    (ss.framebuffer, .framebuffer), (ss.image, .image), (dst, .buffer)]))
  call d.ok .resetFence [(ss.fence, .fence)]
  submitAndWait d ss.pool ss.fence

/-- A frame with its mesh; `owned` is what of it is destroyed after the frame. -/
def drawMesh (resourceCache : Bool) (d : Driver) (ss : SizedScratch) (found : Resolved) (draw : OwnedForwardedDraw)
    (geom : Option GeometryGpu) (owned : List (Nat × VkObject)) : Render RenderSlot Unit := do
  let descs ← onFailure (descriptorsFor d resourceCache draw) (destroyAll owned)
  let cleanup := destroyAll (owned ++ descs.toList.flatMap FrameDescriptors.objects)
  onFailure (frameBody d ss found draw geom descs ss.readback) cleanup
  cleanup
  if ss.rbCoherent then pure () else call d.ok .invalidate [(ss.rbMem, .deviceMemory)]

/-- `render_forwarded_cached_present`. -/
def cachedPresentBody (cacheEnabled resourceCache : Bool) (d : Driver) (width height : UInt32)
    (draw : OwnedForwardedDraw) : Render RenderSlot Unit := do
  let found ← pipelineFor d cacheEnabled draw FORMAT
  let ss ← scratchFor d (width, height, (depthKeyOf draw).1) found.renderPass
  (if resourceCache then trimTexCache else pure ())
  let geom ← meshFor d resourceCache draw
  -- a mesh of the cache is not destroyed after the frame
  let owned := if resourceCache then [] else geom.toList.flatMap GeometryGpu.objects
  drawMesh resourceCache d ss found draw geom owned

/-- `render_forwarded_zerocopy`: the frame is copied into the imported buffer. -/
def zerocopyBody (cacheEnabled memHost : Bool) (hostPtrAlign : UInt64) (d : Driver) (width height : UInt32)
    (draw : OwnedForwardedDraw) (guestPtr : UInt64) : Render RenderSlot Unit := do
  (if draw.geometry.isSome then throw .refused else pure ())
  let found ← pipelineFor d cacheEnabled draw FORMAT
  let ig ← importFor d memHost hostPtrAlign (guestPtr, width.toUInt64 * height.toUInt64 * 4)
  let ss ← scratchFor d (width, height, false) found.renderPass
  frameBody d ss found draw none none ig.buffer

/-! ### `HostGpu` -/

/-- What is fixed when the GPU is opened. -/
structure Config where
  /-- The device can export memory as a file descriptor. -/
  canExport : Bool
  memHost : Bool
  hostPtrAlign : UInt64
  cacheEnabled : Bool
  scratchEnabled : Bool
  resourceCacheEnabled : Bool

structure HostGpu where
  handles : Handles VkObject
  caches : Caches

/-- A request.  With the scratches disabled a forwarded draw is rendered as `triangle` is, without its mesh. -/
inductive GpuCall where
  | clear
  | convertPresent (width height pitch : UInt32) (srcBytes : Nat) (exported : Bool)
  | triangle (draw : OwnedForwardedDraw) (exported : Bool)
  | forwarded (width height : UInt32) (draw : OwnedForwardedDraw)
  | zerocopy (width height : UInt32) (draw : OwnedForwardedDraw) (guestPtr : UInt64)
  | forgetAllGuestImports

namespace HostGpu

def new : HostGpu := ⟨.new, .new⟩

def render {S : Type} [DecidableEq S] (kindOf : S → VkObject) (order : List S) (body : Render S Unit) (g : HostGpu) :
    Except VkCall Unit × HostGpu :=
  match guarded kindOf order body g.handles g.caches with
  | (r, handles, caches) => (r, { handles, caches })

/-- `pitch < width.saturating_mul(4)`, and a source that is too small for the geometry. -/
def badGeometry (width height pitch : UInt32) (srcBytes : Nat) : Bool :=
  width = 0 ∨ height = 0 ∨ pitch.toNat < min (width.toNat * 4) (2 ^ 32 - 1) ∨ srcBytes < pitch.toNat * height.toNat

def convertPresentInner (cfg : Config) (d : Driver) (width height pitch : UInt32) (srcBytes : Nat) (exported : Bool)
    (g : HostGpu) : Except VkCall Unit × HostGpu :=
  if badGeometry width height pitch srcBytes || exported && !cfg.canExport then (.error .refused, g)
  else g.render ConvertSlot.kind ConvertSlot.dropOrder (convertBody d exported)

def renderTriangleInner (cfg : Config) (d : Driver) (draw : OwnedForwardedDraw) (exported : Bool) (g : HostGpu) :
    Except VkCall Unit × HostGpu :=
  if exported && !cfg.canExport then (.error .refused, g)
  else g.render RenderSlot.kind RenderSlot.dropOrder (triangleBody cfg.cacheEnabled d draw exported)

def renderForwarded (cfg : Config) (d : Driver) (width height : UInt32) (draw : OwnedForwardedDraw) (g : HostGpu) :
    Except VkCall Unit × HostGpu :=
  if cfg.scratchEnabled then
    g.render RenderSlot.kind RenderSlot.dropOrder
      (cachedPresentBody cfg.cacheEnabled cfg.resourceCacheEnabled d width height draw)
  else g.renderTriangleInner cfg d draw false

def forgetAllGuestImports (g : HostGpu) : HostGpu where
  handles := g.handles.destroyAll g.caches.imports
  caches := { g.caches with guestImports := ∅ }

def answer (cfg : Config) (d : Driver) (g : HostGpu) : GpuCall → Except VkCall Unit × HostGpu
  | .clear => g.render RenderSlot.kind RenderSlot.dropOrder (clearBody d)
  | .convertPresent width height pitch srcBytes exported =>
    g.convertPresentInner cfg d width height pitch srcBytes exported
  | .triangle draw exported => g.renderTriangleInner cfg d draw exported
  | .forwarded width height draw => g.renderForwarded cfg d width height draw
  | .zerocopy width height draw guestPtr =>
    g.render RenderSlot.kind RenderSlot.dropOrder
      (zerocopyBody cfg.cacheEnabled cfg.memHost cfg.hostPtrAlign d width height draw guestPtr)
  | .forgetAllGuestImports => (.ok (), g.forgetAllGuestImports)

/-- `Drop for HostGpu`, before the device is destroyed. -/
def drop (g : HostGpu) : HostGpu :=
  let g := g.forgetAllGuestImports
  let handles := g.handles.destroyAll g.caches.setLayouts
  let handles := handles.destroyAll g.caches.textures
  let handles := handles.destroyAll g.caches.meshes
  { handles := handles.destroyAll g.caches.uploads
    caches := { g.caches with
      descSetLayouts := ∅
      texCache := { g.caches.texCache with map := ∅ }
      geomCache := { g.caches.geomCache with map := ∅ }
      uploadCtx := none } }

end HostGpu

end Infinigpu.Vulkan
