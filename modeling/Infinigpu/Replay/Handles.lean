import Infinigpu.Device.Zerocopy
import Infinigpu.Lib.Guard
import Infinigpu.Replay.Pipelines

/-!
# The Vulkan handles of a replay (`infinigpu-replay`, the renders of `HostGpu`)

Every call of the driver may fail, and what fails is given with each render.  A render keeps what it makes in the
slots of a guard (`RenderScratch`, `ConvertScratch`), which destroys it on every way out; what the caches keep is
taken out of the guard or was never in one.  What a handle names is its kind and no more: `Replay.Pipelines` has what
the objects of `pipeline_for` were made from.  The pixels are left out, and what a frame uploads is in
`Replay.Uploads`.
-/

namespace Infinigpu.Vulkan

open Guard

/-! ### Objects and slots -/

inductive VkObject where
  | fence
  | commandPool
  | buffer
  | deviceMemory
  | image
  | imageView
  | framebuffer
  | renderPass
  | shaderModule
  | descriptorSetLayout
  | pipelineLayout
  | pipeline
  | descriptorPool
  | sampler
deriving DecidableEq, Repr

/-- The slots of `RenderScratch`, in the order in which they are dropped. -/
inductive RenderSlot where
  | fence
  | pool
  | exportBuffer
  | exportMem
  | readback
  | rbMem
  | pipeline
  | layout
  | vsModule
  | fsModule
  | framebuffer
  | renderPass
  | view
  | image
  | imgMem
  | depthView
  | depthImage
  | depthMem
deriving DecidableEq, Repr

namespace RenderSlot

def kind : RenderSlot → VkObject
  | fence => .fence
  | pool => .commandPool
  | exportBuffer | readback => .buffer
  | exportMem | rbMem | imgMem | depthMem => .deviceMemory
  | pipeline => .pipeline
  | layout => .pipelineLayout
  | vsModule | fsModule => .shaderModule
  | framebuffer => .framebuffer
  | renderPass => .renderPass
  | view | depthView => .imageView
  | image | depthImage => .image

def dropOrder : List RenderSlot :=
  [fence, pool, exportBuffer, exportMem, readback, rbMem, pipeline, layout, vsModule, fsModule,
    framebuffer, renderPass, view, image, imgMem, depthView, depthImage, depthMem]

theorem nodup_dropOrder : dropOrder.Nodup := by decide

theorem mem_dropOrder (slot : RenderSlot) : slot ∈ dropOrder := by cases slot <;> decide

end RenderSlot

/-- The slots of `ConvertScratch`, in the order in which they are dropped. -/
inductive ConvertSlot where
  | fence
  | pool
  | exportBuffer
  | exportMem
  | rb
  | rbMem
  | staging
  | stMem
  | dstImg
  | dstMem
  | srcImg
  | srcMem
deriving DecidableEq, Repr

namespace ConvertSlot

def kind : ConvertSlot → VkObject
  | fence => .fence
  | pool => .commandPool
  | exportBuffer | rb | staging => .buffer
  | exportMem | rbMem | stMem | dstMem | srcMem => .deviceMemory
  | dstImg | srcImg => .image

def dropOrder : List ConvertSlot :=
  [fence, pool, exportBuffer, exportMem, rb, rbMem, staging, stMem, dstImg, dstMem, srcImg, srcMem]

theorem nodup_dropOrder : dropOrder.Nodup := by decide

theorem mem_dropOrder (slot : ConvertSlot) : slot ∈ dropOrder := by cases slot <;> decide

end ConvertSlot

/-! ### Calls that can fail -/

/-- What a buffer or an image is for; `texels i` is the staging buffer of the `i`-th texture. -/
inductive Target where
  | image
  | depth
  | readback
  | exported
  | staging
  | source
  | converted
  | guest
  | vertices
  | indices
  | uniform (i : Nat)
  | storage
  | texture (i : Nat)
  | texels (i : Nat)
deriving DecidableEq, Repr

/-- The ways in which a render fails: it is refused, or one of its calls fails. -/
inductive VkCall where
  | refused
  | create (t : Target)
  | memoryType (t : Target)
  | allocate (t : Target)
  | bind (t : Target)
  | view (t : Target)
  | map (t : Target)
  | renderPass
  | vertexModule
  | fragmentModule
  | setLayout
  | layout
  | pipeline
  | framebuffer
  | commandPool
  | commandBuffer
  | resetPool
  | beginCommands
  | endCommands
  | fence
  | resetFence
  | submit
  | wait
  | invalidate
  | exportFd
  | hostPointer
  | sampler (i : Nat)
  | descriptorPool
  | descriptorSet
  | uploadPool
  | uploadBuffer
  | uploadFence
  | resetUploadPool
  | beginUploads
  | endUploads
  | resetUploadFence
  | submitUploads
  | waitUploads
deriving DecidableEq, Repr

/-- How the driver answers during one render. -/
structure Driver where
  ok : VkCall → Bool
  /-- The memory type that is found for a readback is coherent. -/
  coherent : Bool
  /-- The memory that the image of the `i`-th texture takes. -/
  imageSize : Nat → Nat

/-! ### The state of a replay -/

/-- The objects for frames of one size.  The command buffer belongs to the pool. -/
structure SizedScratch where
  image : Nat
  imgMem : Nat
  view : Nat
  framebuffer : Nat
  readback : Nat
  rbMem : Nat
  rbCoherent : Bool
  pool : Nat
  fence : Nat
  /-- The depth image, its memory and its view. -/
  depth : Option (Nat × Nat × Nat)

/-- What `SizedScratch::destroy` destroys, in this order. -/
def SizedScratch.objects (ss : SizedScratch) : List (Nat × VkObject) :=
  [(ss.fence, .fence), (ss.pool, .commandPool), (ss.readback, .buffer), (ss.rbMem, .deviceMemory),
    (ss.framebuffer, .framebuffer), (ss.view, .imageView), (ss.image, .image), (ss.imgMem, .deviceMemory)] ++
  match ss.depth with
  | some (image, mem, view) => [(view, .imageView), (image, .image), (mem, .deviceMemory)]
  | none => []

/-- Memory of the guest as a buffer that a frame can be copied to. -/
structure ImportedGuest where
  mem : Nat
  buffer : Nat

def ImportedGuest.objects (ig : ImportedGuest) : List (Nat × VkObject) :=
  [(ig.buffer, .buffer), (ig.mem, .deviceMemory)]

/-- The buffers of a mesh, with their memory. -/
structure GeometryGpu where
  vbo : Nat
  vboMem : Nat
  ibo : Option (Nat × Nat)

def GeometryGpu.objects (g : GeometryGpu) : List (Nat × VkObject) :=
  [(g.vbo, .buffer), (g.vboMem, .deviceMemory)] ++
  match g.ibo with
  | some (buffer, mem) => [(buffer, .buffer), (mem, .deviceMemory)]
  | none => []

structure ResidentGeometry where
  gpu : GeometryGpu
  bytes : Nat

structure GeomCache where
  map : AList fun _ : UInt64 => ResidentGeometry
  bytes : Nat
  hits : Nat
  misses : Nat

structure ResidentTexture where
  image : Nat
  imageMem : Nat
  view : Nat
  sampler : Nat
  bytes : Nat

def ResidentTexture.objects (t : ResidentTexture) : List (Nat × VkObject) :=
  [(t.sampler, .sampler), (t.view, .imageView), (t.image, .image), (t.imageMem, .deviceMemory)]

/-- The textures by their keys. -/
abbrev TexMap := AList fun _ : UInt64 => ResidentTexture

def TexMap.objects (map : TexMap) : List (Nat × VkObject) := map.entries.flatMap fun e => e.2.objects

structure TexCache where
  map : TexMap
  bytes : Nat
  hits : Nat
  misses : Nat

/-- What textures are uploaded with.  The command buffer belongs to the pool. -/
structure UploadCtx where
  pool : Nat
  fence : Nat

def UploadCtx.objects (u : UploadCtx) : List (Nat × VkObject) := [(u.fence, .fence), (u.pool, .commandPool)]

abbrev ScratchKey := UInt32 × UInt32 × Bool
abbrev ImportKey := UInt64 × UInt64

/-- What lives on from render to render. -/
structure Caches where
  objCache : GpuObjCache
  descSetLayouts : AList fun _ : DescriptorSig => Nat
  scratchCache : AList fun _ : ScratchKey => SizedScratch
  guestImports : AList fun _ : ImportKey => ImportedGuest
  geomCache : GeomCache
  texCache : TexCache
  uploadCtx : Option UploadCtx

namespace Caches

def new : Caches where
  objCache := { shaderModules := ∅, renderPasses := ∅, pipelines := ∅, hits := 0, misses := 0 }
  descSetLayouts := ∅
  scratchCache := ∅
  guestImports := ∅
  geomCache := { map := ∅, bytes := 0, hits := 0, misses := 0 }
  texCache := { map := ∅, bytes := 0, hits := 0, misses := 0 }
  uploadCtx := none

def pipelines (c : Caches) : List (Nat × VkObject) :=
  c.objCache.pipelines.entries.flatMap fun e => [(e.2.pipeline, .pipeline), (e.2.layout, .pipelineLayout)]

def shaderModules (c : Caches) : List (Nat × VkObject) :=
  c.objCache.shaderModules.entries.map fun e => (e.2, .shaderModule)

def renderPasses (c : Caches) : List (Nat × VkObject) :=
  c.objCache.renderPasses.entries.map fun e => (e.2, .renderPass)

/-- What `GpuObjCache::clear` destroys, in this order. -/
def built (c : Caches) : List (Nat × VkObject) := c.pipelines ++ (c.shaderModules ++ c.renderPasses)

def setLayouts (c : Caches) : List (Nat × VkObject) :=
  c.descSetLayouts.entries.map fun e => (e.2, .descriptorSetLayout)

def scratches (c : Caches) : List (Nat × VkObject) := c.scratchCache.entries.flatMap fun e => e.2.objects

def imports (c : Caches) : List (Nat × VkObject) := c.guestImports.entries.flatMap fun e => e.2.objects

def meshes (c : Caches) : List (Nat × VkObject) := c.geomCache.map.entries.flatMap fun e => e.2.gpu.objects

def textures (c : Caches) : List (Nat × VkObject) := c.texCache.map.objects

def uploads (c : Caches) : List (Nat × VkObject) := c.uploadCtx.toList.flatMap UploadCtx.objects

/-- What is kept of the uploads. -/
def resident (c : Caches) : List (Nat × VkObject) := c.textures ++ (c.meshes ++ c.uploads)

end Caches

abbrev Render (S α : Type) := Body S VkObject Caches VkCall α

/-! ### Parts of a render -/

section Parts

variable {S : Type} [DecidableEq S] (kindOf : S → VkObject) (d : Driver)

/-- A buffer or an image with memory of its own. -/
def backed (t : Target) (object mem : S) : Render S (Nat × Nat) := do
  let o ← acquire kindOf d.ok (.create t) object []
  call d.ok (.memoryType t) []
  let m ← acquire kindOf d.ok (.allocate t) mem []
  call d.ok (.bind t) [(o, kindOf object), (m, kindOf mem)]
  return (o, m)

/-- The buffer that is exported.  It is in no slot before its memory is bound. -/
def exportable (buffer mem : S) : Render S (Nat × Nat) := do
  let b ← create d.ok (.create .exported) (kindOf buffer) []
  call d.ok (.memoryType .exported) []
  let m ← create d.ok (.allocate .exported) (kindOf mem) []
  call d.ok (.bind .exported) [(b, kindOf buffer), (m, kindOf mem)]
  register buffer b
  register mem m
  return (b, m)

/-- Submits the command buffer of the pool and waits for the fence. -/
def submitAndWait (pool fence : Nat) : Render S Unit := do
  call d.ok .submit [(pool, .commandPool), (fence, .fence)]
  call d.ok .wait [(fence, .fence)]

end Parts

/-! ### `render_clear` -/

def clearBody (d : Driver) : Render RenderSlot Unit := do
  let (image, _) ← backed RenderSlot.kind d .image .image .imgMem
  let view ← acquire RenderSlot.kind d.ok (.view .image) .view [(image, .image)]
  let renderPass ← acquire RenderSlot.kind d.ok .renderPass .renderPass []
  let framebuffer ← acquire RenderSlot.kind d.ok .framebuffer .framebuffer
    [(renderPass, .renderPass), (view, .imageView)]
  let (readback, rbMem) ← backed RenderSlot.kind d .readback .readback .rbMem
  -- the pool is in no slot before its command buffer is allocated
  let pool ← create d.ok .commandPool .commandPool []
  call d.ok .commandBuffer [(pool, .commandPool)]
  register .pool pool
  call d.ok .beginCommands [(pool, .commandPool)]
  call d.ok .endCommands [(pool, .commandPool), (renderPass, .renderPass), (framebuffer, .framebuffer),
    (image, .image), (readback, .buffer)]
  let fence ← acquire RenderSlot.kind d.ok .fence .fence []
  submitAndWait d pool fence
  call d.ok (.map .readback) [(rbMem, .deviceMemory)]

/-! ### `convert_present_inner` -/

def convertBody (d : Driver) (exported : Bool) : Render ConvertSlot Unit := do
  let (staging, stMem) ← backed ConvertSlot.kind d .staging .staging .stMem
  call d.ok (.map .staging) [(stMem, .deviceMemory)]
  let (srcImg, _) ← backed ConvertSlot.kind d .source .srcImg .srcMem
  let (dstImg, _) ← backed ConvertSlot.kind d .converted .dstImg .dstMem
  let (rb, rbMem) ← backed ConvertSlot.kind d .readback .rb .rbMem
  let export_ ← (if exported then some <$> exportable ConvertSlot.kind d .exportBuffer .exportMem else pure none)
  let pool ← acquire ConvertSlot.kind d.ok .commandPool .pool []
  call d.ok .commandBuffer [(pool, .commandPool)]
  call d.ok .beginCommands [(pool, .commandPool)]
  call d.ok .endCommands ([(pool, .commandPool), (staging, .buffer), (srcImg, .image), (dstImg, .image),
    (rb, .buffer)] ++ export_.toList.map fun e => (e.1, .buffer))
  let fence ← acquire ConvertSlot.kind d.ok .fence .fence []
  submitAndWait d pool fence
  call d.ok (.map .readback) [(rbMem, .deviceMemory)]
  match export_ with
  | some (_, mem) => call d.ok .exportFd [(mem, .deviceMemory)]
  | none => pure ()

/-! ### `pipeline_for` -/

section Pipelines

variable {S : Type} [DecidableEq S] (d : Driver)

/-- The layout for a signature; at the cap all cached ones are destroyed first. -/
def descSetLayout (sig : DescriptorSig) : Render S Nat := do
  match ← inspect fun c => c.descSetLayouts.lookup sig with
  | some sl => return sl
  | none =>
    drainWhen (fun c => c.descSetLayouts.entries.length ≥ MAX_DESC_SET_LAYOUTS) Caches.setLayouts
      fun c => { c with descSetLayouts := ∅ }
    let sl ← create d.ok .setLayout .descriptorSetLayout []
    onRest fun c => { c with descSetLayouts := c.descSetLayouts.insert sig sl }
    return sl

/-- The set layouts of a draw: none or one. -/
def setLayoutsFor (draw : OwnedForwardedDraw) : Render S (List Nat) := do
  match descSigOf draw with
  | some sig =>
    let sl ← descSetLayout d sig
    return [sl]
  | none => return []

/-- The layout and the pipeline.  If the pipeline fails its layout is destroyed. -/
def buildPipeline (draw : OwnedForwardedDraw) (rp vs fs : Nat) : Render S (Nat × Nat) := do
  let sets ← setLayoutsFor d draw
  let layout ← create d.ok .layout .pipelineLayout (sets.map (·, .descriptorSetLayout))
  let pipeline ← onFailure
    (create d.ok .pipeline .pipeline
      [(layout, .pipelineLayout), (vs, .shaderModule), (fs, .shaderModule), (rp, .renderPass)])
    (destroy (layout, .pipelineLayout))
  return (layout, pipeline)

/-- What `pipeline_for` returns. -/
structure Resolved where
  renderPass : Nat
  pipeline : Nat
  layout : Nat

/-- What a frame is recorded with. -/
def Resolved.objects (f : Resolved) : List (Nat × VkObject) :=
  [(f.renderPass, .renderPass), (f.pipeline, .pipeline)]

/-- The render pass of a format, with a depth attachment or without. -/
def renderPassFor (key : Int32 × Bool) : Render S Nat := do
  match ← inspect fun c => c.objCache.renderPasses.lookup key with
  | some rp => return rp
  | none =>
    let rp ← create d.ok .renderPass .renderPass []
    onRest fun c =>
      { c with objCache := { c.objCache with renderPasses := c.objCache.renderPasses.insert key rp } }
    return rp

/-- The module for a blob, and whether it was made for this call. -/
def moduleFor (e : VkCall) (hash : UInt64) : Render S (Nat × Bool) := do
  match ← inspect fun c => c.objCache.shaderModules.lookup hash with
  | some m => return (m, false)
  | none =>
    let m ← create d.ok e .shaderModule []
    return (m, true)

def destroyIf (isNew : Bool) (m : Nat) : Render S Unit := if isNew then destroy (m, .shaderModule) else pure ()

/-- One module serves both stages of a draw with one blob. -/
def fragmentModuleFor (key : PipelineKey) (vs : Nat) (vsNew : Bool) : Render S (Nat × Bool) :=
  if key.fsHash = key.vsHash then pure (vs, false)
  else onFailure (moduleFor d .fragmentModule key.fsHash) (destroyIf vsNew vs)

/-- The modules that are new and the pipeline go into the cache. -/
def keepPipeline (key : PipelineKey) (vs fs : Nat × Bool) (cp : CachedPipeline) (c : Caches) : Caches :=
  let modules := c.objCache.shaderModules
  let modules := if vs.2 then modules.insert key.vsHash vs.1 else modules
  let modules := if fs.2 then modules.insert key.fsHash fs.1 else modules
  { c with objCache := { c.objCache with
      shaderModules := modules
      misses := c.objCache.misses + 1
      pipelines := c.objCache.pipelines.insert key cp } }

/-- `pipeline_for` where the pipeline is not in the cache. -/
def buildAndCache (draw : OwnedForwardedDraw) (key : PipelineKey) (rp : Nat) : Render S Resolved := do
  let vs ← moduleFor d .vertexModule key.vsHash
  let fs ← fragmentModuleFor d key vs.1 vs.2
  let (layout, pipeline) ← onFailure (buildPipeline d draw rp vs.1 fs.1) do
    destroyIf vs.2 vs.1
    destroyIf fs.2 fs.1
  onRest (keepPipeline key vs fs { pipeline, layout })
  return { renderPass := rp, pipeline, layout }

/-- The cache is full: all of it is destroyed. -/
def evictAtCap : Render S Unit :=
  drainWhen (fun c => c.objCache.pipelines.entries.length ≥ MAX_CACHED_PIPELINES ∨
      c.objCache.shaderModules.entries.length ≥ MAX_CACHED_MODULES) Caches.built
    fun c => { c with objCache := { c.objCache with shaderModules := ∅, renderPasses := ∅, pipelines := ∅ } }

/-- `pipeline_for` with the cache enabled. -/
def pipelineForCached (draw : OwnedForwardedDraw) (format : VkFormat) : Render S Resolved := do
  evictAtCap
  let rp ← renderPassFor d (format, (depthKeyOf draw).1)
  match ← inspect fun c => c.objCache.pipelines.lookup (pipelineKeyOf draw format) with
  | some cp =>
    onRest fun c => { c with objCache := { c.objCache with hits := c.objCache.hits + 1 } }
    return { renderPass := rp, pipeline := cp.pipeline, layout := cp.layout }
  | none => buildAndCache d draw (pipelineKeyOf draw format) rp

/-- Without the cache what is built goes into the slots. -/
def pipelineFor (cacheEnabled : Bool) (draw : OwnedForwardedDraw) (format : VkFormat) : Render RenderSlot Resolved :=
  if cacheEnabled then
    pipelineForCached d draw format
  else do
    let rp ← acquire RenderSlot.kind d.ok .renderPass .renderPass []
    let vs ← acquire RenderSlot.kind d.ok .vertexModule .vsModule []
    let fs ← acquire RenderSlot.kind d.ok .fragmentModule .fsModule []
    let (layout, pipeline) ← buildPipeline d draw rp vs fs
    register .layout layout
    register .pipeline pipeline
    return { renderPass := rp, pipeline, layout }

end Pipelines

/-- `R8G8B8A8_UNORM`. -/
def FORMAT : VkFormat := 37

/-! ### `render_triangle_inner` -/

def triangleBody (cacheEnabled : Bool) (d : Driver) (draw : OwnedForwardedDraw) (exported : Bool) :
    Render RenderSlot Unit := do
  let (image, _) ← backed RenderSlot.kind d .image .image .imgMem
  let view ← acquire RenderSlot.kind d.ok (.view .image) .view [(image, .image)]
  let found ← pipelineFor d cacheEnabled draw FORMAT
  let framebuffer ← acquire RenderSlot.kind d.ok .framebuffer .framebuffer
    [(found.renderPass, .renderPass), (view, .imageView)]
  let (readback, rbMem) ← backed RenderSlot.kind d .readback .readback .rbMem
  let export_ ← (if exported then some <$> exportable RenderSlot.kind d .exportBuffer .exportMem else pure none)
  let pool ← acquire RenderSlot.kind d.ok .commandPool .pool []
  call d.ok .commandBuffer [(pool, .commandPool)]
  call d.ok .beginCommands [(pool, .commandPool)]
  call d.ok .endCommands (found.objects ++ ([(pool, .commandPool), (framebuffer, .framebuffer), (image, .image),
    (readback, .buffer)] ++ export_.toList.map fun e => (e.1, .buffer)))
  let fence ← acquire RenderSlot.kind d.ok .fence .fence []
  submitAndWait d pool fence
  call d.ok (.map .readback) [(rbMem, .deviceMemory)]
  (if d.coherent then pure () else call d.ok .invalidate [(rbMem, .deviceMemory)])
  match export_ with
  | some (_, mem) => call d.ok .exportFd [(mem, .deviceMemory)]
  | none => pure ()

/-! ### The scratch cache -/

/-- The depth image, its memory and its view. -/
def depthAttachment (d : Driver) : Render RenderSlot (Nat × Nat × Nat) := do
  let (image, mem) ← backed RenderSlot.kind d .depth .depthImage .depthMem
  let view ← acquire RenderSlot.kind d.ok (.view .depth) .depthView [(image, .image)]
  return (image, mem, view)

/-- `build_sized_scratch`: what is built is taken out of the guard. -/
def buildSizedScratch (d : Driver) (renderPass : Nat) (withDepth : Bool) : Render RenderSlot SizedScratch := do
  let (image, imgMem) ← backed RenderSlot.kind d .image .image .imgMem
  let view ← acquire RenderSlot.kind d.ok (.view .image) .view [(image, .image)]
  let depth ← (if withDepth then some <$> depthAttachment d else pure none)
  let framebuffer ← acquire RenderSlot.kind d.ok .framebuffer .framebuffer
    ((renderPass, .renderPass) :: (view, .imageView) :: depth.toList.map fun t => (t.2.2, .imageView))
  let (readback, rbMem) ← backed RenderSlot.kind d .readback .readback .rbMem
  let pool ← acquire RenderSlot.kind d.ok .commandPool .pool []
  call d.ok .commandBuffer [(pool, .commandPool)]
  let fence ← acquire RenderSlot.kind d.ok .fence .fence []
  call d.ok (.map .readback) [(rbMem, .deviceMemory)]
  disarm
  return { image, imgMem, view, framebuffer, readback, rbMem, rbCoherent := d.coherent, pool, fence, depth }

/-- The scratch for a key; at the cap all are destroyed first. -/
def scratchFor (d : Driver) (key : ScratchKey) (renderPass : Nat) : Render RenderSlot SizedScratch := do
  match ← inspect fun c => c.scratchCache.lookup key with
  | some ss => return ss
  | none =>
    drainWhen (fun c => c.scratchCache.entries.length ≥ MAX_CACHED_SCRATCH) Caches.scratches
      fun c => { c with scratchCache := ∅ }
    let ss ← nested RenderSlot.kind RenderSlot.dropOrder (buildSizedScratch d renderPass key.2.2)
    onRest fun c => { c with scratchCache := c.scratchCache.insert key ss }
    return ss

/-! ### Imports of guest memory -/

/-- `import_guest_buffer`: what was made is destroyed where a later call fails. -/
def importGuestBuffer (d : Driver) (memHost : Bool) (hostPtrAlign guestPtr : UInt64) :
    Render RenderSlot ImportedGuest := do
  (if !memHost || guestPtr % max hostPtrAlign 1 ≠ 0 then throw .refused else pure ())
  call d.ok .hostPointer []
  call d.ok (.memoryType .guest) []
  let mem ← create d.ok (.allocate .guest) .deviceMemory []
  let buffer ← onFailure (create d.ok (.create .guest) .buffer []) (destroy (mem, .deviceMemory))
  onFailure (call d.ok (.bind .guest) [(buffer, .buffer), (mem, .deviceMemory)]) do
    destroy (buffer, .buffer)
    destroy (mem, .deviceMemory)
  return { mem, buffer }

def importFor (d : Driver) (memHost : Bool) (hostPtrAlign : UInt64) (key : ImportKey) :
    Render RenderSlot ImportedGuest := do
  match ← inspect fun c => c.guestImports.lookup key with
  | some ig => return ig
  | none =>
    drainWhen (fun c => c.guestImports.entries.length ≥ MAX_CACHED_SCRATCH) Caches.imports
      fun c => { c with guestImports := ∅ }
    let ig ← importGuestBuffer d memHost hostPtrAlign key.1
    onRest fun c => { c with guestImports := c.guestImports.insert key ig }
    return ig

end Infinigpu.Vulkan
