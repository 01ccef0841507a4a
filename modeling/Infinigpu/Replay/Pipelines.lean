import Infinigpu.Lib.Arena
import Infinigpu.Lib.Lts
import Infinigpu.Replay.Descriptors
import Infinigpu.Replay.Keys

/-!
# The pipeline cache (`infinigpu-replay`, `build_pipeline` and `pipeline_for`)

Shader modules, render passes and pipelines are kept by key and handed out again.  The key of a pipeline has every
input of `build_pipeline` but two: the names of the entry points are missing, and of the depth comparison it has the
low three bits only.  So a pipeline that is handed out is the one that would be built for the draw exactly if the
resident one was built with the same names and comparison (`transparent_iff`); of the comparison of a draw that was
decoded nothing is lost (`compare_of_decoded`).

A Vulkan object is described by what it was created from, read at the time of its creation: a module that has been
destroyed has no code.  Which creations succeed is given with each call (`Creations`).
-/

namespace Infinigpu

abbrev VkFormat := Int32

inductive PrimitiveTopology where
  | triangleList
  | triangleStrip
deriving DecidableEq, Repr

def PrimitiveTopology.asRaw : PrimitiveTopology → Int32
  | .triangleList => 3
  | .triangleStrip => 4

def mapTopology (t : UInt32) : PrimitiveTopology := if t = 1 then .triangleStrip else .triangleList

def mapVformat (f : UInt32) : VkFormat :=
  if f = 0 then 100
  else if f = 1 then 103
  else if f = 2 then 106
  else if f = 4 then 37
  else if f = 5 then 98
  else 109

inductive CompareOp where
  | never
  | less
  | equal
  | lessOrEqual
  | greater
  | notEqual
  | greaterOrEqual
  | always
deriving DecidableEq, Repr

def mapCompare (c : UInt32) : CompareOp :=
  if c = 0 then .never
  else if c = 1 then .less
  else if c = 2 then .equal
  else if c = 3 then .lessOrEqual
  else if c = 4 then .greater
  else if c = 5 then .notEqual
  else if c = 6 then .greaterOrEqual
  else if c = 7 then .always
  else .lessOrEqual

inductive CullMode where
  | none
  | front
  | back
  | frontAndBack
deriving DecidableEq, Repr

namespace RasterFlags
def cullMask : UInt32 := 3
def frontFaceCw : UInt32 := 4
def blend : UInt32 := 8
end RasterFlags

def mapCullMode (rf : UInt32) : CullMode :=
  let c := rf &&& RasterFlags.cullMask
  if c = 1 then .front else if c = 2 then .back else if c = 3 then .frontAndBack else .none

/-! ### Parts of the key -/

def packDepth (test write : Bool) (compare : UInt32) : UInt32 :=
  (1 : UInt32) ||| test.toUInt32 <<< 1 ||| write.toUInt32 <<< 2 ||| (compare &&& 7) <<< 4

/-- Whether the render pass has a depth attachment, and the depth state in the key. -/
def depthKeyOf (draw : OwnedForwardedDraw) : Bool × UInt32 :=
  match draw.geometry.bind (·.depth) with
  | some d =>
    if d.test || d.write then
      (true, packDepth d.test d.write d.compare)
    else
      (false, 0)
  | none => (false, 0)

def rasterFlagsOf (draw : OwnedForwardedDraw) : UInt32 := (draw.geometry.map (·.rasterFlags)).getD 0

def pushConstSizeOf (draw : OwnedForwardedDraw) : UInt32 :=
  (draw.geometry.map fun g => UInt32.ofNat g.pushConstants.length).getD 0

structure PipelineKey where
  vsHash : UInt64
  fsHash : UInt64
  topology : Int32
  format : Int32
  vinputHash : UInt64
  depthKey : UInt32
  pcSize : UInt32
  descSig : Option DescriptorSig
  rasterFlags : UInt32
deriving DecidableEq

def pipelineKeyOf (draw : OwnedForwardedDraw) (format : VkFormat) : PipelineKey where
  vsHash := hashSpirv draw.vertexSpirv
  fsHash := hashSpirv draw.fragmentSpirv
  topology := (mapTopology draw.topology).asRaw
  format := format
  vinputHash := hashVinput draw
  depthKey := (depthKeyOf draw).2
  pcSize := pushConstSizeOf draw
  descSig := descSigOf draw
  rasterFlags := rasterFlagsOf draw

/-! ### Vulkan objects -/

structure RenderPass where
  format : VkFormat
  withDepth : Bool
deriving DecidableEq, Repr

/-- `pcSize` is the size of the push constant range, which is left out when it is 0. -/
structure PipelineLayout where
  pcSize : UInt32
  setLayouts : List (Option (List SetLayoutBinding))
deriving DecidableEq, Repr

structure PipelineShaderStage where
  module : Option (List UInt32)
  name : List UInt8
deriving DecidableEq, Repr

structure VertexAttribute where
  location : UInt32
  format : VkFormat
  offset : UInt32
deriving DecidableEq, Repr

structure DepthStencil where
  test : Bool
  write : Bool
  compareOp : CompareOp
deriving DecidableEq, Repr

structure GraphicsPipeline where
  vertexStage : PipelineShaderStage
  fragmentStage : PipelineShaderStage
  /-- The strides of the vertex bindings, of which there is at most one. -/
  bindings : List UInt32
  attrs : List VertexAttribute
  topology : PrimitiveTopology
  cullMode : CullMode
  frontFaceCw : Bool
  blendEnable : Bool
  depthStencil : Option DepthStencil
  layout : Option PipelineLayout
  renderPass : Option RenderPass
deriving DecidableEq

structure CachedPipeline where
  pipeline : Nat
  layout : Nat
deriving DecidableEq, Repr

def MAX_CACHED_MODULES : Nat := 512
def MAX_CACHED_PIPELINES : Nat := 256
def MAX_DESC_SET_LAYOUTS : Nat := 64

structure GpuObjCache where
  shaderModules : AList fun _ : UInt64 => Nat
  renderPasses : AList fun _ : Int32 × Bool => Nat
  pipelines : AList fun _ : PipelineKey => CachedPipeline
  hits : Nat
  misses : Nat

/-- The Vulkan objects of a replay, and its caches of them. -/
structure Objects where
  modules : Arena (List UInt32)
  renderPasses : Arena RenderPass
  setLayouts : Arena (List SetLayoutBinding)
  layouts : Arena PipelineLayout
  pipelines : Arena GraphicsPipeline
  objCache : GpuObjCache
  descSetLayouts : AList fun _ : DescriptorSig => Nat

/-- Which creations of a call succeed. -/
structure Creations where
  renderPass : Bool
  vertexModule : Bool
  fragmentModule : Bool
  setLayout : Bool
  layout : Bool
  pipeline : Bool

def Creations.all : Creations := ⟨true, true, true, true, true, true⟩

namespace Objects

def new : Objects where
  modules := .new
  renderPasses := .new
  setLayouts := .new
  layouts := .new
  pipelines := .new
  objCache := { shaderModules := ∅, renderPasses := ∅, pipelines := ∅, hits := 0, misses := 0 }
  descSetLayouts := ∅

/-- The layout for a signature; at the cap all cached ones are destroyed first. -/
def descSetLayout (o : Creations) (sig : DescriptorSig) (g : Objects) : Option Nat × Objects :=
  match g.descSetLayouts.lookup sig with
  | some sl => (some sl, g)
  | none =>
    let g :=
      if g.descSetLayouts.entries.length ≥ MAX_DESC_SET_LAYOUTS then
        { g with
          setLayouts := g.descSetLayouts.entries.foldl (fun s e => s.free e.2) g.setLayouts
          descSetLayouts := ∅ }
      else g
    if o.setLayout then
      (some g.setLayouts.made,
        { g with
          setLayouts := g.setLayouts.alloc (setLayoutBindings sig)
          descSetLayouts := g.descSetLayouts.insert sig g.setLayouts.made })
    else
      (none, g)

/-- The set layouts of a draw: none or one. -/
def setLayoutsFor (o : Creations) (draw : OwnedForwardedDraw) (g : Objects) : Option (List Nat) × Objects :=
  match descSigOf draw with
  | some sig =>
    let (sl, g) := g.descSetLayout o sig
    (sl.map ([·]), g)
  | none => (some [], g)

/-- The depth state, if it needs an attachment. -/
def neededDepth (draw : OwnedForwardedDraw) : Option DepthState :=
  (draw.geometry.bind (·.depth)).filter fun d => d.test || d.write

def depthStencilOf (draw : OwnedForwardedDraw) : Option DepthStencil :=
  (neededDepth draw).map fun d =>
    { test := d.test, write := d.write, compareOp := mapCompare d.compare }

/-- The create info of `build_pipeline`. -/
def pipelineInfo (draw : OwnedForwardedDraw) (topology : PrimitiveTopology) (vs fs : Option (List UInt32))
    (layout : Option PipelineLayout) (renderPass : Option RenderPass) : GraphicsPipeline where
  vertexStage := { module := vs, name := draw.vertexEntry }
  fragmentStage := { module := fs, name := draw.fragmentEntry }
  bindings := ((vertexInputOf draw).map (·.1)).toList
  attrs := ((vertexInputOf draw).map fun v => v.2.map fun a =>
    { location := a.location, format := mapVformat a.format, offset := a.offset }).getD []
  topology := topology
  cullMode := mapCullMode (rasterFlagsOf draw)
  frontFaceCw := rasterFlagsOf draw &&& RasterFlags.frontFaceCw != 0
  blendEnable := rasterFlagsOf draw &&& RasterFlags.blend != 0
  depthStencil := depthStencilOf draw
  layout := layout
  renderPass := renderPass

/-- The layout and the pipeline. -/
def buildPipeline (o : Creations) (rp : Nat) (draw : OwnedForwardedDraw) (topology : PrimitiveTopology) (vs fs : Nat)
    (g : Objects) : Option CachedPipeline × Objects :=
  match g.setLayoutsFor o draw with
  | (none, g) => (none, g)
  | (some sets, g) =>
    if !o.layout then
      (none, g)
    else
      let layout := g.layouts.made
      let g := { g with
        layouts := g.layouts.alloc { pcSize := pushConstSizeOf draw, setLayouts := sets.map g.setLayouts.live } }
      if !o.pipeline then
        (none, { g with layouts := g.layouts.free layout })
      else
        let info := pipelineInfo draw topology (g.modules.live vs) (g.modules.live fs) (g.layouts.live layout)
          (g.renderPasses.live rp)
        (some { pipeline := g.pipelines.made, layout }, { g with pipelines := g.pipelines.alloc info })

/-- What `pipeline_for` returns. -/
structure Found where
  renderPass : Nat
  pipeline : Nat
  layout : Nat

/-! ### Without the cache -/

/-- `pipeline_for` with the cache disabled.  What it creates is destroyed with the scratch of the frame. -/
def pipelineForFresh (o : Creations) (draw : OwnedForwardedDraw) (format : VkFormat) (g : Objects) :
    Option Found × Objects :=
  if !o.renderPass then
    (none, g)
  else
    let rp := g.renderPasses.made
    let g := { g with renderPasses := g.renderPasses.alloc { format, withDepth := (depthKeyOf draw).1 } }
    if !o.vertexModule then
      (none, g)
    else
      let vs := g.modules.made
      let g := { g with modules := g.modules.alloc draw.vertexSpirv }
      if !o.fragmentModule then
        (none, g)
      else
        let fs := g.modules.made
        let g := { g with modules := g.modules.alloc draw.fragmentSpirv }
        match g.buildPipeline o rp draw (mapTopology draw.topology) vs fs with
        | (some cp, g) => (some { renderPass := rp, pipeline := cp.pipeline, layout := cp.layout }, g)
        | (none, g) => (none, g)

/-! ### With the cache -/

/-- `GpuObjCache::clear`. -/
def clear (g : Objects) : Objects :=
  { g with
    pipelines := g.objCache.pipelines.entries.foldl (fun s e => s.free e.2.pipeline) g.pipelines
    layouts := g.objCache.pipelines.entries.foldl (fun s e => s.free e.2.layout) g.layouts
    modules := g.objCache.shaderModules.entries.foldl (fun s e => s.free e.2) g.modules
    renderPasses := g.objCache.renderPasses.entries.foldl (fun s e => s.free e.2) g.renderPasses
    objCache := { g.objCache with shaderModules := ∅, renderPasses := ∅, pipelines := ∅ } }

def evictAtCap (g : Objects) : Objects :=
  if g.objCache.pipelines.entries.length ≥ MAX_CACHED_PIPELINES ∨
      g.objCache.shaderModules.entries.length ≥ MAX_CACHED_MODULES then
    g.clear
  else g

def renderPassFor (o : Creations) (format : VkFormat) (withDepth : Bool) (g : Objects) : Option Nat × Objects :=
  match g.objCache.renderPasses.lookup (format, withDepth) with
  | some rp => (some rp, g)
  | none =>
    if o.renderPass then
      (some g.renderPasses.made,
        { g with
          renderPasses := g.renderPasses.alloc { format, withDepth }
          objCache := { g.objCache with
            renderPasses := g.objCache.renderPasses.insert (format, withDepth) g.renderPasses.made } })
    else
      (none, g)

/-- A module from the cache, or a new one that is not in it yet. -/
def moduleFor (ok : Bool) (hash : UInt64) (code : List UInt32) (g : Objects) : Option (Nat × Bool) × Objects :=
  match g.objCache.shaderModules.lookup hash with
  | some m => (some (m, false), g)
  | none =>
    if ok then (some (g.modules.made, true), { g with modules := g.modules.alloc code }) else (none, g)

def destroyIf (isNew : Bool) (m : Nat) (g : Objects) : Objects :=
  if isNew then { g with modules := g.modules.free m } else g

def cacheModuleIf (isNew : Bool) (hash : UInt64) (m : Nat) (g : Objects) : Objects :=
  if isNew then
    { g with objCache := { g.objCache with shaderModules := g.objCache.shaderModules.insert hash m } }
  else g

/-- An identical blob is one module for both stages. -/
def fragmentModuleFor (ok : Bool) (key : PipelineKey) (vs : Nat) (code : List UInt32) (g : Objects) :
    Option (Nat × Bool) × Objects :=
  if key.fsHash = key.vsHash then (some (vs, false), g) else g.moduleFor ok key.fsHash code

/-- The miss: a failed build leaves nothing behind. -/
def buildAndCache (o : Creations) (rp : Nat) (draw : OwnedForwardedDraw) (format : VkFormat) (g : Objects) :
    Option Found × Objects :=
  let key := pipelineKeyOf draw format
  match g.moduleFor o.vertexModule key.vsHash draw.vertexSpirv with
  | (none, g) => (none, g)
  | (some (vs, vsNew), g) =>
    match g.fragmentModuleFor o.fragmentModule key vs draw.fragmentSpirv with
    | (none, g) => (none, g.destroyIf vsNew vs)
    | (some (fs, fsNew), g) =>
      match g.buildPipeline o rp draw (mapTopology draw.topology) vs fs with
      | (none, g) => (none, (g.destroyIf vsNew vs).destroyIf fsNew fs)
      | (some cp, g) =>
        let g := (g.cacheModuleIf vsNew key.vsHash vs).cacheModuleIf fsNew key.fsHash fs
        (some { renderPass := rp, pipeline := cp.pipeline, layout := cp.layout },
          { g with objCache := { g.objCache with
              misses := g.objCache.misses + 1, pipelines := g.objCache.pipelines.insert key cp } })

/-- `pipeline_for` with the cache enabled. -/
def pipelineFor (o : Creations) (draw : OwnedForwardedDraw) (format : VkFormat) (g : Objects) :
    Option Found × Objects :=
  match g.evictAtCap.renderPassFor o format (depthKeyOf draw).1 with
  | (none, g) => (none, g)
  | (some rp, g) =>
    match g.objCache.pipelines.lookup (pipelineKeyOf draw format) with
    | some cp => (some { renderPass := rp, pipeline := cp.pipeline, layout := cp.layout },
        { g with objCache := { g.objCache with hits := g.objCache.hits + 1 } })
    | none => g.buildAndCache o rp draw format

end Objects

/-! ### What the key has of the depth state -/

section

variable {t w t' w' : Bool} {c c' : UInt32} {draw draw' : OwnedForwardedDraw} {format format' : VkFormat}

private theorem packDepth_bit (t w : Bool) (c : UInt32) : (packDepth t w c).toBitVec.getLsbD 0 = true ∧
    (packDepth t w c).toBitVec.getLsbD 1 = t ∧ (packDepth t w c).toBitVec.getLsbD 2 = w := by
  unfold packDepth
  refine ⟨?_, ?_, ?_⟩ <;> cases t <;> cases w <;> simp [UInt32.toBitVec_or]

private theorem packDepth_ne_zero (t w : Bool) (c : UInt32) : packDepth t w c ≠ 0 := by
  intro h
  have hbit := (packDepth_bit t w c).1
  rw [h] at hbit
  cases hbit

private theorem packDepth_inj (h : packDepth t w c = packDepth t' w' c') : t = t' ∧ w = w' := by
  obtain ⟨-, ht, hw⟩ := packDepth_bit t w c
  obtain ⟨-, ht', hw'⟩ := packDepth_bit t' w' c'
  rw [h] at ht hw
  exact ⟨ht.symm.trans ht', hw.symm.trans hw'⟩

private theorem low_bits : ∀ i : Fin 32, (7#32)[i] = decide (i < 3) ∧ (112#32).getLsbD (4 + i) = decide (i < 3) := by
  decide

private theorem packDepth_compare (t w : Bool) (c : UInt32) : packDepth t w c >>> 4 &&& 7 = c &&& 7 := by
  unfold packDepth
  apply UInt32.toBitVec_inj.1
  ext i hi
  have hbit : (7#32)[i] = decide (i < 3) := (low_bits ⟨i, hi⟩).1
  by_cases hlt : i < 3
  · obtain rfl | rfl | rfl : i = 0 ∨ i = 1 ∨ i = 2 := by omega
    all_goals cases t <;> cases w <;> simp [UInt32.toBitVec_or]
  · rw [decide_eq_false hlt] at hbit
    simp [hbit]

/-- The comparison of a decoded draw fits into the key. -/
private theorem unpackDepth_compare {f : UInt32} {d : DepthState} (h : unpackDepth f = some d) :
    d.compare &&& 7 = d.compare := by
  unfold unpackDepth at h
  simp only [Option.ite_none_right_eq_some, Option.some_inj] at h
  obtain ⟨-, rfl⟩ := h
  show (f &&& DepthFlags.compareMask) >>> DepthFlags.compareShift &&& (7 : UInt32) =
    (f &&& DepthFlags.compareMask) >>> DepthFlags.compareShift
  apply UInt32.toBitVec_inj.1
  ext i hi
  obtain ⟨hbit, hmask⟩ := low_bits ⟨i, hi⟩
  simp at hbit hmask
  simp [hbit, hmask, DepthFlags.compareMask, DepthFlags.compareShift]

open Objects

private theorem depthKeyOf_eq (draw : OwnedForwardedDraw) : depthKeyOf draw =
    ((neededDepth draw).map fun d => (true, packDepth d.test d.write d.compare)).getD (false, 0) := by
  unfold depthKeyOf neededDepth
  cases draw.geometry.bind (·.depth) with
  | none => rfl
  | some d =>
    cases hneeded : d.test || d.write with
    | true => simp only [hneeded, if_true, Option.filter, Option.map_some, Option.getD_some]
    | false => simp only [hneeded, Option.filter, Bool.false_eq_true, if_false, Option.map_none, Option.getD_none]

/-- With equal depth keys the depth states differ at most in the comparison. -/
private theorem depth_of_key (h : (depthKeyOf draw).2 = (depthKeyOf draw').2) :
    (depthKeyOf draw).1 = (depthKeyOf draw').1 ∧
      (depthStencilOf draw = depthStencilOf draw' ↔
        (depthStencilOf draw).map (·.compareOp) = (depthStencilOf draw').map (·.compareOp)) := by
  rw [depthKeyOf_eq, depthKeyOf_eq] at h ⊢
  unfold depthStencilOf
  revert h
  cases neededDepth draw with
  | none =>
    cases neededDepth draw' with
    | none => exact fun _ => ⟨rfl, iff_of_true rfl rfl⟩
    | some d' => exact fun h => absurd h.symm (packDepth_ne_zero _ _ _)
  | some d =>
    cases neededDepth draw' with
    | none => exact fun h => absurd h (packDepth_ne_zero _ _ _)
    | some d' =>
      intro h
      obtain ⟨ht, hw⟩ := packDepth_inj h
      refine ⟨rfl, ?_⟩
      simp only [Option.map_some, Option.some_inj, DepthStencil.mk.injEq, ht, hw, true_and]

/-- Of the comparison of a decoded draw nothing is lost in the key. -/
theorem compare_of_decoded {payload payload' : List UInt8} {maxBytes maxBytes' : Nat}
    (hdraw : decodeForwardedCmdlist payload maxBytes = some draw)
    (hdraw' : decodeForwardedCmdlist payload' maxBytes' = some draw')
    (h : (depthKeyOf draw).2 = (depthKeyOf draw').2) : depthStencilOf draw = depthStencilOf draw' := by
  have hrange : ∀ {draw : OwnedForwardedDraw} {payload : List UInt8} {maxBytes : Nat},
      decodeForwardedCmdlist payload maxBytes = some draw → ∀ d, neededDepth draw = some d →
        d.compare &&& 7 = d.compare := by
    intro draw payload maxBytes hdecoded d hd
    obtain ⟨-, -, s, -, -, hparts⟩ := decodeForwardedCmdlist_eq_some_iff.1 hdecoded
    obtain ⟨attrs, draws, textures, uniforms, vertexEntry, fragmentEntry, -, rfl⟩ := decodeParts_eq_some_iff.1 hparts
    exact unpackDepth_compare (Option.filter_eq_some_iff.1 hd).1
  have hd := hrange hdraw
  have hd' := hrange hdraw'
  rw [depthKeyOf_eq, depthKeyOf_eq] at h
  unfold depthStencilOf
  revert h hd hd'
  cases neededDepth draw with
  | none =>
    cases neededDepth draw' with
    | none => exact fun _ _ _ => rfl
    | some d' => exact fun h => absurd h.symm (packDepth_ne_zero _ _ _)
  | some d =>
    cases neededDepth draw' with
    | none => exact fun h => absurd h (packDepth_ne_zero _ _ _)
    | some d' =>
      intro h hd hd'
      have hkey : packDepth d.test d.write d.compare = packDepth d'.test d'.write d'.compare := h
      obtain ⟨ht, hw⟩ := packDepth_inj hkey
      have hc : d.compare = d'.compare := by
        rw [← hd d rfl, ← hd' d' rfl, ← packDepth_compare d.test d.write, hkey, packDepth_compare]
      rw [Option.map_some, Option.map_some, ht, hw, hc]

/-! ### What is built for a draw -/

/-- The layout of the pipeline of a draw. -/
def layoutOf (draw : OwnedForwardedDraw) : PipelineLayout where
  pcSize := pushConstSizeOf draw
  setLayouts := ((descSigOf draw).map fun sig => some (setLayoutBindings sig)).toList

/-- The pipeline that is built for a draw. -/
def pipelineOf (draw : OwnedForwardedDraw) (format : VkFormat) : GraphicsPipeline :=
  pipelineInfo draw (mapTopology draw.topology) (some draw.vertexSpirv) (some draw.fragmentSpirv)
    (some (layoutOf draw)) (some { format, withDepth := (depthKeyOf draw).1 })

/-- The two inputs of the pipeline that its key does not have. -/
def GraphicsPipeline.SameEntries (p : GraphicsPipeline) (draw : OwnedForwardedDraw) : Prop :=
  p.vertexStage.name = draw.vertexEntry ∧ p.fragmentStage.name = draw.fragmentEntry ∧
    p.depthStencil.map (·.compareOp) = (depthStencilOf draw).map (·.compareOp)

instance (p : GraphicsPipeline) (draw : OwnedForwardedDraw) : Decidable (p.SameEntries draw) := by
  unfold GraphicsPipeline.SameEntries; infer_instance

/-- The code of the shaders of some draws. -/
def codes (S : Set OwnedForwardedDraw) : Set (List UInt32) :=
  {code | ∃ draw ∈ S, code = draw.vertexSpirv ∨ code = draw.fragmentSpirv}

private theorem PrimitiveTopology.asRaw_inj {a b : PrimitiveTopology} (h : a.asRaw = b.asRaw) : a = b := by
  cases a <;> cases b
  · rfl
  · exact absurd h (by decide)
  · exact absurd h (by decide)
  · rfl

/-- The hashes tell the shaders and the vertex layouts of some draws apart. -/
structure HashesInjective (S : Set OwnedForwardedDraw) : Prop where
  spirv : Set.InjOn hashSpirv (codes S)
  vinput : Set.InjOn hashVertexInput {v | ∃ draw ∈ S, v = vertexInputOf draw}

private theorem pipelineOf_eq_iff {S : Set OwnedForwardedDraw} (hS : HashesInjective S) (hdraw : draw ∈ S)
    (hdraw' : draw' ∈ S) (hkey : pipelineKeyOf draw format = pipelineKeyOf draw' format') :
    pipelineOf draw format = pipelineOf draw' format' ↔ (pipelineOf draw format).SameEntries draw' := by
  have hv : draw.vertexSpirv = draw'.vertexSpirv :=
    hS.spirv ⟨draw, hdraw, .inl rfl⟩ ⟨draw', hdraw', .inl rfl⟩ (congrArg PipelineKey.vsHash hkey)
  have hf : draw.fragmentSpirv = draw'.fragmentSpirv :=
    hS.spirv ⟨draw, hdraw, .inr rfl⟩ ⟨draw', hdraw', .inr rfl⟩ (congrArg PipelineKey.fsHash hkey)
  have hvinput : vertexInputOf draw = vertexInputOf draw' :=
    hS.vinput ⟨draw, hdraw, rfl⟩ ⟨draw', hdraw', rfl⟩ (congrArg PipelineKey.vinputHash hkey)
  have htopology : mapTopology draw.topology = mapTopology draw'.topology :=
    PrimitiveTopology.asRaw_inj (congrArg PipelineKey.topology hkey)
  have hformat : format = format' := congrArg PipelineKey.format hkey
  have hpc : pushConstSizeOf draw = pushConstSizeOf draw' := congrArg PipelineKey.pcSize hkey
  have hsig : descSigOf draw = descSigOf draw' := congrArg PipelineKey.descSig hkey
  have hraster : rasterFlagsOf draw = rasterFlagsOf draw' := congrArg PipelineKey.rasterFlags hkey
  obtain ⟨hwith, hdepth⟩ := depth_of_key (congrArg PipelineKey.depthKey hkey)
  have hlayout : layoutOf draw = layoutOf draw' := by
    unfold layoutOf
    rw [hpc, hsig]
  unfold GraphicsPipeline.SameEntries
  simp only [pipelineOf, pipelineInfo, GraphicsPipeline.mk.injEq, PipelineShaderStage.mk.injEq, hv, hf, hvinput,
    htopology, hformat, hraster, hwith, hlayout, hdepth, true_and, and_true]

end

/-! ### What a call keeps -/

namespace Objects

variable {g g' : Objects} {o : Creations} {draw : OwnedForwardedDraw} {format : VkFormat} {S : Set OwnedForwardedDraw}
  {topology : PrimitiveTopology} {rp vs fs m : Nat} {sig : DescriptorSig}

/-- The cached set layouts have the bindings of their signatures. -/
def SetLayouts (g : Objects) : Prop :=
  Arena.Backs id (fun sig bs => bs = setLayoutBindings sig) g.descSetLayouts g.setLayouts

/-- A call keeps the cache and what is in it; of the set layouts it keeps those that it still has. -/
structure Extends (g g' : Objects) : Prop where
  objCache : g'.objCache = g.objCache
  modules : g.modules.Keeps g'.modules
  renderPasses : g.renderPasses.Keeps g'.renderPasses
  layouts : g.layouts.Keeps g'.layouts
  pipelines : g.pipelines.Keeps g'.pipelines
  setLayouts : g.SetLayouts → g'.SetLayouts

private theorem Extends.refl (g : Objects) : Extends g g :=
  ⟨rfl, .refl _, .refl _, .refl _, .refl _, id⟩

private theorem Extends.trans {g'' : Objects} (h : Extends g g') (h' : Extends g' g'') : Extends g g'' where
  objCache := h'.objCache.trans h.objCache
  modules := h.modules.trans h'.modules
  renderPasses := h.renderPasses.trans h'.renderPasses
  layouts := h.layouts.trans h'.layouts
  pipelines := h.pipelines.trans h'.pipelines
  setLayouts := h'.setLayouts ∘ h.setLayouts

private theorem setLayouts_insert (h : g.SetLayouts) (sig : DescriptorSig) :
    Arena.Backs id (fun sig bs => bs = setLayoutBindings sig) (g.descSetLayouts.insert sig g.setLayouts.made)
      (g.setLayouts.alloc (setLayoutBindings sig)) :=
  (h.keeps ((Arena.Keeps.refl _).alloc _)).insert (Arena.live_alloc _ _) rfl

private theorem descSetLayout_spec (o : Creations) (sig : DescriptorSig) (h : g.SetLayouts) :
    Extends g (g.descSetLayout o sig).2 ∧ ∀ sl, (g.descSetLayout o sig).1 = some sl →
      (g.descSetLayout o sig).2.setLayouts.live sl = some (setLayoutBindings sig) := by
  unfold descSetLayout
  cases hlookup : g.descSetLayouts.lookup sig with
  | some sl =>
    refine ⟨.refl g, fun sl' hsl => ?_⟩
    cases hsl
    obtain ⟨bs, hbs, rfl⟩ := h sig sl hlookup
    exact hbs
  | none =>
    simp only
    -- the table after the eviction
    generalize hg : (if g.descSetLayouts.entries.length ≥ MAX_DESC_SET_LAYOUTS then
      { g with
        setLayouts := g.descSetLayouts.entries.foldl (fun s e => s.free e.2) g.setLayouts
        descSetLayouts := ∅ }
      else g) = g₁
    have hg₁ : Extends g g₁ ∧ g₁.SetLayouts := by
      subst hg
      by_cases hcap : g.descSetLayouts.entries.length ≥ MAX_DESC_SET_LAYOUTS
      · rw [if_pos hcap]
        exact ⟨⟨rfl, .refl _, .refl _, .refl _, .refl _, fun _ => Arena.backs_empty⟩, Arena.backs_empty⟩
      · rw [if_neg hcap]
        exact ⟨.refl g, h⟩
    obtain ⟨hext, hsets⟩ := hg₁
    by_cases hok : o.setLayout
    · rw [if_pos hok]
      refine ⟨hext.trans ⟨rfl, .refl _, .refl _, .refl _, .refl _, fun h => setLayouts_insert h sig⟩,
        fun sl hsl => ?_⟩
      cases hsl
      exact Arena.live_alloc _ _
    · rw [if_neg hok]
      exact ⟨hext, fun sl hsl => by cases hsl⟩

private theorem setLayoutsFor_spec (o : Creations) (draw : OwnedForwardedDraw) (h : g.SetLayouts) :
    Extends g (g.setLayoutsFor o draw).2 ∧ ∀ sets, (g.setLayoutsFor o draw).1 = some sets →
      sets.map (g.setLayoutsFor o draw).2.setLayouts.live = (layoutOf draw).setLayouts := by
  unfold setLayoutsFor layoutOf
  cases hsig : descSigOf draw with
  | none =>
    refine ⟨.refl g, fun sets hsets => ?_⟩
    cases hsets
    rfl
  | some sig =>
    obtain ⟨hext, hlive⟩ := descSetLayout_spec o sig h
    simp only
    refine ⟨hext, fun sets hsets => ?_⟩
    obtain ⟨sl, hsl, rfl⟩ := Option.map_eq_some_iff.1 hsets
    rw [List.map_singleton, hlive sl hsl]
    rfl

/-- A pipeline that is built has the code behind the two modules and the layout of its draw. -/
private theorem buildPipeline_spec (o : Creations) (rp : Nat) (draw : OwnedForwardedDraw)
    (topology : PrimitiveTopology) (vs fs : Nat) (h : g.SetLayouts) :
    Extends g (g.buildPipeline o rp draw topology vs fs).2 ∧
      ∀ cp, (g.buildPipeline o rp draw topology vs fs).1 = some cp →
        (g.buildPipeline o rp draw topology vs fs).2.layouts.live cp.layout = some (layoutOf draw) ∧
        ∀ vcode fcode pass, g.modules.live vs = some vcode → g.modules.live fs = some fcode →
          g.renderPasses.live rp = some pass →
          (g.buildPipeline o rp draw topology vs fs).2.pipelines.live cp.pipeline =
            some (pipelineInfo draw topology (some vcode) (some fcode) (some (layoutOf draw)) (some pass)) := by
  obtain ⟨hext, hsets⟩ := setLayoutsFor_spec o draw h
  unfold buildPipeline
  cases hresult : g.setLayoutsFor o draw with
  | mk sets g₁ =>
    rw [hresult] at hext hsets
    cases sets with
    | none => exact ⟨hext, fun cp hcp => by cases hcp⟩
    | some sets =>
      simp only at hext hsets ⊢
      have hlayout : ({ pcSize := pushConstSizeOf draw, setLayouts := sets.map g₁.setLayouts.live } :
        PipelineLayout) =
          layoutOf draw := by
        rw [hsets sets rfl]
        rfl
      cases hok : o.layout with
      | false =>
        simp only [Bool.not_false, if_true]
        exact ⟨hext, fun cp hcp => by cases hcp⟩
      | true =>
        simp only [Bool.not_true, Bool.false_eq_true, if_false, hlayout]
        cases hpipeline : o.pipeline with
        | false =>
          simp only [Bool.not_false, if_true]
          refine ⟨hext.trans ⟨rfl, .refl _, .refl _, ?_, .refl _, id⟩, fun cp hcp => by cases hcp⟩
          exact ((Arena.Keeps.refl _).alloc _).free_new (Nat.le_refl _)
        | true =>
          simp only [Bool.not_true, Bool.false_eq_true, if_false]
          refine ⟨hext.trans ⟨rfl, .refl _, .refl _, (Arena.Keeps.refl _).alloc _, (Arena.Keeps.refl _).alloc _, id⟩,
            ?_⟩
          intro cp hcp
          cases hcp
          refine ⟨Arena.live_alloc _ _, fun vcode fcode pass hv hf hp => ?_⟩
          rw [hext.modules.live _ _ hv, hext.modules.live _ _ hf, hext.renderPasses.live _ _ hp, Arena.live_alloc,
            Arena.live_alloc]

/-- What the handles that are returned stand for. -/
def describe (g : Objects) (f : Found) : Option RenderPass × Option GraphicsPipeline × Option PipelineLayout :=
  (g.renderPasses.live f.renderPass, g.pipelines.live f.pipeline, g.layouts.live f.layout)

/-- Without the cache what is returned is built for the draw. -/
private theorem pipelineForFresh_describe (h : g.SetLayouts) {f : Found}
    (hf : g.pipelineForFresh o draw format = (some f, g')) : g'.describe f =
      (some { format, withDepth := (depthKeyOf draw).1 }, some (pipelineOf draw format), some (layoutOf draw)) := by
  unfold pipelineForFresh at hf
  cases hrp : o.renderPass with
  | false =>
    simp only [hrp, Bool.not_false, if_true] at hf
    cases hf
  | true =>
  cases hv : o.vertexModule with
  | false =>
    simp only [hrp, hv, Bool.not_true, Bool.not_false, Bool.false_eq_true, if_false, if_true] at hf
    cases hf
  | true =>
  cases hfm : o.fragmentModule with
  | false =>
    simp only [hrp, hv, hfm, Bool.not_true, Bool.not_false, Bool.false_eq_true, if_false, if_true] at hf
    cases hf
  | true =>
    simp only [hrp, hv, hfm, Bool.not_true, Bool.false_eq_true, if_false] at hf
    generalize hg₁ : ({ g with
      renderPasses := g.renderPasses.alloc { format, withDepth := (depthKeyOf draw).1 }
      modules := (g.modules.alloc draw.vertexSpirv).alloc draw.fragmentSpirv } : Objects) = g₁ at hf
    have hsets : g₁.SetLayouts := by
      subst hg₁
      exact h
    obtain ⟨hext, hbuilt⟩ := buildPipeline_spec o g.renderPasses.made draw (mapTopology draw.topology) g.modules.made
      (g.modules.alloc draw.vertexSpirv).made hsets
    cases hresult : g₁.buildPipeline o g.renderPasses.made draw (mapTopology draw.topology) g.modules.made
        (g.modules.alloc draw.vertexSpirv).made with
    | mk cp g₂ =>
      rw [hresult] at hf hbuilt hext
      cases cp with
      | none => cases hf
      | some cp =>
        cases hf
        obtain ⟨hlayout, hpipeline⟩ := hbuilt cp rfl
        have hpass : g₁.renderPasses.live g.renderPasses.made =
          some { format, withDepth := (depthKeyOf draw).1 } := by
          subst hg₁
          exact Arena.live_alloc _ _
        have hvertex : g₁.modules.live g.modules.made = some draw.vertexSpirv := by
          subst hg₁
          exact Arena.live_alloc_of_live (Arena.live_alloc _ _) _
        have hfragment : g₁.modules.live (g.modules.alloc draw.vertexSpirv).made = some draw.fragmentSpirv := by
          subst hg₁
          exact Arena.live_alloc _ _
        unfold describe
        rw [hext.renderPasses.live _ _ hpass, hlayout, hpipeline _ _ _ hvertex hfragment hpass]
        rfl

/-! ### The cache -/

/-- What is in the cache is what its keys say; the pipelines were built for draws with their keys. -/
structure Good (S : Set OwnedForwardedDraw) (g : Objects) : Prop where
  modules : Arena.Backs id (fun h code => code ∈ codes S ∧ hashSpirv code = h) g.objCache.shaderModules g.modules
  renderPasses : Arena.Backs id (fun k pass => pass = { format := k.1, withDepth := k.2 }) g.objCache.renderPasses
    g.renderPasses
  layouts : Arena.Backs CachedPipeline.layout (fun k layout => ∃ draw ∈ S, ∃ format,
    k = pipelineKeyOf draw format ∧ layout = layoutOf draw) g.objCache.pipelines g.layouts
  pipelines : Arena.Backs CachedPipeline.pipeline (fun k p => ∃ draw ∈ S, ∃ format,
    k = pipelineKeyOf draw format ∧ p = pipelineOf draw format) g.objCache.pipelines g.pipelines
  /-- A pipeline is destroyed no later than the render pass of its draws. -/
  passes : ∀ draw format, (g.objCache.pipelines.lookup (pipelineKeyOf draw format)).isSome →
    (g.objCache.renderPasses.lookup (format, (depthKeyOf draw).1)).isSome
  setLayouts : g.SetLayouts

private theorem good_new : (new : Objects).Good S where
  modules := Arena.backs_empty
  renderPasses := Arena.backs_empty
  layouts := Arena.backs_empty
  pipelines := Arena.backs_empty
  passes _ _ h := by cases h
  setLayouts := Arena.backs_empty

private theorem Good.extends (h : g.Good S) (hext : Extends g g') : g'.Good S where
  modules := by
    rw [hext.objCache]
    exact h.modules.keeps hext.modules
  renderPasses := by
    rw [hext.objCache]
    exact h.renderPasses.keeps hext.renderPasses
  layouts := by
    rw [hext.objCache]
    exact h.layouts.keeps hext.layouts
  pipelines := by
    rw [hext.objCache]
    exact h.pipelines.keeps hext.pipelines
  passes := by
    rw [hext.objCache]
    exact h.passes
  setLayouts := hext.setLayouts h.setLayouts

private theorem Good.evictAtCap (h : g.Good S) : g.evictAtCap.Good S := by
  unfold Objects.evictAtCap
  by_cases hcap : g.objCache.pipelines.entries.length ≥ MAX_CACHED_PIPELINES ∨
      g.objCache.shaderModules.entries.length ≥ MAX_CACHED_MODULES
  · rw [if_pos hcap]
    exact ⟨Arena.backs_empty, Arena.backs_empty, Arena.backs_empty, Arena.backs_empty, fun _ _ h => (by cases h),
      h.setLayouts⟩
  · rw [if_neg hcap]
    exact h

private theorem renderPassFor_spec (o : Creations) (format : VkFormat) (withDepth : Bool) (h : g.Good S) :
    (g.renderPassFor o format withDepth).2.Good S ∧
      (g.renderPassFor o format withDepth).2.objCache.pipelines = g.objCache.pipelines ∧
      (g.renderPassFor o format withDepth).2.pipelines = g.pipelines ∧
      ∀ rp, (g.renderPassFor o format withDepth).1 = some rp →
        (g.renderPassFor o format withDepth).2.renderPasses.live rp = some { format, withDepth } ∧
        ((g.renderPassFor o format withDepth).2.objCache.renderPasses.lookup (format, withDepth)).isSome := by
  unfold renderPassFor
  cases hlookup : g.objCache.renderPasses.lookup (format, withDepth) with
  | some rp =>
    refine ⟨h, rfl, rfl, fun rp' hrp => ?_⟩
    cases hrp
    obtain ⟨pass, hpass, rfl⟩ := h.renderPasses _ rp hlookup
    exact ⟨hpass, by rw [hlookup]; rfl⟩
  | none =>
    by_cases hok : o.renderPass
    · rw [if_pos hok]
      have hpasses : Arena.Backs id (fun k pass => pass = { format := k.1, withDepth := k.2 })
          (g.objCache.renderPasses.insert (format, withDepth) g.renderPasses.made)
          (g.renderPasses.alloc { format, withDepth }) :=
        (h.renderPasses.keeps ((Arena.Keeps.refl _).alloc _)).insert (Arena.live_alloc _ _) rfl
      refine ⟨{ h with renderPasses := hpasses, passes := fun draw format' hsome => ?_ }, rfl, rfl, fun rp hrp => ?_⟩
      · by_cases hkey : (format', (depthKeyOf draw).1) = (format, withDepth)
        · rw [hkey, AList.lookup_insert]
          rfl
        · rw [AList.lookup_insert_ne hkey]
          exact h.passes draw format' hsome
      · cases hrp
        refine ⟨Arena.live_alloc _ _, ?_⟩
        rw [AList.lookup_insert]
        rfl
    · rw [if_neg hok]
      exact ⟨h, rfl, rfl, fun rp hrp => by cases hrp⟩

/-- A module that is in the cache, or new. -/
private theorem moduleFor_spec {code : List UInt32} (ok : Bool) (hinj : Set.InjOn hashSpirv (codes S))
    (hcode : code ∈ codes S) (h : g.Good S) :
    Extends g (g.moduleFor ok (hashSpirv code) code).2 ∧
      ∀ m isNew, (g.moduleFor ok (hashSpirv code) code).1 = some (m, isNew) →
        (g.moduleFor ok (hashSpirv code) code).2.modules.live m = some code ∧
        (isNew = true → m = g.modules.made) := by
  unfold moduleFor
  cases hlookup : g.objCache.shaderModules.lookup (hashSpirv code) with
  | some m =>
    refine ⟨.refl g, fun m' isNew hm => ?_⟩
    cases hm
    obtain ⟨code', hlive, hcode', hhash⟩ := h.modules _ m hlookup
    rw [hinj hcode' hcode hhash] at hlive
    exact ⟨hlive, fun hnew => by cases hnew⟩
  | none =>
    by_cases hok : ok = true
    · rw [if_pos hok]
      refine ⟨⟨rfl, (Arena.Keeps.refl _).alloc _, .refl _, .refl _, .refl _, id⟩, fun m isNew hm => ?_⟩
      cases hm
      exact ⟨Arena.live_alloc _ _, fun _ => rfl⟩
    · rw [if_neg hok]
      exact ⟨.refl g, fun m isNew hm => by cases hm⟩

private theorem Extends.destroyIf {isNew : Bool} (h : Extends g g') (hnew : isNew = true → g.modules.made ≤ m) :
    Extends g (g'.destroyIf isNew m) := by
  unfold Objects.destroyIf
  cases isNew with
  | false => exact h
  | true => exact { h with modules := h.modules.free_new (hnew rfl) }

private theorem Good.cacheModuleIf {code : List UInt32} (h : g.Good S) (isNew : Bool) (hcode : code ∈ codes S)
    (hlive : g.modules.live m = some code) : (g.cacheModuleIf isNew (hashSpirv code) m).Good S := by
  unfold Objects.cacheModuleIf
  cases isNew with
  | false => exact h
  | true => exact { h with modules := h.modules.insert hlive ⟨hcode, rfl⟩ }

/-- Only the cached modules are touched. -/
private theorem cacheModuleIf_eq (isNew : Bool) (hash : UInt64) (m : Nat) (g : Objects) :
    ∃ sm, g.cacheModuleIf isNew hash m = { g with objCache := { g.objCache with shaderModules := sm } } := by
  cases isNew with
  | false => exact ⟨_, rfl⟩
  | true => exact ⟨_, rfl⟩

private theorem fragmentModuleFor_spec (key : PipelineKey) {code : List UInt32} (ok : Bool)
    (hinj : Set.InjOn hashSpirv (codes S)) (hcode : code ∈ codes S) (hkey : key.fsHash = hashSpirv code)
    (h : g.Good S) {vcode : List UInt32} (hvcode : vcode ∈ codes S) (hvkey : key.vsHash = hashSpirv vcode)
    (hv : g.modules.live vs = some vcode) :
    Extends g (g.fragmentModuleFor ok key vs code).2 ∧
      ∀ m isNew, (g.fragmentModuleFor ok key vs code).1 = some (m, isNew) →
        (g.fragmentModuleFor ok key vs code).2.modules.live m = some code ∧ (isNew = true → m = g.modules.made) := by
  unfold fragmentModuleFor
  by_cases hsame : key.fsHash = key.vsHash
  · rw [if_pos hsame]
    refine ⟨.refl g, fun m isNew hm => ?_⟩
    cases hm
    rw [hkey, hvkey] at hsame
    rw [hinj hcode hvcode hsame]
    exact ⟨hv, fun hnew => by cases hnew⟩
  · rw [if_neg hsame, hkey]
    exact moduleFor_spec ok hinj hcode h

private theorem Good.insertPipeline {cp : CachedPipeline} (h : g.Good S) (hdraw : draw ∈ S)
    (hlayout : g.layouts.live cp.layout = some (layoutOf draw))
    (hpipeline : g.pipelines.live cp.pipeline = some (pipelineOf draw format))
    (hpass : (g.objCache.renderPasses.lookup (format, (depthKeyOf draw).1)).isSome) :
    Good S { g with objCache := { g.objCache with
      misses := g.objCache.misses + 1
      pipelines := g.objCache.pipelines.insert (pipelineKeyOf draw format) cp } } where
  modules := h.modules
  renderPasses := h.renderPasses
  layouts := h.layouts.insert hlayout ⟨draw, hdraw, format, rfl, rfl⟩
  pipelines := h.pipelines.insert hpipeline ⟨draw, hdraw, format, rfl, rfl⟩
  passes draw' format' hsome := by
    by_cases hkey : pipelineKeyOf draw' format' = pipelineKeyOf draw format
    · have hformat : format' = format := congrArg PipelineKey.format hkey
      rw [hformat, (depth_of_key (congrArg PipelineKey.depthKey hkey)).1]
      exact hpass
    · rw [AList.lookup_insert_ne hkey] at hsome
      exact h.passes draw' format' hsome
  setLayouts := h.setLayouts

/-- Both modules of a draw are cached; nothing else changes. -/
private theorem Good.cacheModules (h : g.Good S) (format : VkFormat) (hvcode : draw.vertexSpirv ∈ codes S)
    (hfcode : draw.fragmentSpirv ∈ codes S) {vs fs : Nat} (vsNew fsNew : Bool)
    (hvlive : g.modules.live vs = some draw.vertexSpirv) (hflive : g.modules.live fs = some draw.fragmentSpirv) :
    ∃ sm, (g.cacheModuleIf vsNew (pipelineKeyOf draw format).vsHash vs).cacheModuleIf fsNew
        (pipelineKeyOf draw format).fsHash fs = { g with objCache := { g.objCache with shaderModules := sm } } ∧
      Good S { g with objCache := { g.objCache with shaderModules := sm } } := by
  have hvhash : (pipelineKeyOf draw format).vsHash = hashSpirv draw.vertexSpirv := rfl
  have hfhash : (pipelineKeyOf draw format).fsHash = hashSpirv draw.fragmentSpirv := rfl
  rw [hvhash, hfhash]
  have hvertex := h.cacheModuleIf vsNew hvcode hvlive
  obtain ⟨sm, hsm⟩ := cacheModuleIf_eq vsNew (hashSpirv draw.vertexSpirv) vs g
  obtain ⟨sm', hsm'⟩ := cacheModuleIf_eq fsNew (hashSpirv draw.fragmentSpirv) fs
    (g.cacheModuleIf vsNew (hashSpirv draw.vertexSpirv) vs)
  have hflive' : (g.cacheModuleIf vsNew (hashSpirv draw.vertexSpirv) vs).modules.live fs =
      some draw.fragmentSpirv := by
    rw [hsm]
    exact hflive
  have hboth := hvertex.cacheModuleIf fsNew hfcode hflive'
  rw [hsm', hsm] at hboth
  exact ⟨sm', by rw [hsm', hsm], hboth⟩

/-- On a miss what is returned is built for the draw, and a failed build leaves the cache as it was. -/
private theorem buildAndCache_spec (o : Creations) (hinj : Set.InjOn hashSpirv (codes S)) (hdraw : draw ∈ S)
    (h : g.Good S) (hrp : g.renderPasses.live rp = some { format, withDepth := (depthKeyOf draw).1 })
    (hpass : (g.objCache.renderPasses.lookup (format, (depthKeyOf draw).1)).isSome) :
    (g.buildAndCache o rp draw format).2.Good S ∧ ∀ f, (g.buildAndCache o rp draw format).1 = some f →
      (g.buildAndCache o rp draw format).2.describe f =
        (some { format, withDepth := (depthKeyOf draw).1 }, some (pipelineOf draw format), some (layoutOf draw)) := by
  have hvcode : draw.vertexSpirv ∈ codes S := ⟨draw, hdraw, .inl rfl⟩
  have hfcode : draw.fragmentSpirv ∈ codes S := ⟨draw, hdraw, .inr rfl⟩
  obtain ⟨hext₁, hvs⟩ := moduleFor_spec o.vertexModule hinj hvcode h
  unfold buildAndCache
  simp only
  generalize hg₁ : g.moduleFor o.vertexModule (pipelineKeyOf draw format).vsHash draw.vertexSpirv = r₁
  obtain ⟨v, g₁⟩ := r₁
  have hr₁ : g.moduleFor o.vertexModule (hashSpirv draw.vertexSpirv) draw.vertexSpirv = (v, g₁) := hg₁
  rw [hr₁] at hext₁ hvs
  cases v with
  | none => exact ⟨h.extends hext₁, fun f hf => by cases hf⟩
  | some v =>
    obtain ⟨vs, vsNew⟩ := v
    simp only at hext₁ hvs ⊢
    obtain ⟨hvlive, hvsNew⟩ := hvs vs vsNew rfl
    have h₁ := h.extends hext₁
    obtain ⟨hext₂, hfs⟩ := fragmentModuleFor_spec
      (pipelineKeyOf draw format) o.fragmentModule hinj hfcode rfl h₁ hvcode
      rfl hvlive
    generalize hg₂ : g₁.fragmentModuleFor o.fragmentModule (pipelineKeyOf draw format) vs draw.fragmentSpirv =
      r₂ at hext₂ hfs
    obtain ⟨v, g₂⟩ := r₂
    have hvsMade : vsNew = true → g.modules.made ≤ vs := fun hnew => (hvsNew hnew).symm.le
    cases v with
    | none =>
      simp only at hext₂ ⊢
      exact ⟨h.extends ((hext₁.trans hext₂).destroyIf hvsMade), fun f hf => by cases hf⟩
    | some v =>
      obtain ⟨fs, fsNew⟩ := v
      simp only at hext₂ hfs ⊢
      obtain ⟨hflive, hfsNew⟩ := hfs fs fsNew rfl
      have hfsMade : fsNew = true → g.modules.made ≤ fs := fun hnew => by
        rw [hfsNew hnew]
        exact hext₁.modules.made_le
      have h₂ := h₁.extends hext₂
      obtain ⟨hext₃, hbuilt⟩ := buildPipeline_spec o rp draw (mapTopology draw.topology) vs fs h₂.setLayouts
      generalize hg₃ : g₂.buildPipeline o rp draw (mapTopology draw.topology) vs fs = r₃ at hext₃ hbuilt
      obtain ⟨cp, g₃⟩ := r₃
      have hext := (hext₁.trans hext₂).trans hext₃
      cases cp with
      | none =>
        simp only at hext ⊢
        exact ⟨h.extends ((hext.destroyIf hvsMade).destroyIf hfsMade), fun f hf => by cases hf⟩
      | some cp =>
        simp only at hext hext₃ hbuilt ⊢
        obtain ⟨hlayout, hpipeline⟩ := hbuilt cp rfl
        have hvlive₂ := hext₂.modules.live _ _ hvlive
        have hrp₂ := (hext₁.trans hext₂).renderPasses.live _ _ hrp
        have hpipeline := hpipeline _ _ _ hvlive₂ hflive hrp₂
        obtain ⟨sm, hsm, h₄⟩ := (h₂.extends hext₃).cacheModules format hvcode hfcode vsNew fsNew
          (hext₃.modules.live _ _ hvlive₂) (hext₃.modules.live _ _ hflive)
        rw [hsm]
        have hpass₃ : (g₃.objCache.renderPasses.lookup (format, (depthKeyOf draw).1)).isSome := by
          rw [hext.objCache]
          exact hpass
        refine ⟨h₄.insertPipeline hdraw hlayout hpipeline hpass₃, fun f hf => ?_⟩
        cases hf
        unfold describe
        simp only
        rw [hext.renderPasses.live _ _ hrp, hlayout, hpipeline]
        rfl

/-- The pipeline that is resident under the key of a draw when it is looked up. -/
def resident (draw : OwnedForwardedDraw) (format : VkFormat) (g : Objects) : Option GraphicsPipeline :=
  (g.evictAtCap.objCache.pipelines.lookup (pipelineKeyOf draw format)).bind fun cp =>
    g.evictAtCap.pipelines.live cp.pipeline

/-- What is returned is what is built for the draw exactly if no other entry points or comparison are resident under
its key. -/
private theorem pipelineFor_spec (o : Creations) (format : VkFormat) (hS : HashesInjective S) (hdraw : draw ∈ S)
    (h : g.Good S) :
    (g.pipelineFor o draw format).2.Good S ∧ ((∀ f, (g.pipelineFor o draw format).1 = some f →
      (g.pipelineFor o draw format).2.describe f =
        (some { format, withDepth := (depthKeyOf draw).1 }, some (pipelineOf draw format), some (layoutOf draw))) ↔
      ∀ p ∈ g.resident draw format, p.SameEntries draw) := by
  obtain ⟨h₁, hcached, hpipelines, hfound⟩ := renderPassFor_spec o format (depthKeyOf draw).1 h.evictAtCap
  unfold pipelineFor resident
  rw [← hcached, ← hpipelines]
  have hmissing : ∀ cp, g.evictAtCap.objCache.pipelines.lookup (pipelineKeyOf draw format) = some cp →
      (g.evictAtCap.renderPassFor o format (depthKeyOf draw).1).1.isSome := by
    intro cp hcp
    have hpass := h.evictAtCap.passes draw format (by rw [hcp]; rfl)
    obtain ⟨rp, hrp⟩ := Option.isSome_iff_exists.1 hpass
    unfold renderPassFor
    rw [hrp]
    rfl
  rw [← hcached] at hmissing
  generalize g.evictAtCap.renderPassFor o format (depthKeyOf draw).1 = r₁ at h₁ hfound hmissing ⊢
  obtain ⟨rp, g₁⟩ := r₁
  simp only at h₁ hfound hmissing ⊢
  cases hlookup : g₁.objCache.pipelines.lookup (pipelineKeyOf draw format) with
  | none =>
    cases rp with
    | none => exact ⟨h₁, iff_of_true (fun f hf => by cases hf) (fun p hp => by cases hp)⟩
    | some rp =>
      obtain ⟨hrp, hpass⟩ := hfound rp rfl
      obtain ⟨hgood, hdescribe⟩ := buildAndCache_spec o hS.spirv hdraw h₁ hrp hpass
      simp only [hlookup]
      exact ⟨hgood, iff_of_true hdescribe fun p hp => by cases hp⟩
  | some cp =>
    cases rp with
    | none => cases hmissing cp hlookup
    | some rp =>
      obtain ⟨hrp, -⟩ := hfound rp rfl
      obtain ⟨layout, hlayout, draw₀, hdraw₀, format₀, hkey₀, rfl⟩ := h₁.layouts _ cp hlookup
      obtain ⟨p, hp, draw₁, hdraw₁, format₁, hkey₁, rfl⟩ := h₁.pipelines _ cp hlookup
      have hsame : layoutOf draw₀ = layoutOf draw := by
        have hpc : pushConstSizeOf draw = pushConstSizeOf draw₀ := congrArg PipelineKey.pcSize hkey₀
        have hsig : descSigOf draw = descSigOf draw₀ := congrArg PipelineKey.descSig hkey₀
        unfold layoutOf
        rw [hpc, hsig]
      have hiff := pipelineOf_eq_iff hS hdraw₁ hdraw hkey₁.symm
      simp only [hlookup, Option.bind_some, hp, Option.mem_some_iff, Option.some_inj, forall_eq']
      refine ⟨{ h₁ with }, ?_⟩
      rw [← hiff]
      unfold describe
      simp only
      rw [hrp, hp, hlayout, hsame]
      simp only [Prod.mk.injEq, Option.some_inj, true_and, and_true]

/-! ### Runs -/

/-- What is built for a draw with the cache disabled, on a device of its own. -/
def reference (draw : OwnedForwardedDraw) (format : VkFormat) :
    Option (Option RenderPass × Option GraphicsPipeline × Option PipelineLayout) :=
  (new.pipelineForFresh .all draw format).1.map (new.pipelineForFresh .all draw format).2.describe

private theorem reference_eq (draw : OwnedForwardedDraw) (format : VkFormat) : reference draw format = some
    (some { format, withDepth := (depthKeyOf draw).1 }, some (pipelineOf draw format), some (layoutOf draw)) := by
  have hsome : (new.pipelineForFresh .all draw format).1.isSome := by
    unfold pipelineForFresh Creations.all buildPipeline setLayoutsFor
    cases hsig : descSigOf draw with
    | none => rfl
    | some sig => rfl
  obtain ⟨f, hf⟩ := Option.isSome_iff_exists.1 hsome
  unfold reference
  rw [hf, Option.map_some]
  have hsets : new.SetLayouts := Arena.backs_empty
  exact congrArg some (pipelineForFresh_describe hsets (Prod.ext hf rfl))

end Objects

/-- The objects of a replay, with what the last call returned for its draw. -/
structure Drawing where
  objects : Objects
  returned : Option (OwnedForwardedDraw × VkFormat × Objects.Found)

structure DrawCall where
  draw : OwnedForwardedDraw
  format : VkFormat
  creations : Creations

namespace Drawing

variable {s s' : Drawing} {c : DrawCall} {S : Set OwnedForwardedDraw}

def start : Drawing where
  objects := .new
  returned := none

/-- A call of `pipeline_for` with the cache enabled. -/
def step (s : Drawing) (c : DrawCall) : Option Drawing :=
  let (found, objects) := s.objects.pipelineFor c.creations c.draw c.format
  some { objects, returned := found.map fun f => (c.draw, c.format, f) }

/-- What was returned has the inputs that would be used with the cache disabled. -/
def Transparent (s : Drawing) : Prop :=
  ∀ draw format f, s.returned = some (draw, format, f) →
    some (s.objects.describe f) = Objects.reference draw format

/-- The resident pipeline with the key of the draw, if there is one, was built with the same entry points and depth
comparison. -/
def Fits (s : Drawing) (c : DrawCall) : Prop := ∀ p ∈ s.objects.resident c.draw c.format, p.SameEntries c.draw

instance (s : Drawing) (c : DrawCall) : Decidable (s.Fits c) := by unfold Fits; infer_instance

private theorem step_spec (hS : HashesInjective S) (hc : c.draw ∈ S) (h : s.objects.Good S)
    (hs : step s c = some s') :
    s'.objects.Good S ∧ (s'.Transparent ↔ s.Fits c) := by
  obtain ⟨hgood, hiff⟩ := Objects.pipelineFor_spec c.creations c.format hS hc h
  unfold step at hs
  rw [Option.some_inj] at hs
  subst hs
  refine ⟨hgood, ?_⟩
  unfold Fits Transparent
  rw [← hiff]
  constructor
  · intro htransparent f hf
    have hreturned := htransparent c.draw c.format f (by simp only [hf, Option.map_some])
    rw [Objects.reference_eq, Option.some_inj] at hreturned
    exact hreturned
  · rintro hdescribe draw format f hf
    obtain ⟨f', hf', heq⟩ := Option.map_eq_some_iff.1 hf
    cases heq
    rw [Objects.reference_eq]
    exact congrArg some (hdescribe f hf')

/-- All along a run of draws the pipelines that are returned have the inputs that they would be built with for the
draw exactly when no draw finds a pipeline resident that was built with other entry points or another depth
comparison. -/
theorem transparent_iff (hS : HashesInjective S) {calls : List DrawCall} (hcalls : ∀ c ∈ calls, c.draw ∈ S) :
    Lts.Always step Transparent start calls ↔ Lts.Along step Fits start calls := by
  refine Lts.always_iff_along_total (A := fun c => c.draw ∈ S) (I := fun s => s.objects.Good S) (fun _ _ => rfl) ?_ ?_
    Objects.good_new (fun draw format f hf => by cases hf) hcalls
  · intro s c s' hc h _ _ hs
    exact (step_spec hS hc h hs).1
  · intro s c s' hc h _ hs
    exact (step_spec hS hc h hs).2

/-! ### Two shaders in one module -/

/-- One module with the code of both stages, entered at `entry` and `entry + 1`. -/
def combinedDraw (entry : UInt8) : OwnedForwardedDraw where
  vertexSpirv := [SPIRV_MAGIC]
  fragmentSpirv := [SPIRV_MAGIC]
  vertexEntry := [entry]
  fragmentEntry := [entry + 1]
  vertexCount := 3
  topology := 0
  geometry := none

def combinedCall (entry : UInt8) : DrawCall where
  draw := combinedDraw entry
  format := 37
  creations := .all

private theorem combined_injective : HashesInjective {draw | ∃ entry, draw = combinedDraw entry} where
  spirv := by
    rintro _ ⟨_, ⟨e, rfl⟩, rfl | rfl⟩ _ ⟨_, ⟨e', rfl⟩, rfl | rfl⟩ - <;> rfl
  vinput := by
    rintro _ ⟨_, ⟨e, rfl⟩, rfl⟩ _ ⟨_, ⟨e', rfl⟩, rfl⟩ -
    rfl

theorem transparent_again : Lts.Always step Transparent start [combinedCall 97, combinedCall 97] := by
  refine (transparent_iff combined_injective fun c hc => ?_).2 (by decide +kernel)
  simp only [List.mem_cons, List.not_mem_nil, or_false, or_self] at hc
  subst hc
  exact ⟨97, rfl⟩

/-- The second draw gets the pipeline of the first, with its entry points. -/
theorem not_always_transparent : ¬ ∀ S calls, HashesInjective S → (∀ c ∈ calls, c.draw ∈ S) →
    Lts.Always step Transparent start calls := by
  intro h
  have hcalls : ∀ c ∈ [combinedCall 97, combinedCall 99], c.draw ∈ {draw | ∃ entry, draw = combinedDraw entry} := by
    intro c hc
    simp only [List.mem_cons, List.not_mem_nil, or_false] at hc
    rcases hc with rfl | rfl
    · exact ⟨97, rfl⟩
    · exact ⟨99, rfl⟩
  have hfirst := Objects.good_new (S := {draw | ∃ entry, draw = combinedDraw entry})
  obtain ⟨-, hrun⟩ := h _ _ combined_injective hcalls
  obtain ⟨-, hrun⟩ := hrun _ rfl
  have hlast := hrun _ rfl
  have hmiddle := (step_spec (s := start) (c := combinedCall 97) combined_injective ⟨97, rfl⟩ hfirst rfl).1
  have hfits := (step_spec (c := combinedCall 99) combined_injective ⟨99, rfl⟩ hmiddle rfl).2.1 hlast
  revert hfits
  decide +kernel

end Drawing

end Infinigpu
