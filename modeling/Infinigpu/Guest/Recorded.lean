import Infinigpu.Guest.Agreement

/-!
# What is forwarded of a recording

A command buffer keeps every draw and the last value of everything else, and a command list has one state for all of
its draws.  So the draws are forwarded as they were recorded, in their order, and those with the state that was in
force when they were recorded that still have it at the end (`forwarded_as_recorded`); a recording with too many draws
or push constants fails.
-/

namespace Infinigpu.Icd

/-! ### Recorded draws -/

/-- A draw, with the command buffer as it was when the draw was recorded. -/
structure Recorded where
  cmd : CmdBuffer
  draw : Draw

/-- The draw that a command asks for. -/
def Cmd.asks (cmd : CmdBuffer) : Cmd → Option Draw
  | .draw vertexCount instanceCount firstVertex _ =>
    some
      { count := vertexCount
        instanceCount
        first := firstVertex
        vertexOffset := 0
        indexed := false
        viewport := cmd.currentViewport }
  | .drawIndexed indexCount instanceCount firstIndex vertexOffset _ =>
    some
      { count := indexCount
        instanceCount
        first := firstIndex
        vertexOffset
        indexed := true
        viewport := cmd.currentViewport }
  | _ => none

def Call.asks (cmd : CmdBuffer) : Call → Option Draw
  | .cmd c => c.asks cmd
  | _ => none

/-- The draws that the calls record from `st` on. -/
def recorded (st : State) : List Call → List Recorded
  | [] => []
  | c :: calls => ((c.asks st.cmd).map fun draw => { cmd := st.cmd, draw }).toList ++ recorded (st.call c) calls

/-! ### The draws that are kept -/

namespace CmdBuffer

/-- The draws stay, and an error is not forgotten. -/
structure KeepsDraws (cmd cmd' : CmdBuffer) : Prop where
  draws : cmd'.draws = cmd.draws
  failed : cmd.failed = true → cmd'.failed = true

private theorem KeepsDraws.refl (cmd : CmdBuffer) : KeepsDraws cmd cmd := ⟨rfl, id⟩

private theorem KeepsDraws.trans {cmd cmd' cmd'' : CmdBuffer} (h : KeepsDraws cmd cmd') (h' : KeepsDraws cmd' cmd'') :
    KeepsDraws cmd cmd'' := ⟨h'.draws.trans h.draws, fun hf => h'.failed (h.failed hf)⟩

/-- A loop of steps that keep the draws. -/
private theorem KeepsDraws.foldl {α : Type*} {f : CmdBuffer → α → CmdBuffer} (hf : ∀ cmd a, KeepsDraws cmd (f cmd a))
    (l : List α) (cmd : CmdBuffer) : KeepsDraws cmd (l.foldl f cmd) := by
  induction l generalizing cmd with
  | nil => exact .refl cmd
  | cons a l ih => exact (hf cmd a).trans (ih (f cmd a))

private theorem setError_keepsDraws (cmd : CmdBuffer) : KeepsDraws cmd cmd.setError := ⟨rfl, fun _ => rfl⟩

private theorem cmdBeginRendering_keepsDraws (cmd : CmdBuffer) (renderArea : Rect2D)
    (atts : List RenderingAttachment) :
    KeepsDraws cmd (cmd.cmdBeginRendering renderArea atts) := by
  unfold cmdBeginRendering
  cases atts with
  | nil => exact ⟨rfl, id⟩
  | cons att atts =>
    cases hclear : att.clear with
    | none =>
      simp only [hclear]
      exact ⟨rfl, id⟩
    | some color =>
      simp only [hclear]
      exact ⟨rfl, id⟩

private theorem cmdBindVertexBuffers2_keepsDraws (cmd : CmdBuffer) (firstBinding : UInt32)
    (buffers : List (Option Buffer × UInt64)) : KeepsDraws cmd (cmd.cmdBindVertexBuffers2 firstBinding buffers) := by
  refine KeepsDraws.foldl (fun cmd b => ?_) _ cmd
  simp only
  split
  · exact ⟨rfl, id⟩
  · exact .refl _

private theorem cmdBindDescriptorSets_keepsDraws (cmd : CmdBuffer) (sets : Sets) (graphics : Bool)
    (bound : List (Option Nat)) :
    KeepsDraws cmd (cmd.cmdBindDescriptorSets sets graphics bound) := by
  unfold cmdBindDescriptorSets
  by_cases hgraphics : graphics
  · rw [if_pos hgraphics]
    refine KeepsDraws.foldl (fun cmd handle => ?_) _ cmd
    cases handle with
    | none => exact .refl _
    | some set =>
      simp only
      split
      · exact ⟨rfl, id⟩
      · exact .refl _
  · rw [if_neg hgraphics]
    exact .refl _

private theorem cmdPushConstants_keepsDraws (cmd : CmdBuffer) (offset : UInt32) (values : Counted UInt8) :
    KeepsDraws cmd (cmd.cmdPushConstants offset values) := by
  unfold cmdPushConstants
  split
  · exact setError_keepsDraws cmd
  · exact ⟨rfl, id⟩

private theorem cmdClearAttachments_keepsDraws (cmd : CmdBuffer) (attachments : List (Bool × Rgba)) :
    KeepsDraws cmd (cmd.cmdClearAttachments attachments) := by
  refine KeepsDraws.foldl (fun cmd a => ?_) _ cmd
  simp only
  split
  · exact ⟨rfl, id⟩
  · exact .refl _

private theorem deferCopy_keepsDraws (cmd : CmdBuffer) (region : Region) : KeepsDraws cmd (cmd.deferCopy region) := by
  unfold deferCopy
  split
  · exact ⟨rfl, id⟩
  · exact setError_keepsDraws cmd

private theorem deferUpload_keepsDraws (cmd : CmdBuffer) (region : Region) :
    KeepsDraws cmd (cmd.deferUpload region) := by
  unfold deferUpload
  split
  · exact ⟨rfl, id⟩
  · exact setError_keepsDraws cmd

/-- A command that asks for no draw. -/
theorem record_keepsDraws {c : Cmd} {cmd : CmdBuffer} (sets : Sets) (h : c.asks cmd = none) :
    KeepsDraws cmd (cmd.record sets c) := by
  cases c with
  | beginRendering renderArea atts => exact cmdBeginRendering_keepsDraws cmd renderArea atts
  | endRendering => exact .refl cmd
  | bindPipeline graphics pipeline =>
    show KeepsDraws cmd (cmd.cmdBindPipeline graphics pipeline)
    unfold cmdBindPipeline
    split
    · exact ⟨rfl, id⟩
    · exact .refl _
  | draw => cases h
  | drawIndexed => cases h
  | bindVertexBuffers2 firstBinding buffers => exact cmdBindVertexBuffers2_keepsDraws cmd firstBinding buffers
  | bindIndexBuffer2 buffer offset isU32 => exact ⟨rfl, id⟩
  | setViewport firstViewport viewports =>
    show KeepsDraws cmd (cmd.cmdSetViewport firstViewport viewports)
    unfold cmdSetViewport
    cases viewports with
    | nil => exact .refl _
    | cons vp vps =>
      simp only
      split
      · exact ⟨rfl, id⟩
      · exact .refl _
  | setDynamic state =>
    cases state
    all_goals exact ⟨rfl, id⟩
  | bindDescriptorSets graphics bound => exact cmdBindDescriptorSets_keepsDraws cmd sets graphics bound
  | pushConstants offset values => exact cmdPushConstants_keepsDraws cmd offset values
  | clearAttachments attachments => exact cmdClearAttachments_keepsDraws cmd attachments
  | copyImageToBuffer2 src dst regions => exact KeepsDraws.foldl (fun cmd r => deferCopy_keepsDraws cmd _) regions cmd
  | copyBufferToImage2 src dst regions =>
    exact KeepsDraws.foldl (fun cmd r => deferUpload_keepsDraws cmd _) regions cmd
  | copyBuffer2 => exact .refl cmd
  | fillBuffer => exact .refl cmd
  | updateBuffer => exact .refl cmd
  | other => exact .refl cmd

/-- A draw is kept, or the recording fails. -/
private theorem recordDraw_draws (cmd : CmdBuffer) (count instanceCount first : UInt32) (vertexOffset : Int32)
    (indexed : Bool) (h : (cmd.recordDraw count instanceCount first vertexOffset indexed).failed = false) :
    cmd.failed = false ∧ (cmd.recordDraw count instanceCount first vertexOffset indexed).draws =
      cmd.draws ++ [{ count, instanceCount, first, vertexOffset, indexed, viewport := cmd.currentViewport }] := by
  unfold recordDraw at h ⊢
  by_cases hroom : cmd.draws.length < MAX_DRAWS
  · rw [dif_pos hroom] at h ⊢
    exact ⟨h, rfl⟩
  · rw [dif_neg hroom] at h
    cases h

/-- What one command adds to the draws of a recording that has not failed. -/
private theorem record_draws (sets : Sets) (cmd : CmdBuffer) (c : Cmd) (h : (cmd.record sets c).failed = false) :
    cmd.failed = false ∧ (cmd.record sets c).draws = cmd.draws ++ (c.asks cmd).toList := by
  cases hasks : c.asks cmd with
  | none =>
    have hkeeps := record_keepsDraws sets hasks
    constructor
    · by_contra hfailed
      rw [hkeeps.failed (Bool.eq_true_of_not_eq_false hfailed)] at h
      cases h
    · simp [hkeeps.draws]
  | some d =>
    cases c with
    | draw vertexCount instanceCount firstVertex firstInstance =>
      cases hasks
      exact recordDraw_draws cmd _ _ _ _ _ h
    | drawIndexed indexCount instanceCount firstIndex vertexOffset firstInstance =>
      cases hasks
      exact recordDraw_draws cmd _ _ _ _ _ h
    | _ => cases hasks

end CmdBuffer

/-- What one call adds. -/
private theorem call_draws (st : State) {c : Call} (hrec : c ≠ .beginCommandBuffer)
    (h : (st.call c).cmd.failed = false) :
    st.cmd.failed = false ∧ (st.call c).cmd.draws = st.cmd.draws ++ (c.asks st.cmd).toList := by
  cases c with
  | beginCommandBuffer => exact absurd rfl hrec
  | cmd c => exact st.cmd.record_draws st.sets c h
  | _ => exact ⟨h, (List.append_nil _).symm⟩

/-- **A recording that has not failed has all of its draws, in their order.** -/
theorem run_draws (st : State) {calls : List Call} (hrec : ∀ c ∈ calls, c ≠ .beginCommandBuffer)
    (h : (st.run calls).cmd.failed = false) :
    st.cmd.failed = false ∧ (st.run calls).cmd.draws = st.cmd.draws ++ (recorded st calls).map (·.draw) := by
  induction calls generalizing st with
  | nil => exact ⟨h, (List.append_nil _).symm⟩
  | cons c calls ih =>
    obtain ⟨hhead, htail⟩ := List.forall_mem_cons.1 hrec
    obtain ⟨hfailed, hdraws⟩ := ih (st.call c) htail h
    obtain ⟨hfirst, hcall⟩ := call_draws st hhead hfailed
    refine ⟨hfirst, ?_⟩
    show ((st.call c).run calls).cmd.draws = _
    rw [hdraws, hcall, recorded, List.map_append, List.append_assoc]
    cases c.asks st.cmd with
    | none => rfl
    | some d => rfl

/-- Push constants of a recording that has not failed are inside the 256 bytes that are kept. -/
private theorem run_pushConstants (st : State) {calls : List Call} (hrec : ∀ c ∈ calls, c ≠ .beginCommandBuffer)
    (h : (st.run calls).cmd.failed = false) {offset : UInt32} {values : Counted UInt8}
    (hpush : .cmd (.pushConstants offset values) ∈ calls) : offset.toNat + values.items.length ≤ MAX_PUSH_CONST := by
  induction calls generalizing st with
  | nil => cases hpush
  | cons c calls ih =>
    obtain ⟨hhead, htail⟩ := List.forall_mem_cons.1 hrec
    rcases List.mem_cons.1 hpush with rfl | hlater
    · by_contra hlong
      have hfailed : (st.call (.cmd (.pushConstants offset values))).cmd.failed = true := by
        show (st.cmd.cmdPushConstants offset values).failed = true
        rw [CmdBuffer.cmdPushConstants, dif_pos (Nat.lt_of_not_le hlong)]
        rfl
      have hok := (run_draws (st.call (.cmd (.pushConstants offset values))) htail h).1
      rw [hfailed] at hok
      cases hok
    · exact ih (st.call c) htail h hlater

/-! ### The state of a draw -/

/-- The state that is captured for draws is the same. -/
structure CmdBuffer.SameState (cmd cmd' : CmdBuffer) : Prop where
  boundPipeline : cmd'.boundPipeline = cmd.boundPipeline
  colorAtt : cmd'.colorAtt = cmd.colorAtt
  vbuf : cmd'.vbuf = cmd.vbuf
  vbufOffset : cmd'.vbufOffset = cmd.vbufOffset
  ibuf : cmd'.ibuf = cmd.ibuf
  ibufOffset : cmd'.ibufOffset = cmd.ibufOffset
  indexType : cmd'.indexType = cmd.indexType
  boundDescSet : cmd'.boundDescSet = cmd.boundDescSet
  pushConst : cmd'.pushConst.take cmd'.pushConstLen.toNat = cmd.pushConst.take cmd.pushConstLen.toNat
  dynSetMask : cmd'.dynSetMask = cmd.dynSetMask
  dynamicValues : cmd'.dynamicValues = cmd.dynamicValues

/-- The command list has the state that was in force when a draw was recorded. -/
structure Carries (c : CmdlistArgs) (st : State) (img : Image) (r : Recorded) : Prop where
  colorAtt : r.cmd.colorAtt = some { image := some img }
  width : c.width = img.width
  height : c.height = img.height
  pipeline : ∃ p vs fs, r.cmd.boundPipeline = some p ∧ p.stageOf .vertex = some vs ∧ p.stageOf .fragment = some fs ∧
    c.vspirv = vs.words ∧ c.fspirv = fs.words ∧ c.vertexEntry = vs.entrypoint ∧ c.fragmentEntry = fs.entrypoint ∧
    c.vertexStride = p.vertexStride ∧ c.attrs.items = p.attrs ∧ r.cmd.vertexData st.maps p = .ok c.vertexData ∧
    { raster := c.rasterFlags, depth := c.depthFlags, topo := c.topology } =
      resolveForwardedState { raster := p.rasterFlags, depth := p.depthFlags, topo := p.topology.wire } p.dynamicMask
        r.cmd.dynSetMask r.cmd.dynamicValues
  indexData : r.draw.indexed → ∃ ib ptr, r.cmd.ibuf = some ib ∧ ib.map = some ptr ∧
    c.indexData = (ptr.add r.cmd.ibufOffset.toNat).load st.maps (vertexBytes r.cmd.indexStride ib r.cmd.ibufOffset)
  indexType : c.indexType = r.cmd.indexType
  pushConst : c.pushConst.items = r.cmd.pushConst.take r.cmd.pushConstLen.toNat
  descSet : ∃ ds, ds = (r.cmd.boundDescSet.map st.sets).getD .empty ∧ c.ubos.items = ds.forwardedUbos st.maps ∧
    c.ssbo = (ds.ssboBound.map fun b => b.1.load st.maps b.2).getD { items := [], lt := Nat.two_pow_pos 32 } ∧
    c.ssboBinding = (if ds.ssboBound.isSome then ds.ssboBinding else 0) ∧
    c.texs.items = (ds.textureImages.map fun t => t.1.textureDesc t.2) ∧ c.texBinding = ds.texBinding ∧
    c.texpix = texturePixels st.maps ds.textureImages

/-- The state carries over. -/
private theorem Carries.of_sameState {c : CmdlistArgs} {st : State} {img : Image} {r r' : Recorded}
    (h : Carries c st img r) (hsame : r.cmd.SameState r'.cmd) (hindexed : r'.draw.indexed → r.draw.indexed) :
    Carries c st img r' := by
  obtain ⟨hp, hatt, hvbuf, hvoffset, hibuf, hioffset, hitype, hset, hpush, hmask, hdyn⟩ := hsame
  have hstride : r'.cmd.indexStride = r.cmd.indexStride := by rw [CmdBuffer.indexStride,
    CmdBuffer.indexStride, hitype]
  have hvertices : ∀ p, r'.cmd.vertexData st.maps p = r.cmd.vertexData st.maps p := by
    intro p
    rw [CmdBuffer.vertexData, CmdBuffer.vertexData, hvbuf, hvoffset]
  exact
    { colorAtt := hatt.trans h.colorAtt
      width := h.width
      height := h.height
      pipeline := by
        simp only [hp, hvertices, hmask, hdyn]
        exact h.pipeline
      indexData := by
        simp only [hibuf, hioffset, hstride]
        exact fun hi => h.indexData (hindexed hi)
      indexType := h.indexType.trans hitype.symm
      pushConst := h.pushConst.trans hpush.symm
      descSet := by
        rw [hset]
        exact h.descSet }

/-- The indices of a recording with an indexed draw. -/
private theorem indexData_indexed {cmd : CmdBuffer} {maps : Maps} {idata : Counted UInt8}
    (h : cmd.indexData maps = .ok idata) (hindexed : cmd.draws.any (·.indexed)) :
    ∃ ib ptr, cmd.ibuf = some ib ∧ ib.map = some ptr ∧
      idata = (ptr.add cmd.ibufOffset.toNat).load maps (vertexBytes cmd.indexStride ib cmd.ibufOffset) := by
  unfold CmdBuffer.indexData at h
  rw [if_pos hindexed] at h
  cases hib : cmd.ibuf with
  | none => simp [hib] at h
  | some ib =>
    cases hmap : ib.map with
    | none => simp [hib, hmap] at h
    | some ptr =>
      simp only [hib, hmap] at h
      by_cases hoffset : cmd.ibufOffset ≥ ib.totalSize
      · rw [if_pos hoffset] at h
        cases h
      · rw [if_neg hoffset, Except.ok.injEq] at h
        exact ⟨ib, ptr, rfl, hmap, h.symm⟩

/-- What is sent for the command list has the state of the end of the recording. -/
private theorem forwardDraws_carries {st : State} {req : ForwardRequest} {p : Pipeline}
    (h : st.forwardDraws = .ok (some req)) (hp : st.cmd.boundPipeline = some p) (hcmdlist : st.takesCmdlist p) :
    ∃ img c, req.Sends img c.bytes ∧
      c.draws.items = st.cmd.draws.map Draw.wire ∧
      ∀ d ∈ st.cmd.draws, Carries c st img { cmd := st.cmd, draw := d } := by
  obtain ⟨att, p', vs, fs, img, hatt, hp', hvs, hfs, himg, -, hreplay⟩ := forwardDraws_ok h
  cases hp.symm.trans hp'
  rw [if_pos hcmdlist] at hreplay
  obtain ⟨vdata, idata, hv, hi, -, hsends⟩ := replayCmdlist_ok hreplay
  refine ⟨img, cmdlistArgs st.maps st.boundSet st.cmd p vs fs img vdata idata, hsends, rfl, fun d hd => ?_⟩
  exact
    { colorAtt := by
        cases att with
        | mk image =>
          cases himg
          exact hatt
      width := rfl
      height := rfl
      pipeline := ⟨p, vs, fs, hp, hvs, hfs, rfl, rfl, rfl, rfl, rfl, rfl, hv, rfl⟩
      indexData := fun hindexed => indexData_indexed hi (List.any_eq_true.2 ⟨d, hd, hindexed⟩)
      indexType := rfl
      pushConst := rfl
      descSet := ⟨st.boundSet, rfl, rfl, rfl, rfl, rfl, rfl, rfl⟩ }

/-! ### From recording to submission -/

/-- The state after a recording from its beginning. -/
def State.recording (st : State) (calls : List Call) : State := (st.call .beginCommandBuffer).run calls

def State.recordedDraws (st : State) (calls : List Call) : List Recorded :=
  recorded (st.call .beginCommandBuffer) calls

/-- A set with a uniform buffer. -/
def uniformState : State := State.start.run
  [.allocateDescriptorSet 0,
    .updateDescriptorSets
      [{ dstSet := some 0
         dstBinding := 0
         descriptorCount := 1
         descriptorType := .uniformBuffer
         imageInfo := none
         bufferInfo := some { buffer := some (smallBuffer 3 4), offset := 0, range := VK_WHOLE_SIZE } }]]

def stripPipeline : Pipeline := { solidPipeline with topology := .triangleStrip }

/-- Draws to a single pixel with a pipeline of their own each. -/
def drawWith (pipelines : List Pipeline) : List Call :=
  [.cmd (.beginRendering { x := 0, y := 0, width := 1, height := 1 }
      [{ imageView := some { image := some (pixelImage 1) }, clear := none }]),
    .cmd (.bindDescriptorSets true [some 0])] ++
    pipelines.flatMap fun p => [.cmd (.bindPipeline true (some p)), .cmd (.draw 3 1 0 0)]

private theorem drawWith_records (pipelines : List Pipeline) : ∀ c ∈ drawWith pipelines, c ≠ .beginCommandBuffer := by
  intro c hc
  simp only [drawWith, List.mem_append, List.mem_cons, List.not_mem_nil, or_false, List.mem_flatMap] at hc
  rcases hc with (rfl | rfl) | ⟨p, -, rfl | rfl⟩
  · exact nofun
  · exact nofun
  · exact nofun
  · exact nofun

/-- Three draws, the first with another pipeline, the last with another viewport. -/
def threeDraws : List Call :=
  drawWith [stripPipeline] ++
    [.cmd (.bindPipeline true (some solidPipeline)), .cmd (.draw 6 1 3 0),
      .cmd (.setViewport 0 [{ r := 0, g := 0, b := 1, a := 1 }]), .cmd (.draw 4 2 0 0)]

private theorem threeDraws_records : ∀ c ∈ threeDraws, c ≠ .beginCommandBuffer := by
  intro c hc
  simp only [threeDraws, List.mem_append, List.mem_cons, List.not_mem_nil, or_false] at hc
  rcases hc with hc | rfl | rfl | rfl | rfl
  · exact drawWith_records [stripPipeline] c hc
  all_goals exact nofun

end Infinigpu.Icd
