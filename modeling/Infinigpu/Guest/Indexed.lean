import Infinigpu.Guest.Recorded
import Infinigpu.Replay.Draws

/-!
# Indexed draws

A recorded draw is indexed or not, and a command list only has index data or not.  Index data is forwarded if any draw
of the recording is indexed, and the host draws the whole list through it: a recording that does not mix the two kinds
is drawn as it was recorded, and in one that does every draw is indexed (`drawn_as_recorded`).
-/

namespace Infinigpu

/-! ### Accepted lists -/

/-- A list that the decoder accepts has draws, and a vertex buffer if and only if it has a stride. -/
private theorem decoded_list {payload : List UInt8} {maxBytes : Nat} {draw : OwnedForwardedDraw}
    (h : decodeForwardedCmdlist payload maxBytes = some draw) : ∃ g, draw.geometry = some g ∧ g.draws ≠ [] ∧
      (g.vertexStride = 0 ↔ g.vertexData = []) := by
  obtain ⟨-, hgood, s, hmatch, -, hparts⟩ := decodeForwardedCmdlist_eq_some_iff.1 h
  obtain ⟨attrs, draws, textures, uniforms, vertexEntry, fragmentEntry, hdecoded, rfl⟩ :=
    decodeParts_eq_some_iff.1 hparts
  simp only [BadTail, badCmdList, not_or] at hgood
  obtain ⟨⟨-, hcount, -⟩, -, hmixed, -⟩ := hgood
  refine ⟨_, rfl, ?_, ?_⟩
  · rintro rfl
    have hlen := readArray_length hdecoded.draws
    exact hcount (UInt32.toNat_inj.1 hlen.symm)
  · have hvdata : s.vdata.length = (tailOf payload).vertexDataLen.toNat := by
      simp only [Sections.Match, Sections.parts, ForwardedCmdListTail.lengths, List.map_cons, List.map_nil,
        List.cons.injEq] at hmatch
      exact hmatch.2.2.2.2.2.1
    rw [not_not, eq_iff_iff, ← hvdata, List.length_eq_zero_iff] at hmixed
    exact hmixed

private theorem uploadedGeometry_eq {draw : OwnedForwardedDraw} {g : OwnedGeometry} (hg : draw.geometry = some g)
    (hbuffer : g.vertexStride = 0 ↔ g.vertexData = []) :
    uploadedGeometry draw = if g.vertexStride = 0 then none else some g := by
  unfold uploadedGeometry
  rw [hg, Option.filter_some]
  by_cases hstride : g.vertexStride = 0
  · rw [if_pos hstride, if_neg]
    simp [hstride]
  · rw [if_neg hstride, if_pos]
    simp [hstride, mt hbuffer.2 hstride]

/-- An accepted list is drawn through its index data, unless it has no vertex stride. -/
private theorem drawn_list {cached : Bool} {frames : List DrawFrame} {f : DrawFrame} {cmds : List VkCmd}
    {g : OwnedGeometry} {payload : List UInt8} {maxBytes : Nat}
    (hcmds : ((Resources.rendered cached frames).render cached f).commands = some cmds)
    (hown : (Resources.rendered cached frames).OwnIndices f.draw)
    (h : decodeForwardedCmdlist payload maxBytes = some f.draw) (hg : f.draw.geometry = some g) :
    drawn none cmds = g.draws.map (·.drawnWith (if g.vertexStride = 0 then none else g.indexBuffer)) := by
  obtain ⟨g', hg', hdraws, hbuffer⟩ := decoded_list h
  cases hg.symm.trans hg'
  rw [Resources.drawn_commands hg hdraws hcmds hown, uploadedGeometry_eq hg hbuffer]
  by_cases hstride : g.vertexStride = 0
  · rw [if_pos hstride, if_pos hstride]
    rfl
  · rw [if_neg hstride, if_neg hstride]
    rfl

private theorem decodeForwardedCmdlist_congr {p q : List UInt8} (maxBytes : Nat) (hlen : p.length = q.length)
    (hdrop : p.drop VulkanWorkload.size = q.drop VulkanWorkload.size) :
    decodeForwardedCmdlist p maxBytes = decodeForwardedCmdlist q maxBytes := by
  unfold decodeForwardedCmdlist
  rw [hlen, hdrop]

namespace Icd

/-! ### Staged lists -/

def CmdBuffer.vkIndexType (cmd : CmdBuffer) : VkIndexType :=
  if cmd.indexType = Infinigpu.IndexType.u32 then .uint32 else .uint16

/-- What the host decodes of a staged command list is what the encoder was given, with the pixels that were sent. -/
theorem staged_cut {st : State} {idev : Kmd.IgpuDevice} {boHandle : UInt32} {staged : List UInt8} {p : Pipeline}
    {draw : OwnedForwardedDraw} {maxBytes : Nat} (hstaged : st.staged idev boHandle = some staged)
    (hp : st.cmd.boundPipeline = some p) (hcmdlist : st.takesCmdlist p)
    (h : decodeForwardedCmdlist (staged.drop SubmitCmd.size) maxBytes = some draw) :
    ∃ vs fs img vdata idata j, st.cmd.indexData st.maps = .ok idata ∧
      ((cmdlistArgs st.maps st.boundSet st.cmd p vs fs img vdata idata).cutPixels j).Accepted maxBytes ∧
      draw = ((cmdlistArgs st.maps st.boundSet st.cmd p vs fs img vdata idata).cutPixels j).draw := by
  obtain ⟨req, hsend, hioctl⟩ := staged_eq_some hstaged
  obtain ⟨att, p', vs, fs, img, -, hp', -, -, -, -, hreplay⟩ := forwardDraws_ok hsend
  cases hp.symm.trans hp'
  rw [if_pos hcmdlist] at hreplay
  obtain ⟨vdata, idata, hv, hi, -, hsends⟩ := replayCmdlist_ok hreplay
  obtain ⟨-, hmin, -, hroom, obj, -, rfl⟩ := Kmd.ioctlSubmitForwarded_ok hioctl
  obtain ⟨-, htake⟩ := hsends.body
  simp only [ForwardRequest.args] at hmin hroom h
  have hbody : VulkanWorkload.size ≤ (req.payload.take req.payloadLen.toNat).length := by
    rw [List.length_take, Nat.min_eq_left hroom]
    exact hmin
  -- the ioctl has only changed the header
  rw [← Kmd.submitHeader_length, List.drop_left,
    decodeForwardedCmdlist_congr maxBytes (Kmd.patchWorkload_length hbody)
    (Kmd.patchWorkload_drop hbody), htake] at h
  have hubo : (cmdlistArgs st.maps st.boundSet st.cmd p vs fs img vdata idata).uboBytes < 2 ^ 32 :=
    Nat.lt_of_le_of_lt (cmdlistArgs_uboBytes.trans_le (uboBytes_le st.boundSet)) (by decide)
  obtain ⟨j, -, hacc, hdraw⟩ := CmdlistArgs.draw_of_decode_take vs.words_lt fs.words_lt hubo h
  exact ⟨vs, fs, img, vdata, idata, j, hi, hacc, hdraw⟩

/-- It has the draws of the command buffer, the stride of its pipeline and its index data. -/
private theorem staged_decodes {st : State} {idev : Kmd.IgpuDevice} {boHandle : UInt32} {staged : List UInt8}
    {p : Pipeline} {draw : OwnedForwardedDraw} {maxBytes : Nat} (hstaged : st.staged idev boHandle = some staged)
    (hp : st.cmd.boundPipeline = some p) (hcmdlist : st.takesCmdlist p)
    (h : decodeForwardedCmdlist (staged.drop SubmitCmd.size) maxBytes = some draw) :
    ∃ g idata, draw.geometry = some g ∧ st.cmd.indexData st.maps = .ok idata ∧
      g.draws = st.cmd.draws.map Draw.wire ∧ g.vertexStride = p.vertexStride ∧ g.indexData = idata.items ∧
      g.indexU32 = (st.cmd.indexType == Infinigpu.IndexType.u32) := by
  obtain ⟨vs, fs, img, vdata, idata, j, hi, -, rfl⟩ := staged_cut hstaged hp hcmdlist h
  exact ⟨_, idata, rfl, hi, rfl, rfl, rfl, rfl⟩

/-- A recording without indexed draws has no index data. -/
private theorem indexLen_eq_zero {cmd : CmdBuffer} (h : ∀ d ∈ cmd.draws, d.indexed = false) : cmd.indexLen = 0 := by
  unfold CmdBuffer.indexLen
  rw [if_neg]
  rw [List.any_eq_true]
  rintro ⟨d, hd, hindexed⟩
  exact Bool.false_ne_true ((h d hd).symm.trans hindexed)

/-- A staged command list is drawn through its index data, if it has a vertex stride and any. -/
private theorem drawn_staged {cached : Bool} {frames : List DrawFrame} {f : DrawFrame} {cmds : List VkCmd}
    {st : State} {idev : Kmd.IgpuDevice} {boHandle : UInt32} {staged : List UInt8} {p : Pipeline} {maxBytes : Nat}
    (hcmds : ((Resources.rendered cached frames).render cached f).commands = some cmds)
    (hown : (Resources.rendered cached frames).OwnIndices f.draw) (hstaged : st.staged idev boHandle = some staged)
    (hp : st.cmd.boundPipeline = some p) (hcmdlist : st.takesCmdlist p)
    (h : decodeForwardedCmdlist (staged.drop SubmitCmd.size) maxBytes = some f.draw) :
    ∃ idata, st.cmd.indexData st.maps = .ok idata ∧ drawn none cmds = st.cmd.draws.map fun d =>
      d.wire.drawnWith (if p.vertexStride = 0 ∨ st.cmd.indexLen = 0 then none else
        some (idata.items, st.cmd.vkIndexType)) := by
  obtain ⟨g, idata, hg, hi, hdraws, hstride, hindices, htype⟩ := staged_decodes hstaged hp hcmdlist h
  refine ⟨idata, hi, ?_⟩
  rw [drawn_list hcmds hown h hg, hdraws, List.map_map, hstride, g.indexBuffer_eq, hindices, htype]
  have hempty : idata.items = [] ↔ st.cmd.indexLen = 0 := by rw [← indexData_length hi, List.length_eq_zero_iff]
  have hibo : (if p.vertexStride = 0 then none else if idata.items = [] then none else
      some (idata.items, if (st.cmd.indexType == Infinigpu.IndexType.u32) then VkIndexType.uint32 else .uint16)) =
      if p.vertexStride = 0 ∨ st.cmd.indexLen = 0 then none else some (idata.items, st.cmd.vkIndexType) := by
    unfold CmdBuffer.vkIndexType
    simp only [beq_iff_eq]
    by_cases hzero : p.vertexStride = 0
    · rw [if_pos hzero, if_pos (.inl hzero)]
    · rw [if_neg hzero]
      by_cases hnone : st.cmd.indexLen = 0
      · rw [if_pos (hempty.2 hnone), if_pos (.inr hnone)]
      · rw [if_neg (mt hempty.1 hnone), if_neg (not_or.2 ⟨hzero, hnone⟩)]
  rw [hibo]
  rfl

/-! ### From recording to drawing -/

/-- A recorded draw that is executed as what it was recorded as. -/
def Draw.kept (ibo : List UInt8 × VkIndexType) (d : Draw) : Drawn :=
  d.wire.drawnWith (if d.indexed then some ibo else none)

/-- **Whether draws are indexed is settled for a list.**  An accepted list with a vertex buffer, or without indices,
is drawn indexed if and only if it has index data.  Of a recording that does not mix the two kinds, and that has a
vertex buffer and an index if its draws are indexed, every draw is executed as it was recorded; if the recording has
indices, every draw is executed through them, also one that was not indexed. -/
theorem drawn_as_recorded {cached : Bool} {frames : List DrawFrame} {f : DrawFrame} {cmds : List VkCmd}
    (hcmds : ((Resources.rendered cached frames).render cached f).commands = some cmds)
    (hown : (Resources.rendered cached frames).OwnIndices f.draw) :
    (∀ payload maxBytes g, decodeForwardedCmdlist payload maxBytes = some f.draw → f.draw.geometry = some g →
      (g.vertexStride = 0 → g.indexData = []) →
        (drawn none cmds).length = g.draws.length ∧ ∀ d ∈ drawn none cmds, d.isIndexed ↔ g.indexData ≠ []) ∧
    ∀ (st : State) (calls : List Call) idev boHandle staged p maxBytes, (∀ c ∈ calls, c ≠ .beginCommandBuffer) →
      (st.recording calls).cmd.failed = false → (st.recording calls).staged idev boHandle = some staged →
      (st.recording calls).cmd.boundPipeline = some p → (st.recording calls).takesCmdlist p →
      decodeForwardedCmdlist (staged.drop SubmitCmd.size) maxBytes = some f.draw →
        ∃ idata, (st.recording calls).cmd.indexData (st.recording calls).maps = .ok idata ∧
          ((∀ r ∈ st.recordedDraws calls, r.draw.indexed = false) ∨
              (∀ r ∈ st.recordedDraws calls, r.draw.indexed = true) ∧ p.vertexStride ≠ 0 ∧
                (st.recording calls).cmd.indexLen ≠ 0 →
            drawn none cmds = (st.recordedDraws calls).map
              (·.draw.kept (idata.items, (st.recording calls).cmd.vkIndexType))) ∧
          (p.vertexStride ≠ 0 → (st.recording calls).cmd.indexLen ≠ 0 →
            drawn none cmds = (st.recordedDraws calls).map
              (·.draw.wire.drawnWith (some (idata.items, (st.recording calls).cmd.vkIndexType)))) := by
  constructor
  · intro payload maxBytes g h hg hbufferless
    rw [drawn_list hcmds hown h hg]
    refine ⟨List.length_map _, fun d hd => ?_⟩
    obtain ⟨d, -, rfl⟩ := List.mem_map.1 hd
    rw [DrawCmd.drawnWith_isIndexed, g.indexBuffer_eq]
    by_cases hindices : g.indexData = []
    · simp [hindices]
    · rw [if_neg (mt hbufferless hindices), if_neg hindices]
      exact iff_of_true rfl hindices
  · intro st calls idev boHandle staged p maxBytes hrec hok hstaged hp hcmdlist h
    have hdraws : (st.recording calls).cmd.draws = (st.recordedDraws calls).map (·.draw) := (run_draws _ hrec hok).2
    obtain ⟨idata, hi, hdrawn⟩ := drawn_staged hcmds hown hstaged hp hcmdlist h
    rw [hdraws, List.map_map] at hdrawn
    refine ⟨idata, hi, ?_, fun hstride hlen => ?_⟩
    · rw [hdrawn]
      rintro (hdirect | ⟨hindexed, hstride, hlen⟩)
      · have hlen : (st.recording calls).cmd.indexLen = 0 := by
          refine indexLen_eq_zero fun d hd => ?_
          rw [hdraws] at hd
          obtain ⟨r, hr, rfl⟩ := List.mem_map.1 hd
          exact hdirect r hr
        refine List.map_congr_left fun r hr => ?_
        rw [Draw.kept, hdirect r hr, Function.comp_apply, if_pos (.inr hlen)]
        rfl
      · refine List.map_congr_left fun r hr => ?_
        rw [Draw.kept, hindexed r hr, Function.comp_apply, if_neg (not_or.2 ⟨hstride, hlen⟩)]
        rfl
    · rw [hdrawn, if_neg (not_or.2 ⟨hstride, hlen⟩)]
      rfl

/-! ### A mesh with one index -/

def meshPipeline : Pipeline := { solidPipeline with vertexStride := 4 }

/-- Draws of a mesh with one vertex and one index, to a single pixel, each of them indexed or not. -/
def drawMesh (kinds : List Bool) : List Call :=
  [.cmd (.beginRendering { x := 0, y := 0, width := 1, height := 1 }
      [{ imageView := some { image := some (pixelImage 1) }, clear := none }]),
    .cmd (.bindPipeline true (some meshPipeline)),
    .cmd (.bindVertexBuffers2 0 [(some (smallBuffer 3 4), 0)]),
    .cmd (.bindIndexBuffer2 (some (smallBuffer 4 2)) 0 false)] ++
    kinds.map fun indexed => .cmd (if indexed then .drawIndexed 1 1 0 0 0 else .draw 1 1 0 0)

def meshFrame (draw : OwnedForwardedDraw) : DrawFrame where
  draw
  mesh := true
  descriptors := true
  alloc _ := none
  upload := true

/-- What the host draws of a recording as its first frame. -/
def replayed (calls : List Call) : Option (List Drawn) :=
  ((State.start.recording calls).staged oneObject 1).bind fun staged =>
    (decodeForwardedCmdlist (staged.drop SubmitCmd.size) MAX_CMD_BYTES.toNat).bind fun draw =>
      ((Resources.rendered true []).render true (meshFrame draw)).commands.map (drawn none)

private theorem replayed_eq_some {calls : List Call} {ds : List Drawn} (h : replayed calls = some ds) :
    ∃ staged draw cmds, (State.start.recording calls).staged oneObject 1 = some staged ∧
      decodeForwardedCmdlist (staged.drop SubmitCmd.size) MAX_CMD_BYTES.toNat = some draw ∧
      ((Resources.rendered true []).render true (meshFrame draw)).commands = some cmds ∧ drawn none cmds = ds := by
  obtain ⟨staged, hstaged, h⟩ := Option.bind_eq_some_iff.1 h
  obtain ⟨draw, hdraw, h⟩ := Option.bind_eq_some_iff.1 h
  obtain ⟨cmds, hcmds, h⟩ := Option.map_eq_some_iff.1 h
  exact ⟨staged, draw, cmds, hstaged, hdraw, hcmds, h⟩

/-- Nothing is resident at first. -/
private theorem ownIndices_first (draw : OwnedForwardedDraw) : (Resources.rendered true []).OwnIndices draw := by
  intro g hg m hm
  cases hm

private theorem drawMesh_records (kinds : List Bool) : ∀ c ∈ drawMesh kinds, c ≠ .beginCommandBuffer := by
  intro c hc
  simp only [drawMesh, List.mem_append, List.mem_cons, List.not_mem_nil, or_false, List.mem_map] at hc
  rcases hc with (rfl | rfl | rfl | rfl) | ⟨indexed, -, rfl⟩
  all_goals
    intro h
    cases h

def indexedOnce : Drawn := .indexed (some ([0, 0], .uint16)) 1 0 0

theorem drawn_as_recorded_indexed : ∃ staged draw cmds idata,
    (State.start.recording (drawMesh [true, true])).staged oneObject 1 = some staged ∧
      decodeForwardedCmdlist (staged.drop SubmitCmd.size) MAX_CMD_BYTES.toNat = some draw ∧
      ((Resources.rendered true []).render true (meshFrame draw)).commands = some cmds ∧
      drawn none cmds = (State.start.recordedDraws (drawMesh [true, true])).map (·.draw.kept (idata, .uint16)) := by
  have hreplayed : replayed (drawMesh [true, true]) = some [indexedOnce, indexedOnce] := by decide +kernel
  obtain ⟨staged, draw, cmds, hstaged, hdraw, hcmds, -⟩ := replayed_eq_some hreplayed
  obtain ⟨idata, -, hkept, -⟩ := (drawn_as_recorded hcmds (ownIndices_first draw)).2 State.start
    (drawMesh [true, true])
    oneObject 1 staged meshPipeline MAX_CMD_BYTES.toNat (drawMesh_records _) rfl hstaged rfl (by decide) hdraw
  exact ⟨staged, draw, cmds, idata.items, hstaged, hdraw, hcmds, hkept (.inr ⟨by decide, by decide, by decide⟩)⟩

/-- A list with an index and no vertex buffer. -/
def bufferlessIndexed : CmdlistArgs :=
  { pixelMesh with
    vertexStride := 0
    attrs := ⟨[], by decide⟩
    vertexData := ⟨[], by decide⟩
    texs := ⟨[], by decide⟩
    texpix := ⟨[], by decide⟩ }

/-- In a recording with both kinds, the draw that is not indexed is drawn indexed, and a list with indices but without
a vertex buffer is accepted and is drawn directly. -/
theorem kinds_not_kept :
    (¬ ∀ (cached : Bool) (frames : List DrawFrame) (f : DrawFrame) cmds (st : State) (calls : List Call) idev boHandle
      staged p idata, ((Resources.rendered cached frames).render cached f).commands = some cmds →
      (Resources.rendered cached frames).OwnIndices f.draw → (∀ c ∈ calls, c ≠ .beginCommandBuffer) →
      (st.recording calls).cmd.failed = false → (st.recording calls).staged idev boHandle = some staged →
      (st.recording calls).cmd.boundPipeline = some p → (st.recording calls).takesCmdlist p →
      decodeForwardedCmdlist (staged.drop SubmitCmd.size) MAX_CMD_BYTES.toNat = some f.draw →
      (st.recording calls).cmd.indexData (st.recording calls).maps = .ok idata →
        drawn none cmds = (st.recordedDraws calls).map
          (·.draw.kept (idata.items, (st.recording calls).cmd.vkIndexType))) ∧
    ¬ ∀ (cached : Bool) (frames : List DrawFrame) (f : DrawFrame) cmds payload maxBytes g,
      ((Resources.rendered cached frames).render cached f).commands = some cmds →
      (Resources.rendered cached frames).OwnIndices f.draw →
      decodeForwardedCmdlist payload maxBytes = some f.draw → f.draw.geometry = some g →
        ∀ d ∈ drawn none cmds, d.isIndexed ↔ g.indexData ≠ [] := by
  constructor
  · intro h
    have hreplayed : replayed (drawMesh [true, false]) = some [indexedOnce, indexedOnce] := by decide +kernel
    obtain ⟨staged, draw, cmds, hstaged, hdraw, hcmds, hdrawn⟩ := replayed_eq_some hreplayed
    have hkept := h true [] (meshFrame draw) cmds State.start
      (drawMesh [true, false]) oneObject 1 staged meshPipeline _
      hcmds (ownIndices_first draw) (drawMesh_records _) rfl hstaged rfl (by decide) hdraw rfl
    have hsecond := congrArg (·[1]?) (hdrawn.symm.trans hkept)
    cases hsecond
  · intro h
    have hdirect : (decodeForwardedCmdlist bufferlessIndexed.bytes 64).bind (fun draw =>
        ((Resources.rendered true []).render true (meshFrame draw)).commands.map fun cmds =>
          (draw.geometry.map fun g => !g.indexData.isEmpty, drawn none cmds)) =
        some (some true, [.direct 1 0]) := by
      decide +kernel
    obtain ⟨draw, hdraw, hcmds⟩ := Option.bind_eq_some_iff.1 hdirect
    obtain ⟨cmds, hcmds, heq⟩ := Option.map_eq_some_iff.1 hcmds
    obtain ⟨hindices, hdrawn⟩ := Prod.mk.inj heq
    obtain ⟨g, hg, hindices⟩ := Option.map_eq_some_iff.1 hindices
    have hlist := h true [] (meshFrame draw) cmds bufferlessIndexed.bytes 64 g hcmds (ownIndices_first draw) hdraw hg
      (.direct 1 0) (hdrawn ▸ List.mem_cons_self)
    rw [Bool.not_eq_true', List.isEmpty_eq_false_iff] at hindices
    exact Bool.false_ne_true (hlist.2 hindices)

end Icd

end Infinigpu
