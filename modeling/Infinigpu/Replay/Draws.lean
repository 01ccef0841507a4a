import Infinigpu.Replay.Resources

/-!
# The draws of a frame (`infinigpu-replay`, `record_forwarded_frame`)

The wire does not say of a draw whether it is indexed.  The host draws all of a command list through the index buffer
of its mesh, if the mesh has one, and all of it directly otherwise; a list without a vertex buffer has no mesh
(`drawn_commands`).

Of what is recorded only the draws and the buffers and viewports they use are modelled.
-/

namespace Infinigpu

/-! ### Recording -/

inductive Viewport where
  | full
  | own (rect : Rgba)
deriving DecidableEq

inductive VkCmd where
  | bindVertexBuffers (vbo : List UInt8)
  | bindIndexBuffer (ibo : List UInt8 × VkIndexType)
  | setViewport (viewport : Viewport)
  | draw (vertexCount instanceCount firstVertex firstInstance : UInt32)
  | drawIndexed (indexCount instanceCount firstIndex : UInt32) (vertexOffset : Int32) (firstInstance : UInt32)
deriving DecidableEq

/-- The bits of an `f32` that is greater than zero. -/
def positiveF32 (bits : UInt32) : Bool := 0 < bits && bits ≤ 0x7f800000

/-- A viewport without a width stands for the whole frame. -/
def DrawCmd.setsViewport (d : DrawCmd) : Viewport := if positiveF32 d.viewport.b then .own d.viewport else .full

def DrawCmd.record (indexed : Bool) (d : DrawCmd) : List VkCmd :=
  let inst := max d.instanceCount 1
  [.setViewport d.setsViewport,
    if indexed then .drawIndexed d.count inst d.first d.vertexOffset 0 else .draw d.count inst d.first 0]

def BoundGeometry.record (gg : BoundGeometry) : List VkCmd :=
  .bindVertexBuffers gg.vbo :: (gg.ibo.map .bindIndexBuffer).toList

/-- The draws of `record_forwarded_frame`, with the buffers of the mesh if there is one. -/
def recordDraws (draw : OwnedForwardedDraw) (geom : Option BoundGeometry) : List VkCmd :=
  match draw.geometry.filter fun g => !g.draws.isEmpty with
  | some g =>
    let indexed := geom.any (·.ibo.isSome)
    (geom.map (·.record)).getD [] ++ g.draws.flatMap (·.record indexed)
  | none => [.setViewport .full, .draw draw.vertexCount 1 0 0]

namespace Resources

/-- The commands of the frame that was recorded last. -/
def commands (s : Resources) : Option (List VkCmd) := s.bound.map fun d => recordDraws d.1 d.2.geometry.join

/-- A frame with the caches enabled or disabled. -/
def render (cached : Bool) (f : DrawFrame) (s : Resources) : Resources := if cached then s.frame f else s.frameFresh f

def rendered (cached : Bool) (frames : List DrawFrame) : Resources := frames.foldl (fun s f => s.render cached f) new

end Resources

/-! ### Execution -/

/-- A draw as it is executed, an indexed one with the index buffer that is bound for it. -/
inductive Drawn where
  | direct (vertexCount firstVertex : UInt32)
  | indexed (ibo : Option (List UInt8 × VkIndexType)) (indexCount firstIndex : UInt32) (vertexOffset : Int32)
deriving DecidableEq

def Drawn.isIndexed : Drawn → Bool
  | .direct .. => false
  | .indexed .. => true

/-- The draws that commands execute, `ibo` being bound before them. -/
def drawn (ibo : Option (List UInt8 × VkIndexType)) : List VkCmd → List Drawn
  | [] => []
  | .bindVertexBuffers _ :: cmds => drawn ibo cmds
  | .bindIndexBuffer data :: cmds => drawn (some data) cmds
  | .setViewport _ :: cmds => drawn ibo cmds
  | .draw vertexCount _ firstVertex _ :: cmds => .direct vertexCount firstVertex :: drawn ibo cmds
  | .drawIndexed indexCount _ firstIndex vertexOffset _ :: cmds =>
    .indexed ibo indexCount firstIndex vertexOffset :: drawn ibo cmds

/-- A draw of a list whose mesh has the index buffer `ibo`. -/
def DrawCmd.drawnWith (ibo : Option (List UInt8 × VkIndexType)) (d : DrawCmd) : Drawn :=
  if ibo.isSome then .indexed ibo d.count d.first d.vertexOffset else .direct d.count d.first

@[simp] theorem DrawCmd.drawnWith_isIndexed (ibo : Option (List UInt8 × VkIndexType)) (d : DrawCmd) :
    (d.drawnWith ibo).isIndexed = ibo.isSome := by
  cases ibo with
  | none => rfl
  | some data => rfl

private theorem drawn_record (ibo : Option (List UInt8 × VkIndexType)) (draws : List DrawCmd) :
    drawn ibo (draws.flatMap (·.record ibo.isSome)) = draws.map (·.drawnWith ibo) := by
  induction draws with
  | nil => rfl
  | cons d draws ih =>
    rw [List.flatMap_cons, List.map_cons, ← ih]
    cases ibo with
    | none => rfl
    | some data => rfl

/-- A command list is drawn through the index buffer of its mesh, if there is one. -/
private theorem drawn_recordDraws {draw : OwnedForwardedDraw} {g : OwnedGeometry} (hg : draw.geometry = some g)
    (hdraws : g.draws ≠ []) (geom : Option BoundGeometry) :
    drawn none (recordDraws draw geom) = g.draws.map (·.drawnWith (geom.bind (·.ibo))) := by
  have hlist : draw.geometry.filter (fun g => !g.draws.isEmpty) = some g := by
    rw [hg, Option.filter_some, if_pos]
    rwa [Bool.not_eq_true', List.isEmpty_eq_false_iff]
  unfold recordDraws
  rw [hlist]
  cases geom with
  | none => exact drawn_record none g.draws
  | some gg =>
    obtain ⟨vbo, ibo⟩ := gg
    cases ibo with
    | none => exact drawn_record none g.draws
    | some data => exact drawn_record (some data) g.draws

/-! ### Frames -/

/-- The index buffer of a mesh. -/
def OwnedGeometry.indexBuffer (g : OwnedGeometry) : Option (List UInt8 × VkIndexType) :=
  ((meshOf g).bind g.indexU32).ibo

theorem OwnedGeometry.indexBuffer_eq (g : OwnedGeometry) : g.indexBuffer =
    if g.indexData = [] then none else some (g.indexData, if g.indexU32 then .uint32 else .uint16) := by
  unfold indexBuffer meshOf Mesh.bind
  by_cases hempty : g.indexData = []
  · rw [if_pos hempty, hempty]
    rfl
  · rw [if_neg hempty, if_neg (by rwa [List.isEmpty_iff])]
    rfl

namespace Resources

variable {cached : Bool} {frames : List DrawFrame} {f : DrawFrame} {s : Resources} {cmds : List VkCmd}

/-- The mesh that is resident under the key of a draw, if there is one, has the indices of the draw. -/
def OwnIndices (s : Resources) (draw : OwnedForwardedDraw) : Prop :=
  ∀ g ∈ uploadedGeometry draw, ∀ m ∈ s.meshes.resident g, m.ibo = (meshOf g).ibo

private theorem frameFresh_cache (f : DrawFrame) (s : Resources) :
    (s.frameFresh f).meshes.cache = s.meshes.cache := by
  have hcache : (s.meshes.meshFor false f).2.cache = s.meshes.cache := by
    unfold Meshes.meshFor Meshes.uploadGeometry
    cases uploadedGeometry f.draw with
    | none => rfl
    | some g =>
      cases f.mesh with
      | false => rfl
      | true => rfl
  unfold frameFresh
  cases hm : s.meshes.meshFor false f with
  | mk geom meshes =>
    rw [hm] at hcache
    cases geom with
    | none => exact hcache
    | some geom =>
      simp only
      split
      · exact hcache
      · exact hcache

/-- Nothing gets into the caches while they are disabled. -/
private theorem rendered_fresh (frames : List DrawFrame) :
    (rendered false frames).meshes.cache = Meshes.new.cache := by
  have hfold : ∀ s : Resources, (frames.foldl (fun s f => s.render false f) s).meshes.cache = s.meshes.cache := by
    induction frames with
    | nil => exact fun s => rfl
    | cons f frames ih => exact fun s => (ih _).trans (frameFresh_cache f s)
  exact hfold new

private theorem rendered_good (frames : List DrawFrame) : (rendered true frames).Good Set.univ := by
  have hfold : ∀ s : Resources, s.Good Set.univ → (frames.foldl (fun s f => s.render true f) s).Good Set.univ := by
    induction frames with
    | nil => exact fun s hs => hs
    | cons f frames ih => exact fun s hs => ih _ (frame_spec (Set.mem_univ _) hs).1
  exact hfold new good_new

/-- What a frame binds its draw to. -/
theorem render_bound {draw : OwnedForwardedDraw} {b : Bound}
    (h : ((rendered cached frames).render cached f).bound = some (draw, b)) : draw = f.draw ∧
      b.geometry = boundGeometry f.draw ((uploadedGeometry f.draw).map fun g =>
        some (((rendered cached frames).meshes.resident g).getD (meshOf g))) := by
  cases cached with
  | false =>
    obtain ⟨rfl, rfl⟩ := frameFresh_bound h
    have hnone : ∀ g, (rendered false frames).meshes.resident g = none := by
      intro g
      unfold Meshes.resident
      rw [rendered_fresh]
      rfl
    refine ⟨rfl, ?_⟩
    simp only [hnone, Option.getD_none]
    rfl
  | true =>
    rcases (frame_spec (Set.mem_univ f.draw) (rendered_good frames)).2 with ⟨-, hbound⟩ | ⟨-, hbound⟩
    · exact absurd (h.symm.trans hbound) (Option.some_ne_none _)
    · cases h.symm.trans hbound
      exact ⟨rfl, rfl⟩

/-- What is bound at the texture bindings of a draw: each texture, or with the caches enabled what is resident under
its key. -/
theorem render_textures {draw : OwnedForwardedDraw} {b : Bound}
    (h : ((rendered cached frames).render cached f).bound = some (draw, b)) :
    b.textures = {e | e ∈ bindings (describedTextures f.draw).1 0 ((describedTextures f.draw).2.map fun t =>
      if cached then ((rendered cached frames).textures.resident t).getD t else t)} := by
  cases cached with
  | false =>
    obtain ⟨rfl, rfl⟩ := frameFresh_bound h
    simp only [Bool.false_eq_true, if_false, List.map_id']
    rfl
  | true =>
    rcases (frame_spec (Set.mem_univ f.draw) (rendered_good frames)).2 with ⟨-, hbound⟩ | ⟨-, hbound⟩
    · exact absurd (h.symm.trans hbound) (Option.some_ne_none _)
    · cases h.symm.trans hbound
      rfl

/-- **A command list is drawn through its own indices, if it has a vertex buffer and indices.** -/
theorem drawn_commands {g : OwnedGeometry} (hg : f.draw.geometry = some g) (hdraws : g.draws ≠ [])
    (hcmds : ((rendered cached frames).render cached f).commands = some cmds)
    (hown : (rendered cached frames).OwnIndices f.draw) :
    drawn none cmds = g.draws.map (·.drawnWith ((uploadedGeometry f.draw).bind (·.indexBuffer))) := by
  obtain ⟨⟨draw, b⟩, hbound, rfl⟩ := Option.map_eq_some_iff.1 hcmds
  obtain ⟨rfl, hb⟩ := render_bound hbound
  rw [drawn_recordDraws hg hdraws, hb]
  cases hu : uploadedGeometry f.draw with
  | none => rfl
  | some g' =>
    -- only the geometry of the draw is uploaded
    have hgeometry : g' = g := by
      have hsome := (Option.filter_eq_some_iff.1 hu).1
      rwa [hg, Option.some_inj, eq_comm] at hsome
    subst hgeometry
    have hibo : (((rendered cached frames).meshes.resident g').getD (meshOf g')).ibo = (meshOf g').ibo := by
      cases hm : (rendered cached frames).meshes.resident g' with
      | none => rfl
      | some m => exact hown g' hu m hm
    have hbind : boundGeometry f.draw (some (some (((rendered cached frames).meshes.resident g').getD (meshOf g')))) =
        some (some ((((rendered cached frames).meshes.resident g').getD (meshOf g')).bind g'.indexU32)) := by
      unfold boundGeometry
      rw [hg]
      exact if_neg (by rwa [List.isEmpty_iff])
    rw [Option.map_some, hbind, Option.bind_some]
    unfold OwnedGeometry.indexBuffer Mesh.bind
    simp only [Option.join_some, Option.bind_some, hibo]

end Resources

end Infinigpu
