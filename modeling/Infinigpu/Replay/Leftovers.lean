import Infinigpu.Replay.Staged

/-!
# What a replay leaves (`infinigpu-replay`, `HostGpu`)

Whichever calls of the driver fail, a render does not hand it a handle that is not live, or destroy one twice, and
what lives on is owned by a cache (`accounted`), except

* what the guards do not have yet where a call fails: the pool of `render_clear` before its command buffer is
  allocated, and the buffer and the memory of an export before they are bound;
* a texture of a frame that another one of the frame replaces in the cache.

Neither is destroyed when the GPU is dropped, nor are the pipelines with what they are built from, and the scratches.
-/

namespace Infinigpu.Vulkan

open Guard

/-! ### Frames -/

/-- What a frame is drawn with is live, whatever the textures are. -/
structure Drawing (made : List (RenderSlot × Nat)) (f : Resolved) (ss : SizedScratch) (mesh : List (Nat × VkObject))
    (c : Caches) : Prop extends Ready (fun _ => True) made RenderSlot.kind f c where
  scratch : ss.objects ⊆ c.scratches
  mesh : mesh ⊆ c.meshes

/-- The cache may be over its cap by the textures of one frame. -/
def Capped (c : TexCache) : Prop := c.map.entries.length < MAX_CACHED_TEX + MAX_TEXTURES

/-- The kinds of the textures that a draw loses. -/
def TexCache.lost (resourceCache : Bool) (draw : OwnedForwardedDraw) (c : TexCache) : List VkObject :=
  lostKinds [] (missing (c.trimmed resourceCache) (keptTextures resourceCache (describedTextures draw).2))

section

variable {made reg : List (RenderSlot × Nat)} {f : Resolved} {ss : SizedScratch}
  {mesh owned lost others loose : List (Nat × VkObject)} {d : Driver} {draw : OwnedForwardedDraw}
  {geom : Option GeometryGpu} {descs : Option FrameDescriptors} {P : Caches → Prop} {T : TexCache → Prop}
  {resourceCache : Bool} {tc : TexCache}

private theorem unread_drawing : Unread (Drawing made f ss mesh) where
  textures _ _ h := { h with textures := trivial }
  uploads _ _ h := { h with }

private theorem anySetLayouts_drawing : AnySetLayouts (Drawing made f ss mesh) :=
  fun _ _ hm h => { h with setLayouts := hm }

private theorem frameBody_meets {dst : Nat}
    (hP : ∀ c, P c → Ready T made RenderSlot.kind f c) (hss : ∀ c, P c → ss.objects ⊆ c.scratches)
    (hmade : made ⊆ reg) (hdst : ∀ c, P c → (dst, VkObject.buffer) ∈ besides others c)
    (hdrawn : ∀ c, P c → drawnWith f draw geom descs ⊆ loose ++ objects RenderSlot.kind reg ++ besides others c) :
    Meets (Holds RenderSlot.kind P (besides others) loose reg) (frameBody d ss f draw geom descs dst)
      (fun _ => Holds RenderSlot.kind P (besides others) loose reg)
      (fun e s => e.late = true ∧ Holds RenderSlot.kind P (besides others) loose reg s) := by
  have hown : ∀ us ⊆ ss.objects, ∀ c, P c → us ⊆ loose ++ objects RenderSlot.kind reg ++ besides others c :=
    fun us hus c hc u hu => List.mem_append_right _ (scratches_subset (hss c hc (hus hu)))
  have hpool : [(ss.pool, VkObject.commandPool)] ⊆ ss.objects := by simp [SizedScratch.objects]
  have hfence : [(ss.fence, VkObject.fence)] ⊆ ss.objects := by simp [SizedScratch.objects]
  refine Meets.bind (call_meets (hown _ hpool) fun _ h => ⟨rfl, h⟩) fun _ => ?_
  refine Meets.bind (call_meets (hown _ hpool) fun _ h => ⟨rfl, h⟩) fun _ => ?_
  refine Meets.bind (call_meets (fun c hc => ?_) fun _ h => ⟨rfl, h⟩) fun _ => ?_
  · have hss := hown [(ss.pool, .commandPool), (ss.framebuffer, .framebuffer), (ss.image, .image)]
      (by simp [SizedScratch.objects]) c hc
    refine List.append_subset.2 ⟨(hP c hc).usable loose hmade, List.append_subset.2 ⟨hdrawn c hc, ?_⟩⟩
    have hdst' : [(dst, VkObject.buffer)] ⊆ loose ++ objects RenderSlot.kind reg ++ besides others c :=
      List.cons_subset.2 ⟨List.mem_append_right _ (hdst c hc), List.nil_subset _⟩
    exact List.append_subset.2 ⟨hss, hdst'⟩
  refine Meets.bind (call_meets (hown _ hfence) fun _ h => ⟨rfl, h⟩) fun _ => ?_
  refine Meets.bind (call_meets (hown _ (by simp [SizedScratch.objects])) fun _ h => ⟨rfl, h⟩) fun _ => ?_
  exact call_meets (hown _ hfence) fun _ h => ⟨rfl, h⟩

private theorem capped_of_trimmed {c : TexCache} (htc : Capped tc)
    (hc : c.map = tc.trimmed resourceCache) : Capped c := by
  unfold Capped at htc ⊢
  rw [hc]
  unfold TexCache.trimmed
  split
  · exact Nat.zero_lt_of_lt htc
  · exact htc

/-- After a frame with these textures the cache is within its cap. -/
private theorem Commits.capped {m' : TexMap} {ts : List OwnedTexture} {c : TexCache}
    (h : Commits (tc.trimmed resourceCache) m' (keptTextures resourceCache ts) lost)
    (hlength : ts.length ≤ MAX_TEXTURES) (htc : Capped tc) (hc : c.map = m') : Capped c := by
  have hm := h.length
  unfold Capped at htc ⊢
  rw [hc]
  cases resourceCache with
  | false => exact hm.trans_lt htc
  | true =>
    have htrimmed : (tc.trimmed true).entries.length < MAX_CACHED_TEX := by
      unfold TexCache.trimmed
      cases hfull : tc.full with
      | true => exact (by decide : 0 < MAX_CACHED_TEX)
      | false =>
        have hroom := of_decide_eq_false hfull
        rw [not_or, Nat.not_le] at hroom
        exact hroom.1
    have hkept : (keptTextures true ts).length = ts.length := rfl
    omega

/-- What a draw that has a mesh or a descriptor set is recorded with is live. -/
private theorem drawnWith_subset {rest : List (Nat × VkObject)}
    (hdescs : descs.toList.flatMap FrameDescriptors.used ⊆ rest) (hlayout : (f.layout, .pipelineLayout) ∈ rest)
    (hgeom : meshObjects geom ⊆ rest) : drawnWith f draw geom descs ⊆ rest := by
  refine List.append_subset.2 ⟨List.append_subset.2 ⟨hdescs, ?_⟩, ?_⟩
  · split
    · exact List.cons_subset.2 ⟨hlayout, List.nil_subset _⟩
    · exact List.nil_subset _
  · split
    · refine fun u hu => hgeom ?_
      obtain ⟨g, hg, hu⟩ := List.mem_flatMap.1 hu
      refine List.mem_flatMap.2 ⟨g, hg, ?_⟩
      obtain ⟨vbo, vboMem, ibo⟩ := g
      cases ibo <;> simp [GeometryGpu.objects] at hu ⊢ <;> tauto
    · exact List.nil_subset _

/-- The frame has its descriptor set, whose textures are live: `m` has those of the cache. -/
abbrev Framed (m : TexMap) (made : List (RenderSlot × Nat)) (f : Resolved) (ss : SizedScratch)
    (mesh lost : List (Nat × VkObject)) (descs : Option FrameDescriptors) (c : Caches) : Prop :=
  Caching m (Drawing made f ss mesh) c ∧
    descs.toList.flatMap FrameDescriptors.used ⊆ descriptorObjects descs ++ lost ++ c.textures

private theorem Drawing.mem_besides {c : Caches} {u : Nat × VkObject} (h : Drawing made f ss mesh c)
    (hu : u ∈ ss.objects) : u ∈ besides others c := scratches_subset (h.scratch hu)

/-- Whether or not a frame is drawn, what is its own is destroyed. -/
private theorem frameBody_cleaned {m : TexMap} (hgeom : meshObjects geom ⊆ owned ++ mesh) :
    Meets (Holds RenderSlot.kind (Framed m made f ss mesh lost descs) (besides others)
        (owned ++ descriptorObjects descs ++ lost) made)
      (onFailure (frameBody d ss f draw geom descs ss.readback) (destroyAll (owned ++ descriptorObjects descs)))
      (fun _ => Holds RenderSlot.kind (Framed m made f ss mesh lost descs) (besides others)
        (owned ++ descriptorObjects descs ++ lost) made)
      (fun e s => e.late = true ∧
        Holds RenderSlot.kind (Framed m made f ss mesh lost descs) (besides others) lost made s) := by
  refine onFailure_meets (frameBody_meets (fun c hc => hc.1.1.toReady) (fun c hc => hc.1.1.scratch)
    (List.Subset.refl _) (fun c hc => hc.1.1.mem_besides (by simp [SizedScratch.objects])) fun c hc =>
      drawnWith_subset ?_ (made_or_built _ (List.Subset.refl _) hc.1.1.layout) ?_)
    fun e => Meets.and fun he => destroyAll_meets.post fun _ _ h => ⟨he, h⟩
  · intro u hu
    have hin := hc.2 hu
    simp only [besides, Caches.resident, List.mem_append] at hin ⊢
    tauto
  · intro u hu
    rcases List.mem_append.1 (hgeom hu) with h | h
    · exact List.mem_append_left _ (List.mem_append_left _ (List.mem_append_left _ (List.mem_append_left _ h)))
    · exact List.mem_append_right _ (meshes_subset (hc.1.1.mesh h))

/-- The frame has its uploads until it is drawn, whether or not that fails, and loses what the cache replaces. -/
private theorem drawMesh_fails (made : List (RenderSlot × Nat)) (owned mesh : List (Nat × VkObject))
    (htc : Capped tc) (hgeom : meshObjects geom ⊆ owned ++ mesh) :
    Meets (Holds RenderSlot.kind (Caching (tc.trimmed resourceCache) (Drawing made f ss mesh)) (besides others) owned
        made)
      (drawMesh resourceCache d ss f draw geom owned)
      (fun _ => Ends RenderSlot.kind (Kept Capped) (besides others)
        fun loose _ => loose.map Prod.snd = tc.lost resourceCache draw)
      (Fails RenderSlot.kind (Kept Capped) (besides others)
        fun e k => k = if e.late then tc.lost resourceCache draw else []) := by
  have hkept : ∀ c, Caching (tc.trimmed resourceCache) (Drawing made f ss mesh) c → Kept Capped c :=
    fun c hc => { hc.1 with textures := capped_of_trimmed htc hc.2 }
  have hdescs : Meets (Holds RenderSlot.kind (Caching (tc.trimmed resourceCache) (Drawing made f ss mesh))
      (besides others) (owned ++ []) made) (onFailure (descriptorsFor d resourceCache draw) (destroyAll owned)) _ _ :=
    cleaned owned (descriptorsFor_meets resourceCache draw unread_drawing anySetLayouts_drawing)
  rw [List.append_nil] at hdescs
  refine Meets.bind (Meets.failed hdescs fun e s h => fails_of_holds h.2 hkept (by rw [h.1]; rfl)) fun descs => ?_
  refine Meets.exists fun lost => Meets.exists fun m' => Meets.and fun hcommits => ?_
  have hlost : lost.map Prod.snd = tc.lost resourceCache draw := hcommits.1.kinds
  have hframed : ∀ c, Framed m' made f ss mesh lost descs c → Kept Capped c :=
    fun c hc => { hc.1.1 with textures := hcommits.1.capped hcommits.2 htc hc.1.2 }
  refine Meets.bind (Meets.failed (Meets.pre (frameBody_cleaned hgeom) fun s h => h.perm ?_) fun e s h =>
    fails_of_holds h.2 hframed (by rw [h.1]; exact hlost)) fun _ => Meets.bind destroyAll_meets fun _ => ?_
  · rw [← Multiset.coe_eq_coe]
    simp only [← Multiset.coe_add]
    abel
  · refine Meets.post (callUnless_fails ss.rbCoherent (fun c hc => ?_) hframed hlost)
      fun _ _ h => ⟨lost, _, h.mono hframed, hlost⟩
    have hmem : (ss.rbMem, VkObject.deviceMemory) ∈ besides others c :=
      hc.1.1.mem_besides (by simp [SizedScratch.objects])
    exact List.cons_subset.2 ⟨List.mem_append_right _ hmem, List.nil_subset _⟩

private theorem cachedPresentBody_fails (cacheEnabled resourceCache : Bool) (width height : UInt32)
    (draw : OwnedForwardedDraw) (htc : Capped tc) :
    Meets (Holds RenderSlot.kind (Kept (· = tc)) (besides others) [] [])
      (cachedPresentBody cacheEnabled resourceCache d width height draw)
      (fun _ => Ends RenderSlot.kind (Kept Capped) (besides others)
        fun loose _ => loose.map Prod.snd = tc.lost resourceCache draw)
      (Fails RenderSlot.kind (Kept Capped) (besides others)
        fun e k => k = if e.late then tc.lost resourceCache draw else []) := by
  have hclean : ∀ e k, Clean e k → k = if e.late then tc.lost resourceCache draw else [] := by
    rintro e k ⟨rfl, he⟩
    rw [he]
    rfl
  have hcapped : ∀ c, Kept (· = tc) c → Kept Capped c := fun c hc => { hc with textures := hc.textures ▸ htc }
  have hpipeline : ∀ e ∈ pipelineErrors, Clean e [] := by simp [pipelineErrors, Clean, VkCall.late]
  refine Meets.bind (Meets.failed (pipelineFor_fails cacheEnabled draw FORMAT (by simp) hpipeline)
    fun e s h => h.mono hcapped (hclean e)) fun found => ?_
  refine Meets.exists fun made => Meets.and fun _ => ?_
  rw [List.append_nil]
  refine Meets.bind (Meets.failed (Meets.pre (scratchFor_fails _ (fun _ => True) (List.Subset.refl _)) fun s h =>
    h.mono fun _ hc => ⟨hc, trivial⟩) fun e s h => h.mono hcapped (hclean e)) fun ss => ?_
  refine Meets.bind (Q := fun _ => Holds RenderSlot.kind (Caching (tc.trimmed resourceCache)
    (Drawing made found ss [])) (besides others) [] made) (Meets.pre (trimTexCache_meets resourceCache unread_drawing)
      fun s h => h.mono fun c hc => ?_) fun _ => ?_
  · exact ⟨{ hc.1.1 with textures := trivial, scratch := hc.2, mesh := List.nil_subset _ }, hc.1.1.textures⟩
  have htrimmed : ∀ {mesh} c, Caching (tc.trimmed resourceCache) (Drawing made found ss mesh) c → Kept Capped c :=
    fun c hc => { hc.1 with textures := capped_of_trimmed htc hc.2 }
  have hmeshes : AnyMeshes (Caching (tc.trimmed resourceCache) (Drawing made found ss [])) :=
    fun c m hm hc => ⟨{ hc.1 with meshes := hm, mesh := List.nil_subset _ }, hc.2⟩
  refine Meets.bind (Meets.failed (meshFor_meets resourceCache draw hmeshes fun c hc => hc.1.meshes)
    fun e s h => fails_of_holds h.2 htrimmed (hclean e [] ⟨rfl, h.1⟩)) fun geom => ?_
  -- the mesh is of the cache, or the frame's own
  cases resourceCache with
  | true =>
    refine Meets.pre (drawMesh_fails made [] (meshObjects geom) htc (List.subset_append_right _ _)) fun s h => ?_
    exact h.mono fun c hc => ⟨{ hc.1.1 with mesh := hc.2 rfl }, hc.1.2⟩
  | false =>
    refine Meets.pre (drawMesh_fails made (meshObjects geom) [] htc (List.subset_append_left _ _)) fun s h => ?_
    rw [List.append_nil] at h
    exact h.mono fun c hc => hc.1

private theorem zerocopyBody_fails (cacheEnabled memHost : Bool) (hostPtrAlign : UInt64) (width height : UInt32)
    (draw : OwnedForwardedDraw) (guestPtr : UInt64) :
    Meets (Holds RenderSlot.kind (Kept T) (besides others) [] [])
      (zerocopyBody cacheEnabled memHost hostPtrAlign d width height draw guestPtr)
      (fun _ => Ends RenderSlot.kind (Kept T) (besides others) fun loose _ => loose.map Prod.snd = [])
      (Fails RenderSlot.kind (Kept T) (besides others) fun _ k => k = []) := by
  have hK : ∀ c, Kept T c → Kept T c := fun _ h => h
  refine Meets.bind (Q := fun _ s => draw.geometry = none ∧ Holds RenderSlot.kind (Kept T) (besides others) [] [] s)
    ?_ fun _ => Meets.and fun hgeometry => ?_
  · cases hgeometry : draw.geometry with
    | some g => exact throw_meets fun _ h => fails_of_holds h hK rfl
    | none => exact .pure fun _ h => ⟨rfl, h⟩
  refine Meets.bind (pipelineFor_fails cacheEnabled draw FORMAT (by simp) fun _ _ => rfl) fun found => ?_
  refine Meets.exists fun made => Meets.and fun _ => ?_
  rw [List.append_nil]
  refine Meets.bind (Meets.failed (importFor_fails memHost hostPtrAlign
    (guestPtr, width.toUInt64 * height.toUInt64 * 4)) fun e s h => h.mono hK fun k hk => hk.1) fun ig => ?_
  refine Meets.bind (Meets.failed (scratchFor_fails (width, height, false) (fun m => m.lookup _ = some ig)
    (List.Subset.refl _)) fun e s h => h.mono hK fun k hk => hk.1) fun ss => ?_
  have hkept : ∀ {key : ImportKey} c, (Ready T made RenderSlot.kind found c ∧ c.guestImports.lookup key = some ig) ∧
      ss.objects ⊆ c.scratches → Kept T c := fun c hc => hc.1.1.toKept
  refine Meets.post (Meets.failed (frameBody_meets (fun c hc => hc.1.1) (fun c hc => hc.2) (List.Subset.refl _)
    (fun c hc => ?_) fun c hc => ?_) fun e s h => fails_of_holds h.2 hkept rfl)
      fun _ _ h => ⟨[], _, h.mono hkept, rfl⟩
  · exact imports_subset (imports_of_lookup hc.1.2 (List.mem_cons_self (a := (ig.buffer, VkObject.buffer))))
  · unfold drawnWith
    rw [hgeometry]
    exact List.nil_subset _

end

/-! ### Runs of requests -/

/-- A frame was drawn, or a call of drawing it failed. -/
def drawn : Except VkCall Unit → Bool
  | .ok _ => true
  | .error e => e.late

namespace HostGpu

/-- The kinds of the objects that a request leaves and that nothing owns, by how it is answered. -/
def left (cfg : Config) (g : HostGpu) : GpuCall → Except VkCall Unit → List VkObject
  | .clear, .error e => clearLeaks e
  | .convertPresent _ _ _ _ exported, .error e => exportLeaks e exported
  | .triangle _ exported, .error e => exportLeaks e exported
  | .forwarded _ _ draw, r =>
    if cfg.scratchEnabled && drawn r then g.caches.texCache.lost cfg.resourceCacheEnabled draw else []
  | _, _ => []

/-- Answers requests, each with the driver as it is then; also what they leave. -/
def run (cfg : Config) : List (GpuCall × Driver) → HostGpu → List VkObject × HostGpu
  | [], g => ([], g)
  | (c, d) :: requests, g =>
    let (r, g') := g.answer cfg d c
    let (later, g'') := run cfg requests g'
    (later ++ g.left cfg c r, g'')

/-- The live objects are these, which nothing owns, and those that the caches have. -/
structure Accounted (lost : List (Nat × VkObject)) (g : HostGpu) : Prop where
  handles : g.handles.Owned (besides lost g.caches)
  caches : Kept Capped g.caches

variable {lost : List (Nat × VkObject)} {g : HostGpu}

private theorem accounted_new : (new : HostGpu).Accounted [] where
  handles := Handles.owned_new
  caches := {
    pipelines := Nat.zero_le _
    modules := Nat.zero_le _
    setLayouts := Nat.zero_le _
    scratches := Nat.zero_le _
    imports := Nat.zero_le _
    meshes := Nat.zero_le _
    textures := (by decide : 0 < MAX_CACHED_TEX + MAX_TEXTURES) }

private theorem left_triangle (cfg : Config) (g : HostGpu) (draw : OwnedForwardedDraw) (r : Except VkCall Unit) :
    g.left cfg (.triangle draw false) r = [] := by
  cases r with
  | ok _ => rfl
  | error e =>
    show exportLeaks e false = []
    unfold exportLeaks
    split <;> first | rfl | contradiction

/-- What a body under a guard leaves comes to what is lost. -/
private theorem Accounted.render {S : Type} [DecidableEq S] {kindOf : S → VkObject} {order : List S}
    {body : Render S Unit} {T : TexCache → Prop} (left : Except VkCall Unit → List VkObject) (h : g.Accounted lost)
    (hT : T g.caches.texCache) (horder : order.Nodup) (hall : ∀ slot, slot ∈ order)
    (hbody : Meets (Holds kindOf (Kept T) (besides lost) [] []) body
      (fun _ => Ends kindOf (Kept Capped) (besides lost) fun loose _ => loose.map Prod.snd = left (.ok ()))
      (Fails kindOf (Kept Capped) (besides lost) fun e k => k = left (.error e))) :
    ∃ made, made.map Prod.snd = left (g.render kindOf order body).1 ∧
      (g.render kindOf order body).2.Accounted (made ++ lost) := by
  have hguarded := guarded_meets horder hall h.handles { h.caches with textures := hT } hbody
  unfold HostGpu.render
  generalize guarded kindOf order body g.handles g.caches = r at hguarded
  obtain ⟨e | r, handles, caches⟩ := r
  all_goals
    obtain ⟨made, hmade, hown, hkept⟩ := hguarded
    refine ⟨made, hmade, ?_, hkept⟩
    rw [besides, List.append_assoc]
    exact hown

private theorem Accounted.renderTriangleInner (h : g.Accounted lost) (cfg : Config) (d : Driver)
    (draw : OwnedForwardedDraw) (exported : Bool) :
    ∃ made, made.map Prod.snd =
        g.left cfg (.triangle draw exported) (g.renderTriangleInner cfg d draw exported).1 ∧
      (g.renderTriangleInner cfg d draw exported).2.Accounted (made ++ lost) := by
  unfold HostGpu.renderTriangleInner
  split
  · refine ⟨[], ?_, h⟩
    cases exported <;> rfl
  · exact h.render (g.left cfg (.triangle draw exported)) h.caches.textures RenderSlot.nodup_dropOrder
      RenderSlot.mem_dropOrder (triangleBody_fails cfg.cacheEnabled draw exported)

private theorem Accounted.forgetAllGuestImports (h : g.Accounted lost) : g.forgetAllGuestImports.Accounted lost where
  handles := by
    refine Handles.Owned.destroyAll (h.handles.perm ?_)
    show (besides lost g.caches).Perm (g.caches.imports ++
      (lost ++ (g.caches.built ++ (g.caches.setLayouts ++ (g.caches.scratches ++ ([] ++ g.caches.resident))))))
    rw [← Multiset.coe_eq_coe]
    simp only [besides, ← Multiset.coe_add, Multiset.coe_nil]
    abel
  caches := { h.caches with imports := Nat.zero_le _ }

/-- What the drop leaves. -/
private theorem Accounted.drop (h : g.Accounted lost) :
    g.drop.handles.Owned (lost ++ (g.caches.built ++ g.caches.scratches)) := by
  have hforget := h.forgetAllGuestImports.handles
  refine Handles.Owned.destroyAll (Handles.Owned.destroyAll (Handles.Owned.destroyAll (Handles.Owned.destroyAll
    (hforget.perm ?_))))
  show (lost ++ (g.caches.built ++ (g.caches.setLayouts ++ (g.caches.scratches ++ ([] ++ (g.caches.textures ++
    (g.caches.meshes ++ g.caches.uploads))))))).Perm (g.caches.setLayouts ++ (g.caches.textures ++ (g.caches.meshes ++
      (g.caches.uploads ++ (lost ++ (g.caches.built ++ g.caches.scratches))))))
  rw [← Multiset.coe_eq_coe]
  simp only [← Multiset.coe_add, Multiset.coe_nil]
  abel

private theorem Accounted.answer (h : g.Accounted lost) (cfg : Config) (d : Driver) (c : GpuCall) :
    ∃ made, made.map Prod.snd = g.left cfg c (g.answer cfg d c).1 ∧
      (g.answer cfg d c).2.Accounted (made ++ lost) := by
  cases c with
  | clear =>
    exact h.render (g.left cfg .clear) h.caches.textures RenderSlot.nodup_dropOrder RenderSlot.mem_dropOrder
      clearBody_fails
  | convertPresent width height pitch srcBytes exported =>
    unfold HostGpu.answer convertPresentInner
    simp only
    split
    · refine ⟨[], ?_, h⟩
      cases exported <;> rfl
    · exact h.render (g.left cfg (.convertPresent width height pitch srcBytes exported)) h.caches.textures
        ConvertSlot.nodup_dropOrder ConvertSlot.mem_dropOrder (convertBody_fails exported)
  | triangle draw exported => exact h.renderTriangleInner cfg d draw exported
  | forwarded width height draw =>
    unfold HostGpu.answer HostGpu.left renderForwarded
    simp only
    cases cfg.scratchEnabled with
    | true =>
      exact h.render (T := fun t => t = g.caches.texCache)
        (fun r => if drawn r then g.caches.texCache.lost cfg.resourceCacheEnabled draw else []) rfl
        RenderSlot.nodup_dropOrder RenderSlot.mem_dropOrder
        (cachedPresentBody_fails cfg.cacheEnabled cfg.resourceCacheEnabled width height draw h.caches.textures)
    | false =>
      obtain ⟨made, hmade, haccounted⟩ := h.renderTriangleInner cfg d draw false
      exact ⟨made, hmade.trans (left_triangle cfg g draw _), haccounted⟩
  | zerocopy width height draw guestPtr =>
    exact h.render (g.left cfg (.zerocopy width height draw guestPtr)) h.caches.textures RenderSlot.nodup_dropOrder
      RenderSlot.mem_dropOrder
      (zerocopyBody_fails cfg.cacheEnabled cfg.memHost cfg.hostPtrAlign width height draw guestPtr)
  | forgetAllGuestImports => exact ⟨[], rfl, h.forgetAllGuestImports⟩

private theorem Accounted.run (h : g.Accounted lost) (cfg : Config) (requests : List (GpuCall × Driver)) :
    ∃ made, made.map Prod.snd = (run cfg requests g).1 ∧ (run cfg requests g).2.Accounted (made ++ lost) := by
  induction requests generalizing g lost with
  | nil => exact ⟨[], rfl, h⟩
  | cons request requests ih =>
    obtain ⟨c, d⟩ := request
    obtain ⟨made, hmade, hanswer⟩ := h.answer cfg d c
    obtain ⟨later, hlater, hrun⟩ := ih hanswer
    refine ⟨later ++ made, ?_, ?_⟩
    · rw [List.map_append, hmade, hlater]
      rfl
    · rw [List.append_assoc]
      exact hrun

/-- In every run of requests, whatever calls of the driver fail, no handle is used or destroyed that is not live; what
is live is what the caches have, which are within their caps, and what the requests left.  The drop leaves that, what
the pipeline cache has and the scratches. -/
theorem accounted (cfg : Config) (requests : List (GpuCall × Driver)) :
    ∃ lost, lost.map Prod.snd = (HostGpu.run cfg requests new).1 ∧ (HostGpu.run cfg requests new).2.Accounted lost ∧
      (HostGpu.run cfg requests new).2.drop.handles.Owned (lost ++
        ((HostGpu.run cfg requests new).2.caches.built ++ (HostGpu.run cfg requests new).2.caches.scratches)) := by
  obtain ⟨made, hmade, hrun⟩ := accounted_new.run cfg requests
  rw [List.append_nil] at hrun
  exact ⟨made, hmade, hrun, hrun.drop⟩

/-- A clear whose command buffer is not allocated leaves the pool. -/
example : (HostGpu.run ⟨true, true, 1, true, true, true⟩ [(.clear, ⟨(· ≠ .commandBuffer), true, fun _ => 0⟩)] new).1 =
    [.commandPool] := by
  decide

end HostGpu

end Infinigpu.Vulkan
