import Infinigpu.Replay.Renders
import Infinigpu.Replay.Uploads

/-!
# What the uploads of a frame leave (`infinigpu-replay`, the resource caches)

Whatever call fails before a frame is drawn, its uploads leave nothing that no cache owns.  When all of them succeed,
the frame has what is its own, the cache what was put into it, and the set refers to what is live.  But where two
textures of one frame have one key and the cache has none under it, both are made, and the second one takes the place
of the first, which is lost (`commitUploads_meets`).
-/

namespace Infinigpu.Vulkan

open Guard

/-! ### Meshes -/

section

variable {S α : Type} [DecidableEq S] {kindOf : S → VkObject} {I : Caches → Prop} {l : Caches → List (Nat × VkObject)}
  {loose : List (Nat × VkObject)} {reg : List (S × Nat)} {d : Driver}

/-- What is destroyed by hand where a call fails. -/
theorem cleaned (us : List (Nat × VkObject)) {P : Scope S VkObject Caches → Prop} {m : Render S α}
    {Q : α → Scope S VkObject Caches → Prop} (hm : Meets P m Q (Early kindOf I l (us ++ loose) reg)) :
    Meets P (onFailure m (destroyAll us)) Q (Early kindOf I l loose reg) :=
  onFailure_meets hm fun _ => Meets.and fun he => destroyAll_meets.post fun _ _ h => ⟨he, h⟩

private theorem refuses (b : Bool) :
    Meets (Holds kindOf I l loose reg) (if b then throw .refused else pure () : Render S Unit)
      (fun _ => Holds kindOf I l loose reg) (Early kindOf I l loose reg) := by
  cases b with
  | true => exact throw_meets fun _ h => ⟨rfl, h⟩
  | false => exact .pure fun _ h => h

private theorem filledBuffer_meets (t : Target) (data : List UInt8) :
    Meets (Holds kindOf I l loose reg) (filledBuffer d t data)
      (fun p => Holds kindOf I l ([(p.1, .buffer), (p.2, .deviceMemory)] ++ loose) reg)
      (Early kindOf I l loose reg) := by
  refine Meets.bind (refuses data.isEmpty) fun _ => ?_
  refine Meets.bind (create_meets (usable (List.nil_subset _)) fun _ h => ⟨rfl, h⟩) fun buf => ?_
  refine Meets.bind (cleaned [(buf, .buffer)] (call_meets (usable (List.nil_subset _)) fun _ h => ⟨rfl, h⟩))
    fun _ => ?_
  refine Meets.bind (cleaned [(buf, .buffer)] (create_meets (usable (List.nil_subset _))
    fun _ h => ⟨rfl, h⟩)) fun mem => ?_
  refine Meets.bind (cleaned [(mem, .deviceMemory), (buf, .buffer)] (call_meets (usable ?_)
    fun _ h => ⟨rfl, h⟩)) fun _ => ?_
  · simp
  refine Meets.bind (cleaned [(mem, .deviceMemory), (buf, .buffer)] (call_meets (usable ?_)
    fun _ h => ⟨rfl, h⟩)) fun _ => .pure fun _ h => h.swap
  simp

private theorem uploadGeometry_meets (g : OwnedGeometry) :
    Meets (Holds kindOf I l loose reg) (uploadGeometry d g) (fun gpu => Holds kindOf I l (gpu.objects ++ loose) reg)
      (Early kindOf I l loose reg) := by
  refine Meets.bind (filledBuffer_meets .vertices g.vertexData) fun vbo => ?_
  cases hindices : g.indexData.isEmpty with
  | true => exact .pure fun _ h => h
  | false =>
    refine Meets.bind (Q := fun ibo => Holds kindOf I l (GeometryGpu.objects ⟨vbo.1, vbo.2, ibo⟩ ++ loose) reg) ?_
      fun ibo => .pure fun _ h => h
    refine Meets.bind (cleaned _ (filledBuffer_meets .indices g.indexData)) fun ibo => .pure fun _ h => h.perm ?_
    rw [← List.append_assoc]
    exact List.perm_append_comm.append_right _

/-- `P` does not depend on the meshes, as long as they are within their cap. -/
def AnyMeshes (P : Caches → Prop) : Prop :=
  ∀ c m, m.map.entries.length ≤ MAX_CACHED_GEOM → P c → P { c with geomCache := m }

variable {P : Caches → Prop} {others : List (Nat × VkObject)}

private theorem meshes_of_lookup {c : Caches} {key : UInt64} {r : ResidentGeometry}
    (h : c.geomCache.map.lookup key = some r) : r.gpu.objects ⊆ c.meshes :=
  fun _ hu => List.mem_flatMap.2 ⟨⟨key, r⟩, AList.mem_lookup_iff.1 h, hu⟩

/-- The mesh that is found, or uploaded and put into the cache. -/
private theorem getOrUploadGeometry_meets (g : OwnedGeometry) (hP : AnyMeshes P)
    (hcap : ∀ c, P c → c.geomCache.map.entries.length ≤ MAX_CACHED_GEOM) :
    Meets (Holds kindOf P (besides others) loose reg) (getOrUploadGeometry d g)
      (fun gpu => Holds kindOf (fun c => P c ∧ gpu.objects ⊆ c.meshes) (besides others) loose reg)
      (Early kindOf P (besides others) loose reg) := by
  refine Meets.bind inspect_meets fun found => ?_
  cases found with
  | some r =>
    refine Meets.bind (onRest_keeps _ fun c hc => ⟨⟨hP c _ (hcap c hc.1) hc.1, meshes_of_lookup hc.2⟩, .refl _⟩)
      fun _ => .pure fun _ h => h
  | none =>
    refine Meets.bind (Meets.failed (uploadGeometry_meets g) fun e s h => ⟨h.1, h.2.mono fun c hc => hc.1⟩)
      fun gpu => ?_
    refine Meets.bind (onRest_keeps (fun c => P c ∧ c.geomCache.map.lookup (geomKey g) = none)
      fun c hc => ⟨⟨hP c _ (hcap c hc.1) hc.1, hc.2⟩, .refl _⟩) fun _ => ?_
    refine Meets.bind (drainWhen_meets (fun c => (P c ∧ c.geomCache.map.lookup (geomKey g) = none) ∧
      c.geomCache.map.entries.length < MAX_CACHED_GEOM) ?_ ?_) fun _ => ?_
    · intro c hc _
      refine ⟨⟨⟨hP c _ (Nat.zero_le _) hc.1, AList.lookup_empty _⟩, (by decide : 0 < MAX_CACHED_GEOM)⟩, ?_⟩
      show (c.meshes ++ (others ++ (c.built ++ (c.setLayouts ++ (c.scratches ++ (c.imports ++
        (c.textures ++ ([] ++ c.uploads)))))))).Perm (besides others c)
      rw [← Multiset.coe_eq_coe]
      simp only [besides, Caches.resident, ← Multiset.coe_add, Multiset.coe_nil]
      abel
    · intro c hc hfull
      have hroom := of_decide_eq_false hfull
      rw [not_or, Nat.not_le] at hroom
      exact ⟨hc, hroom.1⟩
    refine Meets.bind (onRest_gives _ fun c hc => ?_) fun _ => .pure fun _ h => h
    obtain ⟨⟨hPc, habsent⟩, hroom⟩ := hc
    let r : ResidentGeometry := ⟨gpu, g.vertexData.length + g.indexData.length⟩
    have hlength := (entries_insert (α := Unit) r habsent fun _ => ()).1
    have hmeshes := entries_insert_flatMap r habsent fun e => e.2.gpu.objects
    refine ⟨⟨hP c _ (hlength.trans_le hroom) hPc, meshes_of_lookup (r := r) (AList.lookup_insert _)⟩, ?_⟩
    show (gpu.objects ++ besides others c).Perm (others ++ (c.built ++ (c.setLayouts ++ (c.scratches ++ (c.imports ++
      (c.textures ++ ((c.geomCache.map.insert _ _).entries.flatMap _ ++ c.uploads)))))))
    rw [hmeshes, ← Multiset.coe_eq_coe]
    simp only [besides, Caches.resident, Caches.meshes, ← Multiset.coe_add]
    abel

/-- The objects of a mesh. -/
def meshObjects (geom : Option GeometryGpu) : List (Nat × VkObject) := geom.toList.flatMap GeometryGpu.objects

theorem meshFor_meets (resourceCache : Bool) (draw : OwnedForwardedDraw) (hP : AnyMeshes P)
    (hcap : ∀ c, P c → c.geomCache.map.entries.length ≤ MAX_CACHED_GEOM) :
    Meets (Holds kindOf P (besides others) loose reg) (meshFor d resourceCache draw)
      (fun geom => Holds kindOf (fun c => P c ∧ (resourceCache = true → meshObjects geom ⊆ c.meshes)) (besides others)
        ((if resourceCache then [] else meshObjects geom) ++ loose) reg)
      (Early kindOf P (besides others) loose reg) := by
  unfold meshFor
  cases uploadedGeometry draw with
  | none =>
    refine .pure fun _ h => ?_
    rw [show meshObjects none = [] from rfl, ite_self]
    exact h.mono fun c hc => ⟨hc, fun _ => List.nil_subset _⟩
  | some g =>
    have hobjects : ∀ gpu, meshObjects (some gpu) = gpu.objects := fun gpu => List.append_nil _
    cases resourceCache with
    | true =>
      refine Meets.bind (getOrUploadGeometry_meets g hP hcap) fun gpu => .pure fun _ h => h.mono fun c hc => ?_
      rw [hobjects]
      exact ⟨hc.1, fun _ => hc.2⟩
    | false =>
      refine Meets.bind (uploadGeometry_meets g) fun gpu => .pure fun _ h => ?_
      simp only [hobjects]
      exact h.mono fun c hc => ⟨hc, Bool.noConfusion⟩

/-! ### Textures -/

private theorem textureBody_builds (i : Nat) :
    Meets (Holds TextureSlot.kind I l [] []) (textureBody d i)
      (fun t => Ends TextureSlot.kind I l fun made _ => made.Perm t.objects)
      (fun e => Ends TextureSlot.kind I l fun made _ => made = [] ∧ e.late = false) := by
  have hI : ∀ c, I c → I c := fun _ h => h
  refine Meets.failed (R := Fails TextureSlot.kind I l Clean) ?_ fun _ _ h => h.clean
  refine Meets.bind (backed_fails (by simp) (by simp) (by decide) hI ⟨rfl, rfl⟩ ⟨rfl, rfl⟩ ⟨rfl, rfl⟩ ⟨rfl, rfl⟩)
    fun staged => ?_
  obtain ⟨staging, stagingMem⟩ := staged
  refine Meets.bind (call_fails (by simp [objects, TextureSlot.kind]) hI ⟨rfl, rfl⟩) fun _ => ?_
  refine Meets.bind (backed_fails (by simp) (by simp) (by decide) hI ⟨rfl, rfl⟩ ⟨rfl, rfl⟩ ⟨rfl, rfl⟩ ⟨rfl, rfl⟩)
    fun img => ?_
  obtain ⟨image, imageMem⟩ := img
  refine Meets.bind (acquire_fails (by simp [objects, TextureSlot.kind]) (by simp) hI ⟨rfl, rfl⟩) fun view => ?_
  refine Meets.bind (acquire_fails (by simp) (by simp) hI ⟨rfl, rfl⟩) fun sampler => ?_
  refine Meets.bind disarm_meets fun _ => .pure fun s h => ⟨_, [], h, ?_⟩
  show List.Perm _ _
  rw [← Multiset.coe_eq_coe]
  simp only [objects, TextureGpu.objects, TextureGpu.sampled, TextureGpu.staged, TextureSlot.kind, List.nil_append,
    List.cons_append, List.map_cons, List.map_nil, ← Multiset.cons_coe, ← Multiset.singleton_add]
  abel

private theorem allocTexture_meets (i : Nat) :
    Meets (Holds kindOf I l loose reg) (allocTexture d i) (fun t => Holds kindOf I l (t.objects ++ loose) reg)
      (Early kindOf I l loose reg) := by
  refine Meets.post (nested_meets TextureSlot.nodup_dropOrder TextureSlot.mem_dropOrder (textureBody_builds i)
    fun _ _ he h => ⟨he, h⟩) fun t s h => ?_
  obtain ⟨made, hmade, hs⟩ := h
  exact hs.perm (hmade.append_right _)

variable {pool : Nat}

/-! #### Textures of one frame -/

private theorem uploadTextureInto_meets (i : Nat) (t : OwnedTexture)
    (hpool : (pool, .descriptorPool) ∈ objects kindOf reg) :
    Meets (Holds kindOf I l loose reg) (uploadTextureInto d pool i t)
      (fun gpu => Holds kindOf I l (gpu.objects ++ loose) reg) (Early kindOf I l loose reg) := by
  refine Meets.bind (Q := fun _ => Holds kindOf I l loose reg) ?_ fun _ => ?_
  · split
    · exact throw_meets fun _ h => ⟨rfl, h⟩
    · exact .pure fun _ h => h
  refine Meets.bind (allocTexture_meets i) fun gpu => Meets.bind (touch_meets (usable ?_)) fun _ => .pure fun _ h => h
  simp [hpool, TextureGpu.objects, TextureGpu.sampled]

/-- All textures are made, or none is left. -/
private theorem uploadTextures_meets (hpool : (pool, .descriptorPool) ∈ objects kindOf reg) (ts : List OwnedTexture)
    (i : Nat) (built : List TextureGpu) :
    Meets (Holds kindOf I l (built.flatMap TextureGpu.objects ++ loose) reg) (uploadTextures d pool i ts built)
      (fun tex => Holds kindOf I l (tex.flatMap TextureGpu.objects ++ loose) reg) (Early kindOf I l loose reg) := by
  induction ts generalizing i built with
  | nil => exact .pure fun _ h => h
  | cons t ts ih =>
    refine Meets.bind (cleaned _ (uploadTextureInto_meets i t hpool)) fun gpu =>
      Meets.pre (ih (i + 1) (built ++ [gpu])) fun s h => h.perm ?_
    rw [List.flatMap_append, ← List.append_assoc]
    simp only [List.flatMap_cons, List.flatMap_nil, List.append_nil]
    exact List.perm_append_comm.append_right _

/-! #### Textures of the cache -/

/-- `P` does not depend on what the textures of a frame change. -/
structure Unread (P : Caches → Prop) : Prop where
  textures : ∀ c t, P c → P { c with texCache := t }
  uploads : ∀ c u, P c → P { c with uploadCtx := u }

/-- The textures of the cache are these. -/
abbrev Caching (m : TexMap) (P : Caches → Prop) (c : Caches) : Prop := P c ∧ c.texCache.map = m

/-- The keys of the textures that are not in the cache. -/
def missing (m : TexMap) (ts : List OwnedTexture) : List UInt64 :=
  (ts.map texKey).filter fun k => (m.lookup k).isNone

variable {m : TexMap}

private theorem textures_of_lookup {c : Caches} {key : UInt64} {r : ResidentTexture}
    (h : c.texCache.map.lookup key = some r) : r.objects ⊆ c.textures :=
  fun _ hu => List.mem_flatMap.2 ⟨⟨key, r⟩, AList.mem_lookup_iff.1 h, hu⟩

/-- Others' objects, and those of the caches but the textures. -/
private def besideTextures (others : List (Nat × VkObject)) (c : Caches) : List (Nat × VkObject) :=
  others ++ (c.built ++ (c.setLayouts ++ (c.scratches ++ (c.imports ++ (c.meshes ++ c.uploads)))))

private theorem besides_textures (others : List (Nat × VkObject)) (c : Caches) :
    (besides others c).Perm (c.textures ++ besideTextures others c) := by
  rw [← Multiset.coe_eq_coe]
  simp only [besides, besideTextures, Caches.resident, ← Multiset.coe_add]
  abel

/-- The textures that a frame finds. -/
def TexCache.trimmed (resourceCache : Bool) (c : TexCache) : TexMap := if resourceCache && c.full then ∅ else c.map

theorem trimTexCache_meets (resourceCache : Bool) {tc : TexCache} (hP : Unread P)
    {R : VkCall → Scope S VkObject Caches → Prop} :
    Meets (Holds kindOf (fun c => P c ∧ c.texCache = tc) (besides others) loose reg)
      (if resourceCache then trimTexCache else pure ())
      (fun _ => Holds kindOf (Caching (tc.trimmed resourceCache) P) (besides others) loose reg) R := by
  cases resourceCache with
  | false => exact .pure fun _ h => h.mono fun c hc => ⟨hc.1, congrArg TexCache.map hc.2⟩
  | true =>
    rw [if_pos rfl]
    refine drainWhen_meets _ (fun c hc hfull => ⟨⟨hP.textures c _ hc.1, ?_⟩, ?_⟩) fun c hc hfull => ⟨hc.1, ?_⟩
    · rw [hc.2] at hfull
      unfold TexCache.trimmed
      rw [hfull]
      rfl
    · exact (besides_textures others c).symm
    · rw [hc.2] at hfull
      unfold TexCache.trimmed
      rw [hfull]
      exact congrArg TexCache.map hc.2

/-- What of the cache goes into the set is usable, and the textures that are missing are made. -/
private theorem stageTextures_meets (hP : Unread P) (hpool : (pool, .descriptorPool) ∈ objects kindOf reg)
    (ts : List OwnedTexture) (i : Nat) (pending : List PendingTexUpload) (set : List (Nat × VkObject)) :
    Meets (Holds kindOf (fun c => Caching m P c ∧ set ⊆ c.textures) (besides others)
        (pendingObjects pending ++ loose) reg)
      (stageTextures d pool i ts pending set)
      (fun r s => r.1.map (·.key) = pending.map (·.key) ++ missing m ts ∧
        Holds kindOf (fun c => Caching m P c ∧ r.2 ⊆ c.textures) (besides others) (pendingObjects r.1 ++ loose) reg s)
      (Early kindOf (Caching m P) (besides others) loose reg) := by
  induction ts generalizing i pending set with
  | nil => exact .pure fun _ h => ⟨(List.append_nil _).symm, h⟩
  | cons t ts ih =>
    refine Meets.bind (Q := fun _ => Holds kindOf (fun c => Caching m P c ∧ set ⊆ c.textures) (besides others)
      (pendingObjects pending ++ loose) reg) (cleaned _ ?_) fun _ => ?_
    · split
      · exact throw_meets fun _ h => ⟨rfl, h.mono fun c hc => hc.1⟩
      · exact .pure fun _ h => h
    refine Meets.bind inspect_meets fun found => ?_
    cases found with
    | some r =>
      refine Meets.given (fun s h => h.rest.1.1.2 ▸ h.rest.2) fun hr => ?_
      have hmissing : missing m (t :: ts) = missing m ts := by
        unfold missing
        rw [List.map_cons, List.filter_cons_of_neg (by rw [hr]; exact Bool.false_ne_true)]
      refine Meets.bind (onRest_keeps (fun c => (Caching m P c ∧ set ⊆ c.textures) ∧ r.objects ⊆ c.textures)
        fun c hc => ⟨⟨⟨⟨hP.textures c _ hc.1.1.1, hc.1.1.2⟩, hc.1.2⟩, textures_of_lookup hc.2⟩, .refl _⟩) fun _ => ?_
      refine Meets.bind (touch_meets fun c hc => ?_) fun _ => ?_
      · have hview := hc.2 (List.mem_cons_of_mem _ List.mem_cons_self : (r.view, VkObject.imageView) ∈ r.objects)
        have hsampler := hc.2 (List.mem_cons_self : (r.sampler, VkObject.sampler) ∈ r.objects)
        have hown : c.textures ⊆ pendingObjects pending ++ loose ++ objects kindOf reg ++ besides others c :=
          List.Subset.trans textures_subset (List.subset_append_right _ _)
        exact List.cons_subset.2 ⟨List.mem_append_left _ (List.mem_append_right _ hpool),
          List.cons_subset.2 ⟨hown hview, List.cons_subset.2 ⟨hown hsampler, List.nil_subset _⟩⟩⟩
      · rw [hmissing]
        refine Meets.pre (ih (i + 1) pending _) fun s h => h.mono fun c hc => ⟨hc.1.1, ?_⟩
        refine List.append_subset.2 ⟨hc.1.2, List.cons_subset.2 ⟨hc.2 ?_, List.cons_subset.2 ⟨hc.2 ?_,
          List.nil_subset _⟩⟩⟩
        · exact List.mem_cons_of_mem _ List.mem_cons_self
        · exact List.mem_cons_self
    | none =>
      refine Meets.given (fun s h => h.rest.1.1.2 ▸ h.rest.2) fun hr => ?_
      have hmissing : missing m (t :: ts) = texKey t :: missing m ts := by
        unfold missing
        rw [List.map_cons, List.filter_cons_of_pos (by rw [hr]; rfl)]
      refine Meets.bind (Q := fun p s => p.key = texKey t ∧ Holds kindOf (fun c => Caching m P c ∧ set ⊆ c.textures)
        (besides others) (pendingObjects (pending ++ [p]) ++ loose) reg s) (cleaned _ ?_) fun p =>
          Meets.and fun hkey => ?_
      · refine Meets.bind (Meets.failed (allocTexture_meets i) fun e s h => ⟨h.1, h.2.mono fun c hc => hc.1.1⟩)
          fun gpu => .pure fun s h => ⟨rfl, (h.mono fun c hc => hc.1).perm ?_⟩
        unfold pendingObjects
        rw [List.flatMap_append, ← List.append_assoc]
        simp only [List.flatMap_cons, List.flatMap_nil, List.append_nil]
        exact List.perm_append_comm.append_right _
      · refine (ih (i + 1) (pending ++ [p]) set).post fun r s h => ⟨?_, h.2⟩
        rw [h.1, hmissing, List.map_append, List.append_assoc, ← hkey]
        rfl

private theorem uploads_of_eq {c : Caches} {u : UploadCtx} (h : c.uploadCtx = some u) : u.objects ⊆ c.uploads := by
  unfold Caches.uploads
  rw [h]
  exact List.subset_append_left _ _

private theorem ensureUploadCtx_meets (hP : ∀ c u, P c → P { c with uploadCtx := u }) :
    Meets (Holds kindOf P (besides others) loose reg) (ensureUploadCtx d)
      (fun u => Holds kindOf (fun c => P c ∧ u.objects ⊆ c.uploads) (besides others) loose reg)
      (Early kindOf P (besides others) loose reg) := by
  refine Meets.bind inspect_meets fun found => ?_
  cases found with
  | some u => exact .pure fun _ h => h.mono fun c hc => ⟨hc.1, uploads_of_eq hc.2⟩
  | none =>
    have hI : ∀ c, P c ∧ c.uploadCtx = none → P c := fun _ hc => hc.1
    refine Meets.bind (create_meets (usable (List.nil_subset _)) fun _ h => ⟨rfl, h.mono hI⟩) fun pool => ?_
    refine Meets.bind (cleaned [(pool, .commandPool)] (call_meets (usable ?_) fun _ h => ⟨rfl, h.mono hI⟩))
      fun _ => ?_
    · exact List.cons_subset.2 ⟨List.mem_cons_self, List.nil_subset _⟩
    refine Meets.bind (cleaned [(pool, .commandPool)] (create_meets (usable (List.nil_subset _))
      fun _ h => ⟨rfl, h.mono hI⟩)) fun fence => ?_
    refine Meets.bind (onRest_gives [(fence, VkObject.fence), (pool, .commandPool)] fun c hc => ?_)
      fun _ => .pure fun _ h => h
    refine ⟨⟨hP c _ hc.1, uploads_of_eq rfl⟩, ?_⟩
    have huploads : c.uploads = [] := by
      unfold Caches.uploads
      rw [hc.2]
      rfl
    show ([(fence, VkObject.fence), (pool, .commandPool)] ++ besides others c).Perm (others ++ (c.built ++
      (c.setLayouts ++ (c.scratches ++ (c.imports ++ (c.textures ++ (c.meshes ++
        [(fence, VkObject.fence), (pool, .commandPool)])))))))
    rw [← Multiset.coe_eq_coe]
    simp only [besides, Caches.resident, huploads, ← Multiset.coe_add, Multiset.coe_nil]
    abel

/-- Whether or not they are submitted, the textures are still pending. -/
private theorem recordAndSubmitUploads_meets (pending : List PendingTexUpload)
    (hP : ∀ c u, P c → P { c with uploadCtx := u }) :
    Meets (Holds kindOf P (besides others) (pendingObjects pending ++ loose) reg) (recordAndSubmitUploads d pending)
      (fun _ => Holds kindOf P (besides others) (pendingObjects pending ++ loose) reg)
      (Early kindOf P (besides others) (pendingObjects pending ++ loose) reg) := by
  refine Meets.bind (ensureUploadCtx_meets hP) fun u => ?_
  have hI : ∀ c, P c ∧ u.objects ⊆ c.uploads → P c := fun _ hc => hc.1
  have huploads : ∀ us ⊆ u.objects, ∀ c, P c ∧ u.objects ⊆ c.uploads →
      us ⊆ pendingObjects pending ++ loose ++ objects kindOf reg ++ besides others c :=
    fun us hus c hc v hv => List.mem_append_right _ (uploads_subset (hc.2 (hus hv)))
  have hpool : [(u.pool, VkObject.commandPool)] ⊆ u.objects := by simp [UploadCtx.objects]
  have hfence : [(u.fence, VkObject.fence)] ⊆ u.objects := by simp [UploadCtx.objects]
  refine Meets.bind (call_meets (huploads _ hpool) fun _ h => ⟨rfl, h.mono hI⟩) fun _ => ?_
  refine Meets.bind (call_meets (huploads _ hpool) fun _ h => ⟨rfl, h.mono hI⟩) fun _ => ?_
  refine Meets.bind (call_meets (fun c hc => ?_) fun _ h => ⟨rfl, h.mono hI⟩) fun _ => ?_
  · refine List.cons_subset.2 ⟨huploads _ hpool c hc List.mem_cons_self, fun v hv => ?_⟩
    obtain ⟨p, hp, hv⟩ := List.mem_flatMap.1 hv
    have hmem : v ∈ pendingObjects pending := by
      refine List.mem_flatMap.2 ⟨p, hp, ?_⟩
      simp only [List.mem_cons, List.not_mem_nil, or_false] at hv
      rcases hv with rfl | rfl <;> simp [TextureGpu.objects, TextureGpu.sampled, TextureGpu.staged]
    exact List.mem_append_left _ (List.mem_append_left _ (List.mem_append_left _ hmem))
  refine Meets.bind (call_meets (huploads _ hfence) fun _ h => ⟨rfl, h.mono hI⟩) fun _ => ?_
  refine Meets.bind (call_meets (huploads _ (by simp [UploadCtx.objects])) fun _ h => ⟨rfl, h.mono hI⟩) fun _ => ?_
  exact (call_meets (huploads _ hfence) fun _ h => ⟨rfl, h.mono hI⟩).post fun _ _ h => h.mono hI

/-! #### Textures that are lost -/

/-- The kinds of the objects of a texture. -/
def textureKinds : List VkObject := [.sampler, .imageView, .image, .deviceMemory]

/-- The kinds of what is lost when textures with these keys are put into the cache where none has one of them but
`seen`: a texture replaces the one before it that has its key. -/
def lostKinds (seen : List UInt64) : List UInt64 → List VkObject
  | [] => []
  | k :: ks => lostKinds (k :: seen) ks ++ if k ∈ seen then textureKinds else []

/-- The texture that another one replaces. -/
private theorem insert_replaces (m : TexMap) (k : UInt64) (r : ResidentTexture) :
    ∃ lost, lost.map Prod.snd = (if k ∈ m then textureKinds else []) ∧
      (r.objects ++ m.objects).Perm (lost ++ TexMap.objects (m.insert k r)) ∧
      (m.insert k r).entries.length ≤ m.entries.length + 1 := by
  unfold TexMap.objects
  by_cases hk : k ∈ m
  · obtain ⟨old, l₁, l₂, -, hentries, herase⟩ := List.exists_of_kerase (AList.mem_keys.1 hk)
    refine ⟨old.objects, by rw [if_pos hk]; rfl, ?_, ?_⟩
    · rw [AList.entries_insert, herase, hentries, ← Multiset.coe_eq_coe]
      simp only [List.flatMap_append, List.flatMap_cons, ← Multiset.coe_add]
      abel
    · rw [AList.entries_insert, herase, hentries]
      simp only [List.length_cons, List.length_append]
      omega
  · rw [AList.entries_insert_of_notMem hk, if_neg hk]
    exact ⟨[], rfl, List.Perm.refl _, Nat.le_refl _⟩

/-- The textures of the cache when the pending ones are in it. -/
def committed (m : TexMap) (pending : List PendingTexUpload) : TexMap :=
  pending.foldl (fun m p => m.insert p.key p.resident) m

/-- The pending textures go into the cache, and what they replace is lost. -/
private theorem commitUploads_meets {R : VkCall → Scope S VkObject Caches → Prop} (hP : Unread P)
    (hpool : (pool, .descriptorPool) ∈ objects kindOf reg) (pending : List PendingTexUpload) (seen : List UInt64)
    (m : TexMap) (set lost : List (Nat × VkObject)) (hseen : ∀ p ∈ pending, p.key ∈ m ↔ p.key ∈ seen) :
    Meets (Holds kindOf (fun c => Caching m P c ∧ set ⊆ lost ++ c.textures) (besides others)
        (pendingObjects pending ++ (lost ++ loose)) reg)
      (commitUploads pool pending set)
      (fun set s => ∃ lost', lost'.map Prod.snd = lostKinds seen (pending.map (·.key)) ++ lost.map Prod.snd ∧
        ∃ m', m'.entries.length ≤ m.entries.length + pending.length ∧
          Holds kindOf (fun c => Caching m' P c ∧ set ⊆ lost' ++ c.textures) (besides others) (lost' ++ loose) reg s)
      R := by
  induction pending generalizing seen m set lost with
  | nil => exact .pure fun s h => ⟨lost, rfl, m, Nat.le_refl _, h⟩
  | cons p pending ih =>
    obtain ⟨replaced, hkinds, hperm, hlength⟩ := insert_replaces m p.key p.resident
    refine Meets.bind (Q := fun _ => Holds kindOf (fun c => Caching m P c ∧ set ⊆ lost ++ c.textures) (besides others)
      (p.sampled ++ (pendingObjects pending ++ (lost ++ loose))) reg) (Meets.pre destroyAll_meets fun s h =>
        h.perm ?_) fun _ => ?_
    · show (p.sampled ++ p.staged ++ pendingObjects pending ++ (lost ++ loose)).Perm _
      rw [← Multiset.coe_eq_coe]
      simp only [← Multiset.coe_add]
      abel
    refine Meets.bind (onRest_trades (fun c => Caching (m.insert p.key p.resident) P c ∧
      set ++ p.bound ⊆ replaced ++ lost ++ c.textures) p.sampled replaced fun c hc => ?_) fun _ => ?_
    · obtain ⟨⟨hPc, hmap⟩, hset⟩ := hc
      have hbefore : c.textures = m.objects := congrArg TexMap.objects hmap
      have hcommit : (c.texCache.commit p).map = m.insert p.key p.resident := by
        unfold TexCache.commit
        rw [hmap]
      have hafter : ({ c with texCache := c.texCache.commit p } : Caches).textures =
          TexMap.objects (m.insert p.key p.resident) := congrArg TexMap.objects hcommit
      have hin : lost ++ (p.resident.objects ++ m.objects) ⊆
          replaced ++ lost ++ TexMap.objects (m.insert p.key p.resident) := by
        intro v hv
        rw [List.mem_append, hperm.mem_iff] at hv
        simp only [List.mem_append] at hv ⊢
        exact hv.elim (fun h => .inl (.inr h)) fun h => h.imp_left .inl
      refine ⟨⟨⟨hP.textures c _ hPc, hcommit⟩, ?_⟩, ?_⟩
      · rw [hbefore] at hset
        rw [hafter]
        refine List.append_subset.2 ⟨fun v hv => hin ?_, fun v hv => hin ?_⟩
        · exact (List.mem_append.1 (hset hv)).elim (List.mem_append_left _) fun h =>
            List.mem_append_right _ (List.mem_append_right _ h)
        · refine List.mem_append_right _ (List.mem_append_left _ ?_)
          simp only [TextureGpu.bound, List.mem_cons, List.not_mem_nil, or_false] at hv
          rcases hv with rfl | rfl <;> simp [ResidentTexture.objects, PendingTexUpload.resident]
      · calc (p.resident.objects ++ besides others c).Perm
              (p.resident.objects ++ (c.textures ++ besideTextures others c)) :=
            (besides_textures others c).append_left _
          _ = p.resident.objects ++ m.objects ++ besideTextures others c := by
            rw [hbefore, List.append_assoc]
          List.Perm _ (replaced ++ TexMap.objects (m.insert p.key p.resident) ++ besideTextures others c) :=
            hperm.append_right _
          List.Perm _ (replaced ++ besides others { c with texCache := c.texCache.commit p }) := by
            rw [← hafter, List.append_assoc]
            exact (besides_textures others { c with texCache := c.texCache.commit p }).symm.append_left _
    refine Meets.bind (touch_meets fun c hc => ?_) fun _ => ?_
    · have hset := (List.append_subset.1 hc.2).2
      have hview := hset (List.mem_cons_self : (p.view, VkObject.imageView) ∈ p.bound)
      have hsampler := hset (List.mem_cons_of_mem _ List.mem_cons_self : (p.sampler, VkObject.sampler) ∈ p.bound)
      have hown : ∀ v ∈ replaced ++ lost ++ c.textures, v ∈ replaced ++ (pendingObjects pending ++ (lost ++ loose)) ++
          objects kindOf reg ++ besides others c := by
        intro v hv
        simp only [besides, Caches.resident, List.mem_append] at hv ⊢
        tauto
      exact List.cons_subset.2 ⟨List.mem_append_left _ (List.mem_append_right _ hpool),
        List.cons_subset.2 ⟨hown _ hview, List.cons_subset.2 ⟨hown _ hsampler, List.nil_subset _⟩⟩⟩
    have hkey : p.key ∈ m ↔ p.key ∈ seen := hseen p List.mem_cons_self
    have hlater : ∀ q ∈ pending, q.key ∈ m.insert p.key p.resident ↔ q.key ∈ p.key :: seen := fun q hq => by
      rw [AList.mem_insert, List.mem_cons, hseen q (List.mem_cons_of_mem p hq)]
    refine Meets.post (Meets.pre (ih (p.key :: seen) (m.insert p.key p.resident) (set ++ p.bound) (replaced ++ lost)
      hlater) fun s h => h.perm ?_) fun set s h => ?_
    · rw [List.append_assoc]
      exact List.perm_append_comm_assoc _ _ _
    · obtain ⟨lost', hlost, m', hm', hs⟩ := h
      refine ⟨lost', ?_, m', ?_, hs⟩
      · have hif : (if p.key ∈ m then textureKinds else []) = if p.key ∈ seen then textureKinds else [] :=
          if_congr hkey rfl rfl
        rw [hlost, List.map_append, hkinds, hif, ← List.append_assoc]
        rfl
      · rw [List.length_cons]
        omega

/-- The cache had the textures of `m` and has those of `m'` with `ts`, and these objects are lost. -/
structure Commits (m m' : TexMap) (ts : List OwnedTexture) (lost : List (Nat × VkObject)) : Prop where
  kinds : lost.map Prod.snd = lostKinds [] (missing m ts)
  length : m'.entries.length ≤ m.entries.length + ts.length

private theorem commits_nil (m : TexMap) : Commits m m [] [] := ⟨rfl, Nat.le_refl _⟩

/-- All textures of a frame go into the set, or none of the new ones is left. -/
private theorem resolveFrameTextures_meets (hP : Unread P) (hpool : (pool, .descriptorPool) ∈ objects kindOf reg)
    (ts : List OwnedTexture) :
    Meets (Holds kindOf (Caching m P) (besides others) loose reg) (resolveFrameTextures d pool ts)
      (fun set s => ∃ lost m', Commits m m' ts lost ∧
        Holds kindOf (fun c => Caching m' P c ∧ set ⊆ lost ++ c.textures) (besides others) (lost ++ loose) reg s)
      (Early kindOf (Caching m P) (besides others) loose reg) := by
  refine Meets.bind (Meets.pre (stageTextures_meets hP hpool ts 0 [] []) fun s h =>
    h.mono fun c hc => ⟨hc, List.nil_subset _⟩) fun staged => Meets.and fun hkeys => ?_
  obtain ⟨pending, set⟩ := staged
  simp only [List.map_nil, List.nil_append] at hkeys
  cases pending with
  | nil => exact .pure fun s h => ⟨[], m, ⟨by rw [← hkeys]; rfl, Nat.le_add_right _ _⟩, h⟩
  | cons p pending =>
    have hlength : (p :: pending).length ≤ ts.length := by
      rw [← List.length_map (·.key), hkeys]
      exact (List.length_filter_le _ _).trans (List.length_map _).le
    have hseen : ∀ q ∈ p :: pending, q.key ∈ m ↔ q.key ∈ [] := by
      intro q hq
      have hmem := List.mem_map_of_mem (f := (·.key)) hq
      rw [hkeys] at hmem
      have hnone := Option.isNone_iff_eq_none.1 (List.mem_filter.1 hmem).2
      exact iff_of_false (AList.lookup_eq_none.1 hnone) List.not_mem_nil
    refine Meets.bind (cleaned _ (Meets.failed (recordAndSubmitUploads_meets (p :: pending) fun c u hc =>
      ⟨⟨hP.uploads c u hc.1.1, hc.1.2⟩, hc.2⟩) fun e s h => ⟨h.1, h.2.mono fun c hc => hc.1⟩)) fun _ => ?_
    refine Meets.post (Meets.pre (commitUploads_meets hP hpool (p :: pending) [] m set [] hseen) fun s h => h)
      fun set s h => ?_
    obtain ⟨lost, hlost, m', hm', hs⟩ := h
    rw [hkeys, List.map_nil, List.append_nil] at hlost
    exact ⟨lost, m', ⟨hlost, by omega⟩, hs⟩

/-- The textures that go into the cache. -/
def keptTextures (resourceCache : Bool) (ts : List OwnedTexture) : List OwnedTexture :=
  if resourceCache then ts else []

end

/-! ### Descriptors -/

section

variable {n : Nat} {I P : Caches → Prop} {l : Caches → List (Nat × VkObject)} {others loose : List (Nat × VkObject)}
  {reg : List (DescriptorSlot n × Nat)} {d : Driver} {pool : Nat} {m : TexMap}

private theorem frameTextures_meets (resourceCache : Bool) (hP : Unread P)
    (hpool : (pool, .descriptorPool) ∈ objects DescriptorSlot.kind reg) (ts : List OwnedTexture) :
    Meets (Holds DescriptorSlot.kind (Caching m P) (besides others) [] reg) (frameTextures d resourceCache pool ts)
      (fun r s => ∃ lost m', Commits m m' (keptTextures resourceCache ts) lost ∧
        Holds DescriptorSlot.kind (fun c => Caching m' P c ∧
            r.2 ⊆ r.1.flatMap TextureGpu.objects ++ lost ++ c.textures)
          (besides others) (r.1.flatMap TextureGpu.objects ++ lost) reg s)
      (Early DescriptorSlot.kind (Caching m P) (besides others) [] reg) := by
  cases resourceCache with
  | true =>
    refine Meets.bind (resolveFrameTextures_meets hP hpool ts) fun set => .pure fun s h => ?_
    obtain ⟨lost, m', hcommits, hs⟩ := h
    rw [List.append_nil] at hs
    exact ⟨lost, m', hcommits, hs⟩
  | false =>
    refine Meets.bind (Meets.pre (uploadTextures_meets hpool ts 0 []) fun s h => h) fun tex => .pure fun s h => ?_
    refine ⟨[], m, commits_nil m, h.mono fun c hc => ⟨hc, fun v hv => ?_⟩⟩
    obtain ⟨t, ht, hv⟩ := List.mem_flatMap.1 hv
    refine List.mem_append_left _ (List.mem_append_left _ (List.mem_flatMap.2 ⟨t, ht, ?_⟩))
    simp only [TextureGpu.bound, List.mem_cons, List.not_mem_nil, or_false] at hv
    rcases hv with rfl | rfl <;> simp [TextureGpu.objects, TextureGpu.sampled]

private theorem blockBuffer_fails (t : Target) {buffer mem : DescriptorSlot n} (hbuffer : buffer ∉ reg.map Prod.fst)
    (hmem : mem ∉ reg.map Prod.fst) (hne : mem ≠ buffer)
    (hpool : (pool, .descriptorPool) ∈ objects DescriptorSlot.kind reg) :
    Meets (Holds DescriptorSlot.kind I l [] reg) (blockBuffer d pool t buffer mem)
      (fun b => Holds DescriptorSlot.kind I l [] ((mem, b.mem) :: (buffer, b.buffer) :: reg))
      (Fails DescriptorSlot.kind I l Clean) := by
  have hI : ∀ c, I c → I c := fun _ h => h
  refine Meets.bind (backed_fails hbuffer hmem hne hI ⟨rfl, rfl⟩ ⟨rfl, rfl⟩ ⟨rfl, rfl⟩ ⟨rfl, rfl⟩) fun b => ?_
  obtain ⟨b, m⟩ := b
  refine Meets.bind (call_fails (by simp [objects]) hI ⟨rfl, rfl⟩) fun _ => ?_
  refine Meets.bind (touch_meets (usable ?_)) fun _ => .pure fun _ h => h
  refine List.cons_subset.2 ⟨List.mem_cons_of_mem _ (List.mem_cons_of_mem _ hpool), ?_⟩
  simp [objects]

/-- The buffers are in the slots of their blocks. -/
private theorem uniformBuffers_fails (is : List (Fin n)) (his : is.Nodup)
    (hfree : ∀ i ∈ is, DescriptorSlot.uniform i ∉ reg.map Prod.fst ∧ DescriptorSlot.uniformMem i ∉ reg.map Prod.fst)
    (hpool : (pool, .descriptorPool) ∈ objects DescriptorSlot.kind reg) :
    Meets (Holds DescriptorSlot.kind I l [] reg) (uniformBuffers d pool is)
      (fun ubos s => ∃ regs, (objects DescriptorSlot.kind regs).Perm (ubos.flatMap BlockGpu.objects) ∧
        regs.map Prod.fst ⊆ is.map DescriptorSlot.uniform ++ is.map DescriptorSlot.uniformMem ∧
        Holds DescriptorSlot.kind I l [] (regs ++ reg) s)
      (Fails DescriptorSlot.kind I l Clean) := by
  induction is generalizing reg with
  | nil => exact .pure fun s h => ⟨[], List.Perm.refl _, List.nil_subset _, h⟩
  | cons i is ih =>
    obtain ⟨hi, his⟩ := List.nodup_cons.1 his
    obtain ⟨hbuffer, hmem⟩ := hfree i List.mem_cons_self
    refine Meets.bind (blockBuffer_fails (.uniform i) hbuffer hmem (by simp) hpool) fun ubo => ?_
    refine Meets.bind (ih his (fun j hj => ?_) ?_) fun ubos => .pure fun s h => ?_
    · obtain ⟨hbuffer', hmem'⟩ := hfree j (List.mem_cons_of_mem i hj)
      have hne : j ≠ i := fun heq => hi (heq ▸ hj)
      simp only [List.map_cons, List.mem_cons, not_or]
      exact ⟨⟨by simp, fun heq => hne (DescriptorSlot.uniform.inj heq), hbuffer'⟩,
        fun heq => hne (DescriptorSlot.uniformMem.inj heq), by simp, hmem'⟩
    · exact List.mem_cons_of_mem _ (List.mem_cons_of_mem _ hpool)
    · obtain ⟨regs, hperm, hslots, hs⟩ := h
      refine ⟨regs ++ [(.uniformMem i, ubo.mem), (.uniform i, ubo.buffer)], ?_, ?_, ?_⟩
      · have hubos := Multiset.coe_eq_coe.2 hperm
        rw [← Multiset.coe_eq_coe]
        simp only [objects, BlockGpu.objects, DescriptorSlot.kind, List.map_append, List.map_cons, List.map_nil,
          List.flatMap_cons, ← Multiset.coe_add, ← Multiset.cons_coe, ← Multiset.singleton_add] at hubos ⊢
        rw [hubos]
        abel
      · rw [List.map_append]
        refine List.append_subset.2 ⟨fun slot hslot => ?_, by simp⟩
        have hmem := hslots hslot
        simp only [List.map_cons, List.mem_append, List.mem_cons] at hmem ⊢
        exact hmem.imp .inr .inr
      · rw [List.append_assoc]
        exact hs

/-- The slots of a storage buffer. -/
def storageRegs : Option BlockGpu → List (DescriptorSlot n × Nat)
  | some b => [(.storageMem, b.mem), (.storage, b.buffer)]
  | none => []

private theorem storage_fails (b : Bool) (hbuffer : DescriptorSlot.storage ∉ reg.map Prod.fst)
    (hmem : DescriptorSlot.storageMem ∉ reg.map Prod.fst)
    (hpool : (pool, .descriptorPool) ∈ objects DescriptorSlot.kind reg) :
    Meets (Holds DescriptorSlot.kind I l [] reg)
      (if b then some <$> blockBuffer d pool .storage .storage .storageMem else pure none)
      (fun ssbo => Holds DescriptorSlot.kind I l [] (storageRegs ssbo ++ reg))
      (Fails DescriptorSlot.kind I l Clean) := by
  cases b with
  | true => exact Meets.bind (blockBuffer_fails .storage hbuffer hmem (by simp) hpool) fun b => .pure fun _ h => h
  | false => exact .pure fun _ h => h

private theorem storage_objects (ssbo : Option BlockGpu) :
    (objects DescriptorSlot.kind (storageRegs ssbo : List (DescriptorSlot n × Nat))).Perm
      (ssbo.toList.flatMap BlockGpu.objects) := by
  cases ssbo with
  | none => exact List.Perm.refl _
  | some b => exact List.Perm.swap _ _ _

/-- But for the textures of its set a frame refers to what it has for itself. -/
private theorem used_subset (f : FrameDescriptors) (rest : List (Nat × VkObject)) (h : f.set ⊆ f.objects ++ rest) :
    f.used ⊆ f.objects ++ rest := by
  intro v hv
  simp only [FrameDescriptors.used, List.mem_append, List.mem_flatMap, List.mem_cons, List.mem_map] at hv
  rcases hv with (⟨t, ht, hv⟩ | rfl | ⟨b, hb, rfl⟩) | hv
  · refine List.mem_append_left _ (List.mem_append_right _ (List.mem_flatMap.2 ⟨t, ht, ?_⟩))
    rcases hv with rfl | rfl | hv
    · simp [TextureGpu.objects, TextureGpu.staged]
    · simp [TextureGpu.objects, TextureGpu.sampled]
    · cases hv
  · exact List.mem_cons_self
  · refine List.mem_append_left _ (List.mem_append_left _ ?_)
    simp only [List.mem_append, List.mem_cons, List.mem_flatMap]
    exact hb.imp (fun hb => .inr ⟨b, hb, List.mem_cons_self⟩) fun hb => ⟨b, hb, List.mem_cons_self⟩
  · exact h hv

/-- What a frame has of its descriptors: their set refers to what is live. -/
structure Described (m : TexMap) (ts : List OwnedTexture) (f : FrameDescriptors) (made : List (Nat × VkObject))
    (c : Caches) : Prop where
  commits : ∃ lost, Commits m c.texCache.map ts lost ∧ made.Perm (f.objects ++ lost)
  used : f.used ⊆ made ++ c.textures

private theorem descriptorsBody_builds (resourceCache : Bool) {setLayout : Nat} (g : OwnedGeometry) (hP : Unread P)
    (hsl : ∀ c, P c → (setLayout, .descriptorSetLayout) ∈ c.setLayouts) :
    Meets (Holds DescriptorSlot.kind (Caching m P) (besides others) [] [])
      (descriptorsBody d resourceCache setLayout g)
      (fun f => Ends DescriptorSlot.kind P (besides others) (Described m (keptTextures resourceCache g.textures) f))
      (fun e => Ends DescriptorSlot.kind (Caching m P) (besides others)
        fun made _ => made = [] ∧ e.late = false) := by
  have hI : ∀ c, Caching m P c → Caching m P c := fun _ h => h
  refine Meets.failed (R := Fails DescriptorSlot.kind (Caching m P) (besides others) Clean) ?_ fun _ _ h => h.clean
  refine Meets.bind (acquire_fails (usable (List.nil_subset _)) (by simp) hI ⟨rfl, rfl⟩) fun pool => ?_
  refine Meets.bind (call_fails (fun c hc => ?_) hI ⟨rfl, rfl⟩) fun _ => ?_
  · exact List.cons_subset.2 ⟨List.mem_append_left _ (List.mem_append_right _ List.mem_cons_self),
      List.cons_subset.2 ⟨List.mem_append_right _ (setLayouts_subset (hsl c hc.1)), List.nil_subset _⟩⟩
  refine Meets.bind (uniformBuffers_fails _ (List.nodup_finRange _) (by simp)
    (by simp [objects, DescriptorSlot.kind]))
    fun ubos => Meets.exists fun regs => Meets.and fun hregs => Meets.and fun hslots => ?_
  have hfree : ∀ slot : DescriptorSlot g.uniforms.length, (∀ i, slot ≠ .uniform i ∧ slot ≠ .uniformMem i) →
      slot ∉ regs.map Prod.fst := by
    intro slot hne hmem
    rcases List.mem_append.1 (hslots hmem) with h | h
    · obtain ⟨i, -, hi⟩ := List.mem_map.1 h
      exact (hne i).1 hi.symm
    · obtain ⟨i, -, hi⟩ := List.mem_map.1 h
      exact (hne i).2 hi.symm
  have hslot : ∀ slot : DescriptorSlot g.uniforms.length, slot ≠ .pool →
      (∀ i, slot ≠ .uniform i ∧ slot ≠ .uniformMem i) →
        slot ∉ (regs ++ [(DescriptorSlot.pool, pool)]).map Prod.fst := by
    intro slot hne hfree'
    rw [List.map_append, List.mem_append, not_or]
    exact ⟨hfree slot hfree', by simpa using hne⟩
  have hpool : (pool, VkObject.descriptorPool) ∈ objects DescriptorSlot.kind (regs ++ [(.pool, pool)]) := by
    simp [objects, DescriptorSlot.kind]
  refine Meets.bind (storage_fails g.storage.isSome (hslot .storage (by simp) (by simp))
    (hslot .storageMem (by simp) (by simp)) hpool) fun ssbo => ?_
  have hpool' : (pool, VkObject.descriptorPool) ∈
      objects DescriptorSlot.kind (storageRegs ssbo ++ (regs ++ [(.pool, pool)])) := by
    rw [objects_append]
    exact List.mem_append_right _ hpool
  refine Meets.bind (Meets.failed (frameTextures_meets resourceCache hP hpool' g.textures) fun e s h =>
    fails_of_holds h.2 hI ⟨rfl, h.1⟩) fun bound => ?_
  obtain ⟨tex, set⟩ := bound
  refine Meets.exists fun lost => Meets.exists fun m' => Meets.and fun hcommits => ?_
  refine Meets.bind disarm_meets fun _ => .pure fun s h => ?_
  have hperm : (tex.flatMap TextureGpu.objects ++ lost ++
      objects DescriptorSlot.kind (storageRegs ssbo ++ (regs ++ [(.pool, pool)]))).Perm
        (FrameDescriptors.objects { pool, ubos, ssbo, tex, set } ++ lost) := by
    have hubos := Multiset.coe_eq_coe.2 hregs
    have hssbo := Multiset.coe_eq_coe.2 (storage_objects (n := g.uniforms.length) ssbo)
    rw [objects_append, objects_append, ← Multiset.coe_eq_coe]
    simp only [FrameDescriptors.objects, ← Multiset.coe_add, hubos, hssbo, ← Multiset.cons_coe]
    simp only [objects, DescriptorSlot.kind, List.map_cons, List.map_nil, ← Multiset.cons_coe,
      ← Multiset.singleton_add]
    abel
  refine ⟨_, [], h.mono fun c hc => hc.1.1, ⟨lost, h.rest.1.2 ▸ hcommits, hperm⟩, fun v hv => ?_⟩
  have hused := used_subset { pool, ubos, ssbo, tex, set } (lost ++ s.rest.textures) (fun v hv => ?_) hv
  · rw [← List.append_assoc] at hused
    exact (hperm.symm.append_right _).subset hused
  · have hmem := h.rest.2 hv
    simp only [FrameDescriptors.objects, List.mem_append] at hmem ⊢
    tauto

/-- The objects of a descriptor set that a frame has. -/
def descriptorObjects (descs : Option FrameDescriptors) : List (Nat × VkObject) :=
  descs.toList.flatMap FrameDescriptors.objects

end

section

variable {S : Type} [DecidableEq S] {kindOf : S → VkObject} {P : Caches → Prop} {others loose : List (Nat × VkObject)}
  {reg : List (S × Nat)} {d : Driver} {m : TexMap}

private theorem buildFrameDescriptors_meets (resourceCache : Bool) {setLayout : Nat} (g : OwnedGeometry)
    (hP : Unread P) (hsl : ∀ c, P c → (setLayout, .descriptorSetLayout) ∈ c.setLayouts) :
    Meets (Holds kindOf (Caching m P) (besides others) loose reg)
      (buildFrameDescriptors d resourceCache g setLayout)
      (fun f s => ∃ lost m', (Commits m m' (keptTextures resourceCache g.textures) lost ∧
          g.textures.length ≤ MAX_TEXTURES) ∧
        Holds kindOf (fun c => Caching m' P c ∧ f.used ⊆ f.objects ++ lost ++ c.textures) (besides others)
          (f.objects ++ lost ++ loose) reg s)
      (Early kindOf (Caching m P) (besides others) loose reg) := by
  refine Meets.bind (Q := fun _ s => g.textures.length ≤ MAX_TEXTURES ∧
    Holds kindOf (Caching m P) (besides others) loose reg s) ?_ fun _ => Meets.and fun hlength => ?_
  · cases hbad : badDescriptors g with
    | true => exact throw_meets fun _ h => ⟨rfl, h⟩
    | false => exact .pure fun _ h => ⟨Nat.le_of_not_lt (of_decide_eq_false (Bool.or_eq_false_iff.1 hbad).2), h⟩
  have hbesides : (fun c => loose ++ objects kindOf reg ++ besides others c) =
      besides (loose ++ objects kindOf reg ++ others) := funext fun c => (List.append_assoc _ _ _).symm
  refine Meets.post (nested_meets (J := P) (Q := Described m (keptTextures resourceCache g.textures))
    DescriptorSlot.nodup_dropOrder DescriptorSlot.mem_dropOrder ?_ fun _ _ he h => ⟨he, h⟩) fun f s h => ?_
  · rw [hbesides]
    exact descriptorsBody_builds resourceCache g hP hsl
  · obtain ⟨made, ⟨⟨lost, hcommits, hmade⟩, hused⟩, hs⟩ := h
    refine ⟨lost, s.rest.texCache.map, ⟨hcommits, hlength⟩, ?_⟩
    have hs' := hs.perm (hmade.append_right _)
    exact { hs' with rest := ⟨⟨hs'.rest, rfl⟩, fun v hv => (hmade.append_right _).subset (hused hv)⟩ }

/-- The descriptor set of a draw, if it has one, and what its textures replace. -/
theorem descriptorsFor_meets (resourceCache : Bool) (draw : OwnedForwardedDraw) (hP : Unread P)
    (hset : AnySetLayouts P) :
    Meets (Holds kindOf (Caching m P) (besides others) loose reg) (descriptorsFor d resourceCache draw)
      (fun descs s => ∃ lost m', (Commits m m' (keptTextures resourceCache (describedTextures draw).2) lost ∧
          (describedTextures draw).2.length ≤ MAX_TEXTURES) ∧
        Holds kindOf (fun c => Caching m' P c ∧ descs.toList.flatMap FrameDescriptors.used ⊆
            descriptorObjects descs ++ lost ++ c.textures) (besides others)
          (descriptorObjects descs ++ lost ++ loose) reg s)
      (Early kindOf (Caching m P) (besides others) loose reg) := by
  have hnone : keptTextures resourceCache [] = [] := by
    unfold keptTextures
    exact ite_self _
  unfold descriptorsFor describedTextures
  cases descSigOf draw with
  | none =>
    refine .pure fun s h => ⟨[], m, ⟨?_, Nat.zero_le _⟩, h.mono fun c hc => ⟨hc, List.nil_subset _⟩⟩
    rw [hnone]
    exact commits_nil m
  | some sig =>
    cases draw.geometry with
    | none =>
      refine .pure fun s h => ⟨[], m, ⟨?_, Nat.zero_le _⟩, h.mono fun c hc => ⟨hc, List.nil_subset _⟩⟩
      rw [hnone]
      exact commits_nil m
    | some g =>
      refine Meets.bind (descSetLayout_meets sig (fun c sl hsl hc => ⟨hset c sl hsl hc.1, hc.2⟩)
        fun s h => ⟨rfl, h⟩) fun sl => ?_
      have hP' : Unread fun c => P c ∧ (sl, VkObject.descriptorSetLayout) ∈ c.setLayouts :=
        ⟨fun c t hc => ⟨hP.textures c t hc.1, hc.2⟩, fun c u hc => ⟨hP.uploads c u hc.1, hc.2⟩⟩
      refine Meets.bind (Meets.failed (Meets.pre (buildFrameDescriptors_meets resourceCache g hP' fun c hc => hc.2)
        fun s h => h.mono fun c hc => ⟨⟨hc.1.1, hc.2⟩, hc.1.2⟩) fun e s h =>
          ⟨h.1, h.2.mono fun c hc => ⟨hc.1.1, hc.2⟩⟩) fun f => .pure fun s h => ?_
      obtain ⟨lost, m', hcommits, hs⟩ := h
      refine ⟨lost, m', hcommits, ?_⟩
      have hobjects : descriptorObjects (some f) = f.objects := List.append_nil _
      have hused : (some f).toList.flatMap FrameDescriptors.used = f.used := List.append_nil _
      rw [hobjects, hused]
      exact hs.mono fun c hc => ⟨⟨hc.1.1.1, hc.1.2⟩, hc.2⟩

end

end Infinigpu.Vulkan
