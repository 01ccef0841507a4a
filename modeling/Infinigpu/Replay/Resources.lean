import Infinigpu.Replay.Textures

/-!
# The resource caches (`infinigpu-replay`, `get_or_upload_geometry` and the frames that bind from the caches)

Meshes and textures are uploaded once and bound again for every draw with the same key.  The keys are hashes of 64
bits, so content that differs may have one key, and then the draw is bound to what is resident: what is bound is what
the draw carries exactly if nothing else is resident under its keys (`resident_transparent_iff`), as it is in every
run whose content has distinct keys (`transparent_of_injective`).

A mesh stands for its vertex and its index buffer with their memory, which are made and destroyed together.
-/

namespace Infinigpu

def MAX_CACHED_GEOM : Nat := 256
def MAX_CACHED_GEOM_BYTES : Nat := 128 * 1024 * 1024

/-- The contents of the vertex buffer, and of the index buffer if there is one. -/
structure Mesh where
  vbo : List UInt8
  ibo : Option (List UInt8)
deriving DecidableEq, Repr

/-- What `upload_geometry` makes. -/
def meshOf (g : OwnedGeometry) : Mesh where
  vbo := g.vertexData
  ibo := if g.indexData.isEmpty then none else some g.indexData

structure ResidentGeometry where
  gpu : Nat
  bytes : Nat
deriving DecidableEq, Repr

structure GeomCache where
  map : AList fun _ : UInt64 => ResidentGeometry
  bytes : Nat
  hits : Nat
  misses : Nat

structure Meshes where
  buffers : Arena Mesh
  cache : GeomCache

/-- The draw of a frame, whether the buffers of a mesh can be made, whether all of a descriptor set but its textures
can be, the memory of its `i`-th texture if it can be allocated, and whether the upload of its textures succeeds. -/
structure DrawFrame where
  draw : OwnedForwardedDraw
  mesh : Bool
  descriptors : Bool
  alloc : Nat → Option Nat
  upload : Bool

/-- The geometry of a draw that has a vertex buffer. -/
def uploadedGeometry (draw : OwnedForwardedDraw) : Option OwnedGeometry :=
  draw.geometry.filter fun g => g.vertexStride ≠ 0 ∧ g.vertexData ≠ []

/-! ### Meshes -/

namespace Meshes

def new : Meshes where
  buffers := .new
  cache := { map := ∅, bytes := 0, hits := 0, misses := 0 }

def uploadGeometry (g : OwnedGeometry) (ok : Bool) (s : Meshes) : Option Nat × Meshes :=
  if ok then (some s.buffers.made, { s with buffers := s.buffers.alloc (meshOf g) }) else (none, s)

/-- The meshes that the cache owns. -/
def owned (map : AList fun _ : UInt64 => ResidentGeometry) : List Nat := map.entries.map (·.2.gpu)

/-- Makes room for a mesh of `bytes` bytes. -/
def evict (bytes : Nat) (s : Meshes) : Meshes :=
  if s.cache.map.entries.length ≥ MAX_CACHED_GEOM ∨ s.cache.bytes + bytes > MAX_CACHED_GEOM_BYTES then
    { buffers := s.buffers.freeAll (owned s.cache.map), cache := { s.cache with map := ∅, bytes := 0 } }
  else s

def getOrUploadGeometry (g : OwnedGeometry) (ok : Bool) (s : Meshes) : Option Nat × Meshes :=
  let key := geomKey g
  match s.cache.map.lookup key with
  | some r => (some r.gpu, { s with cache := { s.cache with hits := s.cache.hits + 1 } })
  | none =>
    match s.uploadGeometry g ok with
    | (none, s) => (none, s)
    | (some gpu, s) =>
      let bytes := g.vertexData.length + g.indexData.length
      let s := evict bytes { s with cache := { s.cache with misses := s.cache.misses + 1 } }
      (some gpu, { s with cache := { s.cache with
        map := s.cache.map.insert key { gpu, bytes }
        bytes := s.cache.bytes + bytes } })

/-- The mesh of a frame, if it gets one where it needs one. -/
def meshFor (enabled : Bool) (f : DrawFrame) (s : Meshes) : Option (Option Nat) × Meshes :=
  match uploadedGeometry f.draw with
  | none => (some none, s)
  | some g =>
    let (gpu, s) := if enabled then s.getOrUploadGeometry g f.mesh else s.uploadGeometry g f.mesh
    (gpu.map some, s)

/-- The mesh that is resident under the key of a geometry. -/
def resident (g : OwnedGeometry) (s : Meshes) : Option Mesh :=
  (s.cache.map.lookup (geomKey g)).bind fun r => s.buffers.live r.gpu

/-- The resident meshes were made from geometries of `G` with their keys. -/
def Good (G : Set OwnedGeometry) (s : Meshes) : Prop :=
  Arena.Backs ResidentGeometry.gpu (fun k m => ∃ g ∈ G, geomKey g = k ∧ meshOf g = m) s.cache.map s.buffers

variable {G : Set OwnedGeometry} {g : OwnedGeometry} {s s' : Meshes} {ok : Bool} {f : DrawFrame}

private theorem good_new : new.Good G := Arena.backs_empty

private theorem Good.lt_made (h : s.Good G) {n : Nat} (hn : n ∈ owned s.cache.map) : n < s.buffers.made := by
  obtain ⟨e, he, rfl⟩ := List.mem_map.1 hn
  obtain ⟨m, hm, -⟩ := h e.1 e.2 (AList.mem_lookup_iff.2 he)
  exact Arena.lt_made hm

/-- Only the meshes of the cache are destroyed. -/
private theorem Good.evict (h : s.Good G) (bytes : Nat) : (s.evict bytes).Good G ∧
    ∀ n, n ∉ owned s.cache.map → (s.evict bytes).buffers.live n = s.buffers.live n := by
  unfold Meshes.evict
  by_cases hcap : s.cache.map.entries.length ≥ MAX_CACHED_GEOM ∨ s.cache.bytes + bytes > MAX_CACHED_GEOM_BYTES
  · rw [if_pos hcap]
    exact ⟨Arena.backs_empty, fun n hn => Arena.live_freeAll_of_notMem hn⟩
  · rw [if_neg hcap]
    exact ⟨h, fun _ _ => rfl⟩

/-- What is handed out is the mesh that is resident, and a new one otherwise. -/
private theorem getOrUploadGeometry_spec (hg : g ∈ G) (ok : Bool) (h : s.Good G) :
    (s.getOrUploadGeometry g ok).2.Good G ∧
    ((s.getOrUploadGeometry g ok).1.isSome ↔ (s.resident g).isSome ∨ ok = true) ∧
    ∀ gpu, (s.getOrUploadGeometry g ok).1 = some gpu →
      (s.getOrUploadGeometry g ok).2.buffers.live gpu = some ((s.resident g).getD (meshOf g)) := by
  unfold getOrUploadGeometry resident
  simp only
  cases hr : s.cache.map.lookup (geomKey g) with
  | some r =>
    obtain ⟨m, hm, -⟩ := h _ r hr
    rw [Option.bind_some, hm]
    refine ⟨h, iff_of_true rfl (.inl rfl), fun gpu hgpu => ?_⟩
    cases hgpu
    exact hm
  | none =>
    rw [Option.bind_none]
    cases ok with
    | false => exact ⟨h, iff_of_false Bool.false_ne_true (by decide), fun gpu hgpu => by cases hgpu⟩
    | true =>
      -- the new mesh is made before the others may be destroyed
      have halloc : Good G { buffers := s.buffers.alloc (meshOf g)
                             cache := { s.cache with misses := s.cache.misses + 1 } } :=
        h.keeps ((Arena.Keeps.refl _).alloc _)
      have hnew : s.buffers.made ∉ owned s.cache.map := fun hmem => Nat.lt_irrefl _ (h.lt_made hmem)
      obtain ⟨hgood, hlive⟩ := halloc.evict (g.vertexData.length + g.indexData.length)
      have hmade := (hlive _ hnew).trans (Arena.live_alloc (meshOf g) s.buffers)
      refine ⟨hgood.insert hmade ⟨g, hg, rfl, rfl⟩, iff_of_true rfl (.inr rfl), fun gpu hgpu => ?_⟩
      cases hgpu
      exact hmade

/-- The geometry whose mesh a frame needs is bound to the resident mesh, and otherwise to a new one. -/
private theorem meshFor_spec (hG : ∀ g ∈ uploadedGeometry f.draw, g ∈ G) (h : s.Good G) :
    (s.meshFor true f).2.Good G ∧
    ((s.meshFor true f).1.isSome ↔ ∀ g ∈ uploadedGeometry f.draw, (s.resident g).isSome ∨ f.mesh = true) ∧
    ∀ geom, (s.meshFor true f).1 = some geom → geom.map (s.meshFor true f).2.buffers.live =
      (uploadedGeometry f.draw).map fun g => some ((s.resident g).getD (meshOf g)) := by
  unfold meshFor
  cases hg : uploadedGeometry f.draw with
  | none =>
    refine ⟨h, iff_of_true rfl fun g hg => absurd hg (Option.not_mem_none g), fun geom hgeom => ?_⟩
    cases hgeom
    rfl
  | some g =>
    obtain ⟨hgood, hsome, hlive⟩ := getOrUploadGeometry_spec (hG g hg) f.mesh h
    simp only [if_true, Option.isSome_map, Option.mem_some_iff, forall_eq']
    refine ⟨hgood, hsome, fun geom hgeom => ?_⟩
    obtain ⟨gpu, hgpu, rfl⟩ := Option.map_eq_some_iff.1 hgeom
    rw [Option.map_some, Option.map_some, hlive gpu hgpu]

/-- With the cache disabled it is bound to a new mesh. -/
private theorem meshFor_fresh {geom : Option Nat} (h : s.meshFor false f = (some geom, s')) :
    geom.map s'.buffers.live = (uploadedGeometry f.draw).map fun g => some (meshOf g) := by
  unfold meshFor at h
  cases hg : uploadedGeometry f.draw with
  | none =>
    rw [hg] at h
    cases h
    rfl
  | some g =>
    rw [hg] at h
    unfold uploadGeometry at h
    cases hm : f.mesh with
    | false =>
      rw [hm] at h
      cases h
    | true =>
      rw [hm] at h
      cases h
      exact congrArg some (Arena.live_alloc _ _)

end Meshes

/-! ### Textures -/

/-- The textures of a draw at their bindings, from the `i`-th on. -/
def bindings (texBase : UInt32) : Nat → List OwnedTexture → List (UInt32 × Option OwnedTexture)
  | _, [] => []
  | i, t :: ts => (texBase + 2 * UInt32.ofNat i, some t) :: bindings texBase (i + 1) ts

/-- What the images of a descriptor set hold. -/
def contents (images : Arena OwnedTexture) (set : List (UInt32 × Nat)) : List (UInt32 × Option OwnedTexture) :=
  set.map fun e => (e.1, images.live e.2)

theorem mem_bindings {base : UInt32} {ts : List OwnedTexture} {i : Nat} {e : UInt32 × Option OwnedTexture} :
    e ∈ bindings base i ts ↔ ∃ j t, ts[j]? = some t ∧ e = (base + 2 * UInt32.ofNat (i + j), some t) := by
  induction ts generalizing i with
  | nil =>
    refine iff_of_false List.not_mem_nil ?_
    rintro ⟨j, t, ht, -⟩
    cases ht
  | cons t ts ih =>
    unfold bindings
    rw [List.mem_cons, ih]
    constructor
    · rintro (rfl | ⟨j, t', ht', rfl⟩)
      · exact ⟨0, t, rfl, rfl⟩
      · exact ⟨j + 1, t', ht', by rw [show i + 1 + j = i + (j + 1) by omega]⟩
    · rintro ⟨j, t', ht', rfl⟩
      cases j with
      | zero =>
        cases ht'
        exact .inl rfl
      | succ j => exact .inr ⟨j, t', ht', by rw [show i + 1 + j = i + (j + 1) by omega]⟩

private theorem binding_injective {base : UInt32} {i j : Nat} (hi : i < MAX_TEXTURES) (hj : j < MAX_TEXTURES)
    (h : base + 2 * UInt32.ofNat i = base + 2 * UInt32.ofNat j) : i = j := by
  have key : ∀ i < 8, ∀ j < 8, 2 * UInt32.ofNat i = 2 * UInt32.ofNat j → i = j := by decide
  exact key i hi j hj ((UInt32.add_right_inj base).1 h)

/-- Different textures are bound differently. -/
private theorem bindings_eq_iff (base : UInt32) {ts : List OwnedTexture} (ts' : List OwnedTexture)
    (hlen : ts.length ≤ MAX_TEXTURES) (hlen' : ts'.length = ts.length) :
    {e | e ∈ bindings base 0 ts} = {e | e ∈ bindings base 0 ts'} ↔ ts = ts' := by
  refine ⟨fun h => List.ext_getElem? fun i => ?_, fun h => by rw [h]⟩
  cases ht : ts[i]? with
  | none =>
    have hi := List.getElem?_eq_none_iff.1 ht
    exact (List.getElem?_eq_none (by omega)).symm
  | some t =>
    have hmem : (base + 2 * UInt32.ofNat (0 + i), some t) ∈ {e | e ∈ bindings base 0 ts} :=
      mem_bindings.2 ⟨i, t, ht, rfl⟩
    rw [h] at hmem
    obtain ⟨j, t', ht', heq⟩ := mem_bindings.1 hmem
    have hi := (List.getElem?_eq_some_iff.1 ht).1
    have hj := (List.getElem?_eq_some_iff.1 ht').1
    obtain ⟨hbinding, hcontent⟩ := Prod.mk.inj heq
    rw [Nat.zero_add, Nat.zero_add] at hbinding
    rw [binding_injective (by omega) (by omega) hbinding, ht', hcontent]

namespace Textures

variable {T : Set OwnedTexture} {s : Textures} {f : TexFrame} {c : TexCache} {images : Arena OwnedTexture}
  {ps : List PendingTexUpload}

/-- The texture that is resident under the key of another. -/
def resident (t : OwnedTexture) (s : Textures) : Option OwnedTexture :=
  (s.trim.cache.map.lookup (texKey t)).bind fun r => s.trim.images.live r.image

/-- The resident images were made from textures of `T` with their keys. -/
def Backed (T : Set OwnedTexture) (s : Textures) : Prop :=
  Arena.Backs ResidentTexture.image (fun k t => t ∈ T ∧ texKey t = k) s.cache.map s.images

private theorem backed_new : new.Backed T := Arena.backs_empty

private theorem Backed.trim (h : s.Backed T) : s.trim.Backed T := by
  unfold Textures.trim
  by_cases hcap : s.cache.map.entries.length ≥ MAX_CACHED_TEX ∨ s.cache.bytes ≥ MAX_CACHED_TEX_BYTES
  · rw [if_pos hcap]
    exact Arena.backs_empty
  · rw [if_neg hcap]
    exact h

private theorem backs_foldl_commit
    (h : Arena.Backs ResidentTexture.image (fun k t => t ∈ T ∧ texKey t = k) c.map images)
    (hps : ∀ p ∈ ps, ∃ t ∈ T, p.key = texKey t ∧ images.live p.image = some t) :
    Arena.Backs ResidentTexture.image (fun k t => t ∈ T ∧ texKey t = k) (ps.foldl commit c).map images := by
  induction ps generalizing c with
  | nil => exact h
  | cons p ps ih =>
    obtain ⟨t, ht, hkey, hlive⟩ := hps p List.mem_cons_self
    have hinsert : Arena.Backs ResidentTexture.image (fun k t => t ∈ T ∧ texKey t = k) (commit c p).map images :=
      h.insert hlive ⟨ht, hkey.symm⟩
    exact ih hinsert fun q hq => hps q (List.mem_cons_of_mem p hq)

/-- A frame that commits is bound to the resident image of each texture, and otherwise to a new one. -/
private theorem frame_spec (hT : ∀ t ∈ f.textures, t ∈ T) (h : s.Backed T) : (s.frame f).Backed T ∧
    ((s.frame f).set.isSome ↔ s.Commits f) ∧ ∀ set, (s.frame f).set = some set →
      {e | e ∈ contents (s.frame f).images set} =
        {e | e ∈ bindings f.texBase 0 (f.textures.map fun t => (s.resident t).getD t)} := by
  have ht := h.trim
  rcases frame_cases f s with ⟨hc, r, hspec, hframe⟩ | ⟨hc, hset, hmap, -, hkeeps, -⟩
  · have huploads := hspec.uploads rfl
    have hbacked : (s.frame f).Backed T := by
      rw [hframe]
      refine backs_foldl_commit (ht.keeps hspec.keeps) fun p hp => ?_
      obtain ⟨j, t, hj, -, hkey, -, hlive, -⟩ := huploads p hp
      exact ⟨t, hT t (List.mem_of_getElem? hj), hkey, hlive⟩
    -- what the set holds is the resident image of a texture, or its upload
    have hholds : ∀ x ∈ r.set ++ r.pending.map (fun p => (p.binding, p.image)), ∃ j t, f.textures[j]? = some t ∧
        x.1 = f.texBase + 2 * UInt32.ofNat j ∧ r.images.live x.2 = some ((s.resident t).getD t) := by
      intro x hx
      rcases List.mem_append.1 hx with hx | hx
      · rcases hspec.set x hx with hold | ⟨j, t, res, hj, hb, hres, himage⟩
        · exact absurd hold List.not_mem_nil
        · obtain ⟨t', hlive, -⟩ := ht _ res hres
          refine ⟨j, t, hj, by rw [hb, Nat.zero_add], ?_⟩
          unfold resident
          rw [hres, Option.bind_some, hlive, himage]
          exact hspec.keeps.live _ _ hlive
      · obtain ⟨p, hp, rfl⟩ := List.mem_map.1 hx
        obtain ⟨j, t, hj, hb, hkey, hfresh, hlive, -⟩ := huploads p hp
        refine ⟨j, t, hj, by rw [hb, Nat.zero_add], ?_⟩
        unfold resident
        rw [← hkey, hfresh]
        exact hlive
    have hbound : ∀ j t, f.textures[j]? = some t → ∃ x ∈ r.set ++ r.pending.map (fun p => (p.binding, p.image)),
        x.1 = f.texBase + 2 * UInt32.ofNat j := by
      intro j t hj
      have hbound := hspec.bound rfl j t hj
      rw [Nat.zero_add] at hbound
      rcases hbound with ⟨x, hx, hb⟩ | ⟨p, hp, hb⟩
      · exact ⟨x, List.mem_append_left _ hx, hb⟩
      · exact ⟨_, List.mem_append_right _ (List.mem_map.2 ⟨p, hp, rfl⟩), hb⟩
    refine ⟨hbacked, iff_of_true (by rw [hframe]; rfl) hc, fun set hset => Set.ext fun e => ?_⟩
    rw [hframe] at hset ⊢
    cases hset
    constructor
    · intro he
      obtain ⟨x, hx, rfl⟩ := List.mem_map.1 he
      obtain ⟨j, t, hj, hb, hlive⟩ := hholds x hx
      refine mem_bindings.2 ⟨j, (s.resident t).getD t, ?_, by rw [hb, hlive, Nat.zero_add]⟩
      rw [List.getElem?_map, hj]
      rfl
    · intro he
      obtain ⟨j, u, hj, rfl⟩ := mem_bindings.1 he
      rw [List.getElem?_map, Option.map_eq_some_iff] at hj
      obtain ⟨t, hj, rfl⟩ := hj
      obtain ⟨x, hx, hb⟩ := hbound j t hj
      obtain ⟨j', t', hj', hb', hlive⟩ := hholds x hx
      -- the binding belongs to this texture only
      have hlt := (List.getElem?_eq_some_iff.1 hj).1
      have hlt' := (List.getElem?_eq_some_iff.1 hj').1
      have hlen := hc.2.1
      have hjj : j = j' := binding_injective (by omega) (by omega) (hb.symm.trans hb')
      subst hjj
      rw [hj, Option.some_inj] at hj'
      subst hj'
      refine List.mem_map.2 ⟨x, hx, ?_⟩
      rw [hb, hlive, Nat.zero_add]
  · refine ⟨?_, iff_of_false (by rw [hset]; exact Bool.false_ne_true) hc, fun set h => ?_⟩
    · unfold Backed
      rw [hmap]
      exact ht.keeps hkeeps
    · rw [hset] at h
      cases h

end Textures

/-! ### Frames -/

inductive VkIndexType where
  | uint16
  | uint32
deriving DecidableEq, Repr

/-- The buffers of a draw, the index buffer with the width of its indices. -/
structure BoundGeometry where
  vbo : List UInt8
  ibo : Option (List UInt8 × VkIndexType)
deriving DecidableEq, Repr

def Mesh.bind (indexU32 : Bool) (m : Mesh) : BoundGeometry where
  vbo := m.vbo
  ibo := m.ibo.map fun data => (data, if indexU32 then .uint32 else .uint16)

private theorem Mesh.bind_injective (indexU32 : Bool) : Function.Injective (Mesh.bind indexU32) := by
  intro m m' h
  obtain ⟨hvbo, hibo⟩ := BoundGeometry.mk.inj h
  exact congrArg₂ Mesh.mk hvbo (Option.map_injective (fun data data' hdata => (Prod.mk.inj hdata).1) hibo)

/-- What a draw is bound to: the buffers of its mesh, if it has one, and what the images hold at the bindings of its
textures.  What has been destroyed is `none`. -/
structure Bound where
  geometry : Option (Option BoundGeometry)
  textures : Set (UInt32 × Option OwnedTexture)

/-- The buffers that `record_forwarded_frame` binds for a command list. -/
def boundGeometry (draw : OwnedForwardedDraw) (mesh : Option (Option Mesh)) : Option (Option BoundGeometry) :=
  match mesh, draw.geometry with
  | some m, some g => if g.draws.isEmpty then none else some (m.map (·.bind g.indexU32))
  | _, _ => none

/-- The textures that go into the descriptor set of a draw, and the binding of the first one. -/
def describedTextures (draw : OwnedForwardedDraw) : UInt32 × List OwnedTexture :=
  match descSigOf draw, draw.geometry with
  | some _, some g => (g.texBinding, g.textures)
  | _, _ => (0, [])

/-- What the draw itself carries. -/
def carried (draw : OwnedForwardedDraw) : Bound where
  geometry := boundGeometry draw ((uploadedGeometry draw).map fun g => some (meshOf g))
  textures := {e | e ∈ bindings (describedTextures draw).1 0 (describedTextures draw).2}

/-- Only a draw with a command list is bound to its buffers. -/
private theorem boundGeometry_eq_iff (draw : OwnedForwardedDraw) (φ : OwnedGeometry → Mesh) :
    boundGeometry draw ((uploadedGeometry draw).map fun g => some (φ g)) =
        boundGeometry draw ((uploadedGeometry draw).map fun g => some (meshOf g)) ↔
      ∀ g ∈ uploadedGeometry draw, g.draws ≠ [] → φ g = meshOf g := by
  cases hg : uploadedGeometry draw with
  | none => exact iff_of_true rfl fun g hg => absurd hg (Option.not_mem_none g)
  | some g =>
    have hgeometry : draw.geometry = some g := (Option.filter_eq_some_iff.1 hg).1
    unfold boundGeometry
    simp only [Option.map_some, hgeometry, Option.mem_some_iff, forall_eq']
    by_cases hdraws : g.draws = []
    · rw [if_pos (by rw [hdraws]; rfl), if_pos (by rw [hdraws]; rfl)]
      exact iff_of_true rfl fun h => absurd hdraws h
    · rw [if_neg (by rwa [List.isEmpty_iff]), if_neg (by rwa [List.isEmpty_iff]), Option.some_inj, Option.some_inj,
        (Mesh.bind_injective g.indexU32).eq_iff]
      exact ⟨fun h _ => h, fun h => h hdraws⟩

/-- The checks of `build_frame_descriptors` before those of the textures. -/
def OwnedGeometry.blocksOk (g : OwnedGeometry) : Bool :=
  g.uniforms.all (fun u => u.bytes.length ≠ 0 ∧ u.bytes.length ≤ 65536) &&
    g.storage.all fun s => s.bytes.length ≠ 0 ∧ s.bytes.length ≤ MAX_SSBO_BYTES

namespace DrawFrame

/-- Whether all of the descriptor set but its textures is made, where there is one. -/
def described (f : DrawFrame) : Bool :=
  match descSigOf f.draw, f.draw.geometry with
  | some _, some g => g.blocksOk && f.descriptors
  | _, _ => true

/-- The part of the frame that concerns its textures. -/
def texFrame (mesh : Bool) (f : DrawFrame) : TexFrame where
  textures := (describedTextures f.draw).2
  texBase := (describedTextures f.draw).1
  reached := mesh && f.described
  alloc := f.alloc
  upload := f.upload

end DrawFrame

/-- The two caches, and the draw that was recorded last with what it was bound to; there is none after a frame that
fails. -/
structure Resources where
  meshes : Meshes
  textures : Textures
  bound : Option (OwnedForwardedDraw × Bound)

namespace Resources

variable {S : Set OwnedForwardedDraw} {s s' : Resources} {f : DrawFrame}

def new : Resources where
  meshes := .new
  textures := .new
  bound := none

def record (draw : OwnedForwardedDraw) (geom : Option Nat) (buffers : Arena Mesh) (images : Arena OwnedTexture)
    (set : List (UInt32 × Nat)) : OwnedForwardedDraw × Bound :=
  (draw, {
    geometry := boundGeometry draw (geom.map buffers.live)
    textures := {e | e ∈ contents images set} })

/-- A frame with the caches enabled. -/
def frame (f : DrawFrame) (s : Resources) : Resources :=
  let (geom, meshes) := s.meshes.meshFor true f
  let textures := s.textures.frame (f.texFrame geom.isSome)
  { meshes
    textures
    bound := geom.bind fun geom => textures.set.map fun set =>
      record f.draw geom meshes.buffers textures.images set }

/-- The loop over `upload_texture_into`, and whether it gets to its end. -/
def uploadEach (alloc : Nat → Option Nat) (upload : Bool) (texBase : UInt32) :
    Nat → List OwnedTexture → Arena OwnedTexture → List (UInt32 × Nat) →
      Bool × Arena OwnedTexture × List (UInt32 × Nat)
  | _, [], images, set => (true, images, set)
  | i, t :: ts, images, set =>
    if t.Bad ∨ (alloc i).isNone ∨ ¬ upload then
      (false, images, set)
    else
      uploadEach alloc upload texBase (i + 1) ts (images.alloc t)
        (set ++ [(texBase + 2 * UInt32.ofNat i, images.made)])

/-- A frame with the caches disabled: everything is made for the draw, and destroyed after it. -/
def frameFresh (f : DrawFrame) (s : Resources) : Resources :=
  match s.meshes.meshFor false f with
  | (none, meshes) => { s with meshes, bound := none }
  | (some geom, meshes) =>
    let freed := { meshes with buffers := meshes.buffers.freeAll geom.toList }
    let tf := f.texFrame true
    if tf.reached && tf.textures.length ≤ MAX_TEXTURES then
      let (ok, images, set) := uploadEach tf.alloc tf.upload tf.texBase 0 tf.textures s.textures.images []
      { meshes := freed
        textures := { s.textures with images := images.freeAll (set.map (·.2)) }
        bound := if ok then some (record f.draw geom meshes.buffers images set) else none }
    else
      { s with meshes := freed, bound := none }

/-- What was bound is what the draw carries. -/
def Transparent (s : Resources) : Prop := ∀ draw b, s.bound = some (draw, b) → b = carried draw

private theorem uploadEach_contents {alloc : Nat → Option Nat} {upload : Bool} {texBase : UInt32} {i : Nat}
    {ts : List OwnedTexture} {images images' : Arena OwnedTexture} {set set' : List (UInt32 × Nat)}
    (h : uploadEach alloc upload texBase i ts images set = (true, images', set')) :
    images.Keeps images' ∧ contents images' set' = contents images' set ++ bindings texBase i ts := by
  induction ts generalizing i images set with
  | nil =>
    cases h
    exact ⟨.refl _, (List.append_nil _).symm⟩
  | cons t ts ih =>
    unfold uploadEach at h
    by_cases hbad : t.Bad ∨ (alloc i).isNone ∨ ¬ upload
    · rw [if_pos hbad] at h
      cases h
    · rw [if_neg hbad] at h
      obtain ⟨hkeeps, hcontents⟩ := ih h
      refine ⟨((Arena.Keeps.refl _).alloc t).trans hkeeps, ?_⟩
      have hnew : contents images' [(texBase + 2 * UInt32.ofNat i, images.made)] =
          [(texBase + 2 * UInt32.ofNat i, some t)] := by
        unfold contents
        rw [List.map_singleton, hkeeps.live _ _ (Arena.live_alloc t images)]
      have happend : contents images' (set ++ [(texBase + 2 * UInt32.ofNat i, images.made)]) =
          contents images' set ++ [(texBase + 2 * UInt32.ofNat i, some t)] := by
        rw [← hnew]
        exact List.map_append
      rw [hcontents, happend, List.append_assoc]
      rfl

/-- With the caches disabled a frame binds its draw to what it carries. -/
theorem frameFresh_bound {draw : OwnedForwardedDraw} {b : Bound} (h : (s.frameFresh f).bound = some (draw, b)) :
    draw = f.draw ∧ b = carried draw := by
  unfold frameFresh at h
  cases hm : s.meshes.meshFor false f with
  | mk geom meshes =>
    cases geom with
    | none =>
      simp only [hm] at h
      cases h
    | some geom =>
      simp only [hm] at h
      cases hreached : (f.texFrame true).reached && decide ((f.texFrame true).textures.length ≤ MAX_TEXTURES) with
      | false =>
        simp only [hreached, Bool.false_eq_true, if_false] at h
        cases h
      | true =>
        cases hloop : uploadEach (f.texFrame true).alloc (f.texFrame true).upload (f.texFrame true).texBase 0
            (f.texFrame true).textures s.textures.images [] with
        | mk ok r =>
          cases ok with
          | false =>
            simp only [hreached, hloop, if_true, Bool.false_eq_true, if_false] at h
            cases h
          | true =>
            simp only [hreached, hloop, if_true] at h
            cases h
            refine ⟨rfl, ?_⟩
            unfold carried
            rw [Meshes.meshFor_fresh hm, (uploadEach_contents hloop).2]
            rfl

/-- With the caches disabled every draw is bound to what it carries. -/
theorem frameFresh_transparent (f : DrawFrame) (s : Resources) : (s.frameFresh f).Transparent :=
  fun _ _ h => (frameFresh_bound h).2

/-! ### Frames from the caches -/

/-- The frame gets to recording its draw. -/
def Binds (s : Resources) (f : DrawFrame) : Prop :=
  (∀ g ∈ uploadedGeometry f.draw, (s.meshes.resident g).isSome ∨ f.mesh = true) ∧ s.textures.Commits (f.texFrame true)

/-- If the frame gets to recording its draw, nothing else than what the draw is bound to is resident under its
keys. -/
def Fits (s : Resources) (f : DrawFrame) : Prop :=
  s.Binds f →
    (∀ g ∈ uploadedGeometry f.draw, g.draws ≠ [] → ∀ m ∈ s.meshes.resident g, m = meshOf g) ∧
      ∀ t ∈ (describedTextures f.draw).2, ∀ t' ∈ s.textures.resident t, t' = t

def geometriesOf (S : Set OwnedForwardedDraw) : Set OwnedGeometry := {g | ∃ draw ∈ S, g ∈ uploadedGeometry draw}

def texturesOf (S : Set OwnedForwardedDraw) : Set OwnedTexture := {t | ∃ draw ∈ S, t ∈ (describedTextures draw).2}

/-- What is resident comes from draws of `S`, under its own keys. -/
structure Good (S : Set OwnedForwardedDraw) (s : Resources) : Prop where
  meshes : s.meshes.Good (geometriesOf S)
  textures : s.textures.Backed (texturesOf S)

theorem good_new : new.Good S where
  meshes := Meshes.good_new
  textures := Textures.backed_new

/-- A frame that gets to recording its draw binds what is resident under its keys, and otherwise what it carries. -/
theorem frame_spec (hf : f.draw ∈ S) (h : s.Good S) : (s.frame f).Good S ∧
    (¬ s.Binds f ∧ (s.frame f).bound = none ∨ s.Binds f ∧ (s.frame f).bound = some (f.draw, {
      geometry := boundGeometry f.draw ((uploadedGeometry f.draw).map fun g =>
        some ((s.meshes.resident g).getD (meshOf g)))
      textures := {e | e ∈ bindings (describedTextures f.draw).1 0
        ((describedTextures f.draw).2.map fun t => (s.textures.resident t).getD t)} })) := by
  have hG : ∀ g ∈ uploadedGeometry f.draw, g ∈ geometriesOf S := fun g hg => ⟨f.draw, hf, hg⟩
  have hT : ∀ mesh, ∀ t ∈ (f.texFrame mesh).textures, t ∈ texturesOf S := fun _ t ht => ⟨f.draw, hf, ht⟩
  obtain ⟨hmeshes, hsome, hlive⟩ := Meshes.meshFor_spec hG h.meshes
  unfold frame Binds
  rw [← hsome]
  generalize s.meshes.meshFor true f = r at hmeshes hlive ⊢
  obtain ⟨geom, meshes⟩ := r
  simp only at hmeshes hlive ⊢
  cases geom with
  | none =>
    obtain ⟨hbacked, -, -⟩ := Textures.frame_spec (hT false) h.textures
    exact ⟨⟨hmeshes, hbacked⟩, .inl ⟨fun hb => Bool.false_ne_true hb.1, rfl⟩⟩
  | some geom =>
    obtain ⟨hbacked, hcommits, hset⟩ := Textures.frame_spec (hT true) h.textures
    refine ⟨⟨hmeshes, hbacked⟩, ?_⟩
    rw [Option.isSome_some, Option.bind_some]
    cases hs : (s.textures.frame (f.texFrame true)).set with
    | none =>
      refine .inl ⟨fun hb => ?_, rfl⟩
      have hsome := hcommits.2 hb.2
      rw [hs] at hsome
      cases hsome
    | some set =>
      refine .inr ⟨⟨rfl, hcommits.1 (by rw [hs]; rfl)⟩, ?_⟩
      unfold record
      rw [Option.map_some, hlive geom rfl, hset set hs]
      rfl

theorem getD_eq_iff {α : Type*} {o : Option α} {a : α} : o.getD a = a ↔ ∀ b ∈ o, b = a := by
  cases o with
  | none => exact iff_of_true rfl fun b hb => absurd hb (Option.not_mem_none b)
  | some b => simp only [Option.getD_some, Option.mem_some_iff, forall_eq']

private theorem frame_transparent_iff (hf : f.draw ∈ S) (h : s.Good S) : (s.frame f).Transparent ↔ s.Fits f := by
  rcases (frame_spec hf h).2 with ⟨hb, hbound⟩ | ⟨hb, hbound⟩
  · refine iff_of_true (fun draw b h => ?_) fun h => absurd h hb
    rw [hbound] at h
    cases h
  · have hlen : (describedTextures f.draw).2.length ≤ MAX_TEXTURES := hb.2.2.1
    -- the draw is bound to its own mesh and textures
    have hgeometry := boundGeometry_eq_iff f.draw fun g => (s.meshes.resident g).getD (meshOf g)
    have htextures := bindings_eq_iff (describedTextures f.draw).1
      ((describedTextures f.draw).2.map fun t => (s.textures.resident t).getD t) hlen (List.length_map _)
    have hmap : ((describedTextures f.draw).2 = (describedTextures f.draw).2.map fun t =>
        (s.textures.resident t).getD t) ↔ ∀ t ∈ (describedTextures f.draw).2, (s.textures.resident t).getD t = t := by
      conv_lhs => rw [← List.map_id' (describedTextures f.draw).2]
      rw [List.map_map, List.map_inj_left]
      exact ⟨fun h t ht => (h t ht).symm, fun h t ht => (h t ht).symm⟩
    have hfits : s.Fits f ↔ (∀ g ∈ uploadedGeometry f.draw, g.draws ≠ [] → (s.meshes.resident g).getD (meshOf g) =
        meshOf g) ∧ ∀ t ∈ (describedTextures f.draw).2, (s.textures.resident t).getD t = t := by
      unfold Fits
      rw [forall_prop_of_true hb]
      simp only [getD_eq_iff]
    rw [hfits, ← hgeometry, ← hmap, ← htextures]
    unfold Transparent
    rw [hbound]
    constructor
    · intro h
      have heq := h _ _ rfl
      exact ⟨congrArg Bound.geometry heq, (congrArg Bound.textures heq).symm⟩
    · rintro ⟨hg, ht⟩ draw b h
      cases h
      unfold carried
      rw [hg, ht]

def step (s : Resources) (f : DrawFrame) : Option Resources := some (s.frame f)

/-- All along a run of frames every draw is bound to what it carries exactly when no draw finds a mesh or a texture
resident under its keys that differs from its own. -/
theorem resident_transparent_iff (frames : List DrawFrame) :
    Lts.Always step Transparent new frames ↔ Lts.Along step Fits new frames := by
  refine Lts.always_iff_along_total (A := fun _ => True) (I := Good Set.univ) (fun _ _ => rfl) ?_ ?_ good_new
    (fun draw b h => by cases h) fun _ _ => trivial
  · intro s f s' _ h _ _ hs
    cases hs
    exact (frame_spec (Set.mem_univ _) h).1
  · intro s f s' _ h _ hs
    cases hs
    exact frame_transparent_iff (Set.mem_univ _) h

/-- Different content has different keys. -/
structure KeysInjective (S : Set OwnedForwardedDraw) : Prop where
  meshes : ∀ g ∈ geometriesOf S, ∀ g' ∈ geometriesOf S, geomKey g = geomKey g' → meshOf g = meshOf g'
  textures : Set.InjOn texKey (texturesOf S)

private theorem Good.fits (h : s.Good S) (hS : KeysInjective S) (hf : f.draw ∈ S) : s.Fits f := by
  refine fun _ => ⟨fun g hg _ m hm => ?_, fun t ht t' ht' => ?_⟩
  · obtain ⟨r, hr, hlive⟩ := Option.bind_eq_some_iff.1 hm
    obtain ⟨m', hm', g', hg', hkey, hmesh⟩ := h.meshes _ r hr
    rw [hm', Option.some_inj] at hlive
    rw [← hlive, ← hmesh]
    exact hS.meshes g' hg' g ⟨f.draw, hf, hg⟩ hkey
  · obtain ⟨r, hr, hlive⟩ := Option.bind_eq_some_iff.1 ht'
    obtain ⟨t'', ht'', hmem, hkey⟩ := h.textures.trim _ r hr
    rw [ht'', Option.some_inj] at hlive
    rw [← hlive]
    exact hS.textures hmem ⟨f.draw, hf, ht⟩ hkey

private theorem Good.along_fits (h : s.Good S) (hS : KeysInjective S) {frames : List DrawFrame}
    (hframes : ∀ f ∈ frames, f.draw ∈ S) : Lts.Along step Fits s frames := by
  induction frames generalizing s with
  | nil => exact trivial
  | cons f frames ih =>
    have hf := hframes f List.mem_cons_self
    refine ⟨h.fits hS hf, fun s' hs => ?_⟩
    cases hs
    exact ih (frame_spec hf h).1 fun f' hf' => hframes f' (List.mem_cons_of_mem f hf')

/-- A run whose content has no two equal keys is transparent. -/
theorem transparent_of_injective (hS : KeysInjective S) {frames : List DrawFrame}
    (hframes : ∀ f ∈ frames, f.draw ∈ S) :
    Lts.Always step Transparent new frames := by
  refine (good_new.along_fits hS hframes).always (A := fun f => f.draw ∈ S) (I := Good S) ?_ good_new
    (fun draw b h => by cases h) hframes
  intro s f s' hf h hfits hs
  cases hs
  exact ⟨(frame_spec hf h).1, (frame_transparent_iff hf h).2 hfits⟩

/-! ### Two meshes with one key -/

/-- A draw of one vertex of 16 bytes. -/
def vertexDraw (vertexData : List UInt8) : OwnedForwardedDraw where
  vertexSpirv := [SPIRV_MAGIC]
  fragmentSpirv := [SPIRV_MAGIC]
  vertexEntry := [109]
  fragmentEntry := [109]
  vertexCount := 0
  topology := 0
  geometry := some {
    vertexData
    vertexStride := 16
    attrs := []
    indexData := []
    indexU32 := false
    draws := [{ count := 1, instanceCount := 1, first := 0, vertexOffset := 0, viewport := ⟨0, 0, 0, 0⟩ }]
    depth := none
    pushConstants := []
    textures := []
    texBinding := 0
    uniforms := []
    storage := none
    rasterFlags := 0 }

def vertexFrame (vertexData : List UInt8) : DrawFrame where
  draw := vertexDraw vertexData
  mesh := true
  descriptors := true
  alloc _ := none
  upload := true

def zeroVertex : List UInt8 := List.replicate 16 0

/-- The difference in the second word cancels that of the first one after its round. -/
def collidingVertex : List UInt8 := [1, 0, 0, 0, 0, 0, 0, 0, 115, 2, 0, 0, 0, 1, 0, 0]

/-- The second draw is bound to the vertices of the first one. -/
theorem not_always_resident_transparent : ¬ ∀ frames, Lts.Always step Transparent new frames := by
  intro h
  obtain ⟨-, hrun⟩ := h [vertexFrame zeroVertex, vertexFrame collidingVertex]
  have hbound := congrArg Bound.geometry ((hrun _ rfl).2 _ rfl _ _ rfl)
  revert hbound
  decide +kernel

end Resources

end Infinigpu
