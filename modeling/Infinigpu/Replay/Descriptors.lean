import Infinigpu.Device.Hostile
import Mathlib.Data.List.Perm.Basic
import Mathlib.Data.List.Sort

/-!
# Descriptor sets (`infinigpu-replay`, `desc_sig_of`, `desc_set_layout` and `build_frame_descriptors`)

The layout of descriptor set 0 is built from the signature of a draw, the descriptors are written from the draw
itself. A draw that the decoder accepts gets the layout it is written with exactly if it has at most `MAX_UBOS`
uniform buffers, none of them empty, and no texture is wider or higher than 16384 (`layout_matches_iff`): the
signature keeps only the first `MAX_UBOS` bindings, and the decoder lets more through.

Creating the objects of the GPU is taken to succeed; what is left are the refusals of the code itself.
-/

namespace Infinigpu

/-- The most uniform buffers of a descriptor set. -/
def MAX_UBOS : Nat := 8

/-! ### Signature and layout -/

/-- The resources of a descriptor set; `uboBindings` are the first `ubo_count` entries of the array of the source. -/
structure DescriptorSig where
  uboBindings : List UInt32
  texBinding : Option UInt32
  texCount : UInt32
  ssboBinding : Option UInt32
deriving DecidableEq, Repr

def descSigOf (draw : OwnedForwardedDraw) : Option DescriptorSig :=
  match draw.geometry with
  | none => none
  | some g =>
    let uboBindings := ((g.uniforms.take MAX_UBOS).map (·.binding)).insertionSort (· ≤ ·)
    let ssboBinding := g.storage.map (·.binding)
    let texCount := UInt32.ofNat g.textures.length
    let texBinding := if texCount > 0 then some g.texBinding else none
    if uboBindings.length = 0 ∧ texBinding = none ∧ ssboBinding = none then
      none
    else
      some { uboBindings, texBinding, texCount, ssboBinding }

inductive DescriptorType where
  | uniformBuffer
  | storageBuffer
  | sampledImage
  | sampler
deriving DecidableEq, Repr

inductive ShaderStages where
  | vertexFragment
  | fragment
deriving DecidableEq, Repr

structure SetLayoutBinding where
  binding : UInt32
  descriptorType : DescriptorType
  stageFlags : ShaderStages
deriving DecidableEq, Repr

/-- The bindings that `desc_set_layout` collects for a signature that it has no layout for. -/
def setLayoutBindings (sig : DescriptorSig) : List SetLayoutBinding :=
  sig.uboBindings.map (fun b => ⟨b, .uniformBuffer, .vertexFragment⟩) ++
    sig.ssboBinding.toList.map (fun b => ⟨b, .storageBuffer, .vertexFragment⟩) ++
    match sig.texBinding with
    | none => []
    | some base => (List.range sig.texCount.toNat).flatMap fun i =>
        let b := base + 2 * UInt32.ofNat i
        [⟨b, .sampledImage, .fragment⟩, ⟨b + 1, .sampler, .fragment⟩]

/-! ### Writes -/

/-- Where a descriptor is written, and of what type. -/
structure DescriptorWrite where
  dstBinding : UInt32
  descriptorType : DescriptorType
deriving DecidableEq, Repr

def writeTextureDescriptor (imageBinding : UInt32) : List DescriptorWrite :=
  [⟨imageBinding, .sampledImage⟩, ⟨imageBinding + 1, .sampler⟩]

/-- The check of every texture, made by `resolve_frame_textures` and by `upload_texture_into`. -/
def OwnedTexture.Bad (t : OwnedTexture) : Prop :=
  t.width = 0 ∨ t.height = 0 ∨ t.width > 16384 ∨ t.height > 16384 ∨
    (checkedMul t.width.toNat t.height.toNat).bind (checkedMul · 4) ≠ some t.rgba.length

instance (t : OwnedTexture) : Decidable t.Bad := by unfold OwnedTexture.Bad; infer_instance

def OwnedTexture.badText (t : OwnedTexture) : String :=
  s!"bad texture {t.width}x{t.height} ({t.rgba.length} bytes)"

/-- The descriptors that `resolve_frame_textures` writes from the `i`-th texture on: at once for a texture that is
resident (`hit`), and for the others, whose bindings are `pending`, when all have been uploaded. -/
def resolveFrameTextures (hit : OwnedTexture → Bool) (texBase : UInt32) :
    Nat → List OwnedTexture → List UInt32 → Except String (List DescriptorWrite)
  | _, [], pending => .ok (pending.flatMap writeTextureDescriptor)
  | i, t :: ts, pending =>
    if t.Bad then
      .error t.badText
    else
      let binding := texBase + 2 * UInt32.ofNat i
      if hit t then
        (resolveFrameTextures hit texBase (i + 1) ts pending).map (writeTextureDescriptor binding ++ ·)
      else
        resolveFrameTextures hit texBase (i + 1) ts (pending ++ [binding])

/-- The loop over `upload_texture_into`, without the cache. -/
def uploadTextures (texBase : UInt32) : Nat → List OwnedTexture → Except String (List DescriptorWrite)
  | _, [] => .ok []
  | i, t :: ts =>
    if t.Bad then
      .error t.badText
    else
      (uploadTextures texBase (i + 1) ts).map (writeTextureDescriptor (texBase + 2 * UInt32.ofNat i) ++ ·)

/-- The textures that are resident, or `none` when the cache is off. -/
abbrev Resident := Option (OwnedTexture → Bool)

def textureWrites (resident : Resident) (texBase : UInt32) (ts : List OwnedTexture) :
    Except String (List DescriptorWrite) :=
  match resident with
  | some hit => resolveFrameTextures hit texBase 0 ts []
  | none => uploadTextures texBase 0 ts

def buildFrameDescriptors (resident : Resident) (uniforms : List OwnedUniform) (storage : Option OwnedStorage)
    (textures : List OwnedTexture) (texBase : UInt32) : Except String (List DescriptorWrite) :=
  match uniforms.find? (fun u => u.bytes.length = 0 ∨ u.bytes.length > 65536),
      storage.filter (fun s => s.bytes.length = 0 ∨ s.bytes.length > MAX_SSBO_BYTES) with
  | some u, _ => .error s!"bad uniform block ({u.bytes.length} bytes)"
  | none, some s => .error s!"bad storage block ({s.bytes.length} bytes)"
  | none, none =>
    if textures.length > MAX_TEXTURES then
      .error s!"too many textures ({textures.length} > {MAX_TEXTURES})"
    else
      (textureWrites resident texBase textures).map fun ws =>
        uniforms.map (fun u => ⟨u.binding, .uniformBuffer⟩) ++
          storage.toList.map (fun s => ⟨s.binding, .storageBuffer⟩) ++ ws

/-- The layout of the set of a draw: empty without resources. -/
def OwnedForwardedDraw.setLayout (draw : OwnedForwardedDraw) : List SetLayoutBinding :=
  ((descSigOf draw).map setLayoutBindings).getD []

/-- The descriptors that a frame writes for a draw: none without a signature. -/
def OwnedForwardedDraw.frameDescriptors (resident : Resident) (draw : OwnedForwardedDraw) :
    Except String (List DescriptorWrite) :=
  match descSigOf draw, draw.geometry with
  | some _, some g => buildFrameDescriptors resident g.uniforms g.storage g.textures g.texBinding
  | _, _ => .ok []

/-- The layout has the descriptors that are written, no binding twice, and nothing is refused. -/
def OwnedForwardedDraw.LayoutMatches (resident : Resident) (draw : OwnedForwardedDraw) : Prop :=
  ∃ ws, draw.frameDescriptors resident = .ok ws ∧
    (∀ b ty, (∃ e ∈ draw.setLayout, e.binding = b ∧ e.descriptorType = ty) ↔ ⟨b, ty⟩ ∈ ws) ∧
    (draw.setLayout.map (·.binding)).Nodup ∧ (ws.map (·.dstBinding)).Nodup

/-- What the decoder lets through beyond what the descriptors are built for. -/
structure OwnedGeometry.Describable (g : OwnedGeometry) : Prop where
  uniforms : g.uniforms.length ≤ MAX_UBOS
  nonempty : ∀ u ∈ g.uniforms, u.bytes ≠ []
  textures : ∀ t ∈ g.textures, t.width ≤ 16384 ∧ t.height ≤ 16384

instance (g : OwnedGeometry) : Decidable g.Describable :=
  decidable_of_iff (g.uniforms.length ≤ MAX_UBOS ∧ (∀ u ∈ g.uniforms, u.bytes ≠ []) ∧
      ∀ t ∈ g.textures, t.width ≤ 16384 ∧ t.height ≤ 16384)
    ⟨fun h => ⟨h.1, h.2.1, h.2.2⟩, fun h => ⟨h.uniforms, h.nonempty, h.textures⟩⟩

/-! ### Textures -/

variable {hit : OwnedTexture → Bool} {resident : Resident} {base : UInt32} {ts : List OwnedTexture} {i : Nat}

/-- The descriptors of `n` textures from the `i`-th on. -/
def texturePairs (base : UInt32) (i n : Nat) : List DescriptorWrite :=
  (List.range' i n).flatMap fun j => writeTextureDescriptor (base + 2 * UInt32.ofNat j)

private theorem texturePairs_succ (base : UInt32) (i n : Nat) : texturePairs base i (n + 1) =
    writeTextureDescriptor (base + 2 * UInt32.ofNat i) ++ texturePairs base (i + 1) n := by
  unfold texturePairs
  rw [List.range'_succ, List.flatMap_cons]

private theorem resolveFrameTextures_ok (hts : ∀ t ∈ ts, ¬ t.Bad) (pending : List UInt32) :
    ∃ ws, resolveFrameTextures hit base i ts pending = .ok ws ∧
      ws.Perm (pending.flatMap writeTextureDescriptor ++ texturePairs base i ts.length) := by
  induction ts generalizing i pending with
  | nil =>
    refine ⟨_, rfl, ?_⟩
    show List.Perm _ (_ ++ [])
    rw [List.append_nil]
  | cons t ts ih =>
    have ht : ¬ t.Bad := hts t List.mem_cons_self
    have hrest : ∀ t ∈ ts, ¬ t.Bad := fun t' ht' => hts t' (List.mem_cons_of_mem t ht')
    rw [resolveFrameTextures, if_neg ht, List.length_cons, texturePairs_succ]
    simp only
    by_cases hhit : hit t
    · obtain ⟨ws, hws, hperm⟩ := ih (i := i + 1) hrest pending
      rw [if_pos hhit, hws]
      refine ⟨_, rfl, (hperm.append_left _).trans ?_⟩
      rw [← List.append_assoc, ← List.append_assoc]
      exact List.perm_append_comm.append_right _
    · obtain ⟨ws, hws, hperm⟩ := ih (i := i + 1) hrest (pending ++ [base + 2 * UInt32.ofNat i])
      rw [if_neg hhit, hws]
      refine ⟨_, rfl, hperm.trans ?_⟩
      rw [List.flatMap_append, List.flatMap_singleton, List.append_assoc]

private theorem resolveFrameTextures_error (hts : ∃ t ∈ ts, t.Bad) (pending : List UInt32) :
    ∃ e, resolveFrameTextures hit base i ts pending = .error e := by
  induction ts generalizing i pending with
  | nil => exact (List.not_mem_nil hts.choose_spec.1).elim
  | cons t ts ih =>
    rw [resolveFrameTextures]
    by_cases ht : t.Bad
    · exact ⟨_, if_pos ht⟩
    · rw [if_neg ht]
      simp only
      have hrest : ∃ t ∈ ts, t.Bad := by
        obtain ⟨t', hmem, hbad⟩ := hts
        rcases List.mem_cons.1 hmem with rfl | hmem
        · exact absurd hbad ht
        · exact ⟨t', hmem, hbad⟩
      by_cases hhit : hit t
      · obtain ⟨e, he⟩ := ih (i := i + 1) hrest pending
        rw [if_pos hhit, he]
        exact ⟨e, rfl⟩
      · rw [if_neg hhit]
        exact ih hrest _

/-- Without the cache the descriptors are written as if all textures were resident. -/
private theorem uploadTextures_eq (base : UInt32) (i : Nat) (ts : List OwnedTexture) :
    uploadTextures base i ts = resolveFrameTextures (fun _ => true) base i ts [] := by
  induction ts generalizing i with
  | nil => rfl
  | cons t ts ih =>
    rw [uploadTextures, resolveFrameTextures, ih]
    simp only [if_true]

private theorem textureWrites_ok (resident : Resident) (base : UInt32) (hts : ∀ t ∈ ts, ¬ t.Bad) :
    ∃ ws, textureWrites resident base ts = .ok ws ∧ ws.Perm (texturePairs base 0 ts.length) := by
  cases resident with
  | some hit => exact resolveFrameTextures_ok hts []
  | none =>
    simp only [textureWrites, uploadTextures_eq]
    exact resolveFrameTextures_ok hts []

private theorem textureWrites_error (resident : Resident) (base : UInt32) (hts : ∃ t ∈ ts, t.Bad) :
    ∃ e, textureWrites resident base ts = .error e := by
  cases resident with
  | some hit => exact resolveFrameTextures_error hts []
  | none =>
    simp only [textureWrites, uploadTextures_eq]
    exact resolveFrameTextures_error hts []

/-! ### Draws of the decoder -/

/-- The bounds that the decoder has checked. -/
structure OwnedGeometry.Within (g : OwnedGeometry) : Prop where
  texBinding : g.texBinding ≤ 65535
  textures : g.textures.length ≤ MAX_TEXTURES
  extents : ∀ t ∈ g.textures, t.width ≠ 0 ∧ t.height ≠ 0
  uniforms : ∀ u ∈ g.uniforms, u.bytes.length ≤ 65536
  storage : ∀ s ∈ g.storage, 0 < s.bytes.length ∧ s.bytes.length ≤ MAX_SSBO_BYTES

private theorem readTextures_extents {maxBytes n : Nat} {texs pix : List UInt8} {out : List OwnedTexture}
    (h : readTextures maxBytes n texs pix = some out) : ∀ t ∈ out, t.width ≠ 0 ∧ t.height ≠ 0 := by
  induction n generalizing texs pix out with
  | zero =>
    cases h
    exact fun t ht => absurd ht List.not_mem_nil
  | succ n ih =>
    rw [readTextures] at h
    cases hread : readFromPrefix 16 TextureDesc.decode texs with
    | none =>
      rw [hread] at h
      cases h
    | some td =>
      rw [hread] at h
      simp only at h
      by_cases hempty : td.1.width = 0 ∨ td.1.height = 0
      · rw [if_pos hempty] at h
        cases h
      rw [if_neg hempty] at h
      cases hexpect : (checkedMul td.1.width.toNat td.1.height.toNat).bind (checkedMul · 4) with
      | none =>
        rw [hexpect] at h
        cases h
      | some expect =>
        rw [hexpect] at h
        simp only at h
        by_cases hlen : td.1.dataLen.toNat ≠ expect ∨ td.1.dataLen.toNat > maxBytes ∨ td.1.dataLen.toNat > pix.length
        · rw [if_pos hlen] at h
          cases h
        rw [if_neg hlen] at h
        obtain ⟨out', hout', rfl⟩ := Option.map_eq_some_iff.1 h
        intro t ht
        rcases List.mem_cons.1 ht with rfl | ht
        · exact not_or.1 hempty
        · exact ih hout' t ht

private theorem decoded_within {payload : List UInt8} {maxBytes : Nat} {draw : OwnedForwardedDraw}
    (h : decodeForwardedCmdlist payload maxBytes = some draw) :
    ∃ g, draw.geometry = some g ∧ g.WellFormed ∧ g.Within := by
  obtain ⟨hlength, hgood, s, hmatch, hbytes, hparts⟩ := decodeForwardedCmdlist_eq_some_iff.1 h
  obtain ⟨g, hg, -, hwell⟩ := decodeParts_sound hmatch hgood hlength hbytes.symm hparts
  refine ⟨g, hg, hwell, ?_⟩
  simp only [Sections.Match, Sections.parts, List.map_cons, List.map_nil, ForwardedCmdListTail.lengths,
    List.cons.injEq, and_true] at hmatch
  obtain ⟨-, -, -, -, -, -, -, -, -, -, -, hssboLen⟩ := hmatch
  simp only [BadTail, badCmdList, badStages, not_or, gt_iff_lt, Nat.not_lt, UInt32.not_lt, not_not, not_and] at hgood
  obtain ⟨⟨-, -, -, -, -, -, -, htexCount, htexBinding, -, -, hssboMax⟩, -⟩ := hgood
  obtain ⟨attrs, draws, textures, uniforms, vertexEntry, fragmentEntry, hdecoded, rfl⟩ :=
    decodeParts_eq_some_iff.1 hparts
  cases hg
  obtain ⟨⟨descs, hdescs, hdescribes⟩, -, -⟩ := readTextures_sound hdecoded.textures
  obtain ⟨-, new, hnew, haccepted, -⟩ := readUniforms_sound hdecoded.uniforms List.nodup_nil
  rw [List.nil_append] at hnew
  subst hnew
  refine ⟨htexBinding, ?_, readTextures_extents hdecoded.textures, fun u hu => (haccepted u hu).length_le, ?_⟩
  · rw [← hdescribes.length_eq, readArray_length hdescs]
    exact htexCount
  · intro b hb
    simp only at hb
    by_cases hzero : (tailOf payload).ssboLen.toNat > 0
    · rw [if_pos hzero] at hb
      cases hb
      simp only [hssboLen]
      exact ⟨hzero, hssboMax⟩
    · rw [if_neg hzero] at hb
      cases hb

/-- The size of a texture that the decoder has checked is not refused when its sides are not too long. -/
private theorem OwnedTexture.bad_iff {t : OwnedTexture} (hextent : t.width ≠ 0 ∧ t.height ≠ 0)
    (hsize : t.rgba.length = t.width.toNat * t.height.toNat * 4) :
    ¬ t.Bad ↔ t.width ≤ 16384 ∧ t.height ≤ 16384 := by
  constructor
  · intro h
    unfold Bad at h
    simp only [not_or, gt_iff_lt, UInt32.not_lt] at h
    exact ⟨h.2.2.1, h.2.2.2.1⟩
  · rintro ⟨hw, hh⟩ (h | h | h | h | h)
    · exact hextent.1 h
    · exact hextent.2 h
    · exact UInt32.not_lt.2 hw h
    · exact UInt32.not_lt.2 hh h
    · rw [UInt32.le_iff_toNat_le] at hw hh
      have hlimit : (16384 : UInt32).toNat = 16384 := rfl
      rw [hlimit] at hw hh
      have harea : t.width.toNat * t.height.toNat ≤ 16384 * 16384 := Nat.mul_le_mul hw hh
      refine h ?_
      rw [checkedMul, if_pos (by omega), Option.bind_some, checkedMul, if_pos (by omega), hsize]

/-! ### Layout and writes -/

namespace OwnedGeometry

variable {g : OwnedGeometry} {draw : OwnedForwardedDraw} {ws : List DescriptorWrite}

/-- The descriptors of a draw, in the order they are written in when all textures are resident. -/
def pairs (g : OwnedGeometry) : List DescriptorWrite :=
  g.uniforms.map (fun u => ⟨u.binding, .uniformBuffer⟩) ++
    g.storage.toList.map (fun s => ⟨s.binding, .storageBuffer⟩) ++ texturePairs g.texBinding 0 g.textures.length

private theorem texturePairs_bindings {n : Nat} (hbase : base ≤ 65535) (hn : n ≤ 32767) :
    (texturePairs base 0 n).map (·.dstBinding.toNat) = (List.range (2 * n)).map (base.toNat + ·) := by
  induction n with
  | zero => rfl
  | succ n ih =>
    have hlast : texturePairs base 0 (n + 1) =
      texturePairs base 0 n ++ writeTextureDescriptor (base + 2 * UInt32.ofNat n) := by
      unfold texturePairs
      rw [List.range'_1_concat, List.flatMap_append, List.flatMap_singleton, Nat.zero_add]
    have hbase' : base.toNat ≤ 65535 := UInt32.le_iff_toNat_le.1 hbase
    have himage : (base + 2 * UInt32.ofNat n).toNat = base.toNat + 2 * n := by
      rw [UInt32.toNat_add, UInt32.toNat_mul, UInt32.toNat_ofNat', show (2 : UInt32).toNat = 2 from rfl]
      omega
    have hsampler : (base + 2 * UInt32.ofNat n + 1).toNat = base.toNat + (2 * n + 1) := by
      rw [UInt32.toNat_add, himage, show (1 : UInt32).toNat = 1 from rfl]
      omega
    rw [hlast, List.map_append, ih (by omega), show 2 * (n + 1) = 2 * n + 1 + 1 by omega, List.range_succ,
      List.range_succ, List.map_append, List.map_append, List.append_assoc]
    simp only [writeTextureDescriptor, List.map_cons, List.map_nil, himage, hsampler, List.cons_append,
      List.nil_append]

private theorem pairs_bindings (h : g.Within) : g.pairs.map (·.dstBinding.toNat) = g.bindings := by
  have hn : g.textures.length ≤ 32767 := h.textures.trans (by decide)
  unfold pairs OwnedGeometry.bindings
  rw [List.map_append, List.map_append, texturePairs_bindings h.texBinding hn, List.map_map, List.map_map]
  rfl

private theorem WellFormed.nodup_of_perm (hwell : g.WellFormed) (h : g.Within) (hperm : ws.Perm g.pairs) :
    (ws.map (·.dstBinding)).Nodup := by
  have hnodup : (ws.map (·.dstBinding.toNat)).Nodup := by
    rw [(hperm.map _).nodup_iff, pairs_bindings h]
    exact hwell.bindings
  refine List.Nodup.of_map UInt32.toNat ?_
  rw [List.map_map]
  exact hnodup

/-- The layout of a draw: its uniform buffers are the first `MAX_UBOS`, sorted. -/
private theorem setLayout_pairs (hg : draw.geometry = some g) (h : g.Within) :
    draw.setLayout.map (fun e => (⟨e.binding, e.descriptorType⟩ : DescriptorWrite)) =
      (((g.uniforms.take MAX_UBOS).map (·.binding)).insertionSort (· ≤ ·)).map (⟨·, .uniformBuffer⟩) ++
        g.storage.toList.map (fun s => ⟨s.binding, .storageBuffer⟩) ++
          texturePairs g.texBinding 0 g.textures.length := by
  have hlen : (UInt32.ofNat g.textures.length).toNat = g.textures.length := by
    have := h.textures
    have hmax : MAX_TEXTURES = 8 := rfl
    rw [UInt32.toNat_ofNat']
    omega
  unfold OwnedForwardedDraw.setLayout
  simp only [descSigOf, hg]
  by_cases htex : UInt32.ofNat g.textures.length > 0
  · rw [if_neg (by rintro ⟨-, hnone, -⟩; rw [if_pos htex] at hnone; cases hnone)]
    simp only [Option.map_some, Option.getD_some, setLayoutBindings, if_pos htex, hlen, List.map_append, List.map_map]
    congr 1
    · congr 1
      cases g.storage <;> rfl
    · rw [texturePairs, List.map_flatMap, List.range_eq_range']
      rfl
  · have hzero : g.textures.length = 0 := by
      rw [gt_iff_lt, UInt32.lt_iff_toNat_lt, hlen] at htex
      exact Nat.eq_zero_of_not_pos htex
    have hpairs : texturePairs g.texBinding 0 g.textures.length = [] := by
      rw [hzero]
      rfl
    rw [hpairs, List.append_nil]
    by_cases hnone : (((g.uniforms.take MAX_UBOS).map (·.binding)).insertionSort (· ≤ ·)).length = 0 ∧
        (if UInt32.ofNat g.textures.length > 0 then some g.texBinding else none) = none ∧
          g.storage.map (·.binding) = none
    · rw [if_pos hnone, List.length_eq_zero_iff.1 hnone.1, Option.map_eq_none_iff.1 hnone.2.2]
      rfl
    · rw [if_neg hnone]
      simp only [Option.map_some, Option.getD_some, setLayoutBindings, if_neg htex, List.append_nil, List.map_append,
        List.map_map]
      congr 1
      cases g.storage <;> rfl

private theorem setLayout_perm (hg : draw.geometry = some g) (h : g.Within) (hn : g.uniforms.length ≤ MAX_UBOS) :
    (draw.setLayout.map (fun e => (⟨e.binding, e.descriptorType⟩ : DescriptorWrite))).Perm g.pairs := by
  rw [setLayout_pairs hg h, List.take_of_length_le hn]
  refine List.Perm.append_right _ (List.Perm.append_right _ ?_)
  have hsort := (List.perm_insertionSort (· ≤ ·) (g.uniforms.map (·.binding))).map
    (fun b => (⟨b, .uniformBuffer⟩ : DescriptorWrite))
  rw [List.map_map] at hsort
  exact hsort

/-! ### What is built -/

private theorem buildFrameDescriptors_ok (h : g.Within) (hempty : ∀ u ∈ g.uniforms, u.bytes ≠ [])
    (hts : ∀ t ∈ g.textures, ¬ t.Bad) :
    ∃ ws, buildFrameDescriptors resident g.uniforms g.storage g.textures g.texBinding = .ok ws ∧ ws.Perm g.pairs := by
  have hfind : g.uniforms.find? (fun u => u.bytes.length = 0 ∨ u.bytes.length > 65536) = none := by
    refine List.find?_eq_none.2 fun u hu hbad => ?_
    rcases of_decide_eq_true hbad with hzero | hlong
    · exact hempty u hu (List.length_eq_zero_iff.1 hzero)
    · exact Nat.not_lt.2 (h.uniforms u hu) hlong
  have hstorage : g.storage.filter (fun s => s.bytes.length = 0 ∨ s.bytes.length > MAX_SSBO_BYTES) = none := by
    refine Option.filter_eq_none_iff.2 fun s hs hbad => ?_
    obtain ⟨hpos, hle⟩ := h.storage s hs
    rcases of_decide_eq_true hbad with hzero | hlong <;> omega
  obtain ⟨ws, hws, hperm⟩ := textureWrites_ok resident g.texBinding hts
  unfold buildFrameDescriptors
  rw [hfind, hstorage]
  simp only
  rw [if_neg (Nat.not_lt.2 h.textures), hws]
  exact ⟨_, rfl, hperm.append_left _⟩

private theorem buildFrameDescriptors_eq_ok
    (hws : buildFrameDescriptors resident g.uniforms g.storage g.textures g.texBinding = .ok ws) :
    (∀ u ∈ g.uniforms, u.bytes ≠ []) ∧ ∀ t ∈ g.textures, ¬ t.Bad := by
  unfold buildFrameDescriptors at hws
  cases hfind : g.uniforms.find? (fun u => u.bytes.length = 0 ∨ u.bytes.length > 65536) with
  | some u =>
    rw [hfind] at hws
    cases hws
  | none =>
    cases hstorage : g.storage.filter (fun s => s.bytes.length = 0 ∨ s.bytes.length > MAX_SSBO_BYTES) with
    | some s =>
      rw [hfind, hstorage] at hws
      cases hws
    | none =>
      rw [hfind, hstorage] at hws
      simp only at hws
      refine ⟨fun u hu hnil => ?_, fun t ht hbad => ?_⟩
      · refine List.find?_eq_none.1 hfind u hu (decide_eq_true (.inl ?_))
        rw [hnil]
        rfl
      · by_cases hmany : g.textures.length > MAX_TEXTURES
        · rw [if_pos hmany] at hws
          cases hws
        · obtain ⟨e, he⟩ := textureWrites_error resident g.texBinding ⟨t, ht, hbad⟩
          rw [if_neg hmany, he] at hws
          cases hws

private theorem pairs_eq_nil (hg : draw.geometry = some g) (h : g.Within) (hsig : descSigOf draw = none) :
    g.uniforms = [] ∧ g.pairs = [] := by
  have hlayout := setLayout_pairs hg h
  have hnil : draw.setLayout = [] := by
    unfold OwnedForwardedDraw.setLayout
    rw [hsig]
    rfl
  rw [hnil, List.map_nil, eq_comm, List.append_eq_nil_iff, List.append_eq_nil_iff] at hlayout
  obtain ⟨⟨huniforms, hstorage⟩, htextures⟩ := hlayout
  have hnone : g.uniforms = [] := by
    have hlen := congrArg List.length huniforms
    rw [List.length_map, List.length_insertionSort, List.length_map, List.length_take, List.length_nil] at hlen
    have hmax : MAX_UBOS = 8 := rfl
    exact List.length_eq_zero_iff.1 (by omega)
  refine ⟨hnone, ?_⟩
  unfold pairs
  rw [hstorage, htextures, hnone]
  rfl

private theorem frameDescriptors_ok (resident : Resident) (hg : draw.geometry = some g) (h : g.Within)
    (hempty : ∀ u ∈ g.uniforms, u.bytes ≠ []) (hts : ∀ t ∈ g.textures, ¬ t.Bad) :
    ∃ ws, draw.frameDescriptors resident = .ok ws ∧ ws.Perm g.pairs := by
  unfold OwnedForwardedDraw.frameDescriptors
  cases hsig : descSigOf draw with
  | none =>
    refine ⟨[], rfl, ?_⟩
    rw [(pairs_eq_nil hg h hsig).2]
  | some sig =>
    rw [hg]
    exact buildFrameDescriptors_ok h hempty hts

private theorem frameDescriptors_eq_ok (hg : draw.geometry = some g) (h : g.Within)
    (hws : draw.frameDescriptors resident = .ok ws) :
    (∀ u ∈ g.uniforms, u.bytes ≠ []) ∧ ∀ t ∈ g.textures, ¬ t.Bad := by
  unfold OwnedForwardedDraw.frameDescriptors at hws
  cases hsig : descSigOf draw with
  | none =>
    obtain ⟨huniforms, hpairs⟩ := pairs_eq_nil hg h hsig
    have htextures : g.textures = [] := by
      refine List.length_eq_zero_iff.1 ?_
      have hnil := (List.append_eq_nil_iff.1 hpairs).2
      cases hn : g.textures.length with
      | zero => rfl
      | succ n =>
        rw [hn, texturePairs_succ] at hnil
        cases hnil
    rw [huniforms, htextures]
    exact ⟨fun u hu => absurd hu List.not_mem_nil, fun t ht => absurd ht List.not_mem_nil⟩
  | some sig =>
    rw [hsig, hg] at hws
    exact buildFrameDescriptors_eq_ok hws

/-- The layout leaves no uniform buffer out exactly if there are at most `MAX_UBOS`. -/
private theorem uniforms_le (hg : draw.geometry = some g) (hwell : g.WellFormed) (h : g.Within)
    (hsub : ∀ u ∈ g.uniforms, ∃ e ∈ draw.setLayout, e.binding = u.binding ∧ e.descriptorType = .uniformBuffer) :
    g.uniforms.length ≤ MAX_UBOS := by
  have hlayout := setLayout_pairs hg h
  have hmem : g.uniforms.map (·.binding) ⊆ ((g.uniforms.take MAX_UBOS).map (·.binding)).insertionSort (· ≤ ·) := by
    intro b hb
    obtain ⟨u, hu, rfl⟩ := List.mem_map.1 hb
    obtain ⟨e, he, hbinding, htype⟩ := hsub u hu
    have hpair : (⟨u.binding, .uniformBuffer⟩ : DescriptorWrite) ∈
        draw.setLayout.map (fun e => (⟨e.binding, e.descriptorType⟩ : DescriptorWrite)) :=
      List.mem_map.2 ⟨e, he, by rw [hbinding, htype]⟩
    rw [hlayout, List.mem_append, List.mem_append] at hpair
    rcases hpair with (hpair | hpair) | hpair
    · obtain ⟨b, hb, heq⟩ := List.mem_map.1 hpair
      cases heq
      exact hb
    · obtain ⟨s, -, heq⟩ := List.mem_map.1 hpair
      exact DescriptorType.noConfusion (DescriptorWrite.mk.inj heq).2
    · obtain ⟨j, -, hj⟩ := List.mem_flatMap.1 hpair
      simp only [writeTextureDescriptor, List.mem_cons, DescriptorWrite.mk.injEq, reduceCtorEq, and_false,
        List.not_mem_nil, or_false] at hj
  have hnodup : (g.uniforms.map (·.binding)).Nodup := by
    have hbindings := (List.nodup_append.1 (List.nodup_append.1 hwell.bindings).1).1
    refine List.Nodup.of_map UInt32.toNat ?_
    rw [List.map_map]
    exact hbindings
  have hle := hnodup.length_le_of_subset hmem
  rw [List.length_insertionSort, List.length_map, List.length_map, List.length_take] at hle
  omega

end OwnedGeometry

section

open OwnedGeometry

variable {payload : List UInt8} {maxBytes : Nat} {draw : OwnedForwardedDraw}

private theorem OwnedForwardedDraw.LayoutMatches.describable (h : decodeForwardedCmdlist payload maxBytes = some draw)
    (hmatches : draw.LayoutMatches resident) : ∀ g ∈ draw.geometry, g.Describable := by
  obtain ⟨g, hg, hwell, hwithin⟩ := decoded_within h
  obtain ⟨ws, hws, hsame, -, -⟩ := hmatches
  obtain ⟨hempty, hts⟩ := frameDescriptors_eq_ok hg hwithin hws
  obtain ⟨ws', hws', hperm⟩ := frameDescriptors_ok resident hg hwithin hempty hts
  rw [hws, Except.ok.injEq] at hws'
  subst hws'
  rw [hg]
  rintro _ ⟨⟩
  refine ⟨uniforms_le hg hwell hwithin fun u hu => ?_, hempty, fun t ht => ?_⟩
  · have hpair : (⟨u.binding, .uniformBuffer⟩ : DescriptorWrite) ∈ g.pairs :=
      List.mem_append_left _ (List.mem_append_left _ (List.mem_map.2 ⟨u, hu, rfl⟩))
    exact (hsame _ _).2 (hperm.mem_iff.2 hpair)
  · exact (t.bad_iff (hwithin.extents t ht) (hwell.textures t ht)).1 (hts t ht)

private theorem layoutMatches_of_describable (h : decodeForwardedCmdlist payload maxBytes = some draw)
    (hfits : ∀ g ∈ draw.geometry, g.Describable) : draw.LayoutMatches resident := by
  obtain ⟨g, hg, hwell, hwithin⟩ := decoded_within h
  obtain ⟨hn, hempty, hsides⟩ := hfits g hg
  obtain ⟨ws, hws, hperm⟩ := frameDescriptors_ok resident hg hwithin hempty
    fun t ht => (t.bad_iff (hwithin.extents t ht) (hwell.textures t ht)).2 (hsides t ht)
  have hlayout := setLayout_perm hg hwithin hn
  refine ⟨ws, hws, fun b ty => ?_, ?_, hwell.nodup_of_perm hwithin hperm⟩
  · rw [hperm.mem_iff, ← hlayout.mem_iff, List.mem_map]
    simp only [DescriptorWrite.mk.injEq]
  · have hnodup := hwell.nodup_of_perm hwithin hlayout
    rw [List.map_map] at hnodup
    exact hnodup

/-- The layout of a draw that the decoder accepts is the one its descriptors are written for exactly if the draw has
at most `MAX_UBOS` uniform buffers, none of them empty, and no texture with a side above 16384. -/
theorem layout_matches_iff (resident : Resident) (h : decodeForwardedCmdlist payload maxBytes = some draw) :
    draw.LayoutMatches resident ↔ ∀ g ∈ draw.geometry, g.Describable :=
  ⟨fun hmatches => hmatches.describable h, layoutMatches_of_describable h⟩

end

/-- A bufferless draw with `n` uniform buffers of one byte. -/
def uniformsPayload (n : Nat) : List UInt8 :=
  List.replicate VulkanWorkload.size 0 ++
    Bytes.ofWords [4, 4, 2, 2, 0, 0, 0, 0, 0, 1, 0, 0, 0, 0, 9 * UInt32.ofNat n, UInt32.ofNat n, 0, 0, 0, 0] ++
    List.replicate 32 0 ++ Bytes.ofWords [SPIRV_MAGIC, SPIRV_MAGIC] ++ [118, 0, 102, 0] ++
    (List.range n).flatMap fun b => Bytes.ofWords [UInt32.ofNat b, 1] ++ [0]

theorem layout_matches_two : ∃ draw, decodeForwardedCmdlist (uniformsPayload 2) 1024 = some draw ∧
    draw.LayoutMatches none := by
  have hsome : (decodeForwardedCmdlist (uniformsPayload 2) 1024).isSome := by decide +kernel
  have hfits : ∀ g ∈ ((decodeForwardedCmdlist (uniformsPayload 2) 1024).get hsome).geometry, g.Describable := by
    decide +revert +kernel
  exact ⟨_, (Option.some_get hsome).symm, (layout_matches_iff none (Option.some_get hsome).symm).2 hfits⟩

/-- The decoder lets sixteen uniform buffers through; the layout keeps eight. -/
theorem layout_not_always_matches : ¬ ∀ payload maxBytes draw resident,
    decodeForwardedCmdlist payload maxBytes = some draw → draw.LayoutMatches resident := by
  intro h
  have hsome : (decodeForwardedCmdlist (uniformsPayload 9) 1024).isSome := by decide +kernel
  have hfits : ¬ ∀ g ∈ ((decodeForwardedCmdlist (uniformsPayload 9) 1024).get hsome).geometry, g.Describable := by
    decide +revert +kernel
  have hdraw := (Option.some_get hsome).symm
  exact hfits ((h _ _ _ none hdraw).describable hdraw)

end Infinigpu
