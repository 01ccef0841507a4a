import Infinigpu.Device.Present
import Infinigpu.Guest.Replay
import Infinigpu.Guest.Truncated

/-!
# What the host accepts of a captured draw

The decoder's limits, said about the state that was captured (`DrawLimits`, `CmdlistLimits`): the ones that the guest
driver does not enforce itself.  A command list whose state keeps them is accepted (`accepted_of_limits`), and one
that is accepted keeps them (`limits_of_accepted`).
-/

namespace Infinigpu.Icd

/-! ### Sizes -/

/-- The forwarded bytes of a bound range. -/
def boundLen (r : Option (Ptr × UInt32)) : Nat := (r.map (·.2.toNat)).getD 0

def CmdBuffer.vertexLen (cmd : CmdBuffer) (p : Pipeline) : Nat :=
  if p.vertexStride > 0 then
    (cmd.vbuf.map fun vb => (vertexBytes p.vertexStride vb cmd.vbufOffset).toNat).getD 0
  else 0

def CmdBuffer.indexStride (cmd : CmdBuffer) : UInt32 := if cmd.indexType = Infinigpu.IndexType.u32 then 4 else 2

def CmdBuffer.indexLen (cmd : CmdBuffer) : Nat :=
  if cmd.draws.any (·.indexed) then
    (cmd.ibuf.map fun ib => (vertexBytes cmd.indexStride ib cmd.ibufOffset).toNat).getD 0
  else 0

/-- The bytes of both stages, with the terminators of their names. -/
def stageBytes (vs fs : PipelineStage) : Nat :=
  vs.spirv.length * 4 + fs.spirv.length * 4 + (vs.entrypoint.chars.length + 1) + (fs.entrypoint.chars.length + 1)

/-- The bytes of the textures of a set, before any sum is cut to 32 bits. -/
def DescriptorSet.textureBytes (ds : DescriptorSet) : Nat := (ds.textureImages.map fun t => t.1.textureBytes).sum

/-- The bytes of the uniform block of a set. -/
def DescriptorSet.uboBytes (ds : DescriptorSet) : Nat :=
  (ds.ubos.entries.filterMap fun e => e.2.bound.map fun r => 8 + r.2.toNat).sum

/-- The bytes of a command list. -/
def cmdlistBytes (ds : DescriptorSet) (cmd : CmdBuffer) (p : Pipeline) (vs fs : PipelineStage) : Nat :=
  120 + stageBytes vs fs + p.attrs.length * 12 + cmd.draws.length * 32 + ds.textureImages.length * 16 +
    cmd.vertexLen p + cmd.indexLen + cmd.pushConstLen.toNat + ds.uboBytes + boundLen ds.ssboBound + ds.textureBytes

/-! ### Limits -/

/-- Limits of the host on any draw: entry names with their terminators in 256 bytes, the frame in 64 MiB. -/
structure DrawLimits (vs fs : PipelineStage) (img : Image) : Prop where
  vertexEntry : vs.entrypoint.chars.length ≤ 255
  fragmentEntry : fs.entrypoint.chars.length ≤ 255
  frame : img.width.toNat * img.height.toNat * 4 ≤ MAX_FRAME_BYTES

/-- Limits of the host on a command list: nothing that was cut to 32 bits, textures that are not empty, and bindings
below 65536 that are distinct from those of the textures and of each other. -/
structure CmdlistLimits (ds : DescriptorSet) (cmd : CmdBuffer) (p : Pipeline) (vs fs : PipelineStage) : Prop where
  bytes : cmdlistBytes ds cmd p vs fs < 2 ^ 32
  vertices : p.vertexStride.toNat ∣ cmd.vertexLen p
  textures : ∀ t ∈ ds.textureImages, t.1.pixels.isSome → t.1.width ≠ 0 ∧ t.1.height ≠ 0
  texBinding : ds.texBinding ≤ 65535
  ubos : ∀ e ∈ ds.ubos.entries, e.2.bound.isSome →
    e.1 ≤ 65535 ∧ inTexRange ds.textureImages.length ds.texBinding e.1 = false ∧
      (ds.ssboBound.isSome → e.1 ≠ ds.ssboBinding)
  ssbo : ds.ssboBound.isSome →
    ds.ssboBinding ≤ 65535 ∧ inTexRange ds.textureImages.length ds.texBinding ds.ssboBinding = false

/-! ### Bound ranges -/

private theorem min_le_avail (range avail : UInt64) : min range avail ≤ avail := by
  change (if range ≤ avail then range else avail) ≤ avail
  by_cases h : range ≤ avail
  · rw [if_pos h]
    exact h
  · rw [if_neg h]
    exact UInt64.le_refl _

/-- A bound range is what the limit allows of the bytes behind the offset. -/
theorem boundRange_eq_some {buffer : Option Buffer} {offset range limit : UInt64} {r : Ptr × UInt32}
    (h : boundRange buffer offset range limit = some r) (hlimit : limit.toNat < 2 ^ 32) :
    ∃ b ptr, buffer = some b ∧ b.map = some ptr ∧ r.1 = ptr.add offset.toNat ∧ 0 < r.2.toNat ∧
      r.2.toNat ≤ limit.toNat ∧ offset.toNat + r.2.toNat ≤ b.totalSize.toNat := by
  unfold boundRange at h
  cases buffer with
  | none => cases h
  | some b =>
    cases hmap : b.map with
    | none => simp [hmap] at h
    | some q =>
      simp only [hmap] at h
      by_cases hoffset : offset ≥ b.totalSize
      · rw [if_pos hoffset] at h
        cases h
      · rw [if_neg hoffset] at h
        set n := min (if range = VK_WHOLE_SIZE then b.totalSize - offset else range) (b.totalSize - offset) with hn
        by_cases hbad : n = 0 ∨ n > limit
        · rw [if_pos hbad] at h
          cases h
        · rw [if_neg hbad, Option.some_inj] at h
          subst r
          rw [ge_iff_le, UInt64.not_le, UInt64.lt_iff_toNat_lt] at hoffset
          rw [not_or, gt_iff_lt, UInt64.not_lt, UInt64.le_iff_toNat_le] at hbad
          have hpos : n.toNat ≠ 0 := fun h0 => hbad.1 (UInt64.toNat_inj.1 h0)
          have havail : (b.totalSize - offset).toNat = b.totalSize.toNat - offset.toNat :=
            UInt64.toNat_sub_of_le _ _ (UInt64.le_iff_toNat_le.2 (Nat.le_of_lt hoffset))
          have hle : n.toNat ≤ b.totalSize.toNat - offset.toNat := by
            rw [← havail, ← UInt64.le_iff_toNat_le]
            exact min_le_avail _ _
          have hcut : n.toUInt32.toNat = n.toNat := by
            rw [UInt64.toNat_toUInt32]
            exact Nat.mod_eq_of_lt (by omega)
          refine ⟨b, q, rfl, hmap, rfl, ?_, ?_, ?_⟩
          · change 0 < n.toUInt32.toNat
            omega
          · change n.toUInt32.toNat ≤ limit.toNat
            omega
          · change offset.toNat + n.toUInt32.toNat ≤ b.totalSize.toNat
            omega

private theorem boundRange_len {buffer : Option Buffer} {offset range limit : UInt64} {ptr : Ptr} {n : UInt32}
    (h : boundRange buffer offset range limit = some (ptr, n)) (hlimit : limit.toNat < 2 ^ 32) :
    0 < n.toNat ∧ n.toNat ≤ limit.toNat := by
  obtain ⟨b, q, -, -, -, hpos, hle, -⟩ := boundRange_eq_some h hlimit
  exact ⟨hpos, hle⟩

private theorem DescUbo.bound_len {u : DescUbo} {ptr : Ptr} {n : UInt32} (h : u.bound = some (ptr, n)) :
    0 < n.toNat ∧ n.toNat ≤ 65536 := boundRange_len h (by decide)

private theorem DescriptorSet.ssboBound_len {ds : DescriptorSet} {ptr : Ptr} {n : UInt32}
    (h : ds.ssboBound = some (ptr, n)) :
    0 < n.toNat ∧ n.toNat ≤ MAX_SSBO_BYTES := boundRange_len h (by decide)

/-! ### Data -/

private theorem vertexData_length {cmd : CmdBuffer} {maps : Maps} {p : Pipeline} {vdata : Counted UInt8}
    (h : cmd.vertexData maps p = .ok vdata) : vdata.items.length = cmd.vertexLen p := by
  unfold CmdBuffer.vertexData at h
  unfold CmdBuffer.vertexLen
  by_cases hstride : p.vertexStride > 0
  · rw [if_pos hstride] at h ⊢
    cases hvb : cmd.vbuf with
    | none => simp [hvb] at h
    | some vb =>
      cases hmap : vb.map with
      | none => simp [hvb, hmap] at h
      | some ptr =>
        simp only [hvb, hmap] at h
        by_cases hoffset : cmd.vbufOffset ≥ vb.totalSize
        · rw [if_pos hoffset] at h
          cases h
        · rw [if_neg hoffset] at h
          by_cases hempty : vertexBytes p.vertexStride vb cmd.vbufOffset = 0
          · rw [if_pos hempty] at h
            cases h
          · rw [if_neg hempty, Except.ok.injEq] at h
            rw [← h, Ptr.load_length]
            rfl
  · rw [if_neg hstride, Except.ok.injEq] at h
    rw [if_neg hstride, ← h]
    rfl

theorem indexData_length {cmd : CmdBuffer} {maps : Maps} {idata : Counted UInt8}
    (h : cmd.indexData maps = .ok idata) :
    idata.items.length = cmd.indexLen := by
  unfold CmdBuffer.indexData at h
  unfold CmdBuffer.indexLen
  by_cases hindexed : cmd.draws.any (·.indexed)
  · rw [if_pos hindexed] at h ⊢
    cases hib : cmd.ibuf with
    | none => simp [hib] at h
    | some ib =>
      cases hmap : ib.map with
      | none => simp [hib, hmap] at h
      | some ptr =>
        simp only [hib, hmap] at h
        by_cases hoffset : cmd.ibufOffset ≥ ib.totalSize
        · rw [if_pos hoffset] at h
          cases h
        · rw [if_neg hoffset, Except.ok.injEq] at h
          rw [← h, Ptr.load_length]
          rfl
  · rw [if_neg hindexed, Except.ok.injEq] at h
    rw [if_neg hindexed, ← h]
    rfl

/-- The index data is whole indices, also when its length was cut. -/
private theorem indexStride_dvd (cmd : CmdBuffer) : cmd.indexStride.toNat ∣ cmd.indexLen := by
  unfold CmdBuffer.indexLen
  by_cases hindexed : cmd.draws.any (·.indexed)
  · rw [if_pos hindexed]
    cases cmd.ibuf with
    | none => exact Nat.dvd_zero _
    | some ib =>
      have hpow : cmd.indexStride.toNat ∣ 2 ^ 32 := by
        unfold CmdBuffer.indexStride
        by_cases hu32 : cmd.indexType = Infinigpu.IndexType.u32
        · rw [if_pos hu32]
          decide
        · rw [if_neg hu32]
          decide
      rw [Option.map_some, Option.getD_some, vertexBytes, UInt32.toNat_ofNat']
      exact (Nat.dvd_mod_iff hpow).2 (Nat.dvd_mul_left _ _)
  · rw [if_neg hindexed]
    exact Nat.dvd_zero _

/-! ### Textures -/

private theorem textureBytes_of_accepted {img : Image} {sampler : Option Sampler} {maxBytes : Nat}
    (h : (img.textureDesc sampler).Accepted maxBytes) :
    img.textureBytes = (img.textureDesc sampler).dataLen.toNat := by
  have hlen := h.dataLen_eq
  unfold Image.textureDesc at hlen ⊢
  unfold Image.textureBytes
  cases hpixels : img.pixels with
  | none => rfl
  | some p =>
    simp only [hpixels, Option.isSome_some, if_true] at hlen ⊢
    exact hlen.symm

private theorem textureDesc_dataLen {img : Image} (sampler : Option Sampler) (h : img.textureBytes < 2 ^ 32) :
    (img.textureDesc sampler).dataLen.toNat = img.textureBytes := by
  unfold Image.textureDesc
  unfold Image.textureBytes at h ⊢
  cases hpixels : img.pixels with
  | none => rfl
  | some p =>
    simp only [hpixels, Option.isSome_some, if_true] at h ⊢
    have hfour : UInt32.toNat 4 = 4 := rfl
    rw [UInt32.toNat_mul, UInt32.toNat_mul, hfour, Nat.mod_mul_mod, Nat.mod_eq_of_lt h]

private theorem textureDesc_accepted {img : Image} {sampler : Option Sampler} {maxBytes : Nat} (hmax : 4 ≤ maxBytes)
    (hlt : img.textureBytes < 2 ^ 32) (hle : img.textureBytes ≤ maxBytes)
    (hsize : img.pixels.isSome → img.width ≠ 0 ∧ img.height ≠ 0) : (img.textureDesc sampler).Accepted maxBytes := by
  have hlen := textureDesc_dataLen sampler hlt
  unfold Image.textureBytes at hle hlen
  unfold Image.textureDesc at hlen ⊢
  cases hpixels : img.pixels with
  | none =>
    have hone : (1 : UInt32) ≠ 0 := by decide
    exact ⟨hone, hone, rfl, hmax⟩
  | some p =>
    obtain ⟨hw, hh⟩ := hsize (by rw [hpixels]; rfl)
    simp only [hpixels, Option.isSome_some, if_true] at hlen hle ⊢
    exact ⟨hw, hh, hlen, hlen ▸ hle⟩

private theorem texturePixels_one (maps : Maps) (img : Image) (sampler : Option Sampler) :
    (img.texturePixels maps).length = (img.textureDesc sampler).dataLen.toNat := by
  unfold Image.texturePixels Image.textureDesc
  cases hpixels : img.pixels with
  | none => rfl
  | some p => exact Ptr.load_length _ _ _

/-- The bytes that the descriptors of some textures declare. -/
private theorem texturePixels_all (maps : Maps) (imgs : List (Image × Option Sampler)) :
    (imgs.flatMap fun t => t.1.texturePixels maps).length =
      ((imgs.map fun t => t.1.textureDesc t.2).map (·.dataLen.toNat)).sum := by
  induction imgs with
  | nil => rfl
  | cons t imgs ih =>
    rw [List.flatMap_cons, List.length_append, ih, texturePixels_one maps t.1 t.2, List.map_cons, List.map_cons,
      List.sum_cons]

/-- Descriptors that are accepted declare the bytes that there are. -/
private theorem sum_textureBytes_of_accepted {maxBytes : Nat} {imgs : List (Image × Option Sampler)}
    (h : ∀ td ∈ imgs.map fun t => t.1.textureDesc t.2, td.Accepted maxBytes) :
    ((imgs.map fun t => t.1.textureDesc t.2).map (·.dataLen.toNat)).sum =
      (imgs.map fun t => t.1.textureBytes).sum := by
  rw [List.map_map]
  refine congrArg List.sum (List.map_congr_left fun t ht => ?_)
  exact (textureBytes_of_accepted (h _ (List.mem_map_of_mem ht))).symm

/-- Textures that are short enough together are not cut. -/
theorem texturePixels_length (maps : Maps) (imgs : List (Image × Option Sampler))
    (h : (imgs.map fun t => t.1.textureBytes).sum < 2 ^ 32) :
    (texturePixels maps imgs).items.length = (imgs.map fun t => t.1.textureBytes).sum ∧
      ((imgs.map fun t => t.1.textureDesc t.2).map (·.dataLen.toNat)).sum =
      (imgs.map fun t => t.1.textureBytes).sum := by
  have hsum : ((imgs.map fun t => t.1.textureDesc t.2).map (·.dataLen.toNat)).sum =
      (imgs.map fun t => t.1.textureBytes).sum := by
    rw [List.map_map]
    refine congrArg List.sum (List.map_congr_left fun t ht => textureDesc_dataLen t.2 ?_)
    exact Nat.lt_of_le_of_lt (List.le_sum_of_mem (List.mem_map_of_mem (f := fun t => t.1.textureBytes) ht)) h
  refine ⟨?_, hsum⟩
  simp only [texturePixels]
  rw [List.length_take, texturePixels_all, hsum, UInt32.toNat_ofNat_of_lt' h, Nat.min_self]

/-! ### Uniform buffers -/

private theorem mem_forwardedUbos {ds : DescriptorSet} {maps : Maps} {u : ForwardedUbo} :
    u ∈ ds.forwardedUbos maps ↔ ∃ e ∈ ds.ubos.entries, ∃ ptr n, e.2.bound = some (ptr, n) ∧
      u = { data := ptr.load maps n, binding := e.1 } := by
  unfold DescriptorSet.forwardedUbos
  rw [List.mem_filterMap]
  constructor
  · rintro ⟨e, he, hu⟩
    obtain ⟨r, hr, rfl⟩ := Option.map_eq_some_iff.1 hu
    exact ⟨e, he, r.1, r.2, hr, rfl⟩
  · rintro ⟨e, he, ptr, n, hbound, rfl⟩
    exact ⟨e, he, by rw [hbound]; rfl⟩

private theorem uboBytes_forwardedUbos (ds : DescriptorSet) (maps : Maps) :
    ((ds.forwardedUbos maps).map fun u => 8 + u.data.items.length).sum = ds.uboBytes := by
  unfold DescriptorSet.forwardedUbos DescriptorSet.uboBytes
  rw [List.map_filterMap]
  refine congrArg List.sum (List.filterMap_congr fun e _ => ?_)
  cases e.2.bound with
  | none => rfl
  | some r => exact congrArg (fun n => some (8 + n)) (Ptr.load_length maps r.1 r.2)

theorem uboBytes_le (ds : DescriptorSet) : ds.uboBytes ≤ 8 * 65544 := by
  have hrecord : ∀ n ∈ ds.ubos.entries.filterMap fun e => e.2.bound.map fun r => 8 + r.2.toNat, n ≤ 65544 := by
    intro n hn
    obtain ⟨e, -, he⟩ := List.mem_filterMap.1 hn
    obtain ⟨r, hr, rfl⟩ := Option.map_eq_some_iff.1 he
    have hle := (DescUbo.bound_len hr).2
    omega
  have hsum := List.sum_le_card_nsmul _ _ hrecord
  rw [smul_eq_mul] at hsum
  have hcount := Nat.le_trans (List.length_filterMap_le (fun e => e.2.bound.map fun r => 8 + r.2.toNat) _) ds.ubos.le
  exact Nat.le_trans hsum (Nat.mul_le_mul_right _ hcount)

/-- Every binding is forwarded once. -/
private theorem forwardedUbos_nodup (ds : DescriptorSet) (maps : Maps) :
    ((ds.forwardedUbos maps).map (·.binding)).Nodup := by
  have hsub : ((ds.forwardedUbos maps).map (·.binding)).Sublist (ds.ubos.entries.map Prod.fst) := by
    unfold DescriptorSet.forwardedUbos
    induction ds.ubos.entries with
    | nil => exact List.Sublist.slnil
    | cons e l ih =>
      rw [List.filterMap_cons, List.map_cons]
      cases hbound : e.2.bound with
      | none =>
        simp only [Option.map_none]
        exact ih.cons _
      | some r =>
        simp only [Option.map_some, List.map_cons]
        exact ih.cons_cons _
  exact hsub.nodup ds.ubos.nodup

/-! ### Storage buffers -/

private theorem ssboBound_pos (ds : DescriptorSet) : 0 < boundLen ds.ssboBound ↔ ds.ssboBound.isSome := by
  unfold boundLen
  cases hbound : ds.ssboBound with
  | none => exact ⟨fun h => absurd h (Nat.lt_irrefl 0), fun h => absurd h Bool.false_ne_true⟩
  | some r => exact ⟨fun _ => rfl, fun _ => (DescriptorSet.ssboBound_len hbound).1⟩

private theorem ssboBound_le (ds : DescriptorSet) : boundLen ds.ssboBound ≤ MAX_SSBO_BYTES := by
  unfold boundLen
  cases hbound : ds.ssboBound with
  | none => exact Nat.zero_le _
  | some r => exact (DescriptorSet.ssboBound_len hbound).2

/-! ### The command list -/

section Cmdlist

variable {maps : Maps} {ds : DescriptorSet} {cmd : CmdBuffer} {p : Pipeline} {vs fs : PipelineStage} {img : Image}
  {vdata idata : Counted UInt8}

private theorem cmdlistArgs_ssbo_length :
    (cmdlistArgs maps ds cmd p vs fs img vdata idata).ssbo.items.length = boundLen ds.ssboBound := by
  simp only [cmdlistArgs]
  unfold boundLen
  cases ds.ssboBound with
  | none => rfl
  | some r => exact Ptr.load_length maps r.1 r.2

private theorem cmdlistArgs_ssboBinding (h : ds.ssboBound.isSome) :
    (cmdlistArgs maps ds cmd p vs fs img vdata idata).ssboBinding = ds.ssboBinding := if_pos h

private theorem cmdlistArgs_texs_length :
    (cmdlistArgs maps ds cmd p vs fs img vdata idata).texs.items.length = ds.textureImages.length := List.length_map _

theorem cmdlistArgs_uboBytes : (cmdlistArgs maps ds cmd p vs fs img vdata idata).uboBytes = ds.uboBytes :=
  uboBytes_forwardedUbos ds maps

/-- What is in front of the pixels has the lengths that were added up. -/
theorem cmdlistArgs_headBytes (hv : cmd.vertexData maps p = .ok vdata) (hi : cmd.indexData maps = .ok idata) :
    (cmdlistArgs maps ds cmd p vs fs img vdata idata).headBytes + ds.textureBytes = cmdlistBytes ds cmd p vs fs := by
  have hbytes := (cmdlistArgs maps ds cmd p vs fs img vdata idata).bytes_length
  have hhead := (cmdlistArgs maps ds cmd p vs fs img vdata idata).bytes_eq_headBytes
  have hpush : (cmdlistArgs maps ds cmd p vs fs img vdata idata).pushConst.items.length = cmd.pushConstLen.toNat := by
    have hle := cmd.pushConstLen_le
    simp only [cmdlistArgs, List.length_take, cmd.pushConst_length]
    omega
  have hdraws : (cmdlistArgs maps ds cmd p vs fs img vdata idata).draws.items.length = cmd.draws.length :=
    List.length_map _
  have hvdata : (cmdlistArgs maps ds cmd p vs fs img vdata idata).vertexData.items.length = cmd.vertexLen p :=
    vertexData_length hv
  have hidata : (cmdlistArgs maps ds cmd p vs fs img vdata idata).indexData.items.length = cmd.indexLen :=
    indexData_length hi
  have hvspirv : (cmdlistArgs maps ds cmd p vs fs img vdata idata).vspirv.items.length = vs.spirv.length := rfl
  have hfspirv : (cmdlistArgs maps ds cmd p vs fs img vdata idata).fspirv.items.length = fs.spirv.length := rfl
  have hventry : (cmdlistArgs maps ds cmd p vs fs img vdata idata).vertexEntry.chars = vs.entrypoint.chars := rfl
  have hfentry : (cmdlistArgs maps ds cmd p vs fs img vdata idata).fragmentEntry.chars = fs.entrypoint.chars := rfl
  have hattrs : (cmdlistArgs maps ds cmd p vs fs img vdata idata).attrs.items.length = p.attrs.length := rfl
  rw [cmdlistArgs_texs_length, cmdlistArgs_uboBytes, cmdlistArgs_ssbo_length, hpush, hdraws, hvdata, hidata, hvspirv,
    hfspirv, hventry, hfentry, hattrs] at hbytes
  unfold cmdlistBytes stageBytes
  omega

/-- The uniforms of the command list, by their slots. -/
private theorem mem_uniforms {u : OwnedUniform} :
    u ∈ (cmdlistArgs maps ds cmd p vs fs img vdata idata).uniforms ↔ ∃ e ∈ ds.ubos.entries, ∃ ptr n,
      e.2.bound = some (ptr, n) ∧ u = { binding := e.1, bytes := (ptr.load maps n).items } := by
  unfold CmdlistArgs.uniforms
  rw [List.mem_map]
  constructor
  · rintro ⟨f, hf, rfl⟩
    obtain ⟨e, he, ptr, n, hbound, rfl⟩ := mem_forwardedUbos.1 hf
    exact ⟨e, he, ptr, n, hbound, rfl⟩
  · rintro ⟨e, he, ptr, n, hbound, rfl⟩
    exact ⟨_, mem_forwardedUbos.2 ⟨e, he, ptr, n, hbound, rfl⟩, rfl⟩

/-- A command list that is accepted keeps the limits. -/
theorem limits_of_accepted {maxBytes : Nat} (hv : cmd.vertexData maps p = .ok vdata)
    (hacc : (cmdlistArgs maps ds cmd p vs fs img vdata idata).Accepted maxBytes)
    (hbytes : cmdlistBytes ds cmd p vs fs < 2 ^ 32) : CmdlistLimits ds cmd p vs fs where
  bytes := hbytes
  vertices := vertexData_length hv ▸ hacc.vertices
  textures := by
    intro t ht hpixels
    have htex := hacc.texs _ (List.mem_map_of_mem ht)
    have hsize := And.intro htex.width htex.height
    unfold Image.textureDesc at hsize
    rw [if_pos hpixels] at hsize
    exact hsize
  texBinding := hacc.texBinding_le
  ubos := by
    intro e he hsome
    obtain ⟨⟨ptr, n⟩, hbound⟩ := Option.isSome_iff_exists.1 hsome
    have hubo := hacc.ubos _ (mem_uniforms.2 ⟨e, he, ptr, n, hbound, rfl⟩)
    rw [cmdlistArgs_texs_length, cmdlistArgs_ssbo_length] at hubo
    refine ⟨hubo.binding_le, hubo.texture, fun hstorage => ?_⟩
    have hne := hubo.storage ((ssboBound_pos ds).2 hstorage)
    rw [cmdlistArgs_ssboBinding hstorage] at hne
    exact hne
  ssbo := by
    intro hstorage
    have hle := hacc.ssboBinding_le
    have hclear := hacc.ssbo_clear
    rw [cmdlistArgs_ssboBinding hstorage] at hle hclear
    rw [cmdlistArgs_ssbo_length, cmdlistArgs_texs_length] at hclear
    exact ⟨hle, hclear ((ssboBound_pos ds).2 hstorage)⟩

/-- The textures of a command list that is accepted are not cut. -/
theorem textureBytes_of_cmdlist_accepted {maxBytes : Nat}
    (hacc : (cmdlistArgs maps ds cmd p vs fs img vdata idata).Accepted maxBytes) :
    ((cmdlistArgs maps ds cmd p vs fs img vdata idata).texs.items.map (·.dataLen.toNat)).sum = ds.textureBytes ∧
      (cmdlistArgs maps ds cmd p vs fs img vdata idata).texpix.items.length = ds.textureBytes := by
  have hpix := hacc.texpix
  have hsum : ((cmdlistArgs maps ds cmd p vs fs img vdata idata).texs.items.map (·.dataLen.toNat)).sum =
      ds.textureBytes := sum_textureBytes_of_accepted hacc.texs
  have hlt := (cmdlistArgs maps ds cmd p vs fs img vdata idata).texpix.lt
  rw [hsum] at hpix
  exact ⟨hsum, (texturePixels_length maps ds.textureImages (Nat.lt_of_le_of_lt hpix hlt)).1⟩

/-- The storage buffer of a bound set that keeps the limits. -/
private theorem ssbo_of_limits (hlimits : CmdlistLimits ds cmd p vs fs) :
    (cmdlistArgs maps ds cmd p vs fs img vdata idata).ssboBinding ≤ 65535 ∧
      (0 < (cmdlistArgs maps ds cmd p vs fs img vdata idata).ssbo.items.length →
        inTexRange (cmdlistArgs maps ds cmd p vs fs img vdata idata).texs.items.length
          (cmdlistArgs maps ds cmd p vs fs img vdata idata).texBinding
          (cmdlistArgs maps ds cmd p vs fs img vdata idata).ssboBinding = false) := by
  constructor
  · by_cases hsome : ds.ssboBound.isSome
    · rw [cmdlistArgs_ssboBinding hsome]
      exact (hlimits.ssbo hsome).1
    · have hzero : (cmdlistArgs maps ds cmd p vs fs img vdata idata).ssboBinding = 0 := if_neg hsome
      rw [hzero]
      decide
  · rw [cmdlistArgs_ssbo_length, cmdlistArgs_texs_length, ssboBound_pos]
    intro hsome
    rw [cmdlistArgs_ssboBinding hsome]
    exact (hlimits.ssbo hsome).2

/-- The uniforms of a bound set that keeps the limits. -/
private theorem ubos_of_limits (hlimits : CmdlistLimits ds cmd p vs fs) :
    ∀ u ∈ (cmdlistArgs maps ds cmd p vs fs img vdata idata).uniforms,
      u.Accepted (cmdlistArgs maps ds cmd p vs fs img vdata idata).texs.items.length
        (cmdlistArgs maps ds cmd p vs fs img vdata idata).texBinding
        (cmdlistArgs maps ds cmd p vs fs img vdata idata).ssbo.items.length
        (cmdlistArgs maps ds cmd p vs fs img vdata idata).ssboBinding := by
  intro u hu
  obtain ⟨e, he, ptr, n, hbound, rfl⟩ := mem_uniforms.1 hu
  obtain ⟨hbinding, htex, hstorage⟩ := hlimits.ubos e he (by rw [hbound]; rfl)
  rw [cmdlistArgs_ssbo_length, cmdlistArgs_texs_length]
  refine ⟨hbinding, ?_, htex, fun hpos => ?_⟩
  · rw [Ptr.load_length]
    exact (DescUbo.bound_len hbound).2
  · have hsome := (ssboBound_pos ds).1 hpos
    rw [cmdlistArgs_ssboBinding hsome]
    exact hstorage hsome

/-- The indices that are read are whole ones. -/
private theorem indices_dvd (hi : cmd.indexData maps = .ok idata) :
    (if cmd.indexType == Infinigpu.IndexType.u32 then 4 else 2) ∣ idata.items.length := by
  have hidata : idata.items.length = cmd.indexLen := indexData_length hi
  have hdvd := indexStride_dvd cmd
  rw [← hidata] at hdvd
  unfold CmdBuffer.indexStride at hdvd
  by_cases hu32 : cmd.indexType = Infinigpu.IndexType.u32
  · rw [if_pos hu32] at hdvd
    rw [if_pos (beq_iff_eq.2 hu32)]
    exact hdvd
  · rw [if_neg hu32] at hdvd
    rw [if_neg fun h => hu32 (beq_iff_eq.1 h)]
    exact hdvd

/-- What is not degenerate has draws, and vertices exactly with a stride. -/
private theorem draws_of_not_degenerate
    (hdraw : ¬ (cmdlistArgs maps ds cmd p vs fs img vdata idata).Degenerate) :
    cmd.draws.length ≠ 0 ∧ (p.vertexStride = 0 ↔ vdata.items = []) := by
  constructor
  · intro h0
    refine hdraw (.inl ((Counted.count_eq_zero _).2 ?_))
    show cmd.draws.map Draw.wire = []
    rw [List.length_eq_zero_iff.1 h0]
    rfl
  · rw [← Counted.count_eq_zero]
    by_contra hne
    exact hdraw (.inr fun heq => hne (iff_of_eq heq))

/-- A command list that the guest takes and that keeps the limits is accepted. -/
theorem accepted_of_limits {maxBytes : Nat} (hv : cmd.vertexData maps p = .ok vdata)
    (hi : cmd.indexData maps = .ok idata) (hdraw : ¬ (cmdlistArgs maps ds cmd p vs fs img vdata idata).Degenerate)
    (hvmagic : vs.spirv.head? = some SPIRV_MAGIC) (hfmagic : fs.spirv.head? = some SPIRV_MAGIC)
    (hlen : cmdlistBytes ds cmd p vs fs ≤ maxBytes) (hventry : vs.entrypoint.chars.length ≤ 255)
    (hfentry : fs.entrypoint.chars.length ≤ 255) (hlimits : CmdlistLimits ds cmd p vs fs) :
    (cmdlistArgs maps ds cmd p vs fs img vdata idata).Accepted maxBytes := by
  have hparts := hlen
  unfold cmdlistBytes stageBytes at hparts
  have hbytes : ds.textureBytes < 2 ^ 32 := by
    have hlt := hlimits.bytes
    unfold cmdlistBytes at hlt
    omega
  have hvdata : vdata.items.length = cmd.vertexLen p := vertexData_length hv
  have hidata : idata.items.length = cmd.indexLen := indexData_length hi
  obtain ⟨hdraws, hbufferless⟩ := draws_of_not_degenerate hdraw
  obtain ⟨hpix, hpixsum⟩ := texturePixels_length maps ds.textureImages hbytes
  have hone : ∀ t ∈ ds.textureImages, t.1.textureBytes ≤ ds.textureBytes := fun t ht =>
    List.le_sum_of_mem (List.mem_map_of_mem (f := fun t : Image × Option Sampler => t.1.textureBytes) ht)
  have hpushLen := cmd.pushConstLen_le
  have hdrawsLe := cmd.draws_le
  have hattrsLe := p.attrs_le
  have hubosLe := ds.forwardedUbos_length_le maps
  have hpush : (cmdlistArgs maps ds cmd p vs fs img vdata idata).pushConst.items.length ≤ cmd.pushConstLen.toNat :=
    List.length_take_le _ _
  simp only [MAX_DRAWS, MAX_ATTRS, MAX_SET_UBOS, MAX_PUSH_CONST] at hdrawsLe hattrsLe hubosLe hpushLen
  have hdrawsLen : (cmdlistArgs maps ds cmd p vs fs img vdata idata).draws.items.length = cmd.draws.length :=
    List.length_map _
  exact
    { vmagic := hvmagic
      fmagic := hfmagic
      vspirv_le := show vs.spirv.length * 4 ≤ maxBytes by omega
      fspirv_le := show fs.spirv.length * 4 ≤ maxBytes by omega
      vertexEntry_le := show vs.entrypoint.chars.length + 1 ≤ 256 by omega
      fragmentEntry_le := show fs.entrypoint.chars.length + 1 ≤ 256 by omega
      draws_pos := by omega
      draws_le := by omega
      attrs_le := show p.attrs.length ≤ 32 by omega
      vertexData_le := show vdata.items.length ≤ maxBytes by omega
      indexData_le := show idata.items.length ≤ maxBytes by omega
      pushConst_le := by omega
      texs_le := by
        rw [cmdlistArgs_texs_length]
        exact ds.textureImages_length_le
      texBinding_le := hlimits.texBinding
      ubos_le := show (ds.forwardedUbos maps).length ≤ 16 by omega
      ssboBinding_le := (ssbo_of_limits hlimits).1
      ssbo_le := by
        rw [cmdlistArgs_ssbo_length]
        exact ssboBound_le ds
      ssbo_clear := (ssbo_of_limits hlimits).2
      bufferless := hbufferless
      vertices := show p.vertexStride.toNat ∣ vdata.items.length from hvdata ▸ hlimits.vertices
      indices := indices_dvd hi
      ubos := ubos_of_limits hlimits
      ubos_distinct := by
        have hnodup := forwardedUbos_nodup ds maps
        unfold CmdlistArgs.uniforms
        rw [List.map_map]
        exact hnodup
      texs := by
        intro td htd
        obtain ⟨t, ht, rfl⟩ := List.mem_map.1 htd
        have hle := hone t ht
        exact textureDesc_accepted (by omega) (by omega) (by omega) (hlimits.textures t ht)
      texpix := by
        show ((ds.textureImages.map fun t => t.1.textureDesc t.2).map (·.dataLen.toNat)).sum ≤
          (texturePixels maps ds.textureImages).items.length
        rw [hpix, hpixsum] }

end Cmdlist

end Infinigpu.Icd
