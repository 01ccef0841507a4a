import Infinigpu.Device.Forwarded
import Infinigpu.Lib.Parts
import Mathlib.Algebra.Group.Action.Defs
import Mathlib.Algebra.Order.BigOperators.Group.List
import Mathlib.Algebra.Order.Ring.Nat

/-!
# Sections of a command list (`infinigpu-device`, `decode_forwarded_cmdlist`)

The bytes after the tail are cut into sections whose lengths the tail declares (`Sections`).  A payload is refused for
its length or its tail (`decodeForwardedCmdlist_eq`), or its sections are decoded one by one (`decodeSections_bytes`).
-/

namespace Infinigpu

/-! ### Sections -/

/-- The sections after the tail of a command list, in wire order; the texture pixels are all that is left. -/
@[ext] structure Sections where
  attrs : List UInt8
  draws : List UInt8
  texs : List UInt8
  vspirv : List UInt8
  fspirv : List UInt8
  vdata : List UInt8
  idata : List UInt8
  ventry : List UInt8
  fentry : List UInt8
  pushConst : List UInt8
  ubo : List UInt8
  ssbo : List UInt8
  pixels : List UInt8

namespace Sections

/-- The sections whose length is in the tail. -/
def parts (s : Sections) : List (List UInt8) :=
  [s.attrs, s.draws, s.texs, s.vspirv, s.fspirv, s.vdata, s.idata, s.ventry, s.fentry, s.pushConst, s.ubo, s.ssbo]

def bytes (s : Sections) : List UInt8 := s.parts.flatten ++ s.pixels

end Sections

/-- The lengths of the sections that a tail declares. -/
def ForwardedCmdListTail.lengths (tail : ForwardedCmdListTail) : List Nat :=
  [tail.attrCount.toNat * 12, tail.drawCount.toNat * 32, tail.texCount.toNat * 16, tail.vertexSpirvLen.toNat,
    tail.fragmentSpirvLen.toNat, tail.vertexDataLen.toNat, tail.indexDataLen.toNat, tail.vertexEntryLen.toNat,
    tail.fragmentEntryLen.toNat, tail.pushConstLen.toNat, tail.uboLen.toNat, tail.ssboLen.toNat]

/-- Sections with the lengths that the tail declares. -/
def Sections.Match (s : Sections) (tail : ForwardedCmdListTail) : Prop := s.parts.map List.length = tail.lengths

/-- Any bytes are sections with the declared lengths, if there are enough of them. -/
theorem exists_sections {tail : ForwardedCmdListTail} {rest : List UInt8} (h : tail.lengths.sum ≤ rest.length) :
    ∃ s : Sections, s.Match tail ∧ s.bytes = rest := by
  have hlengths := Bytes.cut_lengths h
  have hbytes := Bytes.cut_flatten tail.lengths rest
  exact ⟨⟨_, _, _, _, _, _, _, _, _, _, _, _, _⟩, hlengths, hbytes⟩

/-- The draw that the sections make, once their parts have been read. -/
def drawOf (tail : ForwardedCmdListTail) (s : Sections) (attrs : List VertexAttr) (draws : List DrawCmd)
    (textures : List OwnedTexture) (uniforms : List OwnedUniform) (vertexEntry fragmentEntry : List UInt8) :
    OwnedForwardedDraw where
  vertexSpirv := toWords s.vspirv
  fragmentSpirv := toWords s.fspirv
  vertexEntry
  fragmentEntry
  vertexCount := 0
  topology := tail.topology
  geometry := some
    { vertexData := s.vdata
      vertexStride := tail.vertexStride
      attrs
      indexData := s.idata
      indexU32 := tail.indexType == IndexType.u32
      draws
      depth := unpackDepth tail.depthFlags
      pushConstants := s.pushConst
      textures
      texBinding := tail.texBinding
      uniforms
      storage := if tail.ssboLen.toNat > 0 then some { binding := tail.ssboBinding, bytes := s.ssbo } else none
      rasterFlags := tail.rasterFlags }

/-- `decodeSections` on sections that have been cut. -/
def decodeParts (tail : ForwardedCmdListTail) (s : Sections) (maxBytes : Nat) : Option OwnedForwardedDraw :=
  match readArray 12 VertexAttr.decode tail.attrCount.toNat s.attrs,
      readArray 32 DrawCmd.decode tail.drawCount.toNat s.draws with
  | some attrs, some draws =>
    if (toWords s.vspirv).head? ≠ some SPIRV_MAGIC ∨ (toWords s.fspirv).head? ≠ some SPIRV_MAGIC then
      none
    else if ¬ (if tail.indexType == IndexType.u32 then 4 else 2) ∣ tail.indexDataLen.toNat then
      none
    else
      match readTextures maxBytes tail.texCount.toNat s.texs s.pixels,
          readUniforms tail.texCount.toNat tail.texBinding tail.ssboLen.toNat tail.ssboBinding tail.uboCount.toNat
            s.ubo [],
          cstr s.ventry, cstr s.fentry with
      | some textures, some uniforms, some vertexEntry, some fragmentEntry =>
        some (drawOf tail s attrs draws textures uniforms vertexEntry fragmentEntry)
      | _, _, _, _ => none
  | _, _ => none

/-- The parts of sections that decode to a draw. -/
structure DecodedParts (tail : ForwardedCmdListTail) (s : Sections) (maxBytes : Nat) (attrs : List VertexAttr)
    (draws : List DrawCmd) (textures : List OwnedTexture) (uniforms : List OwnedUniform)
    (vertexEntry fragmentEntry : List UInt8) : Prop where
  attrs : readArray 12 VertexAttr.decode tail.attrCount.toNat s.attrs = some attrs
  draws : readArray 32 DrawCmd.decode tail.drawCount.toNat s.draws = some draws
  vmagic : (toWords s.vspirv).head? = some SPIRV_MAGIC
  fmagic : (toWords s.fspirv).head? = some SPIRV_MAGIC
  indices : (if tail.indexType == IndexType.u32 then 4 else 2) ∣ tail.indexDataLen.toNat
  textures : readTextures maxBytes tail.texCount.toNat s.texs s.pixels = some textures
  uniforms : readUniforms tail.texCount.toNat tail.texBinding tail.ssboLen.toNat tail.ssboBinding
    tail.uboCount.toNat s.ubo [] = some uniforms
  ventry : cstr s.ventry = some vertexEntry
  fentry : cstr s.fentry = some fragmentEntry

theorem decodeParts_eq_some_iff {tail : ForwardedCmdListTail} {s : Sections} {maxBytes : Nat}
    {draw : OwnedForwardedDraw} : decodeParts tail s maxBytes = some draw ↔
      ∃ attrs draws textures uniforms vertexEntry fragmentEntry,
        DecodedParts tail s maxBytes attrs draws textures uniforms vertexEntry fragmentEntry ∧
          draw = drawOf tail s attrs draws textures uniforms vertexEntry fragmentEntry := by
  constructor
  · intro h
    rw [decodeParts] at h
    cases hattrs : readArray 12 VertexAttr.decode tail.attrCount.toNat s.attrs with
    | none =>
      rw [hattrs] at h
      cases h
    | some attrs =>
    cases hdraws : readArray 32 DrawCmd.decode tail.drawCount.toNat s.draws with
    | none =>
      rw [hattrs, hdraws] at h
      cases h
    | some draws =>
    rw [hattrs, hdraws] at h
    simp only at h
    by_cases hmagic : (toWords s.vspirv).head? ≠ some SPIRV_MAGIC ∨ (toWords s.fspirv).head? ≠ some SPIRV_MAGIC
    · rw [if_pos hmagic] at h
      cases h
    rw [if_neg hmagic] at h
    by_cases hindex : ¬ (if tail.indexType == IndexType.u32 then 4 else 2) ∣ tail.indexDataLen.toNat
    · rw [if_pos hindex] at h
      cases h
    rw [if_neg hindex] at h
    cases htextures : readTextures maxBytes tail.texCount.toNat s.texs s.pixels with
    | none =>
      rw [htextures] at h
      cases h
    | some textures =>
    cases huniforms : readUniforms tail.texCount.toNat tail.texBinding tail.ssboLen.toNat tail.ssboBinding
        tail.uboCount.toNat s.ubo [] with
    | none =>
      rw [htextures, huniforms] at h
      cases h
    | some uniforms =>
    cases hventry : cstr s.ventry with
    | none =>
      rw [htextures, huniforms, hventry] at h
      cases h
    | some vertexEntry =>
    cases hfentry : cstr s.fentry with
    | none =>
      rw [htextures, huniforms, hventry, hfentry] at h
      cases h
    | some fragmentEntry =>
    rw [htextures, huniforms, hventry, hfentry, Option.some_inj] at h
    rw [not_or, not_not, not_not] at hmagic
    exact ⟨attrs, draws, textures, uniforms, vertexEntry, fragmentEntry,
      ⟨hattrs, hdraws, hmagic.1, hmagic.2, not_not.1 hindex, htextures, huniforms, hventry, hfentry⟩, h.symm⟩
  · rintro ⟨attrs, draws, textures, uniforms, vertexEntry, fragmentEntry, h, rfl⟩
    have hmagic : ¬ ((toWords s.vspirv).head? ≠ some SPIRV_MAGIC ∨ (toWords s.fspirv).head? ≠ some SPIRV_MAGIC) :=
      fun hne => hne.elim (· h.vmagic) (· h.fmagic)
    simp only [decodeParts, h.attrs, h.draws, hmagic, h.indices, h.textures, h.uniforms, h.ventry, h.fentry,
      not_true, if_false]

/-- Cutting the sections apart and decoding them. -/
theorem decodeSections_bytes {tail : ForwardedCmdListTail} {s : Sections} (h : s.Match tail) (maxBytes : Nat) :
    decodeSections tail s.bytes maxBytes = decodeParts tail s maxBytes := by
  have hcut := Bytes.cut_append s.parts s.pixels
  have hbytes : s.parts.flatten ++ s.pixels = s.bytes := rfl
  rw [h, hbytes] at hcut
  simp only [ForwardedCmdListTail.lengths, Bytes.cut, Sections.parts, Prod.mk.injEq, List.cons.injEq,
    and_true] at hcut
  obtain ⟨⟨h₁, h₂, h₃, h₄, h₅, h₆, h₇, h₈, h₉, h₁₀, h₁₁, h₁₂⟩, hpixels⟩ := hcut
  simp only [decodeSections, List.splitAt_eq, h₁, h₂, h₃, h₄, h₅, h₆, h₇, h₈, h₉, h₁₀, h₁₁, h₁₂, hpixels]
  rfl

/-- The bytes of a record of the uniform block. -/
def OwnedUniform.record (u : OwnedUniform) : List UInt8 :=
  Bytes.ofWords [u.binding, UInt32.ofNat u.bytes.length] ++ u.bytes

/-! ### The tail -/

/-- The tails that are refused whatever follows them. -/
def BadTail (tail : ForwardedCmdListTail) (maxBytes : Nat) : Prop :=
  badCmdList tail maxBytes ∨
    (tail.ssboLen > 0 ∧ inTexRange tail.texCount.toNat tail.texBinding tail.ssboBinding) ∨
    (tail.vertexStride = 0) ≠ (tail.vertexDataLen.toNat = 0) ∨
    (tail.vertexStride ≠ 0 ∧ ¬ tail.vertexStride.toNat ∣ tail.vertexDataLen.toNat)

instance (tail : ForwardedCmdListTail) (maxBytes : Nat) : Decidable (BadTail tail maxBytes) := by
  unfold BadTail; infer_instance

theorem checkedSum_eq {ns : List Nat} {acc : Nat} (h : acc + ns.sum < 2 ^ 64) :
    checkedSum ns acc = some (acc + ns.sum) := by
  induction ns generalizing acc with
  | nil => rfl
  | cons n ns ih =>
    rw [List.sum_cons] at h ⊢
    rw [checkedSum, if_pos (by omega), ih (by omega), Nat.add_assoc]

/-- The sections are far too short for their sum to overflow. -/
private theorem lengths_sum_lt (tail : ForwardedCmdListTail) : tail.lengths.sum < 2 ^ 64 := by
  have hword (x : UInt32) : x.toNat < 2 ^ 32 := x.toNat_lt
  have hle : ∀ n ∈ tail.lengths, n ≤ 2 ^ 37 := by
    have h₁ := hword tail.attrCount
    have h₂ := hword tail.drawCount
    have h₃ := hword tail.texCount
    have hplain (x : UInt32) : x.toNat ≤ 2 ^ 37 := Nat.le_of_lt (Nat.lt_trans (hword x) (by decide))
    simp only [ForwardedCmdListTail.lengths, List.forall_mem_cons, hplain, true_and]
    exact ⟨by omega, by omega, by omega, fun n hn => absurd hn List.not_mem_nil⟩
  have hsum := List.sum_le_card_nsmul _ _ hle
  have hlength : tail.lengths.length = 12 := rfl
  rw [smul_eq_mul, hlength] at hsum
  omega

/-- None of the `checked_mul` and `checked_add` fails. -/
theorem checked_total (tail : ForwardedCmdListTail) :
    checkedMul tail.attrCount.toNat 12 = some (tail.attrCount.toNat * 12) ∧
      checkedMul tail.drawCount.toNat 32 = some (tail.drawCount.toNat * 32) ∧
      checkedMul tail.texCount.toNat 16 = some (tail.texCount.toNat * 16) ∧
      checkedSum tail.lengths.tail (tail.attrCount.toNat * 12) = some tail.lengths.sum := by
  have h₁ := tail.attrCount.toNat_lt
  have h₂ := tail.drawCount.toNat_lt
  have h₃ := tail.texCount.toNat_lt
  have hsum : tail.lengths.sum = tail.attrCount.toNat * 12 + tail.lengths.tail.sum := List.sum_cons
  have hlt := lengths_sum_lt tail
  refine ⟨if_pos (by omega), if_pos (by omega), if_pos (by omega), ?_⟩
  rw [hsum] at hlt ⊢
  exact checkedSum_eq hlt

/-- The tail of a payload. -/
def tailOf (payload : List UInt8) : ForwardedCmdListTail := .decode (Bytes.slice payload VulkanWorkload.size 80)

/-- A payload is refused for its length or its tail, or its sections are decoded. -/
theorem decodeForwardedCmdlist_eq (payload : List UInt8) (maxBytes : Nat) :
    decodeForwardedCmdlist payload maxBytes =
      if payload.length < 120 ∨ BadTail (tailOf payload) maxBytes ∨
          (tailOf payload).lengths.sum > (payload.drop 120).length then
        none
      else
        decodeSections (tailOf payload) (payload.drop 120) maxBytes := by
  have hsize : VulkanWorkload.size = 40 := rfl
  have hrefuse : ∀ {P : Prop} [Decidable P] {r : Option OwnedForwardedDraw}, P → (if P then none else r) = none :=
    fun h => if_pos h
  unfold decodeForwardedCmdlist
  by_cases hheader : payload.length < VulkanWorkload.size
  · rw [if_pos hheader, hrefuse (.inl (by omega))]
  rw [if_neg hheader]
  by_cases hshort : payload.length < 120
  · have hnone : readFromPrefix 80 ForwardedCmdListTail.decode (payload.drop VulkanWorkload.size) = none := by
      rw [readFromPrefix, if_pos]
      rw [List.length_drop]
      omega
    rw [hnone, hrefuse (.inl hshort)]
  have hread : readFromPrefix 80 ForwardedCmdListTail.decode (payload.drop VulkanWorkload.size) =
      some (tailOf payload, payload.drop 120) := by
    rw [readFromPrefix, if_neg, List.drop_drop]
    · rfl
    · rw [List.length_drop]
      omega
  obtain ⟨hattrs, hdraws, htexs, hsum⟩ := checked_total (tailOf payload)
  rw [hread]
  simp only [hattrs, hdraws, htexs]
  by_cases hbad : badCmdList (tailOf payload) maxBytes
  · rw [if_pos hbad, hrefuse (.inr (.inl (.inl hbad)))]
  by_cases hssbo : (tailOf payload).ssboLen > 0 ∧
      inTexRange (tailOf payload).texCount.toNat (tailOf payload).texBinding (tailOf payload).ssboBinding
  · rw [if_neg hbad, if_pos hssbo, hrefuse (.inr (.inl (.inr (.inl hssbo))))]
  by_cases hmixed : ((tailOf payload).vertexStride = 0) ≠ ((tailOf payload).vertexDataLen.toNat = 0)
  · rw [if_neg hbad, if_neg hssbo, if_pos hmixed, hrefuse (.inr (.inl (.inr (.inr (.inl hmixed)))))]
  by_cases hwhole : (tailOf payload).vertexStride ≠ 0 ∧
      ¬ (tailOf payload).vertexStride.toNat ∣ (tailOf payload).vertexDataLen.toNat
  · rw [if_neg hbad, if_neg hssbo, if_neg hmixed, if_pos hwhole, hrefuse (.inr (.inl (.inr (.inr (.inr hwhole)))))]
  have hgood : ¬ BadTail (tailOf payload) maxBytes := by
    rintro (h | h | h | h)
    · exact hbad h
    · exact hssbo h
    · exact hmixed h
    · exact hwhole h
  rw [if_neg hbad, if_neg hssbo, if_neg hmixed, if_neg hwhole]
  have hlist : [(tailOf payload).drawCount.toNat * 32, (tailOf payload).texCount.toNat * 16,
      (tailOf payload).vertexSpirvLen.toNat, (tailOf payload).fragmentSpirvLen.toNat,
      (tailOf payload).vertexDataLen.toNat, (tailOf payload).indexDataLen.toNat,
      (tailOf payload).vertexEntryLen.toNat, (tailOf payload).fragmentEntryLen.toNat,
      (tailOf payload).pushConstLen.toNat, (tailOf payload).uboLen.toNat, (tailOf payload).ssboLen.toNat] =
      (tailOf payload).lengths.tail := rfl
  rw [hlist, hsum]
  simp only [hshort, hgood, false_or]

/-- A payload decodes to a draw exactly if its tail is accepted and it has the sections of that draw. -/
theorem decodeForwardedCmdlist_eq_some_iff {payload : List UInt8} {maxBytes : Nat} {draw : OwnedForwardedDraw} :
    decodeForwardedCmdlist payload maxBytes = some draw ↔
      120 ≤ payload.length ∧ ¬ BadTail (tailOf payload) maxBytes ∧
        ∃ s : Sections, s.Match (tailOf payload) ∧ s.bytes = payload.drop 120 ∧
          decodeParts (tailOf payload) s maxBytes = some draw := by
  rw [decodeForwardedCmdlist_eq]
  constructor
  · intro h
    by_cases hrefused : payload.length < 120 ∨ BadTail (tailOf payload) maxBytes ∨
        (tailOf payload).lengths.sum > (payload.drop 120).length
    · rw [if_pos hrefused] at h
      cases h
    rw [if_neg hrefused] at h
    simp only [not_or, gt_iff_lt, Nat.not_lt] at hrefused
    obtain ⟨hlength, hgood, hfits⟩ := hrefused
    obtain ⟨s, hmatch, hbytes⟩ := exists_sections hfits
    rw [← hbytes, decodeSections_bytes hmatch] at h
    exact ⟨hlength, hgood, s, hmatch, hbytes, h⟩
  · rintro ⟨hlength, hgood, s, hmatch, hbytes, h⟩
    have hfits : (tailOf payload).lengths.sum ≤ (payload.drop 120).length := by
      rw [← hmatch, ← hbytes, Sections.bytes, List.length_append, List.length_flatten]
      exact Nat.le_add_right _ _
    have haccepted : ¬ (payload.length < 120 ∨ BadTail (tailOf payload) maxBytes ∨
        (tailOf payload).lengths.sum > (payload.drop 120).length) := by
      rintro (hshort | hbad | hlong)
      · omega
      · exact hgood hbad
      · omega
    rw [if_neg haccepted, ← hbytes, decodeSections_bytes hmatch, h]

end Infinigpu
