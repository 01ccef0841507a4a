import Infinigpu.Device.Decoder

/-!
# The command-list decoder on any bytes (`infinigpu-device`, `decode_forwarded_cmdlist`)

`decodeForwardedCmdlistChecked` is the decoder with the slices and the arithmetic that would panic in the source as
errors: none of them occurs (`decodeForwardedCmdlistChecked_eq`).  What a decoded draw is made of is said by `Tiles`
and `WellFormed` (`decodeForwardedCmdlist_sound`).
-/

namespace Infinigpu

/-! ### No slice is out of range -/

/-- `inTexRange`, if the product in it does not overflow. -/
def inTexRangeChecked (texCount : Nat) (texBinding b : UInt32) : Option Bool :=
  if 2 * texCount < 2 ^ 32 then some (inTexRange texCount texBinding b) else none

/-- `readTextures` with its slices checked. -/
def readTexturesChecked (maxBytes : Nat) : Nat → List UInt8 → List UInt8 → Option (Option (List OwnedTexture))
  | 0, _, _ => some (some [])
  | n + 1, texs, pix =>
    match readFromPrefix 16 TextureDesc.decode texs with
    | none => some none
    | some (td, texs) =>
      let dataLen := td.dataLen.toNat
      if td.width = 0 ∨ td.height = 0 then
        some none
      else
        match (checkedMul td.width.toNat td.height.toNat).bind (checkedMul · 4) with
        | none => some none
        | some expect =>
          if dataLen ≠ expect ∨ dataLen > maxBytes ∨ dataLen > pix.length then
            some none
          else
            match Bytes.splitAt? dataLen pix with
            | none => none
            | some (texpix, restPix) =>
              (readTexturesChecked maxBytes n texs restPix).map fun out => out.map fun out =>
                { width := td.width
                  height := td.height
                  rgba := texpix
                  linear := td.samplerFlags &&& SamplerFlags.linear != 0
                  «repeat» := td.samplerFlags &&& SamplerFlags.repeat != 0 } :: out

/-- `readUniforms` with its slices and its product checked. -/
def readUniformsChecked (texCount : Nat) (texBinding : UInt32) (ssboLen : Nat) (ssboBinding : UInt32) :
    Nat → List UInt8 → List OwnedUniform → Option (Option (List OwnedUniform))
  | 0, _, uniforms => some (some uniforms)
  | n + 1, ub, uniforms =>
    if ub.length < 8 then
      some none
    else
      match Bytes.splitAt? 8 ub with
      | none => none
      | some (hdr, ub) =>
        let binding := u32At hdr 0
        let len := (u32At hdr 4).toNat
        match inTexRangeChecked texCount texBinding binding with
        | none => none
        | some inRange =>
          if binding > 65535 ∨ len > 65536 ∨ len > ub.length ∨ inRange ∨ (ssboLen > 0 ∧ binding = ssboBinding) ∨
              uniforms.any (fun u => u.binding == binding) then
            some none
          else
            match Bytes.splitAt? len ub with
            | none => none
            | some (bytes, next) =>
              readUniformsChecked texCount texBinding ssboLen ssboBinding n next
                (uniforms ++ [{ binding, bytes }])

/-- `decodeForwardedCmdlist` with every slice and every product of the source checked: `none` is a panic. -/
def decodeForwardedCmdlistChecked (payload : List UInt8) (maxBytes : Nat) : Option (Option OwnedForwardedDraw) :=
  if payload.length < VulkanWorkload.size then
    some none
  else
    match readFromPrefix 80 ForwardedCmdListTail.decode (payload.drop VulkanWorkload.size) with
    | none => some none
    | some (tail, rest) =>
      if badCmdList tail maxBytes then
        some none
      else
        match inTexRangeChecked tail.texCount.toNat tail.texBinding tail.ssboBinding with
        | none => none
        | some inRange =>
          if (tail.ssboLen > 0 ∧ inRange) ∨ (tail.vertexStride = 0) ≠ (tail.vertexDataLen.toNat = 0) ∨
              (tail.vertexStride ≠ 0 ∧ ¬ tail.vertexStride.toNat ∣ tail.vertexDataLen.toNat) then
            some none
          else
            match checkedMul tail.attrCount.toNat 12, checkedMul tail.drawCount.toNat 32,
                checkedMul tail.texCount.toNat 16 with
            | some attrsBytes, some _, some _ =>
              match checkedSum tail.lengths.tail attrsBytes with
              | none => some none
              | some total =>
                if total > rest.length then
                  some none
                else
                  match Bytes.cut? tail.lengths rest with
                  | some ([attrs, draws, texs, vspirv, fspirv, vdata, idata, ventry, fentry, pushConst, ubo, ssbo],
                      pixels) =>
                    -- the two loops that slice further, then the draw
                    match readTexturesChecked maxBytes tail.texCount.toNat texs pixels,
                        readUniformsChecked tail.texCount.toNat tail.texBinding tail.ssboLen.toNat tail.ssboBinding
                          tail.uboCount.toNat ubo [] with
                    | some _, some _ =>
                      some (decodeParts tail ⟨attrs, draws, texs, vspirv, fspirv, vdata, idata, ventry, fentry,
                        pushConst, ubo, ssbo, pixels⟩ maxBytes)
                    | _, _ => none
                  | _ => none
            | _, _, _ => some none

private theorem readTexturesChecked_eq (maxBytes n : Nat) (texs pix : List UInt8) :
    readTexturesChecked maxBytes n texs pix = some (readTextures maxBytes n texs pix) := by
  induction n generalizing texs pix with
  | zero => rfl
  | succ n ih =>
    rw [readTexturesChecked, readTextures]
    cases readFromPrefix 16 TextureDesc.decode texs with
    | none => rfl
    | some td =>
      simp only
      by_cases hempty : td.1.width = 0 ∨ td.1.height = 0
      · rw [if_pos hempty, if_pos hempty]
      rw [if_neg hempty, if_neg hempty]
      cases (checkedMul td.1.width.toNat td.1.height.toNat).bind (checkedMul · 4) with
      | none => rfl
      | some expect =>
        simp only
        by_cases hlen : td.1.dataLen.toNat ≠ expect ∨ td.1.dataLen.toNat > maxBytes ∨ td.1.dataLen.toNat > pix.length
        · rw [if_pos hlen, if_pos hlen]
        rw [if_neg hlen, if_neg hlen, Bytes.splitAt?_eq (by omega), List.splitAt_eq]
        simp only [ih, Option.map_some]

private theorem inTexRangeChecked_eq {texCount : Nat} (h : texCount ≤ MAX_TEXTURES) (texBinding b : UInt32) :
    inTexRangeChecked texCount texBinding b = some (inTexRange texCount texBinding b) := by
  have hmax : MAX_TEXTURES = 8 := rfl
  exact if_pos (by omega)

private theorem readUniformsChecked_eq {texCount : Nat} (h : texCount ≤ MAX_TEXTURES) (texBinding : UInt32)
    (ssboLen : Nat) (ssboBinding : UInt32) (n : Nat) (ub : List UInt8) (uniforms : List OwnedUniform) :
    readUniformsChecked texCount texBinding ssboLen ssboBinding n ub uniforms =
      some (readUniforms texCount texBinding ssboLen ssboBinding n ub uniforms) := by
  induction n generalizing ub uniforms with
  | zero => rfl
  | succ n ih =>
    rw [readUniformsChecked, readUniforms]
    by_cases hshort : ub.length < 8
    · rw [if_pos hshort, if_pos hshort]
    have hheader : ∀ i, i + 4 ≤ 8 → u32At (ub.take 8) i = u32At ub i := by
      intro i hi
      rw [u32At, u32At, Bytes.slice, Bytes.slice, List.drop_take, List.take_take, Nat.min_eq_left (by omega)]
    rw [if_neg hshort, if_neg hshort, Bytes.splitAt?_eq (by omega), List.splitAt_eq]
    simp only [hheader 0 (by omega), hheader 4 (by omega), inTexRangeChecked_eq h]
    by_cases hbad : u32At ub 0 > 65535 ∨ (u32At ub 4).toNat > 65536 ∨ (u32At ub 4).toNat > (ub.drop 8).length ∨
        inTexRange texCount texBinding (u32At ub 0) ∨ (ssboLen > 0 ∧ u32At ub 0 = ssboBinding) ∨
          uniforms.any (fun u => u.binding == u32At ub 0)
    · rw [if_pos hbad, if_pos hbad]
    · rw [if_neg hbad, if_neg hbad, Bytes.splitAt?_eq (by omega), List.splitAt_eq]
      exact ih _ _

private theorem BadTail.texCount_le {tail : ForwardedCmdListTail} {maxBytes : Nat} (h : ¬ badCmdList tail maxBytes) :
    tail.texCount.toNat ≤ MAX_TEXTURES := by
  simp only [badCmdList, not_or] at h
  omega

/-- The decoder never panics. -/
theorem decodeForwardedCmdlistChecked_eq (payload : List UInt8) (maxBytes : Nat) :
    decodeForwardedCmdlistChecked payload maxBytes = some (decodeForwardedCmdlist payload maxBytes) := by
  have hsize : VulkanWorkload.size = 40 := rfl
  rw [decodeForwardedCmdlist_eq]
  unfold decodeForwardedCmdlistChecked
  by_cases hheader : payload.length < VulkanWorkload.size
  · rw [if_pos hheader, if_pos (.inl (by omega))]
  rw [if_neg hheader]
  by_cases hshort : payload.length < 120
  · have hnone : readFromPrefix 80 ForwardedCmdListTail.decode (payload.drop VulkanWorkload.size) = none := by
      rw [readFromPrefix, if_pos]
      rw [List.length_drop]
      omega
    rw [hnone, if_pos (.inl hshort)]
  have hread : readFromPrefix 80 ForwardedCmdListTail.decode (payload.drop VulkanWorkload.size) =
      some (tailOf payload, payload.drop 120) := by
    rw [readFromPrefix, if_neg, List.drop_drop]
    · rfl
    · rw [List.length_drop]
      omega
  rw [hread]
  simp only
  by_cases hbad : badCmdList (tailOf payload) maxBytes
  · rw [if_pos hbad, if_pos (.inr (.inl (.inl hbad)))]
  rw [if_neg hbad, inTexRangeChecked_eq (BadTail.texCount_le hbad)]
  simp only
  by_cases hmixed : ((tailOf payload).ssboLen > 0 ∧
      inTexRange (tailOf payload).texCount.toNat (tailOf payload).texBinding (tailOf payload).ssboBinding) ∨
      ((tailOf payload).vertexStride = 0) ≠ ((tailOf payload).vertexDataLen.toNat = 0) ∨
      ((tailOf payload).vertexStride ≠ 0 ∧
        ¬ (tailOf payload).vertexStride.toNat ∣ (tailOf payload).vertexDataLen.toNat)
  · rw [if_pos hmixed, if_pos (.inr (.inl (.inr hmixed)))]
  have hgood : ¬ BadTail (tailOf payload) maxBytes := fun h => h.elim hbad hmixed
  obtain ⟨hattrs, hdraws, htexs, hsum⟩ := checked_total (tailOf payload)
  rw [if_neg hmixed]
  simp only [hattrs, hdraws, htexs, hsum, hshort, hgood, false_or]
  by_cases hlong : (tailOf payload).lengths.sum > (payload.drop 120).length
  · rw [if_pos hlong, if_pos hlong]
  rw [if_neg hlong, if_neg hlong]
  obtain ⟨s, hmatch, hbytes⟩ := exists_sections (Nat.le_of_not_lt hlong)
  have hcut : Bytes.cut? (tailOf payload).lengths (payload.drop 120) = some (s.parts, s.pixels) := by
    rw [Bytes.cut?_eq (Nat.le_of_not_lt hlong), ← hbytes, ← hmatch, Sections.bytes, Bytes.cut_append]
  rw [hcut, ← hbytes, decodeSections_bytes hmatch]
  simp only [Sections.parts, readTexturesChecked_eq, readUniformsChecked_eq (BadTail.texCount_le hbad)]

/-! ### What the pieces of the decoder take -/

theorem readArray_length {α : Type*} {size n : Nat} {decode : List UInt8 → α} {bs : List UInt8} {l : List α}
    (h : readArray size decode n bs = some l) : l.length = n := by
  induction n generalizing bs l with
  | zero =>
    cases h
    rfl
  | succ n ih =>
    rw [readArray] at h
    obtain ⟨a, -, ha⟩ := Option.bind_eq_some_iff.1 h
    obtain ⟨l', hl', rfl⟩ := Option.map_eq_some_iff.1 ha
    rw [List.length_cons, ih hl']

private theorem ofWords_toWords {bs : List UInt8} (h : 4 ∣ bs.length) : Bytes.ofWords (toWords bs) = bs := by
  fun_induction toWords bs with
  | case1 b₀ b₁ b₂ b₃ rest ih =>
    rw [List.length_cons, List.length_cons, List.length_cons, List.length_cons] at h
    rw [Bytes.ofWords_cons, ih (by omega), Bytes.ofValue_u32 rfl]
    rfl
  | case2 bs hshort =>
    -- fewer than four bytes, and a multiple of four
    match bs, hshort, h with
    | [], _, _ => rfl
    | [_], _, h => exact absurd h (show ¬ 4 ∣ 1 by decide)
    | [_, _], _, h => exact absurd h (show ¬ 4 ∣ 2 by decide)
    | [_, _, _], _, h => exact absurd h (show ¬ 4 ∣ 3 by decide)
    | b₀ :: b₁ :: b₂ :: b₃ :: rest, hshort, _ => exact absurd rfl (hshort b₀ b₁ b₂ b₃ rest)

/-- A name ends at the first NUL. -/
private theorem cstr_sound {bs name : List UInt8} (h : cstr bs = some name) :
    0 ∉ name ∧ ∃ slack, bs = name ++ 0 :: slack := by
  induction bs generalizing name with
  | nil => cases h
  | cons b bs ih =>
    rw [cstr, List.idxOf?_cons] at h
    by_cases hb : b = 0
    · rw [if_pos (beq_iff_eq.2 hb)] at h
      cases h
      exact ⟨List.not_mem_nil, bs, by rw [hb]; rfl⟩
    · rw [if_neg (fun he => hb (beq_iff_eq.1 he)), Option.map_map] at h
      have htail : ∃ name', cstr bs = some name' ∧ name = b :: name' := by
        obtain ⟨i, hi, rfl⟩ := Option.map_eq_some_iff.1 h
        exact ⟨bs.take i, by rw [cstr, hi]; rfl, rfl⟩
      obtain ⟨name', hname', rfl⟩ := htail
      obtain ⟨hnul, slack, hslack⟩ := ih hname'
      refine ⟨fun hmem => ?_, slack, by rw [hslack]; rfl⟩
      rcases List.mem_cons.1 hmem with h0 | hmem
      · exact hb h0.symm
      · exact hnul hmem

/-- What the records of the uniform block must keep to. -/
structure OwnedUniform.Accepted (texCount : Nat) (texBinding : UInt32) (ssboLen : Nat) (ssboBinding : UInt32)
    (u : OwnedUniform) : Prop where
  binding_le : u.binding ≤ 65535
  length_le : u.bytes.length ≤ 65536
  texture : inTexRange texCount texBinding u.binding = false
  storage : ssboLen > 0 → u.binding ≠ ssboBinding

/-- The uniforms are the records at the front of the block, their bindings distinct. -/
theorem readUniforms_sound {texCount : Nat} {texBinding : UInt32} {ssboLen : Nat} {ssboBinding : UInt32} {n : Nat}
    {ub : List UInt8} {before out : List OwnedUniform}
    (h : readUniforms texCount texBinding ssboLen ssboBinding n ub before = some out)
    (hbefore : (before.map (·.binding)).Nodup) :
    (out.map (·.binding)).Nodup ∧ ∃ new, out = before ++ new ∧
      (∀ u ∈ new, u.Accepted texCount texBinding ssboLen ssboBinding) ∧
      ∃ slack, ub = new.flatMap OwnedUniform.record ++ slack := by
  induction n generalizing ub before with
  | zero =>
    cases h
    exact ⟨hbefore, [], (List.append_nil _).symm, fun u hu => absurd hu List.not_mem_nil, ub, rfl⟩
  | succ n ih =>
    rw [readUniforms] at h
    by_cases hshort : ub.length < 8
    · rw [if_pos hshort] at h
      cases h
    rw [if_neg hshort] at h
    simp only at h
    by_cases hbad : u32At ub 0 > 65535 ∨ (u32At ub 4).toNat > 65536 ∨ (u32At ub 4).toNat > (ub.drop 8).length ∨
        inTexRange texCount texBinding (u32At ub 0) ∨ (ssboLen > 0 ∧ u32At ub 0 = ssboBinding) ∨
          before.any (fun u => u.binding == u32At ub 0)
    · rw [if_pos hbad] at h
      cases h
    rw [if_neg hbad] at h
    simp only [not_or, gt_iff_lt, UInt32.not_lt, Nat.not_lt, not_and, Bool.not_eq_true] at hbad
    obtain ⟨hbinding, hlen, hfits, htex, hssbo, hfresh⟩ := hbad
    let first : OwnedUniform := { binding := u32At ub 0, bytes := (ub.drop 8).take (u32At ub 4).toNat }
    have hnodup : ((before ++ [first]).map (·.binding)).Nodup := by
      rw [List.map_append, List.map_singleton, List.nodup_append]
      refine ⟨hbefore, List.nodup_singleton _, fun b hb c hc => ?_⟩
      obtain ⟨u, hu, rfl⟩ := List.mem_map.1 hb
      rw [List.mem_singleton.1 hc]
      exact fun heq => Bool.false_ne_true (hfresh.symm.trans (List.any_eq_true.2 ⟨u, hu, beq_iff_eq.2 heq⟩))
    obtain ⟨hout, new, rfl, hnew, slack, hslack⟩ := ih h hnodup
    have htake : ((ub.drop 8).take (u32At ub 4).toNat).length = (u32At ub 4).toNat := by
      rw [List.length_take, Nat.min_eq_left hfits]
    refine ⟨hout, first :: new, by rw [List.append_assoc]; rfl, fun u hu => ?_, slack, ?_⟩
    · rcases List.mem_cons.1 hu with rfl | hu
      · exact ⟨hbinding, htake.le.trans hlen, htex, hssbo⟩
      · exact hnew u hu
    · have hheader : Bytes.ofWords [u32At ub 0, u32At ub 4] = ub.take 8 := Bytes.ofWords_front (by omega)
      rw [List.flatMap_cons, List.append_assoc, ← hslack, OwnedUniform.record]
      simp only [first, htake, UInt32.ofNat_toNat]
      rw [hheader, List.append_assoc, List.take_append_drop, List.take_append_drop]

/-- What a descriptor says of its texture. -/
structure TextureDesc.Describes (td : TextureDesc) (t : OwnedTexture) : Prop where
  width : t.width = td.width
  height : t.height = td.height
  length : t.rgba.length = td.dataLen.toNat
  linear : t.linear = (td.samplerFlags &&& SamplerFlags.linear != 0)
  wraps : t.repeat = (td.samplerFlags &&& SamplerFlags.repeat != 0)

theorem checkedArea {w h expect : Nat} (hmul : (checkedMul w h).bind (checkedMul · 4) = some expect) :
    expect = w * h * 4 := by
  obtain ⟨a, ha, hexpect⟩ := Option.bind_eq_some_iff.1 hmul
  rw [checkedMul] at ha hexpect
  by_cases harea : w * h < 2 ^ 64
  · rw [if_pos harea, Option.some_inj] at ha
    subst ha
    by_cases hbytes : w * h * 4 < 2 ^ 64
    · rw [if_pos hbytes, Option.some_inj] at hexpect
      exact hexpect.symm
    · rw [if_neg hbytes] at hexpect
      cases hexpect
  · rw [if_neg harea] at ha
    cases ha

/-- The textures are described one by one, and their pixels lie one after another. -/
theorem readTextures_sound {maxBytes n : Nat} {texs pix : List UInt8} {out : List OwnedTexture}
    (h : readTextures maxBytes n texs pix = some out) :
    (∃ descs, readArray 16 TextureDesc.decode n texs = some descs ∧ List.Forall₂ TextureDesc.Describes descs out) ∧
      (∀ t ∈ out, t.rgba.length = t.width.toNat * t.height.toNat * 4) ∧
      ∃ slack, pix = out.flatMap (·.rgba) ++ slack := by
  induction n generalizing texs pix out with
  | zero =>
    cases h
    exact ⟨⟨[], rfl, .nil⟩, fun t ht => absurd ht List.not_mem_nil, pix, rfl⟩
  | succ n ih =>
    rw [readTextures] at h
    cases hread : readFromPrefix 16 TextureDesc.decode texs with
    | none =>
      rw [hread] at h
      cases h
    | some td =>
      rw [hread] at h
      simp only at h
      by_cases hempty : td.1.width = 0 ∨ td.1.height = 0
      · rw [if_pos hempty] at h
        cases h
      rw [if_neg hempty] at h
      cases hexpect : (checkedMul td.1.width.toNat td.1.height.toNat).bind (checkedMul · 4) with
      | none =>
        rw [hexpect] at h
        cases h
      | some expect =>
        rw [hexpect] at h
        simp only at h
        by_cases hlen : td.1.dataLen.toNat ≠ expect ∨ td.1.dataLen.toNat > maxBytes ∨ td.1.dataLen.toNat > pix.length
        · rw [if_pos hlen] at h
          cases h
        rw [if_neg hlen] at h
        simp only [not_or, not_not, gt_iff_lt, Nat.not_lt] at hlen
        obtain ⟨heq, -, hfits⟩ := hlen
        obtain ⟨out', hout', rfl⟩ := Option.map_eq_some_iff.1 h
        obtain ⟨⟨descs, hdescs, hdescribes⟩, hsize, slack, hslack⟩ := ih hout'
        have htake : (pix.take td.1.dataLen.toNat).length = td.1.dataLen.toNat := by
          rw [List.length_take, Nat.min_eq_left hfits]
        refine ⟨⟨td.1 :: descs, ?_, .cons ⟨rfl, rfl, htake, rfl, rfl⟩ hdescribes⟩, fun t ht => ?_, slack, ?_⟩
        · rw [readArray, hread, Option.bind_some]
          simp only [hdescs, Option.map_some]
        · rcases List.mem_cons.1 ht with rfl | ht
          · rw [htake, heq, checkedArea hexpect]
          · exact hsize t ht
        · rw [List.flatMap_cons, List.append_assoc, ← hslack, List.take_append_drop]

/-! ### What a decoded draw is made of -/

/-- The payload behind header and tail is the sections `s`, one after another, and they hold the parts of the draw. -/
structure Tiles (payload : List UInt8) (draw : OwnedForwardedDraw) (g : OwnedGeometry) (s : Sections) : Prop where
  length : 120 ≤ payload.length
  bytes : payload.drop 120 = s.bytes
  attrs : s.attrs.length = g.attrs.length * 12 ∧
    readArray 12 VertexAttr.decode g.attrs.length s.attrs = some g.attrs
  draws : s.draws.length = g.draws.length * 32 ∧ readArray 32 DrawCmd.decode g.draws.length s.draws = some g.draws
  texs : s.texs.length = g.textures.length * 16 ∧ ∃ descs,
    readArray 16 TextureDesc.decode g.textures.length s.texs = some descs ∧
      List.Forall₂ TextureDesc.Describes descs g.textures
  vspirv : s.vspirv = Bytes.ofWords draw.vertexSpirv
  fspirv : s.fspirv = Bytes.ofWords draw.fragmentSpirv
  vdata : s.vdata = g.vertexData
  idata : s.idata = g.indexData
  ventry : 0 ∉ draw.vertexEntry ∧ ∃ slack, s.ventry = draw.vertexEntry ++ 0 :: slack
  fentry : 0 ∉ draw.fragmentEntry ∧ ∃ slack, s.fentry = draw.fragmentEntry ++ 0 :: slack
  pushConst : s.pushConst = g.pushConstants
  ubo : ∃ slack, s.ubo = g.uniforms.flatMap OwnedUniform.record ++ slack
  ssbo : (g.storage.map (·.bytes)).getD [] = s.ssbo
  pixels : ∃ slack, s.pixels = g.textures.flatMap (·.rgba) ++ slack

namespace OwnedGeometry

/-- The bindings of the descriptor set: uniforms, storage, and an image and a sampler for each texture. -/
def bindings (g : OwnedGeometry) : List Nat :=
  g.uniforms.map (·.binding.toNat) ++ g.storage.toList.map (·.binding.toNat) ++
    (List.range (2 * g.textures.length)).map (g.texBinding.toNat + ·)

structure WellFormed (g : OwnedGeometry) : Prop where
  bindings : g.bindings.Nodup
  vertices : (g.vertexStride.toNat = 0 ↔ g.vertexData.length = 0) ∧ g.vertexStride.toNat ∣ g.vertexData.length
  indices : (if g.indexU32 then 4 else 2) ∣ g.indexData.length
  textures : ∀ t ∈ g.textures, t.rgba.length = t.width.toNat * t.height.toNat * 4

/-- Distinct uniforms that keep clear of the storage buffer, both clear of the textures. -/
private theorem bindings_nodup {g : OwnedGeometry} (hbinding : g.texBinding ≤ 65535)
    (htextures : g.textures.length ≤ MAX_TEXTURES) (huniforms : (g.uniforms.map (·.binding)).Nodup)
    (htex : ∀ u ∈ g.uniforms, inTexRange g.textures.length g.texBinding u.binding = false)
    (hstorage : ∀ b ∈ g.storage, inTexRange g.textures.length g.texBinding b.binding = false ∧
      ∀ u ∈ g.uniforms, u.binding ≠ b.binding) : g.bindings.Nodup := by
  have hmax : MAX_TEXTURES = 8 := rfl
  have hclear : ∀ (b : UInt32) (i : Nat), inTexRange g.textures.length g.texBinding b = false →
      i < 2 * g.textures.length → b.toNat ≠ g.texBinding.toNat + i := by
    intro b i hb hi heq
    have hle : g.texBinding.toNat ≤ 65535 := UInt32.le_iff_toNat_le.1 hbinding
    have hin : inTexRange g.textures.length g.texBinding b = true := by
      simp only [inTexRange, Bool.and_eq_true, decide_eq_true_eq, ge_iff_le, UInt32.le_iff_toNat_le]
      omega
    rw [hb] at hin
    cases hin
  have hmap : g.uniforms.map (·.binding.toNat) = (g.uniforms.map (·.binding)).map UInt32.toNat := by
    rw [List.map_map]
    rfl
  have hindices : ((List.range (2 * g.textures.length)).map (g.texBinding.toNat + ·)).Nodup :=
    List.nodup_range.map fun a b h => Nat.add_left_cancel h
  rw [bindings, List.nodup_append, List.nodup_append]
  refine ⟨⟨?_, ?_, fun a ha b hb => ?_⟩, hindices, fun a ha b hb => ?_⟩
  · rw [hmap]
    exact huniforms.map fun a b h => UInt32.toNat_inj.1 h
  · cases g.storage with
    | none => exact List.nodup_nil
    | some b => exact List.nodup_singleton _
  · obtain ⟨u, hu, rfl⟩ := List.mem_map.1 ha
    obtain ⟨st, hst, rfl⟩ := List.mem_map.1 hb
    exact fun heq => (hstorage st (Option.mem_toList.1 hst)).2 u hu (UInt32.toNat_inj.1 heq)
  · obtain ⟨i, hi, rfl⟩ := List.mem_map.1 hb
    have hi := List.mem_range.1 hi
    rcases List.mem_append.1 ha with ha | ha
    · obtain ⟨u, hu, rfl⟩ := List.mem_map.1 ha
      exact hclear u.binding i (htex u hu) hi
    · obtain ⟨st, hst, rfl⟩ := List.mem_map.1 ha
      exact hclear st.binding i (hstorage st (Option.mem_toList.1 hst)).1 hi

end OwnedGeometry

/-- Decoded sections with the declared lengths are the parts of a well-formed draw. -/
theorem decodeParts_sound {tail : ForwardedCmdListTail} {s : Sections} {maxBytes : Nat} {draw : OwnedForwardedDraw}
    {payload : List UInt8} (hmatch : s.Match tail) (hgood : ¬ BadTail tail maxBytes) (hlength : 120 ≤ payload.length)
    (hbytes : payload.drop 120 = s.bytes) (h : decodeParts tail s maxBytes = some draw) :
    ∃ g, draw.geometry = some g ∧ Tiles payload draw g s ∧ g.WellFormed := by
  simp only [Sections.Match, Sections.parts, List.map_cons, List.map_nil, ForwardedCmdListTail.lengths,
    List.cons.injEq, and_true] at hmatch
  obtain ⟨hattrsLen, hdrawsLen, htexsLen, hvspirvLen, hfspirvLen, hvdataLen, hidataLen, -, -, -, -, hssboLen⟩ :=
    hmatch
  simp only [BadTail, badCmdList, badStages, not_or, gt_iff_lt, Nat.not_lt, UInt32.not_lt, not_not, not_and] at hgood
  obtain ⟨⟨⟨-, -, hvwords, hfwords, -⟩, -, -, -, -, -, -, htexCount, htexBinding, -, -, -⟩, hssboRange, hmixed,
    hwhole⟩ := hgood
  obtain ⟨attrs, draws, textures, uniforms, vertexEntry, fragmentEntry, hparts, rfl⟩ := decodeParts_eq_some_iff.1 h
  obtain ⟨hattrs, hdraws, -, -, hindices, htextures, huniforms, hventry, hfentry⟩ := hparts
  obtain ⟨⟨descs, hdescs, hdescribes⟩, hsizes, hpixels⟩ := readTextures_sound htextures
  obtain ⟨hnodup, new, hnew, haccepted, hubo⟩ := readUniforms_sound huniforms List.nodup_nil
  rw [List.nil_append] at hnew
  subst hnew
  have htexLength : textures.length = tail.texCount.toNat := by
    rw [← hdescribes.length_eq, readArray_length hdescs]
  have hattrsLength := readArray_length hattrs
  have hdrawsLength := readArray_length hdraws
  have hssbo : tail.ssboLen.toNat = 0 → s.ssbo = [] := by
    intro hzero
    rw [hzero] at hssboLen
    exact List.length_eq_zero_iff.1 hssboLen
  refine ⟨_, rfl, ?_, ?_⟩
  · exact
      { length := hlength
        bytes := hbytes
        attrs := by
          simp only [hattrsLength]
          exact ⟨hattrsLen, hattrs⟩
        draws := by
          simp only [hdrawsLength]
          exact ⟨hdrawsLen, hdraws⟩
        texs := by
          simp only [htexLength]
          exact ⟨htexsLen, descs, hdescs, hdescribes⟩
        vspirv := (ofWords_toWords (by rw [hvspirvLen]; exact hvwords)).symm
        fspirv := (ofWords_toWords (by rw [hfspirvLen]; exact hfwords)).symm
        vdata := rfl
        idata := rfl
        ventry := cstr_sound hventry
        fentry := cstr_sound hfentry
        pushConst := rfl
        ubo := hubo
        ssbo := by
          by_cases hzero : tail.ssboLen.toNat > 0
          · simp only [if_pos hzero, Option.map_some, Option.getD_some]
          · simp only [if_neg hzero, Option.map_none, Option.getD_none]
            exact (hssbo (by omega)).symm
        pixels := hpixels }
  · refine ⟨OwnedGeometry.bindings_nodup htexBinding ?_ hnodup ?_ ?_, ?_, ?_, hsizes⟩
    · exact htexLength.le.trans htexCount
    · intro u hu
      simp only [htexLength]
      exact (haccepted u hu).texture
    · intro b hb
      simp only at hb
      by_cases hzero : tail.ssboLen.toNat > 0
      · rw [if_pos hzero] at hb
        cases hb
        simp only [htexLength]
        refine ⟨?_, fun u hu => (haccepted u hu).storage hzero⟩
        have hpos : tail.ssboLen > 0 := UInt32.lt_iff_toNat_lt.2 hzero
        exact Bool.eq_false_iff.2 (hssboRange hpos)
      · rw [if_neg hzero] at hb
        cases hb
    · simp only [hvdataLen]
      refine ⟨?_, ?_⟩
      · rw [← hmixed, ← UInt32.toNat_inj]
        rfl
      · by_cases hzero : tail.vertexStride = 0
        · rw [← hvdataLen] at hmixed ⊢
          rw [(hmixed ▸ hzero : s.vdata.length = 0)]
          exact Nat.dvd_zero _
        · exact hwhole hzero
    · simp only [hidataLen]
      exact hindices

/-- On any bytes the decoder ends without a panic, and a draw that it returns is well formed and made of consecutive
sections of the payload. -/
theorem decodeForwardedCmdlist_sound (payload : List UInt8) (maxBytes : Nat) :
    decodeForwardedCmdlistChecked payload maxBytes = some (decodeForwardedCmdlist payload maxBytes) ∧
      ∀ draw, decodeForwardedCmdlist payload maxBytes = some draw →
        ∃ g s, draw.geometry = some g ∧ Tiles payload draw g s ∧ g.WellFormed := by
  refine ⟨decodeForwardedCmdlistChecked_eq payload maxBytes, fun draw h => ?_⟩
  obtain ⟨hlength, hgood, s, hmatch, hbytes, h⟩ := decodeForwardedCmdlist_eq_some_iff.1 h
  obtain ⟨g, hg, htiles, hwell⟩ := decodeParts_sound hmatch hgood hlength hbytes.symm h
  exact ⟨g, s, hg, htiles, hwell⟩

end Infinigpu
