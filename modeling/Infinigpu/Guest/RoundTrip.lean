import Infinigpu.Device.Hostile
import Infinigpu.Guest.Encoder
import Mathlib.Algebra.Group.Action.Defs
import Mathlib.Algebra.Order.BigOperators.Group.List
import Mathlib.Algebra.Order.Ring.Nat

/-!
# Encoding and decoding a forwarded draw

What the C encoders write is what the host decoders read: structures (`decode_encode`), arrays of them
(`readArray_flatMap`), words, names, the records of the uniform block and the textures, each with exactly the checks
that the decoder makes.  A command list decodes to the draw it was made of if and only if it keeps the decoder's
limits (`decodeForwardedCmdlist_bytes`), and both encoders return the number of bytes they have written
(`forwarded_roundtrip`).
-/

namespace Infinigpu

/-! ### Structures -/

theorem u32At_ofWords {ws : List UInt32} {i : Nat} {w : UInt32} (rest : List UInt8) (h : ws[i]? = some w) :
    u32At (Bytes.ofWords ws ++ rest) (4 * i) = w := by
  obtain ⟨hi, hw⟩ := List.getElem?_eq_some_iff.1 h
  rw [u32At, Bytes.slice_ofWords rest hi, Bytes.u32_ofValue]
  exact hw

/-- Structures that consist of words are read back word by word. -/
theorem u32At_words {ws : List UInt32} {i : Nat} {w : UInt32} (h : ws[i]? = some w) :
    u32At (Bytes.ofWords ws) (4 * i) = w := by
  have hread := u32At_ofWords [] h
  rw [List.append_nil] at hread
  exact hread

theorem VertexAttr.decode_encode (a : VertexAttr) : decode a.encode = a := by
  cases a with
  | mk location format offset =>
    rw [decode, mk.injEq]
    exact ⟨u32At_words (i := 0) rfl, u32At_words (i := 1) rfl, u32At_words (i := 2) rfl⟩

theorem TextureDesc.decode_encode (td : TextureDesc) : decode td.encode = td := by
  cases td with
  | mk width height dataLen samplerFlags =>
    rw [decode, mk.injEq]
    exact ⟨u32At_words (i := 0) rfl, u32At_words (i := 1) rfl, u32At_words (i := 2) rfl, u32At_words (i := 3) rfl⟩

/-- A colour in words 4 to 7 of a structure. -/
private theorem Rgba.decode_ofWords {a b c d : UInt32} {bg : Rgba} (rest : List UInt8) :
    decode (Bytes.slice (Bytes.ofWords [a, b, c, d, bg.r, bg.g, bg.b, bg.a] ++ rest) 16 16) = bg := by
  have hslice : ∀ i, i + 4 ≤ 16 → u32At (Bytes.slice
    (Bytes.ofWords [a, b, c, d, bg.r, bg.g, bg.b, bg.a] ++ rest) 16 16) i =
      u32At (Bytes.ofWords [a, b, c, d, bg.r, bg.g, bg.b, bg.a] ++ rest) (16 + i) := by
    intro i hi
    rw [u32At, u32At, Bytes.slice, Bytes.slice, Bytes.slice, List.drop_take, List.take_take, List.drop_drop,
      Nat.min_eq_left (by omega)]
  rw [decode, hslice 0 (by omega), hslice 4 (by omega), hslice 8 (by omega), hslice 12 (by omega)]
  have hword : ∀ {i : Nat} {w : UInt32}, [a, b, c, d, bg.r, bg.g, bg.b, bg.a][i]? = some w →
      u32At (Bytes.ofWords [a, b, c, d, bg.r, bg.g, bg.b, bg.a] ++ rest) (4 * i) = w := u32At_ofWords rest
  have hr := hword (i := 4) rfl
  have hg := hword (i := 5) rfl
  have hb := hword (i := 6) rfl
  have ha := hword (i := 7) rfl
  rw [hr, hg, hb, ha]

theorem DrawCmd.decode_encode (d : DrawCmd) : decode d.encode = d := by
  cases d with
  | mk count instanceCount first vertexOffset viewport =>
    have hviewport : Rgba.decode (Bytes.slice (Bytes.ofWords [count, instanceCount, first, vertexOffset.toUInt32,
        viewport.r, viewport.g, viewport.b, viewport.a] ++ []) 16 16) = viewport := Rgba.decode_ofWords []
    rw [List.append_nil] at hviewport
    rw [decode, mk.injEq]
    refine ⟨u32At_words (i := 0) rfl, u32At_words (i := 1) rfl, u32At_words (i := 2) rfl, ?_, hviewport⟩
    have hoffset : u32At (Bytes.ofWords [count, instanceCount, first, vertexOffset.toUInt32, viewport.r, viewport.g,
        viewport.b, viewport.a]) 12 = vertexOffset.toUInt32 := u32At_words (i := 3) rfl
    rw [encode, hoffset, Int32.toInt32_toUInt32]

theorem VulkanWorkload.decode_encode (wl : VulkanWorkload) (rest : List UInt8) : decode (wl.encode ++ rest) = wl := by
  cases wl with
  | mk op width height bg scanoutAddr =>
    have haddr : u64At (encode { op, width, height, bg, scanoutAddr } ++ rest) 32 = scanoutAddr := by
      have hslice : Bytes.slice (Bytes.ofWords [op, width, height, 0, bg.r, bg.g, bg.b, bg.a] ++
          (Bytes.ofValue 8 scanoutAddr.toNat ++ rest)) 32 8 = Bytes.ofValue 8 scanoutAddr.toNat := by
        have hwords : (Bytes.ofWords [op, width, height, 0, bg.r, bg.g, bg.b, bg.a]).length = 32 :=
          Bytes.ofWords_length _
        rw [Bytes.slice, List.drop_append_of_le_length hwords.ge, List.drop_eq_nil_of_le hwords.le, List.nil_append,
          List.take_append_of_le_length (Bytes.ofValue_length _ _).ge, List.take_of_length_le]
        exact (Bytes.ofValue_length _ _).le
      rw [u64At, encode, List.append_assoc, hslice, Bytes.u64_ofValue]
    rw [decode, mk.injEq]
    simp only [haddr, and_true]
    rw [encode, List.append_assoc]
    exact ⟨u32At_ofWords (i := 0) _ rfl, u32At_ofWords (i := 1) _ rfl, u32At_ofWords (i := 2) _ rfl,
      Rgba.decode_ofWords _⟩

theorem ForwardedDrawTail.decode_encode (tail : ForwardedDrawTail) : decode tail.encode = tail := by
  cases tail with
  | mk vertexCount topology vertexSpirvLen fragmentSpirvLen vertexEntryLen fragmentEntryLen =>
    rw [decode, mk.injEq]
    exact ⟨u32At_words (i := 0) rfl, u32At_words (i := 1) rfl, u32At_words (i := 2) rfl, u32At_words (i := 3) rfl,
      u32At_words (i := 4) rfl, u32At_words (i := 5) rfl⟩

theorem ForwardedCmdListTail.decode_encode (tail : ForwardedCmdListTail) : decode tail.encode = tail := by
  cases tail
  rw [decode, mk.injEq]
  exact ⟨u32At_words (i := 0) rfl, u32At_words (i := 1) rfl, u32At_words (i := 2) rfl, u32At_words (i := 3) rfl,
    u32At_words (i := 4) rfl, u32At_words (i := 5) rfl, u32At_words (i := 6) rfl, u32At_words (i := 7) rfl,
    u32At_words (i := 8) rfl, u32At_words (i := 9) rfl, u32At_words (i := 10) rfl, u32At_words (i := 11) rfl,
    u32At_words (i := 12) rfl, u32At_words (i := 13) rfl, u32At_words (i := 14) rfl, u32At_words (i := 15) rfl,
    u32At_words (i := 16) rfl, u32At_words (i := 17) rfl, u32At_words (i := 18) rfl, u32At_words (i := 19) rfl⟩

/-! ### Sections -/

theorem readFromPrefix_append {α : Type*} {size : Nat} {decode : List UInt8 → α} {bs : List UInt8}
    (h : bs.length = size) (rest : List UInt8) :
    readFromPrefix size decode (bs ++ rest) = some (decode bs, rest) := by
  rw [readFromPrefix, if_neg, ← h, List.take_left, List.drop_left]
  rw [List.length_append]
  omega

theorem readArray_flatMap {α : Type*} {size : Nat} {decode : List UInt8 → α} {encode : α → List UInt8}
    (hlen : ∀ a, (encode a).length = size) (hdecode : ∀ a, decode (encode a) = a) (l : List α) :
    readArray size decode l.length (l.flatMap encode) = some l := by
  induction l with
  | nil => rfl
  | cons a l ih =>
    rw [List.length_cons, List.flatMap_cons, readArray, readFromPrefix_append (hlen a), Option.bind_some]
    simp only [ih, hdecode, Option.map_some]

private theorem toWords_ofWords (ws : List UInt32) : toWords (Bytes.ofWords ws) = ws := by
  induction ws with
  | nil => rfl
  | cons w ws ih =>
    have hword : toWords (Bytes.ofValue 4 w.toNat ++ Bytes.ofWords ws) =
        Bytes.u32 (Bytes.ofValue 4 w.toNat) :: toWords (Bytes.ofWords ws) := rfl
    rw [Bytes.ofWords_cons, hword, Bytes.u32_ofValue, ih]

private theorem cstr_bytes (name : CString) : cstr name.bytes = some name.chars := by
  cases name with
  | mk chars nulFree =>
    rw [cstr, CString.bytes]
    induction chars with
    | nil => rfl
    | cons c chars ih =>
      have hc : c ≠ 0 := fun h => nulFree (h ▸ List.mem_cons_self)
      have hrest : 0 ∉ chars := fun h => nulFree (List.mem_cons_of_mem c h)
      have htail := ih hrest
      simp only [List.cons_append, List.idxOf?_cons, beq_iff_eq, hc, if_false, Option.map_map]
      obtain ⟨i, hi, htake⟩ := Option.map_eq_some_iff.1 htail
      rw [hi, Option.map_some, Function.comp_apply, List.take_succ_cons, htake]

/-! ### The uniform block -/

private theorem OwnedUniform.record_header {u : OwnedUniform} (hlt : u.bytes.length < 2 ^ 32) (rest : List UInt8) :
    8 ≤ (u.record ++ rest).length ∧ u32At (u.record ++ rest) 0 = u.binding ∧
      (u32At (u.record ++ rest) 4).toNat = u.bytes.length ∧ (u.record ++ rest).drop 8 = u.bytes ++ rest := by
  have hwords : (Bytes.ofWords [u.binding, UInt32.ofNat u.bytes.length]).length = 8 := Bytes.ofWords_length _
  rw [record, List.append_assoc]
  refine ⟨?_, u32At_ofWords (i := 0) _ rfl, ?_, ?_⟩
  · rw [List.length_append, hwords]
    exact Nat.le_add_right _ _
  · have hlen : u32At (Bytes.ofWords [u.binding, UInt32.ofNat u.bytes.length] ++ (u.bytes ++ rest)) 4 =
        UInt32.ofNat u.bytes.length := u32At_ofWords (i := 1) (u.bytes ++ rest) rfl
    rw [hlen]
    exact UInt32.toNat_ofNat_of_lt' hlt
  · rw [List.drop_append_of_le_length hwords.ge, List.drop_eq_nil_of_le hwords.le, List.nil_append]

/-- Records are read back exactly if each is acceptable and their bindings are distinct. -/
private theorem readUniforms_records {texCount : Nat} {texBinding : UInt32} {ssboLen : Nat} {ssboBinding : UInt32}
    {us : List OwnedUniform} {rest : List UInt8} {before out : List OwnedUniform}
    (hlt : ∀ u ∈ us, u.bytes.length < 2 ^ 32) (hbefore : (before.map (·.binding)).Nodup) :
    readUniforms texCount texBinding ssboLen ssboBinding us.length (us.flatMap OwnedUniform.record ++ rest) before =
        some out ↔
      (∀ u ∈ us, u.Accepted texCount texBinding ssboLen ssboBinding) ∧ ((before ++ us).map (·.binding)).Nodup ∧
        out = before ++ us := by
  induction us generalizing before with
  | nil =>
    rw [List.append_nil]
    exact ⟨fun h => ⟨fun u hu => absurd hu List.not_mem_nil, hbefore, (Option.some_inj.1 h).symm⟩,
      fun h => by rw [h.2.2]; rfl⟩
  | cons u us ih =>
    obtain ⟨hlong, hbinding, hlen, hdrop⟩ := u.record_header (hlt u List.mem_cons_self)
      (us.flatMap OwnedUniform.record ++ rest)
    have hsplit : before ++ u :: us = before ++ [u] ++ us := by rw [List.append_assoc]; rfl
    rw [List.length_cons, List.flatMap_cons, List.append_assoc, readUniforms, if_neg (by omega)]
    simp only [hbinding, hlen, hdrop, List.drop_left, List.take_left]
    by_cases hbad : u.binding > 65535 ∨ u.bytes.length > 65536 ∨
        u.bytes.length > (u.bytes ++ (us.flatMap OwnedUniform.record ++ rest)).length ∨
          inTexRange texCount texBinding u.binding ∨ (ssboLen > 0 ∧ u.binding = ssboBinding) ∨
            before.any (fun v => v.binding == u.binding)
    · -- each check that fails is one of the conditions on `u`
      rw [if_pos hbad]
      refine iff_of_false (Option.some_ne_none _).symm ?_
      rintro ⟨haccepted, hnodup, -⟩
      have hu := haccepted u List.mem_cons_self
      rw [List.length_append] at hbad
      rcases hbad with h | h | h | h | h | h
      · exact absurd h (UInt32.not_lt.2 hu.binding_le)
      · exact absurd h (Nat.not_lt.2 hu.length_le)
      · omega
      · rw [hu.texture] at h
        cases h
      · exact hu.storage h.1 h.2
      · obtain ⟨v, hv, heq⟩ := List.any_eq_true.1 h
        rw [List.map_append, List.map_cons, List.nodup_append] at hnodup
        exact hnodup.2.2 v.binding (List.mem_map_of_mem hv) u.binding List.mem_cons_self (beq_iff_eq.1 heq)
    · rw [if_neg hbad]
      simp only [not_or, gt_iff_lt, UInt32.not_lt, Nat.not_lt, not_and, Bool.not_eq_true] at hbad
      obtain ⟨hle, hlenLe, -, htex, hssbo, hfresh⟩ := hbad
      have hnodup : ((before ++ [u]).map (·.binding)).Nodup := by
        rw [List.map_append, List.map_singleton, List.nodup_append]
        refine ⟨hbefore, List.nodup_singleton _, fun b hb c hc => ?_⟩
        obtain ⟨v, hv, rfl⟩ := List.mem_map.1 hb
        rw [List.mem_singleton.1 hc]
        exact fun heq => Bool.false_ne_true (hfresh.symm.trans (List.any_eq_true.2 ⟨v, hv, beq_iff_eq.2 heq⟩))
      rw [ih (fun v hv => hlt v (List.mem_cons_of_mem u hv)) hnodup, ← hsplit, List.forall_mem_cons,
        and_iff_right (⟨hle, hlenLe, htex, hssbo⟩ : u.Accepted texCount texBinding ssboLen ssboBinding)]

/-! ### Textures -/

/-- What a texture descriptor must keep to. -/
structure TextureDesc.Accepted (maxBytes : Nat) (td : TextureDesc) : Prop where
  width : td.width ≠ 0
  height : td.height ≠ 0
  dataLen_eq : td.dataLen.toNat = td.width.toNat * td.height.toNat * 4
  dataLen_le : td.dataLen.toNat ≤ maxBytes

/-- The textures with the given descriptors, their pixels one after another. -/
def ownedTextures : List TextureDesc → List UInt8 → List OwnedTexture
  | [], _ => []
  | td :: texs, pix =>
    { width := td.width
      height := td.height
      rgba := pix.take td.dataLen.toNat
      linear := td.samplerFlags &&& SamplerFlags.linear != 0
      «repeat» := td.samplerFlags &&& SamplerFlags.repeat != 0 } :: ownedTextures texs (pix.drop td.dataLen.toNat)

/-- The pixels of the textures are the pixel section, as far as the descriptors reach. -/
private theorem ownedTextures_pixels (texs : List TextureDesc) (pix : List UInt8) :
    (ownedTextures texs pix).flatMap (·.rgba) = pix.take (texs.map (·.dataLen.toNat)).sum := by
  induction texs generalizing pix with
  | nil => rfl
  | cons td texs ih =>
    rw [ownedTextures, List.flatMap_cons, ih, List.map_cons, List.sum_cons, List.take_add]

private theorem checkedArea_eq {w h : Nat} (hlt : w * h * 4 < 2 ^ 64) :
    (checkedMul w h).bind (checkedMul · 4) = some (w * h * 4) := by
  rw [checkedMul, if_pos (by omega), Option.bind_some, checkedMul, if_pos hlt]

/-- Textures are read back exactly if each descriptor is acceptable and there are pixels enough for all. -/
private theorem readTextures_flatMap {maxBytes : Nat} {texs : List TextureDesc} {pix : List UInt8}
    {out : List OwnedTexture} :
    readTextures maxBytes texs.length (texs.flatMap TextureDesc.encode) pix = some out ↔
      (∀ td ∈ texs, td.Accepted maxBytes) ∧ (texs.map (·.dataLen.toNat)).sum ≤ pix.length ∧
        out = ownedTextures texs pix := by
  induction texs generalizing pix out with
  | nil =>
    exact ⟨fun h => ⟨fun td htd => absurd htd List.not_mem_nil, Nat.zero_le _, (Option.some_inj.1 h).symm⟩,
      fun h => by rw [h.2.2]; rfl⟩
  | cons td texs ih =>
    rw [List.length_cons, List.flatMap_cons, readTextures, readFromPrefix_append td.encode_length]
    simp only [td.decode_encode]
    by_cases hempty : td.width = 0 ∨ td.height = 0
    · rw [if_pos hempty]
      refine iff_of_false (Option.some_ne_none _).symm fun h => ?_
      have htd := h.1 td List.mem_cons_self
      exact hempty.elim htd.width htd.height
    rw [if_neg hempty]
    cases hexpect : (checkedMul td.width.toNat td.height.toNat).bind (checkedMul · 4) with
    | none =>
      -- the area overflows, so it is not the length of any descriptor
      refine iff_of_false (Option.some_ne_none _).symm fun h => ?_
      have htd := h.1 td List.mem_cons_self
      have hlt := td.dataLen.toNat_lt
      rw [checkedArea_eq (by have := htd.dataLen_eq; omega)] at hexpect
      cases hexpect
    | some expect =>
      have harea := checkedArea hexpect
      simp only
      by_cases hlen : td.dataLen.toNat ≠ expect ∨ td.dataLen.toNat > maxBytes ∨ td.dataLen.toNat > pix.length
      · rw [if_pos hlen]
        refine iff_of_false (Option.some_ne_none _).symm fun h => ?_
        obtain ⟨haccepted, hsum, -⟩ := h
        have htd := haccepted td List.mem_cons_self
        rw [List.map_cons, List.sum_cons] at hsum
        rcases hlen with h | h | h
        · exact h (htd.dataLen_eq.trans harea.symm)
        · exact absurd h (Nat.not_lt.2 htd.dataLen_le)
        · omega
      · rw [if_neg hlen]
        simp only [not_or, not_not, gt_iff_lt, Nat.not_lt] at hlen hempty
        obtain ⟨heq, hle, hfits⟩ := hlen
        have htd : td.Accepted maxBytes := ⟨hempty.1, hempty.2, heq.trans harea, hle⟩
        have hdrop : (pix.drop td.dataLen.toNat).length = pix.length - td.dataLen.toNat := List.length_drop
        rw [Option.map_eq_some_iff, List.forall_mem_cons, and_iff_right htd, List.map_cons, List.sum_cons,
          ownedTextures]
        constructor
        · rintro ⟨out', hout', rfl⟩
          obtain ⟨haccepted, hsum, rfl⟩ := ih.1 hout'
          exact ⟨haccepted, by omega, rfl⟩
        · rintro ⟨haccepted, hsum, rfl⟩
          exact ⟨_, ih.2 ⟨haccepted, by omega, rfl⟩, rfl⟩

/-! ### Command lists -/

namespace CmdlistArgs

/-- The draw that the arguments describe. -/
def draw (c : CmdlistArgs) : OwnedForwardedDraw where
  vertexSpirv := c.vspirv.items
  fragmentSpirv := c.fspirv.items
  vertexEntry := c.vertexEntry.chars
  fragmentEntry := c.fragmentEntry.chars
  vertexCount := 0
  topology := c.topology
  geometry := some
    { vertexData := c.vertexData.items
      vertexStride := c.vertexStride
      attrs := c.attrs.items
      indexData := c.indexData.items
      indexU32 := c.indexType == IndexType.u32
      draws := c.draws.items
      depth := unpackDepth c.depthFlags
      pushConstants := c.pushConst.items
      textures := ownedTextures c.texs.items c.texpix.items
      texBinding := c.texBinding
      uniforms := c.uniforms
      storage := if c.ssbo.items.length > 0 then some { binding := c.ssboBinding, bytes := c.ssbo.items } else none
      rasterFlags := c.rasterFlags }

/-- The lengths that are computed fit into their 32-bit fields. -/
structure Fits (c : CmdlistArgs) : Prop where
  vspirv : c.vspirv.items.length * 4 < 2 ^ 32
  fspirv : c.fspirv.items.length * 4 < 2 ^ 32
  vertexEntry : c.vertexEntry.chars.length + 1 < 2 ^ 32
  fragmentEntry : c.fragmentEntry.chars.length + 1 < 2 ^ 32
  ubo : c.uboBytes < 2 ^ 32

/-- The limits of the decoder. -/
structure Accepted (c : CmdlistArgs) (maxBytes : Nat) : Prop where
  vmagic : c.vspirv.items.head? = some SPIRV_MAGIC
  fmagic : c.fspirv.items.head? = some SPIRV_MAGIC
  vspirv_le : c.vspirv.items.length * 4 ≤ maxBytes
  fspirv_le : c.fspirv.items.length * 4 ≤ maxBytes
  vertexEntry_le : c.vertexEntry.chars.length + 1 ≤ 256
  fragmentEntry_le : c.fragmentEntry.chars.length + 1 ≤ 256
  draws_pos : 0 < c.draws.items.length
  draws_le : c.draws.items.length ≤ 4096
  attrs_le : c.attrs.items.length ≤ 32
  vertexData_le : c.vertexData.items.length ≤ maxBytes
  indexData_le : c.indexData.items.length ≤ maxBytes
  pushConst_le : c.pushConst.items.length ≤ 256
  texs_le : c.texs.items.length ≤ MAX_TEXTURES
  texBinding_le : c.texBinding ≤ 65535
  ubos_le : c.ubos.items.length ≤ 16
  ssboBinding_le : c.ssboBinding ≤ 65535
  ssbo_le : c.ssbo.items.length ≤ MAX_SSBO_BYTES
  ssbo_clear : 0 < c.ssbo.items.length → inTexRange c.texs.items.length c.texBinding c.ssboBinding = false
  bufferless : c.vertexStride = 0 ↔ c.vertexData.items = []
  vertices : c.vertexStride.toNat ∣ c.vertexData.items.length
  indices : (if c.indexType == IndexType.u32 then 4 else 2) ∣ c.indexData.items.length
  ubos : ∀ u ∈ c.uniforms, u.Accepted c.texs.items.length c.texBinding c.ssbo.items.length c.ssboBinding
  ubos_distinct : (c.uniforms.map (·.binding)).Nodup
  texs : ∀ td ∈ c.texs.items, td.Accepted maxBytes
  texpix : (c.texs.items.map (·.dataLen.toNat)).sum ≤ c.texpix.items.length

variable {c : CmdlistArgs} {maxBytes : Nat}

/-- The limits on names and uniforms keep the lengths within 32 bits. -/
theorem Accepted.fits (h : c.Accepted maxBytes) (hv : c.vspirv.items.length * 4 < 2 ^ 32)
    (hf : c.fspirv.items.length * 4 < 2 ^ 32) : c.Fits := by
  have hve := h.vertexEntry_le
  have hfe := h.fragmentEntry_le
  refine ⟨hv, hf, by omega, by omega, ?_⟩
  have hrecord : ∀ n ∈ c.ubos.items.map fun u => 8 + u.data.items.length, n ≤ 65544 := by
    intro n hn
    obtain ⟨u, hu, rfl⟩ := List.mem_map.1 hn
    have hlen := (h.ubos _ (List.mem_map_of_mem hu)).length_le
    simp only at hlen
    omega
  have hsum := List.sum_le_card_nsmul _ _ hrecord
  rw [List.length_map, smul_eq_mul] at hsum
  have hcount := h.ubos_le
  have hle : c.ubos.items.length * 65544 ≤ 16 * 65544 := Nat.mul_le_mul_right _ hcount
  rw [uboBytes]
  omega

theorem sections_match (h : c.Fits) : c.sections.Match c.tail := by
  rw [Sections.Match, sections_lengths]
  simp only [ForwardedCmdListTail.lengths, tail, Counted.count_toNat, UInt32.toNat_ofNat_of_lt' h.vspirv,
    UInt32.toNat_ofNat_of_lt' h.fspirv, UInt32.toNat_ofNat_of_lt' h.vertexEntry,
    UInt32.toNat_ofNat_of_lt' h.fragmentEntry, UInt32.toNat_ofNat_of_lt' h.ubo]

theorem tailOf_bytes (c : CmdlistArgs) : tailOf c.bytes = c.tail := by
  have hslice : Bytes.slice c.bytes VulkanWorkload.size 80 = c.tail.encode := by
    have hheader : c.workload.encode.length = VulkanWorkload.size := VulkanWorkload.encode_length _
    have htail : c.tail.encode.length = 80 := ForwardedCmdListTail.encode_length _
    rw [bytes, List.append_assoc, Bytes.slice, ← hheader, List.drop_left, ← htail, List.take_left]
  rw [tailOf, hslice, ForwardedCmdListTail.decode_encode]

theorem bytes_drop (c : CmdlistArgs) : c.bytes.drop 120 = c.sections.bytes := by
  have hlen : (c.workload.encode ++ c.tail.encode).length = 120 := by
    rw [List.length_append, VulkanWorkload.encode_length, ForwardedCmdListTail.encode_length]
  rw [bytes, ← hlen, List.drop_left]

/-- The sections of what is written are the ones that were put there. -/
private theorem sections_unique {s : Sections} (hmatch : s.Match c.tail) (hfits : c.Fits)
    (hbytes : s.bytes = c.bytes.drop 120) :
    s = c.sections := by
  have hown := Bytes.cut_append c.sections.parts c.sections.pixels
  have hother := Bytes.cut_append s.parts s.pixels
  have hmine : c.sections.parts.flatten ++ c.sections.pixels = c.sections.bytes := rfl
  have htheirs : s.parts.flatten ++ s.pixels = s.bytes := rfl
  rw [sections_match hfits, hmine, ← bytes_drop, ← hbytes] at hown
  rw [hmatch, htheirs] at hother
  rw [hother, Prod.mk.injEq] at hown
  obtain ⟨hparts, hpixels⟩ := hown
  simp only [Sections.parts, List.cons.injEq, and_true] at hparts
  obtain ⟨h₁, h₂, h₃, h₄, h₅, h₆, h₇, h₈, h₉, h₁₀, h₁₁, h₁₂⟩ := hparts
  exact Sections.ext h₁ h₂ h₃ h₄ h₅ h₆ h₇ h₈ h₉ h₁₀ h₁₁ h₁₂ hpixels

private theorem length_pos_of_magic {l : List UInt32} (h : l.head? = some SPIRV_MAGIC) : 0 < l.length := by
  cases l with
  | nil => cases h
  | cons w ws => exact Nat.succ_pos _

/-- The tail is accepted exactly if the counts and lengths keep the limits. -/
private theorem badTail_iff (hfits : c.Fits) : ¬ BadTail c.tail maxBytes ↔
    (0 < c.vspirv.items.length ∧ 0 < c.fspirv.items.length ∧ c.vspirv.items.length * 4 ≤ maxBytes ∧
      c.fspirv.items.length * 4 ≤ maxBytes ∧ c.vertexEntry.chars.length + 1 ≤ 256 ∧
      c.fragmentEntry.chars.length + 1 ≤ 256) ∧
    (0 < c.draws.items.length ∧ c.draws.items.length ≤ 4096 ∧ c.attrs.items.length ≤ 32 ∧
      c.vertexData.items.length ≤ maxBytes ∧ c.indexData.items.length ≤ maxBytes ∧ c.pushConst.items.length ≤ 256 ∧
      c.texs.items.length ≤ MAX_TEXTURES ∧ c.texBinding ≤ 65535 ∧ c.ubos.items.length ≤ 16 ∧ c.ssboBinding ≤ 65535 ∧
      c.ssbo.items.length ≤ MAX_SSBO_BYTES) ∧
    (0 < c.ssbo.items.length → inTexRange c.texs.items.length c.texBinding c.ssboBinding = false) ∧
    (c.vertexStride = 0 ↔ c.vertexData.items = []) ∧ c.vertexStride.toNat ∣ c.vertexData.items.length := by
  have hcount : ∀ {α : Type} (l : Counted α) (n : UInt32), l.count > n ↔ l.items.length > n.toNat := by
    intro α l n
    rw [gt_iff_lt, gt_iff_lt, UInt32.lt_iff_toNat_lt, Counted.count_toNat]
  have hzero : ∀ {α : Type} (l : Counted α), l.count = 0 ↔ l.items.length = 0 := by
    intro α l
    rw [Counted.count_eq_zero, List.length_eq_zero_iff]
  have hmixed : ((c.vertexStride = 0) ≠ (c.vertexData.items.length = 0)) ↔
      ¬ (c.vertexStride = 0 ↔ c.vertexData.items = []) := by
    rw [Ne, eq_iff_iff, List.length_eq_zero_iff]
  have hwhole : (c.vertexStride = 0 ↔ c.vertexData.items = []) →
      ((c.vertexStride ≠ 0 ∧ ¬ c.vertexStride.toNat ∣ c.vertexData.items.length) ↔
        ¬ c.vertexStride.toNat ∣ c.vertexData.items.length) := by
    intro hiff
    refine and_iff_right_of_imp fun hnot hstride => hnot ?_
    rw [hiff.1 hstride]
    exact Nat.dvd_zero _
  simp only [BadTail, badCmdList, badStages, tail, UInt32.toNat_ofNat_of_lt' hfits.vspirv,
    UInt32.toNat_ofNat_of_lt' hfits.fspirv, UInt32.toNat_ofNat_of_lt' hfits.vertexEntry,
    UInt32.toNat_ofNat_of_lt' hfits.fragmentEntry, Counted.count_toNat, hcount, hzero, hmixed]
  have hnonzero : ∀ n : Nat, ¬ n * 4 = 0 ↔ 0 < n := fun n => by omega
  have hfour : ∀ n : Nat, 4 ∣ n * 4 := fun n => Nat.dvd_mul_left 4 n
  have h4096 : UInt32.toNat 4096 = 4096 := rfl
  have h256 : UInt32.toNat 256 = 256 := rfl
  have h32 : UInt32.toNat 32 = 32 := rfl
  have h16 : UInt32.toNat 16 = 16 := rfl
  have h0 : UInt32.toNat 0 = 0 := rfl
  by_cases hbufferless : c.vertexStride = 0 ↔ c.vertexData.items = []
  · rw [hwhole hbufferless]
    simp only [not_or, not_and, not_not, hnonzero, hfour, gt_iff_lt, Nat.not_lt, UInt32.not_lt, Nat.add_eq_zero_iff,
      Nat.one_ne_zero, and_false, not_false_iff, true_and, ← Nat.pos_iff_ne_zero, Bool.not_eq_true, h4096, h256, h32,
      h16, h0, and_assoc]
  · exact iff_of_false (fun h => h (.inr (.inr (.inl hbufferless)))) fun h => hbufferless h.2.2.2.1

/-- The textures are read back from their sections if each of them, and their pixels together, are accepted. -/
private theorem readTextures_sections {out : List OwnedTexture} :
    readTextures maxBytes c.tail.texCount.toNat c.sections.texs c.sections.pixels = some out ↔
      (∀ td ∈ c.texs.items, td.Accepted maxBytes) ∧
        (c.texs.items.map (·.dataLen.toNat)).sum ≤ c.texpix.items.length ∧
          out = ownedTextures c.texs.items c.texpix.items := by
  rw [tail, Counted.count_toNat]
  exact readTextures_flatMap

/-- The uniforms are read back from their section if each of them is accepted and their bindings are distinct. -/
private theorem readUniforms_sections {out : List OwnedUniform} :
    readUniforms c.tail.texCount.toNat c.tail.texBinding c.tail.ssboLen.toNat c.tail.ssboBinding
      c.tail.uboCount.toNat c.sections.ubo [] = some out ↔
      (∀ u ∈ c.uniforms, u.Accepted c.texs.items.length c.texBinding c.ssbo.items.length c.ssboBinding) ∧
        (c.uniforms.map (·.binding)).Nodup ∧ out = c.uniforms := by
  have hubos : c.uniforms.length = c.ubos.items.length := List.length_map _
  have hubosLt : ∀ u ∈ c.uniforms, u.bytes.length < 2 ^ 32 := by
    intro u hu
    obtain ⟨v, hv, rfl⟩ := List.mem_map.1 hu
    exact v.data.lt
  have hrecords := @readUniforms_records c.texs.items.length c.texBinding c.ssbo.items.length c.ssboBinding
    c.uniforms [] [] out hubosLt List.nodup_nil
  rw [List.append_nil, hubos] at hrecords
  simp only [tail, Counted.count_toNat]
  exact hrecords

/-- What a command list decodes to: its own draw, if and only if it keeps the limits of the decoder. -/
theorem decodeForwardedCmdlist_bytes (hfits : c.Fits) {decoded : OwnedForwardedDraw} :
    decodeForwardedCmdlist c.bytes maxBytes = some decoded ↔ c.Accepted maxBytes ∧ decoded = c.draw := by
  have hlength : 120 ≤ c.bytes.length := by
    rw [bytes_length]
    omega
  have hattrs : readArray 12 VertexAttr.decode c.tail.attrCount.toNat c.sections.attrs = some c.attrs.items := by
    rw [tail, Counted.count_toNat]
    exact readArray_flatMap VertexAttr.encode_length VertexAttr.decode_encode _
  have hdraws : readArray 32 DrawCmd.decode c.tail.drawCount.toNat c.sections.draws = some c.draws.items := by
    rw [tail, Counted.count_toNat]
    exact readArray_flatMap DrawCmd.encode_length DrawCmd.decode_encode _
  have hvspirv : toWords c.sections.vspirv = c.vspirv.items := toWords_ofWords _
  have hfspirv : toWords c.sections.fspirv = c.fspirv.items := toWords_ofWords _
  have hventry : cstr c.sections.ventry = some c.vertexEntry.chars := cstr_bytes _
  have hfentry : cstr c.sections.fentry = some c.fragmentEntry.chars := cstr_bytes _
  have hdraw : drawOf c.tail c.sections c.attrs.items c.draws.items (ownedTextures c.texs.items c.texpix.items)
      c.uniforms c.vertexEntry.chars c.fragmentEntry.chars = c.draw := by
    simp only [drawOf, toWords_ofWords, draw, tail, sections, Counted.count_toNat]
  rw [decodeForwardedCmdlist_eq_some_iff, tailOf_bytes, badTail_iff hfits]
  constructor
  · rintro ⟨-, ⟨⟨-, -, hv, hf, hve, hfe⟩, ⟨hd, hdle, ha, hvd, hid, hpc, ht, htb, hu, hsb, hsl⟩, hclear, hbufferless,
      hvertices⟩, s, hmatch, hbytes, hparts⟩
    rw [sections_unique hmatch hfits hbytes] at hparts
    obtain ⟨attrs, draws, textures, uniforms, vertexEntry, fragmentEntry, h, rfl⟩ := decodeParts_eq_some_iff.1 hparts
    obtain ⟨htexs, htexpix, rfl⟩ := readTextures_sections.1 h.textures
    obtain ⟨hubosOk, hubosDistinct, rfl⟩ := readUniforms_sections.1 h.uniforms
    cases Option.some_inj.1 (hattrs.symm.trans h.attrs)
    cases Option.some_inj.1 (hdraws.symm.trans h.draws)
    cases Option.some_inj.1 (hventry.symm.trans h.ventry)
    cases Option.some_inj.1 (hfentry.symm.trans h.fentry)
    refine ⟨?_, hdraw⟩
    exact
      { vmagic := hvspirv ▸ h.vmagic
        fmagic := hfspirv ▸ h.fmagic
        vspirv_le := hv
        fspirv_le := hf
        vertexEntry_le := hve
        fragmentEntry_le := hfe
        draws_pos := hd
        draws_le := hdle
        attrs_le := ha
        vertexData_le := hvd
        indexData_le := hid
        pushConst_le := hpc
        texs_le := ht
        texBinding_le := htb
        ubos_le := hu
        ssboBinding_le := hsb
        ssbo_le := hsl
        ssbo_clear := hclear
        bufferless := hbufferless
        vertices := hvertices
        indices := c.indexData.count_toNat ▸ h.indices
        ubos := hubosOk
        ubos_distinct := hubosDistinct
        texs := htexs
        texpix := htexpix }
  · rintro ⟨h, rfl⟩
    refine ⟨hlength, ⟨⟨length_pos_of_magic h.vmagic, length_pos_of_magic h.fmagic, h.vspirv_le, h.fspirv_le,
      h.vertexEntry_le, h.fragmentEntry_le⟩,
        ⟨h.draws_pos, h.draws_le, h.attrs_le, h.vertexData_le, h.indexData_le, h.pushConst_le,
      h.texs_le, h.texBinding_le, h.ubos_le, h.ssboBinding_le, h.ssbo_le⟩, h.ssbo_clear, h.bufferless, h.vertices⟩,
      c.sections, sections_match hfits, (bytes_drop c).symm, ?_⟩
    refine decodeParts_eq_some_iff.2 ⟨_, _, _, _, _, _, ?_, hdraw.symm⟩
    exact
      { attrs := hattrs
        draws := hdraws
        vmagic := hvspirv.symm ▸ h.vmagic
        fmagic := hfspirv.symm ▸ h.fmagic
        indices := c.indexData.count_toNat.symm ▸ h.indices
        textures := readTextures_sections.2 ⟨h.texs, h.texpix, rfl⟩
        uniforms := readUniforms_sections.2 ⟨h.ubos, h.ubos_distinct, rfl⟩
        ventry := hventry
        fentry := hfentry }

end CmdlistArgs

/-! ### Bufferless draws -/

namespace ForwardedArgs

/-- The draw that the arguments describe. -/
def draw (a : ForwardedArgs) : OwnedForwardedDraw where
  vertexSpirv := a.vspirv.items
  fragmentSpirv := a.fspirv.items
  vertexEntry := a.vertexEntry.chars
  fragmentEntry := a.fragmentEntry.chars
  vertexCount := a.vertexCount
  topology := a.topology
  geometry := none

/-- The lengths that are computed fit into their 32-bit fields. -/
structure Fits (a : ForwardedArgs) : Prop where
  vspirv : a.vspirv.items.length * 4 < 2 ^ 32
  fspirv : a.fspirv.items.length * 4 < 2 ^ 32
  vertexEntry : a.vertexEntry.chars.length + 1 < 2 ^ 32
  fragmentEntry : a.fragmentEntry.chars.length + 1 < 2 ^ 32

/-- The limits of the decoder. -/
structure Accepted (a : ForwardedArgs) (maxBytes : Nat) : Prop where
  vmagic : a.vspirv.items.head? = some SPIRV_MAGIC
  fmagic : a.fspirv.items.head? = some SPIRV_MAGIC
  vspirv_le : a.vspirv.items.length * 4 ≤ maxBytes
  fspirv_le : a.fspirv.items.length * 4 ≤ maxBytes
  vertexEntry_le : a.vertexEntry.chars.length + 1 ≤ 256
  fragmentEntry_le : a.fragmentEntry.chars.length + 1 ≤ 256

variable {a : ForwardedArgs} {maxBytes : Nat}

private theorem bytes_lt (hfits : a.Fits) : a.bytes.length < 2 ^ 64 := by
  have hv := hfits.vspirv
  have hf := hfits.fspirv
  have hve := hfits.vertexEntry
  have hfe := hfits.fragmentEntry
  rw [bytes_length]
  omega

/-- The parts of the bytes behind the tail. -/
private theorem cut_bytes (a : ForwardedArgs) : Bytes.cut [a.vspirv.items.length * 4, a.fspirv.items.length * 4,
    a.vertexEntry.chars.length + 1, a.fragmentEntry.chars.length + 1] (a.bytes.drop 64) =
    ([Bytes.ofWords a.vspirv.items, Bytes.ofWords a.fspirv.items, a.vertexEntry.bytes, a.fragmentEntry.bytes],
    []) := by
  have hcut := Bytes.cut_append
    [Bytes.ofWords a.vspirv.items, Bytes.ofWords a.fspirv.items, a.vertexEntry.bytes, a.fragmentEntry.bytes] []
  have hdrop : a.bytes.drop 64 = [Bytes.ofWords a.vspirv.items, Bytes.ofWords a.fspirv.items, a.vertexEntry.bytes,
      a.fragmentEntry.bytes].flatten ++ [] := by
    have hlen : (a.workload.encode ++ a.tail.encode).length = 64 := by
      rw [List.length_append, VulkanWorkload.encode_length, ForwardedDrawTail.encode_length]
    rw [bytes, List.append_assoc, List.append_assoc, List.append_assoc, ← hlen, List.drop_left]
    simp only [List.flatten_cons, List.flatten_nil, List.append_nil]
  simp only [List.map_cons, List.map_nil, Bytes.ofWords_length, CString.bytes_length, Nat.mul_comm 4] at hcut
  rw [hdrop, hcut]

private theorem readTail_bytes (a : ForwardedArgs) :
    readFromPrefix 24 ForwardedDrawTail.decode (a.bytes.drop VulkanWorkload.size) =
      some (a.tail, a.bytes.drop 64) := by
  have hheader : a.workload.encode.length = VulkanWorkload.size := VulkanWorkload.encode_length _
  have hdrop : a.bytes.drop VulkanWorkload.size = a.tail.encode ++ (Bytes.ofWords a.vspirv.items ++
      (Bytes.ofWords a.fspirv.items ++ (a.vertexEntry.bytes ++ a.fragmentEntry.bytes))) := by
    simp only [bytes, List.append_assoc]
    rw [← hheader, List.drop_left]
  have hrest : (a.bytes.drop VulkanWorkload.size).drop 24 = a.bytes.drop 64 := List.drop_drop
  rw [← hrest, hdrop, readFromPrefix_append a.tail.encode_length, ForwardedDrawTail.decode_encode,
    ← a.tail.encode_length, List.drop_left]

private theorem badStages_iff (a : ForwardedArgs) :
    badStages (a.vspirv.items.length * 4) (a.fspirv.items.length * 4) (a.vertexEntry.chars.length + 1)
      (a.fragmentEntry.chars.length + 1) maxBytes ↔ ¬ (0 < a.vspirv.items.length ∧ 0 < a.fspirv.items.length ∧
        a.vspirv.items.length * 4 ≤ maxBytes ∧ a.fspirv.items.length * 4 ≤ maxBytes ∧
          a.vertexEntry.chars.length + 1 ≤ 256 ∧ a.fragmentEntry.chars.length + 1 ≤ 256) := by
  have hv4 : 4 ∣ a.vspirv.items.length * 4 := Nat.dvd_mul_left _ _
  have hf4 : 4 ∣ a.fspirv.items.length * 4 := Nat.dvd_mul_left _ _
  simp only [badStages, hv4, hf4, not_true, false_or]
  omega

/-- What a bufferless draw decodes to: its own draw, if and only if it keeps the limits of the decoder. -/
theorem decodeForwarded_bytes (hfits : a.Fits) {decoded : OwnedForwardedDraw} :
    decodeForwarded a.bytes maxBytes = some decoded ↔ a.Accepted maxBytes ∧ decoded = a.draw := by
  have hlength := a.bytes_length
  have hsize : VulkanWorkload.size = 40 := rfl
  have hcut := a.cut_bytes
  simp only [Bytes.cut, Prod.mk.injEq, List.cons.injEq, and_true, List.drop_drop, ← Nat.add_assoc] at hcut
  obtain ⟨⟨hvspirv, hfspirv, hventry, hfentry⟩, -⟩ := hcut
  have htail : a.tail.vertexSpirvLen.toNat = a.vspirv.items.length * 4 ∧
      a.tail.fragmentSpirvLen.toNat = a.fspirv.items.length * 4 ∧
      a.tail.vertexEntryLen.toNat = a.vertexEntry.chars.length + 1 ∧
      a.tail.fragmentEntryLen.toNat = a.fragmentEntry.chars.length + 1 :=
    ⟨UInt32.toNat_ofNat_of_lt' hfits.vspirv, UInt32.toNat_ofNat_of_lt' hfits.fspirv,
      UInt32.toNat_ofNat_of_lt' hfits.vertexEntry, UInt32.toNat_ofNat_of_lt' hfits.fragmentEntry⟩
  have hrest : (a.bytes.drop 64).length = a.vspirv.items.length * 4 + (a.fspirv.items.length * 4 +
      (a.vertexEntry.chars.length + 1 + (a.fragmentEntry.chars.length + 1))) := by
    rw [List.length_drop]
    omega
  have hsum : checkedSum [a.fspirv.items.length * 4, a.vertexEntry.chars.length + 1,
      a.fragmentEntry.chars.length + 1] (a.vspirv.items.length * 4) = some (a.bytes.drop 64).length := by
    have hlt := bytes_lt hfits
    have heq : (a.bytes.drop 64).length = a.vspirv.items.length * 4 + [a.fspirv.items.length * 4,
        a.vertexEntry.chars.length + 1, a.fragmentEntry.chars.length + 1].sum := hrest
    rw [heq]
    refine checkedSum_eq ?_
    rw [← heq, List.length_drop]
    omega
  rw [decodeForwarded, if_neg (by omega), a.readTail_bytes]
  simp only [htail, hsum]
  by_cases hbad : badStages (a.vspirv.items.length * 4) (a.fspirv.items.length * 4) (a.vertexEntry.chars.length + 1)
      (a.fragmentEntry.chars.length + 1) maxBytes
  · rw [if_pos hbad]
    refine iff_of_false (Option.some_ne_none _).symm fun h => a.badStages_iff.1 hbad ?_
    exact ⟨CmdlistArgs.length_pos_of_magic h.1.vmagic, CmdlistArgs.length_pos_of_magic h.1.fmagic, h.1.vspirv_le,
      h.1.fspirv_le, h.1.vertexEntry_le, h.1.fragmentEntry_le⟩
  rw [if_neg hbad, if_neg (Nat.lt_irrefl _)]
  obtain ⟨-, -, hv, hf, hve, hfe⟩ := not_not.1 (a.badStages_iff.not.1 hbad)
  simp only [Bytes.slice, List.drop_drop, ← Nat.add_assoc, hvspirv, hfspirv, hventry, hfentry, toWords_ofWords,
    cstr_bytes]
  by_cases hmagic : a.vspirv.items.head? ≠ some SPIRV_MAGIC ∨ a.fspirv.items.head? ≠ some SPIRV_MAGIC
  · rw [if_pos hmagic]
    exact iff_of_false (Option.some_ne_none _).symm fun h => hmagic.elim (· h.1.vmagic) (· h.1.fmagic)
  · rw [if_neg hmagic, Option.some_inj]
    rw [not_or, not_not, not_not] at hmagic
    exact ⟨fun h => ⟨⟨hmagic.1, hmagic.2, hv, hf, hve, hfe⟩, h.symm⟩, fun h => h.2.symm⟩

end ForwardedArgs

/-! ### Round trips -/

/-- Arguments within the limits of the decoder, their SPIR-V short enough for its length field. -/
structure ForwardedArgs.WithinLimits (a : ForwardedArgs) (maxBytes : Nat) : Prop extends a.Accepted maxBytes where
  vspirv_lt : a.vspirv.items.length * 4 < 2 ^ 32
  fspirv_lt : a.fspirv.items.length * 4 < 2 ^ 32

/-- Arguments within the limits of the decoder, their SPIR-V short enough for its length field. -/
structure CmdlistArgs.WithinLimits (c : CmdlistArgs) (maxBytes : Nat) : Prop extends c.Accepted maxBytes where
  vspirv_lt : c.vspirv.items.length * 4 < 2 ^ 32
  fspirv_lt : c.fspirv.items.length * 4 < 2 ^ 32

private theorem CmdlistArgs.bytes_lt {c : CmdlistArgs} (hfits : c.Fits) : c.bytes.length < 2 ^ 64 := by
  have hv := hfits.vspirv
  have hf := hfits.fspirv
  have hve := hfits.vertexEntry
  have hfe := hfits.fragmentEntry
  have hu := hfits.ubo
  have ha := c.attrs.lt
  have hd := c.draws.lt
  have ht := c.texs.lt
  have hvd := c.vertexData.lt
  have hid := c.indexData.lt
  have hpc := c.pushConst.lt
  have hs := c.ssbo.lt
  have hp := c.texpix.lt
  rw [bytes_length]
  omega

/-- What a round trip through the encoder `encoded` and a decoder is to give: the encoder has put `wire` at the front
of the buffer, returned its length and left the rest alone, and `wire` has the header and decodes to the draw. -/
structure RoundTrip (buf : List UInt8) (encoded : Nat × Option (List UInt8))
    (decode : List UInt8 → Option OwnedForwardedDraw) (workload : VulkanWorkload) (draw : OwnedForwardedDraw)
    (wire : List UInt8) : Prop where
  written : encoded = (wire.length, some (wire ++ buf.drop wire.length))
  header : VulkanWorkload.decode wire = workload
  decoded : decode wire = some draw

/-- Every draw within the limits that an encoder accepts comes back from the decoder as it was, the textures with the
pixels they were given. -/
theorem forwarded_roundtrip (maxBytes : Nat) :
    (∀ (a : ForwardedArgs) (buf : List UInt8), a.WithinLimits maxBytes → (encodeForwarded (some buf) a).1 ≠ 0 →
      ∃ wire, RoundTrip buf (encodeForwarded (some buf) a) (decodeForwarded · maxBytes) a.workload a.draw wire) ∧
    (∀ (c : CmdlistArgs) (buf : List UInt8), c.WithinLimits maxBytes → (encodeForwardedCmdlist (some buf) c).1 ≠ 0 →
      (∃ wire, RoundTrip buf (encodeForwardedCmdlist (some buf) c) (decodeForwardedCmdlist · maxBytes) c.workload
        c.draw wire) ∧
      (ownedTextures c.texs.items c.texpix.items).flatMap (·.rgba) =
        c.texpix.items.take (c.texs.items.map (·.dataLen.toNat)).sum) := by
  constructor
  · intro a buf h haccepted
    have hfits : a.Fits := by
      have hve := h.vertexEntry_le
      have hfe := h.fragmentEntry_le
      exact ⟨h.vspirv_lt, h.fspirv_lt, by omega, by omega⟩
    have hwritten := @encodeForwarded_eq a buf (ForwardedArgs.bytes_lt hfits)
    by_cases hroom : a.bytes.length ≤ buf.length
    · rw [if_pos hroom] at hwritten
      have hheader : VulkanWorkload.decode a.bytes = a.workload := by
        simp only [ForwardedArgs.bytes, List.append_assoc]
        exact VulkanWorkload.decode_encode _ _
      exact ⟨a.bytes, hwritten, hheader, (ForwardedArgs.decodeForwarded_bytes hfits).2 ⟨h.toAccepted, rfl⟩⟩
    · rw [if_neg hroom] at hwritten
      rw [hwritten] at haccepted
      exact absurd rfl haccepted
  · intro c buf h haccepted
    have hfits := h.toAccepted.fits h.vspirv_lt h.fspirv_lt
    have hwritten := @encodeForwardedCmdlist_eq c buf (CmdlistArgs.bytes_lt hfits)
    refine ⟨?_, ownedTextures_pixels _ _⟩
    by_cases hroom : ¬ c.Degenerate ∧ c.bytes.length ≤ buf.length
    · rw [if_pos hroom] at hwritten
      have hheader : VulkanWorkload.decode c.bytes = c.workload := by
        rw [CmdlistArgs.bytes, List.append_assoc]
        exact VulkanWorkload.decode_encode _ _
      exact ⟨c.bytes, hwritten, hheader, (CmdlistArgs.decodeForwardedCmdlist_bytes hfits).2 ⟨h.toAccepted, rfl⟩⟩
    · rw [if_neg hroom] at hwritten
      rw [hwritten] at haccepted
      exact absurd rfl haccepted

/-- A mesh of one vertex with an attribute, an index, a uniform buffer and a texture of one pixel. -/
def pixelMesh : CmdlistArgs where
  width := 1
  height := 1
  bg := ⟨0, 0, 0, 0⟩
  scanoutAddr := 0x1000
  vspirv := ⟨[SPIRV_MAGIC, 1], by decide⟩
  fspirv := ⟨[SPIRV_MAGIC], by decide⟩
  vertexEntry := ⟨[118], by decide⟩
  fragmentEntry := ⟨[102, 115], by decide⟩
  vertexStride := 4
  attrs := ⟨[⟨0, 4, 0⟩], by decide⟩
  vertexData := ⟨[1, 2, 3, 4], by decide⟩
  indexData := ⟨[0, 0], by decide⟩
  indexType := 0
  topology := 0
  depthFlags := 3
  pushConst := ⟨[9], by decide⟩
  ubos := ⟨[{ data := ⟨[7, 7], by decide⟩, binding := 0 }], by decide⟩
  ssbo := ⟨[8], by decide⟩
  ssboBinding := 3
  draws := ⟨[{ count := 1, instanceCount := 1, first := 0, vertexOffset := -1, viewport := ⟨0, 0, 0, 0⟩ }], by decide⟩
  texs := ⟨[⟨1, 1, 4, 1⟩], by decide⟩
  texBinding := 1
  texpix := ⟨[10, 20, 30, 40], by decide⟩
  rasterFlags := 0

theorem forwarded_roundtrip_pixelMesh : ∃ wire,
    RoundTrip (List.replicate 512 0) (encodeForwardedCmdlist (some (List.replicate 512 0)) pixelMesh)
      (decodeForwardedCmdlist · 64) pixelMesh.workload pixelMesh.draw wire := by
  have hlimits : pixelMesh.WithinLimits 64 :=
    { vmagic := rfl
      fmagic := rfl
      vspirv_le := by decide
      fspirv_le := by decide
      vertexEntry_le := by decide
      fragmentEntry_le := by decide
      draws_pos := by decide
      draws_le := by decide
      attrs_le := by decide
      vertexData_le := by decide
      indexData_le := by decide
      pushConst_le := by decide
      texs_le := by decide
      texBinding_le := by decide
      ubos_le := by decide
      ssboBinding_le := by decide
      ssbo_le := by decide
      ssbo_clear := fun _ => by decide
      bufferless := by decide
      vertices := by decide
      indices := by decide
      ubos := List.forall_mem_singleton.2 ⟨by decide, by decide, by decide, fun _ => by decide⟩
      ubos_distinct := List.nodup_singleton _
      texs := List.forall_mem_singleton.2 ⟨by decide, by decide, by decide, by decide⟩
      texpix := by decide
      vspirv_lt := by decide
      fspirv_lt := by decide }
  exact ((forwarded_roundtrip 64).2 pixelMesh (List.replicate 512 0) hlimits (by decide +kernel)).1

end Infinigpu
