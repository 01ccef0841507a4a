import Infinigpu.Replay.Pipelines

/-!
# Vertex fetch (`infinigpu-replay`, `map_vformat` and `build_pipeline`)

A fetch of a vertex reads the bytes of each attribute's mapped format behind its offset.  The decoder compares neither
with the stride.

* `GraphicsPipeline.fetches`: what the fetch of a vertex reads of the vertex buffer;
* `OwnedGeometry.fetches_inside_iff`: the fetches stay inside the vertices exactly when every attribute ends inside
  one;
* `fetch_contained_iff`: the command lists of which this holds, by the words of the payload.
-/

namespace Infinigpu

/-- The bytes of one element of a format that vertex attributes are mapped to. -/
def formatBytes (f : VkFormat) : Nat :=
  if f = 103 then 8
  else if f = 106 then 12
  else if f = 109 then 16
  else 4

/-- The parts of the vertex buffer, by start and length, that the fetch of vertex `i` reads. -/
def GraphicsPipeline.fetches (p : GraphicsPipeline) (i : Nat) : List (Nat × Nat) :=
  p.bindings.flatMap fun stride => p.attrs.map fun a => (i * stride.toNat + a.offset.toNat, formatBytes a.format)

namespace OwnedGeometry

/-- Every attribute ends inside the vertex. -/
def AttrsFit (g : OwnedGeometry) : Prop :=
  ∀ a ∈ g.attrs, a.offset.toNat + formatBytes (mapVformat a.format) ≤ g.vertexStride.toNat

end OwnedGeometry

/-- With any pipeline that is built for the draw, the fetch of a vertex of the data reads this data only. -/
def FetchesInside (draw : OwnedForwardedDraw) (g : OwnedGeometry) : Prop :=
  ∀ topology vs fs layout renderPass, ∀ i < g.vertexData.length / g.vertexStride.toNat,
    ∀ r ∈ (Objects.pipelineInfo draw topology vs fs layout renderPass).fetches i, r.1 + r.2 ≤ g.vertexData.length

/-- The last element of a row of `stride` bytes each is the one that runs out of it. -/
private theorem fits_all_iff {stride len : Nat} (offset size : Nat) (hstride : 0 < stride) (hlen : 0 < len)
    (hdvd : stride ∣ len) : (∀ i < len / stride, i * stride + offset + size ≤ len) ↔ offset + size ≤ stride := by
  obtain ⟨n, rfl⟩ := hdvd
  rw [Nat.mul_div_cancel_left n hstride]
  have hn : 0 < n := Nat.pos_of_mul_pos_left hlen
  constructor
  · intro h
    have hlast := h (n - 1) (by omega)
    have hsplit : stride * n = (n - 1) * stride + stride := by
      rw [← Nat.succ_mul, Nat.mul_comm, Nat.succ_eq_add_one, Nat.sub_add_cancel hn]
    omega
  · intro h i hi
    have hle : (i + 1) * stride ≤ n * stride := Nat.mul_le_mul_right stride hi
    rw [Nat.succ_mul, Nat.mul_comm n] at hle
    omega

private theorem fetches_eq {draw : OwnedForwardedDraw} {g : OwnedGeometry} (hg : draw.geometry = some g)
    (hstride : g.vertexStride ≠ 0) (topology : PrimitiveTopology) (vs fs : Option (List UInt32))
    (layout : Option PipelineLayout) (renderPass : Option RenderPass) (i : Nat) :
    (Objects.pipelineInfo draw topology vs fs layout renderPass).fetches i =
      g.attrs.map fun a => (i * g.vertexStride.toNat + a.offset.toNat, formatBytes (mapVformat a.format)) := by
  have hinput : vertexInputOf draw = some (g.vertexStride, g.attrs) := by
    rw [vertexInputOf, hg]
    exact if_neg hstride
  simp only [GraphicsPipeline.fetches, Objects.pipelineInfo, hinput, Option.map_some, Option.toList_some,
    Option.getD_some, List.flatMap_cons, List.flatMap_nil, List.append_nil, List.map_map]
  rfl

/-- The fetches stay inside the data exactly when every attribute ends inside the vertex; a draw without a vertex
buffer fetches nothing. -/
theorem OwnedGeometry.WellFormed.fetches_inside_iff {draw : OwnedForwardedDraw} {g : OwnedGeometry}
    (hwell : g.WellFormed) (hg : draw.geometry = some g) :
    FetchesInside draw g ↔ g.vertexStride = 0 ∨ g.AttrsFit := by
  by_cases hstride : g.vertexStride = 0
  · refine iff_of_true (fun topology vs fs layout renderPass i hi => ?_) (.inl hstride)
    have hzero : g.vertexStride.toNat = 0 := by rw [hstride]; rfl
    rw [hzero, Nat.div_zero] at hi
    exact absurd hi (Nat.not_lt_zero i)
  · have hpos : 0 < g.vertexStride.toNat := Nat.pos_of_ne_zero fun h => hstride (UInt32.toNat_inj.mp h)
    have hlen : 0 < g.vertexData.length := Nat.pos_of_ne_zero fun h => hpos.ne' (hwell.vertices.1.mpr h)
    have hfits (a : VertexAttr) :=
      fits_all_iff a.offset.toNat (formatBytes (mapVformat a.format)) hpos hlen hwell.vertices.2
    rw [or_iff_right hstride]
    constructor
    · intro h a ha
      refine (hfits a).mp fun i hi => ?_
      have hread := h .triangleList none none none none i hi
      rw [fetches_eq hg hstride] at hread
      exact hread _ (List.mem_map_of_mem ha)
    · intro h topology vs fs layout renderPass i hi r hr
      rw [fetches_eq hg hstride] at hr
      obtain ⟨a, ha, rfl⟩ := List.mem_map.mp hr
      exact (hfits a).mpr (h a ha) i hi

/-! ### The attributes of a payload -/

private theorem getElem?_readArray {α : Type*} {size n : Nat} {decode : List UInt8 → α} {bs : List UInt8} {l : List α}
    (h : readArray size decode n bs = some l) {i : Nat} (hi : i < n) :
    l[i]? = some (decode (Bytes.slice bs (i * size) size)) := by
  induction n generalizing bs l i with
  | zero => exact absurd hi (Nat.not_lt_zero i)
  | succ n ih =>
    rw [readArray] at h
    obtain ⟨⟨a, rest⟩, hread, ha⟩ := Option.bind_eq_some_iff.1 h
    obtain ⟨l', hl', rfl⟩ := Option.map_eq_some_iff.1 ha
    rw [readFromPrefix] at hread
    split at hread
    · cases hread
    · simp only [Option.some_inj, Prod.mk.injEq] at hread
      obtain ⟨rfl, rfl⟩ := hread
      cases i with
      | zero => rw [List.getElem?_cons_zero, Nat.zero_mul, Bytes.slice, List.drop_zero]
      | succ i =>
        rw [List.getElem?_cons_succ, ih hl' (by omega), Bytes.slice, Bytes.slice, List.drop_drop, Nat.succ_mul,
          Nat.add_comm size]

/-- The words of the `i`-th attribute record of a payload. -/
def attrFormat (payload : List UInt8) (i : Nat) : UInt32 := u32At payload (124 + i * 12)

def attrOffset (payload : List UInt8) (i : Nat) : UInt32 := u32At payload (128 + i * 12)

/-- The bytes that a format code stands for; a code that is not known is taken for the widest float. -/
def codeBytes (code : UInt32) : Nat :=
  if code = 0 ∨ code = 4 ∨ code = 5 then 4
  else if code = 1 then 8
  else if code = 2 then 12
  else 16

private theorem formatBytes_mapVformat (code : UInt32) : formatBytes (mapVformat code) = codeBytes code := by
  by_cases h0 : code = 0
  · subst h0
    rfl
  by_cases h1 : code = 1
  · subst h1
    rfl
  by_cases h2 : code = 2
  · subst h2
    rfl
  by_cases h4 : code = 4
  · subst h4
    rfl
  by_cases h5 : code = 5
  · subst h5
    rfl
  simp only [mapVformat, codeBytes, h0, h1, h2, h4, h5, if_false, or_false]
  rfl

/-- Every attribute record of the payload leaves room for its format code behind its offset. -/
def RecordsFit (payload : List UInt8) : Prop :=
  ∀ i < (tailOf payload).attrCount.toNat,
    (attrOffset payload i).toNat + codeBytes (attrFormat payload i) ≤ (tailOf payload).vertexStride.toNat

instance (payload : List UInt8) : Decidable (RecordsFit payload) :=
  inferInstanceAs (Decidable (∀ i < (tailOf payload).attrCount.toNat,
    (attrOffset payload i).toNat + codeBytes (attrFormat payload i) ≤ (tailOf payload).vertexStride.toNat))

/-- The stride and the attributes of a decoded draw are those of the payload. -/
private theorem decoded_attrs {payload : List UInt8} {maxBytes : Nat} {draw : OwnedForwardedDraw}
    (h : decodeForwardedCmdlist payload maxBytes = some draw) :
    ∃ g, draw.geometry = some g ∧ g.WellFormed ∧ g.vertexStride = (tailOf payload).vertexStride ∧
      g.attrs.length = (tailOf payload).attrCount.toNat ∧ ∀ i < g.attrs.length, ∃ location,
        g.attrs[i]? = some ⟨location, attrFormat payload i, attrOffset payload i⟩ := by
  obtain ⟨hlength, hgood, s, hmatch, hbytes, hparts⟩ := decodeForwardedCmdlist_eq_some_iff.1 h
  obtain ⟨g, hg, -, hwell⟩ := decodeParts_sound hmatch hgood hlength hbytes.symm hparts
  obtain ⟨attrs, draws, textures, uniforms, vertexEntry, fragmentEntry, hdecoded, rfl⟩ :=
    decodeParts_eq_some_iff.1 hparts
  obtain rfl := Option.some.inj hg
  refine ⟨_, rfl, hwell, rfl, readArray_length hdecoded.attrs, fun i hi => ?_⟩
  have hcount : attrs.length = (tailOf payload).attrCount.toNat := readArray_length hdecoded.attrs
  have hattrs : s.attrs.length = (tailOf payload).attrCount.toNat * 12 := by
    have hlengths := hmatch
    simp only [Sections.Match, Sections.parts, List.map_cons, ForwardedCmdListTail.lengths,
      List.cons.injEq] at hlengths
    exact hlengths.1
  -- the record starts the section, and the section starts the bytes behind the tail
  have hword {k : Nat} (hk : k + 4 ≤ 12) :
      u32At (Bytes.slice s.attrs (i * 12) 12) k = u32At payload (120 + (i * 12 + k)) := by
    have hrest : payload.drop 120 = s.attrs ++ (s.parts.tail.flatten ++ s.pixels) := by
      rw [← hbytes, Sections.bytes, Sections.parts, List.tail_cons, List.flatten_cons, List.append_assoc]
    have hpayload : Bytes.slice payload (120 + (i * 12 + k)) 4 = Bytes.slice (payload.drop 120) (i * 12 + k) 4 := by
      rw [Bytes.slice, Bytes.slice, List.drop_drop]
    have hin : i < attrs.length := hi
    rw [u32At, u32At, Bytes.slice_slice hk, hpayload, hrest, Bytes.slice_append_left (by omega)]
  have hrecord := getElem?_readArray hdecoded.attrs (i := i) (by rw [← hcount]; exact hi)
  refine ⟨u32At (Bytes.slice s.attrs (i * 12) 12) 0, hrecord.trans ?_⟩
  rw [VertexAttr.decode, hword (k := 4) (by decide), hword (k := 8) (by decide), attrFormat, attrOffset]
  congr 3
  · omega
  · omega

private theorem attrsFit_iff {payload : List UInt8} {g : OwnedGeometry}
    (hstride : g.vertexStride = (tailOf payload).vertexStride)
    (hcount : g.attrs.length = (tailOf payload).attrCount.toNat) (hattrs : ∀ i < g.attrs.length, ∃ location,
      g.attrs[i]? = some ⟨location, attrFormat payload i, attrOffset payload i⟩) :
    g.AttrsFit ↔ RecordsFit payload := by
  constructor
  · intro h i hi
    obtain ⟨location, hattr⟩ := hattrs i (by omega)
    have hfit := h _ (List.mem_of_getElem? hattr)
    rw [formatBytes_mapVformat, hstride] at hfit
    exact hfit
  · intro h a ha
    obtain ⟨i, hi, hget⟩ := List.mem_iff_getElem.mp ha
    obtain ⟨location, hattr⟩ := hattrs i hi
    rw [List.getElem?_eq_getElem hi, Option.some_inj, hget] at hattr
    rw [hattr, formatBytes_mapVformat, hstride]
    exact h i (by omega)

/-- A command list of one draw with one vertex of `stride` bytes and one attribute. -/
def oneVertex (stride format offset : UInt32) : List UInt8 :=
  Bytes.ofWords (List.replicate 10 0 ++
      [4, 4, 2, 2, stride, 1, stride, 0, 0, 1, 0, 0, 0, 0, 0, 0, 0, 0, 0, 0] ++
      [0, format, offset] ++ [1, 1, 0, 0, 0, 0, 0, 0] ++ [SPIRV_MAGIC, SPIRV_MAGIC]) ++
    List.replicate stride.toNat 0 ++ [109, 0, 109, 0]

/-- Of a command list that is accepted, every attribute ends inside the vertex, and every fetch of a vertex stays
inside the vertex data, exactly when the records of the payload leave room for their format codes.  The fetches alone
stay inside also where the list has no vertex data. -/
theorem fetch_contained_iff {payload : List UInt8} {maxBytes : Nat} {draw : OwnedForwardedDraw}
    (h : decodeForwardedCmdlist payload maxBytes = some draw) :
    ∃ g, draw.geometry = some g ∧ (g.AttrsFit ∧ FetchesInside draw g ↔ RecordsFit payload) ∧
      (FetchesInside draw g ↔ (tailOf payload).vertexStride = 0 ∨ RecordsFit payload) := by
  obtain ⟨g, hg, hwell, hstride, hcount, hattrs⟩ := decoded_attrs h
  have hfetches := hwell.fetches_inside_iff hg
  have hrecords := attrsFit_iff hstride hcount hattrs
  refine ⟨g, hg, ?_, ?_⟩
  · rw [hfetches, ← hrecords]
    exact ⟨fun hboth => hboth.1, fun hfit => ⟨hfit, .inr hfit⟩⟩
  · rw [hfetches, hrecords, hstride]

/-- Two floats at the start of a vertex of eight bytes. -/
theorem fetch_contained_iff_fits : ∃ draw g, decodeForwardedCmdlist (oneVertex 8 1 0) 4096 = some draw ∧
    draw.geometry = some g ∧ g.AttrsFit ∧ FetchesInside draw g := by
  obtain ⟨draw, hdraw⟩ := Option.isSome_iff_exists.mp
    (show (decodeForwardedCmdlist (oneVertex 8 1 0) 4096).isSome by decide +kernel)
  obtain ⟨g, hg, hfit, -⟩ := fetch_contained_iff hdraw
  have hrecords : RecordsFit (oneVertex 8 1 0) := by decide +kernel
  exact ⟨draw, g, hdraw, hg, hfit.mpr hrecords⟩

/-- A format code that is not known, in a vertex of eight bytes: sixteen of them are fetched. -/
theorem fetch_not_contained : ¬ ∀ payload maxBytes draw g, decodeForwardedCmdlist payload maxBytes = some draw →
    draw.geometry = some g → g.AttrsFit ∧ FetchesInside draw g := by
  intro hall
  obtain ⟨draw, hdraw⟩ := Option.isSome_iff_exists.mp
    (show (decodeForwardedCmdlist (oneVertex 8 6 0) 4096).isSome by decide +kernel)
  obtain ⟨g, hg, -, hstride, hcount, hattrs⟩ := decoded_attrs hdraw
  have hfit := (attrsFit_iff hstride hcount hattrs).mp (hall _ _ draw g hdraw hg).1
  have hout : ¬ RecordsFit (oneVertex 8 6 0) := by decide +kernel
  exact hout hfit

end Infinigpu
