import Infinigpu.Device.Decoder

/-!
# The forwarded-draw encoders (`guest/icd`, `infinigpu_forwarded.c`)

The two C encoders write header, tail and sections into a buffer by one `memcpy` after another.  What they write is
said once: `encodeForwarded_eq` and `encodeForwardedCmdlist_eq` give the returned length, the bytes written and the
bytes of the buffer left alone.
-/

namespace Infinigpu

/-! ### Arguments -/

/-- An array passed with a 32-bit count. -/
structure Counted (α : Type) where
  items : List α
  lt : items.length < 2 ^ 32

theorem Counted.nil_lt {α : Type} : ([] : List α).length < 2 ^ 32 := Nat.two_pow_pos 32

def Counted.count {α : Type} (c : Counted α) : UInt32 := UInt32.ofNat c.items.length

@[simp] theorem Counted.count_toNat {α : Type} (c : Counted α) : c.count.toNat = c.items.length :=
  UInt32.toNat_ofNat_of_lt' c.lt

theorem Counted.count_eq_zero {α : Type} (c : Counted α) : c.count = 0 ↔ c.items = [] := by
  rw [← UInt32.toNat_inj, count_toNat, ← List.length_eq_zero_iff]
  rfl

/-- A C string. -/
structure CString where
  chars : List UInt8
  nulFree : 0 ∉ chars

/-- The string with its terminator. -/
def CString.bytes (s : CString) : List UInt8 := s.chars ++ [0]

structure ForwardedUbo where
  data : Counted UInt8
  binding : UInt32

/-- The arguments of `infinigpu_encode_forwarded`. -/
structure ForwardedArgs where
  width : UInt32
  height : UInt32
  bg : Rgba
  scanoutAddr : UInt64
  vertexCount : UInt32
  topology : UInt32
  vspirv : Counted UInt32
  fspirv : Counted UInt32
  vertexEntry : CString
  fragmentEntry : CString

/-- The arguments of `infinigpu_encode_forwarded_cmdlist`. -/
structure CmdlistArgs where
  width : UInt32
  height : UInt32
  bg : Rgba
  scanoutAddr : UInt64
  vspirv : Counted UInt32
  fspirv : Counted UInt32
  vertexEntry : CString
  fragmentEntry : CString
  vertexStride : UInt32
  attrs : Counted VertexAttr
  vertexData : Counted UInt8
  indexData : Counted UInt8
  indexType : UInt32
  topology : UInt32
  depthFlags : UInt32
  pushConst : Counted UInt8
  ubos : Counted ForwardedUbo
  ssbo : Counted UInt8
  ssboBinding : UInt32
  draws : Counted DrawCmd
  texs : Counted TextureDesc
  texBinding : UInt32
  texpix : Counted UInt8
  rasterFlags : UInt32

/-! ### Structures in memory -/

def VulkanWorkload.encode (wl : VulkanWorkload) : List UInt8 :=
  Bytes.ofWords [wl.op, wl.width, wl.height, 0, wl.bg.r, wl.bg.g, wl.bg.b, wl.bg.a] ++
    Bytes.ofValue 8 wl.scanoutAddr.toNat

def ForwardedDrawTail.encode (tail : ForwardedDrawTail) : List UInt8 :=
  Bytes.ofWords [tail.vertexCount, tail.topology, tail.vertexSpirvLen, tail.fragmentSpirvLen, tail.vertexEntryLen,
    tail.fragmentEntryLen]

def ForwardedCmdListTail.encode (tail : ForwardedCmdListTail) : List UInt8 :=
  Bytes.ofWords [tail.vertexSpirvLen, tail.fragmentSpirvLen, tail.vertexEntryLen, tail.fragmentEntryLen,
    tail.vertexStride, tail.attrCount, tail.vertexDataLen, tail.indexDataLen, tail.indexType, tail.drawCount,
    tail.topology, tail.depthFlags, tail.pushConstLen, tail.texCount, tail.uboLen, tail.uboCount, tail.texBinding,
    tail.rasterFlags, tail.ssboLen, tail.ssboBinding]

def VertexAttr.encode (a : VertexAttr) : List UInt8 := Bytes.ofWords [a.location, a.format, a.offset]

def DrawCmd.encode (d : DrawCmd) : List UInt8 :=
  Bytes.ofWords [d.count, d.instanceCount, d.first, d.vertexOffset.toUInt32, d.viewport.r, d.viewport.g, d.viewport.b,
    d.viewport.a]

def TextureDesc.encode (td : TextureDesc) : List UInt8 :=
  Bytes.ofWords [td.width, td.height, td.dataLen, td.samplerFlags]

/-! ### The output buffer -/

/-- The buffer and the offset `o` of the next write. -/
structure Out where
  buf : List UInt8
  o : Nat

namespace Out

/-- `memcpy(out + o, src, n); o += n`. -/
def memcpy (src : List UInt8) (st : Out) : Out where
  buf := Bytes.splice st.buf st.o src
  o := st.o + src.length

/-- The same behind `if (n)`. -/
def memcpyIf (src : List UInt8) (st : Out) : Out := if src.length ≠ 0 then st.memcpy src else st

/-- Starting from the buffer `buf`, the bytes `written` have been put at its front. -/
structure Holds (buf written : List UInt8) (st : Out) : Prop where
  o : st.o = written.length
  buf : st.buf = written ++ buf.drop written.length

variable {buf written : List UInt8} {st : Out}

theorem holds_start (buf : List UInt8) : Holds buf [] { buf, o := 0 } := ⟨rfl, rfl⟩

theorem Holds.memcpy (h : Holds buf written st) (src : List UInt8) : Holds buf (written ++ src) (st.memcpy src) where
  o := by rw [Out.memcpy, h.o, List.length_append]
  buf := by
    have htake : (written ++ buf.drop written.length).take written.length = written := List.take_left
    have hdrop : (written ++ buf.drop written.length).drop (written.length + src.length) =
        buf.drop (written.length + src.length) := by
      rw [← List.drop_drop, List.drop_left, List.drop_drop]
    rw [Out.memcpy, h.o, h.buf, Bytes.splice, htake, hdrop, List.length_append]

private theorem Holds.memcpyIf (h : Holds buf written st) (src : List UInt8) :
    Holds buf (written ++ src) (st.memcpyIf src) := by
  rw [Out.memcpyIf]
  by_cases hsrc : src.length ≠ 0
  · rw [if_pos hsrc]
    exact h.memcpy src
  · rw [if_neg hsrc, List.length_eq_zero_iff.1 (not_not.1 hsrc), List.append_nil]
    exact h

/-- A loop of writes. -/
private theorem Holds.foldl {α : Type*} {f : Out → α → Out} {g : α → List UInt8}
    (hf : ∀ {written st} (a : α), Holds buf written st → Holds buf (written ++ g a) (f st a)) (l : List α)
    (h : Holds buf written st) : Holds buf (written ++ l.flatMap g) (l.foldl f st) := by
  induction l generalizing written st with
  | nil =>
    rw [List.flatMap_nil, List.append_nil]
    exact h
  | cons a l ih =>
    rw [List.flatMap_cons, ← List.append_assoc, List.foldl_cons]
    exact ih (hf a h)

end Out

/-! ### `infinigpu_encode_forwarded` -/

namespace ForwardedArgs

def workload (a : ForwardedArgs) : VulkanWorkload where
  op := VkOp.forwarded
  width := a.width
  height := a.height
  bg := a.bg
  scanoutAddr := a.scanoutAddr

/-- The tail, its lengths cut to 32 bits. -/
def tail (a : ForwardedArgs) : ForwardedDrawTail where
  vertexCount := a.vertexCount
  topology := a.topology
  vertexSpirvLen := UInt32.ofNat (a.vspirv.items.length * 4)
  fragmentSpirvLen := UInt32.ofNat (a.fspirv.items.length * 4)
  vertexEntryLen := UInt32.ofNat (a.vertexEntry.chars.length + 1)
  fragmentEntryLen := UInt32.ofNat (a.fragmentEntry.chars.length + 1)

end ForwardedArgs

/-- The returned length, and the buffer afterwards; `none` is a null buffer. -/
def encodeForwarded (out : Option (List UInt8)) (a : ForwardedArgs) : Nat × Option (List UInt8) :=
  let vbytes := a.vspirv.items.length * 4
  let fbytes := a.fspirv.items.length * 4
  let velen := a.vertexEntry.chars.length + 1
  let felen := a.fragmentEntry.chars.length + 1
  let total := (40 + 24 + vbytes + fbytes + velen + felen) % 2 ^ 64
  match out with
  | none => (0, none)
  | some buf =>
    if total > buf.length then
      (0, some buf)
    else
      let st : Out := { buf, o := 0 }
      let st := st.memcpy a.workload.encode
      let st := st.memcpy a.tail.encode
      let st := st.memcpy (Bytes.ofWords a.vspirv.items)
      let st := st.memcpy (Bytes.ofWords a.fspirv.items)
      let st := st.memcpy a.vertexEntry.bytes
      let st := st.memcpy a.fragmentEntry.bytes
      (st.o, some st.buf)

/-! ### `infinigpu_encode_forwarded_cmdlist` -/

namespace CmdlistArgs

def workload (c : CmdlistArgs) : VulkanWorkload where
  op := VkOp.forwardedCmdlist
  width := c.width
  height := c.height
  bg := c.bg
  scanoutAddr := c.scanoutAddr

/-- The bytes of the uniform block, headers included. -/
def uboBytes (c : CmdlistArgs) : Nat := (c.ubos.items.map fun u => 8 + u.data.items.length).sum

/-- The tail, its lengths cut to 32 bits. -/
def tail (c : CmdlistArgs) : ForwardedCmdListTail where
  vertexSpirvLen := UInt32.ofNat (c.vspirv.items.length * 4)
  fragmentSpirvLen := UInt32.ofNat (c.fspirv.items.length * 4)
  vertexEntryLen := UInt32.ofNat (c.vertexEntry.chars.length + 1)
  fragmentEntryLen := UInt32.ofNat (c.fragmentEntry.chars.length + 1)
  vertexStride := c.vertexStride
  attrCount := c.attrs.count
  vertexDataLen := c.vertexData.count
  indexDataLen := c.indexData.count
  indexType := c.indexType
  drawCount := c.draws.count
  topology := c.topology
  depthFlags := c.depthFlags
  pushConstLen := c.pushConst.count
  texCount := c.texs.count
  uboLen := UInt32.ofNat c.uboBytes
  uboCount := c.ubos.count
  texBinding := c.texBinding
  rasterFlags := c.rasterFlags
  ssboLen := c.ssbo.count
  ssboBinding := c.ssboBinding

/-- The lists that the encoder does not take: no draw, or a stride without data, or data without a stride. -/
def Degenerate (c : CmdlistArgs) : Prop :=
  c.draws.count = 0 ∨ (c.vertexStride = 0) ≠ (c.vertexData.count = 0)

instance (c : CmdlistArgs) : Decidable c.Degenerate := by unfold Degenerate; infer_instance

end CmdlistArgs

/-- One record of the uniform block. -/
def Out.putUbo (st : Out) (u : ForwardedUbo) : Out :=
  (st.memcpy (Bytes.ofWords [u.binding, u.data.count])).memcpyIf u.data.items

/-- The returned length, and the buffer afterwards; `none` is a null buffer. -/
def encodeForwardedCmdlist (out : Option (List UInt8)) (c : CmdlistArgs) : Nat × Option (List UInt8) :=
  let vbytes := c.vspirv.items.length * 4
  let fbytes := c.fspirv.items.length * 4
  let velen := c.vertexEntry.chars.length + 1
  let felen := c.fragmentEntry.chars.length + 1
  let attrsBytes := c.attrs.items.length * 12
  let drawsBytes := c.draws.items.length * 32
  let texsBytes := c.texs.items.length * 16
  if c.Degenerate then
    (0, out)
  else
    let total := (40 + 80 + attrsBytes + drawsBytes + texsBytes + vbytes + fbytes + c.vertexData.items.length +
      c.indexData.items.length + velen + felen + c.pushConst.items.length + c.uboBytes + c.ssbo.items.length +
      c.texpix.items.length) % 2 ^ 64
    match out with
    | none => (0, none)
    | some buf =>
      if total > buf.length then
        (0, some buf)
      else
        let st : Out := { buf, o := 0 }
        let st := st.memcpy c.workload.encode
        let st := st.memcpy c.tail.encode
        let st := st.memcpyIf (c.attrs.items.flatMap VertexAttr.encode)
        let st := st.memcpyIf (c.draws.items.flatMap DrawCmd.encode)
        let st := st.memcpyIf (c.texs.items.flatMap TextureDesc.encode)
        let st := st.memcpy (Bytes.ofWords c.vspirv.items)
        let st := st.memcpy (Bytes.ofWords c.fspirv.items)
        let st := st.memcpy c.vertexData.items
        let st := st.memcpyIf c.indexData.items
        let st := st.memcpy c.vertexEntry.bytes
        let st := st.memcpy c.fragmentEntry.bytes
        let st := st.memcpyIf c.pushConst.items
        let st := c.ubos.items.foldl Out.putUbo st
        let st := st.memcpyIf c.ssbo.items
        let st := st.memcpyIf c.texpix.items
        (st.o, some st.buf)

/-! ### What is written -/

/-- The bytes of a bufferless draw. -/
def ForwardedArgs.bytes (a : ForwardedArgs) : List UInt8 :=
  a.workload.encode ++ a.tail.encode ++ Bytes.ofWords a.vspirv.items ++ Bytes.ofWords a.fspirv.items ++
    a.vertexEntry.bytes ++ a.fragmentEntry.bytes

namespace CmdlistArgs

/-- The uniforms as the decoder is to see them. -/
def uniforms (c : CmdlistArgs) : List OwnedUniform :=
  c.ubos.items.map fun u => { binding := u.binding, bytes := u.data.items }

def sections (c : CmdlistArgs) : Sections where
  attrs := c.attrs.items.flatMap VertexAttr.encode
  draws := c.draws.items.flatMap DrawCmd.encode
  texs := c.texs.items.flatMap TextureDesc.encode
  vspirv := Bytes.ofWords c.vspirv.items
  fspirv := Bytes.ofWords c.fspirv.items
  vdata := c.vertexData.items
  idata := c.indexData.items
  ventry := c.vertexEntry.bytes
  fentry := c.fragmentEntry.bytes
  pushConst := c.pushConst.items
  ubo := c.uniforms.flatMap OwnedUniform.record
  ssbo := c.ssbo.items
  pixels := c.texpix.items

/-- The bytes of a command list. -/
def bytes (c : CmdlistArgs) : List UInt8 := c.workload.encode ++ c.tail.encode ++ c.sections.bytes

end CmdlistArgs

@[simp] theorem VulkanWorkload.encode_length (wl : VulkanWorkload) : wl.encode.length = 40 := by
  rw [encode, List.length_append, Bytes.ofWords_length, Bytes.ofValue_length]
  rfl

@[simp] theorem ForwardedDrawTail.encode_length (tail : ForwardedDrawTail) : tail.encode.length = 24 := by
  rw [encode, Bytes.ofWords_length]
  rfl

@[simp] theorem ForwardedCmdListTail.encode_length (tail : ForwardedCmdListTail) : tail.encode.length = 80 := by
  rw [encode, Bytes.ofWords_length]
  rfl

theorem CString.bytes_length (s : CString) : s.bytes.length = s.chars.length + 1 := List.length_append

theorem flatMap_length {α : Type*} {encode : α → List UInt8} {size : Nat} (h : ∀ a, (encode a).length = size)
    (l : List α) : (l.flatMap encode).length = l.length * size := by
  induction l with
  | nil => rw [List.flatMap_nil, List.length_nil, List.length_nil, Nat.zero_mul]
  | cons a l ih => rw [List.flatMap_cons, List.length_append, h, ih, List.length_cons, Nat.succ_mul, Nat.add_comm]

theorem VertexAttr.encode_length (a : VertexAttr) : a.encode.length = 12 := by rw [encode, Bytes.ofWords_length]; rfl

theorem DrawCmd.encode_length (d : DrawCmd) : d.encode.length = 32 := by rw [encode, Bytes.ofWords_length]; rfl

theorem TextureDesc.encode_length (td : TextureDesc) : td.encode.length = 16 := by
  rw [encode, Bytes.ofWords_length]
  rfl

theorem ForwardedArgs.bytes_length (a : ForwardedArgs) :
    a.bytes.length = 40 + 24 + a.vspirv.items.length * 4 + a.fspirv.items.length * 4 +
      (a.vertexEntry.chars.length + 1) + (a.fragmentEntry.chars.length + 1) := by
  simp only [bytes, List.length_append, VulkanWorkload.encode_length, ForwardedDrawTail.encode_length,
    Bytes.ofWords_length, CString.bytes_length]
  omega

namespace CmdlistArgs

private theorem uniforms_length (c : CmdlistArgs) : (c.uniforms.flatMap OwnedUniform.record).length = c.uboBytes := by
  rw [uniforms, uboBytes, List.flatMap_map]
  induction c.ubos.items with
  | nil => rfl
  | cons u l ih =>
    rw [List.flatMap_cons, List.length_append, ih, List.map_cons, List.sum_cons, OwnedUniform.record,
      List.length_append, Bytes.ofWords_length]
    rfl

/-- The sections have the lengths that are summed up for the tail, before they are cut to 32 bits. -/
theorem sections_lengths (c : CmdlistArgs) : c.sections.parts.map List.length =
    [c.attrs.items.length * 12, c.draws.items.length * 32, c.texs.items.length * 16, c.vspirv.items.length * 4,
      c.fspirv.items.length * 4, c.vertexData.items.length, c.indexData.items.length, c.vertexEntry.chars.length + 1,
      c.fragmentEntry.chars.length + 1, c.pushConst.items.length, c.uboBytes, c.ssbo.items.length] := by
  simp only [Sections.parts, sections, List.map_cons, List.map_nil, flatMap_length VertexAttr.encode_length,
    flatMap_length DrawCmd.encode_length, flatMap_length TextureDesc.encode_length, Bytes.ofWords_length,
    CString.bytes_length, uniforms_length, Nat.mul_comm 4]

theorem bytes_length (c : CmdlistArgs) :
    c.bytes.length = 40 + 80 + c.attrs.items.length * 12 + c.draws.items.length * 32 + c.texs.items.length * 16 +
      c.vspirv.items.length * 4 + c.fspirv.items.length * 4 + c.vertexData.items.length + c.indexData.items.length +
      (c.vertexEntry.chars.length + 1) + (c.fragmentEntry.chars.length + 1) + c.pushConst.items.length + c.uboBytes +
      c.ssbo.items.length + c.texpix.items.length := by
  have hsections : c.sections.bytes.length = (c.sections.parts.map List.length).sum + c.texpix.items.length := by
    rw [Sections.bytes, List.length_append, List.length_flatten]
    rfl
  rw [bytes, List.length_append, List.length_append, hsections, sections_lengths, VulkanWorkload.encode_length,
    ForwardedCmdListTail.encode_length]
  simp only [List.sum_cons, List.sum_nil]
  omega

end CmdlistArgs

private theorem Out.Holds.putUbo {buf written : List UInt8} {st : Out} (h : Holds buf written st) (u : ForwardedUbo) :
    Holds buf (written ++ OwnedUniform.record { binding := u.binding, bytes := u.data.items }) (st.putUbo u) := by
  have hput := (h.memcpy (Bytes.ofWords [u.binding, u.data.count])).memcpyIf u.data.items
  rw [List.append_assoc] at hput
  exact hput

/-- What a draw that fits into the buffer leaves there. -/
theorem encodeForwarded_eq {a : ForwardedArgs} {buf : List UInt8} (hlt : a.bytes.length < 2 ^ 64) :
    encodeForwarded (some buf) a =
      if a.bytes.length ≤ buf.length then (a.bytes.length, some (a.bytes ++ buf.drop a.bytes.length))
      else (0, some buf) := by
  have htotal : (40 + 24 + a.vspirv.items.length * 4 + a.fspirv.items.length * 4 + (a.vertexEntry.chars.length + 1) +
      (a.fragmentEntry.chars.length + 1)) % 2 ^ 64 = a.bytes.length := by
    rw [← a.bytes_length, Nat.mod_eq_of_lt hlt]
  have hholds := ((((((Out.holds_start buf).memcpy a.workload.encode).memcpy a.tail.encode).memcpy
    (Bytes.ofWords a.vspirv.items)).memcpy (Bytes.ofWords a.fspirv.items)).memcpy a.vertexEntry.bytes).memcpy
    a.fragmentEntry.bytes
  rw [List.nil_append] at hholds
  simp only [encodeForwarded, htotal]
  by_cases hfits : a.bytes.length ≤ buf.length
  · rw [if_neg (Nat.not_lt.2 hfits), if_pos hfits]
    exact Prod.ext hholds.o (congrArg some hholds.buf)
  · rw [if_pos (Nat.lt_of_not_le hfits), if_neg hfits]

/-- What a command list that fits into the buffer leaves there. -/
theorem encodeForwardedCmdlist_eq {c : CmdlistArgs} {buf : List UInt8} (hlt : c.bytes.length < 2 ^ 64) :
    encodeForwardedCmdlist (some buf) c =
      if ¬ c.Degenerate ∧ c.bytes.length ≤ buf.length then
        (c.bytes.length, some (c.bytes ++ buf.drop c.bytes.length))
      else (0, some buf) := by
  have htotal : (40 + 80 + c.attrs.items.length * 12 + c.draws.items.length * 32 + c.texs.items.length * 16 +
      c.vspirv.items.length * 4 + c.fspirv.items.length * 4 + c.vertexData.items.length + c.indexData.items.length +
      (c.vertexEntry.chars.length + 1) + (c.fragmentEntry.chars.length + 1) + c.pushConst.items.length + c.uboBytes +
      c.ssbo.items.length + c.texpix.items.length) % 2 ^ 64 = c.bytes.length := by
    rw [← c.bytes_length, Nat.mod_eq_of_lt hlt]
  have hheader := ((Out.holds_start buf).memcpy c.workload.encode).memcpy c.tail.encode
  have harrays := ((hheader.memcpyIf c.sections.attrs).memcpyIf c.sections.draws).memcpyIf c.sections.texs
  have hdata := (((harrays.memcpy c.sections.vspirv).memcpy c.sections.fspirv).memcpy c.sections.vdata).memcpyIf
    c.sections.idata
  have hentries := ((hdata.memcpy c.sections.ventry).memcpy c.sections.fentry).memcpyIf c.sections.pushConst
  have hubos := hentries.foldl (fun u h => h.putUbo u) c.ubos.items
  have hholds := (hubos.memcpyIf c.sections.ssbo).memcpyIf c.sections.pixels
  simp only [encodeForwardedCmdlist, htotal]
  by_cases hdegenerate : c.Degenerate
  · rw [if_pos hdegenerate, if_neg fun h => h.1 hdegenerate]
  · rw [if_neg hdegenerate]
    by_cases hfits : c.bytes.length ≤ buf.length
    · have hwritten : c.bytes = [] ++ c.workload.encode ++ c.tail.encode ++ c.sections.attrs ++ c.sections.draws ++
          c.sections.texs ++ c.sections.vspirv ++ c.sections.fspirv ++ c.sections.vdata ++ c.sections.idata ++
          c.sections.ventry ++ c.sections.fentry ++ c.sections.pushConst ++
          (c.ubos.items.flatMap fun u => OwnedUniform.record { binding := u.binding, bytes := u.data.items }) ++
          c.sections.ssbo ++ c.sections.pixels := by
        have hubo : (c.ubos.items.flatMap
          fun u => OwnedUniform.record { binding := u.binding, bytes := u.data.items }) =
            c.sections.ubo := by
          rw [CmdlistArgs.sections, CmdlistArgs.uniforms, List.flatMap_map]
        simp only [hubo, CmdlistArgs.bytes, Sections.bytes, Sections.parts, List.flatten_cons, List.flatten_nil,
          List.append_assoc, List.nil_append]
      rw [← hwritten] at hholds
      rw [if_neg (Nat.not_lt.2 hfits), if_pos ⟨hdegenerate, hfits⟩]
      exact Prod.ext hholds.o (congrArg some hholds.buf)
    · rw [if_pos (Nat.lt_of_not_le hfits), if_neg fun h => hfits h.2]

end Infinigpu
