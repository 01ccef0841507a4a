import Infinigpu.Guest.Agreement
import Infinigpu.Guest.Images

/-!
# Gathering and encoding in bounds (`guest/icd`, `infinigpu_sync.c`, `infinigpu_forwarded.c`)

`replayCmdlistChecked` is `replayCmdlist` with every access checked: a read from a bound buffer or image must lie
inside it, the entries of an array must be as many as it has room for, and a write must lie inside the allocated
bytes.  No access fails (`gather_contained`), and the allocated payload is large enough for the encoder.
-/

namespace Infinigpu

/-! ### Checked writes -/

namespace Out

/-- `memcpy` that must stay inside the buffer. -/
def memcpyChecked (src : List UInt8) (st : Out) : Option Out :=
  if st.o + src.length ≤ st.buf.length then some (st.memcpy src) else none

def memcpyIfChecked (src : List UInt8) (st : Out) : Option Out :=
  if src.length ≠ 0 then st.memcpyChecked src else some st

def putUboChecked (st : Out) (u : ForwardedUbo) : Option Out :=
  (st.memcpyChecked (Bytes.ofWords [u.binding, u.data.count])).bind (memcpyIfChecked u.data.items)

/-- `n` bytes can be written. -/
def Room (n : Nat) (st : Out) : Prop := st.o + n ≤ st.buf.length

variable {st : Out} {n : Nat}

theorem Room.memcpy {src : List UInt8} (h : Room (src.length + n) st) :
    st.memcpyChecked src = some (st.memcpy src) ∧ Room n (st.memcpy src) := by
  have hroom : st.o + (src.length + n) ≤ st.buf.length := h
  have hsrc : st.o + src.length ≤ st.buf.length := by omega
  refine ⟨if_pos hsrc, ?_⟩
  change st.o + src.length + n ≤ (Bytes.splice st.buf st.o src).length
  rw [Bytes.splice_length hsrc]
  omega

private theorem Room.memcpyIf {src : List UInt8} (h : Room (src.length + n) st) :
    st.memcpyIfChecked src = some (st.memcpyIf src) ∧ Room n (st.memcpyIf src) := by
  unfold memcpyIfChecked Out.memcpyIf
  by_cases hsrc : src.length ≠ 0
  · rw [if_pos hsrc, if_pos hsrc]
    exact h.memcpy
  · rw [if_neg hsrc, if_neg hsrc]
    rw [not_not.1 hsrc, Nat.zero_add] at h
    exact ⟨rfl, h⟩

private theorem Room.putUbo {u : ForwardedUbo} (h : Room (8 + u.data.items.length + n) st) :
    st.putUboChecked u = some (st.putUbo u) ∧ Room n (st.putUbo u) := by
  have hheader : (Bytes.ofWords [u.binding, u.data.count]).length = 8 := Bytes.ofWords_length _
  have hsplit : Room ((Bytes.ofWords [u.binding, u.data.count]).length + (u.data.items.length + n)) st := by
    rw [hheader, ← Nat.add_assoc]
    exact h
  obtain ⟨hput, hroom⟩ := hsplit.memcpy
  obtain ⟨hdata, hrest⟩ := hroom.memcpyIf
  refine ⟨?_, hrest⟩
  rw [putUboChecked, hput, Option.bind_some, hdata]
  rfl

private theorem Room.putUbos {us : List ForwardedUbo}
    (h : Room ((us.map fun u => 8 + u.data.items.length).sum + n) st) :
    us.foldlM Out.putUboChecked st = some (us.foldl Out.putUbo st) ∧ Room n (us.foldl Out.putUbo st) := by
  induction us generalizing st with
  | nil =>
    rw [List.map_nil, List.sum_nil, Nat.zero_add] at h
    exact ⟨rfl, h⟩
  | cons u us ih =>
    rw [List.map_cons, List.sum_cons, Nat.add_assoc] at h
    obtain ⟨hput, hroom⟩ := h.putUbo
    rw [List.foldlM_cons, List.foldl_cons, hput]
    exact ih hroom

end Out

/-- `encodeForwardedCmdlist` with every write checked. -/
def encodeForwardedCmdlistChecked (out : Option (List UInt8)) (c : CmdlistArgs) :
    Option (Nat × Option (List UInt8)) :=
  let vbytes := c.vspirv.items.length * 4
  let fbytes := c.fspirv.items.length * 4
  let velen := c.vertexEntry.chars.length + 1
  let felen := c.fragmentEntry.chars.length + 1
  let attrsBytes := c.attrs.items.length * 12
  let drawsBytes := c.draws.items.length * 32
  let texsBytes := c.texs.items.length * 16
  if c.Degenerate then
    some (0, out)
  else
    let total := (40 + 80 + attrsBytes + drawsBytes + texsBytes + vbytes + fbytes + c.vertexData.items.length +
      c.indexData.items.length + velen + felen + c.pushConst.items.length + c.uboBytes + c.ssbo.items.length +
      c.texpix.items.length) % 2 ^ 64
    match out with
    | none => some (0, none)
    | some buf =>
      if total > buf.length then
        some (0, some buf)
      else do
        let st : Out := { buf, o := 0 }
        let st ← st.memcpyChecked c.workload.encode
        let st ← st.memcpyChecked c.tail.encode
        let st ← st.memcpyIfChecked (c.attrs.items.flatMap VertexAttr.encode)
        let st ← st.memcpyIfChecked (c.draws.items.flatMap DrawCmd.encode)
        let st ← st.memcpyIfChecked (c.texs.items.flatMap TextureDesc.encode)
        let st ← st.memcpyChecked (Bytes.ofWords c.vspirv.items)
        let st ← st.memcpyChecked (Bytes.ofWords c.fspirv.items)
        let st ← st.memcpyChecked c.vertexData.items
        let st ← st.memcpyIfChecked c.indexData.items
        let st ← st.memcpyChecked c.vertexEntry.bytes
        let st ← st.memcpyChecked c.fragmentEntry.bytes
        let st ← st.memcpyIfChecked c.pushConst.items
        let st ← c.ubos.items.foldlM Out.putUboChecked st
        let st ← st.memcpyIfChecked c.ssbo.items
        let st ← st.memcpyIfChecked c.texpix.items
        some (st.o, some st.buf)

/-- The encoder writes inside the buffer. -/
private theorem encodeForwardedCmdlistChecked_eq {out : Option (List UInt8)} {c : CmdlistArgs}
    (hlt : c.bytes.length < 2 ^ 64) :
    encodeForwardedCmdlistChecked out c = some (encodeForwardedCmdlist out c) := by
  have htotal : (40 + 80 + c.attrs.items.length * 12 + c.draws.items.length * 32 + c.texs.items.length * 16 +
      c.vspirv.items.length * 4 + c.fspirv.items.length * 4 + c.vertexData.items.length + c.indexData.items.length +
      (c.vertexEntry.chars.length + 1) + (c.fragmentEntry.chars.length + 1) + c.pushConst.items.length + c.uboBytes +
      c.ssbo.items.length + c.texpix.items.length) % 2 ^ 64 = c.bytes.length := by
    rw [← c.bytes_length, Nat.mod_eq_of_lt hlt]
  simp only [encodeForwardedCmdlistChecked, encodeForwardedCmdlist, htotal]
  by_cases hdegenerate : c.Degenerate
  · rw [if_pos hdegenerate, if_pos hdegenerate]
  · rw [if_neg hdegenerate, if_neg hdegenerate]
    cases out with
    | none => rfl
    | some buf =>
      by_cases hfits : c.bytes.length > buf.length
      · simp only [hfits, if_true]
      · have hsum : 0 + (c.workload.encode.length + (c.tail.encode.length +
            ((c.attrs.items.flatMap VertexAttr.encode).length + ((c.draws.items.flatMap DrawCmd.encode).length +
              ((c.texs.items.flatMap TextureDesc.encode).length + ((Bytes.ofWords c.vspirv.items).length +
                ((Bytes.ofWords c.fspirv.items).length + (c.vertexData.items.length + (c.indexData.items.length +
                  (c.vertexEntry.bytes.length + (c.fragmentEntry.bytes.length + (c.pushConst.items.length +
                    ((c.ubos.items.map fun u => 8 + u.data.items.length).sum + (c.ssbo.items.length +
                      (c.texpix.items.length + 0))))))))))))))) ≤ buf.length := by
          have hlen := c.bytes_length
          simp only [VulkanWorkload.encode_length, ForwardedCmdListTail.encode_length,
            flatMap_length VertexAttr.encode_length, flatMap_length DrawCmd.encode_length,
            flatMap_length TextureDesc.encode_length, Bytes.ofWords_length, CString.bytes_length]
          unfold CmdlistArgs.uboBytes at hlen
          omega
        -- each write takes its bytes from the room that is left
        have hroom : Out.Room _ { buf, o := 0 } := hsum
        obtain ⟨hworkload, hroom⟩ := hroom.memcpy
        obtain ⟨htail, hroom⟩ := hroom.memcpy
        obtain ⟨hattrs, hroom⟩ := hroom.memcpyIf
        obtain ⟨hdraws, hroom⟩ := hroom.memcpyIf
        obtain ⟨htexs, hroom⟩ := hroom.memcpyIf
        obtain ⟨hvspirv, hroom⟩ := hroom.memcpy
        obtain ⟨hfspirv, hroom⟩ := hroom.memcpy
        obtain ⟨hvdata, hroom⟩ := hroom.memcpy
        obtain ⟨hidata, hroom⟩ := hroom.memcpyIf
        obtain ⟨hventry, hroom⟩ := hroom.memcpy
        obtain ⟨hfentry, hroom⟩ := hroom.memcpy
        obtain ⟨hpush, hroom⟩ := hroom.memcpyIf
        obtain ⟨hubos, hroom⟩ := hroom.putUbos
        obtain ⟨hssbo, hroom⟩ := hroom.memcpyIf
        obtain ⟨htexpix, -⟩ := hroom.memcpyIf
        simp only [hfits, if_false, bind, Option.bind, hworkload, htail, hattrs, hdraws, htexs, hvspirv,
          hfspirv, hvdata, hidata, hventry, hfentry, hpush, hubos, hssbo, htexpix]

end Infinigpu

namespace Infinigpu.Icd

/-! ### Checked reads -/

/-- The bytes of a bound object, from where it is mapped. -/
structure Extent where
  start : Ptr
  len : Nat

/-- The `n` bytes behind `p` are bytes of the object. -/
def Extent.Holds (e : Extent) (p : Ptr) (n : Nat) : Prop :=
  p.handle = e.start.handle ∧ e.start.at_ ≤ p.at_ ∧ p.at_ + n ≤ e.start.at_ + e.len

instance (e : Extent) (p : Ptr) (n : Nat) : Decidable (e.Holds p n) := by unfold Extent.Holds; infer_instance

/-- A read that must stay inside the object. -/
def Extent.load (maps : Maps) (e : Extent) (p : Ptr) (n : UInt32) : Option (Counted UInt8) :=
  if e.Holds p n.toNat then some (p.load maps n) else none

def Buffer.extent (b : Buffer) : Option Extent := b.map.map fun p => { start := p, len := b.totalSize.toNat }

def Image.extent (img : Image) : Option Extent := img.map.map fun p => { start := p, len := img.size.toNat }

private theorem Extent.load_eq {maps : Maps} {e : Extent} {p : Ptr} {n : UInt32} (h : e.Holds p n.toNat) :
    e.load maps p n = some (p.load maps n) := if_pos h

/-- What lies behind an offset of a mapped buffer. -/
private theorem Buffer.holds_add {b : Buffer} {ptr : Ptr} {offset : UInt64} {n : Nat} (hmap : b.map = some ptr)
    (h : offset.toNat + n ≤ b.totalSize.toNat) : ∃ e, b.extent = some e ∧ e.Holds (ptr.add offset.toNat) n := by
  refine ⟨{ start := ptr, len := b.totalSize.toNat }, by rw [Buffer.extent, hmap]; rfl, rfl, Nat.le_add_right _ _, ?_⟩
  change ptr.at_ + offset.toNat + n ≤ ptr.at_ + b.totalSize.toNat
  omega

/-! ### `infinigpu_replay_cmdlist` -/

/-- A read of a part of a bound buffer. -/
def loadBound (maps : Maps) (buffer : Option Buffer) (p : Ptr) (n : UInt32) : Option (Counted UInt8) :=
  (buffer.bind Buffer.extent).bind fun e => e.load maps p n

def CmdBuffer.vertexDataChecked (cmd : CmdBuffer) (maps : Maps) (p : Pipeline) :
    Option (Except VkError (Counted UInt8)) :=
  if p.vertexStride > 0 then
    match cmd.vbuf with
    | none => some (.error (.unknown "cmdlist draw without a valid vertex buffer"))
    | some vb =>
      match vb.map with
      | none => some (.error (.unknown "cmdlist draw without a valid vertex buffer"))
      | some ptr =>
        if cmd.vbufOffset ≥ vb.totalSize then
          some (.error (.unknown "cmdlist draw without a valid vertex buffer"))
        else if vertexBytes p.vertexStride vb cmd.vbufOffset = 0 then
          some (.error (.unknown "vertex buffer smaller than one vertex"))
        else
          (loadBound maps cmd.vbuf (ptr.add cmd.vbufOffset.toNat)
            (vertexBytes p.vertexStride vb cmd.vbufOffset)).map .ok
  else
    some (.ok { items := [], lt := Counted.nil_lt })

def CmdBuffer.indexDataChecked (cmd : CmdBuffer) (maps : Maps) : Option (Except VkError (Counted UInt8)) :=
  if cmd.draws.any (·.indexed) then
    match cmd.ibuf with
    | none => some (.error (.unknown "indexed draw without a valid index buffer"))
    | some ib =>
      match ib.map with
      | none => some (.error (.unknown "indexed draw without a valid index buffer"))
      | some ptr =>
        if cmd.ibufOffset ≥ ib.totalSize then
          some (.error (.unknown "indexed draw without a valid index buffer"))
        else
          (loadBound maps cmd.ibuf (ptr.add cmd.ibufOffset.toNat)
            (vertexBytes (if cmd.indexType = Infinigpu.IndexType.u32 then 4 else 2) ib cmd.ibufOffset)).map .ok
  else
    some (.ok { items := [], lt := Counted.nil_lt })

/-- The uniform buffers that are forwarded. -/
def loadUbos (maps : Maps) : List (UInt32 × DescUbo) → Option (List ForwardedUbo)
  | [] => some []
  | (binding, u) :: rest =>
    match u.bound with
    | none => loadUbos maps rest
    | some r =>
      (loadBound maps u.buffer r.1 r.2).bind fun data => (loadUbos maps rest).map ({ data, binding } :: ·)

/-- They are put into an array of `MAX_SET_UBOS` entries. -/
def DescriptorSet.forwardedUbosChecked (ds : DescriptorSet) (maps : Maps) : Option (Counted ForwardedUbo) :=
  (loadUbos maps ds.ubos.entries).bind fun ubos =>
  if h : ubos.length ≤ MAX_SET_UBOS then some { items := ubos, lt := Nat.lt_of_le_of_lt h (by decide) } else none

def DescriptorSet.ssboChecked (ds : DescriptorSet) (maps : Maps) : Option (Counted UInt8) :=
  match ds.ssboBound with
  | none => some { items := [], lt := Counted.nil_lt }
  | some r => loadBound maps ds.ssboBuffer r.1 r.2

/-- The next texture is copied behind those before it. -/
def Image.stage (maps : Maps) (st : Out) (img : Image) : Option Out :=
  match img.pixels with
  | none => st.memcpyChecked [255, 255, 255, 255]
  | some p =>
    (img.extent.bind fun e => e.load maps p (img.width * img.height * 4)).bind fun px => st.memcpyChecked px.items

/-- The textures are copied into bytes that are allocated for them, and of these the encoder reads the front. -/
def texturePixelsChecked (maps : Maps) (imgs : List (Image × Option Sampler)) : Option (Counted UInt8) :=
  let total := (imgs.map fun t => t.1.textureBytes).sum
  (imgs.foldlM (fun (st : Out) (t : Image × Option Sampler) => t.1.stage maps st)
    { buf := List.replicate (max total 1) 0, o := 0 }).bind fun st =>
  if (UInt32.ofNat total).toNat ≤ st.buf.length then
    some
      { items := st.buf.take (UInt32.ofNat total).toNat
        lt := by
          rw [List.length_take]
          exact Nat.lt_of_le_of_lt (Nat.min_le_left _ _) (UInt32.toNat_lt _) }
  else
    none

/-- The arrays on the stack, the words of the stages and the push constants have what is read of them or put there. -/
structure ArraysFit (ds : DescriptorSet) (cmd : CmdBuffer) (p : Pipeline) (vs fs : PipelineStage) : Prop where
  attrs : p.attrs.length ≤ MAX_ATTRS
  textures : ds.textures.entries.length ≤ MAX_SET_TEXTURES
  vspirv : vs.words.items.length * 4 ≤ vs.spirvSize.toNat
  fspirv : fs.words.items.length * 4 ≤ fs.spirvSize.toNat
  pushConst : cmd.pushConstLen.toNat ≤ cmd.pushConst.length

instance (ds : DescriptorSet) (cmd : CmdBuffer) (p : Pipeline) (vs fs : PipelineStage) :
    Decidable (ArraysFit ds cmd p vs fs) :=
  decidable_of_iff (p.attrs.length ≤ MAX_ATTRS ∧ ds.textures.entries.length ≤ MAX_SET_TEXTURES ∧
    vs.words.items.length * 4 ≤ vs.spirvSize.toNat ∧ fs.words.items.length * 4 ≤ fs.spirvSize.toNat ∧
      cmd.pushConstLen.toNat ≤ cmd.pushConst.length)
    ⟨fun ⟨h1, h2, h3, h4, h5⟩ => ⟨h1, h2, h3, h4, h5⟩,
      fun h => ⟨h.attrs, h.textures, h.vspirv, h.fspirv, h.pushConst⟩⟩

/-- What `replayCmdlist` does once it has its vertices and indices. -/
def sendCmdlistChecked (maps : Maps) (ds : DescriptorSet) (cmd : CmdBuffer) (p : Pipeline) (vs fs : PipelineStage)
    (img : Image) (vdata idata : Counted UInt8) : Option (Except VkError ForwardRequest) := do
  let texpix ← texturePixelsChecked maps ds.textureImages
  let ubos ← ds.forwardedUbosChecked maps
  let ssbo ← ds.ssboChecked maps
  let c := { cmdlistArgs maps ds cmd p vs fs img vdata idata with ubos, ssbo, texpix }
  let sent ← encodeForwardedCmdlistChecked (some (List.replicate (cmdlistCap vs fs c) 0)) c
  some (sendEncoded img "cmdlist payload did not fit" sent)

/-- `replayCmdlist` with every access checked: `none` is one that is out of bounds. -/
def replayCmdlistChecked (maps : Maps) (ds : DescriptorSet) (cmd : CmdBuffer) (p : Pipeline) (vs fs : PipelineStage)
    (img : Image) : Option (Except VkError ForwardRequest) :=
  if ArraysFit ds cmd p vs fs then
    match cmd.vertexDataChecked maps p with
    | none => none
    | some (.error e) => some (.error e)
    | some (.ok vdata) =>
      match cmd.indexDataChecked maps with
      | none => none
      | some (.error e) => some (.error e)
      | some (.ok idata) => sendCmdlistChecked maps ds cmd p vs fs img vdata idata
  else
    none

/-! ### No access is out of bounds -/

variable {maps : Maps} {ds : DescriptorSet} {cmd : CmdBuffer} {p : Pipeline} {vs fs : PipelineStage} {img : Image}

private theorem loadBound_eq {b : Buffer} {ptr : Ptr} {offset : UInt64} {n : UInt32} (hmap : b.map = some ptr)
    (h : offset.toNat + n.toNat ≤ b.totalSize.toNat) :
    loadBound maps (some b) (ptr.add offset.toNat) n = some ((ptr.add offset.toNat).load maps n) := by
  obtain ⟨e, he, hholds⟩ := Buffer.holds_add hmap h
  rw [loadBound, Option.bind_some, he, Option.bind_some, Extent.load_eq hholds]

/-- Whole vertices behind the offset end inside the buffer, also when their length is cut to 32 bits. -/
private theorem vertexBytes_le {stride : UInt32} {vb : Buffer} {offset : UInt64} (h : offset < vb.totalSize) :
    offset.toNat + (vertexBytes stride vb offset).toNat ≤ vb.totalSize.toNat := by
  have hlt : offset.toNat < vb.totalSize.toNat := UInt64.lt_iff_toNat_lt.1 h
  have hwhole := Nat.div_mul_le_self (vb.totalSize.toNat - offset.toNat) stride.toNat
  have hcut : (vertexBytes stride vb offset).toNat ≤
      (vb.totalSize.toNat - offset.toNat) / stride.toNat * stride.toNat := by
    rw [vertexBytes, UInt32.toNat_ofNat']
    exact Nat.mod_le _ _
  omega

private theorem vertexDataChecked_eq : cmd.vertexDataChecked maps p = some (cmd.vertexData maps p) := by
  unfold CmdBuffer.vertexDataChecked CmdBuffer.vertexData
  by_cases hstride : p.vertexStride > 0
  · rw [if_pos hstride, if_pos hstride]
    cases hvb : cmd.vbuf with
    | none => rfl
    | some vb =>
      cases hmap : vb.map with
      | none => simp only [hmap]
      | some ptr =>
        simp only [hmap]
        by_cases hoffset : cmd.vbufOffset ≥ vb.totalSize
        · rw [if_pos hoffset, if_pos hoffset]
        · rw [if_neg hoffset, if_neg hoffset]
          by_cases hempty : vertexBytes p.vertexStride vb cmd.vbufOffset = 0
          · rw [if_pos hempty, if_pos hempty]
          · rw [if_neg hempty, if_neg hempty, loadBound_eq hmap (vertexBytes_le (UInt64.not_le.1 hoffset))]
            rfl
  · rw [if_neg hstride, if_neg hstride]

private theorem indexDataChecked_eq : cmd.indexDataChecked maps = some (cmd.indexData maps) := by
  unfold CmdBuffer.indexDataChecked CmdBuffer.indexData
  by_cases hindexed : cmd.draws.any (·.indexed)
  · rw [if_pos hindexed, if_pos hindexed]
    cases hib : cmd.ibuf with
    | none => rfl
    | some ib =>
      cases hmap : ib.map with
      | none => simp only [hmap]
      | some ptr =>
        simp only [hmap]
        by_cases hoffset : cmd.ibufOffset ≥ ib.totalSize
        · rw [if_pos hoffset, if_pos hoffset]
        · rw [if_neg hoffset, if_neg hoffset, loadBound_eq hmap (vertexBytes_le (UInt64.not_le.1 hoffset))]
          rfl
  · rw [if_neg hindexed, if_neg hindexed]

private theorem boundRange_loadBound {buffer : Option Buffer} {offset range limit : UInt64} {r : Ptr × UInt32}
    (h : boundRange buffer offset range limit = some r) (hlimit : limit.toNat < 2 ^ 32) :
    loadBound maps buffer r.1 r.2 = some (r.1.load maps r.2) := by
  obtain ⟨b, ptr, rfl, hmap, hptr, -, -, hend⟩ := boundRange_eq_some h hlimit
  rw [hptr]
  exact loadBound_eq hmap hend

private theorem loadUbos_eq (entries : List (UInt32 × DescUbo)) :
    loadUbos maps entries =
      some (entries.filterMap fun e => e.2.bound.map fun r => { data := r.1.load maps r.2, binding := e.1 }) := by
  induction entries with
  | nil => rfl
  | cons e rest ih =>
    obtain ⟨binding, u⟩ := e
    cases hbound : u.bound with
    | none => simp only [loadUbos, hbound, ih, List.filterMap_cons, Option.map_none]
    | some r =>
      have hload : loadBound maps u.buffer r.1 r.2 = some (r.1.load maps r.2) :=
        boundRange_loadBound hbound (by decide)
      simp only [loadUbos, hbound, hload, ih, Option.bind_some, Option.map_some, List.filterMap_cons]

private theorem forwardedUbosChecked_eq : ds.forwardedUbosChecked maps =
    some
      { items := ds.forwardedUbos maps
        lt := Nat.lt_of_le_of_lt (ds.forwardedUbos_length_le maps) (by decide) } := by
  rw [DescriptorSet.forwardedUbosChecked, loadUbos_eq, Option.bind_some]
  exact dif_pos (ds.forwardedUbos_length_le maps)

private theorem ssboChecked_eq : ds.ssboChecked maps =
    some ((ds.ssboBound.map fun r => r.1.load maps r.2).getD { items := [], lt := Nat.two_pow_pos 32 }) := by
  unfold DescriptorSet.ssboChecked
  cases hbound : ds.ssboBound with
  | none => rfl
  | some r => exact boundRange_loadBound hbound (by decide)

/-! ### Textures -/

/-- The texels of an image within the limits are in the image, and as many as they are added up to be. -/
private theorem Image.Advertised.pixels_holds (h : img.Advertised) {ptr : Ptr} (hpixels : img.pixels = some ptr) :
    (∃ e, img.extent = some e ∧ e.Holds ptr (img.width * img.height * 4).toNat) ∧
      (img.width * img.height * 4).toNat = img.width.toNat * img.height.toNat * 4 := by
  have hlinear := h.linear
  have hwidth := hlinear.width_le
  have hrow : img.rowPitch = img.width * 4 ∧ img.map = some ptr := by
    unfold Image.pixels at hpixels
    by_cases hrow : img.rowPitch = img.width * 4
    · rw [if_pos hrow] at hpixels
      exact ⟨hrow, hpixels⟩
    · rw [if_neg hrow] at hpixels
      cases hpixels
  have hfour : (4 : UInt32).toNat = 4 := rfl
  -- a pitch of four bytes a texel makes the texels the bytes of one layer
  have hpitch : img.rowPitch.toNat = img.width.toNat * 4 := by
    rw [hrow.1, UInt32.toNat_mul, hfour]
    exact Nat.mod_eq_of_lt (by omega)
  have harea : img.width.toNat * img.height.toNat ≤ 16384 * 16384 := Nat.mul_le_mul hwidth hlinear.height_le
  have hbytes : (img.width * img.height * 4).toNat = img.width.toNat * img.height.toNat * 4 := by
    rw [UInt32.toNat_mul, UInt32.toNat_mul, Nat.mod_eq_of_lt (Nat.lt_of_le_of_lt harea (by decide)), hfour]
    exact Nat.mod_eq_of_lt (by omega)
  have hlayer : img.width.toNat * img.height.toNat * 4 ≤ img.size.toNat := by
    calc img.width.toNat * img.height.toNat * 4
        = img.rowPitch.toNat * img.height.toNat := by rw [hpitch, Nat.mul_right_comm]
      _ ≤ img.rowPitch.toNat * img.height.toNat * img.arrayLayers.toNat :=
        Nat.le_mul_of_pos_right _ hlinear.arrayLayers_pos
      _ ≤ img.size.toNat := hlinear.size_ge
  refine ⟨⟨{ start := ptr, len := img.size.toNat }, by rw [Image.extent, hrow.2]; rfl, rfl, Nat.le_refl _, ?_⟩,
    hbytes⟩
  exact Nat.add_le_add_left (hbytes.trans_le hlayer) _

private theorem Image.Advertised.texturePixels_length (h : img.Advertised) :
    (img.texturePixels maps).length = img.textureBytes := by
  unfold Image.texturePixels Image.textureBytes
  cases hpixels : img.pixels with
  | none => rfl
  | some ptr =>
    rw [Option.isSome_some, if_pos rfl]
    exact (Ptr.load_length maps ptr _).trans (h.pixels_holds hpixels).2

private theorem Image.Advertised.stage_eq (h : img.Advertised) (st : Out) :
    img.stage maps st = st.memcpyChecked (img.texturePixels maps) := by
  unfold Image.stage Image.texturePixels
  cases hpixels : img.pixels with
  | none => rfl
  | some ptr =>
    obtain ⟨⟨e, he, hholds⟩, -⟩ := h.pixels_holds hpixels
    simp only [he, Option.bind_some, Extent.load_eq hholds]

/-- The textures fill what is allocated for them one after another. -/
private theorem stage_all (maps : Maps) {imgs : List (Image × Option Sampler)} (himgs : ∀ t ∈ imgs, t.1.Advertised)
    {buf written : List UInt8} {st : Out} (h : Out.Holds buf written st)
    (hroom : written.length + (imgs.map fun t => t.1.textureBytes).sum ≤ buf.length) :
    ∃ st', imgs.foldlM (fun (st : Out) (t : Image × Option Sampler) => t.1.stage maps st) st = some st' ∧
      Out.Holds buf (written ++ imgs.flatMap fun t => t.1.texturePixels maps) st' := by
  induction imgs generalizing written st with
  | nil =>
    rw [List.flatMap_nil, List.append_nil]
    exact ⟨st, rfl, h⟩
  | cons t imgs ih =>
    have ht := himgs t List.mem_cons_self
    have hlen : (t.1.texturePixels maps).length = t.1.textureBytes := ht.texturePixels_length
    rw [List.map_cons, List.sum_cons] at hroom
    have hfits : st.o + (t.1.texturePixels maps).length ≤ st.buf.length := by
      rw [h.o, h.buf, List.length_append, List.length_drop]
      omega
    obtain ⟨st', hst', hholds⟩ := ih (fun t' ht' => himgs t' (List.mem_cons_of_mem _ ht'))
      (h.memcpy (t.1.texturePixels maps)) (by rw [List.length_append]; omega)
    refine ⟨st', ?_, ?_⟩
    · rw [List.foldlM_cons, ht.stage_eq, Out.memcpyChecked, if_pos hfits]
      exact hst'
    · rw [List.flatMap_cons, ← List.append_assoc]
      exact hholds

private theorem texturePixelsChecked_eq {imgs : List (Image × Option Sampler)} (himgs : ∀ t ∈ imgs, t.1.Advertised) :
    texturePixelsChecked maps imgs = some (texturePixels maps imgs) := by
  have hlen : (imgs.flatMap fun t => t.1.texturePixels maps).length = (imgs.map fun t => t.1.textureBytes).sum := by
    rw [List.length_flatMap]
    exact congrArg List.sum (List.map_congr_left fun t ht => (himgs t ht).texturePixels_length)
  have hcut := Nat.mod_le (imgs.map fun t => t.1.textureBytes).sum (2 ^ 32)
  set total := (imgs.map fun t => t.1.textureBytes).sum with htotal
  obtain ⟨st, hst, hholds⟩ := stage_all maps himgs
    (Out.holds_start (List.replicate (max total 1) 0)) (by rw [List.length_nil, List.length_replicate]; omega)
  rw [List.nil_append] at hholds
  have hroom : (UInt32.ofNat total).toNat ≤ st.buf.length := by
    rw [hholds.buf, List.length_append, List.length_drop, List.length_replicate, UInt32.toNat_ofNat']
    omega
  have htake : st.buf.take (UInt32.ofNat total).toNat =
      (imgs.flatMap fun t => t.1.texturePixels maps).take (UInt32.ofNat total).toNat := by
    rw [hholds.buf, List.take_append_of_le_length]
    rw [hlen, UInt32.toNat_ofNat']
    exact hcut
  simp only [texturePixelsChecked, ← htotal, hst, Option.bind_some, hroom, if_true, htake]
  rfl

private theorem denseFrom_mem {expected : UInt32} {slots : List (UInt32 × DescTexture)}
    {imgs : List (Image × Option Sampler)} (h : denseFrom expected slots = some imgs) {t : Image × Option Sampler}
    (ht : t ∈ imgs) :
    ∃ e ∈ slots, ∃ view, e.2.image = some view ∧ view.image = some t.1 := by
  induction slots generalizing expected imgs with
  | nil =>
    cases h
    cases ht
  | cons slot rest ih =>
    simp only [denseFrom] at h
    cases himage : slot.2.image.bind (·.image) with
    | none => simp [himage] at h
    | some first =>
      by_cases hbinding : slot.1 = expected
      · simp only [himage, hbinding, if_true, Option.map_eq_some_iff] at h
        obtain ⟨imgs', himgs', rfl⟩ := h
        rcases List.mem_cons.1 ht with rfl | htail
        · obtain ⟨view, hview, hfirst⟩ := Option.bind_eq_some_iff.1 himage
          exact ⟨slot, List.mem_cons_self, view, hview, hfirst⟩
        · obtain ⟨e, he, hview⟩ := ih himgs' htail
          exact ⟨e, List.mem_cons_of_mem _ he, hview⟩
      · simp [himage, hbinding] at h

/-- The images that are bound in a set. -/
def DescriptorSet.Binds (ds : DescriptorSet) (img : Image) : Prop :=
  ∃ e ∈ ds.textures.entries, ∃ view, e.2.image = some view ∧ view.image = some img

private theorem textureImages_binds {t : Image × Option Sampler} (ht : t ∈ ds.textureImages) : ds.Binds t.1 := by
  unfold DescriptorSet.textureImages DescriptorSet.forwardedTextures at ht
  cases hsorted : ds.sortedTextures with
  | nil => simp [hsorted] at ht
  | cons slot rest =>
    cases hdense : denseFrom slot.1 (slot :: rest) with
    | none => simp [hsorted, hdense] at ht
    | some imgs =>
      simp only [hsorted, hdense, Option.map_some, Option.getD_some] at ht
      obtain ⟨e, he, hview⟩ := denseFrom_mem hdense ht
      rw [← hsorted] at he
      exact ⟨e, (List.perm_insertionSort _ _).mem_iff.1 he, hview⟩

/-! ### The payload -/

private theorem arraysFit : ArraysFit ds cmd p vs fs where
  attrs := p.attrs_le
  textures := ds.textures.le
  vspirv := by
    have hlen : vs.words.items.length = vs.spirvSize.toNat / 4 := vs.spirv_length
    omega
  fspirv := by
    have hlen : fs.words.items.length = fs.spirvSize.toNat / 4 := fs.spirv_length
    omega
  pushConst := by
    rw [cmd.pushConst_length]
    exact cmd.pushConstLen_le

private theorem sendCmdlistChecked_eq (himgs : ∀ ti, ds.Binds ti → ti.Advertised) (vdata idata : Counted UInt8) :
    sendCmdlistChecked maps ds cmd p vs fs img vdata idata =
      some (sendEncoded img "cmdlist payload did not fit"
        (encodeForwardedCmdlist
          (some (List.replicate (cmdlistCap vs fs (cmdlistArgs maps ds cmd p vs fs img vdata idata)) 0))
          (cmdlistArgs maps ds cmd p vs fs img vdata idata))) := by
  have htexpix : texturePixelsChecked maps ds.textureImages = some (texturePixels maps ds.textureImages) :=
    texturePixelsChecked_eq fun t ht => himgs t.1 (textureImages_binds ht)
  unfold sendCmdlistChecked
  rw [htexpix, forwardedUbosChecked_eq, ssboChecked_eq]
  exact congrArg (fun sent => sent.bind fun sent => some (sendEncoded img "cmdlist payload did not fit" sent))
    (encodeForwardedCmdlistChecked_eq (cmdlistArgs_bytes_lt maps ds cmd p vs fs img vdata idata))

private theorem replayCmdlistChecked_eq (himgs : ∀ ti, ds.Binds ti → ti.Advertised) :
    replayCmdlistChecked maps ds cmd p vs fs img = some (replayCmdlist maps ds cmd p vs fs img) := by
  unfold replayCmdlistChecked replayCmdlist
  rw [if_pos arraysFit, vertexDataChecked_eq, indexDataChecked_eq]
  cases cmd.vertexData maps p with
  | error e => rfl
  | ok vdata =>
    cases cmd.indexData maps with
    | error e => rfl
    | ok idata => exact sendCmdlistChecked_eq himgs vdata idata

/-- Two stages of less than 1 GiB do not wrap the 32-bit part of the sum. -/
private theorem bytes_le_cmdlistCap (hvs : vs.spirvSize.toNat < 2 ^ 30) (hfs : fs.spirvSize.toNat < 2 ^ 30)
    (vdata idata : Counted UInt8) :
    (cmdlistArgs maps ds cmd p vs fs img vdata idata).bytes.length ≤
      cmdlistCap vs fs (cmdlistArgs maps ds cmd p vs fs img vdata idata) := by
  have hsum : (256 + vs.spirvSize + fs.spirvSize).toNat = 256 + vs.spirvSize.toNat + fs.spirvSize.toNat := by
    have h256 : (256 : UInt32).toNat = 256 := rfl
    rw [UInt32.toNat_add, UInt32.toNat_add, h256]
    omega
  have hlen := (cmdlistArgs maps ds cmd p vs fs img vdata idata).bytes_length
  have hvspirv : (cmdlistArgs maps ds cmd p vs fs img vdata idata).vspirv.items.length = vs.spirvSize.toNat / 4 :=
    vs.spirv_length
  have hfspirv : (cmdlistArgs maps ds cmd p vs fs img vdata idata).fspirv.items.length = fs.spirvSize.toNat / 4 :=
    fs.spirv_length
  have hventry : (cmdlistArgs maps ds cmd p vs fs img vdata idata).vertexEntry = vs.entrypoint := rfl
  have hfentry : (cmdlistArgs maps ds cmd p vs fs img vdata idata).fragmentEntry = fs.entrypoint := rfl
  rw [hventry, hfentry] at hlen
  unfold cmdlistCap
  omega

/-- **Gathering and encoding stay in bounds.** With images within the advertised limits no access of
`infinigpu_replay_cmdlist` and the encoder leaves the bound buffers, the bound images, the arrays and the allocated
bytes; the payload of two stages of less than 1 GiB holds the command list, so only a degenerate one is not
encoded. -/
theorem gather_contained (maps : Maps) (ds : DescriptorSet) (cmd : CmdBuffer) (p : Pipeline) (vs fs : PipelineStage)
    (img : Image) (himgs : ∀ ti, ds.Binds ti → ti.Advertised) :
    replayCmdlistChecked maps ds cmd p vs fs img = some (replayCmdlist maps ds cmd p vs fs img) ∧
      (vs.spirvSize.toNat < 2 ^ 30 → fs.spirvSize.toNat < 2 ^ 30 → ∀ vdata idata c,
        c = cmdlistArgs maps ds cmd p vs fs img vdata idata →
          c.bytes.length ≤ cmdlistCap vs fs c ∧
          ((encodeForwardedCmdlist (some (List.replicate (cmdlistCap vs fs c) 0)) c).1 = 0 ↔ c.Degenerate)) := by
  refine ⟨replayCmdlistChecked_eq himgs, ?_⟩
  rintro hvs hfs vdata idata c rfl
  have hcap : (cmdlistArgs maps ds cmd p vs fs img vdata idata).bytes.length ≤
      cmdlistCap vs fs (cmdlistArgs maps ds cmd p vs fs img vdata idata) := bytes_le_cmdlistCap hvs hfs vdata idata
  refine ⟨hcap, ?_⟩
  rw [encodeForwardedCmdlist_eq (cmdlistArgs_bytes_lt maps ds cmd p vs fs img vdata idata), List.length_replicate]
  have hpos := (cmdlistArgs maps ds cmd p vs fs img vdata idata).bytes_length
  by_cases hdegenerate : (cmdlistArgs maps ds cmd p vs fs img vdata idata).Degenerate
  · rw [if_neg fun h => h.1 hdegenerate]
    exact ⟨fun _ => hdegenerate, fun _ => rfl⟩
  · rw [if_pos ⟨hdegenerate, hcap⟩]
    refine ⟨fun hzero => ?_, fun h => absurd h hdegenerate⟩
    have hlen : (cmdlistArgs maps ds cmd p vs fs img vdata idata).bytes.length = 0 := hzero
    omega

/-- A set with a texture and a uniform buffer. -/
theorem gather_contained_textured :
    drawTextured.boundSet.Binds (pixelImage 2) ∧
      replayCmdlistChecked drawTextured.maps drawTextured.boundSet drawTextured.cmd solidPipeline (solidStage .vertex)
          (solidStage .fragment) (pixelImage 1) =
        some (replayCmdlist drawTextured.maps drawTextured.boundSet drawTextured.cmd solidPipeline
        (solidStage .vertex)
          (solidStage .fragment) (pixelImage 1)) ∧
      (cmdlistArgs drawTextured.maps drawTextured.boundSet drawTextured.cmd solidPipeline (solidStage .vertex)
          (solidStage .fragment) (pixelImage 1) { items := [], lt := Nat.two_pow_pos 32 }
          { items := [], lt := Nat.two_pow_pos 32 }).bytes.length ≤
        cmdlistCap (solidStage .vertex) (solidStage .fragment)
          (cmdlistArgs drawTextured.maps drawTextured.boundSet drawTextured.cmd solidPipeline (solidStage .vertex)
            (solidStage .fragment) (pixelImage 1) { items := [], lt := Nat.two_pow_pos 32 }
            { items := [], lt := Nat.two_pow_pos 32 }) := by
  have hentries : drawTextured.boundSet.textures.entries =
      [(0, { image := some { image := some (pixelImage 2) }, sampler := none })] := by decide +kernel
  have himgs : ∀ ti, drawTextured.boundSet.Binds ti → ti.Advertised := by
    rintro ti ⟨e, he, view, hview, hti⟩
    rw [hentries, List.mem_singleton] at he
    subst e
    cases hview
    cases hti
    have hformat : formatSupported VkFormat.r8g8b8a8Unorm = true := rfl
    exact texel_advertised hformat (some { gemHandle := 2, mapped := true })
  obtain ⟨hchecked, hcap⟩ := gather_contained drawTextured.maps drawTextured.boundSet drawTextured.cmd solidPipeline
    (solidStage .vertex) (solidStage .fragment) (pixelImage 1) himgs
  have hbinds : drawTextured.boundSet.Binds (pixelImage 2) := by
    refine ⟨(0, { image := some { image := some (pixelImage 2) }, sampler := none }), ?_, _, rfl, rfl⟩
    rw [hentries]
    exact List.mem_cons_self
  exact ⟨hbinds, hchecked, (hcap (by decide) (by decide) _ _ _ rfl).1⟩

end Infinigpu.Icd
