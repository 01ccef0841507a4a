import Infinigpu.Guest.Agreement
import Infinigpu.Guest.Rows

/-!
# Cleared and drawn backgrounds (`guest/icd`, `infinigpu_sync.c`; `infinigpu-replay`)

A clear without a draw is a fill with the colour packed for the format of the image.  With a draw the host clears its
own target, which is `R8G8B8A8_UNORM` for every image, and its bytes are stored as they are.  The two agree on a texel
of the background exactly where `SameBackground` holds (`backgrounds_agree_iff`).
-/

namespace Infinigpu.Icd

/-! ### Texels -/

/-- The bytes of a texel. -/
def Image.texel (img : Image) (maps : Maps) (x y : Nat) : Option (List UInt8) :=
  img.map.map fun p =>
    (maps p.handle).load (p.at_ + y * img.rowPitch.toNat + x * img.blocksize.toNat) img.blocksize.toNat

/-- A colour target is packed in rows of four-byte texels. -/
structure Image.Packed (img : Image) : Prop where
  blocksize : img.blocksize = 4
  rowPitch : img.rowPitch.toNat = img.width.toNat * 4
  width_le : img.width.toNat ≤ 16384
  height_le : img.height.toNat ≤ 16384

private theorem Image.Advertised.packed {img : Image} (h : img.Advertised)
    (hformat : formatSupported img.format = true) :
    img.Packed := by
  have hlinear := h.linear
  have hblock : img.blocksize = 4 :=
    Option.some_inj.1 (hlinear.blocksize.symm.trans (formatBlocksize_colour hformat))
  have hrow := hlinear.rowPitch
  rw [hblock] at hrow
  exact ⟨hblock, hrow, hlinear.width_le, hlinear.height_le⟩

/-- What a block of rows stores in a row. -/
private theorem load_rows_store {p : Ptr} {pitch h : Nat} {row : Nat → List UInt8}
    (hrow : ∀ y < h, (row y).length ≤ pitch) {y : Nat} (hy : y < h) (maps : Maps) :
    (Op.runAll maps ((List.range h).map fun y => .store (p.add (y * pitch)) (row y)) p.handle).load
      (p.at_ + y * pitch)
      (row y).length = row y :=
  Ptr.load_eq_iff (p := p.add (y * pitch)).2 fun _ hk => runAll_rows_store hrow hy hk maps

/-- A texel after a block of rows has been stored over the image. -/
private theorem texel_rows_store {img : Image} {base : Ptr} (himg : img.Packed) (hmap : img.map = some base) {h : Nat}
    (row : Nat → List UInt8) (hrow : ∀ y < h, (row y).length = img.width.toNat * 4) {x y : Nat}
    (hx : x < img.width.toNat) (hy : y < h) (maps : Maps) :
    img.texel (Op.runAll maps ((List.range h).map fun y => .store (base.add (y * img.rowPitch.toNat)) (row y))) x y =
      some (Bytes.slice (row y) (x * 4) 4) := by
  have hblock : img.blocksize.toNat = 4 := by rw [himg.blocksize]; rfl
  have hload : (Op.runAll maps ((List.range h).map fun y => .store (base.add (y * img.rowPitch.toNat)) (row y))
      base.handle).load (base.at_ + y * img.rowPitch.toNat) (row y).length = row y :=
    load_rows_store (fun y hy => by rw [hrow y hy, himg.rowPitch]) hy maps
  rw [Image.texel, hmap, Option.map_some, hblock, ← Memory.slice_load (n := (row y).length), hload]
  rw [hrow y hy]
  omega

/-! ### The clear of a command buffer without draws -/

/-- From the corner over the whole image; an extent of zero stands for that of the image. -/
structure Rect2D.Covers (area : Rect2D) (img : Image) : Prop where
  x : area.x = 0
  y : area.y = 0
  width : area.width = 0 ∨ img.width ≤ area.width
  height : area.height = 0 ∨ img.height ≤ area.height

/-- A command buffer that clears all of an image and draws nothing. -/
structure State.Clears (st : State) (img : Image) (col : Rgba) : Prop where
  draws : st.cmd.draws = []
  hasClear : st.cmd.hasClear = true
  colorAtt : st.cmd.colorAtt.bind (·.image) = some img
  clearValue : st.cmd.clearValue = col
  covers : st.cmd.renderArea.Covers img

variable {o : Outside} {img : Image} {base : Ptr} {col : Rgba} {px : List UInt8}

private theorem packClearRgba8_length {fmt : UInt32} (h : o.packClearRgba8 fmt col = some px) : px.length = 4 := by
  obtain ⟨⟨bgra, srgb⟩, -, rfl⟩ := Option.map_eq_some_iff.1 h
  cases bgra with
  | false => rfl
  | true => rfl

/-- An extent of a covering area, clamped to the image. -/
private theorem clamped_extent {extent size : UInt32} (h : extent = 0 ∨ size ≤ extent) :
    (if 0 + (if extent ≠ 0 then extent else size) > size then size - 0 else if extent ≠ 0 then extent else size) =
      size := by
  rw [UInt32.zero_add, UInt32.sub_zero]
  rcases h with rfl | hle
  · rw [if_neg (not_not.2 rfl), if_neg (UInt32.lt_irrefl size)]
  · by_cases hzero : extent ≠ 0
    · rw [if_pos hzero]
      by_cases hlt : extent > size
      · rw [if_pos hlt]
      · rw [if_neg hlt]
        exact UInt32.le_antisymm (UInt32.not_lt.1 hlt) hle
    · rw [if_neg hzero, if_neg (UInt32.lt_irrefl size)]

/-- The offset of a row is not cut. -/
private theorem row_offset (himg : img.Packed) {y : Nat} (hy : y < img.height.toNat) :
    (UInt64.ofNat y * img.rowPitch.toUInt64).toNat = y * img.rowPitch.toNat := by
  have hheight := himg.height_le
  have hwidth := himg.width_le
  have hpitch := himg.rowPitch
  have hbytes : y * img.rowPitch.toNat ≤ 16384 * 65536 := Nat.mul_le_mul (by omega) (by omega)
  rw [UInt64.toNat_mul, UInt64.toNat_ofNat', UInt32.toNat_toUInt64, Nat.mod_eq_of_lt (a := y) (by omega)]
  exact Nat.mod_eq_of_lt (by omega)

/-- A clear of the whole image fills its rows with the packed colour. -/
private theorem runClear_rows (himg : img.Packed) (hmap : img.map = some base) (hwidth : 0 < img.width.toNat)
    (hheight : 0 < img.height.toNat) (hpack : o.packClearRgba8 img.format col = some px) {area : Rect2D}
    (hcovers : area.Covers img) :
    runClear o img col area = (List.range img.height.toNat).map fun y =>
      (base.add (y * img.rowPitch.toNat), (List.replicate img.width.toNat px).flatten) := by
  obtain ⟨x, y, w, h⟩ := area
  obtain rfl : x = 0 := hcovers.x
  obtain rfl : y = 0 := hcovers.y
  have hinside : ¬ (img.blocksize ≠ 4 ∨ (0 : UInt32) ≥ img.width ∨ (0 : UInt32) ≥ img.height) := by
    rintro (hblock | hw | hh)
    · exact hblock himg.blocksize
    · have hle : img.width.toNat ≤ 0 := UInt32.le_iff_toNat_le.1 hw
      omega
    · have hle : img.height.toNat ≤ 0 := UInt32.le_iff_toNat_le.1 hh
      omega
  simp only [runClear, hmap, hpack, if_neg hinside, clamped_extent hcovers.width, clamped_extent hcovers.height]
  refine List.map_congr_left fun y hy => ?_
  rw [List.mem_range] at hy
  have hlimit := himg.height_le
  have hrow : (0 + UInt32.ofNat y).toUInt64 = UInt64.ofNat y := by
    rw [UInt32.zero_add]
    refine UInt64.toNat_inj.1 ?_
    rw [UInt32.toNat_toUInt64, UInt32.toNat_ofNat', UInt64.toNat_ofNat', Nat.mod_eq_of_lt (by omega),
      Nat.mod_eq_of_lt (by omega)]
  rw [hrow, row_offset himg hy]
  rfl

/-- Every texel is the packed colour after the clear. -/
private theorem State.Clears.texel {st : State} (h : st.Clears img col) (himg : img.Packed)
    (hmap : img.map = some base) (hpack : o.packClearRgba8 img.format col = some px) {x y : Nat}
    (hx : x < img.width.toNat) (hy : y < img.height.toNat) : ∃ stores, st.render o = .ok stores ∧ ∀ maps,
      img.texel (Op.runAll maps (stores.map fun s => .store s.1 s.2)) x y = some px := by
  have hnone : st.forwardDraws = .ok none := by
    unfold State.forwardDraws
    simp [h.draws]
  refine ⟨runClear o img col st.cmd.renderArea, ?_, fun maps => ?_⟩
  · simp only [State.render, hnone, h.hasClear, h.colorAtt, h.clearValue]
  · have hlen := packClearRgba8_length hpack
    have hrow : (List.replicate img.width.toNat px).flatten.length = img.width.toNat * 4 := by
      rw [List.length_flatten, List.map_replicate, List.sum_replicate, hlen, smul_eq_mul]
    rw [runClear_rows himg hmap (by omega) (by omega) hpack h.covers, List.map_map]
    refine (texel_rows_store himg hmap (fun _ => (List.replicate img.width.toNat px).flatten) (fun _ _ => hrow) hx hy
      maps).trans ?_
    have hslice : Bytes.slice (List.replicate img.width.toNat px).flatten (x * px.length) px.length = px :=
      Bytes.slice_replicate hx
    rw [hlen] at hslice
    rw [hslice]

/-! ### The frame of a forwarded draw -/

/-- The background that the host decodes. -/
def ForwardRequest.bg (req : ForwardRequest) : Rgba := (VulkanWorkload.decode req.payload).bg

/-- A texel cleared to `bg` in the host's target. -/
def Outside.clearTexel (o : Outside) (bg : Rgba) : List UInt8 :=
  [o.channel false bg.r, o.channel false bg.g, o.channel false bg.b, o.channel false bg.a]

/-- The draws have left a texel of the frame at the clear colour. -/
def LeftCleared (o : Outside) (req : ForwardRequest) (frame : List UInt8) (x y : Nat) : Prop :=
  Bytes.slice frame ((y * req.width.toNat + x) * 4) 4 = o.clearTexel req.bg

/-- A command buffer that clears an image and draws to it, and the frame that the host renders. -/
structure State.Draws (st : State) (o : Outside) (img : Image) (col : Rgba) (req : ForwardRequest)
    (frame : List UInt8) :
    Prop where
  forwards : st.forwardDraws = .ok (some req)
  colorAtt : st.cmd.colorAtt.bind (·.image) = some img
  hasClear : st.cmd.hasClear = true
  clearValue : st.cmd.clearValue = col
  frame : o.frame req = .ok frame

private theorem sendEncoded_image {msg : String} {sent : Nat × Option (List UInt8)} {req : ForwardRequest}
    (h : sendEncoded img msg sent = .ok req) : req.image = img ∧ req.width = img.width ∧ req.height = img.height := by
  obtain ⟨n, buf⟩ := sent
  cases buf with
  | none => cases h
  | some buf =>
    obtain ⟨-, rfl⟩ := sendEncoded_ok h
    exact ⟨rfl, rfl, rfl⟩

/-- What is sent is for the image of the attachment, with the clear value as its background. -/
private theorem State.Draws.request {st : State} {req : ForwardRequest} {frame : List UInt8}
    (h : st.Draws o img col req frame) :
    req.image = img ∧ req.width = img.width ∧ req.height = img.height ∧ req.bg = col := by
  obtain ⟨att, p, vs, fs, img', hatt, -, -, -, himg, -, hreplay⟩ := forwardDraws_ok h.forwards
  have hsame : img' = img := by
    have hbind := h.colorAtt
    rw [hatt, Option.bind_some, himg] at hbind
    exact Option.some_inj.1 hbind
  subst img'
  have hbg : st.cmd.background = col := by
    rw [CmdBuffer.background, if_pos h.hasClear, h.clearValue]
  by_cases hcmdlist : st.takesCmdlist p
  · rw [if_pos hcmdlist] at hreplay
    obtain ⟨vdata, idata, hv, hi, -, hsends⟩ := replayCmdlist_ok hreplay
    obtain ⟨slack, hslack⟩ := hsends.payload
    simp only [replayCmdlist, hv, hi, bind, Except.bind] at hreplay
    obtain ⟨himage, hwidth, hheight⟩ := sendEncoded_image hreplay
    refine ⟨himage, hwidth, hheight, ?_⟩
    rw [ForwardRequest.bg, hslack, CmdlistArgs.bytes, List.append_assoc, List.append_assoc,
      VulkanWorkload.decode_encode]
    exact hbg
  · rw [if_neg hcmdlist] at hreplay
    have hsends := replayBufferless_ok hreplay
    obtain ⟨slack, hslack⟩ := hsends.payload
    simp only [replayBufferless] at hreplay
    obtain ⟨himage, hwidth, hheight⟩ := sendEncoded_image hreplay
    refine ⟨himage, hwidth, hheight, ?_⟩
    simp only [ForwardRequest.bg, hslack, ForwardedArgs.bytes, List.append_assoc, VulkanWorkload.decode_encode]
    exact hbg

/-- The mapping of an image begins at its offset in the object of its memory. -/
private theorem map_eq_some (hmap : img.map = some base) :
    ∃ mem, img.mem = some mem ∧ base = { handle := mem.gemHandle, at_ := img.memOffset.toNat } := by
  obtain ⟨start, hstart, rfl⟩ := Option.map_eq_some_iff.1 hmap
  obtain ⟨mem, hmem, hmapped⟩ := Option.bind_eq_some_iff.1 hstart
  unfold DeviceMemory.map at hmapped
  by_cases h : mem.mapped = true
  · rw [if_pos h] at hmapped
    cases hmapped
    refine ⟨mem, hmem, ?_⟩
    simp only [Ptr.add, Nat.zero_add]
  · rw [if_neg h] at hmapped
    cases hmapped

/-- A texel that has been left at the clear colour is a texel of the frame. -/
private theorem LeftCleared.end_le {req : ForwardRequest} {frame : List UInt8} {x y : Nat}
    (h : LeftCleared o req frame x y) :
    (y * req.width.toNat + x) * 4 + 4 ≤ frame.length := by
  have hlen : (Bytes.slice frame ((y * req.width.toNat + x) * 4) 4).length = 4 := congrArg List.length h
  rw [Bytes.slice, List.length_take, List.length_drop] at hlen
  omega

private theorem State.Draws.slice_frame {st : State} {req : ForwardRequest} {frame : List UInt8}
    (h : st.Draws o img col req frame) {x y : Nat} (hleft : LeftCleared o req frame x y) :
    Bytes.slice frame ((y * img.width.toNat + x) * 4) 4 = o.clearTexel col ∧
      (y * img.width.toNat + x) * 4 + 4 ≤ frame.length := by
  obtain ⟨-, hwidth, -, hbg⟩ := h.request
  rw [← hwidth, ← hbg]
  exact ⟨hleft, hleft.end_le⟩

/-- A frame that is rendered to the front of the object. -/
private theorem State.Draws.texel_front {st : State} {req : ForwardRequest} {frame : List UInt8}
    (h : st.Draws o img col req frame) (himg : img.Packed) (hmap : img.map = some base) (hfront : img.memOffset = 0)
    {x y : Nat} (hleft : LeftCleared o req frame x y) : ∃ stores, forwardToImage o req = .ok stores ∧ ∀ maps,
      img.texel (Op.runAll maps (stores.map fun s => .store s.1 s.2)) x y = some (o.clearTexel col) := by
  obtain ⟨himage, -, -, -⟩ := h.request
  obtain ⟨hslice, hend⟩ := h.slice_frame hleft
  obtain ⟨mem, hmem, hbase⟩ := map_eq_some hmap
  have hstart : base = { handle := mem.gemHandle, at_ := 0 } := by rw [hbase, hfront]; rfl
  refine ⟨[({ handle := mem.gemHandle, at_ := 0 }, frame)], ?_, fun maps => ?_⟩
  · simp only [forwardToImage, h.frame, himage, hmem, hfront, if_true]
  · have hblock : img.blocksize.toNat = 4 := by rw [himg.blocksize]; rfl
    have hat : base.at_ + y * img.rowPitch.toNat + x * 4 = 0 + (y * img.width.toNat + x) * 4 := by
      have hzero : base.at_ = 0 := by rw [hstart]
      rw [hzero, himg.rowPitch, ← Nat.mul_assoc, Nat.add_mul]
      omega
    rw [Image.texel, hmap, Option.map_some, hblock, hat, ← Memory.slice_load hend, ← hslice]
    have hstored :
        (Op.runAll maps [.store { handle := mem.gemHandle, at_ := 0 } frame] base.handle).load 0 frame.length =
          frame := by
      rw [hstart]
      exact Ptr.load_eq_iff (p := { handle := mem.gemHandle, at_ := 0 }).2 fun _ hk => Ptr.get_store hk
    exact congrArg (fun bs => some (Bytes.slice bs _ 4)) hstored

/-- The rows of a frame that fills the image. -/
private theorem slice_row_length {frame : List UInt8} {w h y : Nat} (hlen : frame.length = w * h * 4) (hy : y < h) :
    (Bytes.slice frame (y * (w * 4)) (w * 4)).length = w * 4 := by
  refine Bytes.slice_length ?_
  have hnext : (y + 1) * (w * 4) ≤ h * (w * 4) := Nat.mul_le_mul_right _ hy
  have hall : h * (w * 4) = w * h * 4 := by rw [← Nat.mul_assoc, Nat.mul_comm h]
  rw [Nat.succ_mul] at hnext
  omega

/-- A frame that is copied row by row. -/
private theorem State.Draws.texel_copied {st : State} {req : ForwardRequest} {frame : List UInt8}
    (h : st.Draws o img col req frame) (himg : img.Packed) (hmap : img.map = some base) (hoffset : img.memOffset ≠ 0)
    {x y : Nat} (hx : x < img.width.toNat) (hy : y < img.height.toNat) (hleft : LeftCleared o req frame x y) :
    ∃ stores, forwardToImage o req = .ok stores ∧ ∀ maps,
      img.texel (Op.runAll maps (stores.map fun s => .store s.1 s.2)) x y = some (o.clearTexel col) := by
  obtain ⟨himage, hwidth, hheight, -⟩ := h.request
  obtain ⟨hslice, hend⟩ := h.slice_frame hleft
  obtain ⟨mem, hmem, -⟩ := map_eq_some hmap
  have hrb : (req.width.toUInt64 * 4).toNat = img.width.toNat * 4 := by
    have hlimit := himg.width_le
    have hfour : (4 : UInt64).toNat = 4 := rfl
    rw [UInt64.toNat_mul, UInt32.toNat_toUInt64, hwidth, hfour]
    exact Nat.mod_eq_of_lt (by omega)
  have hle := o.frame_le req frame h.frame
  rw [hwidth, hheight] at hle
  have hfilled : (zeroFilled (img.width.toNat * img.height.toNat * 4) frame).length =
      img.width.toNat * img.height.toNat * 4 := by
    rw [zeroFilled, List.length_append, List.length_replicate]
    omega
  refine ⟨(List.range img.height.toNat).map fun y => (base.add (y * img.rowPitch.toNat),
    Bytes.slice (zeroFilled (img.width.toNat * img.height.toNat * 4) frame) (y * (img.width.toNat * 4))
      (img.width.toNat * 4)), ?_, fun maps => ?_⟩
  · simp only [forwardToImage, h.frame, himage, hmem, hoffset, if_false, hmap, hrb]
    rw [hwidth, hheight]
    refine congrArg Except.ok (List.map_congr_left fun y hy => ?_)
    rw [row_offset himg (List.mem_range.1 hy)]
  · have hat : y * (img.width.toNat * 4) + x * 4 = (y * img.width.toNat + x) * 4 := by
      rw [Nat.add_mul, Nat.mul_assoc]
    rw [List.map_map]
    refine (texel_rows_store himg hmap _ (fun y hy => slice_row_length hfilled hy) hx hy maps).trans ?_
    rw [Bytes.slice_slice (by omega), hat, zeroFilled, Bytes.slice_append_left hend, hslice]

/-- Whether the frame is rendered to the front of the object or copied there row by row, the texel arrives. -/
private theorem State.Draws.texel {st : State} {req : ForwardRequest} {frame : List UInt8}
    (h : st.Draws o img col req frame)
    (himg : img.Packed) (hmap : img.map = some base) {x y : Nat} (hx : x < img.width.toNat)
    (hy : y < img.height.toNat) (hleft : LeftCleared o req frame x y) : ∃ stores, st.render o = .ok stores ∧ ∀ maps,
      img.texel (Op.runAll maps (stores.map fun s => .store s.1 s.2)) x y = some (o.clearTexel col) := by
  have hrender : st.render o = forwardToImage o req := by simp only [State.render, h.forwards]
  rw [hrender]
  by_cases hfront : img.memOffset = 0
  · exact h.texel_front himg hmap hfront hleft
  · exact h.texel_copied himg hmap hfront hx hy hleft

/-! ### When they agree -/

/-- The bytes of the packed colour are those of the host's target: the format is the target's, or the channels that
are exchanged or encoded differently quantise to the same bytes. -/
def SameBackground (o : Outside) (format : UInt32) (col : Rgba) : Prop :=
  format = VkFormat.r8g8b8a8Unorm ∨
    (format = VkFormat.b8g8r8a8Unorm ∧ o.channel false col.b = o.channel false col.r) ∨
    (format = VkFormat.r8g8b8a8Srgb ∧ o.channel true col.r = o.channel false col.r ∧
      o.channel true col.g = o.channel false col.g ∧ o.channel true col.b = o.channel false col.b) ∨
    (format = VkFormat.b8g8r8a8Srgb ∧ o.channel true col.b = o.channel false col.r ∧
      o.channel true col.g = o.channel false col.g ∧ o.channel true col.r = o.channel false col.b)

private theorem packClearRgba8_clearTexel_iff (o : Outside) (col : Rgba) {format : UInt32}
    (h : formatSupported format = true) :
    ∃ px, o.packClearRgba8 format col = some px ∧ (px = o.clearTexel col ↔ SameBackground o format col) := by
  have hne : VkFormat.r8g8b8a8Srgb ≠ VkFormat.r8g8b8a8Unorm ∧ VkFormat.b8g8r8a8Unorm ≠ VkFormat.r8g8b8a8Unorm ∧
      VkFormat.b8g8r8a8Unorm ≠ VkFormat.r8g8b8a8Srgb ∧ VkFormat.b8g8r8a8Srgb ≠ VkFormat.r8g8b8a8Unorm ∧
      VkFormat.b8g8r8a8Srgb ≠ VkFormat.r8g8b8a8Srgb ∧ VkFormat.b8g8r8a8Srgb ≠ VkFormat.b8g8r8a8Unorm := by decide
  obtain ⟨h1, h2, h3, h4, h5, h6⟩ := hne
  have hmem : format ∈ [VkFormat.r8g8b8a8Unorm, VkFormat.r8g8b8a8Srgb, VkFormat.b8g8r8a8Unorm,
    VkFormat.b8g8r8a8Srgb] :=
    of_decide_eq_true h
  simp only [List.mem_cons, List.not_mem_nil, or_false] at hmem
  rcases hmem with rfl | rfl | rfl | rfl
  · refine ⟨o.clearTexel col, rfl, fun _ => .inl rfl, fun _ => rfl⟩
  · refine ⟨[o.channel true col.r, o.channel true col.g, o.channel true col.b, o.channel false col.a], ?_, ?_⟩
    · simp [Outside.packClearRgba8, clearLayout, h1]
    · simp [SameBackground, Outside.clearTexel, h1, h3.symm, h5.symm]
  · refine ⟨[o.channel false col.b, o.channel false col.g, o.channel false col.r, o.channel false col.a], ?_, ?_⟩
    · simp [Outside.packClearRgba8, clearLayout, h2, h3]
    · simp [SameBackground, Outside.clearTexel, h2, h3, h6.symm]
      exact fun heq => heq.symm
  · refine ⟨[o.channel true col.b, o.channel true col.g, o.channel true col.r, o.channel false col.a], ?_, ?_⟩
    · simp [Outside.packClearRgba8, clearLayout, h4, h5, h6]
    · simp [SameBackground, Outside.clearTexel, h4, h5, h6]

/-- A texel of the cleared image and one that the draws have left alone hold the same bytes. -/
def BackgroundsAgree (o : Outside) (img : Image) (cleared drawn : State) (x y : Nat) : Prop :=
  ∀ stores stores', cleared.render o = .ok stores → drawn.render o = .ok stores' → ∀ maps maps',
    img.texel (Op.runAll maps (stores.map fun s => .store s.1 s.2)) x y =
      img.texel (Op.runAll maps' (stores'.map fun s => .store s.1 s.2)) x y

private theorem backgroundsAgree_iff_packed {cleared drawn : State} {req : ForwardRequest} {frame : List UInt8}
    (himg : img.Packed) (hmap : img.map = some base) (hclear : cleared.Clears img col)
    (hdraw : drawn.Draws o img col req frame)
    (hpack : o.packClearRgba8 img.format col = some px) {x y : Nat} (hx : x < img.width.toNat)
    (hy : y < img.height.toNat) (hleft : LeftCleared o req frame x y) :
    BackgroundsAgree o img cleared drawn x y ↔ px = o.clearTexel col := by
  obtain ⟨stores, hrender, hstores⟩ := hclear.texel himg hmap hpack hx hy
  obtain ⟨stores', hrender', hstores'⟩ := hdraw.texel himg hmap hx hy hleft
  constructor
  · intro h
    have heq := h stores stores' hrender hrender' cleared.maps cleared.maps
    rw [hstores, hstores', Option.some_inj] at heq
    exact heq
  · rintro rfl s s' hs hs' maps maps'
    cases hrender.symm.trans hs
    cases hrender'.symm.trans hs'
    rw [hstores, hstores']

/-- **Cleared and drawn backgrounds agree exactly where the packed colour is what the host's target holds.** -/
theorem backgrounds_agree_iff (o : Outside) {img : Image} {base : Ptr} {col : Rgba} (himg : img.Advertised)
    (hformat : formatSupported img.format = true) (hmap : img.map = some base) {cleared drawn : State}
    {req : ForwardRequest} {frame : List UInt8} (hclear : cleared.Clears img col)
    (hdraw : drawn.Draws o img col req frame) {x y : Nat} (hx : x < img.width.toNat) (hy : y < img.height.toNat)
    (hleft : LeftCleared o req frame x y) :
    BackgroundsAgree o img cleared drawn x y ↔ SameBackground o img.format col := by
  obtain ⟨px, hpack, hsame⟩ := packClearRgba8_clearTexel_iff o col hformat
  exact (backgroundsAgree_iff_packed (himg.packed hformat) hmap hclear hdraw hpack hx hy hleft).trans hsame

/-! ### A red background -/

/-- A host that draws nothing, and a quantiser for the floats 0 and 1. -/
def clearsOnly : Outside where
  frame req :=
    .ok (List.replicate (req.width.toNat * req.height.toNat)
      ([req.bg.r, req.bg.g, req.bg.b, req.bg.a].map fun f => if clampUnit f = 0x3f800000 then 255 else 0)).flatten
  frame_le req px h := by
    cases h
    rw [List.length_flatten, List.map_replicate, List.sum_replicate]
    exact Nat.le_refl _
  quantise f := if f = 0x3f800000 then 255 else 0
  linearFloatToSrgb8unorm f := if f = 0x3f800000 then 255 else 0

def red : Rgba := { r := 0x3f800000, g := 0, b := 0, a := 0x3f800000 }

def colourImage (format : UInt32) : Image := { pixelImage 1 with format }

/-- A rendering that clears an image to red, with some commands in it. -/
def clearRed (format : UInt32) (cmds : List Cmd) : State :=
  State.start.run ([.beginCommandBuffer,
    .cmd (.beginRendering { x := 0, y := 0, width := 1, height := 1 }
      [{ imageView := some { image := some (colourImage format) }, clear := some red }])] ++ cmds.map .cmd ++
    [.cmd .endRendering])

def clearedRed (format : UInt32) : State := clearRed format []

def drawnRed (format : UInt32) : State := clearRed format [.bindPipeline true (some solidPipeline), .draw 3 1 0 0]

private theorem clearedRed_clears (format : UInt32) : (clearedRed format).Clears (colourImage format) red :=
  ⟨rfl, rfl, rfl, rfl, ⟨rfl, rfl, .inr (UInt32.le_refl _), .inr (UInt32.le_refl _)⟩⟩

/-- The texel of the frame is left at the clear colour. -/
private theorem drawnRed_draws (format : UInt32) (h : (drawnRed format).forwardDraws.toOption.join.isSome = true) :
    ∃ req frame, (drawnRed format).Draws clearsOnly (colourImage format) red req frame ∧
      LeftCleared clearsOnly req frame 0 0 := by
  obtain ⟨req, hreq⟩ := Option.isSome_iff_exists.1 h
  have hforwards : (drawnRed format).forwardDraws = .ok (some req) := by
    cases hsent : (drawnRed format).forwardDraws with
    | error e =>
      rw [hsent] at hreq
      cases hreq
    | ok sent =>
      rw [hsent] at hreq
      exact congrArg Except.ok hreq
  have hdraws : (drawnRed format).Draws clearsOnly (colourImage format) red req _ := ⟨hforwards, rfl, rfl, rfl, rfl⟩
  refine ⟨req, _, hdraws, ?_⟩
  obtain ⟨-, hwidth, hheight, hbg⟩ := hdraws.request
  rw [LeftCleared, hwidth, hheight, hbg]
  rfl

private theorem colourImage_advertised (format : UInt32) (h : formatSupported format = true) :
    (colourImage format).Advertised := by
  have hsize :
      align64 ((1 * 4 : UInt32).toUInt64 * (1 : UInt32).toUInt64 * (1 : UInt32).toUInt64) MEM_ALIGN = 256 := by
    decide
  have hcreated : colourImage format =
      (imageCreate { format, blocksize := 4, width := 1, height := 1, arrayLayers := 1 }).bindMemory
        (some { gemHandle := 1, mapped := true }) 0 := by
    simp only [imageCreate, Image.bindMemory, hsize]
    rfl
  rw [hcreated]
  exact texel_advertised h _

/-- With the format of the host's target the two agree. -/
theorem backgrounds_agree_red :
    BackgroundsAgree clearsOnly (colourImage VkFormat.r8g8b8a8Unorm) (clearedRed VkFormat.r8g8b8a8Unorm)
      (drawnRed VkFormat.r8g8b8a8Unorm) 0 0 := by
  obtain ⟨req, frame, hdraws, hleft⟩ := drawnRed_draws VkFormat.r8g8b8a8Unorm (by decide +kernel)
  exact (backgrounds_agree_iff clearsOnly (colourImage_advertised _ rfl) rfl rfl (clearedRed_clears _) hdraws
    (by decide) (by decide) hleft).2 (.inl rfl)

/-- With blue first, the clear stores red as the third byte and the draw stores it as the first. -/
theorem backgrounds_not_always_agree :
    ¬ ∀ (o : Outside) (img : Image) (base : Ptr) (col : Rgba) (cleared drawn : State) (req : ForwardRequest)
      (frame : List UInt8) (x y : Nat), img.Advertised → formatSupported img.format = true → img.map = some base →
        cleared.Clears img col → drawn.Draws o img col req frame → x < img.width.toNat → y < img.height.toNat →
          LeftCleared o req frame x y → BackgroundsAgree o img cleared drawn x y := by
  intro h
  obtain ⟨req, frame, hdraws, hleft⟩ := drawnRed_draws VkFormat.b8g8r8a8Unorm (by decide +kernel)
  have himg := colourImage_advertised VkFormat.b8g8r8a8Unorm rfl
  have hagree := h clearsOnly (colourImage VkFormat.b8g8r8a8Unorm) _ red (clearedRed _)
    (drawnRed _) req frame 0 0 himg rfl
    rfl (clearedRed_clears _) hdraws (by decide) (by decide) hleft
  have hpack : clearsOnly.packClearRgba8 VkFormat.b8g8r8a8Unorm red = some [0, 0, 255, 255] := rfl
  have hsame := (backgroundsAgree_iff_packed (himg.packed rfl) rfl (clearedRed_clears _) hdraws hpack (by decide)
    (by decide) hleft).1 hagree
  exact absurd hsame (by decide)

end Infinigpu.Icd
