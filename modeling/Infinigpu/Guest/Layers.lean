import Infinigpu.Guest.Rows

/-!
# Image copies and array layers (`guest/icd`, `infinigpu_cmd_buffer.c`, `infinigpu_sync.c`, `infinigpu_image.c`)

A region of a copy names layers, rows and columns of an image and where they lie in a buffer.  The commands do not
keep the layers, so the copies that are carried out are those of the first layer: they move what is named exactly if
that is all that is named (`copies_exact_iff`), and an image of several layers is not served (`layers_kept_iff`).
-/

namespace Infinigpu.Icd

open Footprint

/-! ### What a region names -/

/-- A region as the application gives it to the commands. -/
structure VkBufferImageCopy2 where
  bufferOffset : UInt64
  bufferRowLength : UInt32
  bufferImageHeight : UInt32
  baseArrayLayer : UInt32
  layerCount : UInt32
  imageOffset : UInt32 × UInt32
  imageExtent : UInt32 × UInt32

/-- What `CmdCopyBufferToImage2` and `CmdCopyImageToBuffer2` keep of it. -/
def VkBufferImageCopy2.kept (r : VkBufferImageCopy2) : BufferImageCopy where
  bufferOffset := r.bufferOffset
  bufferRowLength := r.bufferRowLength
  imageOffset := r.imageOffset
  imageExtent := r.imageExtent

/-- A copy between an image and a buffer that is mapped at `start`. -/
structure NamedCopy where
  buffer : Buffer
  start : Ptr
  region : VkBufferImageCopy2

namespace NamedCopy

variable (c : NamedCopy) (img : Image)

/-- The texels from row to row of the buffer. -/
def rowLength : Nat :=
  if c.region.bufferRowLength ≠ 0 then c.region.bufferRowLength.toNat else c.region.imageExtent.1.toNat

/-- The rows from layer to layer of the buffer. -/
def imageHeight : Nat :=
  if c.region.bufferImageHeight ≠ 0 then c.region.bufferImageHeight.toNat else c.region.imageExtent.2.toNat

/-- The bytes of a row of the region. -/
def rowBytes : Nat := c.region.imageExtent.1.toNat * img.blocksize.toNat

/-- Byte `j` of row `y` of the `n`th layer of the region. -/
def Has (n y j : Nat) : Prop :=
  n < c.region.layerCount.toNat ∧ y < c.region.imageExtent.2.toNat ∧ j < c.rowBytes img

/-- Where it is in the image, which is mapped at `base`. -/
def imageByte (base : Ptr) (n y j : Nat) : Loc :=
  base.loc ((c.region.baseArrayLayer.toNat + n) * (img.rowPitch.toNat * img.height.toNat) +
    (c.region.imageOffset.2.toNat + y) * img.rowPitch.toNat + c.region.imageOffset.1.toNat * img.blocksize.toNat + j)

/-- Where it is in the buffer. -/
def bufferByte (n y j : Nat) : Loc :=
  c.start.loc (c.region.bufferOffset.toNat + (n * c.imageHeight + y) * (c.rowLength * img.blocksize.toNat) + j)

/-- The region lies in the image and in the buffer, and what is copied does not meet where it is copied to. -/
structure Valid (base : Ptr) : Prop where
  image : img.map = some base
  buffer : c.buffer.map = some c.start
  layerCount_pos : 0 < c.region.layerCount.toNat
  width_pos : 0 < c.region.imageExtent.1.toNat
  height_pos : 0 < c.region.imageExtent.2.toNat
  layers_le : c.region.baseArrayLayer.toNat + c.region.layerCount.toNat ≤ img.arrayLayers.toNat
  width_le : c.region.imageOffset.1.toNat + c.region.imageExtent.1.toNat ≤ img.width.toNat
  height_le : c.region.imageOffset.2.toNat + c.region.imageExtent.2.toNat ≤ img.height.toNat
  rowLength_le : c.region.imageExtent.1.toNat ≤ c.rowLength
  imageHeight_le : c.region.imageExtent.2.toNat ≤ c.imageHeight
  buffer_le : ∀ n y j, c.Has img n y j →
    c.region.bufferOffset.toNat + (n * c.imageHeight + y) * (c.rowLength * img.blocksize.toNat) + j <
      c.buffer.totalSize.toNat
  apart : ∀ n y j n' y' j', c.Has img n y j → c.Has img n' y' j' →
    c.imageByte img base n y j ≠ c.bufferByte img n' y' j'

/-- What an upload is to move, from the buffer to the image. -/
def uploads (base : Ptr) (d x : Loc) : Prop :=
  ∃ n y j, c.Has img n y j ∧ d = c.imageByte img base n y j ∧ x = c.bufferByte img n y j

/-- What a readback is to move, from the image to the buffer. -/
def reads (base : Ptr) (d x : Loc) : Prop :=
  ∃ n y j, c.Has img n y j ∧ d = c.bufferByte img n y j ∧ x = c.imageByte img base n y j

/-- The copy that is left for the submission. -/
def pending : Region := c.region.kept.region (some img) (some c.buffer)

/-- Only the first layer is named. -/
def FirstLayer : Prop := c.region.baseArrayLayer = 0 ∧ c.region.layerCount = 1

end NamedCopy

/-! ### What is carried out -/

variable {c : NamedCopy} {img : Image} {base : Ptr}

private theorem toUInt64_mul_toNat (a b : UInt32) : (a.toUInt64 * b.toUInt64).toNat = a.toNat * b.toNat := by
  have ha := a.toNat_lt
  have hb := b.toNat_lt
  have hab : a.toNat * b.toNat < 2 ^ 32 * 2 ^ 32 := Nat.mul_lt_mul'' ha hb
  rw [UInt64.toNat_mul, UInt32.toNat_toUInt64, UInt32.toNat_toUInt64]
  exact Nat.mod_eq_of_lt hab

namespace NamedCopy

/-- The first row of the region, in the first layer of the image. -/
def imageStart (c : NamedCopy) (img : Image) (base : Ptr) : Ptr :=
  base.add (c.region.imageOffset.2.toNat * img.rowPitch.toNat + c.region.imageOffset.1.toNat * img.blocksize.toNat)

/-- The first row of the region in the buffer. -/
def bufferStart (c : NamedCopy) : Ptr := c.start.add c.region.bufferOffset.toNat

def bufferPitch (c : NamedCopy) (img : Image) : Nat := c.rowLength * img.blocksize.toNat

private theorem imageRow_eq (himg : img.Linear) (h : c.Valid img base) {y : Nat}
    (hy : y < c.region.imageExtent.2.toNat) :
    (c.pending img).imageRow img base y = (c.imageStart img base).add (y * img.rowPitch.toNat) := by
  have hheight := himg.height_le
  have hrows := h.height_le
  have hbytes := himg.blocksize_bounds.2
  have hwidth := himg.width_le
  have hpitch : img.rowPitch.toNat ≤ 16384 * 8 := by
    rw [himg.rowPitch]
    exact Nat.mul_le_mul hwidth hbytes
  have hrow : (UInt64.ofNat y * img.rowPitch.toUInt64).toNat = y * img.rowPitch.toNat := by
    have hle : y * img.rowPitch.toNat ≤ 16384 * (16384 * 8) := Nat.mul_le_mul (by omega) hpitch
    rw [UInt64.toNat_mul, UInt64.toNat_ofNat', UInt32.toNat_toUInt64, Nat.mod_eq_of_lt (a := y) (by omega)]
    exact Nat.mod_eq_of_lt (by omega)
  rw [Region.imageRow, hrow, imageStart, Ptr.add_add, toUInt64_mul_toNat, toUInt64_mul_toNat]
  rfl

private theorem bufferRow_eq (himg : img.Linear) (h : c.Valid img base) {y : Nat}
    (hy : y < c.region.imageExtent.2.toNat) :
    (c.pending img).bufferRow img c.start y = c.bufferStart.add (y * c.bufferPitch img) := by
  have hheight := himg.height_le
  have hrows := h.height_le
  have hbytes := himg.blocksize_bounds.2
  have htexels : (c.pending img).rowTexels.toNat = c.rowLength := apply_ite UInt32.toNat _ _ _
  have hlength := (c.pending img).rowTexels.toNat_lt
  have hpitch : (c.pending img).rowTexels.toNat * img.blocksize.toNat ≤ 2 ^ 32 * 8 :=
    Nat.mul_le_mul (Nat.le_of_lt hlength) hbytes
  have hall : y * ((c.pending img).rowTexels.toNat * img.blocksize.toNat) ≤ 16384 * (2 ^ 32 * 8) :=
    Nat.mul_le_mul (by omega) hpitch
  have hrow : (UInt64.ofNat y * (c.pending img).rowTexels.toUInt64 * img.blocksize.toUInt64).toNat =
      y * c.bufferPitch img := by
    have hfirst : y * (c.pending img).rowTexels.toNat ≤ 16384 * 2 ^ 32 :=
      Nat.mul_le_mul (by omega) (Nat.le_of_lt hlength)
    rw [UInt64.toNat_mul, UInt64.toNat_mul, UInt64.toNat_ofNat', UInt32.toNat_toUInt64, UInt32.toNat_toUInt64,
      Nat.mod_eq_of_lt (a := y) (by omega), Nat.mod_eq_of_lt (Nat.lt_of_le_of_lt hfirst (by decide)), Nat.mul_assoc,
      Nat.mod_eq_of_lt (Nat.lt_of_le_of_lt hall (by decide)), htexels]
    rfl
  rw [Region.bufferRow, hrow, bufferStart, Ptr.add_add]
  rfl

private theorem rowBytes_eq : (c.pending img).rowBytes img = c.rowBytes img := by
  rw [Region.rowBytes, toUInt64_mul_toNat]
  rfl

private theorem pending_mapped (h : c.Valid img base) : (c.pending img).mapped = some (img, base, c.start) := by
  have hbuffer := h.buffer
  unfold Region.mapped
  simp only [pending, BufferImageCopy.region, h.image, hbuffer]

/-- An upload copies rows of the buffer to rows of the first layer. -/
private theorem runUpload_eq (himg : img.Linear) (h : c.Valid img base) : (c.pending img).runUpload =
    (List.range c.region.imageExtent.2.toNat).map fun y =>
      .memcpy ((c.imageStart img base).add (y * img.rowPitch.toNat)) (c.bufferStart.add (y * c.bufferPitch img))
        (c.rowBytes img) := by
  unfold Region.runUpload
  rw [pending_mapped h]
  refine List.map_congr_left fun y hy => ?_
  rw [imageRow_eq himg h (List.mem_range.1 hy), bufferRow_eq himg h (List.mem_range.1 hy), rowBytes_eq]

/-- A readback copies rows of the first layer to rows of the buffer. -/
private theorem runCopy_eq (himg : img.Linear) (h : c.Valid img base) : (c.pending img).runCopy =
    (List.range c.region.imageExtent.2.toNat).map fun y =>
      .memcpy (c.bufferStart.add (y * c.bufferPitch img)) ((c.imageStart img base).add (y * img.rowPitch.toNat))
        (c.rowBytes img) := by
  unfold Region.runCopy
  rw [pending_mapped h]
  refine List.map_congr_left fun y hy => ?_
  rw [imageRow_eq himg h (List.mem_range.1 hy), bufferRow_eq himg h (List.mem_range.1 hy), rowBytes_eq]

/-! ### One layer -/

/-- The rows of the first layer are what a region names that names only this layer. -/
private theorem imageByte_first (h : c.FirstLayer) (y j : Nat) :
    c.imageByte img base 0 y j = ((c.imageStart img base).add (y * img.rowPitch.toNat)).loc j := by
  have hzero : c.region.baseArrayLayer.toNat = 0 := by rw [h.1]; rfl
  refine Prod.ext rfl ?_
  change base.at_ + ((c.region.baseArrayLayer.toNat + 0) * (img.rowPitch.toNat * img.height.toNat) +
      (c.region.imageOffset.2.toNat + y) * img.rowPitch.toNat +
      c.region.imageOffset.1.toNat * img.blocksize.toNat + j) =
    base.at_ + (c.region.imageOffset.2.toNat * img.rowPitch.toNat +
      c.region.imageOffset.1.toNat * img.blocksize.toNat) + y * img.rowPitch.toNat + j
  rw [hzero, Nat.zero_mul, Nat.add_mul]
  omega

private theorem bufferByte_first (y j : Nat) :
    c.bufferByte img 0 y j = (c.bufferStart.add (y * c.bufferPitch img)).loc j := by
  refine Prod.ext rfl ?_
  change c.start.at_ + (c.region.bufferOffset.toNat +
    (0 * c.imageHeight + y) * (c.rowLength * img.blocksize.toNat) + j) =
    c.start.at_ + c.region.bufferOffset.toNat + y * (c.rowLength * img.blocksize.toNat) + j
  rw [Nat.zero_mul, Nat.zero_add]
  omega

private theorem has_first (h : c.FirstLayer) {n y j : Nat} :
    c.Has img n y j ↔ n = 0 ∧ y < c.region.imageExtent.2.toNat ∧ j < c.rowBytes img := by
  have hone : c.region.layerCount.toNat = 1 := by rw [h.2]; rfl
  rw [Has, hone, Nat.lt_one_iff]

private theorem uploads_first (h : c.FirstLayer) (d x : Loc) :
    (∃ y < c.region.imageExtent.2.toNat, ∃ j < c.rowBytes img,
        d = ((c.imageStart img base).add (y * img.rowPitch.toNat)).loc j ∧
          x = (c.bufferStart.add (y * c.bufferPitch img)).loc j) ↔ c.uploads img base d x := by
  constructor
  · rintro ⟨y, hy, j, hj, rfl, rfl⟩
    exact ⟨0, y, j, (has_first h).2 ⟨rfl, hy, hj⟩, (imageByte_first h y j).symm, (bufferByte_first y j).symm⟩
  · rintro ⟨n, y, j, hhas, rfl, rfl⟩
    obtain ⟨rfl, hy, hj⟩ := (has_first h).1 hhas
    exact ⟨y, hy, j, hj, imageByte_first h y j, bufferByte_first y j⟩

private theorem reads_first (h : c.FirstLayer) (d x : Loc) :
    (∃ y < c.region.imageExtent.2.toNat, ∃ j < c.rowBytes img,
        d = (c.bufferStart.add (y * c.bufferPitch img)).loc j ∧
          x = ((c.imageStart img base).add (y * img.rowPitch.toNat)).loc j) ↔ c.reads img base d x := by
  constructor
  · rintro ⟨y, hy, j, hj, rfl, rfl⟩
    exact ⟨0, y, j, (has_first h).2 ⟨rfl, hy, hj⟩, (bufferByte_first y j).symm, (imageByte_first h y j).symm⟩
  · rintro ⟨n, y, j, hhas, rfl, rfl⟩
    obtain ⟨rfl, hy, hj⟩ := (has_first h).1 hhas
    exact ⟨y, hy, j, hj, bufferByte_first y j, imageByte_first h y j⟩

/-- The rows in the image do not meet the rows in the buffer. -/
private theorem rows_apart (h : c.Valid img base) (hfirst : c.FirstLayer) {y y' : Nat}
    (hy : y < c.region.imageExtent.2.toNat) (hy' : y' < c.region.imageExtent.2.toNat) :
    Disjoint (((c.imageStart img base).add (y * img.rowPitch.toNat)).span (c.rowBytes img))
      ((c.bufferStart.add (y' * c.bufferPitch img)).span (c.rowBytes img)) := by
  refine Set.disjoint_left.2 fun l hl hl' => ?_
  obtain ⟨j, hj, rfl⟩ := Ptr.mem_span_iff.1 hl
  obtain ⟨j', hj', heq⟩ := Ptr.mem_span_iff.1 hl'
  rw [← imageByte_first hfirst, ← bufferByte_first] at heq
  exact h.apart 0 y j 0 y' j' ((has_first hfirst).2 ⟨rfl, hy, hj⟩) ((has_first hfirst).2 ⟨rfl, hy', hj'⟩) heq

/-- A row of the region is not longer than one of the image. -/
private theorem rowBytes_le_rowPitch (himg : img.Linear) (h : c.Valid img base) :
    c.region.imageOffset.1.toNat * img.blocksize.toNat + c.rowBytes img ≤ img.rowPitch.toNat := by
  rw [himg.rowPitch, rowBytes, ← Nat.add_mul]
  exact Nat.mul_le_mul_right _ h.width_le

private theorem runUpload_moved (himg : img.Linear) (h : c.Valid img base) (hfirst : c.FirstLayer) (maps : Maps) :
    Moved Maps.get (c.uploads img base) maps (Op.runAll maps (c.pending img).runUpload) := by
  have hrow := rowBytes_le_rowPitch himg h
  rw [runUpload_eq himg h]
  exact (runAll_rows_moved (by omega) (fun y hy y' hy' => rows_apart h hfirst hy hy') maps).congr
    (uploads_first hfirst)

private theorem runCopy_moved (himg : img.Linear) (h : c.Valid img base) (hfirst : c.FirstLayer) (maps : Maps) :
    Moved Maps.get (c.reads img base) maps (Op.runAll maps (c.pending img).runCopy) := by
  rw [runCopy_eq himg h]
  exact (runAll_rows_moved (Nat.mul_le_mul_right _ h.rowLength_le)
    (fun y hy y' hy' => (rows_apart h hfirst hy' hy).symm) maps).congr (reads_first hfirst)

/-! ### Other layers -/

/-- A region that does not name only the first layer names another one. -/
private theorem exists_layer (h : c.Valid img base) (hfirst : ¬ c.FirstLayer) :
    ∃ n < c.region.layerCount.toNat, 0 < c.region.baseArrayLayer.toNat + n := by
  have hpos := h.layerCount_pos
  by_cases hbase : c.region.baseArrayLayer.toNat = 0
  · have hcount : c.region.layerCount.toNat ≠ 1 := fun hone =>
      hfirst ⟨UInt32.toNat_inj.1 hbase, UInt32.toNat_inj.1 hone⟩
    exact ⟨1, by omega, by omega⟩
  · exact ⟨0, hpos, by omega⟩

/-- What is copied to or from the image lies in its first layer. -/
private theorem notMem_first (himg : img.Linear) (h : c.Valid img base) {n y y' j : Nat}
    (hlayer : 0 < c.region.baseArrayLayer.toNat + n) (hy' : y' < c.region.imageExtent.2.toNat) :
    c.imageByte img base n y j ∉
      ((c.imageStart img base).add (y' * img.rowPitch.toNat)).span (c.rowBytes img) := by
  rintro ⟨-, -, hhigh⟩
  have hrow := rowBytes_le_rowPitch himg h
  have hlow : img.rowPitch.toNat * img.height.toNat ≤
      (c.region.baseArrayLayer.toNat + n) * (img.rowPitch.toNat * img.height.toNat) := Nat.le_mul_of_pos_left _ hlayer
  have hrows : (c.region.imageOffset.2.toNat + y' + 1) * img.rowPitch.toNat ≤ img.height.toNat * img.rowPitch.toNat :=
    Nat.mul_le_mul_right _ (by have hle := h.height_le; omega)
  rw [Nat.mul_comm img.height.toNat, Nat.add_mul, Nat.add_mul, Nat.one_mul] at hrows
  change base.at_ + ((c.region.baseArrayLayer.toNat + n) * (img.rowPitch.toNat * img.height.toNat) +
      (c.region.imageOffset.2.toNat + y) * img.rowPitch.toNat +
        c.region.imageOffset.1.toNat * img.blocksize.toNat + j) <
    base.at_ + (c.region.imageOffset.2.toNat * img.rowPitch.toNat +
      c.region.imageOffset.1.toNat * img.blocksize.toNat) +
      y' * img.rowPitch.toNat + c.rowBytes img at hhigh
  omega

private theorem rowBytes_pos (himg : img.Linear) (h : c.Valid img base) : 0 < c.rowBytes img :=
  Nat.mul_pos h.width_pos himg.blocksize_bounds.1

/-- All bytes are zero but one. -/
def single (e : Loc) : Maps := fun handle a => if (handle, a) = e then 1 else 0

private theorem single_self (e : Loc) : (single e).get e = 1 := if_pos rfl

private theorem single_ne {e l : Loc} (h : l ≠ e) : (single e).get l = 0 := if_neg h

/-- Copies that do not read the one byte spread zeros only. -/
private theorem runAll_single {e : Loc} {ops : List Op}
    (h : ∀ op ∈ ops, ∃ dst src n, op = .memcpy dst src n ∧ e ∉ src.span n) {maps : Maps}
    (hmaps : ∀ l, l ≠ e → maps.get l = 0) {l : Loc} (hl : l ≠ e) : (Op.runAll maps ops).get l = 0 := by
  induction ops generalizing maps with
  | nil => exact hmaps l hl
  | cons op ops ih =>
    obtain ⟨⟨dst, src, n, rfl, hsrc⟩, hops⟩ := List.forall_mem_cons.1 h
    have hzero : ∀ l', l' ≠ e → ((Op.memcpy dst src n).run maps).get l' = 0 := by
      intro l' hl'
      by_cases hwritten : l' ∈ dst.span n
      · obtain ⟨k, hk, rfl⟩ := Ptr.mem_span_iff.1 hwritten
        rw [get_memcpy hk]
        exact hmaps _ fun heq => hsrc (heq ▸ Ptr.loc_mem_span hk)
      · exact ((Op.memcpy dst src n).action.frame maps l' hwritten).trans (hmaps l' hl')
    exact ih hops hzero

private theorem firstLayer_of_uploads (himg : img.Linear) (h : c.Valid img base)
    (hmoved : ∀ maps, Moved Maps.get (c.uploads img base) maps (Op.runAll maps (c.pending img).runUpload)) :
    c.FirstLayer := by
  by_contra hfirst
  obtain ⟨n, hn, hlayer⟩ := exists_layer h hfirst
  have hhas : c.Has img n 0 0 := ⟨hn, h.height_pos, rowBytes_pos himg h⟩
  have hgot := (hmoved (single (c.bufferByte img n 0 0))).moved _ _ ⟨n, 0, 0, hhas, rfl, rfl⟩
  -- no row of the upload reaches the layer
  have hkept : (Op.runAll (single (c.bufferByte img n 0 0)) (c.pending img).runUpload).get
    (c.imageByte img base n 0 0) =
      (single (c.bufferByte img n 0 0)).get (c.imageByte img base n 0 0) := by
    rw [runUpload_eq himg h]
    exact runAll_rows_frame _ (fun y hy => notMem_first himg h hlayer hy) _
  rw [hkept, single_self, single_ne (h.apart n 0 0 n 0 0 hhas hhas)] at hgot
  exact absurd hgot (by decide)

private theorem firstLayer_of_reads (himg : img.Linear) (h : c.Valid img base)
    (hmoved : ∀ maps, Moved Maps.get (c.reads img base) maps (Op.runAll maps (c.pending img).runCopy)) :
    c.FirstLayer := by
  by_contra hfirst
  obtain ⟨n, hn, hlayer⟩ := exists_layer h hfirst
  have hhas : c.Has img n 0 0 := ⟨hn, h.height_pos, rowBytes_pos himg h⟩
  have hgot := (hmoved (single (c.imageByte img base n 0 0))).moved _ _ ⟨n, 0, 0, hhas, rfl, rfl⟩
  -- the byte of the layer is never read
  have hzero : (Op.runAll (single (c.imageByte img base n 0 0)) (c.pending img).runCopy).get
    (c.bufferByte img n 0 0) = 0 := by
    refine runAll_single (fun op hop => ?_) (fun l hl => single_ne hl) (h.apart n 0 0 n 0 0 hhas hhas).symm
    rw [runCopy_eq himg h] at hop
    obtain ⟨y, hy, rfl⟩ := List.mem_map.1 hop
    exact ⟨_, _, _, rfl, notMem_first himg h hlayer (List.mem_range.1 hy)⟩
  rw [hzero, single_self] at hgot
  exact absurd hgot (by decide)

/-- **What is moved is what is named exactly if only the first layer is named.** -/
theorem copies_exact_iff (himg : img.Linear) (h : c.Valid img base) :
    ((∀ maps, Moved Maps.get (c.uploads img base) maps (Op.runAll maps (c.pending img).runUpload)) ↔ c.FirstLayer) ∧
      ((∀ maps, Moved Maps.get (c.reads img base) maps (Op.runAll maps (c.pending img).runCopy)) ↔ c.FirstLayer) :=
  ⟨⟨firstLayer_of_uploads himg h, fun hfirst => runUpload_moved himg h hfirst⟩,
    ⟨firstLayer_of_reads himg h, fun hfirst => runCopy_moved himg h hfirst⟩⟩

/-! ### All layers of an image -/

/-- The same region of another buffer. -/
def into (c : NamedCopy) (buffer : Buffer) (start : Ptr) : NamedCopy := { c with buffer, start }

end NamedCopy

/-- What is expected of the uploads `us`, the readbacks `cs` and the reported layouts of an image. -/
structure LayersKept (img : Image) (base : Ptr) (us cs : List NamedCopy) : Prop where
  /-- The uploads move what they name, one after another, and nothing else. -/
  uploads : ∀ maps, MovedAll Maps.get (us.map fun c => c.uploads img base) maps
    (Op.runAll maps ((us.map fun c => c.pending img).flatMap Region.runUpload))
  reads : ∀ maps, MovedAll Maps.get (cs.map fun c => c.reads img base) maps
    (Op.runAll maps ((cs.map fun c => c.pending img).flatMap Region.runCopy))
  /-- Uploads to different layers do not overwrite each other. -/
  apart : ∀ u ∈ us, ∀ v ∈ us,
    u.region.baseArrayLayer.toNat + u.region.layerCount.toNat ≤ v.region.baseArrayLayer.toNat →
      ∀ a ∈ (u.pending img).runUpload, ∀ b ∈ (v.pending img).runUpload, Disjoint a.action.writes b.action.writes
  /-- What is uploaded is read back, into whatever buffer. -/
  readBack : ∀ u ∈ us, ∀ buffer start, (u.into buffer start).Valid img base → ∀ maps n y j, u.Has img n y j →
    (Op.runAll (Op.runAll maps (u.pending img).runUpload) ((u.into buffer start).pending img).runCopy).get
      ((u.into buffer start).bufferByte img n y j) = maps.get (u.bufferByte img n y j)
  /-- The reported layers do not overlap, and they are in the image. -/
  layouts : ∀ l l' : UInt32, l < l' → l' < img.arrayLayers →
    (getImageSubresourceLayout img { arrayLayer := l }).offset.toNat +
        (getImageSubresourceLayout img { arrayLayer := l }).size.toNat ≤
      (getImageSubresourceLayout img { arrayLayer := l' }).offset.toNat ∨
    (getImageSubresourceLayout img { arrayLayer := l' }).offset.toNat +
        (getImageSubresourceLayout img { arrayLayer := l' }).size.toNat ≤
      (getImageSubresourceLayout img { arrayLayer := l }).offset.toNat
  layouts_le : ∀ l : UInt32, l < img.arrayLayers →
    (getImageSubresourceLayout img { arrayLayer := l }).offset.toNat +
      (getImageSubresourceLayout img { arrayLayer := l }).size.toNat ≤ img.size.toNat

private theorem runAll_flatMap {α : Type*} (f : α → List Op) (l : List α) (maps : Maps) :
    Op.runAll maps (l.flatMap f) = l.foldl (fun maps a => Op.runAll maps (f a)) maps := by
  induction l generalizing maps with
  | nil => rfl
  | cons a l ih =>
    rw [List.flatMap_cons, List.foldl_cons, ← ih]
    exact List.foldl_append

/-- In an image of one layer there is only the first. -/
private theorem NamedCopy.Valid.firstLayer (h : c.Valid img base) (hone : img.arrayLayers = 1) : c.FirstLayer := by
  have hpos := h.layerCount_pos
  have hle := h.layers_le
  have h1 : img.arrayLayers.toNat = 1 := by rw [hone]; rfl
  refine ⟨UInt32.toNat_inj.1 ?_, UInt32.toNat_inj.1 ?_⟩
  · change c.region.baseArrayLayer.toNat = 0
    omega
  · change c.region.layerCount.toNat = 1
    omega

/-- An image of one layer is served. -/
private theorem layersKept_of_one (himg : img.Linear) {us cs : List NamedCopy} (hus : ∀ c ∈ us, c.Valid img base)
    (hcs : ∀ c ∈ cs, c.Valid img base) (hone : img.arrayLayers = 1) : LayersKept img base us cs where
  uploads maps := by
    rw [List.flatMap_map, runAll_flatMap]
    exact movedAll_foldl
      (fun c hc s => NamedCopy.runUpload_moved himg (hus c hc) ((hus c hc).firstLayer hone) s) maps
  reads maps := by
    rw [List.flatMap_map, runAll_flatMap]
    exact movedAll_foldl (fun c hc s => NamedCopy.runCopy_moved himg (hcs c hc) ((hcs c hc).firstLayer hone) s) maps
  apart u hu v hv hlayers := by
    have hpos := (hus u hu).layerCount_pos
    have hzero : v.region.baseArrayLayer.toNat = 0 := by rw [((hus v hv).firstLayer hone).1]; rfl
    omega
  readBack u hu buffer start hvalid maps n y j hhas := by
    have hread := NamedCopy.runCopy_moved himg hvalid (hvalid.firstLayer hone)
      (Op.runAll maps (u.pending img).runUpload)
    have hupload := NamedCopy.runUpload_moved himg (hus u hu) ((hus u hu).firstLayer hone) maps
    rw [hread.moved _ _ ⟨n, y, j, hhas, rfl, rfl⟩]
    exact hupload.moved _ _ ⟨n, y, j, hhas, rfl, rfl⟩
  layouts l l' hlt hl' := by
    have hone' : img.arrayLayers.toNat = 1 := by rw [hone]; rfl
    have hnat : l.toNat < l'.toNat := UInt32.lt_iff_toNat_lt.1 hlt
    have hnat' : l'.toNat < img.arrayLayers.toNat := UInt32.lt_iff_toNat_lt.1 hl'
    omega
  layouts_le l _ := (Nat.zero_add _).le

def layeredCreate (layers : UInt32) : ImageCreateInfo :=
  { format := VkFormat.r8g8b8a8Unorm, blocksize := 4, width := 4, height := 3, arrayLayers := layers }

/-- Four by three texels in each of `layers` layers. -/
def layeredImage (layers : UInt32) : Image :=
  (imageCreate (layeredCreate layers)).bindMemory (some { gemHandle := 1, mapped := true }) 0

private theorem layeredImage_advertised {layers : UInt32} (h : layers = 1 ∨ layers = 2) :
    (layeredImage layers).Advertised := by
  have hprops : imageFormatProperties VkFormat.r8g8b8a8Unorm =
      some
        { maxWidth := 16384
          maxHeight := 16384
          maxArrayLayers := 2048
          maxResourceSize := (1 : UInt64) <<< 31 } := rfl
  refine ⟨layeredCreate layers, _, some { gemHandle := 1, mapped := true }, 0, hprops, ?_, rfl⟩
  rcases h with rfl | rfl
  all_goals exact ⟨by decide, by decide, by decide, by decide, by decide, by decide, by decide, by decide⟩

/-- A rectangle of a layer, copied from or to a buffer of 64 bytes. -/
def rectCopy (layer : UInt32) (imageOffset imageExtent : UInt32 × UInt32) (bufferOffset : UInt64)
    (bufferRowLength : UInt32) : NamedCopy where
  buffer := { mem := some { gemHandle := 2, mapped := true }, offset := 0, totalSize := 64 }
  start := { handle := 2, at_ := 0 }
  region :=
    { bufferOffset
      bufferRowLength
      bufferImageHeight := 0
      baseArrayLayer := layer
      layerCount := 1
      imageOffset
      imageExtent }

private theorem rectCopy_valid {layers layer : UInt32} {imageOffset imageExtent : UInt32 × UInt32}
    {bufferOffset : UInt64} {bufferRowLength : UInt32} (hlayer : layer.toNat + 1 ≤ layers.toNat)
    (hpos : 0 < imageExtent.1.toNat ∧ 0 < imageExtent.2.toNat)
    (hinside : imageOffset.1.toNat + imageExtent.1.toNat ≤ 4 ∧ imageOffset.2.toNat + imageExtent.2.toNat ≤ 3)
    (hrow : imageExtent.1.toNat ≤ (rectCopy layer imageOffset imageExtent bufferOffset bufferRowLength).rowLength)
    (hbuffer : bufferOffset.toNat + (imageExtent.2.toNat - 1) *
      ((rectCopy layer imageOffset imageExtent bufferOffset bufferRowLength).rowLength * 4) +
        imageExtent.1.toNat * 4 ≤ 64) :
    (rectCopy layer imageOffset imageExtent bufferOffset bufferRowLength).Valid (layeredImage layers)
      { handle := 1, at_ := 0 } where
  image := rfl
  buffer := rfl
  layerCount_pos := Nat.one_pos
  width_pos := hpos.1
  height_pos := hpos.2
  layers_le := hlayer
  width_le := hinside.1
  height_le := hinside.2
  rowLength_le := hrow
  imageHeight_le := Nat.le_refl _
  buffer_le n y j hhas := by
    have hn : n < 1 := hhas.1
    have hy : y < imageExtent.2.toNat := hhas.2.1
    have hj : j < imageExtent.1.toNat * 4 := hhas.2.2
    obtain rfl : n = 0 := by omega
    have hrows : y * ((rectCopy layer imageOffset imageExtent bufferOffset bufferRowLength).rowLength * 4) ≤
        (imageExtent.2.toNat - 1) *
          ((rectCopy layer imageOffset imageExtent bufferOffset bufferRowLength).rowLength * 4) :=
      Nat.mul_le_mul_right _ (by omega)
    rw [Nat.zero_mul, Nat.zero_add]
    change bufferOffset.toNat +
      y * ((rectCopy layer imageOffset imageExtent bufferOffset bufferRowLength).rowLength * 4) + j < 64
    omega
  apart n y j n' y' j' _ _ heq := by
    have hhandle : (1 : UInt32) = 2 := congrArg Prod.fst heq
    exact absurd hhandle (by decide)

end Infinigpu.Icd
