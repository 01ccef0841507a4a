import Infinigpu.Guest.Objects

/-!
# Images (`guest/icd`, `infinigpu_image.c`, `infinigpu_physical_device.c`)

Images are linear: the texels of a row are packed, row follows row and layer follows layer.  `Image.Advertised` is
what `infinigpu_image_create` makes within the limits that the physical device reports.
-/

namespace Infinigpu.Icd

def MEM_ALIGN : UInt64 := 256

namespace VkFormat
def r8g8b8a8Unorm : UInt32 := 37
def r8g8b8a8Srgb : UInt32 := 43
def b8g8r8a8Unorm : UInt32 := 44
def b8g8r8a8Srgb : UInt32 := 50
def d16Unorm : UInt32 := 124
def x8D24UnormPack32 : UInt32 := 125
def d32Sfloat : UInt32 := 126
def s8Uint : UInt32 := 127
def d24UnormS8Uint : UInt32 := 129
def d32SfloatS8Uint : UInt32 := 130
end VkFormat

/-! ### What the physical device reports -/

/-- `infinigpu_format_supported`. -/
def formatSupported (format : UInt32) : Bool :=
  format ∈ [VkFormat.r8g8b8a8Unorm, VkFormat.r8g8b8a8Srgb, VkFormat.b8g8r8a8Unorm, VkFormat.b8g8r8a8Srgb]

/-- `infinigpu_depth_format_supported`. -/
def depthFormatSupported (format : UInt32) : Bool :=
  format ∈ [VkFormat.d16Unorm, VkFormat.x8D24UnormPack32, VkFormat.d32Sfloat, VkFormat.d24UnormS8Uint,
    VkFormat.d32SfloatS8Uint, VkFormat.s8Uint]

/-- `vk_format_get_blocksize` of these formats. -/
def formatBlocksize (format : UInt32) : Option UInt32 :=
  if format = VkFormat.s8Uint then some 1
  else if format = VkFormat.d16Unorm then some 2
  else if format = VkFormat.d32SfloatS8Uint then some 8
  else if formatSupported format || depthFormatSupported format then some 4
  else none

structure ImageFormatProperties where
  maxWidth : UInt32
  maxHeight : UInt32
  maxArrayLayers : UInt32
  maxResourceSize : UInt64
deriving DecidableEq, Repr

/-- `GetPhysicalDeviceImageFormatProperties2` of a format and a two-dimensional image. -/
def imageFormatProperties (format : UInt32) : Option ImageFormatProperties :=
  if !formatSupported format && !depthFormatSupported format then
    none
  else
    some { maxWidth := 16384, maxHeight := 16384, maxArrayLayers := 2048, maxResourceSize := (1 : UInt64) <<< 31 }

/-! ### Creation and binding -/

structure ImageCreateInfo where
  format : UInt32
  /-- `vk_format_get_blocksize` of the format. -/
  blocksize : UInt32
  width : UInt32
  height : UInt32
  arrayLayers : UInt32
deriving DecidableEq, Repr

/-- `align64`. -/
def align64 (value alignment : UInt64) : UInt64 := (value + alignment - 1) / alignment * alignment

/-- `infinigpu_image_create`. -/
def imageCreate (info : ImageCreateInfo) : Image :=
  let rowPitch := info.width * info.blocksize
  { format := info.format
    blocksize := info.blocksize
    width := info.width
    height := info.height
    arrayLayers := info.arrayLayers
    size := align64 (rowPitch.toUInt64 * info.height.toUInt64 * info.arrayLayers.toUInt64) MEM_ALIGN
    rowPitch
    mem := none
    memOffset := 0 }

/-- `BindImageMemory2`. -/
def Image.bindMemory (img : Image) (mem : Option DeviceMemory) (memoryOffset : UInt64) : Image :=
  { img with mem, memOffset := memoryOffset }

/-- What is named by `VkImageSubresource`, with one aspect and one mip level. -/
structure ImageSubresource where
  arrayLayer : UInt32

structure SubresourceLayout where
  offset : UInt64
  size : UInt64
  rowPitch : UInt64
  arrayPitch : UInt64
  depthPitch : UInt64
deriving DecidableEq, Repr

/-- `GetImageSubresourceLayout`, which does not look at the subresource. -/
def getImageSubresourceLayout (img : Image) (_subresource : ImageSubresource) : SubresourceLayout where
  offset := 0
  size := img.size
  rowPitch := img.rowPitch.toUInt64
  arrayPitch := if img.arrayLayers > 1 then img.rowPitch.toUInt64 * img.height.toUInt64 else 0
  depthPitch := 0

/-- What may be asked of a format with these properties: something, and not more than the limits. -/
structure ImageCreateInfo.Within (info : ImageCreateInfo) (props : ImageFormatProperties) : Prop where
  width_pos : 0 < info.width.toNat
  height_pos : 0 < info.height.toNat
  arrayLayers_pos : 0 < info.arrayLayers.toNat
  blocksize : formatBlocksize info.format = some info.blocksize
  width_le : info.width ≤ props.maxWidth
  height_le : info.height ≤ props.maxHeight
  arrayLayers_le : info.arrayLayers ≤ props.maxArrayLayers
  size_le : info.width.toNat * info.blocksize.toNat * info.height.toNat * info.arrayLayers.toNat ≤
    props.maxResourceSize.toNat

/-- An image that the physical device advertises support for, bound or not. -/
def Image.Advertised (img : Image) : Prop :=
  ∃ info props mem memoryOffset, imageFormatProperties info.format = some props ∧ info.Within props ∧
    img = (imageCreate info).bindMemory mem memoryOffset

private theorem formatBlocksize_bounds {format blocksize : UInt32} (h : formatBlocksize format = some blocksize) :
    0 < blocksize.toNat ∧ blocksize.toNat ≤ 8 := by
  unfold formatBlocksize at h
  split at h
  · cases h
    decide
  split at h
  · cases h
    decide
  split at h
  · cases h
    decide
  split at h
  · cases h
    decide
  · cases h

theorem formatBlocksize_colour {format : UInt32} (h : formatSupported format = true) :
    formatBlocksize format = some 4 := by
  have hall : ∀ f ∈ [VkFormat.r8g8b8a8Unorm, VkFormat.r8g8b8a8Srgb, VkFormat.b8g8r8a8Unorm, VkFormat.b8g8r8a8Srgb],
      formatBlocksize f = some 4 := by
    simp only [List.forall_mem_cons]
    exact ⟨rfl, rfl, rfl, rfl, fun f hf => absurd hf List.not_mem_nil⟩
  exact hall format (of_decide_eq_true h)

private theorem imageFormatProperties_eq {format : UInt32} {props : ImageFormatProperties}
    (h : imageFormatProperties format = some props) :
    props =
      { maxWidth := 16384
        maxHeight := 16384
        maxArrayLayers := 2048
        maxResourceSize := (1 : UInt64) <<< 31 } := by
  unfold imageFormatProperties at h
  split at h
  · cases h
  · exact (Option.some_inj.1 h).symm

private theorem align64_toNat {value : UInt64} (h : value.toNat + 255 < 2 ^ 64) :
    (align64 value MEM_ALIGN).toNat = (value.toNat + 255) / 256 * 256 := by
  have hsum : (value + 256 - 1).toNat = value.toNat + 255 := by
    have h256 : (256 : UInt64).toNat = 256 := rfl
    have h1 : (1 : UInt64).toNat = 1 := rfl
    rw [UInt64.toNat_sub, UInt64.toNat_add, h256, h1]
    omega
  have hdiv : ((value + 256 - 1) / 256).toNat = (value.toNat + 255) / 256 := by
    rw [UInt64.toNat_div, hsum]
    rfl
  rw [align64, MEM_ALIGN, UInt64.toNat_mul, hdiv]
  refine Nat.mod_eq_of_lt ?_
  have hle := Nat.div_mul_le_self (value.toNat + 255) 256
  exact Nat.lt_of_le_of_lt hle h

namespace ImageCreateInfo

variable {info : ImageCreateInfo} {props : ImageFormatProperties}

/-- Nothing overflows within the limits. -/
structure Sizes (info : ImageCreateInfo) : Prop where
  rowPitch : (imageCreate info).rowPitch.toNat = info.width.toNat * info.blocksize.toNat
  size_ge : info.width.toNat * info.blocksize.toNat * info.height.toNat * info.arrayLayers.toNat ≤
    (imageCreate info).size.toNat
  width_le : info.width.toNat ≤ 16384
  height_le : info.height.toNat ≤ 16384
  arrayLayers_le : info.arrayLayers.toNat ≤ 2048

private theorem Within.sizes (hprops : imageFormatProperties info.format = some props) (h : info.Within props) :
    info.Sizes := by
  obtain rfl := imageFormatProperties_eq hprops
  have hwidth : info.width.toNat ≤ 16384 := UInt32.le_iff_toNat_le.1 h.width_le
  have hheight : info.height.toNat ≤ 16384 := UInt32.le_iff_toNat_le.1 h.height_le
  have hlayers : info.arrayLayers.toNat ≤ 2048 := UInt32.le_iff_toNat_le.1 h.arrayLayers_le
  have hrow : info.width.toNat * info.blocksize.toNat ≤ 131072 :=
    Nat.mul_le_mul hwidth (formatBlocksize_bounds h.blocksize).2
  have hlayer : info.width.toNat * info.blocksize.toNat * info.height.toNat ≤ 2147483648 :=
    Nat.mul_le_mul hrow hheight
  have hall : info.width.toNat * info.blocksize.toNat * info.height.toNat * info.arrayLayers.toNat ≤ 4398046511104 :=
    Nat.mul_le_mul hlayer hlayers
  have hpitch : (imageCreate info).rowPitch.toNat = info.width.toNat * info.blocksize.toNat := by
    change (info.width * info.blocksize).toNat = _
    rw [UInt32.toNat_mul]
    exact Nat.mod_eq_of_lt (by omega)
  refine ⟨hpitch, ?_, hwidth, hheight, hlayers⟩
  have hbytes : ((imageCreate info).rowPitch.toUInt64 * info.height.toUInt64 * info.arrayLayers.toUInt64).toNat =
      info.width.toNat * info.blocksize.toNat * info.height.toNat * info.arrayLayers.toNat := by
    rw [UInt64.toNat_mul, UInt64.toNat_mul, UInt32.toNat_toUInt64, UInt32.toNat_toUInt64,
      UInt32.toNat_toUInt64, hpitch, Nat.mod_eq_of_lt (Nat.lt_of_le_of_lt hlayer (by decide)),
        Nat.mod_eq_of_lt (by omega)]
  have hsize : (imageCreate info).size.toNat =
      (info.width.toNat * info.blocksize.toNat * info.height.toNat * info.arrayLayers.toNat + 255) / 256 * 256 := by
    rw [← hbytes]
    exact align64_toNat (Nat.lt_of_le_of_lt (Nat.add_le_add_right (hbytes.trans_le hall) 255) (by decide))
  omega

end ImageCreateInfo

/-- The rows of a linear image: packed, one behind the other and layer behind layer. -/
structure Image.Linear (img : Image) : Prop where
  blocksize : formatBlocksize img.format = some img.blocksize
  rowPitch : img.rowPitch.toNat = img.width.toNat * img.blocksize.toNat
  size_ge : img.rowPitch.toNat * img.height.toNat * img.arrayLayers.toNat ≤ img.size.toNat
  width_le : img.width.toNat ≤ 16384
  height_le : img.height.toNat ≤ 16384
  arrayLayers_pos : 0 < img.arrayLayers.toNat
  size_pos : 0 < img.size.toNat

theorem Image.Advertised.linear {img : Image} (h : img.Advertised) : img.Linear := by
  obtain ⟨info, props, mem, memoryOffset, hprops, hwithin, rfl⟩ := h
  have hsizes := hwithin.sizes hprops
  have hsize := hsizes.size_ge
  refine ⟨hwithin.blocksize, hsizes.rowPitch, ?_, hsizes.width_le, hsizes.height_le, hwithin.arrayLayers_pos, ?_⟩
  · change (imageCreate info).rowPitch.toNat * info.height.toNat * info.arrayLayers.toNat ≤
      (imageCreate info).size.toNat
    rw [hsizes.rowPitch]
    exact hsize
  · have hpos : 0 < info.width.toNat * info.blocksize.toNat * info.height.toNat * info.arrayLayers.toNat :=
      Nat.mul_pos (Nat.mul_pos (Nat.mul_pos hwithin.width_pos (formatBlocksize_bounds hwithin.blocksize).1)
        hwithin.height_pos) hwithin.arrayLayers_pos
    exact Nat.lt_of_lt_of_le hpos hsize

theorem Image.Linear.blocksize_bounds {img : Image} (h : img.Linear) :
    0 < img.blocksize.toNat ∧ img.blocksize.toNat ≤ 8 := formatBlocksize_bounds h.blocksize

/-- An image of one texel of a colour format. -/
theorem texel_advertised {format : UInt32} (h : formatSupported format = true) (mem : Option DeviceMemory) :
    ((imageCreate { format, blocksize := 4, width := 1, height := 1, arrayLayers := 1 }).bindMemory
      mem 0).Advertised := by
  have hprops : imageFormatProperties format =
      some
        { maxWidth := 16384
          maxHeight := 16384
          maxArrayLayers := 2048
          maxResourceSize := (1 : UInt64) <<< 31 } := by
    unfold imageFormatProperties
    rw [h]
    rfl
  refine ⟨_, _, mem, 0, hprops, ?_, rfl⟩
  exact
    { width_pos := Nat.one_pos
      height_pos := Nat.one_pos
      arrayLayers_pos := Nat.one_pos
      blocksize := formatBlocksize_colour h
      width_le := show (1 : UInt32) ≤ 16384 by decide
      height_le := show (1 : UInt32) ≤ 16384 by decide
      arrayLayers_le := show (1 : UInt32) ≤ 2048 by decide
      size_le := show 1 * 4 * 1 * 1 ≤ 2147483648 by decide }

end Infinigpu.Icd
