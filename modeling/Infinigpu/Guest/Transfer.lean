import Infinigpu.Guest.Images
import Infinigpu.Guest.Replay

/-!
# Submission (`guest/icd`, `infinigpu_sync.c`)

A submission runs the uploads, then the draw or the clear, then the copies of a command buffer (`submit`).  All of
them are stores to the mapped memories: `memcpy` row by row, and the frame that comes back from the host.
-/

namespace Infinigpu.Icd

/-! ### What is not modelled -/

/-- The answers of code outside this model: the kernel driver with the host behind it, and float arithmetic on
colours. -/
structure Outside where
  /-- The bytes that are rendered to the front of the target, or what the ioctl returns. -/
  frame : ForwardRequest → Except Int (List UInt8)
  frame_le : ∀ req px, frame req = .ok px → px.length ≤ req.width.toNat * req.height.toNat * 4
  /-- `(uint8_t)(v * 255.0f + 0.5f)` of a float in [0, 1]. -/
  quantise : UInt32 → UInt8
  /-- `util_format_linear_float_to_srgb_8unorm`. -/
  linearFloatToSrgb8unorm : UInt32 → UInt8

/-! ### Stores -/

/-- A store into the mapped memories. -/
inductive Op where
  | memcpy (dst src : Ptr) (n : Nat)
  | store (dst : Ptr) (bs : List UInt8)

namespace Op

def run (maps : Maps) : Op → Maps
  | .memcpy dst src n => dst.store maps ((maps src.handle).load src.at_ n)
  | .store dst bs => dst.store maps bs

def runAll (maps : Maps) (ops : List Op) : Maps := ops.foldl run maps

end Op

/-! ### Deferred copies -/

namespace Region

variable (r : Region) (img : Image)

def rowTexels : UInt32 := if r.bufferRowLength ≠ 0 then r.bufferRowLength else r.imageExtent.1

def rowBytes : Nat := (r.imageExtent.1.toUInt64 * img.blocksize.toUInt64).toNat

/-- Row `y` of the region in the image, whose pixels are at `p`. -/
def imageRow (p : Ptr) (y : Nat) : Ptr :=
  p.add ((r.imageOffset.2.toUInt64 * img.rowPitch.toUInt64).toNat +
    (r.imageOffset.1.toUInt64 * img.blocksize.toUInt64).toNat + (UInt64.ofNat y * img.rowPitch.toUInt64).toNat)

/-- Row `y` of the region in the buffer, which is at `p`. -/
def bufferRow (p : Ptr) (y : Nat) : Ptr :=
  p.add (r.bufferOffset.toNat + (UInt64.ofNat y * r.rowTexels.toUInt64 * img.blocksize.toUInt64).toNat)

/-- The image with its mapping and the mapping of the buffer. -/
def mapped : Option (Image × Ptr × Ptr) :=
  match r.image, r.buffer with
  | some img, some buf =>
    match img.map, buf.map with
    | some i, some b => some (img, i, b)
    | _, _ => none
  | _, _ => none

/-- `infinigpu_run_copy`. -/
def runCopy : List Op :=
  match r.mapped with
  | none => []
  | some (img, src, dst) =>
    (List.range r.imageExtent.2.toNat).map fun y =>
      .memcpy (r.bufferRow img dst y) (r.imageRow img src y) (r.rowBytes img)

/-- `infinigpu_run_upload`. -/
def runUpload : List Op :=
  match r.mapped with
  | none => []
  | some (img, dst, src) =>
    (List.range r.imageExtent.2.toNat).map fun y =>
      .memcpy (r.imageRow img dst y) (r.bufferRow img src y) (r.rowBytes img)

end Region

/-! ### Clears and frames -/

section Render

variable (o : Outside)

/-- `f < 0.0f ? 0.0f : (f > 1.0f ? 1.0f : f)`, on the bits of a float. -/
def clampUnit (f : UInt32) : UInt32 :=
  -- a NaN compares with nothing, and the negative zero is not below zero
  if f &&& 0x7fffffff > 0x7f800000 then f
  else if f > 0x80000000 then 0
  else if f > 0x3f800000 ∧ f < 0x80000000 then 0x3f800000
  else f

/-- The formats that a clear is packed for: whether blue comes first, and whether the colour is sRGB. -/
def clearLayout (fmt : UInt32) : Option (Bool × Bool) :=
  if fmt = VkFormat.r8g8b8a8Unorm then some (false, false)
  else if fmt = VkFormat.r8g8b8a8Srgb then some (false, true)
  else if fmt = VkFormat.b8g8r8a8Unorm then some (true, false)
  else if fmt = VkFormat.b8g8r8a8Srgb then some (true, true)
  else none

/-- A colour channel; alpha is never sRGB. -/
def Outside.channel (srgb : Bool) (f : UInt32) : UInt8 :=
  if srgb then o.linearFloatToSrgb8unorm (clampUnit f) else o.quantise (clampUnit f)

/-- `infinigpu_pack_clear_rgba8`. -/
def Outside.packClearRgba8 (fmt : UInt32) (f : Rgba) : Option (List UInt8) :=
  (clearLayout fmt).map fun (bgra, srgb) =>
    let a := o.channel false f.a
    if bgra then [o.channel srgb f.b, o.channel srgb f.g, o.channel srgb f.r, a]
    else [o.channel srgb f.r, o.channel srgb f.g, o.channel srgb f.b, a]

/-- `infinigpu_run_clear`; the sums of offset and extent are 32-bit ones. -/
def runClear (img : Image) (col : Rgba) (area : Rect2D) : List (Ptr × List UInt8) :=
  match img.map, o.packClearRgba8 img.format col with
  | some base, some px =>
    let w := if area.width ≠ 0 then area.width else img.width
    let h := if area.height ≠ 0 then area.height else img.height
    if img.blocksize ≠ 4 ∨ area.x ≥ img.width ∨ area.y ≥ img.height then
      []
    else
      let w := if area.x + w > img.width then img.width - area.x else w
      let h := if area.y + h > img.height then img.height - area.y else h
      (List.range h.toNat).map fun y =>
        (base.add (((area.y + UInt32.ofNat y).toUInt64 * img.rowPitch.toUInt64).toNat + (area.x.toUInt64 * 4).toNat),
          (List.replicate w.toNat px).flatten)
  | _, _ => []

/-- `infinigpu_forward_to_image`: the frame is rendered to the front of the object of the image, or, if the image does
not lie there, to a scratch object and from there row by row to the image. -/
def forwardToImage (req : ForwardRequest) : Except VkError (List (Ptr × List UInt8)) :=
  match o.frame req with
  | .error ret => .error (.deviceLost ret)
  | .ok px =>
    match req.image.mem with
    | none => .ok []
    | some mem =>
      if req.image.memOffset = 0 then
        .ok [({ handle := mem.gemHandle, at_ := 0 }, px)]
      else
        match req.image.map with
        | none => .ok []
        | some dst =>
          let rb := (req.width.toUInt64 * 4).toNat
          let frame := zeroFilled (req.width.toNat * req.height.toNat * 4) px
          .ok ((List.range req.height.toNat).map fun y =>
            (dst.add (UInt64.ofNat y * req.image.rowPitch.toUInt64).toNat, Bytes.slice frame (y * rb) rb))

/-! ### `infinigpu_replay_cmd_buffer` and `infinigpu_queue_submit` -/

namespace State

/-- What the draws store, or without draws the clear. -/
def render (st : State) : Except VkError (List (Ptr × List UInt8)) :=
  match st.forwardDraws with
  | .error e => .error e
  | .ok (some req) => forwardToImage o req
  | .ok none =>
    match st.cmd.hasClear, st.cmd.colorAtt.bind (·.image) with
    | true, some img => .ok (runClear o img st.cmd.clearValue st.cmd.renderArea)
    | _, _ => .ok []

/-- The memories after a submission. -/
def submit (st : State) : Except VkError Maps := do
  let maps := Op.runAll st.maps (st.cmd.uploads.flatMap Region.runUpload)
  let stores ← { st with maps }.render o
  let maps := Op.runAll maps (stores.map fun s => .store s.1 s.2)
  .ok (Op.runAll maps (st.cmd.copies.flatMap Region.runCopy))

end State

end Render

end Infinigpu.Icd
