import Infinigpu.Guest.Replay

/-!
# 3D submissions in the guest kernel driver (`guest/linux`, `infinigpu.c`)

Both ioctls check the geometry and the size of the target, and put a `SUBMIT_CMD` together whose workload they have
written themselves (`igpu_ioctl_submit3d`) or patched over the caller's bytes (`igpu_ioctl_submit_forwarded`).  What
is patched is said by `patchWorkload_decode`; everything behind the workload stays (`patchWorkload_drop`).
-/

namespace Bytes

/-- A field that a later write leaves alone. -/
private theorem slice_splice_of_disjoint {bs new : List UInt8} {i j n : Nat} (h : j + new.length ≤ bs.length)
    (hdisjoint : i + n ≤ j ∨ j + new.length ≤ i) : slice (splice bs j new) i n = slice bs i n := by
  refine List.ext_getElem? fun k => ?_
  rw [getElem?_slice, getElem?_slice, getElem?_splice h]
  by_cases hk : k < n
  · rw [if_pos hk, if_pos hk, if_neg (by omega)]
  · rw [if_neg hk, if_neg hk]

/-- A field that has just been written. -/
private theorem slice_splice_same {bs new : List UInt8} {j : Nat} (h : j + new.length ≤ bs.length) :
    slice (splice bs j new) j new.length = new := by
  refine List.ext_getElem? fun k => ?_
  rw [getElem?_slice, getElem?_splice h]
  by_cases hk : k < new.length
  · rw [if_pos hk, if_pos (by omega), Nat.add_sub_cancel_left]
  · rw [if_neg hk, List.getElem?_eq_none (Nat.not_lt.1 hk)]

private theorem drop_splice {bs new : List UInt8} {i j : Nat} (h : j + new.length ≤ bs.length)
    (hi : j + new.length ≤ i) :
    (splice bs j new).drop i = bs.drop i := by
  refine List.ext_getElem? fun k => ?_
  rw [List.getElem?_drop, List.getElem?_drop, getElem?_splice h, if_neg (by omega)]

end Bytes

namespace Infinigpu.Kmd

def MAX_DIM : UInt32 := 16384
def FWD_MAX_PAYLOAD : UInt32 := 0x100000

inductive Errno where
  | nodev
  | inval
  | noent
  | fault
deriving DecidableEq, Repr

/-- A GEM object: contiguous DMA memory. -/
structure GemObject where
  size : Nat
  dmaAddr : UInt64
deriving DecidableEq, Repr

/-- The device as it is seen from one open file, with the objects of its handles. -/
structure IgpuDevice where
  ringDrainer : Bool
  lookup : UInt32 → Option GemObject

/-! ### The target -/

def badGeometry (width height : UInt32) : Bool :=
  width = 0 || height = 0 || decide (width > MAX_DIM) || decide (height > MAX_DIM)

/-- The object that is named, if it holds the frame. -/
def target (idev : IgpuDevice) (boHandle width height : UInt32) : Except Errno GemObject :=
  match idev.lookup boHandle with
  | none => .error .noent
  | some obj => if obj.size < width.toNat * height.toNat * 4 then .error .inval else .ok obj

/-- A `SUBMIT_CMD` header for a body of `payloadLen` bytes. -/
def submitHeader (payloadLen : UInt32) : List UInt8 :=
  Bytes.ofWords [0, Encoding.vulkanVenuslike, payloadLen, 0, 0, 0, 0, 0, 0, 0]

/-! ### `igpu_ioctl_submit3d` -/

structure Submit3dArgs where
  boHandle : UInt32
  op : UInt32
  width : UInt32
  height : UInt32
  bg : Rgba

/-- The message that is published in the ring's payload slot. -/
def ioctlSubmit3d (idev : IgpuDevice) (args : Submit3dArgs) : Except Errno (List UInt8) :=
  if !idev.ringDrainer then
    .error .nodev
  else if args.op > VkOp.triangle then
    .error .inval
  else if badGeometry args.width args.height then
    .error .inval
  else do
    let obj ← target idev args.boHandle args.width args.height
    let wl : VulkanWorkload :=
      { op := args.op, width := args.width, height := args.height, bg := args.bg, scanoutAddr := obj.dmaAddr }
    .ok (submitHeader 40 ++ wl.encode)

/-! ### `igpu_ioctl_submit_forwarded` -/

structure SubmitForwardedArgs where
  boHandle : UInt32
  width : UInt32
  height : UInt32
  payloadLen : UInt32
  /-- What can be read at the caller's `payload_ptr`. -/
  payload : List UInt8

def copyFromUser (user : List UInt8) (n : UInt32) : Except Errno (List UInt8) :=
  if user.length < n.toNat then .error .fault else .ok (user.take n.toNat)

/-- The fields that the host trusts for its writeback, stamped over those of the body. -/
def patchWorkload (width height : UInt32) (scanoutAddr : UInt64) (body : List UInt8) : List UInt8 :=
  let body := Bytes.splice body 4 (Bytes.ofValue 4 width.toNat)
  let body := Bytes.splice body 8 (Bytes.ofValue 4 height.toNat)
  Bytes.splice body 32 (Bytes.ofValue 8 scanoutAddr.toNat)

/-- The message that is staged for the host. -/
def ioctlSubmitForwarded (idev : IgpuDevice) (args : SubmitForwardedArgs) : Except Errno (List UInt8) :=
  if !idev.ringDrainer then
    .error .nodev
  else if badGeometry args.width args.height then
    .error .inval
  else if args.payloadLen.toNat < VulkanWorkload.size ∨ args.payloadLen > FWD_MAX_PAYLOAD then
    .error .inval
  else do
    let obj ← target idev args.boHandle args.width args.height
    let body ← copyFromUser args.payload args.payloadLen
    .ok (submitHeader args.payloadLen ++ patchWorkload args.width args.height obj.dmaAddr body)

/-! ### What is accepted -/

theorem submitHeader_length (payloadLen : UInt32) : (submitHeader payloadLen).length = SubmitCmd.size := by
  rw [submitHeader, Bytes.ofWords_length]
  rfl

/-- The object that is named holds the frame. -/
theorem target_size {idev : IgpuDevice} {boHandle width height : UInt32} {obj : GemObject}
    (h : target idev boHandle width height = .ok obj) :
    idev.lookup boHandle = some obj ∧ width.toNat * height.toNat * 4 ≤ obj.size := by
  unfold target at h
  cases hlookup : idev.lookup boHandle with
  | none => simp [hlookup] at h
  | some o =>
    simp only [hlookup] at h
    by_cases hsmall : o.size < width.toNat * height.toNat * 4
    · rw [if_pos hsmall] at h
      cases h
    · rw [if_neg hsmall] at h
      cases h
      exact ⟨rfl, Nat.not_lt.1 hsmall⟩

/-- What is staged is the header and the caller's body with the fields patched. -/
theorem ioctlSubmitForwarded_ok {idev : IgpuDevice} {args : SubmitForwardedArgs} {staged : List UInt8}
    (h : ioctlSubmitForwarded idev args = .ok staged) :
    badGeometry args.width args.height = false ∧ VulkanWorkload.size ≤ args.payloadLen.toNat ∧
      args.payloadLen.toNat ≤ FWD_MAX_PAYLOAD.toNat ∧ args.payloadLen.toNat ≤ args.payload.length ∧
      ∃ obj, target idev args.boHandle args.width args.height = .ok obj ∧
        staged = submitHeader args.payloadLen ++
          patchWorkload args.width args.height obj.dmaAddr (args.payload.take args.payloadLen.toNat) := by
  unfold ioctlSubmitForwarded at h
  by_cases hdrainer : !idev.ringDrainer
  · rw [if_pos hdrainer] at h
    cases h
  rw [if_neg hdrainer] at h
  by_cases hgeometry : badGeometry args.width args.height = true
  · rw [if_pos hgeometry] at h
    cases h
  rw [if_neg hgeometry] at h
  by_cases hlen : args.payloadLen.toNat < VulkanWorkload.size ∨ args.payloadLen > FWD_MAX_PAYLOAD
  · rw [if_pos hlen] at h
    cases h
  rw [if_neg hlen] at h
  rw [not_or, Nat.not_lt, gt_iff_lt, UInt32.not_lt, UInt32.le_iff_toNat_le] at hlen
  cases htarget : target idev args.boHandle args.width args.height with
  | error e =>
    rw [htarget] at h
    cases h
  | ok obj =>
    rw [htarget] at h
    by_cases hshort : args.payload.length < args.payloadLen.toNat
    · simp [copyFromUser, hshort, bind, Except.bind] at h
    · simp only [copyFromUser, hshort, bind, Except.bind, if_false, Except.ok.injEq] at h
      exact ⟨Bool.eq_false_iff.2 hgeometry, hlen.1, hlen.2, Nat.not_lt.1 hshort, obj, rfl, h.symm⟩

/-! ### What is patched -/

variable {width height : UInt32} {scanoutAddr : UInt64} {body : List UInt8}

/-- The three writes stay inside the workload. -/
private theorem patchWorkload_room (width height : UInt32) (scanoutAddr : UInt64)
    (h : VulkanWorkload.size ≤ body.length) :
    4 + (Bytes.ofValue 4 width.toNat).length ≤ body.length ∧
      8 + (Bytes.ofValue 4 height.toNat).length ≤
        (Bytes.splice body 4 (Bytes.ofValue 4 width.toNat)).length ∧
      32 + (Bytes.ofValue 8 scanoutAddr.toNat).length ≤
        (Bytes.splice (Bytes.splice body 4 (Bytes.ofValue 4 width.toNat)) 8
        (Bytes.ofValue 4 height.toNat)).length := by
  have hsize : VulkanWorkload.size = 40 := rfl
  have hwidth : 4 + (Bytes.ofValue 4 width.toNat).length ≤ body.length := by
    rw [Bytes.ofValue_length]
    omega
  have hheight : 8 + (Bytes.ofValue 4 height.toNat).length ≤
      (Bytes.splice body 4 (Bytes.ofValue 4 width.toNat)).length := by
    rw [Bytes.splice_length hwidth, Bytes.ofValue_length]
    omega
  refine ⟨hwidth, hheight, ?_⟩
  rw [Bytes.splice_length hheight, Bytes.splice_length hwidth, Bytes.ofValue_length]
  omega

theorem patchWorkload_length (h : VulkanWorkload.size ≤ body.length) :
    (patchWorkload width height scanoutAddr body).length = body.length := by
  obtain ⟨hwidth, hheight, haddr⟩ := patchWorkload_room width height scanoutAddr h
  rw [patchWorkload, Bytes.splice_length haddr, Bytes.splice_length hheight, Bytes.splice_length hwidth]

/-- What follows the workload is the caller's. -/
theorem patchWorkload_drop (h : VulkanWorkload.size ≤ body.length) :
    (patchWorkload width height scanoutAddr body).drop VulkanWorkload.size = body.drop VulkanWorkload.size := by
  obtain ⟨hwidth, hheight, haddr⟩ := patchWorkload_room width height scanoutAddr h
  simp only [patchWorkload]
  rw [Bytes.drop_splice haddr, Bytes.drop_splice hheight, Bytes.drop_splice hwidth]
  all_goals
    rw [Bytes.ofValue_length]
    decide

/-- The host sees the caller's operation and background, and the checked geometry and target. -/
theorem patchWorkload_decode (h : VulkanWorkload.size ≤ body.length) :
    VulkanWorkload.decode (patchWorkload width height scanoutAddr body) =
      { VulkanWorkload.decode body with width, height, scanoutAddr } := by
  obtain ⟨hwidth, hheight, haddr⟩ := patchWorkload_room width height scanoutAddr h
  have hfield : ∀ i n, 12 ≤ i ∧ i + n ≤ 32 ∨ i + n ≤ 4 →
      Bytes.slice (patchWorkload width height scanoutAddr body) i n = Bytes.slice body i n := by
    intro i n hin
    simp only [patchWorkload]
    rw [Bytes.slice_splice_of_disjoint haddr, Bytes.slice_splice_of_disjoint hheight,
      Bytes.slice_splice_of_disjoint hwidth]
    all_goals
      rw [Bytes.ofValue_length]
      omega
  have hw : Bytes.slice (patchWorkload width height scanoutAddr body) 4 4 = Bytes.ofValue 4 width.toNat := by
    simp only [patchWorkload]
    rw [Bytes.slice_splice_of_disjoint haddr (.inl (by decide)),
      Bytes.slice_splice_of_disjoint hheight (.inl (by decide))]
    exact Bytes.slice_splice_same hwidth
  have hh : Bytes.slice (patchWorkload width height scanoutAddr body) 8 4 = Bytes.ofValue 4 height.toNat := by
    simp only [patchWorkload]
    rw [Bytes.slice_splice_of_disjoint haddr (.inl (by decide))]
    exact Bytes.slice_splice_same hheight
  have hs : Bytes.slice (patchWorkload width height scanoutAddr body) 32 8 = Bytes.ofValue 8 scanoutAddr.toNat :=
    Bytes.slice_splice_same haddr
  simp only [VulkanWorkload.decode, u32At, u64At, hfield 0 4 (by omega), hfield 16 16 (by omega), hw, hh, hs,
    Bytes.u32_ofValue, Bytes.u64_ofValue]

end Infinigpu.Kmd
