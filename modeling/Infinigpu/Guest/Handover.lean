import Infinigpu.Guest.Lifetime

/-!
# A staged message until the host reads it (`guest/linux`, `igpu_submit_3d` and `igpu_submit_forwarded`)

What the driver checks and stages is read later, at the address of the descriptor.  As long as the message is still
there, the host writes nothing but the frame of the submission, and that lies in the object which was checked
(`submit_contained`).  But a call that gives up waiting frees its staging buffer with the descriptor still on the
ring, and what the next owner of that memory puts there is executed in place of what was checked
(`Submitting.reused_staging_executed`).
-/

namespace Infinigpu.Kmd

/-- **As long as the staged message is in the memory that the host reads for its descriptor, the host writes nothing
but the frame of the submission, and that lies in the object which was named and checked.** -/
theorem submit_contained {env : Env} (henv : env.Sized) {idev : IgpuDevice} {r : Request} {staged : List UInt8}
    (h : r.ioctl idev = .ok staged) (tail : UInt32) (stagingDma : UInt64) (ctx : Fin NUM_CONTEXTS) {d : Backend}
    (hstill : d.StillStaged ctx (r.descriptor tail stagingDma staged) staged) :
    ∃ obj, idev.lookup r.boHandle = some obj ∧ r.width.toNat * r.height.toNat * 4 ≤ obj.size ∧
      ∀ q, (d.executeDescriptor env ctx (r.descriptor tail stagingDma staged)).mem q ≠ d.mem q →
        ∃ p, d.dma.resolve obj.dmaAddr (r.width.toNat * r.height.toNat * 4) = some p ∧
          p ≤ q ∧ q < p + r.width.toNat * r.height.toNat * 4 := by
  obtain ⟨obj, htarget, hlt, payloadLen, body, wl, rest, hstaged, hwl, hwidth, hheight, haddr⟩ := Request.ioctl_ok h
  obtain ⟨hlookup, hsize⟩ := target_size htarget
  refine ⟨obj, hlookup, hsize, ?_⟩
  have hsc := readFromPrefix_submitHeader payloadLen body
  rw [← hstaged] at hsc
  have hlen : (r.descriptor tail stagingDma staged).len.toNat = staged.length := by
    rw [Request.descriptor_len, UInt32.toNat_ofNat_of_lt' hlt]
  have hwrites := (Backend.executeDescriptor_writesOnly henv (Request.descriptor_msgType tail stagingDma staged r) hsc
    (submitHeader_encoding payloadLen) hwl ctx hlen hstill).mem
  rw [VulkanWorkload.frameBytes, hwidth, hheight, haddr] at hwrites
  exact hwrites

/-- The clear of a single pixel. -/
def clearPixel : Submit3dArgs where
  boHandle := 1
  op := 0
  width := 1
  height := 1
  bg := { r := 0, g := 0, b := 0, a := 0 }

def clearPixelStaged : List UInt8 :=
  submitHeader 40 ++ VulkanWorkload.encode
    { op := 0, width := 1, height := 1, bg := { r := 0, g := 0, b := 0, a := 0 }, scanoutAddr := 0x10000 }

private theorem clearPixel_staged : (Request.submit3d clearPixel).ioctl Icd.oneObject = .ok clearPixelStaged := rfl

/-- A device with a mapped page that starts with the object; the message lies in the first slot of the ring. -/
def clearPixelPending : Backend :=
  { Backend.withBroker .default .new (.new "vm" 1 4096) (Memory.store (fun _ => 0) 0x300 clearPixelStaged) with
    dma := DmaTable.new.map 0x10000 0x1000 0
    ringBase := fun _ => 0x10100 }

theorem submit_contained_clear :
    (∃ obj, Icd.oneObject.lookup 1 = some obj ∧ (1 : UInt32).toNat * (1 : UInt32).toNat * 4 ≤ obj.size ∧
      ∀ q, (clearPixelPending.executeDescriptor .white 0 (ring2Push 0 MsgType.submitCmd 80)).mem q ≠
          clearPixelPending.mem q →
        ∃ p, clearPixelPending.dma.resolve obj.dmaAddr ((1 : UInt32).toNat * (1 : UInt32).toNat * 4) = some p ∧
          p ≤ q ∧ q < p + (1 : UInt32).toNat * (1 : UInt32).toNat * 4) ∧
      (clearPixelPending.executeDescriptor .white 0 (ring2Push 0 MsgType.submitCmd 80)).mem 0 = 255 := by
  constructor
  · refine submit_contained Env.white_sized (r := .submit3d clearPixel) clearPixel_staged 0 0 0 ?_
    intro p hp
    have hresolve : clearPixelPending.dma.resolve 0x10300 80 = some 0x300 := by decide
    have hp' : clearPixelPending.dma.resolve 0x10300 80 = some p := hp
    rw [hresolve, Option.some_inj] at hp'
    subst hp'
    exact Memory.load_store_same _ _ clearPixelStaged
  · decide +kernel

/-! ### Memory that has been given away -/

/-- A kernel driver with two objects. -/
def twoObjects : IgpuDevice where
  ringDrainer := true
  lookup handle := some { size := 4096, dmaAddr := if handle = 1 then 0x10000 else 0x11000 }

/-- A forwarded clear of one pixel of an object. -/
def clearObject (boHandle : UInt32) : SubmitForwardedArgs where
  boHandle
  width := 1
  height := 1
  payloadLen := 40
  payload := VulkanWorkload.encode
    { op := 0, width := 0, height := 0, bg := { r := 0, g := 0, b := 0, a := 0 }, scanoutAddr := 0 }

def clearStaged (scanoutAddr : UInt64) : List UInt8 :=
  submitHeader 40 ++ VulkanWorkload.encode
    { op := 0, width := 1, height := 1, bg := { r := 0, g := 0, b := 0, a := 0 }, scanoutAddr }

private theorem clearObject_staged : (Request.submitForwarded (clearObject 1)).ioctl twoObjects =
    .ok (clearStaged 0x10000) ∧
    (Request.submitForwarded (clearObject 2)).ioctl twoObjects = .ok (clearStaged 0x11000) := by decide +kernel

def clearBuffers (target : GemObject) : Buffers where
  stagingDma := 0x20000
  totalLen := 80
  target

/-- Both objects and the staging buffer are mapped.  The call for the second object has staged its message in the
buffer that the first call has freed. -/
def stagedAgain : Backend :=
  { Backend.withBroker .default .new (.new "vm" 1 4096)
      ((Memory.store (fun _ => 0) 0x2000 (clearStaged 0x10000)).store 0x2000 (clearStaged 0x11000)) with
    dma := (DmaTable.new.map 0x10000 0x2000 0).map 0x20000 0x1000 0x2000 }

namespace Submitting

/-- The first call waits in vain and returns, the second one is given the same buffer, and then the host pops. -/
def reusedStaging : List Action :=
  [.begin 0 (clearBuffers ⟨4096, 0x10000⟩) true, .publish 0] ++
    (List.replicate 19999 (.poll 0) ++ [.poll 0, .begin 1 (clearBuffers ⟨4096, 0x11000⟩) true, .doorbell, .pop, .pop])

def waitingClear : Submitting :=
  ((start.setCall 0 (.publishing (clearBuffers ⟨4096, 0x10000⟩) 0)).published
    (.forwarded 0 (clearBuffers ⟨4096, 0x10000⟩))).setCall 0 (.waiting (clearBuffers ⟨4096, 0x10000⟩) 1 0)

/-- The host executes the descriptor of the call for the first object and writes to the second one. -/
theorem reused_staging_executed : Env.white.Sized ∧ ∃ t e highest, Lts.run step start reusedStaging = some t ∧
    t.host = .executing [e] highest ∧ e.owner = some 0 ∧ t.calls 0 = .returned (.error .timedOut) ∧
    t.calls 1 = .publishing (clearBuffers ⟨4096, 0x11000⟩) 0 ∧
    (Request.submitForwarded (clearObject 1)).ioctl twoObjects = .ok (clearStaged 0x10000) ∧
    (Request.submitForwarded (clearObject 2)).ioctl twoObjects = .ok (clearStaged 0x11000) ∧
    e.desc = (Request.submitForwarded (clearObject 1)).descriptor 0 0x20000 (clearStaged 0x10000) ∧
    ∃ obj q, twoObjects.lookup 1 = some obj ∧
      (stagedAgain.executeDescriptor .white 0 e.desc).mem q ≠ stagedAgain.mem q ∧
      ¬ ∃ p, stagedAgain.dma.resolve obj.dmaAddr (1 * 1 * 4) = some p ∧ p ≤ q ∧ q < p + 1 * 1 * 4 := by
  have hwaits : Lts.run step start [.begin 0 (clearBuffers ⟨4096, 0x10000⟩) true, .publish 0] = some waitingClear :=
    rfl
  have hpolls := run_polls (s := waitingClear) (n := 0) (b := clearBuffers ⟨4096, 0x10000⟩) 19999 rfl (by decide)
    (by omega)
  have hrest : (Lts.run step (waitingClear.setCall 0 (.waiting (clearBuffers ⟨4096, 0x10000⟩) 1 19999))
      [.poll 0, .begin 1 (clearBuffers ⟨4096, 0x11000⟩) true, .doorbell, .pop, .pop]).isSome := by decide +kernel
  let t := (Lts.run step (waitingClear.setCall 0 (.waiting (clearBuffers ⟨4096, 0x10000⟩) 1 19999))
    [.poll 0, .begin 1 (clearBuffers ⟨4096, 0x11000⟩) true, .doorbell, .pop, .pop]).get hrest
  have hrun : Lts.run step start reusedStaging = some t := by
    rw [reusedStaging, Lts.run_append_of_eq hwaits, Lts.run_append_of_eq hpolls]
    exact (Option.some_get hrest).symm
  have hhost : t.host = .executing [.forwarded 0 (clearBuffers ⟨4096, 0x10000⟩) 0] 1 := rfl
  have hdesc : (Entry.forwarded 0 (clearBuffers ⟨4096, 0x10000⟩) 0).desc =
      (Request.submitForwarded (clearObject 1)).descriptor 0 0x20000 (clearStaged 0x10000) := rfl
  refine ⟨Env.white_sized, t, _, 1, hrun, hhost, rfl, rfl, rfl, clearObject_staged.1, clearObject_staged.2, hdesc,
    ⟨4096, 0x10000⟩, 0x1000, rfl, ?_, ?_⟩
  · decide +kernel
  · rintro ⟨p, hp, -, hlt⟩
    have hresolve : stagedAgain.dma.resolve 0x10000 (1 * 1 * 4) = some 0 := by decide +kernel
    rw [hresolve, Option.some_inj] at hp
    omega

end Submitting

end Infinigpu.Kmd
