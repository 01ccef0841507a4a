import Infinigpu.Device.Rings
import Infinigpu.Guest.Agreement

/-!
# What a 3D submission writes to guest memory

The kernel driver checks the size of the object it is given, and the host writes: on whatever path it renders, it
writes the frame of the workload header at the target of that header (`submitVulkan_writesOnly`), and the driver has
put its own geometry and target there (`Request.ioctl_ok`).
-/

namespace Infinigpu

/-! ### Writes of the host -/

namespace Backend

/-- Guest memory changes at most in the `n` bytes that are mapped at `addr`. -/
structure WritesOnly (addr : UInt64) (n : Nat) (d d' : Backend) : Prop where
  dma : d'.dma = d.dma
  mem : ∀ q, d'.mem q ≠ d.mem q → ∃ p, d.dma.resolve addr n = some p ∧ p ≤ q ∧ q < p + n

variable {addr : UInt64} {n : Nat}

private theorem WritesOnly.of_mem {d d' : Backend} (hdma : d'.dma = d.dma) (hmem : d'.mem = d.mem) :
    WritesOnly addr n d d' where
  dma := hdma
  mem q hq := absurd (congrFun hmem q) hq

private theorem WritesOnly.trans {d d' d'' : Backend} (h : WritesOnly addr n d d') (h' : WritesOnly addr n d' d'') :
    WritesOnly addr n d d'' where
  dma := h'.dma.trans h.dma
  mem := by
    intro q hq
    by_cases hfirst : d'.mem q = d.mem q
    · rw [← hfirst] at hq
      rw [← h.dma]
      exact h'.mem q hq
    · exact h.mem q hfirst

private theorem Quiet.writesOnly {d d' : Backend} (h : Quiet d d') : WritesOnly addr n d d' := .of_mem h.dma h.mem

/-- A store of at most `n` bytes to where `addr` is mapped. -/
private theorem store_writesOnly {d : Backend} {p : Nat} {bs : List UInt8} (hp : d.dma.resolve addr n = some p)
    (hlen : bs.length ≤ n) : WritesOnly addr n d { d with mem := d.mem.store p bs } where
  dma := rfl
  mem := by
    intro q hq
    refine ⟨p, hp, ?_, ?_⟩
    · by_contra hlow
      exact hq (Memory.store_of_lt bs (Nat.not_le.1 hlow))
    · by_contra hhigh
      exact hq (Memory.store_of_ge (by omega))

private theorem dmaWrite_writesOnly {buf : List UInt8} (d : Backend) (hlen : buf.length = n) :
    WritesOnly addr n d (d.dmaWrite addr buf).2 := by
  unfold dmaWrite DmaTable.write
  cases hp : d.dma.resolve addr buf.length with
  | none => exact .of_mem rfl rfl
  | some p =>
    rw [hlen] at hp
    exact store_writesOnly hp (Nat.le_of_eq hlen)

variable {env : Env}

private theorem presentRendered_writesOnly {out : Rendered} (d : Backend)
    (hout : ∀ px, out = .pixels px → px.length = n) :
    WritesOnly addr n d (d.presentRendered env out addr).2 := by
  have hrun : WritesOnly addr n d (d.runTimed env out.outcome).2 := (runTimed_quiet env out.outcome d).writesOnly
  unfold presentRendered
  split
  · next px d' hd' =>
    rw [hd'] at hrun
    split
    · exact hrun
    · refine hrun.trans (dmaWrite_writesOnly d' (hout px ?_))
      have houtcome := runTimed_ok hd'
      cases out with
      | panicked => cases houtcome
      | failed => cases houtcome
      | pixels px' =>
        cases houtcome
        rfl
  · next r d' hd' =>
    rw [hd'] at hrun
    exact hrun

private theorem renderZerocopy_writesOnly (henv : env.Sized) (wl : VulkanWorkload)
    (fwd : OwnedForwardedDraw) {ptr : Nat} (d : Backend)
    (hptr : d.dma.resolve wl.scanoutAddr wl.frameBytes = some ptr) :
    WritesOnly wl.scanoutAddr wl.frameBytes d (d.renderZerocopy env wl fwd ptr).2 := by
  have hrun : WritesOnly wl.scanoutAddr wl.frameBytes d
      (d.runTimed env (env.renderForwardedZerocopy d.calls wl.width wl.height wl.bg fwd).result).2 :=
    (runTimed_quiet env _ d).writesOnly
  have hlen := Nat.le_trans
    (List.length_take_le' (alignedBytes wl.width wl.height)
      (env.renderForwardedZerocopy d.calls wl.width wl.height wl.bg fwd).written)
    (henv.renderForwardedZerocopy d.calls wl.width wl.height wl.bg fwd)
  unfold renderZerocopy
  simp only
  split
  · next d' hd' =>
    rw [hd'] at hrun
    exact hrun
  · next d' hd' =>
    rw [hd'] at hrun
    rw [← hrun.dma] at hptr
    exact hrun.trans (store_writesOnly hptr hlen)
  · next ok d' hd' =>
    rw [hd'] at hrun
    rw [← hrun.dma] at hptr
    exact hrun.trans (store_writesOnly hptr hlen)

/-- Where a draw may be rendered in place there is room for its frame. -/
private theorem zerocopyTarget_resolve {wl : VulkanWorkload} {fwd : OwnedForwardedDraw} {d : Backend} {ptr : Nat}
    (h : d.zerocopyTarget env wl fwd = some ptr) :
    d.dma.resolve wl.scanoutAddr wl.frameBytes = some ptr := by
  unfold zerocopyTarget at h
  split at h
  · refine DmaTable.resolve_le h ?_
    unfold alignedBytes VulkanWorkload.frameBytes
    omega
  · cases h

private theorem replayForwarded_writesOnly (henv : env.Sized) (wl : VulkanWorkload) (fwd : OwnedForwardedDraw)
    (d : Backend) :
    WritesOnly wl.scanoutAddr wl.frameBytes d (d.replayForwarded env wl fwd).2 := by
  have honecopy : ∀ d : Backend,
      WritesOnly wl.scanoutAddr wl.frameBytes d (d.renderOnecopy env wl fwd).2 := fun d =>
    presentRendered_writesOnly d fun px => henv.renderForwardedPresent d.calls wl.width wl.height wl.bg fwd px
  unfold replayForwarded
  split
  · exact honecopy d
  · next ptr hptr =>
    have hzc := renderZerocopy_writesOnly henv wl fwd d (zerocopyTarget_resolve hptr)
    split
    · next d' hd' =>
      rw [hd'] at hzc
      exact hzc
    · next d' hd' =>
      -- the frame is written a second time
      rw [hd'] at hzc
      have hoff : WritesOnly wl.scanoutAddr wl.frameBytes d' { d' with zerocopyScanout := false } :=
        .of_mem rfl rfl
      exact (hzc.trans hoff).trans (honecopy _)
    · next d' hd' =>
      rw [hd'] at hzc
      exact hzc

private theorem replay_writesOnly (henv : env.Sized) (wl : VulkanWorkload) (payload : List UInt8) (d : Backend) :
    WritesOnly wl.scanoutAddr wl.frameBytes d (d.replay env wl payload).2 := by
  unfold replay
  simp only
  split
  · split
    · exact .of_mem rfl rfl
    · next fwd _ => exact replayForwarded_writesOnly henv wl fwd d
  · split
    · exact presentRendered_writesOnly d fun px => henv.renderTriangle d.calls wl.width wl.height wl.bg px
    · exact presentRendered_writesOnly d fun px => henv.renderClear d.calls wl.width wl.height wl.bg px

/-- **On every path of a 3D submission at most the frame of its workload is written.** -/
theorem submitVulkan_writesOnly (henv : env.Sized) (sc : SubmitCmd) {payload rest : List UInt8} {wl : VulkanWorkload}
    (hwl : readFromPrefix VulkanWorkload.size VulkanWorkload.decode payload = some (wl, rest))
    (ctx : Fin NUM_CONTEXTS) (d : Backend) :
    WritesOnly wl.scanoutAddr wl.frameBytes d (d.submitVulkan env sc payload ctx) := by
  have hadm : WritesOnly wl.scanoutAddr wl.frameBytes d (d.ensureAdmitted env).2 :=
    (ensureAdmitted_quiet env d).writesOnly
  unfold submitVulkan
  simp only [hwl]
  split
  · exact hadm.trans (.of_mem rfl rfl)
  · split
    · exact hadm.trans (.of_mem rfl rfl)
    · split
      · exact hadm.trans (.of_mem rfl rfl)
      · split
        · exact hadm.trans (.of_mem rfl rfl)
        · have hcount : ∀ d : Backend, WritesOnly wl.scanoutAddr wl.frameBytes d
              { d with vulkanSubmits := d.vulkanSubmits + 1 } := fun _ => .of_mem rfl rfl
          have hreplay := (hadm.trans (hcount _)).trans (replay_writesOnly henv wl payload _)
          split
          · next d' hd' =>
            rw [hd'] at hreplay
            exact hreplay.trans (.of_mem rfl rfl)
          · next presented d' hd' =>
            rw [hd'] at hreplay
            refine hreplay.trans (.of_mem ?_ ?_)
            · exact (rememberFrame_keeps _ _ _ _).dma
            · unfold rememberFrame
              split
              · rfl
              · rfl

/-- The bytes that are read for the descriptor, if they are mapped, are the staged ones. -/
def StillStaged (ctx : Fin NUM_CONTEXTS) (desc : Descriptor) (staged : List UInt8) (d : Backend) : Prop :=
  ∀ p, d.dma.resolve (d.payloadAddr ctx desc) staged.length = some p → d.mem.load p staged.length = staged

private theorem StillStaged.dmaRead {ctx : Fin NUM_CONTEXTS} {desc : Descriptor} {staged bs : List UInt8}
    {d : Backend} (h : d.StillStaged ctx desc staged)
    (hread : d.dmaRead (d.payloadAddr ctx desc) staged.length = some bs) :
    bs = staged := by
  unfold Backend.dmaRead DmaTable.read at hread
  obtain ⟨p, hp, rfl⟩ := Option.map_eq_some_iff.1 hread
  exact h p hp

/-- A `SUBMIT_CMD` of the 3D encoding, whether its payload can be read or not. -/
theorem executeDescriptor_writesOnly (henv : env.Sized) {desc : Descriptor} {sc : SubmitCmd}
    {staged body rest : List UInt8} {wl : VulkanWorkload} (hmsg : desc.msgType = MsgType.submitCmd)
    (hsc : readFromPrefix SubmitCmd.size SubmitCmd.decode staged = some (sc, body))
    (henc : sc.encoding = Encoding.vulkanVenuslike)
    (hwl : readFromPrefix VulkanWorkload.size VulkanWorkload.decode body = some (wl, rest)) (ctx : Fin NUM_CONTEXTS)
    {d : Backend} (hlen : desc.len.toNat = staged.length) (hstaged : d.StillStaged ctx desc staged) :
    WritesOnly wl.scanoutAddr wl.frameBytes d (d.executeDescriptor env ctx desc) := by
  have hcursor : desc.msgType ≠ MsgType.cursorUpdate := by
    rw [hmsg]
    decide
  have hpos : 0 < staged.length := by
    by_contra hzero
    rw [List.length_eq_zero_iff.1 (Nat.le_zero.1 (Nat.not_lt.1 hzero))] at hsc
    cases hsc
  unfold executeDescriptor
  simp only [hlen, if_neg hcursor, if_pos hmsg, if_pos hpos]
  split
  · exact .of_mem rfl rfl
  · cases hpayload : d.dmaRead (d.payloadAddr ctx desc) staged.length with
    | none => exact .of_mem rfl rfl
    | some payload =>
      rw [hstaged.dmaRead hpayload]
      simp only [hsc]
      have hdispatch : d.dispatchSubmit env sc body ctx = d.submitVulkan env sc body ctx := by
        unfold dispatchSubmit
        rw [henc, if_neg (by decide), if_neg (by decide), if_neg (by decide), if_pos rfl]
      rw [hdispatch]
      exact submitVulkan_writesOnly henv sc hwl ctx d

end Backend

/-! ### What the kernel driver publishes -/

namespace Kmd

def RING2_CAP : UInt32 := 16
def RING2_PSTRIDE : UInt32 := 128

/-- The descriptor of `igpu_ring2_push`; the payload lies in the area of its slot behind the descriptors. -/
def ring2Push (tail msgType payloadLen : UInt32) : Descriptor where
  msgType
  flags := 0
  len := payloadLen
  dataOffset := RING2_CAP * 32 + (tail &&& (RING2_CAP - 1)) * RING2_PSTRIDE
  seqno := tail.toUInt64 + 1
  payloadAddr := 0

/-- The descriptor of `igpu_ring2_push_abs`. -/
def ring2PushAbs (tail msgType : UInt32) (payloadDma : UInt64) (payloadLen : UInt32) : Descriptor where
  msgType
  flags := DescFlags.payloadAbs
  len := payloadLen
  dataOffset := 0
  seqno := tail.toUInt64 + 1
  payloadAddr := payloadDma

/-- What a process may ask of the render node. -/
inductive Request where
  | submit3d (args : Submit3dArgs)
  | submitForwarded (args : SubmitForwardedArgs)

namespace Request

def boHandle : Request → UInt32
  | submit3d args => args.boHandle
  | submitForwarded args => args.boHandle

def width : Request → UInt32
  | submit3d args => args.width
  | submitForwarded args => args.width

def height : Request → UInt32
  | submit3d args => args.height
  | submitForwarded args => args.height

def ioctl (idev : IgpuDevice) : Request → Except Errno (List UInt8)
  | submit3d args => ioctlSubmit3d idev args
  | submitForwarded args => ioctlSubmitForwarded idev args

/-- The descriptor under which the staged message is published; a forwarded one lies at `stagingDma`. -/
def descriptor (tail : UInt32) (stagingDma : UInt64) (staged : List UInt8) : Request → Descriptor
  | submit3d _ => ring2Push tail MsgType.submitCmd (UInt32.ofNat staged.length)
  | submitForwarded _ => ring2PushAbs tail MsgType.submitCmd stagingDma (UInt32.ofNat staged.length)

theorem descriptor_msgType (tail : UInt32) (stagingDma : UInt64) (staged : List UInt8) (r : Request) :
    (r.descriptor tail stagingDma staged).msgType = MsgType.submitCmd := by
  cases r with
  | submit3d => rfl
  | submitForwarded => rfl

theorem descriptor_len (tail : UInt32) (stagingDma : UInt64) (staged : List UInt8) (r : Request) :
    (r.descriptor tail stagingDma staged).len = UInt32.ofNat staged.length := by
  cases r with
  | submit3d => rfl
  | submitForwarded => rfl

end Request

/-! ### What is staged -/

private theorem ioctlSubmit3d_ok {idev : IgpuDevice} {args : Submit3dArgs} {staged : List UInt8}
    (h : ioctlSubmit3d idev args = .ok staged) :
    ∃ obj, target idev args.boHandle args.width args.height = .ok obj ∧
      staged = submitHeader 40 ++ VulkanWorkload.encode
        { op := args.op, width := args.width, height := args.height, bg := args.bg, scanoutAddr := obj.dmaAddr } := by
  unfold ioctlSubmit3d at h
  by_cases hdrainer : !idev.ringDrainer
  · rw [if_pos hdrainer] at h
    cases h
  rw [if_neg hdrainer] at h
  by_cases hop : args.op > VkOp.triangle
  · rw [if_pos hop] at h
    cases h
  rw [if_neg hop] at h
  by_cases hgeometry : badGeometry args.width args.height = true
  · rw [if_pos hgeometry] at h
    cases h
  rw [if_neg hgeometry] at h
  cases htarget : target idev args.boHandle args.width args.height with
  | error e =>
    rw [htarget] at h
    cases h
  | ok obj =>
    rw [htarget] at h
    simp only [bind, Except.bind, Except.ok.injEq] at h
    exact ⟨obj, rfl, h.symm⟩

/-- The host finds the header, whatever follows it. -/
theorem readFromPrefix_submitHeader (payloadLen : UInt32) (body : List UInt8) :
    readFromPrefix SubmitCmd.size SubmitCmd.decode (submitHeader payloadLen ++ body) =
      some (SubmitCmd.decode (submitHeader payloadLen), body) :=
  readFromPrefix_append (submitHeader_length payloadLen) body

theorem submitHeader_encoding (payloadLen : UInt32) :
    (SubmitCmd.decode (submitHeader payloadLen)).encoding = Encoding.vulkanVenuslike := u32At_words (i := 1) rfl

/-- The host finds a workload with the checked geometry, and the object that was checked is its target. -/
theorem Request.ioctl_ok {r : Request} {idev : IgpuDevice} {staged : List UInt8} (h : r.ioctl idev = .ok staged) :
    ∃ obj, target idev r.boHandle r.width r.height = .ok obj ∧ staged.length < 2 ^ 32 ∧
      ∃ payloadLen body wl rest, staged = submitHeader payloadLen ++ body ∧
        readFromPrefix VulkanWorkload.size VulkanWorkload.decode body = some (wl, rest) ∧
          wl.width = r.width ∧ wl.height = r.height ∧ wl.scanoutAddr = obj.dmaAddr := by
  cases r with
  | submit3d args =>
    obtain ⟨obj, htarget, rfl⟩ := ioctlSubmit3d_ok h
    let wl : VulkanWorkload :=
      { op := args.op, width := args.width, height := args.height, bg := args.bg, scanoutAddr := obj.dmaAddr }
    have hwl : readFromPrefix VulkanWorkload.size VulkanWorkload.decode wl.encode = some (wl, []) := by
      have hdecode := wl.decode_encode []
      rw [List.append_nil] at hdecode
      have hread : readFromPrefix VulkanWorkload.size VulkanWorkload.decode (wl.encode ++ []) =
          some (VulkanWorkload.decode wl.encode, []) := readFromPrefix_append wl.encode_length []
      rw [List.append_nil, hdecode] at hread
      exact hread
    refine ⟨obj, htarget, ?_, 40, _, wl, [], rfl, hwl, rfl, rfl, rfl⟩
    rw [List.length_append, submitHeader_length, VulkanWorkload.encode_length]
    decide
  | submitForwarded args =>
    obtain ⟨-, hsize, hmax, hlen, obj, htarget, rfl⟩ := ioctlSubmitForwarded_ok h
    have hbody : (args.payload.take args.payloadLen.toNat).length = args.payloadLen.toNat := by
      rw [List.length_take, Nat.min_eq_left hlen]
    have hpatched : (patchWorkload args.width args.height obj.dmaAddr
        (args.payload.take args.payloadLen.toNat)).length = args.payloadLen.toNat := by
      rw [patchWorkload_length (by omega), hbody]
    let wl : VulkanWorkload :=
      { VulkanWorkload.decode (args.payload.take args.payloadLen.toNat) with
        width := args.width
        height := args.height
        scanoutAddr := obj.dmaAddr }
    have hwl : readFromPrefix VulkanWorkload.size VulkanWorkload.decode
        (patchWorkload args.width args.height obj.dmaAddr (args.payload.take args.payloadLen.toNat)) =
          some (wl, (args.payload.take args.payloadLen.toNat).drop VulkanWorkload.size) := by
      rw [readFromPrefix, if_neg (by omega), VulkanWorkload.decode_take (Nat.le_refl _),
        patchWorkload_decode (by omega), patchWorkload_drop (by omega)]
    refine ⟨obj, htarget, ?_, args.payloadLen, _, wl, _, rfl, hwl, rfl, rfl, rfl⟩
    have hmaxBytes : FWD_MAX_PAYLOAD.toNat = 0x100000 := rfl
    have hheader : SubmitCmd.size = 40 := rfl
    rw [List.length_append, submitHeader_length, hpatched]
    omega

end Kmd

end Infinigpu
