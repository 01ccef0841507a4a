import Infinigpu.Device.Present

/-!
# 3D submissions (`infinigpu-device`, `submit_vulkan`)

A `VULKAN_VENUSLIKE` submission: its gates, the elision of repeated frames, the replay on the GPU with its zero-copy
and one-copy presents.  Every path of it acknowledges the seqno of the submission (`submitVulkan_self`).
-/

namespace Infinigpu

def MAX_CMD_BYTES : UInt32 := 64 * 1024 * 1024

def fnv1a64 (data : List UInt8) : UInt64 :=
  data.foldl (fun h b => (h ^^^ b.toUInt64) * 0x00000100000001b3) 0xcbf29ce484222325

/-- The bytes of a render target, rounded up to a page. -/
def alignedBytes (width height : UInt32) : Nat := (width.toNat * height.toNat * 4 + 4095) / 4096 * 4096

/-- A render hands back the pixels of the frame it is asked for, and a render in place stores no more than them. -/
structure Env.Sized (env : Env) : Prop where
  renderClear : ∀ n w h bg px, env.renderClear n w h bg = .pixels px → px.length = w.toNat * h.toNat * 4
  renderTriangle : ∀ n w h bg px, env.renderTriangle n w h bg = .pixels px → px.length = w.toNat * h.toNat * 4
  renderForwardedPresent : ∀ n w h bg fwd px,
    env.renderForwardedPresent n w h bg fwd = .pixels px → px.length = w.toNat * h.toNat * 4
  renderForwardedZerocopy : ∀ n w h bg fwd,
    (env.renderForwardedZerocopy n w h bg fwd).written.length ≤ w.toNat * h.toNat * 4

theorem Env.white_sized : Env.white.Sized where
  renderClear n w h bg px hpx := by
    cases hpx
    exact List.length_replicate
  renderTriangle := nofun
  renderForwardedPresent := nofun
  renderForwardedZerocopy _ _ _ _ _ := Nat.zero_le _

/-- The bytes of the frame that is asked for. -/
def VulkanWorkload.frameBytes (wl : VulkanWorkload) : Nat := wl.width.toNat * wl.height.toNat * 4

namespace Backend

variable (env : Env)

/-- Presents what a render leaves: at address zero nothing is written.  `none` is a render that failed. -/
def presentRendered (out : Rendered) (scanoutAddr : UInt64) (d : Backend) : Option Bool × Backend :=
  match d.runTimed env out.outcome with
  | (.ok (some px), d) =>
    if scanoutAddr = 0 then
      (some true, d)
    else
      let (ok, d) := d.dmaWrite scanoutAddr px
      (some ok, d)
  | (_, d) => (none, d)

/-- A render straight into the guest memory at `ptr`.  `none` is a run that failed, `some false` a render that did. -/
def renderZerocopy (wl : VulkanWorkload) (fwd : OwnedForwardedDraw) (ptr : Nat) (d : Backend) :
    Option Bool × Backend :=
  let out := env.renderForwardedZerocopy d.calls wl.width wl.height wl.bg fwd
  let imported (d : Backend) : Backend :=
    { d with mem := d.mem.store ptr (out.written.take (alignedBytes wl.width wl.height)) }
  match d.runTimed env out.result with
  | (.error .notAdmitted, d) => (none, d)
  | (.error .panicked, d) => (none, imported d)
  | (.ok ok, d) => (some ok, imported d)

/-- The default present of a forwarded draw, and the fallback of the zero-copy one. -/
def renderOnecopy (wl : VulkanWorkload) (fwd : OwnedForwardedDraw) (d : Backend) : Option Bool × Backend :=
  d.presentRendered env (env.renderForwardedPresent d.calls wl.width wl.height wl.bg fwd) wl.scanoutAddr

/-- Where a forwarded draw may be rendered in place. -/
def zerocopyTarget (wl : VulkanWorkload) (fwd : OwnedForwardedDraw) (d : Backend) : Option Nat :=
  if d.zerocopyScanout && wl.scanoutAddr != 0 && env.supportsZerocopy d.calls && fwd.geometry.isNone then
    d.dma.resolve wl.scanoutAddr (alignedBytes wl.width wl.height)
  else
    none

def replayForwarded (wl : VulkanWorkload) (fwd : OwnedForwardedDraw) (d : Backend) : Option Bool × Backend :=
  match d.zerocopyTarget env wl fwd with
  | none => d.renderOnecopy env wl fwd
  | some ptr =>
    match d.renderZerocopy env wl fwd ptr with
    | (some true, d) => (some true, d)
    -- zero-copy is switched off for good and this frame is presented the other way
    | (some false, d) => { d with zerocopyScanout := false }.renderOnecopy env wl fwd
    | (none, d) => (none, d)

/-- Replays the workload: whether its frame was presented, `none` where it was not rendered. -/
def replay (wl : VulkanWorkload) (payload : List UInt8) (d : Backend) : Option Bool × Backend :=
  if wl.op = VkOp.forwarded ∨ wl.op = VkOp.forwardedCmdlist then
    let decoded :=
      if wl.op = VkOp.forwardedCmdlist then
        decodeForwardedCmdlist payload MAX_CMD_BYTES.toNat
      else
        decodeForwarded payload MAX_CMD_BYTES.toNat
    match decoded with
    | none => (none, d)
    | some fwd => d.replayForwarded env wl fwd
  else if wl.op = VkOp.triangle then
    d.presentRendered env (env.renderTriangle d.calls wl.width wl.height wl.bg) wl.scanoutAddr
  else
    d.presentRendered env (env.renderClear d.calls wl.width wl.height wl.bg) wl.scanoutAddr

/-- The hash under which a frame is remembered. -/
def payloadHash (wl : VulkanWorkload) (payload : List UInt8) (d : Backend) : Option UInt64 :=
  if d.elideUnchanged && wl.scanoutAddr != 0 then some (fnv1a64 payload) else none

/-- Remembers a frame that was presented, for at most eight buffers. -/
def rememberFrame (hash : Option UInt64) (scanoutAddr : UInt64) (presented : Bool) (d : Backend) : Backend :=
  match hash, presented with
  | some h, true =>
    let cache := if d.lastForwardedHash.entries.length ≥ 8 then ∅ else d.lastForwardedHash
    { d with lastForwardedHash := cache.insert scanoutAddr h }
  | _, _ => d

def submitVulkan (sc : SubmitCmd) (payload : List UInt8) (ctx : Fin NUM_CONTEXTS) (d : Backend) : Backend :=
  let (admitted, d) := d.ensureAdmitted env
  if !admitted then
    d.retire ctx sc.seqno
  else if sc.payloadLen > MAX_CMD_BYTES then
    d.retire ctx sc.seqno
  else
    match readFromPrefix VulkanWorkload.size VulkanWorkload.decode payload with
    | none => d.retire ctx sc.seqno
    | some (wl, _) =>
      if badRenderGeometry wl.width wl.height then
        d.retire ctx sc.seqno
      else
        let d := { d with vulkanSubmits := d.vulkanSubmits + 1 }
        let hash := d.payloadHash wl payload
        if hash.isSome && d.lastForwardedHash.lookup wl.scanoutAddr == hash then
          { d with framesElided := d.framesElided + 1 }.retire ctx sc.seqno
        else
          match d.replay env wl payload with
          | (none, d) => d.retire ctx sc.seqno
          | (some presented, d) => (d.rememberFrame hash wl.scanoutAddr presented).retire ctx sc.seqno

variable {env}

/-! ### What a submission does -/

private theorem presentRendered_keeps (out : Rendered) (addr : UInt64) (d : Backend) :
    Keeps d (d.presentRendered env out addr).2 := by
  have hrun := (runTimed_quiet env out.outcome d).toKeeps
  simp only [presentRendered]
  split
  · rename_i px d' hd'
    rw [hd'] at hrun
    split
    · exact hrun
    · exact hrun.trans (dmaWrite_keeps _ _ _)
  · rename_i r d' hd'
    rw [hd'] at hrun
    exact hrun

theorem renderZerocopy_keeps (env : Env) (wl : VulkanWorkload) (fwd : OwnedForwardedDraw) (ptr : Nat) (d : Backend) :
    Keeps d (d.renderZerocopy env wl fwd ptr).2 := by
  have hrun := (runTimed_quiet env
    (env.renderForwardedZerocopy d.calls wl.width wl.height wl.bg fwd).result d).toKeeps
  have himported : ∀ (d : Backend) (mem : Memory), Keeps d { d with mem } := fun _ _ => ⟨rfl, rfl, rfl, rfl, id⟩
  simp only [renderZerocopy]
  split
  · rename_i d' hd'
    rw [hd'] at hrun
    exact hrun
  · rename_i d' hd'
    rw [hd'] at hrun
    exact hrun.trans (himported _ _)
  · rename_i ok d' hd'
    rw [hd'] at hrun
    exact hrun.trans (himported _ _)

theorem replayForwarded_keeps (wl : VulkanWorkload) (fwd : OwnedForwardedDraw) (d : Backend) :
    Keeps d (d.replayForwarded env wl fwd).2 := by
  simp only [replayForwarded]
  split
  · exact presentRendered_keeps _ _ _
  · rename_i ptr _
    have hzc := renderZerocopy_keeps env wl fwd ptr d
    split
    · rename_i d' hd'
      rw [hd'] at hzc
      exact hzc
    · rename_i d' hd'
      rw [hd'] at hzc
      have hoff : Keeps d' { d' with zerocopyScanout := false } := ⟨rfl, rfl, rfl, rfl, id⟩
      exact (hzc.trans hoff).trans (presentRendered_keeps _ _ _)
    · rename_i d' hd'
      rw [hd'] at hzc
      exact hzc

theorem replay_keeps (env : Env) (wl : VulkanWorkload) (payload : List UInt8) (d : Backend) :
    Keeps d (d.replay env wl payload).2 := by
  simp only [replay]
  split
  · split
    · exact .refl d
    · exact replayForwarded_keeps _ _ _
  · split
    · exact presentRendered_keeps _ _ _
    · exact presentRendered_keeps _ _ _

theorem rememberFrame_keeps (hash : Option UInt64) (addr : UInt64) (presented : Bool) (d : Backend) :
    Keeps d (d.rememberFrame hash addr presented) := by
  unfold rememberFrame
  split
  · exact ⟨rfl, rfl, rfl, rfl, id⟩
  · exact .refl d

theorem submitVulkan_keeps (sc : SubmitCmd) (payload : List UInt8) (ctx : Fin NUM_CONTEXTS) (d : Backend) :
    Keeps d (d.submitVulkan env sc payload ctx) := by
  have hadm := (ensureAdmitted_quiet env d).toKeeps
  simp only [submitVulkan]
  split
  · exact hadm.trans (retire_keeps _ _ _)
  · split
    · exact hadm.trans (retire_keeps _ _ _)
    · split
      · exact hadm.trans (retire_keeps _ _ _)
      · rename_i wl _ _
        split
        · exact hadm.trans (retire_keeps _ _ _)
        · have hcount : ∀ d : Backend, Keeps d { d with vulkanSubmits := d.vulkanSubmits + 1 } := fun _ =>
            ⟨rfl, rfl, rfl, rfl, id⟩
          split
          · have helided : ∀ d : Backend, Keeps d { d with framesElided := d.framesElided + 1 } := fun _ =>
              ⟨rfl, rfl, rfl, rfl, id⟩
            exact ((hadm.trans (hcount _)).trans (helided _)).trans (retire_keeps _ _ _)
          · have hreplay := (hadm.trans (hcount _)).trans (replay_keeps env wl payload _)
            split
            · rename_i d' hd'
              rw [hd'] at hreplay
              exact hreplay.trans (retire_keeps _ _ _)
            · rename_i presented d' hd'
              rw [hd'] at hreplay
              exact (hreplay.trans (rememberFrame_keeps _ _ _ _)).trans (retire_keeps _ _ _)

/-- Whatever becomes of a submission, its seqno is acknowledged. -/
theorem submitVulkan_self (sc : SubmitCmd) (payload : List UInt8) (ctx : Fin NUM_CONTEXTS) (d : Backend) :
    (d.submitVulkan env sc payload ctx).ringRetired ctx = sc.seqno := by
  simp only [submitVulkan]
  split
  · exact retire_self _ _ _
  · split
    · exact retire_self _ _ _
    · split
      · exact retire_self _ _ _
      · split
        · exact retire_self _ _ _
        · split
          · exact retire_self _ _ _
          · split
            · exact retire_self _ _ _
            · exact retire_self _ _ _

end Backend

end Infinigpu
