import Infinigpu.Device.Twin

/-!
# What the handlers are made of

Whatever is served, the device asks for admission, accounts for the size of its scanout, waits for its turn on the GPU
and assigns the fields that hold the state of the display and of the rings.  A preorder that contains these steps
contains all that a doorbell sets off (`Contained.processRing`).
-/

namespace Infinigpu

namespace Backend

/-- A relation between the device before and after that every step of a handler respects. -/
structure Contained (R : Backend → Backend → Prop) : Prop where
  refl : ∀ d, R d d
  trans : ∀ {d d' d''}, R d d' → R d' d'' → R d d''
  ensureAdmitted : ∀ env d, R d (d.ensureAdmitted env).2
  accountScanoutVram : ∀ width height d, R d (d.accountScanoutVram width height)
  runTimed : ∀ {α : Type} env (out : Option α) d, R d (d.runTimed env out).2
  assign : ∀ {d : Backend} {mem ringRetired resources presentCount pixel lastScanout bytesReadLast cursor
    vulkanSubmits lastForwardedHash framesElided cursorUpdates calls}, d.pixel.isSome = pixel.isSome →
    R d { d with
      mem, ringRetired, resources, presentCount, pixel, lastScanout, bytesReadLast, cursor, vulkanSubmits,
      lastForwardedHash, framesElided, cursorUpdates, calls }
  zerocopyOff : ∀ d : Backend, R d { d with zerocopyScanout := false }

namespace Contained

variable {R : Backend → Backend → Prop} (hR : Contained R) {env : Env}

include hR

private theorem assigned {d d' : Backend} (h : R d d') {mem ringRetired resources presentCount pixel lastScanout
    bytesReadLast cursor vulkanSubmits lastForwardedHash framesElided cursorUpdates calls}
    (hpixel : d'.pixel.isSome = pixel.isSome) :
    R d { d' with
      mem, ringRetired, resources, presentCount, pixel, lastScanout, bytesReadLast, cursor, vulkanSubmits,
      lastForwardedHash, framesElided, cursorUpdates, calls } :=
  hR.trans h (hR.assign hpixel)

private theorem dmaWrite {d d' : Backend} (h : R d d') (addr : UInt64) (buf : List UInt8) :
    R d (d'.dmaWrite addr buf).2 :=
  hR.assigned h rfl

private theorem retire {d d' : Backend} (h : R d d') (ctx : Fin NUM_CONTEXTS) (seqno : UInt64) :
    R d (d'.retire ctx seqno) :=
  hR.assigned h rfl

private theorem invalidateElision (d : Backend) : R d d.invalidateElision :=
  hR.assigned (hR.refl d) rfl

private theorem streamFrame {d d' : Backend} (h : R d d') (bgra : List UInt8) (width height : UInt32) :
    R d (d'.streamFrame bgra width height) :=
  hR.assigned h Option.isSome_map.symm

/-! ### The cursor and the presents -/

private theorem handleCursorUpdate (env : Env) (cu : CursorUpdate) (d : Backend) :
    R d (d.handleCursorUpdate env cu) := by
  have hcount : R d { d with cursorUpdates := d.cursorUpdates + 1 } :=
    hR.assigned (hR.refl d) rfl
  have hadm := hR.trans hcount (hR.ensureAdmitted env _)
  simp only [Backend.handleCursorUpdate]
  split
  · exact hadm
  · generalize ({ d with cursorUpdates := d.cursorUpdates + 1 }.ensureAdmitted env).2 = e at hadm ⊢
    obtain ⟨cursor, pixel, heq, hpixel⟩ := forwardCursor_only env cu e.calls { e with calls := e.calls + 1 }
    rw [heq]
    exact hR.assigned hadm hpixel

private theorem presentScanout (env : Env) (sp : ScanoutPresent) (seqno : UInt64) (ctx : Fin NUM_CONTEXTS)
    (d : Backend) :
    R d (d.presentScanout env sp seqno ctx) := by
  have hadm := hR.ensureAdmitted env d
  simp only [Backend.presentScanout]
  split
  · exact hadm
  · split
    · exact hadm
    · have hacc := hR.trans hadm (hR.accountScanoutVram sp.width sp.height _)
      split
      · exact hacc
      · refine hR.streamFrame (hR.retire ?_ _ _) _ _ _
        exact hR.assigned hacc rfl

theorem presentScanoutDamaged (env : Env) (sp : ScanoutPresentDamaged) (seqno : UInt64) (ctx : Fin NUM_CONTEXTS)
    (d : Backend) : R d (d.presentScanoutDamaged env sp seqno ctx) := by
  have hadm := hR.trans (hR.invalidateElision d) (hR.ensureAdmitted env _)
  simp only [Backend.presentScanoutDamaged]
  split
  · exact hadm
  · split
    · exact hadm
    · have hacc := hR.trans hadm (hR.accountScanoutVram sp.width sp.height _)
      split
      · exact hacc
      · refine hR.streamFrame (hR.retire ?_ _ _) _ _ _
        exact hR.assigned hacc rfl

theorem presentResourceFlush (env : Env) (resId : UInt32) (rect : Rect) (seqno : UInt64) (ctx : Fin NUM_CONTEXTS)
    (d : Backend) : R d (d.presentResourceFlush env resId rect seqno ctx) := by
  have hinv := hR.invalidateElision d
  simp only [Backend.presentResourceFlush]
  split
  · exact hinv
  · exact hR.trans hinv (hR.presentScanoutDamaged ..)

private theorem renderClearPresent (env : Env) (cp : ClearPresent) (seqno : UInt64) (ctx : Fin NUM_CONTEXTS)
    (d : Backend) :
    R d (d.renderClearPresent env cp seqno ctx) := by
  have hadm := hR.trans (hR.invalidateElision d) (hR.ensureAdmitted env _)
  simp only [Backend.renderClearPresent]
  split
  · exact hadm
  · split
    · exact hadm
    · have hrun := fun out : Option (Option (List UInt8)) => hR.trans hadm (hR.runTimed env out _)
      generalize (d.invalidateElision.ensureAdmitted env).2 = e at hrun ⊢
      have h := hrun (env.renderClear e.calls cp.width cp.height cp.rgba).outcome
      split
      · rename_i rgba f hf
        rw [hf] at h
        split
        · exact hR.retire (hR.dmaWrite h _ _) _ _
        · exact hR.dmaWrite h _ _
      · rename_i r f hf
        rw [hf] at h
        exact h

/-! ### 3D submissions -/

private theorem presentRendered (env : Env) (out : Rendered) (addr : UInt64) (d : Backend) :
    R d (d.presentRendered env out addr).2 := by
  have hrun := hR.runTimed env out.outcome d
  simp only [Backend.presentRendered]
  split
  · rename_i px e he
    rw [he] at hrun
    split
    · exact hrun
    · exact hR.dmaWrite hrun _ _
  · rename_i r e he
    rw [he] at hrun
    exact hrun

private theorem renderZerocopy (env : Env) (wl : VulkanWorkload) (fwd : OwnedForwardedDraw) (ptr : Nat)
    (d : Backend) :
    R d (d.renderZerocopy env wl fwd ptr).2 := by
  have hrun := hR.runTimed env (env.renderForwardedZerocopy d.calls wl.width wl.height wl.bg fwd).result d
  simp only [Backend.renderZerocopy]
  split
  · rename_i e he
    rw [he] at hrun
    exact hrun
  · rename_i e he
    rw [he] at hrun
    exact hR.assigned hrun rfl
  · rename_i ok e he
    rw [he] at hrun
    exact hR.assigned hrun rfl

private theorem replayForwarded (env : Env) (wl : VulkanWorkload) (fwd : OwnedForwardedDraw) (d : Backend) :
    R d (d.replayForwarded env wl fwd).2 := by
  simp only [Backend.replayForwarded]
  split
  · exact hR.presentRendered ..
  · rename_i ptr _
    have hzc := hR.renderZerocopy env wl fwd ptr d
    split
    · rename_i e he
      rw [he] at hzc
      exact hzc
    · rename_i e he
      rw [he] at hzc
      exact hR.trans (hR.trans hzc (hR.zerocopyOff e)) (hR.presentRendered ..)
    · rename_i e he
      rw [he] at hzc
      exact hzc

private theorem replay (env : Env) (wl : VulkanWorkload) (payload : List UInt8) (d : Backend) :
    R d (d.replay env wl payload).2 := by
  simp only [Backend.replay]
  split
  · split
    · exact hR.refl d
    · exact hR.replayForwarded ..
  · split
    · exact hR.presentRendered ..
    · exact hR.presentRendered ..

private theorem submitVulkan (env : Env) (sc : SubmitCmd) (payload : List UInt8) (ctx : Fin NUM_CONTEXTS)
    (d : Backend) :
    R d (d.submitVulkan env sc payload ctx) := by
  have hadm := hR.ensureAdmitted env d
  simp only [Backend.submitVulkan]
  split
  · exact hR.retire hadm _ _
  · split
    · exact hR.retire hadm _ _
    · split
      · exact hR.retire hadm _ _
      · rename_i wl _ _
        split
        · exact hR.retire hadm _ _
        · generalize (d.ensureAdmitted env).2 = e at hadm ⊢
          have hcount : R d { e with vulkanSubmits := e.vulkanSubmits + 1 } := hR.assigned hadm rfl
          split
          · exact hR.retire (hR.assigned hcount rfl) _ _
          · have hreplay := hR.trans hcount (hR.replay env wl payload _)
            split
            · rename_i f hf
              rw [hf] at hreplay
              exact hR.retire hreplay _ _
            · rename_i presented f hf
              rw [hf] at hreplay
              refine hR.retire ?_ _ _
              unfold rememberFrame
              split
              · exact hR.assigned hreplay rfl
              · exact hreplay

/-! ### Descriptors and rings -/

private theorem dispatchSubmit (env : Env) (sc : SubmitCmd) (encPayload : List UInt8) (ctx : Fin NUM_CONTEXTS)
    (d : Backend) :
    R d (d.dispatchSubmit env sc encPayload ctx) := by
  simp only [Backend.dispatchSubmit]
  split
  · split
    · exact hR.renderClearPresent ..
    · exact hR.refl d
  · split
    · split
      · exact hR.presentScanout ..
      · exact hR.refl d
    · split
      · exact hR.presentScanoutDamaged ..
      · split
        · exact hR.submitVulkan ..
        · exact hR.refl d

private theorem readCursorUpdate (env : Env) (addr : UInt64) (len : UInt32) (d : Backend) :
    R d (d.readCursorUpdate env addr len) := by
  unfold Backend.readCursorUpdate
  split
  · exact hR.handleCursorUpdate ..
  · exact hR.refl d

private theorem executeDescriptor (env : Env) (ctx : Fin NUM_CONTEXTS) (desc : Descriptor) (d : Backend) :
    R d (d.executeDescriptor env ctx desc) := by
  have hresources : ∀ resources, R d { d with resources } := fun resources =>
    hR.assigned (hR.refl d) rfl
  simp only [Backend.executeDescriptor]
  split
  · exact hR.refl d
  · split
    · exact hR.readCursorUpdate ..
    · split
      · exact hR.refl d
      · split
        · split
          · exact hR.dispatchSubmit ..
          · exact hR.refl d
        · split
          · exact hR.trans (hresources _) (hR.presentResourceFlush ..)
          · exact hresources _

private theorem executeBatch (env : Env) (ctx : Fin NUM_CONTEXTS) (batch : List Descriptor) (d : Backend) :
    R d (d.executeBatch env ctx batch) := by
  induction batch generalizing d with
  | nil => exact hR.refl d
  | cons desc batch ih => exact hR.trans (hR.executeDescriptor env ctx desc d) (ih _)

private theorem serveRing (env : Env) (g : Geometry) (r : RingMemory) (ctx : Fin NUM_CONTEXTS) (d : Backend) :
    R d (d.serveRing env g r ctx) := by
  have hpop : ∀ mem, R d { d with mem } := fun mem => hR.assigned (hR.refl d) rfl
  have hbatch := fun mem batch => hR.trans (hpop mem) (hR.executeBatch env ctx batch _)
  simp only [Backend.serveRing, retireBatch]
  split
  · exact hR.retire (hR.assigned (hbatch _ _) rfl) _ _
  · exact hbatch _ _

private theorem drainCtx (env : Env) (ctx : Fin NUM_CONTEXTS) (d : Backend) : R d (d.drainCtx env ctx) := by
  have hadm := hR.ensureAdmitted env d
  simp only [Backend.drainCtx]
  split
  · exact hR.refl d
  · split
    · exact hadm
    · split
      · exact hadm
      · exact hR.trans hadm (hR.serveRing ..)

private theorem processSubmit (env : Env) (sc : SubmitCmd) (addr : UInt64) (ctx : Fin NUM_CONTEXTS) (d : Backend) :
    R d (d.processSubmit env sc addr ctx) := by
  simp only [Backend.processSubmit]
  split
  · split
    · exact hR.renderClearPresent ..
    · exact hR.refl d
  · split
    · split
      · exact hR.presentScanout ..
      · exact hR.refl d
    · split
      · split
        · exact hR.presentScanoutDamaged ..
        · exact hR.refl d
      · split
        · split
          · exact hR.submitVulkan ..
          · exact hR.refl d
        · exact hR.refl d

theorem processRing (env : Env) (ctx : Fin NUM_CONTEXTS) (d : Backend) : R d (d.processRing env ctx) := by
  simp only [Backend.processRing]
  split
  · exact hR.drainCtx ..
  · split
    · exact hR.refl d
    · split
      · exact hR.refl d
      · split
        · exact hR.retire (hR.readCursorUpdate ..) _ _
        · split
          · exact hR.refl d
          · split
            · exact hR.refl d
            · exact hR.processSubmit ..

end Contained

end Backend

end Infinigpu
