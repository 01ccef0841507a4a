import Infinigpu.Device.Frames

/-!
# What a reset leaves of the past

A device that is reset is a new one but for its counters, for what its streamer was handed before and for the status
register, where it asks for a reset instead of being ready.  Nothing that the device does depends on these: every
handler leads from a worn device to the same result, worn (`processRing_worn`).
-/

namespace Infinigpu

/-- What the past leaves: the number of presents, the bytes of the last one, unless a present has been made since, and
what the streamer was handed. -/
structure Wear where
  presents : UInt64
  bytesRead : Option Nat
  streamed : PixelStreamer

/-- A present has been made since. -/
def Wear.presented (w : Wear) : Wear := { w with bytesRead := none }

/-- What has been handed over after `p`. -/
def PixelStreamer.after (p q : PixelStreamer) : PixelStreamer where
  frames := p.frames ++ q.frames
  sideband := p.sideband ++ q.sideband

namespace Backend

/-- The device, worn. -/
def worn (w : Wear) (d : Backend) : Backend :=
  { d with
    globalStatus := d.globalStatus &&& GlobalStatus.fatal ||| GlobalStatus.needsReset
    presentCount := d.presentCount + w.presents
    bytesReadLast := w.bytesRead.getD d.bytesReadLast
    cursorNeedsResolicit := true
    pixel := d.pixel.map w.streamed.after }

variable {env : Env} {w : Wear} {d : Backend}

private theorem and_or_or (g f n : UInt32) : (g &&& f ||| n) ||| f = (g ||| f) &&& f ||| n := by
  rw [UInt32.or_assoc, UInt32.or_comm n f, ← UInt32.or_assoc]
  congr 1
  apply UInt32.toBitVec_inj.1
  ext i hi
  simp only [UInt32.toBitVec_or, UInt32.toBitVec_and, BitVec.getElem_or, BitVec.getElem_and]
  cases f.toBitVec[i] <;> simp

private theorem and_or_and {f n : UInt32} (h : n &&& f = 0) (g : UInt32) : (g &&& f ||| n) &&& f = g &&& f := by
  apply UInt32.toBitVec_inj.1
  ext i hi
  have hbit := congrArg (fun x => x.toBitVec[i]) h
  simp only [UInt32.toBitVec_or, UInt32.toBitVec_and, BitVec.getElem_or, BitVec.getElem_and] at hbit ⊢
  cases hf : f.toBitVec[i] with
  | false => simp
  | true =>
    rw [hf] at hbit
    simp_all

/-- The status registers agree on the fatal bit. -/
theorem worn_fatal : (d.worn w).globalStatus &&& GlobalStatus.fatal = d.globalStatus &&& GlobalStatus.fatal :=
  and_or_and (by decide) d.globalStatus

@[simp] theorem worn_mem : (d.worn w).mem = d.mem := rfl
@[simp] theorem worn_dma : (d.worn w).dma = d.dma := rfl
@[simp] theorem worn_ringBase : (d.worn w).ringBase = d.ringBase := rfl
@[simp] theorem worn_ringRetired : (d.worn w).ringRetired = d.ringRetired := rfl
@[simp] theorem worn_ringIndex : (d.worn w).ringIndex = d.ringIndex := rfl
@[simp] theorem worn_ringCap : (d.worn w).ringCap = d.ringCap := rfl
@[simp] theorem worn_resources : (d.worn w).resources = d.resources := rfl
@[simp] theorem worn_ticket : (d.worn w).ticket = d.ticket := rfl
@[simp] theorem worn_broker : (d.worn w).broker = d.broker := rfl
@[simp] theorem worn_brokerConfig : (d.worn w).brokerConfig = d.brokerConfig := rfl
@[simp] theorem worn_cursor : (d.worn w).cursor = d.cursor := rfl
@[simp] theorem worn_scanoutVramDims : (d.worn w).scanoutVramDims = d.scanoutVramDims := rfl
@[simp] theorem worn_zerocopyScanout : (d.worn w).zerocopyScanout = d.zerocopyScanout := rfl
@[simp] theorem worn_elideUnchanged : (d.worn w).elideUnchanged = d.elideUnchanged := rfl
@[simp] theorem worn_lastForwardedHash : (d.worn w).lastForwardedHash = d.lastForwardedHash := rfl
@[simp] theorem worn_calls : (d.worn w).calls = d.calls := rfl
@[simp] theorem worn_pixel_isNone : (d.worn w).pixel.isNone = d.pixel.isNone := Option.isNone_map

private theorem worn_alike (w : Wear) (d : Backend) : Alike (d.worn w) d :=
  { Alike.refl d with streams := Option.isSome_map }

/-! ### Bookkeeping -/

theorem ensureAdmitted_worn (env : Env) (w : Wear) (d : Backend) :
    (d.worn w).ensureAdmitted env = ((d.ensureAdmitted env).1, (d.ensureAdmitted env).2.worn w) := by
  cases ht : d.ticket with
  | some t =>
    rw [ensureAdmitted_of_ticket (d := d.worn w) (by rw [worn, ht]; rfl), ensureAdmitted_of_ticket (by rw [ht]; rfl)]
  | none =>
    cases hdenied : d.admissionDenied with
    | true => rw [ensureAdmitted_denied (d := d.worn w) ht hdenied, ensureAdmitted_denied ht hdenied]
    | false =>
      have hrequest : (d.worn w).admitRequest = d.admitRequest := by
        rw [admitRequest, admitRequest, (worn_alike w d).streams]
      cases hadm : d.broker.admitVm d.brokerConfig d.vmConfig d.admitRequest (env.clock d.calls) with
      | mk r broker =>
        cases r with
        | ok t =>
          rw [ensureAdmitted_ok (d := d.worn w) ht hdenied (hrequest ▸ hadm), ensureAdmitted_ok ht hdenied hadm]
          rfl
        | error e =>
          rw [ensureAdmitted_error (d := d.worn w) ht hdenied (hrequest ▸ hadm), ensureAdmitted_error ht hdenied hadm]
          simp only [worn, and_or_or]

private theorem accountScanoutVram_worn (width height : UInt32) (w : Wear) (d : Backend) :
    (d.worn w).accountScanoutVram width height = (d.accountScanoutVram width height).worn w := by
  by_cases hdims : d.scanoutVramDims = some (width, height)
  · simp only [accountScanoutVram, worn_scanoutVramDims, hdims, if_true]
  · simp only [accountScanoutVram, worn_scanoutVramDims, hdims, if_false, worn_ticket]
    cases d.ticket <;> rfl

private theorem runTimed_worn {α : Type*} (env : Env) (out : Option α) (w : Wear) (d : Backend) :
    (d.worn w).runTimed env out = ((d.runTimed env out).1, (d.runTimed env out).2.worn w) := by
  cases ht : d.ticket with
  | none => simp only [runTimed, worn_ticket, ht]
  | some t =>
    cases hvm : (d.broker.vms.lookup t.vmId).isNone with
    | true => simp only [runTimed, worn_ticket, worn_broker, ht, hvm, if_true]
    | false =>
      simp only [runTimed, worn_ticket, worn_broker, ht, hvm, Bool.false_eq_true, if_false]
      cases out <;> rfl

theorem dmaRead_worn (addr : UInt64) (len : Nat) : (d.worn w).dmaRead addr len = d.dmaRead addr len := rfl

theorem dmaWrite_worn (addr : UInt64) (buf : List UInt8) :
    (d.worn w).dmaWrite addr buf = ((d.dmaWrite addr buf).1, (d.dmaWrite addr buf).2.worn w) := rfl

theorem retire_worn (ctx : Fin NUM_CONTEXTS) (seqno : UInt64) :
    (d.worn w).retire ctx seqno = (d.retire ctx seqno).worn w := rfl

theorem invalidateElision_worn : (d.worn w).invalidateElision = d.invalidateElision.worn w := rfl

private theorem streamFrame_worn (bgra : List UInt8) (width height : UInt32) (w : Wear) (d : Backend) :
    (d.worn w).streamFrame bgra width height = (d.streamFrame bgra width height).worn w := by
  cases hp : d.pixel with
  | none => simp [streamFrame, worn, hp]
  | some p => simp [streamFrame, worn, hp, PixelStreamer.after]

private theorem sendPlane_worn (hdr : PlaneHeader) (body : List UInt8) (w : Wear) (d : Backend) :
    (d.worn w).sendPlane hdr body = (d.sendPlane hdr body).worn w := by
  cases hp : d.pixel with
  | none => simp [sendPlane, worn, hp]
  | some p => simp [sendPlane, worn, hp, PixelStreamer.after]

theorem resetState_worn (w : Wear) (d : Backend) : (d.worn w).resetState = d.resetState.worn w := by
  cases hp : d.pixel with
  | none =>
    simp only [resetState, worn, hp, Option.map_none]
    rfl
  | some p =>
    simp only [resetState, worn, hp, Option.map_some, PixelStreamer.after, List.append_assoc]
    rfl

/-! ### The cursor -/

private theorem sendCursor_worn (hdr : PlaneHeader) (body : List UInt8) (cursor : CursorState) (w : Wear)
    (d : Backend) :
    { (d.worn w).sendPlane hdr body with cursor } = { d.sendPlane hdr body with cursor }.worn w := by
  rw [sendPlane_worn]
  rfl

private theorem worn_ite {c : Prop} [Decidable c] (w : Wear) (d d' : Backend) :
    (if c then d else d').worn w = if c then d.worn w else d'.worn w := apply_ite (worn w) c d d'

private theorem forwardCursor_worn (env : Env) (cu : CursorUpdate) (n : Nat) (w : Wear) (d : Backend) :
    (d.worn w).forwardCursor env cu n = (d.forwardCursor env cu n).worn w := by
  simp only [forwardCursor, worn_ite, ← sendCursor_worn, dmaRead_worn]
  cases d.dmaRead cu.shapeRef (cu.pitch.toNat * cu.height.toNat) with
  | none => rfl
  | some src =>
    simp only [← sendCursor_worn]
    rfl

private theorem handleCursorUpdate_worn (env : Env) (cu : CursorUpdate) (w : Wear) (d : Backend) :
    (d.worn w).handleCursorUpdate env cu = (d.handleCursorUpdate env cu).worn w := by
  generalize hd : d.worn w = d'
  have hcount : { d' with cursorUpdates := d'.cursorUpdates + 1 } =
      { d with cursorUpdates := d.cursorUpdates + 1 }.worn w := by
    rw [← hd]
    rfl
  simp only [handleCursorUpdate, hcount, ensureAdmitted_worn, worn_pixel_isNone, worn_ite, ← forwardCursor_worn]
  rfl

/-! ### Presents -/

/-- The bookkeeping of a present: what the worn device had read before is overwritten. -/
private theorem presented_worn {d' : Backend} (h : d' = d.worn w) (last : Option ScanoutBuffer) (total : Nat) :
    { d' with lastScanout := last, bytesReadLast := total, presentCount := d'.presentCount + 1 } =
      { d with lastScanout := last, bytesReadLast := total, presentCount := d.presentCount + 1 }.worn
        w.presented := by
  subst h
  simp only [worn, Wear.presented, Option.getD_none]
  rw [UInt64.add_assoc, UInt64.add_comm w.presents 1, ← UInt64.add_assoc]

private theorem presentScanout_worn (env : Env) (sp : ScanoutPresent) (seqno : UInt64)
    (ctx : Fin NUM_CONTEXTS) (w : Wear) (d : Backend) : ∃ w' : Wear, w'.streamed = w.streamed ∧
      (d.worn w).presentScanout env sp seqno ctx = (d.presentScanout env sp seqno ctx).worn w' := by
  simp only [presentScanout, ensureAdmitted_worn]
  generalize (d.ensureAdmitted env).2 = e
  cases (d.ensureAdmitted env).1 with
  | false => exact ⟨w, rfl, rfl⟩
  | true =>
    cases sp.fbBytes with
    | none => exact ⟨w, rfl, rfl⟩
    | some total =>
      simp only [accountScanoutVram_worn, dmaRead_worn]
      generalize e.accountScanoutVram sp.width sp.height = f
      cases f.dmaRead sp.scanoutAddr total with
      | none => exact ⟨w, rfl, rfl⟩
      | some buf =>
        generalize hf : f.worn w = f'
        simp only [Bool.not_true, Bool.false_eq_true, if_false, presented_worn hf.symm, retire_worn, streamFrame_worn]
        exact ⟨w.presented, rfl, rfl⟩

private theorem presentScanoutDamaged_worn (env : Env) (sp : ScanoutPresentDamaged) (seqno : UInt64)
    (ctx : Fin NUM_CONTEXTS) (w : Wear) (d : Backend) : ∃ w' : Wear, w'.streamed = w.streamed ∧
      (d.worn w).presentScanoutDamaged env sp seqno ctx = (d.presentScanoutDamaged env sp seqno ctx).worn w' := by
  simp only [presentScanoutDamaged, invalidateElision_worn, ensureAdmitted_worn]
  generalize (d.invalidateElision.ensureAdmitted env).2 = e
  cases (d.invalidateElision.ensureAdmitted env).1 with
  | false => exact ⟨w, rfl, rfl⟩
  | true =>
    cases sp.fbBytes with
    | none => exact ⟨w, rfl, rfl⟩
    | some total =>
      simp only [accountScanoutVram_worn, (worn_alike w _).damagedSurface]
      generalize e.accountScanoutVram sp.width sp.height = f
      cases f.damagedSurface sp total with
      | none => exact ⟨w, rfl, rfl⟩
      | some r =>
        generalize hf : f.worn w = f'
        simp only [Bool.not_true, Bool.false_eq_true, if_false, presented_worn hf.symm, retire_worn, streamFrame_worn]
        exact ⟨w.presented, rfl, rfl⟩

private theorem presentResourceFlush_worn (env : Env) (resId : UInt32) (rect : Rect) (seqno : UInt64)
    (ctx : Fin NUM_CONTEXTS) (w : Wear) (d : Backend) : ∃ w' : Wear, w'.streamed = w.streamed ∧
      (d.worn w).presentResourceFlush env resId rect seqno ctx =
        (d.presentResourceFlush env resId rect seqno ctx).worn w' := by
  simp only [presentResourceFlush, invalidateElision_worn, flushPresent, worn_resources]
  split
  · exact ⟨w, rfl, rfl⟩
  · exact presentScanoutDamaged_worn ..

private theorem renderClearPresent_worn (env : Env) (cp : ClearPresent) (seqno : UInt64)
    (ctx : Fin NUM_CONTEXTS) (w : Wear) (d : Backend) :
    (d.worn w).renderClearPresent env cp seqno ctx = (d.renderClearPresent env cp seqno ctx).worn w := by
  simp only [renderClearPresent, invalidateElision_worn, ensureAdmitted_worn, runTimed_worn, worn_calls, worn_ite]
  generalize (d.invalidateElision.ensureAdmitted env).2 = e
  cases hrun : e.runTimed env (env.renderClear e.calls cp.width cp.height cp.rgba).outcome with
  | mk r f =>
    cases r with
    | error err => rfl
    | ok frame =>
      cases frame with
      | none => rfl
      | some rgba =>
        simp only [dmaWrite_worn, retire_worn, worn_ite]
        rfl

/-! ### 3D submissions -/

private theorem presentRendered_worn (env : Env) (out : Rendered) (addr : UInt64) (w : Wear) (d : Backend) :
    (d.worn w).presentRendered env out addr =
      ((d.presentRendered env out addr).1, (d.presentRendered env out addr).2.worn w) := by
  simp only [presentRendered, runTimed_worn]
  cases d.runTimed env out.outcome with
  | mk r e =>
    cases r with
    | error err => rfl
    | ok frame =>
      cases frame with
      | none => rfl
      | some px =>
        by_cases haddr : addr = 0
        · simp only [haddr, if_true]
        · simp only [haddr, if_false, dmaWrite_worn]

private theorem renderOnecopy_worn (env : Env) (wl : VulkanWorkload) (fwd : OwnedForwardedDraw) (w : Wear)
    (d : Backend) :
    (d.worn w).renderOnecopy env wl fwd = ((d.renderOnecopy env wl fwd).1, (d.renderOnecopy env wl fwd).2.worn w) :=
  presentRendered_worn ..

private theorem renderZerocopy_worn (env : Env) (wl : VulkanWorkload) (fwd : OwnedForwardedDraw)
    (ptr : Nat) (w : Wear) (d : Backend) : (d.worn w).renderZerocopy env wl fwd ptr =
      ((d.renderZerocopy env wl fwd ptr).1, (d.renderZerocopy env wl fwd ptr).2.worn w) := by
  simp only [renderZerocopy, runTimed_worn, worn_calls]
  cases d.runTimed env (env.renderForwardedZerocopy d.calls wl.width wl.height wl.bg fwd).result with
  | mk r e =>
    cases r with
    | error err => cases err <;> rfl
    | ok ok => rfl

private theorem replayForwarded_worn (env : Env) (wl : VulkanWorkload) (fwd : OwnedForwardedDraw) (w : Wear)
    (d : Backend) :
    (d.worn w).replayForwarded env wl fwd =
      ((d.replayForwarded env wl fwd).1, (d.replayForwarded env wl fwd).2.worn w) := by
  have htarget : (d.worn w).zerocopyTarget env wl fwd = d.zerocopyTarget env wl fwd := rfl
  cases hptr : d.zerocopyTarget env wl fwd with
  | none =>
    simp only [replayForwarded, htarget, hptr]
    exact renderOnecopy_worn ..
  | some ptr =>
    cases hrender : d.renderZerocopy env wl fwd ptr with
    | mk r e =>
      simp only [replayForwarded, htarget, hptr, renderZerocopy_worn, hrender]
      cases r with
      | none => rfl
      | some ok =>
        cases ok with
        | true => rfl
        | false => exact renderOnecopy_worn env wl fwd w { e with zerocopyScanout := false }

private theorem replay_worn (env : Env) (wl : VulkanWorkload) (payload : List UInt8) (w : Wear) (d : Backend) :
    (d.worn w).replay env wl payload = ((d.replay env wl payload).1, (d.replay env wl payload).2.worn w) := by
  simp only [replay, worn_calls]
  split
  · split
    · rfl
    · exact replayForwarded_worn ..
  · split
    · exact presentRendered_worn ..
    · exact presentRendered_worn ..

private theorem rememberFrame_worn (hash : Option UInt64) (addr : UInt64) (presented : Bool) (w : Wear)
    (d : Backend) :
    (d.worn w).rememberFrame hash addr presented = (d.rememberFrame hash addr presented).worn w := by
  cases hash with
  | none => rfl
  | some h => cases presented <;> rfl

private theorem rendered_worn (env : Env) (wl : VulkanWorkload) (payload : List UInt8) (w : Wear) (d : Backend) :
    (d.worn w).rendered env wl payload = (d.rendered env wl payload).worn w := by
  simp only [rendered, replay_worn, payloadHash, worn_elideUnchanged]
  cases d.replay env wl payload with
  | mk r e =>
    cases r with
    | none => rfl
    | some presented => exact rememberFrame_worn ..

private theorem counted_worn (env : Env) (w : Wear) (d : Backend) :
    (d.worn w).counted env = (d.counted env).worn w := by
  rw [counted, counted, ensureAdmitted_worn]
  rfl

private theorem submitVulkan_worn (env : Env) (sc : SubmitCmd) (payload : List UInt8)
    (ctx : Fin NUM_CONTEXTS) (w : Wear) (d : Backend) :
    (d.worn w).submitVulkan env sc payload ctx = (d.submitVulkan env sc payload ctx).worn w := by
  have hadm : ((d.worn w).ensureAdmitted env).1 = (d.ensureAdmitted env).1 := by rw [ensureAdmitted_worn]
  have hrefused : (d.ensureAdmitted env).1 = false ∨ acceptedWorkload sc payload = none →
      (d.worn w).submitVulkan env sc payload ctx = (d.submitVulkan env sc payload ctx).worn w := by
    intro h
    rw [submitVulkan_refused ctx h, submitVulkan_refused ctx (hadm.symm ▸ h), ensureAdmitted_worn]
    rfl
  cases hok : (d.ensureAdmitted env).1 with
  | false => exact hrefused (.inl hok)
  | true =>
    cases hwl : acceptedWorkload sc payload with
    | none => exact hrefused (.inr hwl)
    | some wl =>
      rw [submitVulkan_accepted ctx hok hwl, submitVulkan_accepted ctx (hadm.trans hok) hwl, counted_worn,
        rendered_worn]
      by_cases helided : d.Elided wl payload
      · rw [if_pos helided, if_pos (show (d.worn w).Elided wl payload from helided)]
        rfl
      · rw [if_neg helided, if_neg (show ¬ (d.worn w).Elided wl payload from helided)]
        rfl

/-! ### Descriptors and rings -/

/-- The device is the other one, worn, with the same things handed to its streamer before. -/
def WornAs (p : PixelStreamer) (d' d : Backend) : Prop := ∃ w : Wear, w.streamed = p ∧ d' = d.worn w

variable {p : PixelStreamer} {d' : Backend}

private theorem dispatchSubmit_worn (h : WornAs p d' d) (env : Env) (sc : SubmitCmd) (encPayload : List UInt8)
    (ctx : Fin NUM_CONTEXTS) :
    WornAs p (d'.dispatchSubmit env sc encPayload ctx) (d.dispatchSubmit env sc encPayload ctx) := by
  obtain ⟨w, rfl, rfl⟩ := h
  simp only [dispatchSubmit]
  split
  · split
    · exact ⟨w, rfl, renderClearPresent_worn ..⟩
    · exact ⟨w, rfl, rfl⟩
  · split
    · split
      · exact presentScanout_worn ..
      · exact ⟨w, rfl, rfl⟩
    · split
      · exact presentScanoutDamaged_worn ..
      · split
        · exact ⟨w, rfl, submitVulkan_worn ..⟩
        · exact ⟨w, rfl, rfl⟩

private theorem readCursorUpdate_worn (env : Env) (addr : UInt64) (len : UInt32) (w : Wear) (d : Backend) :
    (d.worn w).readCursorUpdate env addr len = (d.readCursorUpdate env addr len).worn w := by
  simp only [readCursorUpdate, dmaRead_worn]
  split
  · exact handleCursorUpdate_worn ..
  · rfl

namespace WornAs

private theorem dmaRead (h : WornAs p d' d) (addr : UInt64) (len : Nat) :
    d'.dmaRead addr len = d.dmaRead addr len := by
  obtain ⟨w, rfl, rfl⟩ := h
  rfl

private theorem payloadAddr (h : WornAs p d' d) (ctx : Fin NUM_CONTEXTS) (desc : Descriptor) :
    d'.payloadAddr ctx desc = d.payloadAddr ctx desc := by
  obtain ⟨w, rfl, rfl⟩ := h
  rfl

private theorem resources_eq (h : WornAs p d' d) : d'.resources = d.resources := by
  obtain ⟨w, rfl, rfl⟩ := h
  rfl

private theorem setResources (h : WornAs p d' d) (resources : ResourceTable) :
    WornAs p { d' with resources } { d with resources } := by
  obtain ⟨w, rfl, rfl⟩ := h
  exact ⟨w, rfl, rfl⟩

theorem flush (h : WornAs p d' d) (env : Env) (resId : UInt32) (rect : Rect) (seqno : UInt64)
    (ctx : Fin NUM_CONTEXTS) :
    WornAs p (d'.presentResourceFlush env resId rect seqno ctx)
      (d.presentResourceFlush env resId rect seqno ctx) := by
  obtain ⟨w, rfl, rfl⟩ := h
  exact presentResourceFlush_worn env resId rect seqno ctx w d

end WornAs

private theorem executeDescriptor_worn (h : WornAs p d' d) (env : Env) (ctx : Fin NUM_CONTEXTS) (desc : Descriptor) :
    WornAs p (d'.executeDescriptor env ctx desc) (d.executeDescriptor env ctx desc) := by
  simp only [executeDescriptor, h.dmaRead, h.payloadAddr, h.resources_eq]
  split
  · exact h
  · split
    · obtain ⟨w, rfl, rfl⟩ := h
      exact ⟨w, rfl, readCursorUpdate_worn ..⟩
    · generalize (if desc.len.toNat > 0 then d.dmaRead (d.payloadAddr ctx desc) desc.len.toNat else some []) = bytes
      cases bytes with
      | none => exact h
      | some payload =>
        simp only
        split
        · split
          · exact dispatchSubmit_worn h _ _ _ _
          · exact h
        · split
          · exact (h.setResources _).flush env _ _ _ ctx
          · exact h.setResources _

private theorem executeBatch_worn (h : WornAs p d' d) (env : Env) (ctx : Fin NUM_CONTEXTS) (batch : List Descriptor) :
    WornAs p (d'.executeBatch env ctx batch) (d.executeBatch env ctx batch) := by
  induction batch generalizing d' d with
  | nil => exact h
  | cons desc batch ih => exact ih (executeDescriptor_worn h env ctx desc)

private theorem retireBatch_worn {g : Geometry} (S : Store g descriptorSize UInt8 Memory) (ctx : Fin NUM_CONTEXTS)
    (highestSeqno : UInt64) (h : WornAs p d' d) :
    WornAs p (d'.retireBatch S ctx highestSeqno) (d.retireBatch S ctx highestSeqno) := by
  obtain ⟨w, rfl, rfl⟩ := h
  refine ⟨w, rfl, ?_⟩
  simp only [retireBatch, worn_ite]
  rfl

private theorem serveRing_worn (h : WornAs p d' d) (env : Env) (g : Geometry) (r : RingMemory)
    (ctx : Fin NUM_CONTEXTS) :
    WornAs p (d'.serveRing env g r ctx) (d.serveRing env g r ctx) := by
  obtain ⟨w, rfl, rfl⟩ := h
  simp only [serveRing, worn_mem]
  refine retireBatch_worn _ _ _ (executeBatch_worn ?_ _ _ _)
  exact ⟨w, rfl, rfl⟩

private theorem drainCtx_worn (h : WornAs p d' d) (env : Env) (ctx : Fin NUM_CONTEXTS) :
    WornAs p (d'.drainCtx env ctx) (d.drainCtx env ctx) := by
  obtain ⟨w, rfl, rfl⟩ := h
  have hring : (d.worn w).ringMemory ctx = d.ringMemory ctx := rfl
  simp only [drainCtx, hring, ensureAdmitted_worn]
  split
  · exact ⟨w, rfl, rfl⟩
  · split
    · exact ⟨w, rfl, rfl⟩
    · split
      · exact ⟨w, rfl, rfl⟩
      · exact serveRing_worn ⟨w, rfl, rfl⟩ _ _ _ _

private theorem processSubmit_worn (h : WornAs p d' d) (env : Env) (sc : SubmitCmd) (addr : UInt64)
    (ctx : Fin NUM_CONTEXTS) :
    WornAs p (d'.processSubmit env sc addr ctx) (d.processSubmit env sc addr ctx) := by
  obtain ⟨w, rfl, rfl⟩ := h
  simp only [processSubmit, dmaRead_worn]
  split
  · split
    · exact ⟨w, rfl, renderClearPresent_worn ..⟩
    · exact ⟨w, rfl, rfl⟩
  · split
    · split
      · exact presentScanout_worn ..
      · exact ⟨w, rfl, rfl⟩
    · split
      · split
        · exact presentScanoutDamaged_worn ..
        · exact ⟨w, rfl, rfl⟩
      · split
        · split
          · exact ⟨w, rfl, submitVulkan_worn ..⟩
          · exact ⟨w, rfl, rfl⟩
        · exact ⟨w, rfl, rfl⟩

/-- A doorbell does the same on a worn device. -/
theorem processRing_worn (h : WornAs p d' d) (env : Env) (ctx : Fin NUM_CONTEXTS) :
    WornAs p (d'.processRing env ctx) (d.processRing env ctx) := by
  obtain ⟨w, rfl, rfl⟩ := h
  have hself : WornAs w.streamed (d.worn w) d := ⟨w, rfl, rfl⟩
  by_cases hindex : d.ringIndex ctx = 0
  · by_cases hbase : d.ringBase ctx = 0
    · simp only [processRing, worn_ringIndex, worn_ringBase, hindex, hbase, ne_eq, not_true, if_false, if_true]
      exact hself
    · simp only [processRing, worn_ringIndex, worn_ringBase, dmaRead_worn, hindex, hbase, ne_eq, not_true, if_false]
      split
      · exact hself
      · split
        · refine ⟨w, rfl, ?_⟩
          rw [readCursorUpdate_worn]
          rfl
        · split
          · exact hself
          · split
            · exact hself
            · exact processSubmit_worn hself _ _ _ _
  · simp only [processRing, worn_ringIndex, hindex, ne_eq, not_false_eq_true, if_true]
    exact drainCtx_worn hself _ _

end Backend

end Infinigpu
