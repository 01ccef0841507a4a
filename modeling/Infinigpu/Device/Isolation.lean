import Infinigpu.Device.Views
import Infinigpu.Lib.Overlay

/-!
# The device and the memory of others (`infinigpu-device`)

Host memory holds more than what is mapped for a guest.  A device reads and writes host memory through its mappings
alone, so that the bytes at addresses behind no mapping have no part in what it does and stay as they are.  Both are
read off one fact: every handler does the same over a memory with these bytes replaced (`processRing_over`).
-/

namespace Infinigpu

namespace DmaTable

/-- No mapping holds a byte of the overlay. -/
def Misses (o : Overlay) (t : DmaTable) : Prop := ∀ e ∈ t.maps.entries, o.Misses e.2.host e.2.size.toNat

variable {o : Overlay} {t : DmaTable} {addr : UInt64} {len p : Nat}

private theorem misses_new (o : Overlay) : new.Misses o := fun _ he => absurd he List.not_mem_nil

private theorem Misses.resolve (h : t.Misses o) (hp : t.resolve addr len = some p) : o.Misses p len := by
  obtain ⟨base, m, hmem, ⟨hbase, hend⟩, -, rfl⟩ := resolve_inside hp
  refine (h _ hmem).mono (Nat.le_add_right _ _) ?_
  show m.host + (addr.toNat - base.toNat) + len ≤ m.host + m.size.toNat
  omega

theorem Misses.read (h : t.Misses o) (addr : UInt64) (len : Nat) (mem : Memory) :
    t.read addr len (mem.overlaid o) = t.read addr len mem := by
  simp only [DmaTable.read]
  cases hp : t.resolve addr len with
  | none => rfl
  | some p => exact congrArg some (Memory.load_over (h.resolve hp))

private theorem Misses.write (h : t.Misses o) (addr : UInt64) (buf : List UInt8) (mem : Memory) :
    t.write addr buf (mem.overlaid o) = ((t.write addr buf mem).1, (t.write addr buf mem).2.overlaid o) := by
  simp only [DmaTable.write]
  cases hp : t.resolve addr buf.length with
  | none => rfl
  | some p => exact congrArg (true, ·) (Memory.store_over (h.resolve hp))

private theorem Misses.unmap (h : t.Misses o) (iova : UInt64) : (t.unmap iova).Misses o :=
  fun e he => h e (Mmaps.mem_entries_unmap.1 he).1

theorem Misses.map (h : t.Misses o) {iova size : UInt64} {host : Nat} (hnew : o.Misses host size.toNat) :
    (t.map iova size host).Misses o := by
  unfold DmaTable.map
  split
  · exact h
  · intro e he
    obtain ⟨base, m⟩ := e
    rw [← AList.mem_lookup_iff] at he
    by_cases hbase : base = iova
    · subst hbase
      rw [AList.lookup_insert, Option.mem_some_iff] at he
      subst he
      exact hnew
    · rw [AList.lookup_insert_ne hbase] at he
      exact h _ (AList.mem_lookup_iff.1 he)

end DmaTable

/-! ### Rings -/

/-- The index page and the descriptor array are the device's own. -/
structure RingMisses (o : Overlay) (g : Geometry) (ip dp : Nat) : Prop where
  index : o.Misses ip indicesSize
  slots : o.Misses dp (descriptorSize * g.slots)

namespace RingMisses

variable {o : Overlay} {g : Geometry} {ip dp : Nat}

private theorem view (h : RingMisses o g ip dp) (m : Memory) :
    (sharedRing g ip dp).view (m.overlaid o) = (sharedRing g ip dp).view m := by
  refine sharedRing_view_congr fun a ha => ?_
  rcases ha with ⟨hlo, hhi⟩ | ⟨hlo, hhi⟩
  · exact Memory.over_own (h.index a hlo hhi)
  · exact Memory.over_own (h.slots a hlo hhi)

/-- A word of the index page is stored. -/
private theorem storeWord (h : RingMisses o g ip dp) {off n v : Nat} (hin : off + n ≤ indicesSize) (m : Memory) :
    (m.overlaid o).store (ip + off) (Bytes.ofValue n v) = (m.store (ip + off) (Bytes.ofValue n v)).overlaid o := by
  refine Memory.store_over (h.index.mono (Nat.le_add_right _ _) ?_)
  rw [Bytes.ofValue_length]
  omega

theorem pop (h : RingMisses o g ip dp) (m : Memory) :
    (sharedRing g ip dp).pop (m.overlaid o) =
      (((sharedRing g ip dp).pop m).1, ((sharedRing g ip dp).pop m).2.overlaid o) := by
  simp only [Store.pop, h.view]
  split
  · rfl
  · exact congrArg (some _, ·) (h.storeWord (by decide) m)

theorem popLoop (h : RingMisses o g ip dp) (n : Nat) (out : Drained) (m : Memory) :
    popLoop (sharedRing g ip dp) n out (m.overlaid o) =
      ((popLoop (sharedRing g ip dp) n out m).1, (popLoop (sharedRing g ip dp) n out m).2.overlaid o) := by
  induction n generalizing out m with
  | zero => rfl
  | succ n ih =>
    simp only [Infinigpu.popLoop, h.pop]
    cases hpop : (sharedRing g ip dp).pop m with
    | mk slot m' =>
      cases slot with
      | none => rfl
      | some slot => exact ih _ _

theorem popBatch (h : RingMisses o g ip dp) (max : Nat) (m : Memory) :
    popBatch (sharedRing g ip dp) max (m.overlaid o) =
      ((popBatch (sharedRing g ip dp) max m).1, (popBatch (sharedRing g ip dp) max m).2.overlaid o) := h.popLoop _ _ _

private theorem retire (h : RingMisses o g ip dp) (seqno : UInt64) (m : Memory) :
    (sharedRing g ip dp).retire seqno (m.overlaid o) = ((sharedRing g ip dp).retire seqno m).overlaid o :=
  h.storeWord (by decide) m

end RingMisses

namespace Backend

/-- The device over a memory with some bytes replaced. -/
def overlaid (o : Overlay) (d : Backend) : Backend := { d with mem := d.mem.overlaid o }

variable {env : Env} {o : Overlay} {d : Backend}

@[simp] theorem over_mem : (d.overlaid o).mem = d.mem.overlaid o := rfl
@[simp] theorem over_dma : (d.overlaid o).dma = d.dma := rfl
@[simp] theorem over_ringBase : (d.overlaid o).ringBase = d.ringBase := rfl
@[simp] theorem over_ringRetired : (d.overlaid o).ringRetired = d.ringRetired := rfl
@[simp] theorem over_ringIndex : (d.overlaid o).ringIndex = d.ringIndex := rfl
@[simp] theorem over_ringCap : (d.overlaid o).ringCap = d.ringCap := rfl
@[simp] theorem over_resources : (d.overlaid o).resources = d.resources := rfl
@[simp] theorem over_ticket : (d.overlaid o).ticket = d.ticket := rfl
@[simp] theorem over_broker : (d.overlaid o).broker = d.broker := rfl
@[simp] theorem over_brokerConfig : (d.overlaid o).brokerConfig = d.brokerConfig := rfl
@[simp] theorem over_pixel : (d.overlaid o).pixel = d.pixel := rfl
@[simp] theorem over_calls : (d.overlaid o).calls = d.calls := rfl
@[simp] theorem over_scanoutVramDims : (d.overlaid o).scanoutVramDims = d.scanoutVramDims := rfl
@[simp] theorem over_elideUnchanged : (d.overlaid o).elideUnchanged = d.elideUnchanged := rfl

private theorem over_ite {c : Prop} [Decidable c] (o : Overlay) (d d' : Backend) :
    (if c then d else d').overlaid o = if c then d.overlaid o else d'.overlaid o := apply_ite (overlaid o) c d d'

/-- Nothing that a doorbell sets off changes the mappings. -/
private theorem keeps_contained : Contained Keeps where
  refl := .refl
  trans := .trans
  ensureAdmitted env d := (ensureAdmitted_quiet env d).toKeeps
  accountScanoutVram width height d := (accountScanoutVram_quiet width height d).toKeeps
  runTimed env out d := (runTimed_quiet env out d).toKeeps
  assign _ := ⟨rfl, rfl, rfl, rfl, id⟩
  zerocopyOff _ := ⟨rfl, rfl, rfl, rfl, id⟩

/-! ### Bookkeeping -/

private theorem ensureAdmitted_over (env : Env) (o : Overlay) (d : Backend) :
    (d.overlaid o).ensureAdmitted env = ((d.ensureAdmitted env).1, (d.ensureAdmitted env).2.overlaid o) := by
  cases ht : d.ticket with
  | some t =>
    have hticket : d.ticket.isSome := by rw [ht]; rfl
    rw [ensureAdmitted_of_ticket (d := d.overlaid o) hticket, ensureAdmitted_of_ticket hticket]
  | none =>
    cases hdenied : d.admissionDenied with
    | true => rw [ensureAdmitted_denied (d := d.overlaid o) ht hdenied, ensureAdmitted_denied ht hdenied]
    | false =>
      cases hadm : d.broker.admitVm d.brokerConfig d.vmConfig d.admitRequest (env.clock d.calls) with
      | mk r broker =>
        cases r with
        | ok t =>
          rw [ensureAdmitted_ok (d := d.overlaid o) ht hdenied hadm, ensureAdmitted_ok ht hdenied hadm]
          rfl
        | error e =>
          rw [ensureAdmitted_error (d := d.overlaid o) ht hdenied hadm, ensureAdmitted_error ht hdenied hadm]
          rfl

private theorem accountScanoutVram_over (width height : UInt32) (o : Overlay) (d : Backend) :
    (d.overlaid o).accountScanoutVram width height = (d.accountScanoutVram width height).overlaid o := by
  by_cases hdims : d.scanoutVramDims = some (width, height)
  · simp only [accountScanoutVram, over_scanoutVramDims, hdims, if_true]
  · simp only [accountScanoutVram, over_scanoutVramDims, hdims, if_false, over_ticket]
    cases d.ticket <;> rfl

private theorem runTimed_over {α : Type*} (env : Env) (out : Option α) (o : Overlay) (d : Backend) :
    (d.overlaid o).runTimed env out = ((d.runTimed env out).1, (d.runTimed env out).2.overlaid o) := by
  cases ht : d.ticket with
  | none => simp only [runTimed, over_ticket, ht]
  | some t =>
    cases hvm : (d.broker.vms.lookup t.vmId).isNone with
    | true => simp only [runTimed, over_ticket, over_broker, ht, hvm, if_true]
    | false =>
      simp only [runTimed, over_ticket, over_broker, ht, hvm, Bool.false_eq_true, if_false]
      cases out <;> rfl

private theorem dmaRead_over (h : d.dma.Misses o) (addr : UInt64) (len : Nat) :
    (d.overlaid o).dmaRead addr len = d.dmaRead addr len := h.read addr len d.mem

private theorem dmaWrite_over (h : d.dma.Misses o) (addr : UInt64) (buf : List UInt8) :
    (d.overlaid o).dmaWrite addr buf = ((d.dmaWrite addr buf).1, (d.dmaWrite addr buf).2.overlaid o) := by
  simp only [dmaWrite, over_dma, over_mem, h.write]
  rfl

/-! ### The cursor -/

private theorem forwardCursor_over (h : d.dma.Misses o) (env : Env) (cu : CursorUpdate) (n : Nat) :
    (d.overlaid o).forwardCursor env cu n = (d.forwardCursor env cu n).overlaid o := by
  simp only [forwardCursor, over_ite, dmaRead_over h]
  cases d.dmaRead cu.shapeRef (cu.pitch.toNat * cu.height.toNat) <;> rfl

private theorem handleCursorUpdate_over (h : d.dma.Misses o) (env : Env) (cu : CursorUpdate) :
    (d.overlaid o).handleCursorUpdate env cu = (d.handleCursorUpdate env cu).overlaid o := by
  generalize hd : d.overlaid o = d'
  have hcount : { d' with cursorUpdates := d'.cursorUpdates + 1 } =
      { d with cursorUpdates := d.cursorUpdates + 1 }.overlaid o := by
    rw [← hd]
    rfl
  have hadm := (ensureAdmitted_quiet env { d with cursorUpdates := d.cursorUpdates + 1 }).dma
  simp only [handleCursorUpdate, hcount, ensureAdmitted_over]
  generalize (Backend.ensureAdmitted env { d with cursorUpdates := d.cursorUpdates + 1 }).2 = e at hadm
  rw [over_ite, over_pixel, ← forwardCursor_over (by rw [hadm]; exact h)]
  rfl

/-! ### Presents -/

private theorem presentScanout_over (h : d.dma.Misses o) (env : Env) (sp : ScanoutPresent) (seqno : UInt64)
    (ctx : Fin NUM_CONTEXTS) :
    (d.overlaid o).presentScanout env sp seqno ctx = (d.presentScanout env sp seqno ctx).overlaid o := by
  simp only [presentScanout, ensureAdmitted_over]
  have hadm := (ensureAdmitted_quiet env d).dma
  generalize (d.ensureAdmitted env).2 = e at hadm
  cases (d.ensureAdmitted env).1 with
  | false => rfl
  | true =>
    cases sp.fbBytes with
    | none => rfl
    | some total =>
      have hacc : (e.accountScanoutVram sp.width sp.height).dma.Misses o := by
        rw [(accountScanoutVram_quiet _ _ e).dma, hadm]
        exact h
      simp only [accountScanoutVram_over, dmaRead_over hacc]
      cases (e.accountScanoutVram sp.width sp.height).dmaRead sp.scanoutAddr total <;> rfl

private theorem readRows_over (h : d.dma.Misses o) (sp : ScanoutPresentDamaged) (n : Nat) :
    (d.overlaid o).readRows sp n = d.readRows sp n := by
  induction n with
  | zero => rfl
  | succ n ih => rw [readRows, readRows, ih, dmaRead_over h]

private theorem damagedSurface_over (h : d.dma.Misses o) (sp : ScanoutPresentDamaged) (n : Nat) :
    (d.overlaid o).damagedSurface sp n = d.damagedSurface sp n := by
  simp only [damagedSurface, readRows_over h, dmaRead_over h]
  rfl

private theorem presentScanoutDamaged_over (h : d.dma.Misses o) (env : Env) (sp : ScanoutPresentDamaged)
    (seqno : UInt64) (ctx : Fin NUM_CONTEXTS) :
    (d.overlaid o).presentScanoutDamaged env sp seqno ctx =
      (d.presentScanoutDamaged env sp seqno ctx).overlaid o := by
  have hinv : (d.overlaid o).invalidateElision = d.invalidateElision.overlaid o := rfl
  simp only [presentScanoutDamaged, hinv, ensureAdmitted_over]
  have hadm : (d.invalidateElision.ensureAdmitted env).2.dma = d.dma := (ensureAdmitted_quiet env _).dma
  generalize (d.invalidateElision.ensureAdmitted env).2 = e at hadm
  cases (d.invalidateElision.ensureAdmitted env).1 with
  | false => rfl
  | true =>
    cases sp.fbBytes with
    | none => rfl
    | some total =>
      have hacc : (e.accountScanoutVram sp.width sp.height).dma.Misses o := by
        rw [(accountScanoutVram_quiet _ _ e).dma, hadm]
        exact h
      simp only [accountScanoutVram_over, damagedSurface_over hacc]
      cases (e.accountScanoutVram sp.width sp.height).damagedSurface sp total <;> rfl

private theorem presentResourceFlush_over (h : d.dma.Misses o) (env : Env) (resId : UInt32) (rect : Rect)
    (seqno : UInt64) (ctx : Fin NUM_CONTEXTS) :
    (d.overlaid o).presentResourceFlush env resId rect seqno ctx =
      (d.presentResourceFlush env resId rect seqno ctx).overlaid o := by
  have hflush : (d.overlaid o).invalidateElision.flushPresent resId rect =
    d.invalidateElision.flushPresent resId rect :=
    rfl
  simp only [presentResourceFlush, hflush]
  cases d.invalidateElision.flushPresent resId rect with
  | none => rfl
  | some sp => exact presentScanoutDamaged_over (d := d.invalidateElision) h env sp seqno ctx

private theorem renderClearPresent_over (h : d.dma.Misses o) (env : Env) (cp : ClearPresent) (seqno : UInt64)
    (ctx : Fin NUM_CONTEXTS) :
    (d.overlaid o).renderClearPresent env cp seqno ctx = (d.renderClearPresent env cp seqno ctx).overlaid o := by
  have hinv : (d.overlaid o).invalidateElision = d.invalidateElision.overlaid o := rfl
  have hadm : (d.invalidateElision.ensureAdmitted env).2.dma = d.dma := (ensureAdmitted_quiet env _).dma
  simp only [renderClearPresent, hinv, ensureAdmitted_over, runTimed_over, over_calls, over_ite]
  generalize (d.invalidateElision.ensureAdmitted env).2 = e at hadm
  have hrun := (runTimed_quiet env (env.renderClear e.calls cp.width cp.height cp.rgba).outcome e).dma
  cases htimed : e.runTimed env (env.renderClear e.calls cp.width cp.height cp.rgba).outcome with
  | mk r f =>
    rw [htimed] at hrun
    have hf : f.dma.Misses o := by
      rw [hrun, hadm]
      exact h
    cases r with
    | error err => rfl
    | ok frame =>
      cases frame with
      | none => rfl
      | some rgba =>
        simp only [dmaWrite_over hf, over_ite]
        rfl

/-! ### 3D submissions -/

private theorem presentRendered_over (h : d.dma.Misses o) (env : Env) (out : Rendered) (addr : UInt64) :
    (d.overlaid o).presentRendered env out addr =
      ((d.presentRendered env out addr).1, (d.presentRendered env out addr).2.overlaid o) := by
  have hrun := (runTimed_quiet env out.outcome d).dma
  simp only [presentRendered, runTimed_over]
  cases htimed : d.runTimed env out.outcome with
  | mk r e =>
    rw [htimed] at hrun
    cases r with
    | error err => rfl
    | ok frame =>
      cases frame with
      | none => rfl
      | some px =>
        by_cases haddr : addr = 0
        · simp only [haddr, if_true]
        · simp only [haddr, if_false, dmaWrite_over (hrun ▸ h : e.dma.Misses o)]

private theorem zerocopyTarget_misses (h : d.dma.Misses o) {env : Env} {wl : VulkanWorkload}
    {fwd : OwnedForwardedDraw} {ptr : Nat} (hptr : d.zerocopyTarget env wl fwd = some ptr) :
    o.Misses ptr (alignedBytes wl.width wl.height) := by
  unfold zerocopyTarget at hptr
  split at hptr
  · exact h.resolve hptr
  · cases hptr

private theorem renderZerocopy_over (env : Env) (wl : VulkanWorkload) (fwd : OwnedForwardedDraw) {ptr : Nat}
    (hptr : o.Misses ptr (alignedBytes wl.width wl.height)) (d : Backend) :
    (d.overlaid o).renderZerocopy env wl fwd ptr =
      ((d.renderZerocopy env wl fwd ptr).1, (d.renderZerocopy env wl fwd ptr).2.overlaid o) := by
  have hstore : ∀ (out : Imported) (e : Backend),
      { e.overlaid o with mem := (e.overlaid o).mem.store ptr (out.written.take (alignedBytes wl.width wl.height)) } =
        { e with mem := e.mem.store ptr (out.written.take (alignedBytes wl.width wl.height)) }.overlaid o := by
    intro out e
    rw [over_mem, Memory.store_over (hptr.mono (Nat.le_refl _) (by rw [List.length_take]; omega))]
    rfl
  simp only [renderZerocopy, runTimed_over, over_calls]
  cases d.runTimed env (env.renderForwardedZerocopy d.calls wl.width wl.height wl.bg fwd).result with
  | mk r e =>
    cases r with
    | error err =>
      cases err with
      | notAdmitted => rfl
      | panicked => exact congrArg (none, ·) (hstore _ e)
    | ok ok => exact congrArg (some ok, ·) (hstore _ e)

private theorem replayForwarded_over (h : d.dma.Misses o) (env : Env) (wl : VulkanWorkload)
    (fwd : OwnedForwardedDraw) :
    (d.overlaid o).replayForwarded env wl fwd =
      ((d.replayForwarded env wl fwd).1, (d.replayForwarded env wl fwd).2.overlaid o) := by
  have htarget : (d.overlaid o).zerocopyTarget env wl fwd = d.zerocopyTarget env wl fwd := rfl
  cases hptr : d.zerocopyTarget env wl fwd with
  | none =>
    simp only [replayForwarded, htarget, hptr]
    exact presentRendered_over h ..
  | some ptr =>
    have hkeeps := (renderZerocopy_keeps env wl fwd ptr d).dma
    cases hrender : d.renderZerocopy env wl fwd ptr with
    | mk r e =>
      rw [hrender] at hkeeps
      simp only [replayForwarded, htarget, hptr,
        renderZerocopy_over env wl fwd (zerocopyTarget_misses h hptr), hrender]
      cases r with
      | none => rfl
      | some ok =>
        cases ok with
        | true => rfl
        | false => exact presentRendered_over (d := { e with zerocopyScanout := false }) (hkeeps ▸ h) ..

private theorem replay_over (h : d.dma.Misses o) (env : Env) (wl : VulkanWorkload) (payload : List UInt8) :
    (d.overlaid o).replay env wl payload = ((d.replay env wl payload).1, (d.replay env wl payload).2.overlaid o) := by
  simp only [replay, over_calls]
  split
  · split
    · rfl
    · exact replayForwarded_over h ..
  · split
    · exact presentRendered_over h ..
    · exact presentRendered_over h ..

private theorem rememberFrame_over (hash : Option UInt64) (addr : UInt64) (presented : Bool) (o : Overlay)
    (d : Backend) :
    (d.overlaid o).rememberFrame hash addr presented = (d.rememberFrame hash addr presented).overlaid o := by
  cases hash with
  | none => rfl
  | some h => cases presented <;> rfl

private theorem rendered_over (h : d.dma.Misses o) (env : Env) (wl : VulkanWorkload) (payload : List UInt8) :
    (d.overlaid o).rendered env wl payload = (d.rendered env wl payload).overlaid o := by
  simp only [rendered, replay_over h, payloadHash, over_elideUnchanged]
  cases d.replay env wl payload with
  | mk r e =>
    cases r with
    | none => rfl
    | some presented => exact rememberFrame_over ..

private theorem counted_over (env : Env) (o : Overlay) (d : Backend) :
    (d.overlaid o).counted env = (d.counted env).overlaid o := by
  rw [counted, counted, ensureAdmitted_over]
  rfl

private theorem submitVulkan_over (h : d.dma.Misses o) (env : Env) (sc : SubmitCmd) (payload : List UInt8)
    (ctx : Fin NUM_CONTEXTS) :
    (d.overlaid o).submitVulkan env sc payload ctx = (d.submitVulkan env sc payload ctx).overlaid o := by
  have hadm : ((d.overlaid o).ensureAdmitted env).1 = (d.ensureAdmitted env).1 := by rw [ensureAdmitted_over]
  have hrefused : (d.ensureAdmitted env).1 = false ∨ acceptedWorkload sc payload = none →
      (d.overlaid o).submitVulkan env sc payload ctx = (d.submitVulkan env sc payload ctx).overlaid o := by
    intro h
    rw [submitVulkan_refused ctx h, submitVulkan_refused ctx (hadm.symm ▸ h), ensureAdmitted_over]
    rfl
  cases hok : (d.ensureAdmitted env).1 with
  | false => exact hrefused (.inl hok)
  | true =>
    cases hwl : acceptedWorkload sc payload with
    | none => exact hrefused (.inr hwl)
    | some wl =>
      have hcounted : (d.counted env).dma.Misses o := by
        show (d.ensureAdmitted env).2.dma.Misses o
        rw [(ensureAdmitted_quiet env d).dma]
        exact h
      rw [submitVulkan_accepted ctx hok hwl, submitVulkan_accepted ctx (hadm.trans hok) hwl, counted_over,
        rendered_over hcounted]
      by_cases helided : d.Elided wl payload
      · rw [if_pos helided, if_pos (show (d.overlaid o).Elided wl payload from helided)]
        rfl
      · rw [if_neg helided, if_neg (show ¬ (d.overlaid o).Elided wl payload from helided)]
        rfl

/-! ### Descriptors and rings -/

private theorem dispatchSubmit_over (h : d.dma.Misses o) (env : Env) (sc : SubmitCmd) (encPayload : List UInt8)
    (ctx : Fin NUM_CONTEXTS) :
    (d.overlaid o).dispatchSubmit env sc encPayload ctx = (d.dispatchSubmit env sc encPayload ctx).overlaid o := by
  simp only [dispatchSubmit]
  split
  · split
    · exact renderClearPresent_over h ..
    · rfl
  · split
    · split
      · exact presentScanout_over h ..
      · rfl
    · split
      · exact presentScanoutDamaged_over h ..
      · split
        · exact submitVulkan_over h ..
        · rfl

private theorem readCursorUpdate_over (h : d.dma.Misses o) (env : Env) (addr : UInt64) (len : UInt32) :
    (d.overlaid o).readCursorUpdate env addr len = (d.readCursorUpdate env addr len).overlaid o := by
  simp only [readCursorUpdate, dmaRead_over h]
  split
  · exact handleCursorUpdate_over h ..
  · rfl

private theorem executeDescriptor_over (h : d.dma.Misses o) (env : Env) (ctx : Fin NUM_CONTEXTS) (desc : Descriptor) :
    (d.overlaid o).executeDescriptor env ctx desc = (d.executeDescriptor env ctx desc).overlaid o := by
  have haddr : (d.overlaid o).payloadAddr ctx desc = d.payloadAddr ctx desc := rfl
  simp only [executeDescriptor, haddr, dmaRead_over h, over_resources]
  split
  · rfl
  · split
    · exact readCursorUpdate_over h ..
    · generalize (if desc.len.toNat > 0 then d.dmaRead (d.payloadAddr ctx desc) desc.len.toNat else some []) = bytes
      cases bytes with
      | none => rfl
      | some payload =>
        simp only
        split
        · split
          · exact dispatchSubmit_over h ..
          · rfl
        · split
          · generalize (executeResource desc payload d.resources).2 = resources
            exact presentResourceFlush_over (d := { d with resources }) h ..
          · rfl

private theorem executeBatch_over (h : d.dma.Misses o) (env : Env) (ctx : Fin NUM_CONTEXTS)
    (batch : List Descriptor) :
    (d.overlaid o).executeBatch env ctx batch = (d.executeBatch env ctx batch).overlaid o := by
  induction batch generalizing d with
  | nil => rfl
  | cons desc batch ih =>
    show (Backend.executeDescriptor env ctx desc (d.overlaid o)).executeBatch env ctx batch = _
    rw [executeDescriptor_over h]
    refine ih ?_
    rw [(@executeDescriptor_keeps env ctx desc d).dma]
    exact h

private theorem retireBatch_over {g : Geometry} {ip dp : Nat} (h : RingMisses o g ip dp) (ctx : Fin NUM_CONTEXTS)
    (highestSeqno : UInt64) :
    (d.overlaid o).retireBatch (sharedRing g ip dp) ctx highestSeqno =
      (d.retireBatch (sharedRing g ip dp) ctx highestSeqno).overlaid o := by
  simp only [retireBatch, over_mem, h.retire, over_ite]
  rfl

private theorem ringMemory_misses (h : d.dma.Misses o) {ctx : Fin NUM_CONTEXTS} {r : RingMemory}
    (hr : d.ringMemory ctx = some r) {g : Geometry} (hg : Geometry.fromParts r.cap = .ok g) :
    RingMisses o g r.indexPtr r.descPtr := by
  obtain ⟨-, -, hindex, hdesc⟩ := ringMemory_eq_some hr
  obtain ⟨g', hg', hslots⟩ := fromParts_of_ringMemory hr
  obtain rfl : g = g' := Except.ok.inj (hg.symm.trans hg')
  refine ⟨h.resolve hindex, ?_⟩
  rw [hslots, Nat.mul_comm]
  exact h.resolve hdesc

private theorem serveRing_over (h : d.dma.Misses o) (env : Env) {g : Geometry} {r : RingMemory}
    (hr : RingMisses o g r.indexPtr r.descPtr) (ctx : Fin NUM_CONTEXTS) :
    (d.overlaid o).serveRing env g r ctx = (d.serveRing env g r ctx).overlaid o := by
  have hpopped : (d.overlaid o).popped g r = (d.popped g r).overlaid o := by
    simp only [popped, over_mem, hr.popBatch]
    rfl
  have hbatch : (d.overlaid o).batch g r = d.batch g r := by simp only [batch, over_mem, hr.popBatch]
  rw [serveRing_eq, serveRing_eq, hpopped, hbatch, executeBatch_over (d := d.popped g r) h, retireBatch_over hr]

private theorem drainCtx_over (h : d.dma.Misses o) (env : Env) (ctx : Fin NUM_CONTEXTS) :
    (d.overlaid o).drainCtx env ctx = (d.drainCtx env ctx).overlaid o := by
  have hring : (d.overlaid o).ringMemory ctx = d.ringMemory ctx := rfl
  simp only [drainCtx, hring, ensureAdmitted_over]
  cases hr : d.ringMemory ctx with
  | none => rfl
  | some r =>
    simp only [over_ite]
    split
    · rfl
    · cases hg : Geometry.fromParts r.cap with
      | error e => rfl
      | ok g =>
        refine serveRing_over ?_ env (ringMemory_misses h hr hg) ctx
        rw [(ensureAdmitted_quiet env d).dma]
        exact h

private theorem processSubmit_over (h : d.dma.Misses o) (env : Env) (sc : SubmitCmd) (addr : UInt64)
    (ctx : Fin NUM_CONTEXTS) :
    (d.overlaid o).processSubmit env sc addr ctx = (d.processSubmit env sc addr ctx).overlaid o := by
  simp only [processSubmit, dmaRead_over h]
  split
  · split
    · exact renderClearPresent_over h ..
    · rfl
  · split
    · split
      · exact presentScanout_over h ..
      · rfl
    · split
      · split
        · exact presentScanoutDamaged_over h ..
        · rfl
      · split
        · split
          · exact submitVulkan_over h ..
          · rfl
        · rfl

/-- A doorbell does the same over a memory with bytes replaced that no mapping holds. -/
theorem processRing_over (h : d.dma.Misses o) (env : Env) (ctx : Fin NUM_CONTEXTS) :
    (d.overlaid o).processRing env ctx = (d.processRing env ctx).overlaid o := by
  simp only [processRing, over_ringIndex, over_ringBase, dmaRead_over h, over_ite]
  split
  · exact drainCtx_over h env ctx
  · split
    · rfl
    · cases d.dmaRead (d.ringBase ctx) descriptorSize with
      | none => rfl
      | some db =>
        simp only [over_ite]
        split
        · rw [readCursorUpdate_over h]
          rfl
        · split
          · rfl
          · split
            · rfl
            · exact processSubmit_over h ..

end Backend

/-! ### Registers -/

namespace Device

variable {env : Env} {o : Overlay} {s : Device}

def overlaid (o : Overlay) (s : Device) : Device := { s with dev := s.dev.overlaid o }

private theorem over_ite {c : Prop} [Decidable c] (o : Overlay) (s s' : Device) :
    (if c then s else s').overlaid o = if c then s.overlaid o else s'.overlaid o := apply_ite (overlaid o) c s s'

private theorem bar0ReadU32_over (h : s.dev.dma.Misses o) (off : UInt64) :
    (s.overlaid o).bar0ReadU32 off = s.bar0ReadU32 off := by
  have hread := Backend.dmaRead_over h s.dbgDmaAddr 4
  show bar0ReadU32 { s with dev := s.dev.overlaid o } off = _
  simp only [bar0ReadU32, hread]
  rfl

private theorem doorbell_over (h : s.dev.dma.Misses o) (env : Env) (off : UInt64) :
    (s.overlaid o).doorbell env off = (s.doorbell env off).overlaid o := by
  simp only [doorbell, over_ite]
  split
  · rfl
  · split
    · split
      · show Device.raise { s with dev := (s.dev.overlaid o).processRing env _ } _ = _
        rw [Backend.processRing_over h]
        rfl
      · rfl
    · rfl

private theorem configureRing_over (ctx : Fin NUM_CONTEXTS) (field : UInt64) (val : UInt32) (o : Overlay)
    (s : Device) :
    (s.overlaid o).configureRing ctx field val = (s.configureRing ctx field val).overlaid o := by
  simp only [configureRing, over_ite]
  rfl

private theorem debugDmaWrite_over {d : Backend} (h : d.dma.Misses o) (addr : UInt64) (val : UInt32) :
    (d.overlaid o).debugDmaWrite addr val = (d.debugDmaWrite addr val).overlaid o := by
  simp only [Backend.debugDmaWrite, Backend.dmaWrite_over h]

private theorem bar0WriteU32_over (h : s.dev.dma.Misses o) (env : Env) (off : UInt64) (val : UInt32) :
    (s.overlaid o).bar0WriteU32 env off val = (s.bar0WriteU32 env off val).overlaid o := by
  simp only [bar0WriteU32]
  split
  · exact doorbell_over h env off
  · split
    · exact configureRing_over ..
    · split
      · split
        · have hadm := Backend.ensureAdmitted_over env o { s.dev with globalCtrl := val }
          exact congrArg (fun r => ({ s with dev := r.2 } : Device)) hadm
        · rfl
      · split
        · split <;> rfl
        · split
          · rfl
          · split
            · rfl
            · split
              · rfl
              · split
                · show ({ s with dev := (s.dev.overlaid o).debugDmaWrite s.dbgDmaAddr val } : Device) = _
                  rw [debugDmaWrite_over h]
                  rfl
                · rfl

/-- A write to a register leaves the mappings as they are. -/
private theorem bar0WriteU32_dma (env : Env) (off : UInt64) (val : UInt32) (s : Device) :
    (s.bar0WriteU32 env off val).dev.dma = s.dev.dma := by
  simp only [bar0WriteU32]
  split
  · simp only [doorbell]
    split
    · rfl
    · split
      · split
        · exact (Backend.keeps_contained.processRing env _ _).dma
        · rfl
      · rfl
  · split
    · simp only [configureRing]
      split
      · rfl
      · split
        · rfl
        · split
          · rfl
          · split
            · rfl
            · split <;> rfl
    · split
      · split
        · exact (Backend.ensureAdmitted_quiet env _).dma
        · rfl
      · split
        · split <;> rfl
        · split
          · rfl
          · split
            · rfl
            · split
              · rfl
              · split <;> rfl

private theorem writeBar0_dma (env : Env) (offset : UInt64) (data : List UInt8) (s : Device) :
    (s.writeBar0 env offset data).dev.dma = s.dev.dma := by
  unfold Device.writeBar0
  generalize wordParts offset data.length data.length 0 = parts
  induction parts generalizing s with
  | nil => rfl
  | cons part parts ih =>
    rw [List.foldl_cons, ih]
    exact bar0WriteU32_dma env _ _ s

private theorem writeBar0_over (h : s.dev.dma.Misses o) (env : Env) (offset : UInt64) (data : List UInt8) :
    (s.overlaid o).writeBar0 env offset data = (s.writeBar0 env offset data).overlaid o := by
  unfold Device.writeBar0
  generalize wordParts offset data.length data.length 0 = parts
  induction parts generalizing s with
  | nil => rfl
  | cons part parts ih =>
    have hpart : (s.overlaid o).writePart env data part = (s.writePart env data part).overlaid o := by
      simp only [writePart, bar0ReadU32_over h, bar0WriteU32_over h]
    rw [List.foldl_cons, List.foldl_cons, hpart]
    exact ih ((bar0WriteU32_dma env _ _ s).symm ▸ h)

/-! ### Runs beside others -/

/-- An access that stays with the device's own memory: the mappings it adds hold no foreign byte, and the guest's
stores neither look at one nor change one. -/
def Access.Own (foreign : Nat → Bool) : Access → Prop
  | .map _ size (some host) => ∀ a, host ≤ a → a < host + size.toNat → foreign a = false
  | .stores f => ∀ bytes m, f (m.overlaid ⟨foreign, bytes⟩) = (f m).overlaid ⟨foreign, bytes⟩
  | _ => True

private theorem access_misses (h : s.dev.dma.Misses o) {a : Access} (ha : a.Own o.foreign) :
    (s.access a).dev.dma.Misses o := by
  cases a with
  | read offset len => exact h
  | write env offset data =>
    show (s.writeBar0 env offset data).dev.dma.Misses o
    rw [writeBar0_dma]
    exact h
  | reset => exact h
  | map iova size host =>
    cases host with
    | none => exact h
    | some host => exact DmaTable.Misses.map h ha
  | unmap iova => exact h.unmap iova
  | unmapAll => exact DmaTable.misses_new o
  | stores f => exact h

private theorem access_over (h : s.dev.dma.Misses o) {a : Access} (ha : a.Own o.foreign) :
    (s.overlaid o).access a = (s.access a).overlaid o := by
  cases a with
  | read offset len => rfl
  | write env offset data => exact writeBar0_over h env offset data
  | reset => rfl
  | map iova size host => cases host <;> rfl
  | unmap iova => rfl
  | unmapAll => rfl
  | stores f =>
    show ({ s with dev := { s.dev with mem := f (s.dev.mem.overlaid o) } } : Device) = _
    rw [ha o.bytes s.dev.mem]
    rfl

/-- What happens to a device: an access, the other devices of the process have changed the broker that they share with
it, or their part of host memory. -/
inductive Happening where
  | own (a : Access)
  | shared (f : Ledger → Ledger)
  | others (bytes : Memory)

namespace Happening

def Own (foreign : Nat → Bool) : Happening → Prop
  | own a => a.Own foreign
  | _ => True

def inMemoryOfOthers : Happening → Bool
  | others _ => true
  | _ => false

/-- The foreign bytes after what happened. -/
def theirs (bytes : Memory) : Happening → Memory
  | others bytes' => bytes'
  | _ => bytes

/-- What is left of what happened without the others' stores. -/
def alone (hs : List Happening) : List Happening := hs.filter fun h => !h.inMemoryOfOthers

end Happening

def happen (foreign : Nat → Bool) (s : Device) : Happening → Device
  | .own a => s.access a
  | .shared f => { s with dev := { s.dev with broker := f s.dev.broker } }
  | .others bytes => s.overlaid ⟨foreign, bytes⟩

/-- What the reads return while other things happen. -/
def watched (foreign : Nat → Bool) (s : Device) : List Happening → List (List UInt8)
  | [] => []
  | .own (.read offset len) :: hs => s.readBar0 offset len :: watched foreign s hs
  | h :: hs => watched foreign (s.happen foreign h) hs

/-- The foreign bytes are those of the others, and everything else of the device is as it is without their stores. -/
private theorem isolated_of_misses {foreign : Nat → Bool} {bytes : Memory} (h : s.dev.dma.Misses ⟨foreign, bytes⟩)
    {hs : List Happening} (hown : ∀ e ∈ hs, e.Own foreign) :
    hs.foldl (happen foreign) (s.overlaid ⟨foreign, bytes⟩) =
        ((Happening.alone hs).foldl (happen foreign) s).overlaid ⟨foreign, hs.foldl Happening.theirs bytes⟩ ∧
      watched foreign (s.overlaid ⟨foreign, bytes⟩) hs = watched foreign s (Happening.alone hs) := by
  induction hs generalizing s bytes with
  | nil => exact ⟨rfl, rfl⟩
  | cons e hs ih =>
    obtain ⟨he, hrest⟩ := List.forall_mem_cons.1 hown
    cases e with
    | own a =>
      obtain ⟨hrun, hreads⟩ := ih (access_misses h he) hrest
      rw [← access_over h he] at hrun hreads
      refine ⟨hrun, ?_⟩
      cases a with
      | read offset len =>
        have hword : (s.overlaid ⟨foreign, bytes⟩).bar0ReadU32 = s.bar0ReadU32 := funext (bar0ReadU32_over h)
        have hread : (s.overlaid ⟨foreign, bytes⟩).readBar0 offset len = s.readBar0 offset len := by
          rw [readBar0, readBar0, hword]
        show _ :: _ = s.readBar0 offset len :: _
        rw [hread]
        exact congrArg _ hreads
      | write env offset data => exact hreads
      | reset => exact hreads
      | map iova size host => exact hreads
      | unmap iova => exact hreads
      | unmapAll => exact hreads
      | stores f => exact hreads
    | shared f => exact ih (s := { s with dev := { s.dev with broker := f s.dev.broker } }) h hrest
    | others bytes' =>
      have hover : (s.overlaid ⟨foreign, bytes⟩).overlaid ⟨foreign, bytes'⟩ = s.overlaid ⟨foreign, bytes'⟩ := by
        simp only [Device.overlaid, Backend.overlaid, Memory.over_over]
      have hfrom := @ih s bytes' h hrest
      rw [← hover] at hfrom
      exact hfrom

/-- A device in memory that it shares with others, where its mappings hold no foreign byte: without the stores of the
others its reads would return the same and it would end in the same state, and the foreign bytes are what the others
left there. -/
theorem isolated (cfg : Config) (broker : Ledger) (mem : Memory) (foreign : Nat → Bool) (hs : List Happening)
    (hown : ∀ e ∈ hs, e.Own foreign) :
    hs.foldl (happen foreign) (create cfg broker mem) =
        ((Happening.alone hs).foldl (happen foreign) (create cfg broker mem)).overlaid
          ⟨foreign, hs.foldl Happening.theirs mem⟩ ∧
      watched foreign (create cfg broker mem) hs = watched foreign (create cfg broker mem) (Happening.alone hs) := by
  have hself : (create cfg broker mem).overlaid ⟨foreign, mem⟩ = create cfg broker mem :=
    congrArg (create cfg broker) (Memory.over_self foreign mem)
  have h := isolated_of_misses (s := create cfg broker mem) (DmaTable.misses_new ⟨foreign, mem⟩) hown
  rwa [hself] at h

/-- Everything but the first page of host memory. -/
def beyondPage (a : Nat) : Bool := decide (0x1000 ≤ a)

/-- The first page is mapped at `0x8000`, the others fill their memory, the guest stores a word to its page, and the
device changes it through the debug registers and reads it. -/
def pageRun : List Happening :=
  [.own (.map 0x8000 0x1000 (some 0)), .others fun _ => 7, .own (.stores fun m => m.store 4 [1, 2, 3, 4]),
    .shared fun broker => broker, .own (.write .idle Dbg.dmaAddrLo [0x04, 0x80, 0, 0]),
    .own (.write .idle Dbg.dmaData [9, 0, 0, 0]), .own (.read Dbg.dmaData 4)]

/-- A device without options. -/
def plainConfig : Config := ⟨.default, .new "vm" 1 4096, false, false, false, false⟩

theorem isolated_page :
    pageRun.foldl (happen beyondPage) (create plainConfig .new fun _ => 0) =
        ((Happening.alone pageRun).foldl (happen beyondPage) (create plainConfig .new fun _ => 0)).overlaid
          ⟨beyondPage, pageRun.foldl Happening.theirs fun _ => 0⟩ ∧
      watched beyondPage (create plainConfig .new fun _ => 0) pageRun =
        watched beyondPage (create plainConfig .new fun _ => 0) (Happening.alone pageRun) := by
  refine isolated plainConfig .new (fun _ => 0) beyondPage pageRun ?_
  simp only [pageRun, List.forall_mem_cons, List.not_mem_nil, false_implies, implies_true, and_true]
  refine ⟨fun b _ hb => ?_, trivial, fun bytes m => Memory.store_over fun b _ hb => ?_, trivial, trivial, trivial,
    trivial⟩
  · have hsize : (0x1000 : UInt64).toNat = 0x1000 := rfl
    exact decide_eq_false (by omega)
  · simp only [List.length_cons, List.length_nil] at hb
    exact decide_eq_false (by omega)

end Device

end Infinigpu
