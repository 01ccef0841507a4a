import Infinigpu.Device.Rings
import Infinigpu.Sched.Leases

/-!
# Two devices that are given the same commands

Two runs of a device differ in when they are served, how long their renders take and who watches.  Guest memory and
the retired seqnos do not depend on any of this: as long as the GPU renders the same for both (`Env.Alike`), every
command but a 3D submission leads from devices that are alike to devices that are alike (`act_alike`), and so does
each of the renders a 3D submission is made of.
-/

namespace Infinigpu

/-- A frame is the same at any call of either run.  The clocks and the viewers are anything. -/
structure Env.SameRenders (env env' : Env) : Prop where
  renderClear : ∀ n m, env.renderClear n = env'.renderClear m
  renderTriangle : ∀ n m, env.renderTriangle n = env'.renderTriangle m
  renderForwardedPresent : ∀ n m, env.renderForwardedPresent n = env'.renderForwardedPresent m

/-- The renders in place are the same as well. -/
structure Env.Alike (env env' : Env) : Prop extends env.SameRenders env' where
  renderForwardedZerocopy : ∀ n m, env.renderForwardedZerocopy n = env'.renderForwardedZerocopy m
  supportsZerocopy : ∀ n m, env.supportsZerocopy n = env'.supportsZerocopy m

theorem Env.SameRenders.left {env env' : Env} (h : env.SameRenders env') : env.SameRenders env where
  renderClear n m := (h.renderClear n n).trans (h.renderClear m n).symm
  renderTriangle n m := (h.renderTriangle n n).trans (h.renderTriangle m n).symm
  renderForwardedPresent n m := (h.renderForwardedPresent n n).trans (h.renderForwardedPresent m n).symm

theorem Env.Alike.left {env env' : Env} (h : env.Alike env') : env.Alike env where
  toSameRenders := h.toSameRenders.left
  renderForwardedZerocopy n m := (h.renderForwardedZerocopy n n).trans (h.renderForwardedZerocopy m n).symm
  supportsZerocopy n m := (h.supportsZerocopy n n).trans (h.supportsZerocopy m n).symm

theorem Env.Alike.right {env env' : Env} (h : env.Alike env') : env'.Alike env' where
  renderClear n m := (h.renderClear n n).symm.trans (h.renderClear n m)
  renderTriangle n m := (h.renderTriangle n n).symm.trans (h.renderTriangle n m)
  renderForwardedPresent n m := (h.renderForwardedPresent n n).symm.trans (h.renderForwardedPresent n m)
  renderForwardedZerocopy n m := (h.renderForwardedZerocopy n n).symm.trans (h.renderForwardedZerocopy n m)
  supportsZerocopy n m := (h.supportsZerocopy n n).symm.trans (h.supportsZerocopy n m)

namespace Backend

/-! ### The rest of the control surface -/

/-- A word written to the debug DMA register, the address having been set before. -/
def debugDmaWrite (addr : UInt64) (val : UInt32) (d : Backend) : Backend :=
  (d.dmaWrite addr (Bytes.ofValue 4 val.toNat)).2

/-- A `DMA_MAP` that carries a file; `host` is where it is mapped, if it can be. -/
def dmaMap (iova size : UInt64) (host : Option Nat) (d : Backend) : Backend :=
  let d := d.invalidateElision
  match host with
  | some host => { d with dma := d.dma.map iova size host }
  | none => d

def dmaUnmap (iova : UInt64) (d : Backend) : Backend :=
  let d := d.invalidateElision
  { d with dma := d.dma.unmap iova }

/-- A `DMA_UNMAP` with `UNMAP_ALL`. -/
def dmaUnmapAll (d : Backend) : Backend :=
  let d := d.invalidateElision
  { d with dma := d.dma.clear }

/-- What a device is asked to do, however the command reaches it. -/
inductive Act where
  | submit (sc : SubmitCmd) (payload : List UInt8) (ctx : Fin NUM_CONTEXTS)
  | present (sp : ScanoutPresent) (seqno : UInt64) (ctx : Fin NUM_CONTEXTS)
  | presentDamaged (sp : ScanoutPresentDamaged) (seqno : UInt64) (ctx : Fin NUM_CONTEXTS)
  | flush (resId : UInt32) (rect : Rect) (seqno : UInt64) (ctx : Fin NUM_CONTEXTS)
  | clear (cp : ClearPresent) (seqno : UInt64) (ctx : Fin NUM_CONTEXTS)
  | resource (desc : Descriptor) (payload : List UInt8)
  | cursor (cu : CursorUpdate)
  | enable
  | debugWrite (addr : UInt64) (val : UInt32)
  | map (iova size : UInt64) (host : Option Nat)
  | unmap (iova : UInt64)
  | unmapAll
  | reset
  /-- Stores to guest memory beside the commands: the guest's own, and those of the two ends of a ring. -/
  | stores (f : Memory → Memory)

def act (env : Env) (d : Backend) : Act → Backend
  | .submit sc payload ctx => d.submitVulkan env sc payload ctx
  | .present sp seqno ctx => d.presentScanout env sp seqno ctx
  | .presentDamaged sp seqno ctx => d.presentScanoutDamaged env sp seqno ctx
  | .flush resId rect seqno ctx => d.presentResourceFlush env resId rect seqno ctx
  | .clear cp seqno ctx => d.renderClearPresent env cp seqno ctx
  | .resource desc payload => { d with resources := (executeResource desc payload d.resources).2 }
  | .cursor cu => d.handleCursorUpdate env cu
  | .enable => (d.ensureAdmitted env).2
  | .debugWrite addr val => d.debugDmaWrite addr val
  | .map iova size host => d.dmaMap iova size host
  | .unmap iova => d.dmaUnmap iova
  | .unmapAll => d.dmaUnmapAll
  | .reset => d.resetState
  | .stores f => { d with mem := f d.mem }

/-! ### Alike -/

/-- The devices have the same in everything that guest memory and the retired seqnos depend on, but for the options
of the 3D path. -/
structure Alike (d d' : Backend) : Prop where
  mem : d.mem = d'.mem
  dma : d.dma = d'.dma
  ringRetired : d.ringRetired = d'.ringRetired
  resources : d.resources = d'.resources
  brokerConfig : d.brokerConfig = d'.brokerConfig
  broker : d.broker.SameLeases d'.broker
  vmConfig : d.vmConfig = d'.vmConfig
  ticket : d.ticket = d'.ticket
  admissionDenied : d.admissionDenied = d'.admissionDenied
  streams : d.pixel.isSome = d'.pixel.isSome
  lastScanout : d.lastScanout = d'.lastScanout
  scanoutVramDims : d.scanoutVramDims = d'.scanoutVramDims

namespace Alike

variable {env env' : Env} {d d' : Backend}

theorem refl (d : Backend) : Alike d d := ⟨rfl, rfl, rfl, rfl, rfl, .refl _, rfl, rfl, rfl, rfl, rfl, rfl⟩

theorem symm (h : Alike d d') : Alike d' d :=
  ⟨h.mem.symm, h.dma.symm, h.ringRetired.symm, h.resources.symm, h.brokerConfig.symm, h.broker.symm,
    h.vmConfig.symm, h.ticket.symm, h.admissionDenied.symm, h.streams.symm, h.lastScanout.symm,
    h.scanoutVramDims.symm⟩

theorem trans {d'' : Backend} (h : Alike d d') (h' : Alike d' d'') : Alike d d'' :=
  ⟨h.mem.trans h'.mem, h.dma.trans h'.dma, h.ringRetired.trans h'.ringRetired, h.resources.trans h'.resources,
    h.brokerConfig.trans h'.brokerConfig, h.broker.trans h'.broker, h.vmConfig.trans h'.vmConfig,
    h.ticket.trans h'.ticket, h.admissionDenied.trans h'.admissionDenied, h.streams.trans h'.streams,
    h.lastScanout.trans h'.lastScanout, h.scanoutVramDims.trans h'.scanoutVramDims⟩

end Alike

variable {env env' : Env} {d d' : Backend}

/-- A cursor update changes the cursor and what is sent. -/
theorem forwardCursor_only (env : Env) (cu : CursorUpdate) (n : Nat) (d : Backend) :
    ∃ cursor pixel, d.forwardCursor env cu n = { d with cursor, pixel } ∧ d.pixel.isSome = pixel.isSome := by
  have hcursor : ∀ cursor, ∃ cursor' pixel, { d with cursor } = { d with cursor := cursor', pixel } ∧
      d.pixel.isSome = pixel.isSome := fun cursor => ⟨cursor, d.pixel, rfl, rfl⟩
  have hsend : ∀ hdr body cursor, ∃ cursor' pixel,
      { d.sendPlane hdr body with cursor } = { d with cursor := cursor', pixel } ∧
        d.pixel.isSome = pixel.isSome := fun hdr body cursor =>
    ⟨cursor, _, rfl, Option.isSome_map.symm⟩
  simp only [forwardCursor]
  split
  · exact hsend _ _ _
  · split
    · split
      · exact hcursor _
      · split
        · exact hcursor d.cursor
        · split
          · exact hcursor d.cursor
          · exact hsend _ _ _
    · split
      · exact hcursor d.cursor
      · split
        · exact hcursor d.cursor
        · split
          · exact hsend _ _ _
          · split
            · exact hcursor d.cursor
            · split
              · exact hcursor d.cursor
              · exact hsend _ _ _

/-! ### Admission and accounting -/

def admitRequest (d : Backend) : AdmitRequest :=
  if d.pixel.isSome then AdmitRequest.streaming VRAM_ESTIMATE_MB else .vram VRAM_ESTIMATE_MB

theorem ensureAdmitted_denied (ht : d.ticket = none) (hdenied : d.admissionDenied = true) :
    d.ensureAdmitted env = (false, d) := by
  rw [ensureAdmitted, if_neg (by rw [ht]; exact Bool.false_ne_true), if_pos hdenied]

theorem ensureAdmitted_ok {t : VmTicket} {broker : Ledger} (ht : d.ticket = none)
    (hdenied : d.admissionDenied = false)
    (h : d.broker.admitVm d.brokerConfig d.vmConfig d.admitRequest (env.clock d.calls) = (.ok t, broker)) :
    d.ensureAdmitted env = (true, { d with broker, ticket := some t, calls := d.calls + 1 }) := by
  rw [admitRequest] at h
  rw [ensureAdmitted, if_neg (by rw [ht]; exact Bool.false_ne_true),
    if_neg (by rw [hdenied]; exact Bool.false_ne_true)]
  simp only [h]

theorem ensureAdmitted_error {e : AdmitError} {broker : Ledger} (ht : d.ticket = none)
    (hdenied : d.admissionDenied = false)
    (h : d.broker.admitVm d.brokerConfig d.vmConfig d.admitRequest (env.clock d.calls) = (.error e, broker)) :
    d.ensureAdmitted env = (false, { d with
      broker
      globalStatus := d.globalStatus ||| GlobalStatus.fatal
      admissionDenied := true
      calls := d.calls + 1 }) := by
  rw [admitRequest] at h
  rw [ensureAdmitted, if_neg (by rw [ht]; exact Bool.false_ne_true),
    if_neg (by rw [hdenied]; exact Bool.false_ne_true)]
  simp only [h]

/-- Waiting for a run and being charged for it changes no lease. -/
private theorem charge_sameLeases (env : Env) (vmId : String) (d : Backend) : d.broker.SameLeases
    ((((env.begins d.calls).foldl (fun st now => (st.begin d.brokerConfig vmId now).2) d.broker).record
      d.brokerConfig vmId (env.gpuUs d.calls)).2) :=
  (Ledger.sameLeases_begins _ _ _ _).trans (Ledger.sameLeases_record _ _ _ _)

namespace Alike

theorem ensureAdmitted (h : Alike d d') (env env' : Env) :
    (d.ensureAdmitted env).1 = (d'.ensureAdmitted env').1 ∧
      Alike (d.ensureAdmitted env).2 (d'.ensureAdmitted env').2 := by
  cases ht : d.ticket with
  | some t =>
    have ht' : d'.ticket = some t := h.ticket.symm.trans ht
    rw [ensureAdmitted_of_ticket (by rw [ht]; rfl), ensureAdmitted_of_ticket (by rw [ht']; rfl)]
    exact ⟨rfl, h⟩
  | none =>
    have ht' : d'.ticket = none := h.ticket.symm.trans ht
    cases hdenied : d.admissionDenied with
    | true =>
      rw [ensureAdmitted_denied ht hdenied, ensureAdmitted_denied ht' (h.admissionDenied.symm.trans hdenied)]
      exact ⟨rfl, h⟩
    | false =>
      have hdenied' : d'.admissionDenied = false := h.admissionDenied.symm.trans hdenied
      have hrequest : d'.admitRequest = d.admitRequest := by rw [admitRequest, admitRequest, h.streams]
      obtain ⟨hresult, hleases⟩ := h.broker.admitVm d.brokerConfig d.vmConfig d.admitRequest (env.clock d.calls)
        (env'.clock d'.calls)
      cases hadm : d.broker.admitVm d.brokerConfig d.vmConfig d.admitRequest (env.clock d.calls) with
      | mk r broker =>
        cases hadm' : d'.broker.admitVm d.brokerConfig d.vmConfig d.admitRequest (env'.clock d'.calls) with
        | mk r' broker' =>
          rw [hadm, hadm'] at hresult hleases
          subst hresult
          rw [← hrequest, h.brokerConfig, h.vmConfig] at hadm'
          cases r with
          | ok t =>
            rw [ensureAdmitted_ok ht hdenied hadm, ensureAdmitted_ok ht' hdenied' hadm']
            exact ⟨rfl, { h with broker := hleases, ticket := rfl }⟩
          | error e =>
            rw [ensureAdmitted_error ht hdenied hadm, ensureAdmitted_error ht' hdenied' hadm']
            exact ⟨rfl, { h with broker := hleases, admissionDenied := rfl }⟩

private theorem accountScanoutVram (h : Alike d d') (width height : UInt32) :
    Alike (d.accountScanoutVram width height) (d'.accountScanoutVram width height) := by
  by_cases hdims : d.scanoutVramDims = some (width, height)
  · have hdims' : d'.scanoutVramDims = some (width, height) := h.scanoutVramDims.symm.trans hdims
    rw [Backend.accountScanoutVram, if_pos hdims, Backend.accountScanoutVram, if_pos hdims']
    exact h
  · have hdims' : d'.scanoutVramDims ≠ some (width, height) := by rwa [← h.scanoutVramDims]
    rw [Backend.accountScanoutVram, if_neg hdims, Backend.accountScanoutVram, if_neg hdims']
    cases ht : d.ticket with
    | none =>
      simp only [h.ticket.symm.trans ht]
      exact { h with scanoutVramDims := rfl, ticket := rfl }
    | some t =>
      simp only [h.ticket.symm.trans ht, ← h.brokerConfig]
      exact { h with scanoutVramDims := rfl, ticket := rfl, brokerConfig := rfl, broker := h.broker.adjustVram _ _ _ }

/-- A run leaves nothing behind but what it is charged. -/
theorem of_runTimed {α : Type*} (env : Env) (out : Option α) (d : Backend) : Alike d (d.runTimed env out).2 := by
  unfold Backend.runTimed
  cases ht : d.ticket with
  | none => exact refl d
  | some t =>
    simp only
    split
    · exact refl d
    · cases out with
      | none => exact { refl d with broker := charge_sameLeases env t.vmId d, ticket := ht }
      | some r => exact { refl d with broker := charge_sameLeases env t.vmId d, ticket := ht }

private theorem runTimed {α : Type*} (h : Alike d d') (env env' : Env) (out : Option α) :
    (d.runTimed env out).1 = (d'.runTimed env' out).1 ∧ Alike (d.runTimed env out).2 (d'.runTimed env' out).2 := by
  refine ⟨?_, ((of_runTimed env out d).symm.trans h).trans (of_runTimed env' out d')⟩
  cases ht : d.ticket with
  | none => simp only [Backend.runTimed, ht, h.ticket.symm.trans ht]
  | some t =>
    have hnone : (d.broker.vms.lookup t.vmId).isNone = (d'.broker.vms.lookup t.vmId).isNone := by
      rw [← Option.not_isSome, ← Option.not_isSome, h.broker.isSome]
    simp only [Backend.runTimed, ht, h.ticket.symm.trans ht, ← hnone]
    split
    · rfl
    · cases out with
      | none => rfl
      | some r => rfl

/-! ### The handlers -/

private theorem dmaRead (h : Alike d d') (addr : UInt64) (len : Nat) : d.dmaRead addr len = d'.dmaRead addr len := by
  rw [Backend.dmaRead, Backend.dmaRead, h.dma, h.mem]

private theorem dmaWrite (h : Alike d d') (addr : UInt64) (buf : List UInt8) :
    (d.dmaWrite addr buf).1 = (d'.dmaWrite addr buf).1 ∧ Alike (d.dmaWrite addr buf).2 (d'.dmaWrite addr buf).2 := by
  have hwrite : d.dma.write addr buf d.mem = d'.dma.write addr buf d'.mem := by rw [h.dma, h.mem]
  have hok : (d.dmaWrite addr buf).1 = (d'.dmaWrite addr buf).1 := by
    show (d.dma.write addr buf d.mem).1 = (d'.dma.write addr buf d'.mem).1
    rw [hwrite]
  have hmem : (d.dmaWrite addr buf).2.mem = (d'.dmaWrite addr buf).2.mem := by
    show (d.dma.write addr buf d.mem).2 = (d'.dma.write addr buf d'.mem).2
    rw [hwrite]
  exact ⟨hok, { h with mem := hmem }⟩

theorem retire (h : Alike d d') (ctx : Fin NUM_CONTEXTS) (seqno : UInt64) :
    Alike (d.retire ctx seqno) (d'.retire ctx seqno) := by
  have hretired : (d.retire ctx seqno).ringRetired = (d'.retire ctx seqno).ringRetired := by
    rw [Backend.retire, Backend.retire, h.ringRetired]
  exact { h with ringRetired := hretired }

theorem invalidateElision (h : Alike d d') : Alike d.invalidateElision d'.invalidateElision := { h with }

private theorem streamFrame (h : Alike d d') (bgra : List UInt8) (width height : UInt32) :
    Alike (d.streamFrame bgra width height) (d'.streamFrame bgra width height) :=
  { h with
    streams := by
      rw [Backend.streamFrame, Backend.streamFrame, Option.isSome_map, Option.isSome_map, h.streams] }

private theorem readRows (h : Alike d d') (sp : ScanoutPresentDamaged) (n : Nat) :
    d.readRows sp n = d'.readRows sp n := by
  induction n with
  | zero => rfl
  | succ n ih => simp only [Backend.readRows, ih, h.dmaRead]

theorem damagedSurface (h : Alike d d') (sp : ScanoutPresentDamaged) (n : Nat) :
    d.damagedSurface sp n = d'.damagedSurface sp n := by
  simp only [Backend.damagedSurface, matchingScanout, h.lastScanout, h.dmaRead, h.readRows]

private theorem presentScanout (h : Alike d d') (sp : ScanoutPresent) (seqno : UInt64) (ctx : Fin NUM_CONTEXTS) :
    Alike (d.presentScanout env sp seqno ctx) (d'.presentScanout env' sp seqno ctx) := by
  obtain ⟨hadm, h₁⟩ := h.ensureAdmitted env env'
  simp only [Backend.presentScanout, ← hadm]
  split
  · exact h₁
  · cases sp.fbBytes with
    | none => exact h₁
    | some total =>
      have h₂ := h₁.accountScanoutVram sp.width sp.height
      simp only [← h₂.dmaRead]
      split
      · exact h₂
      · refine streamFrame (retire ?_ _ _) _ _ _
        exact { h₂ with lastScanout := rfl }

theorem presentScanoutDamaged (h : Alike d d') (sp : ScanoutPresentDamaged) (seqno : UInt64)
    (ctx : Fin NUM_CONTEXTS) :
    Alike (d.presentScanoutDamaged env sp seqno ctx) (d'.presentScanoutDamaged env' sp seqno ctx) := by
  obtain ⟨hadm, h₁⟩ := h.invalidateElision.ensureAdmitted env env'
  simp only [Backend.presentScanoutDamaged, ← hadm]
  split
  · exact h₁
  · cases sp.fbBytes with
    | none => exact h₁
    | some fbBytes =>
      have h₂ := h₁.accountScanoutVram sp.width sp.height
      simp only [← h₂.damagedSurface]
      split
      · exact h₂
      · refine streamFrame (retire ?_ _ _) _ _ _
        exact { h₂ with lastScanout := rfl }

theorem presentResourceFlush (h : Alike d d') (resId : UInt32) (rect : Rect) (seqno : UInt64)
    (ctx : Fin NUM_CONTEXTS) :
    Alike (d.presentResourceFlush env resId rect seqno ctx) (d'.presentResourceFlush env' resId rect seqno ctx) := by
  have hpresent : d.invalidateElision.flushPresent resId rect = d'.invalidateElision.flushPresent resId rect := by
    simp only [Backend.flushPresent, h.invalidateElision.resources]
  simp only [Backend.presentResourceFlush, ← hpresent]
  split
  · exact h.invalidateElision
  · exact h.invalidateElision.presentScanoutDamaged _ _ _

private theorem renderClearPresent (henv : env.SameRenders env') (h : Alike d d') (cp : ClearPresent) (seqno : UInt64)
    (ctx : Fin NUM_CONTEXTS) :
    Alike (d.renderClearPresent env cp seqno ctx) (d'.renderClearPresent env' cp seqno ctx) := by
  obtain ⟨hadm, h₁⟩ := h.invalidateElision.ensureAdmitted env env'
  simp only [Backend.renderClearPresent, ← hadm]
  split
  · exact h₁
  · split
    · exact h₁
    · generalize (d.invalidateElision.ensureAdmitted env).2 = e at h₁ ⊢
      generalize (d'.invalidateElision.ensureAdmitted env').2 = e' at h₁ ⊢
      rw [← henv.renderClear e.calls e'.calls]
      obtain ⟨hresult, h₂⟩ := h₁.runTimed env env'
        (env.renderClear e.calls cp.width cp.height cp.rgba).outcome
      cases hrun : e.runTimed env (env.renderClear e.calls cp.width cp.height cp.rgba).outcome with
      | mk r f =>
        cases hrun' : e'.runTimed env' (env.renderClear e.calls cp.width cp.height cp.rgba).outcome with
        | mk r' f' =>
          rw [hrun, hrun'] at hresult h₂
          subst hresult
          cases r with
          | error e => exact h₂
          | ok frame =>
            cases frame with
            | none => exact h₂
            | some rgba =>
              obtain ⟨hok, h₃⟩ := dmaWrite h₂ cp.scanoutAddr rgba
              simp only [← hok]
              split
              · exact h₃.retire _ _
              · exact h₃

private theorem of_forwardCursor (env : Env) (cu : CursorUpdate) (n : Nat) (d : Backend) :
    Alike d (d.forwardCursor env cu n) := by
  obtain ⟨cursor, pixel, heq, hstreams⟩ := forwardCursor_only env cu n d
  rw [heq]
  exact { refl d with streams := hstreams }

private theorem handleCursorUpdate (h : Alike d d') (cu : CursorUpdate) :
    Alike (d.handleCursorUpdate env cu) (d'.handleCursorUpdate env' cu) := by
  have hcount : Alike { d with cursorUpdates := d.cursorUpdates + 1 }
    { d' with cursorUpdates := d'.cursorUpdates + 1 } :=
    { h with }
  obtain ⟨hadm, h₁⟩ := hcount.ensureAdmitted env env'
  have hcalls : ∀ d : Backend, Alike d { d with calls := d.calls + 1 } := fun d => { refl d with }
  have hquiet : ∀ (env : Env) (d : Backend), Alike d ({ d with calls := d.calls + 1 }.forwardCursor env cu d.calls) :=
    fun env d => (hcalls d).trans (of_forwardCursor env cu d.calls _)
  simp only [Backend.handleCursorUpdate, ← hadm, ← Option.not_isSome, ← h₁.streams]
  split
  · exact h₁
  · exact ((hquiet env _).symm.trans h₁).trans (hquiet env' _)

private theorem resetState (h : Alike d d') : Alike d.resetState d'.resetState := by
  have hbroker : d.resetState.broker.SameLeases d'.resetState.broker := by
    show ((d.ticket.map fun t => (t.drop d.broker).2).getD d.broker).SameLeases
      ((d'.ticket.map fun t => (t.drop d'.broker).2).getD d'.broker)
    rw [← h.ticket]
    cases d.ticket with
    | none => exact h.broker
    | some t =>
      simp only [Option.map_some, Option.getD_some, VmTicket.drop]
      split
      · exact h.broker
      · exact h.broker.release t.vmId
  have hstreams : d.resetState.pixel.isSome = d'.resetState.pixel.isSome := by
    simp only [Backend.resetState, Option.isSome_map, h.streams]
  exact ⟨h.mem, h.dma, rfl, rfl, h.brokerConfig, hbroker, h.vmConfig, rfl, rfl, hstreams, rfl, rfl⟩

/-- Every command but a 3D submission keeps the devices alike. -/
theorem act (henv : env.SameRenders env') (h : Alike d d') {a : Act}
    (ha : ∀ sc payload ctx, a ≠ .submit sc payload ctx) :
    Alike (d.act env a) (d'.act env' a) := by
  cases a with
  | submit sc payload ctx => exact absurd rfl (ha sc payload ctx)
  | present sp seqno ctx => exact h.presentScanout sp seqno ctx
  | presentDamaged sp seqno ctx => exact h.presentScanoutDamaged sp seqno ctx
  | flush resId rect seqno ctx => exact h.presentResourceFlush resId rect seqno ctx
  | clear cp seqno ctx => exact h.renderClearPresent henv cp seqno ctx
  | resource desc payload => exact { h with resources := by simp only [Backend.act, h.resources] }
  | cursor cu => exact h.handleCursorUpdate cu
  | enable => exact (h.ensureAdmitted env env').2
  | debugWrite addr val => exact (h.dmaWrite addr _).2
  | map iova size host =>
    cases host with
    | none => exact h.invalidateElision
    | some host => exact { h with dma := by simp only [Backend.act, dmaMap, Backend.invalidateElision, h.dma] }
  | unmap iova => exact { h with dma := by simp only [Backend.act, dmaUnmap, Backend.invalidateElision, h.dma] }
  | unmapAll => exact { h with dma := rfl }
  | reset => exact h.resetState
  | stores f => exact { h with mem := congrArg f h.mem }

end Alike

/-! ### What one device keeps -/

/-- An admitted VM has its entry in the ledger. -/
def Registered (d : Backend) : Prop := ∀ t ∈ d.ticket, (d.broker.vms.lookup t.vmId).isSome

/-- The options of the 3D path and the remembered frames stay, and an admitted VM keeps its entry. -/
structure Steady (d d' : Backend) : Prop where
  zerocopyScanout : d'.zerocopyScanout = d.zerocopyScanout
  elideUnchanged : d'.elideUnchanged = d.elideUnchanged
  lastForwardedHash : d'.lastForwardedHash = d.lastForwardedHash
  registered : d.Registered → d'.Registered

theorem Alike.registered (h : Alike d d') (hreg : d.Registered) : d'.Registered := by
  intro t ht
  rw [← h.broker.isSome]
  exact hreg t (h.ticket ▸ ht)

namespace Steady

private theorem refl (d : Backend) : Steady d d := ⟨rfl, rfl, rfl, id⟩

theorem trans {d'' : Backend} (h : Steady d d') (h' : Steady d' d'') : Steady d d'' :=
  ⟨h'.zerocopyScanout.trans h.zerocopyScanout, h'.elideUnchanged.trans h.elideUnchanged,
    h'.lastForwardedHash.trans h.lastForwardedHash, h'.registered ∘ h.registered⟩

/-- What is changed is neither of these nor the admission. -/
theorem of_eq (hzero : d'.zerocopyScanout = d.zerocopyScanout) (helide : d'.elideUnchanged = d.elideUnchanged)
    (hhash : d'.lastForwardedHash = d.lastForwardedHash) (hticket : d'.ticket = d.ticket)
    (hbroker : d.broker.SameLeases d'.broker) : Steady d d' := by
  refine ⟨hzero, helide, hhash, fun hreg t ht => ?_⟩
  rw [← hbroker.isSome]
  exact hreg t (hticket ▸ ht)

end Steady

theorem ensureAdmitted_steady (env : Env) (d : Backend) : Steady d (d.ensureAdmitted env).2 := by
  cases ht : d.ticket with
  | some t =>
    rw [ensureAdmitted_of_ticket (by rw [ht]; rfl)]
    exact .refl d
  | none =>
    cases hdenied : d.admissionDenied with
    | true =>
      rw [ensureAdmitted_denied ht hdenied]
      exact .refl d
    | false =>
      cases hadm : d.broker.admitVm d.brokerConfig d.vmConfig d.admitRequest (env.clock d.calls) with
      | mk r broker =>
        cases r with
        | ok t =>
          rw [ensureAdmitted_ok ht hdenied hadm]
          refine ⟨rfl, rfl, rfl, fun _ t' ht' => ?_⟩
          rcases Ledger.admitVm_cases hadm with ⟨e, he, -⟩ | ⟨hok, vm, hvm⟩
          · cases he
          · cases hok
            cases ht'
            show (broker.vms.lookup d.vmConfig.vmId).isSome
            rw [hvm.vms, AList.lookup_insert]; rfl
        | error e =>
          rw [ensureAdmitted_error ht hdenied hadm]
          refine ⟨rfl, rfl, rfl, fun _ t' ht' => ?_⟩
          have hnone : d.ticket = some t' := ht'
          rw [ht] at hnone
          cases hnone

private theorem runTimed_steady {α : Type*} (env : Env) (out : Option α) (d : Backend) :
    Steady d (d.runTimed env out).2 := by
  unfold runTimed
  cases ht : d.ticket with
  | none => exact .refl d
  | some t =>
    simp only
    split
    · exact .refl d
    · cases out with
      | none => exact .of_eq rfl rfl rfl ht.symm (charge_sameLeases env t.vmId d)
      | some r => exact .of_eq rfl rfl rfl ht.symm (charge_sameLeases env t.vmId d)

private theorem accountScanoutVram_steady (width height : UInt32) (d : Backend) :
    Steady d (d.accountScanoutVram width height) := by
  unfold accountScanoutVram
  split
  · exact .refl d
  · cases ht : d.ticket with
    | none => exact .of_eq rfl rfl rfl ht.symm (.refl _)
    | some t =>
      refine ⟨rfl, rfl, rfl, fun hreg t' ht' => ?_⟩
      cases ht'
      have hsome := hreg t ht
      cases hadjust : d.broker.adjustVram d.brokerConfig t.vmId
        (VRAM_ESTIMATE_MB + scanoutVramEstimateMb width height 3) with
      | mk r broker =>
        show ((d.broker.adjustVram d.brokerConfig t.vmId
          (VRAM_ESTIMATE_MB + scanoutVramEstimateMb width height 3)).2.vms.lookup t.vmId).isSome
        rw [hadjust]
        rcases Ledger.adjustVram_cases hadjust with ⟨e, -, rfl, -⟩ | ⟨-, vm, hvm⟩
        · exact hsome
        · rw [hvm.vms, AList.lookup_insert]; rfl

private theorem presentScanout_steady (sp : ScanoutPresent) (seqno : UInt64) (ctx : Fin NUM_CONTEXTS) (d : Backend) :
    Steady d (d.presentScanout env sp seqno ctx) := by
  have hadm := ensureAdmitted_steady env d
  simp only [presentScanout]
  split
  · exact hadm
  · split
    · exact hadm
    · have hacc := hadm.trans (accountScanoutVram_steady sp.width sp.height _)
      split
      · exact hacc
      · exact hacc.trans (.of_eq rfl rfl rfl rfl (.refl _))

private theorem presentScanoutDamaged_steady (sp : ScanoutPresentDamaged) (seqno : UInt64) (ctx : Fin NUM_CONTEXTS)
    (d : Backend) : Steady d.invalidateElision (d.presentScanoutDamaged env sp seqno ctx) := by
  have hadm := ensureAdmitted_steady env d.invalidateElision
  simp only [presentScanoutDamaged]
  split
  · exact hadm
  · split
    · exact hadm
    · have hacc := hadm.trans (accountScanoutVram_steady sp.width sp.height _)
      split
      · exact hacc
      · exact hacc.trans (.of_eq rfl rfl rfl rfl (.refl _))

private theorem presentResourceFlush_steady (resId : UInt32) (rect : Rect) (seqno : UInt64) (ctx : Fin NUM_CONTEXTS)
    (d : Backend) : Steady d.invalidateElision (d.presentResourceFlush env resId rect seqno ctx) := by
  simp only [presentResourceFlush]
  split
  · exact .refl _
  · exact presentScanoutDamaged_steady _ seqno ctx d.invalidateElision

private theorem renderClearPresent_steady (cp : ClearPresent) (seqno : UInt64) (ctx : Fin NUM_CONTEXTS)
    (d : Backend) :
    Steady d.invalidateElision (d.renderClearPresent env cp seqno ctx) := by
  have hadm := ensureAdmitted_steady env d.invalidateElision
  simp only [renderClearPresent]
  split
  · exact hadm
  · split
    · exact hadm
    · generalize (d.invalidateElision.ensureAdmitted env).2 = e at hadm ⊢
      have hrun := hadm.trans (runTimed_steady env (env.renderClear e.calls cp.width cp.height cp.rgba).outcome e)
      split
      · rename_i rgba f hf
        rw [hf] at hrun
        split
        · exact hrun.trans (.of_eq rfl rfl rfl rfl (.refl _))
        · exact hrun.trans (.of_eq rfl rfl rfl rfl (.refl _))
      · rename_i r f hf
        rw [hf] at hrun
        exact hrun

private theorem handleCursorUpdate_steady (cu : CursorUpdate) (d : Backend) :
    Steady d (d.handleCursorUpdate env cu) := by
  have hcount : Steady d { d with cursorUpdates := d.cursorUpdates + 1 } := .of_eq rfl rfl rfl rfl (.refl _)
  have hadm := hcount.trans (ensureAdmitted_steady env _)
  simp only [handleCursorUpdate]
  split
  · exact hadm
  · generalize ({ d with cursorUpdates := d.cursorUpdates + 1 }.ensureAdmitted env).2 = e at hadm ⊢
    obtain ⟨cursor, pixel, heq, -⟩ := forwardCursor_only env cu e.calls { e with calls := e.calls + 1 }
    rw [heq]
    exact hadm.trans (.of_eq rfl rfl rfl rfl (.refl _))

private theorem resetState_steady (d : Backend) : Steady d.invalidateElision d.resetState :=
  ⟨rfl, rfl, rfl, fun _ => nofun⟩

/-- The commands after which no frame is remembered. -/
def Act.forgets : Act → Bool
  | .presentDamaged .. => true
  | .flush .. => true
  | .clear .. => true
  | .map .. => true
  | .unmap _ => true
  | .unmapAll => true
  | .reset => true
  | _ => false

theorem act_steady {a : Act} (ha : ∀ sc payload ctx, a ≠ .submit sc payload ctx) :
    Steady (if a.forgets then d.invalidateElision else d) (d.act env a) := by
  cases a with
  | submit sc payload ctx => exact absurd rfl (ha sc payload ctx)
  | present sp seqno ctx => exact presentScanout_steady sp seqno ctx d
  | presentDamaged sp seqno ctx => exact presentScanoutDamaged_steady sp seqno ctx d
  | flush resId rect seqno ctx => exact presentResourceFlush_steady resId rect seqno ctx d
  | clear cp seqno ctx => exact renderClearPresent_steady cp seqno ctx d
  | resource desc payload => exact .of_eq rfl rfl rfl rfl (.refl _)
  | cursor cu => exact handleCursorUpdate_steady cu d
  | enable => exact ensureAdmitted_steady env d
  | debugWrite addr val => exact .of_eq rfl rfl rfl rfl (.refl _)
  | map iova size host =>
    cases host with
    | none => exact .refl _
    | some host => exact .of_eq rfl rfl rfl rfl (.refl _)
  | unmap iova => exact .of_eq rfl rfl rfl rfl (.refl _)
  | unmapAll => exact .of_eq rfl rfl rfl rfl (.refl _)
  | reset => exact resetState_steady d
  | stores f => exact .of_eq rfl rfl rfl rfl (.refl _)

/-- As long as the frames are remembered the mappings and the ticket are the same ones. -/
theorem act_keeps {a : Act} (ha : ∀ sc payload ctx, a ≠ .submit sc payload ctx) (hkept : a.forgets = false) :
    Keeps d (d.act env a) := by
  cases a with
  | submit sc payload ctx => exact absurd rfl (ha sc payload ctx)
  | present sp seqno ctx => exact presentScanout_keeps sp seqno ctx d
  | resource desc payload => exact (resources_quiet _ d).toKeeps
  | cursor cu => exact (handleCursorUpdate_quiet cu d).toKeeps
  | enable => exact (ensureAdmitted_quiet env d).toKeeps
  | debugWrite addr val => exact dmaWrite_keeps addr _ d
  | stores f => exact ⟨rfl, rfl, rfl, rfl, id⟩
  | presentDamaged => cases hkept
  | flush => cases hkept
  | clear => cases hkept
  | map => cases hkept
  | unmap => cases hkept
  | unmapAll => cases hkept
  | reset => cases hkept

/-! ### The parts of a 3D submission -/

/-- A replay may switch the zero-copy path off. -/
structure Latches (d d' : Backend) : Prop where
  zerocopyScanout : d'.zerocopyScanout = true → d.zerocopyScanout = true
  elideUnchanged : d'.elideUnchanged = d.elideUnchanged
  lastForwardedHash : d'.lastForwardedHash = d.lastForwardedHash
  registered : d.Registered → d'.Registered

theorem Steady.latches (h : Steady d d') : Latches d d' :=
  ⟨fun hon => h.zerocopyScanout ▸ hon, h.elideUnchanged, h.lastForwardedHash, h.registered⟩

theorem Latches.trans {d'' : Backend} (h : Latches d d') (h' : Latches d' d'') : Latches d d'' :=
  ⟨h.zerocopyScanout ∘ h'.zerocopyScanout, h'.elideUnchanged.trans h.elideUnchanged,
    h'.lastForwardedHash.trans h.lastForwardedHash, h'.registered ∘ h.registered⟩

theorem presentRendered_steady (out : Rendered) (addr : UInt64) (d : Backend) :
    Steady d (d.presentRendered env out addr).2 := by
  have hrun := runTimed_steady env out.outcome d
  simp only [presentRendered]
  split
  · rename_i px e he
    rw [he] at hrun
    split
    · exact hrun
    · exact hrun.trans (.of_eq rfl rfl rfl rfl (.refl _))
  · rename_i r e he
    rw [he] at hrun
    exact hrun

theorem renderOnecopy_steady (wl : VulkanWorkload) (fwd : OwnedForwardedDraw) (d : Backend) :
    Steady d (d.renderOnecopy env wl fwd).2 := presentRendered_steady _ _ d

theorem renderZerocopy_steady (env : Env) (wl : VulkanWorkload) (fwd : OwnedForwardedDraw) (ptr : Nat) (d : Backend) :
    Steady d (d.renderZerocopy env wl fwd ptr).2 := by
  have hrun := runTimed_steady env (env.renderForwardedZerocopy d.calls wl.width wl.height wl.bg fwd).result d
  simp only [renderZerocopy]
  split
  · rename_i e he
    rw [he] at hrun
    exact hrun
  · rename_i e he
    rw [he] at hrun
    exact hrun.trans (.of_eq rfl rfl rfl rfl (.refl _))
  · rename_i ok e he
    rw [he] at hrun
    exact hrun.trans (.of_eq rfl rfl rfl rfl (.refl _))

theorem replayForwarded_latches (env : Env) (wl : VulkanWorkload) (fwd : OwnedForwardedDraw) (d : Backend) :
    Latches d (d.replayForwarded env wl fwd).2 := by
  cases hptr : d.zerocopyTarget env wl fwd with
  | none =>
    simp only [replayForwarded, hptr]
    exact (renderOnecopy_steady wl fwd d).latches
  | some ptr =>
    have hsteady := renderZerocopy_steady env wl fwd ptr d
    simp only [replayForwarded, hptr]
    cases hrender : d.renderZerocopy env wl fwd ptr with
    | mk r e =>
      rw [hrender] at hsteady
      cases r with
      | none => exact hsteady.latches
      | some ok =>
        cases ok with
        | true => exact hsteady.latches
        | false =>
          have hoff : Latches e { e with zerocopyScanout := false } := ⟨fun h => (by cases h), rfl, rfl, id⟩
          exact (hsteady.latches.trans hoff).trans (renderOnecopy_steady wl fwd _).latches

theorem replay_latches (env : Env) (wl : VulkanWorkload) (payload : List UInt8) (d : Backend) :
    Latches d (d.replay env wl payload).2 := by
  simp only [replay]
  split
  · split
    · exact (Steady.refl d).latches
    · exact replayForwarded_latches env wl _ d
  · split
    · exact (presentRendered_steady _ _ d).latches
    · exact (presentRendered_steady _ _ d).latches

namespace Alike

theorem presentRendered (h : Alike d d') (env env' : Env) (out : Rendered) (addr : UInt64) :
    (d.presentRendered env out addr).1 = (d'.presentRendered env' out addr).1 ∧
      Alike (d.presentRendered env out addr).2 (d'.presentRendered env' out addr).2 := by
  obtain ⟨hresult, h₁⟩ := h.runTimed env env' out.outcome
  cases hrun : d.runTimed env out.outcome with
  | mk r e =>
    cases hrun' : d'.runTimed env' out.outcome with
    | mk r' e' =>
      rw [hrun, hrun'] at hresult h₁
      subst hresult
      simp only [Backend.presentRendered, hrun, hrun']
      cases r with
      | error _ => exact ⟨rfl, h₁⟩
      | ok frame =>
        cases frame with
        | none => exact ⟨rfl, h₁⟩
        | some px =>
          obtain ⟨hok, h₂⟩ := dmaWrite h₁ addr px
          simp only
          split
          · exact ⟨rfl, h₁⟩
          · exact ⟨congrArg some hok, h₂⟩

theorem renderOnecopy (henv : env.SameRenders env') (h : Alike d d') (wl : VulkanWorkload)
    (fwd : OwnedForwardedDraw) :
    (d.renderOnecopy env wl fwd).1 = (d'.renderOnecopy env' wl fwd).1 ∧
      Alike (d.renderOnecopy env wl fwd).2 (d'.renderOnecopy env' wl fwd).2 := by
  rw [Backend.renderOnecopy, Backend.renderOnecopy, ← henv.renderForwardedPresent d.calls d'.calls]
  exact h.presentRendered _ _ _ _

private theorem renderZerocopy (henv : env.Alike env') (h : Alike d d') (wl : VulkanWorkload)
    (fwd : OwnedForwardedDraw) (ptr : Nat) :
    (d.renderZerocopy env wl fwd ptr).1 = (d'.renderZerocopy env' wl fwd ptr).1 ∧
      Alike (d.renderZerocopy env wl fwd ptr).2 (d'.renderZerocopy env' wl fwd ptr).2 := by
  have hout := henv.renderForwardedZerocopy d.calls d'.calls
  obtain ⟨hresult, h₁⟩ := h.runTimed env env'
    (env.renderForwardedZerocopy d.calls wl.width wl.height wl.bg fwd).result
  cases hrun : d.runTimed env (env.renderForwardedZerocopy d.calls wl.width wl.height wl.bg fwd).result with
  | mk r e =>
    cases hrun' : d'.runTimed env' (env.renderForwardedZerocopy d.calls wl.width wl.height wl.bg fwd).result with
    | mk r' e' =>
      rw [hrun, hrun'] at hresult h₁
      subst hresult
      simp only [Backend.renderZerocopy, ← hout, hrun, hrun']
      have himported : ∀ bs : List UInt8, Alike { e with mem := e.mem.store ptr bs }
          { e' with mem := e'.mem.store ptr bs } := fun bs => { h₁ with mem := by rw [h₁.mem] }
      cases r with
      | error err =>
        cases err with
        | notAdmitted => exact ⟨rfl, h₁⟩
        | panicked => exact ⟨rfl, himported _⟩
      | ok ok => exact ⟨rfl, himported _⟩

private theorem zerocopyTarget (henv : env.Alike env') (h : Alike d d')
    (hzero : d.zerocopyScanout = d'.zerocopyScanout) (wl : VulkanWorkload) (fwd : OwnedForwardedDraw) :
    d.zerocopyTarget env wl fwd = d'.zerocopyTarget env' wl fwd := by
  rw [Backend.zerocopyTarget, Backend.zerocopyTarget, hzero, henv.supportsZerocopy d.calls d'.calls, h.dma]

/-- Devices that are alike and have the same option replay a draw alike and still have the same option. -/
private theorem replayForwarded (henv : env.Alike env') (h : Alike d d')
    (hzero : d.zerocopyScanout = d'.zerocopyScanout) (wl : VulkanWorkload) (fwd : OwnedForwardedDraw) :
    (d.replayForwarded env wl fwd).1 = (d'.replayForwarded env' wl fwd).1 ∧
      Alike (d.replayForwarded env wl fwd).2 (d'.replayForwarded env' wl fwd).2 ∧
      (d.replayForwarded env wl fwd).2.zerocopyScanout = (d'.replayForwarded env' wl fwd).2.zerocopyScanout := by
  have honecopy : ∀ {d d' : Backend}, Alike d d' → d.zerocopyScanout = d'.zerocopyScanout →
      (d.renderOnecopy env wl fwd).1 = (d'.renderOnecopy env' wl fwd).1 ∧
        Alike (d.renderOnecopy env wl fwd).2 (d'.renderOnecopy env' wl fwd).2 ∧
        (d.renderOnecopy env wl fwd).2.zerocopyScanout = (d'.renderOnecopy env' wl fwd).2.zerocopyScanout := by
    intro d d' h hzero
    obtain ⟨hresult, h₁⟩ := h.renderOnecopy henv.toSameRenders wl fwd
    refine ⟨hresult, h₁, ?_⟩
    rw [(renderOnecopy_steady wl fwd d).zerocopyScanout, (renderOnecopy_steady wl fwd d').zerocopyScanout, hzero]
  have htarget := h.zerocopyTarget henv hzero wl fwd
  cases hptr : d.zerocopyTarget env wl fwd with
  | none =>
    simp only [Backend.replayForwarded, hptr, ← htarget]
    exact honecopy h hzero
  | some ptr =>
    obtain ⟨hresult, h₁⟩ := h.renderZerocopy henv wl fwd ptr
    have hsteady := (renderZerocopy_steady env wl fwd ptr d).zerocopyScanout
    have hsteady' := (renderZerocopy_steady env' wl fwd ptr d').zerocopyScanout
    simp only [Backend.replayForwarded, hptr, ← htarget]
    cases hrender : d.renderZerocopy env wl fwd ptr with
    | mk r e =>
      cases hrender' : d'.renderZerocopy env' wl fwd ptr with
      | mk r' e' =>
        rw [hrender, hrender'] at hresult h₁
        rw [hrender] at hsteady
        rw [hrender'] at hsteady'
        subst hresult
        have hzero' : e.zerocopyScanout = e'.zerocopyScanout := hsteady.trans (hzero.trans hsteady'.symm)
        cases r with
        | none => exact ⟨rfl, h₁, hzero'⟩
        | some ok =>
          cases ok with
          | true => exact ⟨rfl, h₁, hzero'⟩
          | false =>
            have hoff : Alike { e with zerocopyScanout := false } { e' with zerocopyScanout := false } := { h₁ with }
            exact honecopy hoff rfl

theorem replay (henv : env.Alike env') (h : Alike d d') (hzero : d.zerocopyScanout = d'.zerocopyScanout)
    (wl : VulkanWorkload) (payload : List UInt8) :
    (d.replay env wl payload).1 = (d'.replay env' wl payload).1 ∧
      Alike (d.replay env wl payload).2 (d'.replay env' wl payload).2 ∧
      (d.replay env wl payload).2.zerocopyScanout = (d'.replay env' wl payload).2.zerocopyScanout := by
  have hpresented : ∀ out : Rendered,
      (d.presentRendered env out wl.scanoutAddr).1 = (d'.presentRendered env' out wl.scanoutAddr).1 ∧
        Alike (d.presentRendered env out wl.scanoutAddr).2 (d'.presentRendered env' out wl.scanoutAddr).2 ∧
        (d.presentRendered env out wl.scanoutAddr).2.zerocopyScanout =
          (d'.presentRendered env' out wl.scanoutAddr).2.zerocopyScanout := by
    intro out
    obtain ⟨hresult, h₁⟩ := h.presentRendered env env' out wl.scanoutAddr
    refine ⟨hresult, h₁, ?_⟩
    rw [(presentRendered_steady _ _ d).zerocopyScanout, (presentRendered_steady _ _ d').zerocopyScanout, hzero]
  simp only [Backend.replay]
  split
  · split
    · exact ⟨rfl, h, hzero⟩
    · exact h.replayForwarded henv hzero wl _
  · split
    · rw [← henv.renderTriangle d.calls d'.calls]
      exact hpresented _
    · rw [← henv.renderClear d.calls d'.calls]
      exact hpresented _

end Alike

end Backend

end Infinigpu
