import Infinigpu.Device.Frames
import Infinigpu.Device.Submission

/-!
# The two transports (`infinigpu-device`, `process_ring` and `drain_ctx`)

A submission may lie at the base of a ring or behind a descriptor of the shared ring.  An admitted VM gets the same
from either: the doorbells leave the same device, up to the registers of the ring and to the seqno that a drain
reports at its end (`transports_agree`), as long as the descriptor carries what the other transport reads (`Carries`).
-/

namespace Infinigpu

namespace Backend

variable {env : Env} {ctx : Fin NUM_CONTEXTS} {base : UInt64} {d : Backend}

/-! ### The registers of a ring -/

/-- The ring of a context becomes a single descriptor at `base`. -/
def programmed (ctx : Fin NUM_CONTEXTS) (base : UInt64) (d : Backend) : Backend :=
  { d with
    ringIndex := Function.update d.ringIndex ctx 0
    ringBase := Function.update d.ringBase ctx base }

/-- Admission does not depend on guest memory, the ring or the remembered frames. -/
private theorem ensureAdmitted_with (env : Env) (d : Backend) (mem : Memory)
    (ringBase ringIndex : Fin NUM_CONTEXTS → UInt64) (lastForwardedHash : AList fun _ : UInt64 => UInt64) :
    { d with mem, ringBase, ringIndex, lastForwardedHash }.ensureAdmitted env =
      ((d.ensureAdmitted env).1, { (d.ensureAdmitted env).2 with mem, ringBase, ringIndex, lastForwardedHash }) := by
  generalize he : { d with mem, ringBase, ringIndex, lastForwardedHash } = e
  have hticket : e.ticket = d.ticket := by rw [← he]
  have hdenial : e.admissionDenied = d.admissionDenied := by rw [← he]
  cases ht : d.ticket with
  | some t =>
    have hsome : d.ticket.isSome := by rw [ht]; rfl
    have hsome' : e.ticket.isSome := hticket ▸ hsome
    rw [ensureAdmitted_of_ticket hsome, ensureAdmitted_of_ticket hsome', he]
  | none =>
    rw [ht] at hticket
    cases hdenied : d.admissionDenied with
    | true => rw [ensureAdmitted_denied ht hdenied, ensureAdmitted_denied hticket (hdenial.trans hdenied), he]
    | false =>
      cases hadm : d.broker.admitVm d.brokerConfig d.vmConfig d.admitRequest (env.clock d.calls) with
      | mk r broker =>
        have hadm' : e.broker.admitVm e.brokerConfig e.vmConfig e.admitRequest (env.clock e.calls) = (r, broker) := by
          rw [← he]
          exact hadm
        cases r with
        | ok t =>
          rw [ensureAdmitted_ok ht hdenied hadm, ensureAdmitted_ok hticket (hdenial.trans hdenied) hadm', ← he]
        | error err =>
          rw [ensureAdmitted_error ht hdenied hadm, ensureAdmitted_error hticket (hdenial.trans hdenied) hadm', ← he]

private theorem programmed_ensureAdmitted (ctx : Fin NUM_CONTEXTS) (base : UInt64) (env : Env) (d : Backend) :
    (d.programmed ctx base).ensureAdmitted env =
      ((d.ensureAdmitted env).1, (d.ensureAdmitted env).2.programmed ctx base) := by
  have hquiet := ensureAdmitted_quiet env d
  have hhash := (ensureAdmitted_steady env d).lastForwardedHash
  refine (ensureAdmitted_with env d d.mem _ _ d.lastForwardedHash).trans ?_
  rw [programmed, hquiet.ringBase, hquiet.ringIndex, ← hquiet.mem, ← hhash]

private theorem programmed_accountScanoutVram (width height : UInt32) (d : Backend) :
    (d.programmed ctx base).accountScanoutVram width height =
      (d.accountScanoutVram width height).programmed ctx base := by
  have hdims : (d.programmed ctx base).scanoutVramDims = d.scanoutVramDims := rfl
  rw [accountScanoutVram, accountScanoutVram, hdims]
  by_cases hsame : d.scanoutVramDims = some (width, height)
  · rw [if_pos hsame, if_pos hsame]
  · rw [if_neg hsame, if_neg hsame]
    cases ht : d.ticket with
    | none =>
      have ht' : (d.programmed ctx base).ticket = none := ht
      simp only [ht']
      rfl
    | some t =>
      have ht' : (d.programmed ctx base).ticket = some t := ht
      simp only [ht']
      rfl

private theorem programmed_runTimed {α : Type*} (env : Env) (out : Option α) (d : Backend) :
    (d.programmed ctx base).runTimed env out =
      ((d.runTimed env out).1, (d.runTimed env out).2.programmed ctx base) := by
  cases ht : d.ticket with
  | none =>
    have ht' : (d.programmed ctx base).ticket = none := ht
    simp only [runTimed, ht, ht']
  | some t =>
    have ht' : (d.programmed ctx base).ticket = some t := ht
    have hbroker : (d.programmed ctx base).broker = d.broker := rfl
    simp only [runTimed, ht, ht', hbroker]
    by_cases hnone : (d.broker.vms.lookup t.vmId).isNone = true
    · rw [if_pos hnone, if_pos hnone]
    · rw [if_neg hnone, if_neg hnone]
      cases out with
      | none => rfl
      | some r => rfl

private theorem programmed_presentScanout (env : Env) (sp : ScanoutPresent) (seqno : UInt64) (d : Backend) :
    (d.programmed ctx base).presentScanout env sp seqno ctx =
      (d.presentScanout env sp seqno ctx).programmed ctx base := by
  simp only [presentScanout, programmed_ensureAdmitted]
  by_cases hadm : (d.ensureAdmitted env).1 = true
  · cases sp.fbBytes with
    | none =>
      simp only [hadm]
      rfl
    | some total =>
      simp only [programmed_accountScanoutVram, hadm]
      generalize (d.ensureAdmitted env).2.accountScanoutVram sp.width sp.height = e
      have hread : (e.programmed ctx base).dmaRead sp.scanoutAddr total = e.dmaRead sp.scanoutAddr total := rfl
      rw [hread]
      cases e.dmaRead sp.scanoutAddr total with
      | none => rfl
      | some buf => rfl
  · rw [Bool.not_eq_true] at hadm
    simp only [hadm]
    rfl

private theorem programmed_presentScanoutDamaged (env : Env) (sp : ScanoutPresentDamaged) (seqno : UInt64)
    (d : Backend) :
    (d.programmed ctx base).presentScanoutDamaged env sp seqno ctx =
      (d.presentScanoutDamaged env sp seqno ctx).programmed ctx base := by
  have hinvalidate : (d.programmed ctx base).invalidateElision = d.invalidateElision.programmed ctx base := rfl
  simp only [presentScanoutDamaged, hinvalidate, programmed_ensureAdmitted]
  by_cases hadm : (d.invalidateElision.ensureAdmitted env).1 = true
  · cases sp.fbBytes with
    | none =>
      simp only [hadm]
      rfl
    | some fbBytes =>
      simp only [programmed_accountScanoutVram, hadm]
      generalize (d.invalidateElision.ensureAdmitted env).2.accountScanoutVram sp.width sp.height = e
      have halike : Alike (e.programmed ctx base) e := { Alike.refl e with }
      rw [halike.damagedSurface]
      cases e.damagedSurface sp fbBytes with
      | none => rfl
      | some r => rfl
  · rw [Bool.not_eq_true] at hadm
    simp only [hadm]
    rfl

private theorem programmed_renderClearPresent (env : Env) (cp : ClearPresent) (seqno : UInt64) (d : Backend) :
    (d.programmed ctx base).renderClearPresent env cp seqno ctx =
      (d.renderClearPresent env cp seqno ctx).programmed ctx base := by
  have hinvalidate : (d.programmed ctx base).invalidateElision = d.invalidateElision.programmed ctx base := rfl
  simp only [renderClearPresent, hinvalidate, programmed_ensureAdmitted]
  generalize d.invalidateElision.ensureAdmitted env = admitted
  obtain ⟨ok, e⟩ := admitted
  cases ok with
  | false => rfl
  | true =>
    cases badRenderGeometry cp.width cp.height with
    | true => rfl
    | false =>
      have hcalls : (e.programmed ctx base).calls = e.calls := rfl
      simp only [programmed_runTimed, hcalls]
      cases hrun : e.runTimed env (env.renderClear e.calls cp.width cp.height cp.rgba).outcome with
      | mk r f =>
        cases r with
        | error err => rfl
        | ok frame =>
          cases frame with
          | none => rfl
          | some rgba =>
            have hwrite : (f.programmed ctx base).dmaWrite cp.scanoutAddr rgba =
                ((f.dmaWrite cp.scanoutAddr rgba).1, (f.dmaWrite cp.scanoutAddr rgba).2.programmed ctx base) := rfl
            simp only [hwrite]
            cases (f.dmaWrite cp.scanoutAddr rgba).1 with
            | false => rfl
            | true => rfl

/-! ### 3D submissions -/

variable {sc : SubmitCmd} {payload : List UInt8} {wl : VulkanWorkload}

private theorem programmed_presentRendered (out : Rendered) (addr : UInt64) (d : Backend) :
    (d.programmed ctx base).presentRendered env out addr =
      ((d.presentRendered env out addr).1, (d.presentRendered env out addr).2.programmed ctx base) := by
  simp only [presentRendered, programmed_runTimed]
  cases d.runTimed env out.outcome with
  | mk r e =>
    cases r with
    | error err => rfl
    | ok frame =>
      cases frame with
      | none => rfl
      | some px =>
        simp only
        split
        · rfl
        · rfl

private theorem programmed_renderZerocopy (fwd : OwnedForwardedDraw) (ptr : Nat) (d : Backend) :
    (d.programmed ctx base).renderZerocopy env wl fwd ptr =
      ((d.renderZerocopy env wl fwd ptr).1, (d.renderZerocopy env wl fwd ptr).2.programmed ctx base) := by
  have hcalls : (d.programmed ctx base).calls = d.calls := rfl
  simp only [renderZerocopy, programmed_runTimed, hcalls]
  cases d.runTimed env (env.renderForwardedZerocopy d.calls wl.width wl.height wl.bg fwd).result with
  | mk r e =>
    cases r with
    | error err =>
      cases err with
      | notAdmitted => rfl
      | panicked => rfl
    | ok ok => rfl

private theorem programmed_replayForwarded (fwd : OwnedForwardedDraw) (d : Backend) :
    (d.programmed ctx base).replayForwarded env wl fwd =
      ((d.replayForwarded env wl fwd).1, (d.replayForwarded env wl fwd).2.programmed ctx base) := by
  have hcopied : ∀ e : Backend, (e.programmed ctx base).renderOnecopy env wl fwd =
      ((e.renderOnecopy env wl fwd).1, (e.renderOnecopy env wl fwd).2.programmed ctx base) := fun e =>
    programmed_presentRendered _ _ e
  have htarget : (d.programmed ctx base).zerocopyTarget env wl fwd = d.zerocopyTarget env wl fwd := rfl
  cases hptr : d.zerocopyTarget env wl fwd with
  | none =>
    simp only [replayForwarded, htarget, hptr]
    exact hcopied d
  | some ptr =>
    simp only [replayForwarded, htarget, hptr, programmed_renderZerocopy]
    cases d.renderZerocopy env wl fwd ptr with
    | mk r e =>
      cases r with
      | none => rfl
      | some ok =>
        cases ok with
        | true => rfl
        | false => exact hcopied { e with zerocopyScanout := false }

private theorem programmed_replay (env : Env) (wl : VulkanWorkload) (payload : List UInt8) (d : Backend) :
    (d.programmed ctx base).replay env wl payload =
      ((d.replay env wl payload).1, (d.replay env wl payload).2.programmed ctx base) := by
  have hcalls : (d.programmed ctx base).calls = d.calls := rfl
  by_cases hop : wl.Forwarded
  · cases hfwd : forwardedDraw wl payload with
    | none => rw [replay_undecoded hop hfwd, replay_undecoded hop hfwd]
    | some fwd =>
      rw [replay_decoded hop hfwd, replay_decoded hop hfwd]
      exact programmed_replayForwarded fwd d
  · obtain ⟨out, hout⟩ := rendering_other hop env d.calls payload
    rw [replay_other hop hout, replay_other hop (hcalls.symm ▸ hout)]
    exact programmed_presentRendered out wl.scanoutAddr d

private theorem programmed_rendered (env : Env) (wl : VulkanWorkload) (payload : List UInt8) (d : Backend) :
    (d.programmed ctx base).rendered env wl payload = (d.rendered env wl payload).programmed ctx base := by
  have hhash : (d.programmed ctx base).payloadHash wl payload = d.payloadHash wl payload := rfl
  rw [rendered, rendered, programmed_replay, hhash]
  cases d.replay env wl payload with
  | mk presented e =>
    cases presented with
    | none => rfl
    | some presented =>
      cases d.payloadHash wl payload with
      | none => rfl
      | some hash =>
        cases presented with
        | false => rfl
        | true => rfl

private theorem programmed_submitVulkan (env : Env) (sc : SubmitCmd) (payload : List UInt8) (d : Backend) :
    (d.programmed ctx base).submitVulkan env sc payload ctx =
      (d.submitVulkan env sc payload ctx).programmed ctx base := by
  have hadmitted := programmed_ensureAdmitted ctx base env d
  by_cases hno : (d.ensureAdmitted env).1 = false ∨ acceptedWorkload sc payload = none
  · rw [submitVulkan_refused ctx hno, submitVulkan_refused ctx (by rw [hadmitted]; exact hno), hadmitted]
    rfl
  · rw [not_or, Bool.not_eq_false] at hno
    obtain ⟨wl, hwl⟩ := Option.ne_none_iff_exists'.1 hno.2
    have hcounted : (d.programmed ctx base).counted env = (d.counted env).programmed ctx base := by
      rw [counted, counted, hadmitted]
      rfl
    have helided : (d.programmed ctx base).Elided wl payload ↔ d.Elided wl payload := Iff.rfl
    rw [submitVulkan_accepted ctx hno.1 hwl, submitVulkan_accepted ctx (by rw [hadmitted]; exact hno.1) hwl, hcounted,
      programmed_rendered]
    by_cases hel : d.Elided wl payload
    · rw [if_pos hel, if_pos (helided.2 hel)]
      rfl
    · rw [if_neg hel, if_neg (mt helided.1 hel)]
      rfl

/-- The registers of the ring make no difference to a command. -/
private theorem programmed_processSubmit (env : Env) (sc : SubmitCmd) (addr : UInt64) (d : Backend) :
    (d.programmed ctx base).processSubmit env sc addr ctx =
      (d.processSubmit env sc addr ctx).programmed ctx base := by
  have hread : ∀ n, (d.programmed ctx base).dmaRead addr n = d.dmaRead addr n := fun _ => rfl
  simp only [processSubmit, hread]
  by_cases hclear : sc.encoding = Encoding.displayClear
  · rw [if_pos hclear, if_pos hclear]
    cases d.dmaRead addr ClearPresent.size with
    | none => rfl
    | some pb => exact programmed_renderClearPresent env _ _ d
  rw [if_neg hclear, if_neg hclear]
  by_cases hscanout : sc.encoding = Encoding.displayScanout
  · rw [if_pos hscanout, if_pos hscanout]
    cases d.dmaRead addr ScanoutPresent.size with
    | none => rfl
    | some pb => exact programmed_presentScanout env _ _ d
  rw [if_neg hscanout, if_neg hscanout]
  by_cases hdamage : sc.encoding = Encoding.displayScanoutDamage
  · rw [if_pos hdamage, if_pos hdamage]
    cases d.dmaRead addr (claimed sc.payloadLen ScanoutPresentDamaged.size) with
    | none => rfl
    | some pb => exact programmed_presentScanoutDamaged env _ _ d
  rw [if_neg hdamage, if_neg hdamage]
  by_cases hvulkan : sc.encoding = Encoding.vulkanVenuslike
  · rw [if_pos hvulkan, if_pos hvulkan]
    cases d.dmaRead addr (claimed sc.payloadLen VulkanWorkload.size) with
    | none => rfl
    | some pb => exact programmed_submitVulkan env sc _ d
  · rw [if_neg hvulkan, if_neg hvulkan]

/-! ### Admission -/

/-- The encodings with a handler. -/
def Known (sc : SubmitCmd) : Prop :=
  sc.encoding = Encoding.displayClear ∨ sc.encoding = Encoding.displayScanout ∨
    sc.encoding = Encoding.displayScanoutDamage ∨ sc.encoding = Encoding.vulkanVenuslike

instance (sc : SubmitCmd) : Decidable (Known sc) := by unfold Known; infer_instance

/-- How much of the body the single-descriptor transport reads. -/
def bodySize (sc : SubmitCmd) : Nat :=
  if sc.encoding = Encoding.displayClear then
    ClearPresent.size
  else if sc.encoding = Encoding.displayScanout then
    ScanoutPresent.size
  else if sc.encoding = Encoding.displayScanoutDamage then
    claimed sc.payloadLen ScanoutPresentDamaged.size
  else
    claimed sc.payloadLen VulkanWorkload.size

variable {addr : UInt64} {body : List UInt8}

private theorem processSubmit_unread (h : Known sc → d.dmaRead addr (bodySize sc) = none) :
    d.processSubmit env sc addr ctx = d := by
  unfold processSubmit
  unfold Known bodySize at h
  split
  · rename_i hclear
    rw [if_pos hclear] at h
    rw [h (.inl hclear)]
  rename_i hclear
  rw [if_neg hclear] at h
  split
  · rename_i hscanout
    rw [if_pos hscanout] at h
    rw [h (.inr (.inl hscanout))]
  rename_i hscanout
  rw [if_neg hscanout] at h
  split
  · rename_i hdamage
    rw [if_pos hdamage] at h
    rw [h (.inr (.inr (.inl hdamage)))]
  rename_i hdamage
  rw [if_neg hdamage] at h
  split
  · rename_i hvulkan
    rw [h (.inr (.inr (.inr hvulkan)))]
  · rfl

private theorem ensureAdmitted_again (hadm : (d.ensureAdmitted env).1 = true) :
    (d.ensureAdmitted env).2.ensureAdmitted env = (true, (d.ensureAdmitted env).2) :=
  ensureAdmitted_of_ticket (ensureAdmitted_ticket hadm)

/-- The handlers ask for admission themselves. -/
private theorem processSubmit_admitted (hadm : (d.ensureAdmitted env).1 = true) (hknown : Known sc)
    (hread : (d.dmaRead addr (bodySize sc)).isSome) :
    (d.ensureAdmitted env).2.processSubmit env sc addr ctx = d.processSubmit env sc addr ctx := by
  have hagain := ensureAdmitted_again hadm
  have hquiet := ensureAdmitted_quiet env d
  have hinvalid : d.invalidateElision.ensureAdmitted env = (true, (d.ensureAdmitted env).2.invalidateElision) := by
    refine (ensureAdmitted_with env d d.mem d.ringBase d.ringIndex ∅).trans ?_
    rw [hadm, ← hquiet.mem, ← hquiet.ringBase, ← hquiet.ringIndex]
    rfl
  have hinvalid' : (d.ensureAdmitted env).2.invalidateElision.ensureAdmitted env =
      (true, (d.ensureAdmitted env).2.invalidateElision) :=
    ensureAdmitted_of_ticket (ensureAdmitted_ticket hadm)
  rw [Option.isSome_iff_exists] at hread
  obtain ⟨pb, hpb⟩ := hread
  have hpb' : (d.ensureAdmitted env).2.dmaRead addr (bodySize sc) = some pb := by rw [hquiet.dmaRead, hpb]
  unfold bodySize at hpb hpb'
  unfold processSubmit
  split
  · rename_i hclear
    rw [if_pos hclear] at hpb hpb'
    simp only [hpb, hpb', renderClearPresent, hinvalid, hinvalid']
  rename_i hclear
  rw [if_neg hclear] at hpb hpb'
  split
  · rename_i hscanout
    rw [if_pos hscanout] at hpb hpb'
    simp only [hpb, hpb', presentScanout, hagain, hadm]
  rename_i hscanout
  rw [if_neg hscanout] at hpb hpb'
  split
  · rename_i hdamage
    rw [if_pos hdamage] at hpb hpb'
    simp only [hpb, hpb', presentScanoutDamaged, hinvalid, hinvalid']
  rename_i hdamage
  rw [if_neg hdamage] at hpb hpb'
  split
  · simp only [hpb, hpb', submitVulkan, hagain, hadm]
  · rename_i hvulkan
    exact absurd hknown (by rw [Known, not_or, not_or, not_or]; exact ⟨hclear, hscanout, hdamage, hvulkan⟩)

/-! ### What is handed to the handlers -/

private theorem zeroFilled_of_le {size : Nat} {bs : List UInt8} (h : size ≤ bs.length) : zeroFilled size bs = bs := by
  rw [zeroFilled, Nat.sub_eq_zero_of_le h, List.replicate_zero, List.append_nil]

/-- A bare workload header is no draw. -/
private theorem forwardedDraw_header (wl : VulkanWorkload) (h : payload.length = VulkanWorkload.size) :
    forwardedDraw wl payload = none := by
  have hrest : payload.drop VulkanWorkload.size = [] := List.drop_of_length_le h.le
  have hlong : ¬ payload.length < VulkanWorkload.size := by rw [h]; exact lt_irrefl _
  unfold forwardedDraw
  by_cases hop : wl.op = VkOp.forwardedCmdlist
  · rw [if_pos hop, decodeForwardedCmdlist, if_neg hlong, hrest]
    rfl
  · rw [if_neg hop, decodeForwarded, if_neg hlong, hrest]
    rfl

private theorem acceptedWorkload_take (sc : SubmitCmd) (h : VulkanWorkload.size ≤ body.length) :
    acceptedWorkload sc (body.take VulkanWorkload.size) = acceptedWorkload sc body := by
  have hlen : (body.take VulkanWorkload.size).length = VulkanWorkload.size := List.length_take_of_le h
  have hshort : ¬ (body.take VulkanWorkload.size).length < VulkanWorkload.size := by rw [hlen]; exact lt_irrefl _
  rw [acceptedWorkload, acceptedWorkload, readFromPrefix, readFromPrefix, if_neg hshort, if_neg (Nat.not_lt.2 h),
    List.take_take, Nat.min_self]
  rfl

/-- What follows a workload header does not matter when it is no draw and no hash is taken. -/
private theorem submitVulkan_take (hoff : d.elideUnchanged = false) (h : VulkanWorkload.size ≤ body.length)
    (hdraw : ∀ wl ∈ acceptedWorkload sc body, wl.Forwarded → forwardedDraw wl body = none) :
    d.submitVulkan env sc (body.take VulkanWorkload.size) ctx = d.submitVulkan env sc body ctx := by
  have hsame := acceptedWorkload_take sc h
  by_cases hno : (d.ensureAdmitted env).1 = false ∨ acceptedWorkload sc body = none
  · rw [submitVulkan_refused ctx hno, submitVulkan_refused ctx (by rw [hsame]; exact hno)]
  · rw [not_or, Bool.not_eq_false] at hno
    obtain ⟨wl, hwl⟩ := Option.ne_none_iff_exists'.1 hno.2
    have hnot : ∀ payload, ¬ d.Elided wl payload := by
      intro payload hel
      exact Bool.false_ne_true (hoff.symm.trans hel.1)
    have hoff' : (d.counted env).elideUnchanged = false := (counted_steady env d).elideUnchanged.trans hoff
    have hreplay : (d.counted env).replay env wl (body.take VulkanWorkload.size) =
        (d.counted env).replay env wl body := by
      by_cases hop : wl.Forwarded
      · rw [replay_undecoded hop (forwardedDraw_header wl (List.length_take_of_le h)),
          replay_undecoded hop (hdraw wl hwl hop)]
      · obtain ⟨out, hout⟩ := rendering_other hop env (d.counted env).calls body
        have hout' : rendering env (d.counted env).calls wl (body.take VulkanWorkload.size) = some out := by
          rw [← hout, rendering, rendering, if_neg hop, if_neg hop]
        rw [replay_other hop hout, replay_other hop hout']
    rw [submitVulkan_accepted ctx hno.1 hwl, submitVulkan_accepted ctx hno.1 (hsame.trans hwl), if_neg (hnot _),
      if_neg (hnot _), rendered_off hoff', rendered_off hoff', hreplay]

/-- The body that a descriptor carries is the one that the single-descriptor transport reads at `addr`.  For a 3D
submission it is the workload header and nothing else, or, without the elision, what follows it is no draw. -/
structure Carries (sc : SubmitCmd) (addr : UInt64) (body : List UInt8) (d : Backend) : Prop where
  length : bodySize sc ≤ body.length
  read : d.dmaRead addr (bodySize sc) = some (body.take (bodySize sc))
  workload : sc.encoding = Encoding.vulkanVenuslike →
    zeroFilled VulkanWorkload.size (body.take (bodySize sc)) = body ∨
      (d.elideUnchanged = false ∧ bodySize sc = VulkanWorkload.size ∧
        ∀ wl ∈ acceptedWorkload sc body, wl.Forwarded → forwardedDraw wl body = none)

/-- A body that is carried is handed to the same handler on both transports. -/
private theorem Carries.dispatchSubmit (h : Carries sc addr body d) :
    d.dispatchSubmit env sc body ctx = d.processSubmit env sc addr ctx := by
  have hread := h.read
  have hlen := h.length
  have hworkload := h.workload
  unfold bodySize at hread hlen hworkload
  unfold Backend.dispatchSubmit processSubmit
  split
  · rename_i hclear
    rw [if_pos hclear] at hread hlen
    simp only [hread, readFromPrefix]
    rw [if_neg (Nat.not_lt.2 hlen)]
  rename_i hclear
  rw [if_neg hclear] at hread hlen hworkload
  split
  · rename_i hscanout
    rw [if_pos hscanout] at hread hlen
    simp only [hread, readFromPrefix]
    rw [if_neg (Nat.not_lt.2 hlen)]
  rename_i hscanout
  rw [if_neg hscanout] at hread hlen hworkload
  split
  · rename_i hdamage
    rw [if_pos hdamage] at hread
    simp only [hread]
  rename_i hdamage
  rw [if_neg hdamage] at hread hlen hworkload
  split
  · rename_i hvulkan
    simp only [hread]
    rcases hworkload hvulkan with hheader | ⟨hoff, hfull, hdraw⟩
    · rw [hheader]
    · rw [hfull] at hlen ⊢
      rw [zeroFilled_of_le (List.length_take_of_le hlen).ge, submitVulkan_take hoff hlen hdraw]
  · rfl

/-- What becomes of a body that no handler is called for. -/
def Dropped (sc : SubmitCmd) (body : List UInt8) : Prop :=
  ¬ Known sc ∨ (sc.encoding = Encoding.displayClear ∨ sc.encoding = Encoding.displayScanout) ∧
    body.length < bodySize sc

private theorem dispatchSubmit_dropped (h : Dropped sc body) : d.dispatchSubmit env sc body ctx = d := by
  unfold Backend.dispatchSubmit
  rcases h with hunknown | ⟨hclear | hscanout, hshort⟩
  · rw [Known, not_or, not_or, not_or] at hunknown
    rw [if_neg hunknown.1, if_neg hunknown.2.1, if_neg hunknown.2.2.1, if_neg hunknown.2.2.2]
  · rw [bodySize, if_pos hclear] at hshort
    rw [if_pos hclear, readFromPrefix, if_pos hshort]
  · have hclear : sc.encoding ≠ Encoding.displayClear := by rw [hscanout]; decide
    rw [bodySize, if_neg hclear, if_pos hscanout] at hshort
    rw [if_neg hclear, if_pos hscanout, readFromPrefix, if_pos hshort]

/-! ### Descriptors -/

variable {desc : Descriptor} {r : RingMemory} {g : Geometry}

/-- The command that a descriptor of the shared ring carries, with its body. -/
def ringBody (ctx : Fin NUM_CONTEXTS) (desc : Descriptor) (d : Backend) : Option (SubmitCmd × List UInt8) :=
  if desc.len.toNat > MAX_PAYLOAD then
    none
  else
    (if desc.len.toNat > 0 then d.dmaRead (d.payloadAddr ctx desc) desc.len.toNat else some []).bind
      (readFromPrefix SubmitCmd.size SubmitCmd.decode)

private theorem Quiet.ringBody {d d' : Backend} (h : Quiet d d') (ctx : Fin NUM_CONTEXTS) (desc : Descriptor) :
    d'.ringBody ctx desc = d.ringBody ctx desc := by
  have haddr : d'.payloadAddr ctx desc = d.payloadAddr ctx desc := by
    rw [payloadAddr, payloadAddr, h.ringBase]
  rw [Backend.ringBody, Backend.ringBody, haddr, h.dmaRead]

/-- A descriptor that submits does what its command asks for, if it carries one. -/
private theorem executeDescriptor_submit (hmsg : desc.msgType = MsgType.submitCmd) (d : Backend) :
    d.executeDescriptor env ctx desc =
      ((d.ringBody ctx desc).map fun x => d.dispatchSubmit env x.1 x.2 ctx).getD d := by
  have hcursor : desc.msgType ≠ MsgType.cursorUpdate := by rw [hmsg]; decide
  unfold executeDescriptor ringBody
  by_cases hlong : desc.len.toNat > MAX_PAYLOAD
  · simp only [if_pos hlong, Option.map_none, Option.getD_none]
  · simp only [if_neg hlong, if_neg hcursor, if_pos hmsg]
    cases if desc.len.toNat > 0 then d.dmaRead (d.payloadAddr ctx desc) desc.len.toNat else some [] with
    | none => rfl
    | some payload =>
      simp only [Option.bind_some]
      cases readFromPrefix SubmitCmd.size SubmitCmd.decode payload with
      | none => rfl
      | some x => rfl

/-- Both transports find the command and the body that goes with it. -/
def Found (ctx : Fin NUM_CONTEXTS) (desc : Descriptor) (sc : SubmitCmd) (addr : UInt64) (d : Backend) : Prop :=
  Known sc ∧ ∃ body, d.ringBody ctx desc = some (sc, body) ∧ Carries sc addr body d

/-- Neither transport has anything to hand to a handler. -/
def Unfound (ctx : Fin NUM_CONTEXTS) (desc : Descriptor) (sc : SubmitCmd) (addr : UInt64) (d : Backend) : Prop :=
  (∀ x ∈ d.ringBody ctx desc, Dropped x.1 x.2) ∧ (Known sc → d.dmaRead addr (bodySize sc) = none)

private theorem Carries.of_quiet {d d' : Backend} (h : Carries sc addr body d) (hq : Quiet d d')
    (hoff : d'.elideUnchanged = d.elideUnchanged) : Carries sc addr body d' where
  length := h.length
  read := by rw [hq.dmaRead, h.read]
  workload henc := by
    rw [hoff]
    exact h.workload henc

/-- A descriptor does for an admitted VM what the command at the ring base does. -/
private theorem Found.executeDescriptor (h : Found ctx desc sc addr d) (hmsg : desc.msgType = MsgType.submitCmd)
    (hadm : (d.ensureAdmitted env).1 = true) :
    (d.ensureAdmitted env).2.executeDescriptor env ctx desc = d.processSubmit env sc addr ctx := by
  obtain ⟨hknown, body, hbody, hcarries⟩ := h
  have hq := ensureAdmitted_quiet env d
  have hcarries' := hcarries.of_quiet hq (ensureAdmitted_steady env d).elideUnchanged
  have hread : (d.dmaRead addr (bodySize sc)).isSome := by rw [hcarries.read]; rfl
  rw [executeDescriptor_submit hmsg, hq.ringBody, hbody]
  show (d.ensureAdmitted env).2.dispatchSubmit env sc body ctx = _
  rw [hcarries'.dispatchSubmit, processSubmit_admitted hadm hknown hread]

private theorem Unfound.executeDescriptor (h : Unfound ctx desc sc addr d) (hmsg : desc.msgType = MsgType.submitCmd) :
    (d.ensureAdmitted env).2.executeDescriptor env ctx desc = (d.ensureAdmitted env).2 := by
  rw [executeDescriptor_submit hmsg, (ensureAdmitted_quiet env d).ringBody]
  cases hbody : d.ringBody ctx desc with
  | none => rfl
  | some x => exact dispatchSubmit_dropped (h.1 x hbody)

/-! ### The doorbell -/

/-- A submission that is all there is on the shared ring. -/
structure LoneOn (ctx : Fin NUM_CONTEXTS) (d : Backend) (r : RingMemory) (g : Geometry) (desc : Descriptor) : Prop
    extends PendingOn ctx d r g desc where
  alone : ((sharedRing g r.indexPtr r.descPtr).view d.mem).pending.map .ofSlot = [desc]

private theorem LoneOn.batch (h : LoneOn ctx d r g desc) (hslots : g.slots = r.cap) :
    d.batch g r = { descriptors := [desc], highestSeqno := desc.seqno } := by
  obtain ⟨slot, hpending, hslot⟩ := List.map_eq_singleton_iff.1 h.alone
  obtain ⟨n, hn⟩ : ∃ n, batchBound g r.cap = n + 1 := by
    rw [batchBound, Geometry.capacity_toNat, ← hslots, Nat.min_self]
    exact Nat.exists_eq_succ_of_ne_zero g.slots_pos.ne'
  have htake : [slot].take (n + 1) = [slot] := List.take_of_length_le (Nat.le_add_left 1 n)
  rw [Backend.batch, popBatch, popLoop_lawful (sharedRing_lawful h.apart), hpending, hn, htake]
  show Drained.empty.push (.ofSlot slot) = _
  rw [hslot, Drained.push, Drained.empty]
  by_cases hpos : desc.seqno > 0
  · rw [if_pos hpos]
    rfl
  · have hzero : desc.seqno = 0 := eq_zero_of_le_of_not_pos (UInt64.le_refl _) hpos
    rw [if_neg hpos, hzero]
    rfl

/-- Popping a batch and admission do not interfere. -/
private theorem popped_ensureAdmitted (env : Env) (g : Geometry) (r : RingMemory) (d : Backend) :
    (d.popped g r).ensureAdmitted env = ((d.ensureAdmitted env).1, (d.ensureAdmitted env).2.popped g r) := by
  have hq := ensureAdmitted_quiet env d
  refine (ensureAdmitted_with env d _ d.ringBase d.ringIndex d.lastForwardedHash).trans ?_
  rw [popped, hq.mem, ← hq.ringBase, ← hq.ringIndex, ← (ensureAdmitted_steady env d).lastForwardedHash]

private theorem LoneOn.processRing (h : LoneOn ctx d r g desc) (hadm : (d.ensureAdmitted env).1 = true) :
    d.processRing env ctx =
      (((d.popped g r).ensureAdmitted env).2.executeDescriptor env ctx desc).retireBatch
        (sharedRing g r.indexPtr r.descPtr) ctx desc.seqno := by
  rcases drainCtx_of_ringMemory env h.ringMemory h.geometry with ⟨-, hslots, heq⟩ | ⟨hdenied, -⟩
  · rw [Backend.processRing, if_pos h.ringIndex, heq, serveRing_eq, (ensureAdmitted_quiet env d).batch,
      h.batch hslots, popped_ensureAdmitted]
    rfl
  · rw [hadm] at hdenied
    cases hdenied

/-- What a drain of the one submission reports. -/
private theorem LoneOn.reports (h : LoneOn ctx d r g desc) (hadm : (d.ensureAdmitted env).1 = true)
    (hpos : desc.seqno > 0) :
    (d.processRing env ctx).sharedRetired ctx = some desc.seqno ∧
      (d.processRing env ctx).ringRetired ctx = desc.seqno := by
  have hq := ensureAdmitted_quiet env d
  rcases drainCtx_of_ringMemory env h.ringMemory h.geometry with ⟨-, hslots, heq⟩ | ⟨hdenied, -⟩
  · have hbatch := (hq.batch g r).trans (h.batch hslots)
    have hhighest := serveRing_highest env ((hq.ringMemory ctx).trans h.ringMemory) (by rw [hbatch]; exact hpos)
    rw [hbatch] at hhighest
    rw [Backend.processRing, if_pos h.ringIndex, heq]
    exact hhighest
  · rw [hadm] at hdenied
    cases hdenied

/-- The doorbells of the two transports leave the same device `e`, up to the registers of the ring, to admission and
to what the drain reports at its end; and a seqno that the other transport reports, the drain reports too. -/
theorem transports_agree (env : Env) {desc₀ : Descriptor} (h : LoneOn ctx d r g desc)
    (hpub : CommandAt ctx ((d.popped g r).programmed ctx base) desc₀ sc) (hadm : (d.ensureAdmitted env).1 = true)
    (hsame : Found ctx desc sc (base + desc₀.dataOffset.toUInt64) (d.popped g r) ∨
      Unfound ctx desc sc (base + desc₀.dataOffset.toUInt64) (d.popped g r)) :
    ∃ (e : Backend) (word : UInt64), ((d.popped g r).programmed ctx base).processRing env ctx =
      e.programmed ctx base ∧
      d.processRing env ctx =
        (e.ensureAdmitted env).2.retireBatch (sharedRing g r.indexPtr r.descPtr) ctx word ∧
      (desc.seqno = sc.seqno → sc.seqno > 0 → e.ringRetired ctx = sc.seqno →
        (d.processRing env ctx).sharedRetired ctx = some sc.seqno ∧
          (d.processRing env ctx).ringRetired ctx = sc.seqno) := by
  have hbase : ((d.popped g r).programmed ctx base).ringBase ctx = base := Function.update_self _ _ _
  have hadm' : ((d.popped g r).ensureAdmitted env).1 = true := by rw [popped_ensureAdmitted]; exact hadm
  have hring := h.processRing hadm
  refine ⟨(d.popped g r).processSubmit env sc (base + desc₀.dataOffset.toUInt64) ctx, desc.seqno, ?_, ?_, ?_⟩
  · rw [processRing_command hpub, hbase, programmed_processSubmit]
  · rw [hring]
    rcases hsame with hfound | hunfound
    · have hexec := hfound.executeDescriptor h.msgType hadm'
      have hticket : ((d.popped g r).processSubmit env sc (base + desc₀.dataOffset.toUInt64) ctx).ticket.isSome := by
        rw [← hexec]
        exact (executeDescriptor_keeps ctx desc _).ticket (ensureAdmitted_ticket hadm')
      rw [hexec, ensureAdmitted_of_ticket hticket]
    · rw [hunfound.executeDescriptor h.msgType, processSubmit_unread hunfound.2]
  · intro heq hpos _
    have hreports := h.reports hadm (heq ▸ hpos)
    rw [heq] at hreports
    exact hreports

/-! ### A pixel on both transports -/

/-- A renderer whose frames are white. -/
def whiteFrames : Env :=
  { Env.white with
    renderForwardedPresent := fun _ width height _ _ =>
      .pixels (List.replicate (width.toNat * height.toNat * 4) 0xff) }

/-- A 3D submission of `len` bytes with seqno 7, behind a descriptor of the ring and behind one at guest address
`0x1080`. -/
def onBoth (len : UInt32) (body : List UInt32) : Backend :=
  twoSlotRing (.ofWords ([1, 0, 0, 0, 0, 0, 0, 0] ++ List.replicate 8 0 ++
    [0x30, 0, 40 + len, 96, 7, 0, 0, 0] ++ List.replicate 8 0 ++ [0x30, 0, 40 + len, 72, 7, 0, 0, 0] ++
    [0, Encoding.vulkanVenuslike, len, 0, 7, 0, 0, 0, 0, 0] ++ body))

/-- The descriptor of the ring, and the one at `0x1080`. -/
def submitDesc (len dataOffset : UInt32) : Descriptor :=
  { msgType := 0x30
    flags := 0
    len := 40 + len
    dataOffset
    seqno := 7
    payloadAddr := 0 }

def submitCommand (len : UInt32) : SubmitCmd := ⟨0, Encoding.vulkanVenuslike, len, 0, 7, 0, 0⟩

/-- The device of `onBoth` once its descriptor is popped, with the other transport at `0x1080`. -/
def onLegacy (len : UInt32) (body : List UInt32) : Backend :=
  ((onBoth len body).popped twoSlots twoSlotArea).programmed 0 0x1080

/-- The clear of a pixel at guest address `0x1800`. -/
def clearWords : List UInt32 := [0, 1, 1, 0, 0, 0, 0, 0, 0x1800, 0]

/-- A draw of that pixel, with a command stream behind the workload header; its shaders are bare magic numbers. -/
def drawWords : List UInt32 := [2, 1, 1, 0, 0, 0, 0, 0, 0x1800, 0, 3, 0, 4, 4, 1, 1, SPIRV_MAGIC, SPIRV_MAGIC]

theorem transports_agree_clear : ∃ (e : Backend) (word : UInt64),
    (onLegacy 40 clearWords).processRing whiteFrames 0 = e.programmed 0 0x1080 ∧
      (onBoth 40 clearWords).processRing whiteFrames 0 =
        (e.ensureAdmitted whiteFrames).2.retireBatch (sharedRing twoSlots 0 64) 0 word ∧
      ((submitDesc 40 96).seqno = (submitCommand 40).seqno → (submitCommand 40).seqno > 0 →
        e.ringRetired 0 = (submitCommand 40).seqno →
          ((onBoth 40 clearWords).processRing whiteFrames 0).sharedRetired 0 = some (submitCommand 40).seqno ∧
            ((onBoth 40 clearWords).processRing whiteFrames 0).ringRetired 0 = (submitCommand 40).seqno) := by
  have hlone : LoneOn 0 (onBoth 40 clearWords) twoSlotArea twoSlots (submitDesc 40 96) :=
    ⟨⟨by decide, by decide +kernel, rfl, .inl (by decide), by decide +kernel, rfl⟩, by decide +kernel⟩
  have hpub : CommandAt 0 (onLegacy 40 clearWords) (submitDesc 40 72) (submitCommand 40) :=
    ⟨by decide, by decide, by decide +kernel, by decide +kernel, rfl⟩
  refine transports_agree whiteFrames hlone hpub (by decide +kernel)
    (.inl ⟨by decide, clearWords.flatMap fun w => Bytes.ofValue 4 w.toNat, ?_, ?_⟩)
  · decide +kernel
  · exact ⟨by decide +kernel, by decide +kernel, fun _ => .inl (by decide +kernel)⟩

/-- The draw reaches guest memory from the ring only: the other transport ignores the command stream, and reports the
seqno all the same. -/
theorem command_stream_ignored :
    LoneOn 0 (onBoth 74 drawWords) twoSlotArea twoSlots (submitDesc 74 96) ∧
      CommandAt 0 (onLegacy 74 drawWords) (submitDesc 74 72) (submitCommand 74) ∧
      ((onBoth 74 drawWords).processRing whiteFrames 0).mem.load 0x800 4 = [0xff, 0xff, 0xff, 0xff] ∧
      ((onLegacy 74 drawWords).processRing whiteFrames 0).mem.load 0x800 4 = [0, 0, 0, 0] ∧
      ((onBoth 74 drawWords).processRing whiteFrames 0).ringRetired 0 = 7 ∧
      ((onLegacy 74 drawWords).processRing whiteFrames 0).ringRetired 0 = 7 :=
  ⟨⟨⟨by decide, by decide +kernel, rfl, .inl (by decide), by decide +kernel, rfl⟩, by decide +kernel⟩,
    ⟨by decide, by decide, by decide +kernel, by decide +kernel, rfl⟩, by decide +kernel, by decide +kernel,
    by decide +kernel, by decide +kernel⟩

end Backend

end Infinigpu
