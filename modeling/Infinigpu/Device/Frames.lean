import Infinigpu.Device.Twin

/-!
# The frames of 3D submissions (`infinigpu-device`, `submit_vulkan`)

A submission is refused, or left out, or replayed (`submitVulkan_refused`, `submitVulkan_accepted`).  A replay that
presents its frame leaves it in its buffer (`replay_true`), and to replay the payload again from there is to store the
same pixels in the same place (`replay_repeats`).
-/

namespace Infinigpu

/-- Renders are of the frame they are asked for, and one in place stores the pixels that the other path hands back. -/
structure Env.Faithful (env : Env) : Prop extends env.Sized where
  inPlace : ∀ n m w h bg fwd, (env.renderForwardedZerocopy n w h bg fwd).result = some true →
    env.renderForwardedPresent m w h bg fwd = .pixels (env.renderForwardedZerocopy n w h bg fwd).written

theorem frameBytes_le_aligned (wl : VulkanWorkload) : wl.frameBytes ≤ alignedBytes wl.width wl.height := by
  rw [VulkanWorkload.frameBytes, alignedBytes]
  omega

/-- The pixels that a render in place stores, none of them cut off. -/
theorem Env.Faithful.written {env : Env} (hfaithful : env.Faithful) {n : Nat} {wl : VulkanWorkload}
    {fwd : OwnedForwardedDraw} (h : (env.renderForwardedZerocopy n wl.width wl.height wl.bg fwd).result = some true)
    (m : Nat) :
    env.renderForwardedPresent m wl.width wl.height wl.bg fwd =
        .pixels (env.renderForwardedZerocopy n wl.width wl.height wl.bg fwd).written ∧
      (env.renderForwardedZerocopy n wl.width wl.height wl.bg fwd).written.length = wl.frameBytes ∧
      (env.renderForwardedZerocopy n wl.width wl.height wl.bg fwd).written.take (alignedBytes wl.width wl.height) =
        (env.renderForwardedZerocopy n wl.width wl.height wl.bg fwd).written := by
  have hpx := hfaithful.inPlace n m _ _ _ _ h
  have hlen := hfaithful.renderForwardedPresent _ _ _ _ _ _ hpx
  exact ⟨hpx, hlen, List.take_of_length_le (hlen ▸ frameBytes_le_aligned wl)⟩

theorem Env.Faithful.alike {env env' : Env} (h : env.Faithful) (henv : env.Alike env') : env'.Faithful where
  renderClear n w h' bg px := by
    rw [← henv.renderClear n n]
    exact h.renderClear n w h' bg px
  renderTriangle n w h' bg px := by
    rw [← henv.renderTriangle n n]
    exact h.renderTriangle n w h' bg px
  renderForwardedPresent n w h' bg fwd px := by
    rw [← henv.renderForwardedPresent n n]
    exact h.renderForwardedPresent n w h' bg fwd px
  renderForwardedZerocopy n w h' bg fwd := by
    rw [← henv.renderForwardedZerocopy n n]
    exact h.renderForwardedZerocopy n w h' bg fwd
  inPlace n m w h' bg fwd := by
    rw [← henv.renderForwardedZerocopy n n, ← henv.renderForwardedPresent m m]
    exact h.inPlace n m w h' bg fwd

/-- The workload carries shaders of the application. -/
def VulkanWorkload.Forwarded (wl : VulkanWorkload) : Prop :=
  wl.op = VkOp.forwarded ∨ wl.op = VkOp.forwardedCmdlist

instance (wl : VulkanWorkload) : Decidable wl.Forwarded := by unfold VulkanWorkload.Forwarded; infer_instance

namespace Backend

variable {env env' : Env} {d d' : Backend} {sc : SubmitCmd} {payload : List UInt8} {wl : VulkanWorkload}

/-! ### What becomes of a submission -/

/-- The workload of a submission that reaches the GPU or is left out. -/
def acceptedWorkload (sc : SubmitCmd) (payload : List UInt8) : Option VulkanWorkload :=
  if sc.payloadLen > MAX_CMD_BYTES then
    none
  else
    ((readFromPrefix VulkanWorkload.size VulkanWorkload.decode payload).map Prod.fst).filter fun wl =>
      !badRenderGeometry wl.width wl.height

theorem acceptedWorkload_decodes (h : acceptedWorkload sc payload = some wl) :
    (readFromPrefix VulkanWorkload.size VulkanWorkload.decode payload).map Prod.fst = some wl := by
  unfold acceptedWorkload at h
  split at h
  · cases h
  · exact (Option.filter_eq_some_iff.1 h).1

/-- The buffer is remembered for this very payload. -/
def Elided (wl : VulkanWorkload) (payload : List UInt8) (d : Backend) : Prop :=
  d.elideUnchanged = true ∧ wl.scanoutAddr ≠ 0 ∧ d.lastForwardedHash.lookup wl.scanoutAddr = some (fnv1a64 payload)

instance (wl : VulkanWorkload) (payload : List UInt8) (d : Backend) : Decidable (d.Elided wl payload) := by
  unfold Elided; infer_instance

/-- The device once a submission is counted. -/
def counted (env : Env) (d : Backend) : Backend :=
  { (d.ensureAdmitted env).2 with vulkanSubmits := (d.ensureAdmitted env).2.vulkanSubmits + 1 }

/-- A replay, with the frame remembered if it was presented. -/
def rendered (env : Env) (wl : VulkanWorkload) (payload : List UInt8) (d : Backend) : Backend :=
  match d.replay env wl payload with
  | (none, e) => e
  | (some presented, e) => e.rememberFrame (d.payloadHash wl payload) wl.scanoutAddr presented

theorem counted_steady (env : Env) (d : Backend) : Steady d (d.counted env) :=
  (ensureAdmitted_steady env d).trans (.of_eq rfl rfl rfl rfl (.refl _))

theorem counted_alike (h : Alike d d') (env env' : Env) :
    Alike (d.counted env) (d'.counted env') := { (h.ensureAdmitted env env').2 with }

theorem counted_quiet (env : Env) (d : Backend) : Quiet d (d.counted env) :=
  (ensureAdmitted_quiet env d).trans ⟨⟨rfl, rfl, rfl, rfl, id⟩, rfl, rfl, rfl, rfl, rfl⟩

theorem payloadHash_eq (wl : VulkanWorkload) (payload : List UInt8) (d : Backend) :
    d.payloadHash wl payload =
      if d.elideUnchanged = true ∧ wl.scanoutAddr ≠ 0 then some (fnv1a64 payload) else none := by
  unfold payloadHash
  simp only [Bool.and_eq_true, bne_iff_ne]

/-- Without the elision nothing is remembered. -/
theorem rendered_off (hoff : d.elideUnchanged = false) :
    d.rendered env wl payload = (d.replay env wl payload).2 := by
  have hhash : d.payloadHash wl payload = none := by
    rw [payloadHash_eq, if_neg (by rw [hoff]; exact fun h => Bool.false_ne_true h.1)]
  rw [rendered, hhash]
  cases d.replay env wl payload with
  | mk presented e =>
    cases presented with
    | none => rfl
    | some presented => rfl

/-- What a replay that is not left out remembers. -/
theorem rendered_cases (env : Env) (wl : VulkanWorkload) (payload : List UInt8) (d : Backend) :
    d.rendered env wl payload = (d.replay env wl payload).2 ∨
      (d.elideUnchanged = true ∧ wl.scanoutAddr ≠ 0 ∧ (d.replay env wl payload).1 = some true ∧
        ∃ cache : AList fun _ : UInt64 => UInt64,
          (cache = ∅ ∨ cache = d.lastForwardedHash) ∧
          d.rendered env wl payload = { (d.replay env wl payload).2 with
            lastForwardedHash := cache.insert wl.scanoutAddr (fnv1a64 payload) }) := by
  have hlatches := replay_latches env wl payload d
  rw [rendered, payloadHash_eq]
  cases hreplay : d.replay env wl payload with
  | mk presented e =>
    rw [hreplay] at hlatches
    cases presented with
    | none => exact .inl rfl
    | some presented =>
      by_cases helide : d.elideUnchanged = true ∧ wl.scanoutAddr ≠ 0
      · rw [if_pos helide]
        cases presented with
        | false => exact .inl rfl
        | true =>
          refine .inr ⟨helide.1, helide.2, rfl, if e.lastForwardedHash.entries.length ≥ 8 then ∅ else
            e.lastForwardedHash, ?_, rfl⟩
          rw [← hlatches.lastForwardedHash]
          split
          · exact .inl rfl
          · exact .inr rfl
      · rw [if_neg helide]
        exact .inl rfl

private theorem elided_iff : d.Elided wl payload ↔
    ((d.payloadHash wl payload).isSome && d.lastForwardedHash.lookup wl.scanoutAddr == d.payloadHash wl payload) =
      true := by
  rw [payloadHash_eq]
  by_cases h : d.elideUnchanged = true ∧ wl.scanoutAddr ≠ 0
  · rw [if_pos h]
    simp [Elided, h.1, h.2]
  · rw [if_neg h]
    refine iff_of_false (fun hel => h ⟨hel.1, hel.2.1⟩) ?_
    simp

private theorem elided_counted (env : Env) : (d.counted env).Elided wl payload ↔ d.Elided wl payload := by
  have h := counted_steady env d
  rw [Elided, Elided, h.elideUnchanged, h.lastForwardedHash]

theorem submitVulkan_refused (ctx : Fin NUM_CONTEXTS)
    (h : (d.ensureAdmitted env).1 = false ∨ acceptedWorkload sc payload = none) :
    d.submitVulkan env sc payload ctx = (d.ensureAdmitted env).2.retire ctx sc.seqno := by
  by_cases hadm : (d.ensureAdmitted env).1 = true
  · have hnone := h.resolve_left (by rw [hadm]; decide)
    simp only [submitVulkan, hadm]
    rw [if_neg (by decide)]
    unfold acceptedWorkload at hnone
    by_cases hlen : sc.payloadLen > MAX_CMD_BYTES
    · rw [if_pos hlen]
    · rw [if_neg hlen] at hnone ⊢
      cases hread : readFromPrefix VulkanWorkload.size VulkanWorkload.decode payload with
      | none => rfl
      | some r =>
        rw [hread, Option.map_some, Option.filter_eq_none_iff] at hnone
        have hbad := hnone r.1 rfl
        simp only [Bool.not_eq_true, Bool.not_eq_false'] at hbad
        simp only [hbad, if_true]
  · rw [Bool.not_eq_true] at hadm
    simp only [submitVulkan, hadm]
    rw [if_pos (by decide)]

/-- A submission that is accepted comes down to the elision or the replay. -/
theorem submitVulkan_accepted (ctx : Fin NUM_CONTEXTS) (hadm : (d.ensureAdmitted env).1 = true)
    (hwl : acceptedWorkload sc payload = some wl) :
    d.submitVulkan env sc payload ctx =
      (if d.Elided wl payload then { d.counted env with framesElided := (d.counted env).framesElided + 1 }
        else (d.counted env).rendered env wl payload).retire ctx sc.seqno := by
  unfold acceptedWorkload at hwl
  by_cases hlen : sc.payloadLen > MAX_CMD_BYTES
  · rw [if_pos hlen] at hwl
    cases hwl
  · rw [if_neg hlen, Option.filter_eq_some_iff] at hwl
    obtain ⟨hmap, hgood⟩ := hwl
    obtain ⟨r, hread, rfl⟩ := Option.map_eq_some_iff.1 hmap
    rw [Bool.not_eq_true'] at hgood
    simp only [submitVulkan, hadm, hread, hgood]
    rw [if_neg (by decide), if_neg hlen, if_neg (by decide)]
    by_cases hel : d.Elided r.1 payload
    · have htest := elided_iff.1 ((elided_counted env).2 hel)
      rw [if_pos hel]
      exact if_pos htest
    · have htest := mt elided_iff.2 fun h => hel ((elided_counted env).1 h)
      rw [if_neg hel]
      refine (if_neg htest).trans ?_
      cases hreplay : (d.counted env).replay env r.1 payload with
      | mk presented e =>
        simp only [rendered, hreplay]
        simp only [counted] at hreplay
        simp only [hreplay]
        cases presented with
        | none => rfl
        | some presented => rfl

/-! ### The pixels of a workload -/

def forwardedDraw (wl : VulkanWorkload) (payload : List UInt8) : Option OwnedForwardedDraw :=
  if wl.op = VkOp.forwardedCmdlist then
    decodeForwardedCmdlist payload MAX_CMD_BYTES.toNat
  else
    decodeForwarded payload MAX_CMD_BYTES.toNat

/-- What the default path renders for a payload; `none` is one it cannot decode. -/
def rendering (env : Env) (n : Nat) (wl : VulkanWorkload) (payload : List UInt8) : Option Rendered :=
  if wl.Forwarded then
    (forwardedDraw wl payload).map fun fwd => env.renderForwardedPresent n wl.width wl.height wl.bg fwd
  else if wl.op = VkOp.triangle then
    some (env.renderTriangle n wl.width wl.height wl.bg)
  else
    some (env.renderClear n wl.width wl.height wl.bg)

theorem rendering_same (henv : env.SameRenders env') (n m : Nat) (wl : VulkanWorkload) (payload : List UInt8) :
    rendering env n wl payload = rendering env' m wl payload := by
  rw [rendering, rendering, henv.renderForwardedPresent n m, henv.renderTriangle n m, henv.renderClear n m]

theorem rendering_length (henv : env.Sized) {n : Nat} {px : List UInt8}
    (h : rendering env n wl payload = some (.pixels px)) : px.length = wl.frameBytes := by
  unfold rendering at h
  split at h
  · obtain ⟨fwd, -, hpx⟩ := Option.map_eq_some_iff.1 h
    exact henv.renderForwardedPresent _ _ _ _ _ _ hpx
  · split at h
    · exact henv.renderTriangle _ _ _ _ _ (Option.some_inj.1 h)
    · exact henv.renderClear _ _ _ _ _ (Option.some_inj.1 h)

/-- A frame that was presented is in its buffer. -/
structure Presents (wl : VulkanWorkload) (px : List UInt8) (d d' : Backend) : Prop where
  dma : d'.dma = d.dma
  mem : ∃ p, d.dma.resolve wl.scanoutAddr px.length = some p ∧ d'.mem = d.mem.store p px

private theorem presentRendered_true {out : Rendered} (haddr : wl.scanoutAddr ≠ 0)
    (h : d.presentRendered env out wl.scanoutAddr = (some true, d')) :
    ∃ px, out = .pixels px ∧ Presents wl px d d' := by
  have halike := Alike.of_runTimed env out.outcome d
  simp only [presentRendered] at h
  cases hrun : d.runTimed env out.outcome with
  | mk r e =>
    rw [hrun] at halike
    simp only [hrun] at h
    cases r with
    | error _ => simp at h
    | ok frame =>
      have hout := runTimed_ok hrun
      cases frame with
      | none => simp at h
      | some px =>
        have hpx : out = .pixels px := by
          cases out with
          | panicked => cases hout
          | failed => cases hout
          | pixels px' =>
            cases hout
            rfl
        simp only at h
        rw [if_neg haddr] at h
        refine ⟨px, hpx, ?_⟩
        unfold dmaWrite DmaTable.write at h
        cases hp : e.dma.resolve wl.scanoutAddr px.length with
        | none => simp [hp] at h
        | some p =>
          simp only [hp] at h
          cases h
          exact ⟨halike.dma.symm, p, by rw [halike.dma, hp], by rw [halike.mem]⟩

/-- Rendering the payload again leaves the same frame in the same buffer. -/
structure Repeatable (env : Env) (wl : VulkanWorkload) (payload px : List UInt8) (d : Backend) : Prop where
  rendering : ∀ n, rendering env n wl payload = some (.pixels px)
  resolves : (d.dma.resolve wl.scanoutAddr px.length).isSome
  /-- Where the frame is rendered in place, that succeeds. -/
  inPlace : ∀ n fwd, wl.Forwarded → forwardedDraw wl payload = some fwd → (d.zerocopyTarget env wl fwd).isSome →
    (env.renderForwardedZerocopy n wl.width wl.height wl.bg fwd).result = some true

theorem zerocopyTarget_dma {wl : VulkanWorkload} {fwd : OwnedForwardedDraw} {ptr : Nat}
    (h : d.zerocopyTarget env wl fwd = some ptr) :
    d.zerocopyScanout = true ∧ d.dma.resolve wl.scanoutAddr (alignedBytes wl.width wl.height) = some ptr := by
  unfold zerocopyTarget at h
  split at h
  · rename_i hon
    simp only [Bool.and_eq_true] at hon
    exact ⟨hon.1.1.1, h⟩
  · cases h

theorem zerocopyTarget_addr {wl : VulkanWorkload} {fwd : OwnedForwardedDraw} {ptr : Nat}
    (h : d.zerocopyTarget env wl fwd = some ptr) : wl.scanoutAddr ≠ 0 := by
  unfold zerocopyTarget at h
  split at h
  · rename_i hon
    simp only [Bool.and_eq_true, bne_iff_ne] at hon
    exact hon.1.1.2
  · cases h

/-- A render in place that succeeds leaves the frame in its buffer. -/
private theorem renderZerocopy_true (hfaithful : env.Faithful) {fwd : OwnedForwardedDraw} {ptr : Nat}
    (hptr : d.dma.resolve wl.scanoutAddr (alignedBytes wl.width wl.height) = some ptr)
    (h : d.renderZerocopy env wl fwd ptr = (some true, d')) :
    (env.renderForwardedZerocopy d.calls wl.width wl.height wl.bg fwd).result = some true ∧
      ∃ px, (∀ n, env.renderForwardedPresent n wl.width wl.height wl.bg fwd = .pixels px) ∧
        Presents wl px d d' := by
  have halike := Alike.of_runTimed env (env.renderForwardedZerocopy d.calls wl.width wl.height wl.bg fwd).result d
  simp only [renderZerocopy] at h
  cases hrun : d.runTimed env (env.renderForwardedZerocopy d.calls wl.width wl.height wl.bg fwd).result with
  | mk r e =>
    rw [hrun] at halike
    simp only [hrun] at h
    cases r with
    | error err => cases err <;> simp at h
    | ok ok =>
      have hout := runTimed_ok hrun
      simp only [Prod.mk.injEq, Option.some_inj] at h
      obtain ⟨rfl, rfl⟩ := h
      obtain ⟨-, hlen, htake⟩ := hfaithful.written hout 0
      refine ⟨hout, _, fun n => (hfaithful.written hout n).1, halike.dma.symm, ptr,
        DmaTable.resolve_le hptr (hlen ▸ frameBytes_le_aligned wl), ?_⟩
      show e.mem.store ptr _ = _
      rw [htake, halike.mem]

theorem replay_undecoded (hop : wl.Forwarded) (h : forwardedDraw wl payload = none) :
    d.replay env wl payload = (none, d) := by
  unfold forwardedDraw at h
  simp only [replay, h]
  exact if_pos hop

theorem replay_decoded {fwd : OwnedForwardedDraw} (hop : wl.Forwarded) (h : forwardedDraw wl payload = some fwd) :
    d.replay env wl payload = d.replayForwarded env wl fwd := by
  unfold forwardedDraw at h
  simp only [replay, h]
  exact if_pos hop

theorem replay_other {out : Rendered} (hop : ¬ wl.Forwarded) (h : rendering env d.calls wl payload = some out) :
    d.replay env wl payload = d.presentRendered env out wl.scanoutAddr := by
  rw [rendering, if_neg hop] at h
  simp only [replay]
  refine (if_neg hop).trans ?_
  by_cases htriangle : wl.op = VkOp.triangle
  · rw [if_pos htriangle, Option.some_inj] at h
    rw [if_pos htriangle, h]
  · rw [if_neg htriangle, Option.some_inj] at h
    rw [if_neg htriangle, h]

theorem rendering_other (hop : ¬ wl.Forwarded) (env : Env) (n : Nat) (payload : List UInt8) :
    ∃ out, rendering env n wl payload = some out := by
  rw [rendering, if_neg hop]
  split
  · exact ⟨_, rfl⟩
  · exact ⟨_, rfl⟩

private theorem rendering_forwarded {fwd : OwnedForwardedDraw} (hop : wl.Forwarded)
    (h : forwardedDraw wl payload = some fwd) (env : Env) (n : Nat) :
    rendering env n wl payload = some (env.renderForwardedPresent n wl.width wl.height wl.bg fwd) := by
  rw [rendering, if_pos hop, h, Option.map_some]

private theorem Presents.dmaRead {px : List UInt8} (h : Presents wl px d d') :
    d'.dmaRead wl.scanoutAddr px.length = some px := by
  obtain ⟨p, hp, hmem⟩ := h.mem
  rw [Backend.dmaRead, DmaTable.read, h.dma, hp, Option.map_some, hmem, Memory.load_store_same]

private theorem zerocopyTarget_alike (henv : env.Alike env) (hdma : d'.dma = d.dma)
    (hzero : d'.zerocopyScanout = true → d.zerocopyScanout = true) {fwd : OwnedForwardedDraw}
    (h : (d'.zerocopyTarget env wl fwd).isSome) : d'.zerocopyTarget env wl fwd = d.zerocopyTarget env wl fwd := by
  obtain ⟨ptr, hptr⟩ := Option.isSome_iff_exists.1 h
  have hon := (zerocopyTarget_dma hptr).1
  rw [zerocopyTarget, zerocopyTarget, hdma, hon, hzero hon, henv.supportsZerocopy d'.calls d.calls]

private theorem renderOnecopy_true (henv : env.Alike env) {fwd : OwnedForwardedDraw} (haddr : wl.scanoutAddr ≠ 0)
    (h : d.renderOnecopy env wl fwd = (some true, d')) :
    ∃ px, (∀ n, env.renderForwardedPresent n wl.width wl.height wl.bg fwd = .pixels px) ∧ Presents wl px d d' := by
  obtain ⟨px, hpx, hpresents⟩ := presentRendered_true haddr h
  exact ⟨px, fun n => by rw [henv.renderForwardedPresent n d.calls, hpx], hpresents⟩

/-- What a draw that was presented has done. -/
private theorem replayForwarded_true (henv : env.Alike env) (hfaithful : env.Faithful) {fwd : OwnedForwardedDraw}
    (haddr : wl.scanoutAddr ≠ 0) (h : d.replayForwarded env wl fwd = (some true, d')) :
    ∃ px, (∀ n, env.renderForwardedPresent n wl.width wl.height wl.bg fwd = .pixels px) ∧
      d'.dmaRead wl.scanoutAddr px.length = some px ∧
      ∀ n, (d'.zerocopyTarget env wl fwd).isSome →
        (env.renderForwardedZerocopy n wl.width wl.height wl.bg fwd).result = some true := by
  have hlatches := replayForwarded_latches env wl fwd d
  have hdma : (d.replayForwarded env wl fwd).2.dma = d.dma := (replayForwarded_keeps wl fwd d).dma
  rw [h] at hlatches hdma
  have htarget : (d'.zerocopyTarget env wl fwd).isSome →
      d'.zerocopyTarget env wl fwd = d.zerocopyTarget env wl fwd :=
    zerocopyTarget_alike henv hdma hlatches.zerocopyScanout
  cases hptr : d.zerocopyTarget env wl fwd with
  | none =>
    simp only [replayForwarded, hptr] at h
    obtain ⟨px, hpx, hpresents⟩ := renderOnecopy_true henv haddr h
    refine ⟨px, hpx, hpresents.dmaRead, fun n hsome => ?_⟩
    rw [htarget hsome, hptr] at hsome
    cases hsome
  | some ptr =>
    simp only [replayForwarded, hptr] at h
    cases hrender : d.renderZerocopy env wl fwd ptr with
    | mk r e =>
      simp only [hrender] at h
      cases r with
      | none => simp at h
      | some ok =>
        cases ok with
        | true =>
          simp only [Prod.mk.injEq, true_and] at h
          subst h
          obtain ⟨hresult, px, hpx, hpresents⟩ := renderZerocopy_true hfaithful (zerocopyTarget_dma hptr).2 hrender
          exact ⟨px, hpx, hpresents.dmaRead, fun n _ => by rw [henv.renderForwardedZerocopy n d.calls, hresult]⟩
        | false =>
          obtain ⟨px, hpx, hpresents⟩ := renderOnecopy_true henv haddr h
          refine ⟨px, hpx, hpresents.dmaRead, fun n hsome => ?_⟩
          -- the option is off for good
          have hoff : d'.zerocopyScanout = false := by
            have hsteady : Steady _ (Backend.renderOnecopy env wl fwd { e with zerocopyScanout := false }).2 :=
              renderOnecopy_steady wl fwd _
            rw [show Backend.renderOnecopy env wl fwd { e with zerocopyScanout := false } = (some true, d') from h]
              at hsteady
            exact hsteady.zerocopyScanout
          obtain ⟨q, hq⟩ := Option.isSome_iff_exists.1 hsome
          rw [(zerocopyTarget_dma hq).1] at hoff
          cases hoff

/-- What a submission that is remembered has done. -/
theorem replay_true (henv : env.Alike env) (hfaithful : env.Faithful) (haddr : wl.scanoutAddr ≠ 0)
    (h : d.replay env wl payload = (some true, d')) :
    ∃ px, d'.dmaRead wl.scanoutAddr px.length = some px ∧ Repeatable env wl payload px d' := by
  have hresolves : ∀ {px : List UInt8}, d'.dmaRead wl.scanoutAddr px.length = some px →
      (d'.dma.resolve wl.scanoutAddr px.length).isSome := by
    intro px hread
    obtain ⟨p, hp, -⟩ := Option.map_eq_some_iff.1 hread
    rw [hp]; rfl
  by_cases hop : wl.Forwarded
  · cases hfwd : forwardedDraw wl payload with
    | none =>
      rw [replay_undecoded hop hfwd] at h
      simp at h
    | some fwd =>
      rw [replay_decoded hop hfwd] at h
      obtain ⟨px, hpx, hread, hplace⟩ := replayForwarded_true henv hfaithful haddr h
      refine ⟨px, hread, fun n => ?_, hresolves hread, fun n fwd' _ hfwd' hsome => ?_⟩
      · rw [rendering_forwarded hop hfwd, hpx]
      · rw [hfwd, Option.some_inj] at hfwd'
        subst hfwd'
        exact hplace n hsome
  · obtain ⟨out, hout⟩ := rendering_other hop env d.calls payload
    rw [replay_other hop hout] at h
    obtain ⟨px, rfl, hpresents⟩ := presentRendered_true haddr h
    have hread := hpresents.dmaRead
    exact ⟨px, hread, fun n => by rw [rendering_same henv.toSameRenders n d.calls, hout], hresolves hread,
      fun n fwd hforwarded => absurd hforwarded hop⟩

/-! ### Rendering a frame again -/

/-- A run of an admitted VM ends as its closure does. -/
theorem runTimed_registered {α : Type*} (env : Env) (r : α) (hticket : d.ticket.isSome) (hreg : d.Registered) :
    (d.runTimed env (some r)).1 = .ok r := by
  obtain ⟨t, ht⟩ := Option.isSome_iff_exists.1 hticket
  have hsome := hreg t ht
  have hnone : (d.broker.vms.lookup t.vmId).isNone = false := by rw [← Option.not_isSome, hsome]; rfl
  simp only [runTimed, ht, hnone, Bool.false_eq_true, if_false]

/-- The same pixels in the same place, and nothing else. -/
structure Repeats (wl : VulkanWorkload) (px : List UInt8) (d : Backend) (r : Option Bool × Backend) : Prop where
  presented : r.1 = some true
  alike : ∃ p, d.dma.resolve wl.scanoutAddr px.length = some p ∧ Alike { d with mem := d.mem.store p px } r.2
  zerocopyScanout : r.2.zerocopyScanout = d.zerocopyScanout

theorem presentRendered_repeats {px : List UInt8} (hticket : d.ticket.isSome) (hreg : d.Registered)
    (haddr : wl.scanoutAddr ≠ 0) (hresolves : (d.dma.resolve wl.scanoutAddr px.length).isSome) :
    Repeats wl px d (d.presentRendered env (.pixels px) wl.scanoutAddr) := by
  obtain ⟨p, hp⟩ := Option.isSome_iff_exists.1 hresolves
  have hresult := runTimed_registered env (some px) hticket hreg
  have halike := Alike.of_runTimed env (some (some px)) d
  have hsteady : Steady d (d.presentRendered env (.pixels px) wl.scanoutAddr).2 := presentRendered_steady _ _ d
  cases hrun : d.runTimed env (some (some px)) with
  | mk r e =>
    rw [hrun] at hresult halike
    subst hresult
    have hpe : e.dma.resolve wl.scanoutAddr px.length = some p := by rw [← halike.dma, hp]
    have heq : d.presentRendered env (.pixels px) wl.scanoutAddr =
        (some true, { e with mem := e.mem.store p px }) := by
      simp only [presentRendered, Rendered.outcome, hrun]
      rw [if_neg haddr]
      simp only [Backend.dmaWrite, DmaTable.write, hpe]
    rw [heq] at hsteady ⊢
    refine ⟨rfl, ⟨p, hp, ?_⟩, hsteady.zerocopyScanout⟩
    exact { halike with mem := by simp only [halike.mem] }

theorem renderZerocopy_repeats (hfaithful : env.Faithful) {fwd : OwnedForwardedDraw} {ptr : Nat} {px : List UInt8}
    (hticket : d.ticket.isSome) (hreg : d.Registered)
    (hptr : d.dma.resolve wl.scanoutAddr (alignedBytes wl.width wl.height) = some ptr)
    (hresult : (env.renderForwardedZerocopy d.calls wl.width wl.height wl.bg fwd).result = some true)
    (hpx : env.renderForwardedPresent d.calls wl.width wl.height wl.bg fwd = .pixels px) :
    Repeats wl px d (d.renderZerocopy env wl fwd ptr) := by
  obtain ⟨hwritten, hlen, htake⟩ := hfaithful.written hresult d.calls
  rw [hpx, Rendered.pixels.injEq] at hwritten
  subst hwritten
  have hrun := runTimed_registered env true hticket hreg
  have halike := Alike.of_runTimed env (some true) d
  have hsteady := renderZerocopy_steady env wl fwd ptr d
  have heq : d.renderZerocopy env wl fwd ptr = (some true, { (d.runTimed env (some true)).2 with
      mem := (d.runTimed env (some true)).2.mem.store ptr
        (env.renderForwardedZerocopy d.calls wl.width wl.height wl.bg fwd).written }) := by
    cases hrun' : d.runTimed env (some true) with
    | mk r e =>
      rw [hrun'] at hrun
      subst hrun
      simp only [renderZerocopy, hresult, hrun', htake]
  rw [heq] at hsteady ⊢
  refine ⟨rfl, ⟨ptr, DmaTable.resolve_le hptr (hlen ▸ frameBytes_le_aligned wl), ?_⟩, hsteady.zerocopyScanout⟩
  exact { halike with mem := by simp only [halike.mem] }

/-- A frame that is rendered in place is not copied as well. -/
theorem replayForwarded_rendered {fwd : OwnedForwardedDraw} {ptr : Nat}
    (hptr : d.zerocopyTarget env wl fwd = some ptr) (h : (d.renderZerocopy env wl fwd ptr).1 = some true) :
    d.replayForwarded env wl fwd = d.renderZerocopy env wl fwd ptr := by
  cases hrender : d.renderZerocopy env wl fwd ptr with
  | mk r e =>
    rw [hrender] at h
    subst h
    simp only [replayForwarded, hptr, hrender]

theorem replay_repeats {px : List UInt8} (hfaithful : env.Faithful) (hticket : d.ticket.isSome) (hreg : d.Registered)
    (haddr : wl.scanoutAddr ≠ 0) (h : Repeatable env wl payload px d) :
    Repeats wl px d (d.replay env wl payload) := by
  have hrendering := h.rendering d.calls
  by_cases hop : wl.Forwarded
  · cases hfwd : forwardedDraw wl payload with
    | none =>
      rw [rendering, if_pos hop, hfwd] at hrendering
      cases hrendering
    | some fwd =>
      rw [rendering_forwarded hop hfwd, Option.some_inj] at hrendering
      rw [replay_decoded hop hfwd]
      cases hptr : d.zerocopyTarget env wl fwd with
      | none =>
        simp only [replayForwarded, hptr, renderOnecopy, hrendering]
        exact presentRendered_repeats hticket hreg haddr h.resolves
      | some ptr =>
        have hresult := h.inPlace d.calls fwd hop hfwd (by rw [hptr]; rfl)
        have hrepeats := renderZerocopy_repeats hfaithful hticket hreg (zerocopyTarget_dma hptr).2 hresult hrendering
        rw [replayForwarded_rendered hptr hrepeats.presented]
        exact hrepeats
  · rw [replay_other hop hrendering]
    exact presentRendered_repeats hticket hreg haddr h.resolves

theorem Repeatable.alike {px : List UInt8} (h : Repeatable env wl payload px d) (henv : env.Alike env')
    (hself : env'.Alike env') (hdma : d'.dma = d.dma)
    (hzero : d'.zerocopyScanout = true → d.zerocopyScanout = true) : Repeatable env' wl payload px d' := by
  refine ⟨fun n => ?_, by rw [hdma]; exact h.resolves, fun n fwd hop hfwd hsome => ?_⟩
  · rw [← rendering_same henv.toSameRenders n n]
    exact h.rendering n
  · rw [← henv.renderForwardedZerocopy n n]
    refine h.inPlace n fwd hop hfwd ?_
    rw [zerocopyTarget_alike hself hdma hzero hsome] at hsome
    rw [zerocopyTarget, henv.supportsZerocopy d.calls d.calls]
    exact hsome

end Backend

end Infinigpu
