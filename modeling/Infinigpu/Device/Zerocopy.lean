import Infinigpu.Device.Frames
import Infinigpu.Lib.Lts

/-!
# Rendering in place (`infinigpu-device`, `submit_vulkan`; `infinigpu-replay`, `render_forwarded_zerocopy`)

Two devices are given the same commands, one that renders forwarded draws straight into guest memory and one that
copies every frame (`Zerocopy`).  Guest memory and the retired seqnos of the two stay the same as long as a render in
place that fails leaves the buffer as the copying path leaves it (`Zerocopy.zerocopy_agrees`).  Every import that is
rendered into was made since the mappings last changed, whatever fails (`Zerocopy.Sound`).
-/

namespace Infinigpu

/-! ### Imports of guest memory -/

def MAX_CACHED_SCRATCH : Nat := 8

/-- A buffer of the GPU that aliases `size` bytes of memory at `ptr`. -/
structure ImportedGuest where
  ptr : Nat
  size : Nat
  /-- How often the mappings had been changed when it was made. -/
  remaps : Nat
deriving DecidableEq, Repr

/-- Whether the steps of a render in place that come before the render succeed, where they are reached. -/
structure Setup where
  pipeline : Bool
  imports : Bool

/-- The imports, by pointer and size. -/
structure HostGpu where
  guestImports : AList fun _ : Nat × Nat => ImportedGuest

namespace HostGpu

def new : HostGpu where
  guestImports := ∅

/-- `out` is how the render ends once there is a buffer to copy to; with the outcome comes the buffer it was. -/
def renderForwardedZerocopy (setup : Setup) (out : Imported) (draw : OwnedForwardedDraw) (guestPtr size remaps : Nat)
    (gpu : HostGpu) : Imported × Option ImportedGuest × HostGpu :=
  let failed : Imported := { result := some false, written := [] }
  if draw.geometry.isSome then
    (failed, none, gpu)
  else if !setup.pipeline then
    (failed, none, gpu)
  else
    match gpu.guestImports.lookup (guestPtr, size) with
    | some ig => (out, some ig, gpu)
    | none =>
      let imports := if gpu.guestImports.entries.length ≥ MAX_CACHED_SCRATCH then ∅ else gpu.guestImports
      if setup.imports then
        let ig : ImportedGuest := { ptr := guestPtr, size, remaps }
        (out, some ig, { guestImports := imports.insert (guestPtr, size) ig })
      else
        (failed, none, { guestImports := imports })

def forgetAllGuestImports (_ : HostGpu) : HostGpu := { guestImports := ∅ }

/-- Every import aliases the memory it is found under, and was made under the present mappings. -/
def Current (remaps : Nat) (gpu : HostGpu) : Prop :=
  ∀ ptr size ig, gpu.guestImports.lookup (ptr, size) = some ig → ig = { ptr, size, remaps }

private theorem current_empty {gpu : HostGpu} (remaps : Nat) (h : gpu.guestImports = ∅) : gpu.Current remaps := by
  intro ptr size ig hlookup
  rw [h, AList.lookup_empty] at hlookup
  cases hlookup

/-- A render in place goes where it was asked to go, into an import made under the present mappings. -/
private theorem renderForwardedZerocopy_current (setup : Setup) (out : Imported) (draw : OwnedForwardedDraw)
    (ptr size : Nat) {remaps : Nat} {gpu : HostGpu} (h : gpu.Current remaps) :
    (∀ ig ∈ (gpu.renderForwardedZerocopy setup out draw ptr size remaps).2.1, ig = { ptr, size, remaps }) ∧
      (gpu.renderForwardedZerocopy setup out draw ptr size remaps).2.2.Current remaps := by
  simp only [renderForwardedZerocopy]
  split
  · exact ⟨nofun, h⟩
  · split
    · exact ⟨nofun, h⟩
    · cases hlookup : gpu.guestImports.lookup (ptr, size) with
      | some ig =>
        refine ⟨fun ig' hig' => ?_, h⟩
        cases hig'
        exact h ptr size ig hlookup
      | none =>
        have hevicted : HostGpu.Current remaps { guestImports :=
            if gpu.guestImports.entries.length ≥ MAX_CACHED_SCRATCH then ∅ else gpu.guestImports } := by
          split
          · exact current_empty remaps rfl
          · exact h
        simp only
        split
        · refine ⟨fun ig' hig' => ?_, fun ptr' size' ig' hlookup' => ?_⟩
          · cases hig'
            rfl
          · by_cases hkey : (ptr', size') = (ptr, size)
            · rw [hkey, AList.lookup_insert, Option.some_inj] at hlookup'
              rw [Prod.mk.injEq] at hkey
              rw [← hlookup', hkey.1, hkey.2]
            · rw [AList.lookup_insert_ne hkey] at hlookup'
              exact hevicted ptr' size' ig' hlookup'
        · exact ⟨nofun, hevicted⟩

/-- A render in place either fails before it has stored anything or ends as `out`. -/
private theorem renderForwardedZerocopy_outcome (setup : Setup) (out : Imported) (draw : OwnedForwardedDraw)
    (ptr size remaps : Nat) (gpu : HostGpu) :
    (gpu.renderForwardedZerocopy setup out draw ptr size remaps).1 = { result := some false, written := [] } ∨
      (gpu.renderForwardedZerocopy setup out draw ptr size remaps).1 = out := by
  simp only [renderForwardedZerocopy]
  split
  · exact .inl rfl
  · split
    · exact .inl rfl
    · split
      · exact .inr rfl
      · split
        · exact .inr rfl
        · exact .inl rfl

end HostGpu

/-- The pixels of a render, if there are any. -/
def Rendered.frame (out : Rendered) : Option (List UInt8) := out.outcome.join

private theorem Rendered.frame_eq_some {out : Rendered} {px : List UInt8} (h : out.frame = some px) :
    out = .pixels px := by
  cases out with
  | panicked => cases h
  | failed => cases h
  | pixels px' =>
    cases h
    rfl

namespace Backend

variable {env env' : Env} {d d' : Backend} {wl : VulkanWorkload} {payload : List UInt8} {fwd : OwnedForwardedDraw}

/-! ### What a render leaves behind -/

/-- The result of a replay and the guest memory after it; nothing else has changed. -/
structure Leaves (presented : Option Bool) (mem : Memory) (d : Backend) (r : Option Bool × Backend) : Prop where
  presented : r.1 = presented
  alike : Alike { d with mem } r.2

private theorem Repeats.leaves {px : List UInt8} {p : Nat} {r : Option Bool × Backend} (h : Repeats wl px d r)
    (hp : d.dma.resolve wl.scanoutAddr px.length = some p) : Leaves (some true) (d.mem.store p px) d r := by
  obtain ⟨q, hq, halike⟩ := h.alike
  rw [hp, Option.some_inj] at hq
  subst hq
  exact ⟨h.presented, halike⟩

/-- A run whose closure has no result of a frame. -/
private theorem presentRendered_frameless {out : Rendered} (addr : UInt64) (h : out.frame = none) :
    Leaves none d.mem d (d.presentRendered env out addr) := by
  have halike := Alike.of_runTimed env out.outcome d
  cases hrun : d.runTimed env out.outcome with
  | mk r e =>
    rw [hrun] at halike
    have heq : d.presentRendered env out addr = (none, e) := by
      simp only [presentRendered, hrun]
      cases r with
      | error _ => rfl
      | ok frame =>
        cases frame with
        | none => rfl
        | some px =>
          rw [Rendered.frame, runTimed_ok hrun] at h
          cases h
    rw [heq]
    exact ⟨rfl, halike⟩

/-- The copying path, towards a buffer that is mapped. -/
private theorem renderOnecopy_leaves {ptr : Nat} (fwd : OwnedForwardedDraw)
    (hsized : ∀ px, env.renderForwardedPresent d.calls wl.width wl.height wl.bg fwd = .pixels px →
      px.length = wl.frameBytes)
    (hticket : d.ticket.isSome) (hreg : d.Registered) (haddr : wl.scanoutAddr ≠ 0)
    (hptr : d.dma.resolve wl.scanoutAddr wl.frameBytes = some ptr) :
    (∀ px, (env.renderForwardedPresent d.calls wl.width wl.height wl.bg fwd).frame = some px →
      Leaves (some true) (d.mem.store ptr px) d (d.renderOnecopy env wl fwd)) ∧
    ((env.renderForwardedPresent d.calls wl.width wl.height wl.bg fwd).frame = none →
      Leaves none d.mem d (d.renderOnecopy env wl fwd)) := by
  constructor
  · intro px hframe
    have hpx := Rendered.frame_eq_some hframe
    have hp : d.dma.resolve wl.scanoutAddr px.length = some ptr := by
      rw [hsized px hpx]
      exact hptr
    rw [renderOnecopy, hpx]
    exact (presentRendered_repeats hticket hreg haddr (by rw [hp]; rfl)).leaves hp
  · exact presentRendered_frameless wl.scanoutAddr

private theorem runTimed_panicked (α : Type*) (env : Env) (hticket : d.ticket.isSome) (hreg : d.Registered) :
    (d.runTimed env (none : Option α)).1 = .error .panicked := by
  obtain ⟨t, ht⟩ := Option.isSome_iff_exists.1 hticket
  have hnone : (d.broker.vms.lookup t.vmId).isNone = false := by rw [← Option.not_isSome, hreg t ht]; rfl
  simp only [runTimed, ht, hnone, Bool.false_eq_true, if_false]

/-- What a render in place stores is the whole of what it hands back. -/
private theorem written_take (hsized : env.Sized) (n : Nat) (wl : VulkanWorkload) (fwd : OwnedForwardedDraw) :
    (env.renderForwardedZerocopy n wl.width wl.height wl.bg fwd).written.take (alignedBytes wl.width wl.height) =
      (env.renderForwardedZerocopy n wl.width wl.height wl.bg fwd).written :=
  List.take_of_length_le ((hsized.renderForwardedZerocopy _ _ _ _ _).trans (frameBytes_le_aligned wl))

variable {ptr : Nat} {out : Imported}

/-- A render in place that panics is not followed by any other. -/
private theorem replayForwarded_panicked (hsized : env.Sized) (hticket : d.ticket.isSome) (hreg : d.Registered)
    (hptr : d.zerocopyTarget env wl fwd = some ptr)
    (hout : env.renderForwardedZerocopy d.calls wl.width wl.height wl.bg fwd = out) (hresult : out.result = none) :
    Leaves none (d.mem.store ptr out.written) d (d.replayForwarded env wl fwd) := by
  have htake := written_take hsized d.calls wl fwd
  have halike := Alike.of_runTimed env (none : Option Bool) d
  have hpanicked := runTimed_panicked Bool env hticket hreg
  rw [hout] at htake
  cases hrun : d.runTimed env (none : Option Bool) with
  | mk r e =>
    rw [hrun] at hpanicked halike
    subst hpanicked
    have heq : d.replayForwarded env wl fwd = (none, { e with mem := e.mem.store ptr out.written }) := by
      simp only [replayForwarded, hptr, renderZerocopy, hout, hresult, hrun, htake]
    rw [heq]
    exact ⟨rfl, { halike with mem := by rw [halike.mem] }⟩

/-- A render in place that fails is followed by the copying path. -/
private theorem replayForwarded_failed (hsized : env.Sized) (hren : env.SameRenders env) (hticket : d.ticket.isSome)
    (hreg : d.Registered) (haddr : wl.scanoutAddr ≠ 0) (hptr : d.zerocopyTarget env wl fwd = some ptr)
    (hout : env.renderForwardedZerocopy d.calls wl.width wl.height wl.bg fwd = out)
    (hresult : out.result = some false) :
    (∀ px, (env.renderForwardedPresent 0 wl.width wl.height wl.bg fwd).frame = some px →
      Leaves (some true) (d.mem.store ptr px) d (d.replayForwarded env wl fwd)) ∧
    ((env.renderForwardedPresent 0 wl.width wl.height wl.bg fwd).frame = none →
      Leaves none (d.mem.store ptr out.written) d (d.replayForwarded env wl fwd)) := by
  have htake := written_take hsized d.calls wl fwd
  have hlen := hsized.renderForwardedZerocopy d.calls wl.width wl.height wl.bg fwd
  have halike := Alike.of_runTimed env (some false) d
  have hok := runTimed_registered env false hticket hreg
  rw [hout] at htake hlen
  cases hrun : d.runTimed env (some false) with
  | mk r e =>
    rw [hrun] at hok halike
    subst hok
    have heq : d.replayForwarded env wl fwd = Backend.renderOnecopy env wl fwd
        { e with mem := e.mem.store ptr out.written, zerocopyScanout := false } := by
      simp only [replayForwarded, hptr, renderZerocopy, hout, hresult, hrun, htake]
    have hdma : e.dma.resolve wl.scanoutAddr wl.frameBytes = some ptr := by
      rw [← halike.dma]
      exact DmaTable.resolve_le (zerocopyTarget_dma hptr).2 (frameBytes_le_aligned wl)
    have hticket' : e.ticket.isSome := halike.ticket ▸ hticket
    obtain ⟨hpixels, hnone⟩ := renderOnecopy_leaves fwd
      (d := { e with mem := e.mem.store ptr out.written, zerocopyScanout := false })
      (hsized.renderForwardedPresent _ _ _ _ _) hticket' (halike.registered hreg) haddr hdma
    rw [hren.renderForwardedPresent _ 0] at hpixels hnone
    rw [heq]
    constructor
    · intro px hframe
      have hleaves := hpixels px hframe
      have hpx : px.length = wl.frameBytes :=
        hsized.renderForwardedPresent _ _ _ _ _ _ (Rendered.frame_eq_some hframe)
      have hover : (e.mem.store ptr out.written).store ptr px = d.mem.store ptr px := by
        rw [Memory.store_store (hpx ▸ hlen), halike.mem]
      refine ⟨hleaves.presented, Alike.trans ?_ hleaves.alike⟩
      exact { halike with mem := hover.symm }
    · intro hframe
      have hleaves := hnone hframe
      refine ⟨hleaves.presented, Alike.trans ?_ hleaves.alike⟩
      exact { halike with mem := by rw [halike.mem] }

/-- A render in place that succeeds leaves the frame of the copying path. -/
private theorem replayForwarded_succeeded (hfaithful : env.Faithful) (hticket : d.ticket.isSome) (hreg : d.Registered)
    (hptr : d.zerocopyTarget env wl fwd = some ptr)
    (hout : env.renderForwardedZerocopy d.calls wl.width wl.height wl.bg fwd = out)
    (hresult : out.result = some true) :
    (env.renderForwardedPresent 0 wl.width wl.height wl.bg fwd).frame = some out.written ∧
      Leaves (some true) (d.mem.store ptr out.written) d (d.replayForwarded env wl fwd) := by
  have hresult' := hresult
  rw [← hout] at hresult'
  obtain ⟨hpx, hlen, -⟩ := hfaithful.written hresult' d.calls
  have hpx' := (hfaithful.written hresult' 0).1
  have hrepeats := renderZerocopy_repeats hfaithful hticket hreg (zerocopyTarget_dma hptr).2 hresult' hpx
  rw [hout] at hpx' hlen hrepeats
  rw [replayForwarded_rendered hptr hrepeats.presented]
  refine ⟨by rw [hpx']; rfl, hrepeats.leaves ?_⟩
  exact DmaTable.resolve_le (zerocopyTarget_dma hptr).2 (hlen ▸ frameBytes_le_aligned wl)

/-! ### Where a command renders in place -/

/-- The draw that a replay renders in place, and where. -/
def inPlaceDraw (env : Env) (wl : VulkanWorkload) (payload : List UInt8) (d : Backend) :
    Option (OwnedForwardedDraw × Nat) :=
  if wl.Forwarded then
    (forwardedDraw wl payload).bind fun fwd => (d.zerocopyTarget env wl fwd).map fun ptr => (fwd, ptr)
  else
    none

private theorem inPlaceDraw_eq_some (h : d.inPlaceDraw env wl payload = some (fwd, ptr)) :
    wl.Forwarded ∧ forwardedDraw wl payload = some fwd ∧ d.zerocopyTarget env wl fwd = some ptr := by
  unfold inPlaceDraw at h
  split at h
  · rename_i hop
    obtain ⟨fwd', hfwd, hmap⟩ := Option.bind_eq_some_iff.1 h
    obtain ⟨ptr', hptr, hpair⟩ := Option.map_eq_some_iff.1 hmap
    obtain ⟨rfl, rfl⟩ := Prod.mk.inj hpair
    exact ⟨hop, hfwd, hptr⟩
  · cases h

private theorem zerocopyTarget_off (hoff : d.zerocopyScanout = false) : d.zerocopyTarget env wl fwd = none := by
  cases hptr : d.zerocopyTarget env wl fwd with
  | none => rfl
  | some ptr =>
    rw [(zerocopyTarget_dma hptr).1] at hoff
    cases hoff

/-- Frames that are copied anyway. -/
private theorem replay_copied (henv : env.SameRenders env') (h : Alike d d')
    (hnone : d.inPlaceDraw env wl payload = none) (hoff : d'.zerocopyScanout = false) :
    (d.replay env wl payload).1 = (d'.replay env' wl payload).1 ∧
      Alike (d.replay env wl payload).2 (d'.replay env' wl payload).2 := by
  by_cases hop : wl.Forwarded
  · cases hfwd : forwardedDraw wl payload with
    | none =>
      rw [replay_undecoded hop hfwd, replay_undecoded hop hfwd]
      exact ⟨rfl, h⟩
    | some fwd =>
      have hptr : d.zerocopyTarget env wl fwd = none := by
        rw [inPlaceDraw, if_pos hop, hfwd, Option.bind_some, Option.map_eq_none_iff] at hnone
        exact hnone
      have hptr' : d'.zerocopyTarget env' wl fwd = none := zerocopyTarget_off hoff
      rw [replay_decoded hop hfwd, replay_decoded hop hfwd]
      simp only [replayForwarded, hptr, hptr']
      exact h.renderOnecopy henv wl fwd
  · obtain ⟨out, hout⟩ := rendering_other hop env d.calls payload
    have hout' : rendering env' d'.calls wl payload = some out := by rw [← rendering_same henv d.calls, hout]
    rw [replay_other hop hout, replay_other hop hout']
    exact h.presentRendered env env' out wl.scanoutAddr

/-- A frame that one device is asked to render in place. -/
structure InPlace where
  wl : VulkanWorkload
  fwd : OwnedForwardedDraw
  ptr : Nat

def inPlace (env : Env) (d : Backend) : Act → Option InPlace
  | .submit sc payload _ =>
    if (d.ensureAdmitted env).1 then
      (acceptedWorkload sc payload).bind fun wl =>
        if d.Elided wl payload then
          none
        else
          ((d.counted env).inPlaceDraw env wl payload).map fun r => { wl, fwd := r.1, ptr := r.2 }
    else
      none
  | _ => none

/-- The pixels that the copying path has for it. -/
def InPlace.frame (env : Env) (r : InPlace) : Option (List UInt8) :=
  (env.renderForwardedPresent 0 r.wl.width r.wl.height r.wl.bg r.fwd).frame

def InPlace.imported (env : Env) (d : Backend) (r : InPlace) : Imported :=
  env.renderForwardedZerocopy (d.counted env).calls r.wl.width r.wl.height r.wl.bg r.fwd

/-- A render in place leaves the buffer as the copying path does: where there is no frame, nothing new has been
stored, and where it panics, all of the frame has.  A frame after a panic is not remembered, so it must not be
remembered by the copying path either. -/
def Clean (env : Env) (d : Backend) (a : Act) : Prop :=
  ∀ r ∈ d.inPlace env a,
    (r.frame env = none → d.mem.load r.ptr (r.imported env d).written.length = (r.imported env d).written) ∧
      ((r.imported env d).result = none → ∀ px ∈ r.frame env,
        (d.mem.store r.ptr (r.imported env d).written).load r.ptr px.length = px ∧ d.elideUnchanged = false)

instance (env : Env) (d : Backend) (a : Act) : Decidable (d.Clean env a) := by
  unfold Clean; infer_instance

/-! ### The two devices side by side -/

/-- The devices differ in where they render, and in nothing that a command leaves behind. -/
structure Abreast (d d' : Backend) : Prop where
  alike : Alike d d'
  copies : d'.zerocopyScanout = false
  elideUnchanged : d.elideUnchanged = d'.elideUnchanged
  lastForwardedHash : d.lastForwardedHash = d'.lastForwardedHash
  registered : d.Registered

namespace Abreast

variable {e e' : Backend}

private theorem of_latches (h : Abreast d d') (hl : Latches d e) (hl' : Latches d' e') (halike : Alike e e') :
    Abreast e e' := by
  refine ⟨halike, ?_, ?_, ?_, hl.registered h.registered⟩
  · rw [← Bool.not_eq_true]
    intro hon
    exact Bool.false_ne_true (h.copies.symm.trans (hl'.zerocopyScanout hon))
  · rw [hl.elideUnchanged, hl'.elideUnchanged, h.elideUnchanged]
  · rw [hl.lastForwardedHash, hl'.lastForwardedHash, h.lastForwardedHash]

private theorem invalidateElision (h : Abreast d d') : Abreast d.invalidateElision d'.invalidateElision :=
  { h with
    alike := h.alike.invalidateElision
    lastForwardedHash := rfl }

private theorem retire (h : Abreast d d') (ctx : Fin NUM_CONTEXTS) (seqno : UInt64) :
    Abreast (d.retire ctx seqno) (d'.retire ctx seqno) := { h with alike := h.alike.retire ctx seqno }

private theorem rememberFrame (h : Abreast d d') (hash : Option UInt64) (addr : UInt64) (presented : Bool) :
    Abreast (d.rememberFrame hash addr presented) (d'.rememberFrame hash addr presented) := by
  have hhash := h.lastForwardedHash
  cases hash with
  | none => exact h
  | some hash =>
    cases presented with
    | false => exact h
    | true =>
      refine { h with
        alike := { h.alike with }
        lastForwardedHash := ?_ }
      simp only [Backend.rememberFrame, hhash]

private theorem counted (h : Abreast d d') (env env' : Env) : Abreast (d.counted env) (d'.counted env') :=
  h.of_latches (counted_steady env d).latches (counted_steady env' d').latches (counted_alike h.alike env env')

private theorem elided_iff (h : Abreast d d') : d'.Elided wl payload ↔ d.Elided wl payload := by
  rw [Elided, Elided, h.elideUnchanged, h.lastForwardedHash]

/-- Every command but a 3D submission. -/
private theorem act (h : Abreast d d') (henv : env.SameRenders env') {a : Act}
    (ha : ∀ sc payload ctx, a ≠ .submit sc payload ctx) : Abreast (d.act env a) (d'.act env' a) := by
  have hon : Steady (if a.forgets then d.invalidateElision else d) (d.act env a) := act_steady ha
  have hoff : Steady (if a.forgets then d'.invalidateElision else d') (d'.act env' a) := act_steady ha
  have halike := h.alike.act henv ha
  cases hforgets : a.forgets with
  | true =>
    rw [hforgets] at hon hoff
    exact h.invalidateElision.of_latches hon.latches hoff.latches halike
  | false =>
    rw [hforgets] at hon hoff
    exact h.of_latches hon.latches hoff.latches halike

/-- Replays that end alike and tell the same are remembered alike. -/
private theorem rendered (h : Abreast d d')
    (hsame : (d.replay env wl payload).1 = (d'.replay env' wl payload).1 ∨ d.elideUnchanged = false)
    (halike : Alike (d.replay env wl payload).2 (d'.replay env' wl payload).2) :
    Abreast (d.rendered env wl payload) (d'.rendered env' wl payload) := by
  have hreplayed := h.of_latches (replay_latches env wl payload d) (replay_latches env' wl payload d') halike
  rcases hsame with hsame | hoff
  · have hhash : d'.payloadHash wl payload = d.payloadHash wl payload := by
      rw [payloadHash_eq, payloadHash_eq, h.elideUnchanged]
    rw [Backend.rendered, Backend.rendered, hhash]
    cases hreplay : d.replay env wl payload with
    | mk presented e =>
      cases hreplay' : d'.replay env' wl payload with
      | mk presented' e' =>
        rw [hreplay, hreplay'] at hsame hreplayed
        subst hsame
        cases presented with
        | none => exact hreplayed
        | some presented => exact hreplayed.rememberFrame _ _ _
  · rw [rendered_off hoff, rendered_off (h.elideUnchanged ▸ hoff)]
    exact hreplayed

end Abreast

/-- To remember a frame is to store nothing. -/
private theorem rendered_mem (env : Env) (wl : VulkanWorkload) (payload : List UInt8) (d : Backend) :
    (d.rendered env wl payload).mem = (d.replay env wl payload).2.mem ∧
      (d.rendered env wl payload).ringRetired = (d.replay env wl payload).2.ringRetired := by
  rw [rendered]
  cases d.replay env wl payload with
  | mk presented e =>
    cases presented with
    | none => exact ⟨rfl, rfl⟩
    | some presented =>
      simp only [rememberFrame]
      split
      · exact ⟨rfl, rfl⟩
      · exact ⟨rfl, rfl⟩

/-- Two commands that retire the same, and store the same exactly when the first one is clean. -/
structure Matches (env : Env) (d : Backend) (a : Act) (e e' : Backend) : Prop where
  ringRetired : e.ringRetired = e'.ringRetired
  clean : d.Clean env a → e.mem = e'.mem ∧ Abreast e e'
  exact : d.elideUnchanged = false → e.mem = e'.mem → d.Clean env a

namespace Matches

variable {e e' : Backend} {a : Act}

private theorem of_abreast (hnone : d.inPlace env a = none) (h : Abreast e e') : Matches env d a e e' := by
  refine ⟨h.alike.ringRetired, fun _ => ⟨h.alike.mem, h⟩, fun _ _ r hr => ?_⟩
  rw [hnone] at hr
  cases hr

/-- Replays of which it is known what they leave. -/
private theorem of_leaves {f f' : Backend} {presented presented' : Option Bool} {mem mem' : Memory}
    {ctx : Fin NUM_CONTEXTS} {seqno : UInt64} (h : Abreast f f') (helide : f.elideUnchanged = d.elideUnchanged)
    (hleaves : Leaves presented mem f (f.replay env wl payload))
    (hleaves' : Leaves presented' mem' f' (f'.replay env' wl payload))
    (hclean : d.Clean env a → mem = mem' ∧ (presented = presented' ∨ d.elideUnchanged = false))
    (hexact : d.elideUnchanged = false → mem = mem' → d.Clean env a) :
    Matches env d a ((f.rendered env wl payload).retire ctx seqno)
      ((f'.rendered env' wl payload).retire ctx seqno) := by
  obtain ⟨hmem, hretired⟩ := rendered_mem env wl payload f
  obtain ⟨hmem', hretired'⟩ := rendered_mem env' wl payload f'
  have hstored : (f.replay env wl payload).2.mem = mem := hleaves.alike.mem.symm
  have hstored' : (f'.replay env' wl payload).2.mem = mem' := hleaves'.alike.mem.symm
  have hkept : f.ringRetired = (f.replay env wl payload).2.ringRetired := hleaves.alike.ringRetired
  have hkept' : f'.ringRetired = (f'.replay env' wl payload).2.ringRetired := hleaves'.alike.ringRetired
  refine ⟨?_, fun hc => ?_, fun hoff heq => ?_⟩
  · simp only [retire, hretired, hretired', ← hkept, ← hkept', h.alike.ringRetired]
  · obtain ⟨hsame, hpresented⟩ := hclean hc
    have hpre : Alike { f with mem } { f' with mem := mem' } := { h.alike with mem := hsame }
    have hreplayed := (hleaves.alike.symm.trans hpre).trans hleaves'.alike
    have htold : (f.replay env wl payload).1 = (f'.replay env' wl payload).1 ∨ f.elideUnchanged = false := by
      rw [hleaves.presented, hleaves'.presented, helide]
      exact hpresented
    have habreast := h.rendered htold hreplayed
    have hretires := habreast.retire ctx seqno
    exact ⟨hretires.alike.mem, hretires⟩
  · rw [retire_mem, retire_mem, hmem, hmem', hstored, hstored'] at heq
    exact hexact hoff heq

/-- A frame that one of the devices renders in place. -/
private theorem of_inPlace {draw : OwnedForwardedDraw × Nat} {ctx : Fin NUM_CONTEXTS} {seqno : UInt64}
    (h : Abreast d d') (hren : env.SameRenders env') (hfaithful : env.Faithful)
    (hticket : (d.counted env).ticket.isSome) (hplace : d.inPlace env a = some { wl, fwd := draw.1, ptr := draw.2 })
    (hdraw : (d.counted env).inPlaceDraw env wl payload = some draw) :
    Matches env d a (((d.counted env).rendered env wl payload).retire ctx seqno)
      (((d'.counted env').rendered env' wl payload).retire ctx seqno) := by
  obtain ⟨fwd, ptr⟩ := draw
  obtain ⟨hop, hfwd, hptr⟩ := inPlaceDraw_eq_some hdraw
  have hcounted := h.counted env env'
  have helide : (d.counted env).elideUnchanged = d.elideUnchanged := (counted_steady env d).elideUnchanged
  have hmem : (d.counted env).mem = d.mem := (counted_quiet env d).mem
  have hmem' : (d'.counted env').mem = d.mem := by rw [← hcounted.alike.mem, hmem]
  have hreg := hcounted.registered
  have haddr := zerocopyTarget_addr hptr
  have hsized := hfaithful.toSized
  generalize hout : env.renderForwardedZerocopy (d.counted env).calls wl.width wl.height wl.bg fwd = out
  generalize hframe : (env.renderForwardedPresent 0 wl.width wl.height wl.bg fwd).frame = frame
  have hwritten : out.written.length ≤ wl.frameBytes := by
    rw [← hout]
    exact hsized.renderForwardedZerocopy _ _ _ _ _
  have hpixels : ∀ px, frame = some px → px.length = wl.frameBytes := by
    intro px hpx
    rw [← hframe] at hpx
    exact hsized.renderForwardedPresent _ _ _ _ _ _ (Rendered.frame_eq_some hpx)
  have hcleans : d.Clean env a ↔ (frame = none → d.mem.load ptr out.written.length = out.written) ∧
      (out.result = none → ∀ px ∈ frame,
        (d.mem.store ptr out.written).load ptr px.length = px ∧ d.elideUnchanged = false) := by
    simp only [Clean, hplace, Option.mem_def, Option.some_inj, forall_eq', InPlace.frame, InPlace.imported, hout,
      hframe]
  -- what the copying path leaves
  have hdecoded : (d'.counted env').replay env' wl payload = (d'.counted env').replayForwarded env' wl fwd :=
    replay_decoded hop hfwd
  have hptr' : (d'.counted env').zerocopyTarget env' wl fwd = none := zerocopyTarget_off hcounted.copies
  have hslow : (d'.counted env').replay env' wl payload = (d'.counted env').renderOnecopy env' wl fwd := by
    simp only [hdecoded, replayForwarded, hptr']
  have hbuffer : (d'.counted env').dma.resolve wl.scanoutAddr wl.frameBytes = some ptr := by
    rw [← hcounted.alike.dma]
    exact DmaTable.resolve_le (zerocopyTarget_dma hptr).2 (frameBytes_le_aligned wl)
  have hsized' : ∀ px, env'.renderForwardedPresent (d'.counted env').calls wl.width wl.height wl.bg fwd = .pixels px →
      px.length = wl.frameBytes := by
    intro px hpx
    rw [← hren.renderForwardedPresent 0] at hpx
    exact hsized.renderForwardedPresent _ _ _ _ _ _ hpx
  obtain ⟨hshown, hmissed⟩ := renderOnecopy_leaves fwd hsized' (hcounted.alike.ticket ▸ hticket)
    (hcounted.alike.registered hreg) haddr hbuffer
  rw [← hren.renderForwardedPresent 0, hframe, ← hslow, hmem'] at hshown hmissed
  -- what the render in place leaves
  have hfast : (d.counted env).replay env wl payload = (d.counted env).replayForwarded env wl fwd :=
    replay_decoded hop hfwd
  cases hresult : out.result with
  | none =>
    have hpanicked := replayForwarded_panicked hsized hticket hreg hptr hout hresult
    rw [← hfast, hmem] at hpanicked
    cases frame with
    | none =>
      refine of_leaves hcounted helide hpanicked (hmissed rfl) (fun hc => ?_) (fun _ heq => hcleans.2 ?_)
      · exact ⟨Memory.store_eq_self_iff.2 ((hcleans.1 hc).1 rfl), .inl rfl⟩
      · refine ⟨fun _ => Memory.store_eq_self_iff.1 heq, fun _ px hpx => ?_⟩
        cases hpx
    | some px =>
      have hle : out.written.length ≤ px.length := (hpixels px rfl).symm ▸ hwritten
      refine of_leaves hcounted helide hpanicked (hshown px rfl) (fun hc => ?_) (fun hoff heq => hcleans.2 ?_)
      · obtain ⟨hload, hoff⟩ := (hcleans.1 hc).2 hresult px rfl
        exact ⟨(Memory.store_eq_store_iff hle).2 hload, .inr hoff⟩
      · refine ⟨fun hnone => absurd hnone (Option.some_ne_none px), fun _ px' hpx' => ?_⟩
        cases hpx'
        exact ⟨(Memory.store_eq_store_iff hle).1 heq, hoff⟩
  | some ok =>
    have hreported : out.result ≠ none := by rw [hresult]; exact Option.some_ne_none ok
    cases ok with
    | false =>
      obtain ⟨hrecovered, hlost⟩ := replayForwarded_failed hsized hren.left hticket hreg haddr hptr hout hresult
      rw [hframe, ← hfast, hmem] at hrecovered hlost
      cases frame with
      | none =>
        refine of_leaves hcounted helide (hlost rfl) (hmissed rfl) (fun hc => ?_) (fun _ heq => hcleans.2 ?_)
        · exact ⟨Memory.store_eq_self_iff.2 ((hcleans.1 hc).1 rfl), .inl rfl⟩
        · exact ⟨fun _ => Memory.store_eq_self_iff.1 heq, fun hnone => absurd hnone hreported⟩
      | some px =>
        exact of_leaves hcounted helide (hrecovered px rfl) (hshown px rfl) (fun _ => ⟨rfl, .inl rfl⟩)
          fun _ _ => hcleans.2 ⟨fun hnone => absurd hnone (Option.some_ne_none _),
            fun hnone => absurd hnone hreported⟩
    | true =>
      obtain ⟨hsame, hrendered⟩ := replayForwarded_succeeded hfaithful hticket hreg hptr hout hresult
      rw [hframe] at hsame
      rw [← hfast, hmem] at hrendered
      subst hsame
      exact of_leaves hcounted helide hrendered (hshown _ rfl) (fun _ => ⟨rfl, .inl rfl⟩)
        fun _ _ => hcleans.2 ⟨fun hnone => absurd hnone (Option.some_ne_none _), fun hnone => absurd hnone hreported⟩

end Matches

/-- A 3D submission. -/
theorem Abreast.submit (h : Abreast d d') (hren : env.SameRenders env') (hfaithful : env.Faithful)
    (sc : SubmitCmd) (payload : List UInt8) (ctx : Fin NUM_CONTEXTS) :
    Matches env d (.submit sc payload ctx) (d.act env (.submit sc payload ctx))
      (d'.act env' (.submit sc payload ctx)) := by
  have hadmitted := (h.alike.ensureAdmitted env env').1
  by_cases hno : (d.ensureAdmitted env).1 = false ∨ acceptedWorkload sc payload = none
  · -- both refuse it
    have hnone : d.inPlace env (.submit sc payload ctx) = none := by
      simp only [inPlace]
      rcases hno with hno | hno
      · rw [hno]; rfl
      · rw [hno]
        split
        · rfl
        · rfl
    have hon : d.act env (.submit sc payload ctx) = (d.ensureAdmitted env).2.retire ctx sc.seqno :=
      submitVulkan_refused ctx hno
    have hoff : d'.act env' (.submit sc payload ctx) = (d'.ensureAdmitted env').2.retire ctx sc.seqno :=
      submitVulkan_refused ctx (by rw [← hadmitted]; exact hno)
    rw [hon, hoff]
    refine .of_abreast hnone (Abreast.retire ?_ ctx sc.seqno)
    exact h.of_latches (ensureAdmitted_steady env d).latches (ensureAdmitted_steady env' d').latches
      (h.alike.ensureAdmitted env env').2
  rw [not_or, Bool.not_eq_false] at hno
  obtain ⟨hadm, haccepted⟩ := hno
  obtain ⟨wl, hwl⟩ := Option.ne_none_iff_exists'.1 haccepted
  have hcounted := h.counted env env'
  have hon := submitVulkan_accepted ctx hadm hwl
  have hoff := submitVulkan_accepted ctx (hadmitted ▸ hadm) hwl
  by_cases hel : d.Elided wl payload
  · -- both leave it out
    have hnone : d.inPlace env (.submit sc payload ctx) = none := by
      simp only [inPlace, hadm, hwl, Option.bind_some]
      rw [if_pos trivial, if_pos hel]
    rw [if_pos hel] at hon
    rw [if_pos (h.elided_iff.2 hel)] at hoff
    rw [Backend.act, Backend.act, hon, hoff]
    refine .of_abreast hnone (Abreast.retire ?_ ctx sc.seqno)
    exact { hcounted with alike := { hcounted.alike with } }
  rw [if_neg hel] at hon
  rw [if_neg (mt h.elided_iff.1 hel)] at hoff
  rw [Backend.act, Backend.act, hon, hoff]
  have hplace : d.inPlace env (.submit sc payload ctx) =
      ((d.counted env).inPlaceDraw env wl payload).map fun r => { wl, fwd := r.1, ptr := r.2 } := by
    simp only [inPlace, hadm, hwl, Option.bind_some]
    rw [if_pos trivial, if_neg hel]
  cases hdraw : (d.counted env).inPlaceDraw env wl payload with
  | none =>
    obtain ⟨hresult, halike⟩ := replay_copied hren hcounted.alike hdraw hcounted.copies
    rw [hdraw, Option.map_none] at hplace
    exact .of_abreast hplace ((hcounted.rendered (.inl hresult) halike).retire ctx sc.seqno)
  | some draw =>
    have hticket := ensureAdmitted_ticket hadm
    rw [hdraw, Option.map_some] at hplace
    exact .of_inPlace h hren hfaithful hticket hplace hdraw

/-- The option of the elision stays. -/
private theorem act_elideUnchanged (env : Env) (d : Backend) (a : Act) :
    (d.act env a).elideUnchanged = d.elideUnchanged := by
  have hother : (∀ sc payload ctx, a ≠ .submit sc payload ctx) → (d.act env a).elideUnchanged = d.elideUnchanged := by
    intro ha
    have hsteady : Steady (if a.forgets then d.invalidateElision else d) (d.act env a) := act_steady ha
    rw [hsteady.elideUnchanged]
    split
    · rfl
    · rfl
  cases a with
  | submit sc payload ctx =>
    by_cases hno : (d.ensureAdmitted env).1 = false ∨ acceptedWorkload sc payload = none
    · rw [act, submitVulkan_refused ctx hno]
      exact (ensureAdmitted_steady env d).elideUnchanged
    · rw [not_or, Bool.not_eq_false] at hno
      obtain ⟨wl, hwl⟩ := Option.ne_none_iff_exists'.1 hno.2
      have hcounted := (counted_steady env d).elideUnchanged
      rw [act, submitVulkan_accepted ctx hno.1 hwl]
      split
      · exact hcounted
      · refine Eq.trans ?_ ((replay_latches env wl payload (d.counted env)).elideUnchanged.trans hcounted)
        rcases rendered_cases env wl payload (d.counted env) with hsame | ⟨-, -, -, cache, -, hnew⟩
        · rw [hsame]; rfl
        · rw [hnew]; rfl
  | _ =>
    refine hother fun _ _ _ heq => ?_
    cases heq

/-- The commands that change the mappings. -/
def Act.remaps : Act → Bool
  | .map .. => true
  | .unmap _ => true
  | .unmapAll => true
  | _ => false

private theorem inPlace_remaps {a : Act} {r : InPlace} (h : d.inPlace env a = some r) : a.remaps = false := by
  cases a with
  | submit sc payload ctx => rfl
  | _ => cases h

end Backend

/-! ### Runs -/

open Backend

/-- The device that renders in place and the one that copies, the imports of the former, how often its mappings have
been changed, and each import it has rendered into with the one that would be made anew. -/
structure Zerocopy where
  fast : Backend
  slow : Backend
  gpu : HostGpu
  remaps : Nat
  used : List (ImportedGuest × ImportedGuest)

/-- A command for both devices, with what the outside answers to either and how a render in place is set up. -/
structure Call where
  act : Act
  env : Env
  env' : Env
  setup : Setup

/-- Both devices get the same frames, of the size asked for, and a render in place that succeeds stores the frame that
is copied. -/
structure Call.Deterministic (c : Call) : Prop where
  same : c.env.SameRenders c.env'
  faithful : c.env.Faithful

namespace Zerocopy

def start (d : Backend) : Zerocopy where
  fast := { d with zerocopyScanout := true }
  slow := { d with zerocopyScanout := false }
  gpu := .new
  remaps := 0
  used := []

variable {s s' : Zerocopy} {c : Call}

/-- The render in place of `r`, with the buffer it goes to and the imports after it. -/
def render (s : Zerocopy) (c : Call) (r : InPlace) (out : Imported) : Imported × Option ImportedGuest × HostGpu :=
  s.gpu.renderForwardedZerocopy c.setup out r.fwd r.ptr r.wl.frameBytes s.remaps

/-- The answers that the first device gets. -/
def fastEnv (s : Zerocopy) (c : Call) : Env :=
  match s.fast.inPlace c.env c.act with
  | some r => { c.env with
      renderForwardedZerocopy := fun n w h bg fwd => (s.render c r (c.env.renderForwardedZerocopy n w h bg fwd)).1 }
  | none => c.env

/-- The imports after a command, and the one that was rendered into. -/
def gpuAfter (s : Zerocopy) (c : Call) : HostGpu × List (ImportedGuest × ImportedGuest) :=
  match s.fast.inPlace c.env c.act with
  | some r =>
    let (_, guest, gpu) := s.render c r (r.imported c.env s.fast)
    (gpu, (guest.map fun ig => (ig, { ptr := r.ptr, size := r.wl.frameBytes, remaps := s.remaps })).toList)
  | none => (if c.act.remaps then s.gpu.forgetAllGuestImports else s.gpu, [])

def step (s : Zerocopy) (c : Call) : Option Zerocopy :=
  some
    { fast := s.fast.act (s.fastEnv c) c.act
      slow := s.slow.act c.env' c.act
      gpu := (s.gpuAfter c).1
      remaps := if c.act.remaps then s.remaps + 1 else s.remaps
      used := s.used ++ (s.gpuAfter c).2 }

def Agrees (s : Zerocopy) : Prop := s.fast.mem = s.slow.mem ∧ s.fast.ringRetired = s.slow.ringRetired

def Clean (s : Zerocopy) (c : Call) : Prop := s.fast.Clean (s.fastEnv c) c.act

instance (s : Zerocopy) (c : Call) : Decidable (s.Clean c) := by unfold Clean; infer_instance

/-- No import has been rendered into that was not made of the memory it should be, under the mappings of the time. -/
def Live (s : Zerocopy) : Prop := ∀ u ∈ s.used, u.1 = u.2

private theorem fastEnv_same (s : Zerocopy) (c : Call) {env : Env} (h : c.env.SameRenders env) :
    (s.fastEnv c).SameRenders env := by
  unfold fastEnv
  cases s.fast.inPlace c.env c.act with
  | none => exact h
  | some r => exact ⟨h.renderClear, h.renderTriangle, h.renderForwardedPresent⟩

private theorem fastEnv_faithful (s : Zerocopy) (h : c.env.Faithful) : (s.fastEnv c).Faithful := by
  unfold fastEnv
  cases s.fast.inPlace c.env c.act with
  | none => exact h
  | some r =>
    have houtcome := fun out => HostGpu.renderForwardedZerocopy_outcome c.setup out r.fwd r.ptr
      r.wl.frameBytes s.remaps
      s.gpu
    refine { h with renderForwardedZerocopy := fun n w h' bg fwd => ?_, inPlace := fun n m w h' bg fwd hresult => ?_ }
    · rcases houtcome (c.env.renderForwardedZerocopy n w h' bg fwd) with heq | heq
      · simp only [render, heq]
        exact Nat.zero_le _
      · simp only [render, heq]
        exact h.renderForwardedZerocopy n w h' bg fwd
    · rcases houtcome (c.env.renderForwardedZerocopy n w h' bg fwd) with heq | heq
      · simp only [render, heq] at hresult
        cases hresult
      · simp only [render, heq] at hresult ⊢
        exact h.inPlace n m w h' bg fwd hresult

/-- The imports stay those of the present mappings. -/
private theorem live_step (h : s.gpu.Current s.remaps ∧ Live s) (hs : s.step c = some s') :
    s'.gpu.Current s'.remaps ∧ Live s' := by
  obtain ⟨hcurrent, hlive⟩ := h
  rw [step, Option.some_inj] at hs
  subst hs
  cases hplace : s.fast.inPlace c.env c.act with
  | some r =>
    obtain ⟨hused, hkept⟩ := HostGpu.renderForwardedZerocopy_current c.setup (r.imported c.env s.fast) r.fwd r.ptr
      r.wl.frameBytes hcurrent
    simp only [Live, gpuAfter, hplace, inPlace_remaps hplace, Bool.false_eq_true, if_false]
    refine ⟨hkept, fun u hu => ?_⟩
    rcases List.mem_append.1 hu with hu | hu
    · exact hlive u hu
    · rw [Option.mem_toList, Option.map_eq_some_iff] at hu
      obtain ⟨ig, hig, rfl⟩ := hu
      exact hused ig hig
  | none =>
    simp only [Live, gpuAfter, hplace, List.append_nil]
    refine ⟨?_, hlive⟩
    split
    · exact HostGpu.current_empty _ rfl
    · exact hcurrent

/-- A command both devices are given. -/
private theorem matches_step (h : Abreast s.fast s.slow) (hc : c.Deterministic) (hs : s.step c = some s') :
    Matches (s.fastEnv c) s.fast c.act s'.fast s'.slow := by
  have hsame := s.fastEnv_same c hc.same
  have hfaithful := s.fastEnv_faithful hc.faithful
  rw [step, Option.some_inj] at hs
  subst hs
  have hother : (∀ sc payload ctx, c.act ≠ .submit sc payload ctx) → s.fast.inPlace (s.fastEnv c) c.act = none →
      Matches (s.fastEnv c) s.fast c.act (s.fast.act (s.fastEnv c) c.act) (s.slow.act c.env' c.act) :=
    fun ha hnone => .of_abreast hnone (h.act hsame ha)
  cases hact : c.act with
  | submit sc payload ctx => exact h.submit hsame hfaithful sc payload ctx
  | _ =>
    rw [hact] at hother
    exact hother nofun rfl

/-- The device that renders in place and the one that copies have the same guest memory and the same retired seqnos
all along a run of clean commands, and without the elision only then.  Along every run an import is only rendered into
under the mappings it was made under. -/
theorem zerocopy_agrees {d : Backend} (hreg : d.Registered) {cs : List Call} (hcs : ∀ c ∈ cs, c.Deterministic) :
    (Lts.Along step Clean (start d) cs → Lts.Always step Agrees (start d) cs) ∧
      (d.elideUnchanged = false → Lts.Always step Agrees (start d) cs → Lts.Along step Clean (start d) cs) ∧
      Lts.Always step Live (start d) cs := by
  have hstart : Abreast (start d).fast (start d).slow := ⟨{ Alike.refl d with }, rfl, rfl, rfl, hreg⟩
  refine ⟨fun halong => ?_, fun hoff halways => ?_, ?_⟩
  · refine halong.always (A := Call.Deterministic) (I := fun s => Abreast s.fast s.slow) ?_ hstart ⟨rfl, rfl⟩ hcs
    intro s c s' hc h hclean hs
    have hmatches := matches_step h hc hs
    obtain ⟨hmem, habreast⟩ := hmatches.clean hclean
    exact ⟨habreast, hmem, hmatches.ringRetired⟩
  · have hrun : (Lts.run step (start d) cs).isSome := Lts.run_isSome (fun _ _ => rfl) _ cs
    obtain ⟨t, ht⟩ := Option.isSome_iff_exists.1 hrun
    refine (Lts.always_iff_along_while (A := Call.Deterministic) (B := fun _ => True)
      (I := fun s => Abreast s.fast s.slow ∧ s.fast.elideUnchanged = false) (fun _ _ _ _ _ => trivial) ?_ ?_
      ⟨hstart, hoff⟩ ⟨rfl, rfl⟩ hcs ht trivial).1 halways
    · intro s c s' hc _ h _ hagrees hs
      have hmatches := matches_step h.1 hc hs
      have hclean := hmatches.exact h.2 hagrees.1
      refine ⟨(hmatches.clean hclean).2, ?_⟩
      cases hs
      exact (act_elideUnchanged _ _ _).trans h.2
    · intro s c s' hc _ h _ hs
      have hmatches := matches_step h.1 hc hs
      exact ⟨fun hagrees => hmatches.exact h.2 hagrees.1,
        fun hclean => ⟨(hmatches.clean hclean).1, hmatches.ringRetired⟩⟩
  · have hnone : Live (start d) := by
      intro u hu
      cases hu
    exact Lts.always_of_invariant (I := fun s => s.gpu.Current s.remaps ∧ Live s) (fun s c s' h hs => live_step h hs)
      (fun s h => h.2) ⟨HostGpu.current_empty 0 rfl, hnone⟩ cs

/-! ### A pixel that is drawn -/

/-- A renderer that draws white frames, in place with the given result. -/
def whiteDraws (result : Option Bool) : Env :=
  { Env.idle with
    supportsZerocopy := fun _ => true
    renderForwardedPresent := fun _ width height _ _ => .pixels (List.replicate (width.toNat * height.toNat * 4) 0xff)
    renderForwardedZerocopy := fun _ width height _ _ =>
      { result, written := if result = some true then List.replicate (width.toNat * height.toNat * 4) 0xff else [] } }

private theorem whiteDraws_deterministic (result : Option Bool) (a : Act) (setup : Setup) :
    Call.Deterministic { act := a, env := whiteDraws result, env' := whiteDraws result, setup } where
  same := ⟨fun _ _ => rfl, fun _ _ => rfl, fun _ _ => rfl⟩
  faithful :=
    { renderClear := nofun
      renderTriangle := nofun
      renderForwardedPresent := fun n width height bg fwd px hpx => by
        cases hpx
        exact List.length_replicate
      renderForwardedZerocopy := fun n width height bg fwd => by
        simp only [whiteDraws]
        split
        · exact List.length_replicate.le
        · exact Nat.zero_le _
      inPlace := fun n m width height bg fwd hresult => by
        have htrue : result = some true := hresult
        simp only [whiteDraws, htrue, if_true] }

/-- A draw of a single pixel at guest address `0x1000`; its shaders are bare magic numbers. -/
def drawPixel : List UInt8 :=
  (([2, 1, 1, 0, 0, 0, 0, 0, 0x1000, 0, 3, 0, 4, 4, 1, 1, SPIRV_MAGIC, SPIRV_MAGIC] : List UInt32).flatMap
    fun w => Bytes.ofValue 4 w.toNat) ++ [0, 0]

/-- The draw is submitted; in place it ends with `result`. -/
def submitDraw (result : Option Bool) (setup : Setup) (seqno : UInt64) : Call where
  act := .submit ⟨0, Encoding.vulkanVenuslike, 74, 0, seqno, 0, 0⟩ drawPixel 0
  env := whiteDraws result
  env' := whiteDraws result
  setup

def command (a : Act) : Call where
  act := a
  env := whiteDraws none
  env' := whiteDraws none
  setup := { pipeline := true, imports := true }

def mappedPage : Backend :=
  { withBroker .default .new (.new "vm" 1 4096) (fun _ => 0) with dma := DmaTable.new.map 0x1000 0x1000 0 }

/-- The pixel is drawn twice in place, the page is mapped elsewhere and the pixel is drawn once more in place and,
when the import of a page mapped elsewhere again fails, copied. -/
def remapped : List Call :=
  [submitDraw (some true) ⟨true, true⟩ 1, submitDraw (some true) ⟨true, true⟩ 2, command (.unmap 0x1000),
    command (.map 0x1000 0x1000 (some 0x2000)), submitDraw (some true) ⟨true, true⟩ 3, command (.unmap 0x1000),
    command (.map 0x1000 0x1000 (some 0x4000)), submitDraw (some true) ⟨true, false⟩ 4]

theorem zerocopy_agrees_remapped :
    Lts.Always step Agrees (start mappedPage) remapped ∧ Lts.Along step Clean (start mappedPage) remapped ∧
      (Lts.run step (start mappedPage) remapped).map (fun s => s.used) =
        some [(⟨0, 4, 0⟩, ⟨0, 4, 0⟩), (⟨0, 4, 0⟩, ⟨0, 4, 0⟩), (⟨0x2000, 4, 2⟩, ⟨0x2000, 4, 2⟩)] := by
  have hclean : Lts.Along step Clean (start mappedPage) remapped := by decide +kernel
  have hreg : mappedPage.Registered := by
    intro t ht
    cases ht
  have hcalls : ∀ c ∈ remapped, c.Deterministic := by
    simp only [remapped, List.forall_mem_cons, List.not_mem_nil, false_implies, implies_true, and_true]
    exact ⟨whiteDraws_deterministic _ _ _, whiteDraws_deterministic _ _ _, whiteDraws_deterministic _ _ _,
      whiteDraws_deterministic _ _ _, whiteDraws_deterministic _ _ _, whiteDraws_deterministic _ _ _,
      whiteDraws_deterministic _ _ _, whiteDraws_deterministic _ _ _⟩
  exact ⟨(zerocopy_agrees hreg hcalls).1 hclean, hclean, by decide +kernel⟩

/-- When the render in place panics the frame is dropped, and the other path would have presented it. -/
theorem panic_drops_frame : (submitDraw none ⟨true, true⟩ 1).Deterministic ∧
    ¬ Lts.Always step Agrees (start mappedPage) [submitDraw none ⟨true, true⟩ 1] := by
  refine ⟨whiteDraws_deterministic _ _ _, fun h => ?_⟩
  have hend := h.2 _ rfl
  have hpixel := congrFun hend.1 0
  revert hpixel
  decide +kernel

end Zerocopy

end Infinigpu
