import Infinigpu.Lib.Lts
import Infinigpu.Pixel.Window

/-!
# What the viewer's window has in flight (`infinigpu-viewer`, `window`)

A draw composites, and replaces a frame image of another size, before it waits for the fence of the last submission.

* `VkViewer.draw_cases`, `VkViewer.waitAndSubmit_cases`: the ways that a draw can go;
* `VkViewer.draw_hits`: a draw leaves what is in flight alone exactly if it spares it, by the viewer before it;
* `App.spared_iff`: the runs in which nothing is destroyed or overwritten that a submission still reads.
-/

namespace Infinigpu.Window

/-! ### The steps of a draw -/

namespace Gpu

variable {g : Gpu}

@[simp] theorem finish_hits : g.finish.hits = g.hits := by
  unfold finish
  split <;> rfl

@[simp] theorem finish_inFlight : g.finish.inFlight = none := by
  unfold finish
  split
  · assumption
  · rfl

private theorem destroy_hits : g.destroy.hits = [] ↔ g.hits = [] ∧ ∀ sub ∈ g.inFlight, sub.reads = .nothing := by
  unfold destroy
  cases g.inFlight with
  | none => simp
  | some sub =>
    by_cases h : sub.reads = .nothing
    · simp [h]
    · simp [h]

private theorem reads_of_destroy {sub : Submission} (h : sub ∈ g.destroy.inFlight) : sub.reads = .nothing := by
  unfold destroy at h
  cases hg : g.inFlight with
  | none => simp [hg] at h
  | some sub' =>
    by_cases hr : sub'.reads = .nothing
    · simp only [hg, hr, if_true, Option.mem_def, Option.some_inj] at h
      exact h ▸ hr
    · simp only [hg, hr, if_false, Option.mem_def, Option.some_inj] at h
      rw [← h]

private theorem write_hits : g.write.hits = [] ↔ g.hits = [] ∧ ∀ sub ∈ g.inFlight, sub.reads ≠ .staged := by
  unfold write
  cases g.inFlight with
  | none => simp
  | some sub =>
    by_cases h : sub.reads = .staged
    · simp [h]
    · simp [h]

private theorem reads_of_write {sub : Submission} (h : sub ∈ g.write.inFlight) :
    ∃ sub' ∈ g.inFlight, sub'.reads = sub.reads := by
  unfold write at h
  cases hg : g.inFlight with
  | none => simp [hg] at h
  | some sub' =>
    refine ⟨sub', rfl, ?_⟩
    by_cases hr : sub'.reads = .staged
    · simp only [hg, hr, if_true, Option.mem_def, Option.some_inj] at h
      rw [← h, hr]
    · simp only [hg, hr, if_false, Option.mem_def, Option.some_inj] at h
      rw [h]

end Gpu

namespace VkViewer

variable {o : Outcomes} {vk vk' : VkViewer} {slot : CursorSlot} {f : DecodedFrame} {expected : Option Picture}
  {needComposite : Bool}

/-- The viewer with the state of the cursor slot. -/
def withCursor (slot : CursorSlot) (vk : VkViewer) : VkViewer :=
  { vk with
    cursorVisible := slot.visible
    cachedShape := if slot.version ≠ vk.cachedVersion then slot.shape else vk.cachedShape
    cachedVersion := slot.version }

/-- The cursor has another shape or another place than at the last composite. -/
def CursorChanged (slot : CursorSlot) (vk : VkViewer) : Prop :=
  slot.version ≠ vk.cachedVersion ∨ vk.lastCursorKey ≠ some (vk.withCursor slot).cursorKey

instance : Decidable (vk.CursorChanged slot) := inferInstanceAs (Decidable (_ ∨ _))

/-- The viewer with the state of the cursor slot and its key. -/
def keyed (slot : CursorSlot) (vk : VkViewer) : VkViewer :=
  { vk.withCursor slot with lastCursorKey := some (vk.withCursor slot).cursorKey }

private theorem pullCursor_eq : vk.pullCursor slot = (vk.keyed slot, decide (vk.CursorChanged slot)) := by
  have hpull : vk.pullCursor slot =
      if vk.lastCursorKey ≠ some (vk.withCursor slot).cursorKey then (vk.keyed slot, true)
      else (vk.withCursor slot, decide (slot.version ≠ vk.cachedVersion)) := by
    by_cases hv : slot.version = vk.cachedVersion
    · simp [pullCursor, keyed, withCursor, hv]
    · simp [pullCursor, keyed, withCursor, hv]
  rw [hpull]
  by_cases hk : vk.lastCursorKey = some (vk.withCursor slot).cursorKey
  · have hkeyed : vk.keyed slot = vk.withCursor slot := by
      rw [keyed, ← hk]
      rfl
    simp [CursorChanged, hk, hkeyed]
  · simp [CursorChanged, hk]

theorem compose_eq : vk.compose slot needComposite =
    if needComposite = true ∨ vk.CursorChanged slot then (vk.keyed slot).compositeIntoStaging else vk.keyed slot := by
  simp only [compose, pullCursor_eq, Bool.or_eq_true, decide_eq_true_eq]

theorem compose_gpu : (vk.compose slot needComposite).gpu =
    if (needComposite = true ∨ vk.CursorChanged slot) ∧ vk.composable = true then vk.gpu.write else vk.gpu := by
  have hkeyed : (vk.keyed slot).composable = vk.composable := rfl
  rw [compose_eq]
  by_cases hneed : needComposite = true ∨ vk.CursorChanged slot
  · rw [if_pos hneed, compositeIntoStaging, hkeyed]
    by_cases hc : vk.composable = true
    · rw [if_pos hc, if_pos ⟨hneed, hc⟩]
      rfl
    · rw [if_neg hc, if_neg fun h => hc h.2]
      rfl
  · rw [if_neg hneed, if_neg fun h => hneed h.1]
    rfl

private theorem compose_isSome : (vk.compose slot needComposite).frame.isSome = vk.frame.isSome := by
  rw [compose_eq]
  split
  · unfold compositeIntoStaging
    split
    · exact Option.isSome_map
    · rfl
  · rfl

private theorem ingest_length : (vk.ingest f).cleanFrame.length = (f.width * f.height).toNat * 4 := by
  simp only [ingest, length_swizzleInto, List.length_append, List.length_take, List.length_replicate]
  omega

/-- With a frame image of its size, a new frame is composited unless the 32 bits of its size overflow. -/
private theorem composable_ingest (hfits : vk.fits f = true) : (vk.ingest f).composable = true ↔ f.Drawable := by
  have hsize : (vk.ingest f).frame.any (fun fi => decide (fi.width = f.width ∧ fi.height = f.height)) = true := hfits
  have hneed : (vk.ingest f).need = f.width.toNat * f.height.toNat * 4 := rfl
  have hmod : (f.width * f.height).toNat = f.width.toNat * f.height.toNat % 2 ^ 32 := UInt32.toNat_mul _ _
  simp only [composable, hneed, ingest_length, hmod, Bool.and_eq_true, decide_eq_true_eq, DecodedFrame.Drawable]
  generalize f.width.toNat * f.height.toNat = n
  constructor
  · rintro ⟨⟨hpos, hle⟩, -⟩
    omega
  · rintro ⟨hpos, hlt⟩
    exact ⟨⟨by omega, by omega⟩, hsize⟩

/-- What `recreateSwapchain` succeeds with: a minimized window keeps what it has, else all is made. -/
theorem recreateSwapchain_ok (h : vk.recreateSwapchain o = .ok vk') :
    (o.Minimized vk.wantExtent ∧ vk' = { vk with gpu := vk.gpu.finish }) ∨
    (o.Remakes vk.wantExtent ∧ ∃ extent : Extent2D, extent.width ≠ 0 ∧
      vk' = { vk with gpu := vk.gpu.finish, swapchain := true, swapImages := true, extent, dirty := false }) := by
  simp only [recreateSwapchain] at h
  cases hidle : o.deviceWaitIdle with
  | false => simp [hidle] at h
  | true =>
    cases hcaps : o.capabilities with
    | none => simp [hidle, hcaps] at h
    | some caps =>
      simp only [hidle, hcaps, if_true] at h
      split at h
      · rename_i hzero
        cases h
        exact .inl ⟨⟨hidle, caps, hcaps, hzero⟩, rfl⟩
      · rename_i hzero
        split at h
        · rename_i hmake
          split at h
          · rename_i himages
            cases h
            exact .inr ⟨⟨hidle, ⟨caps, hcaps, hzero⟩, hmake, himages⟩, _, fun hw => hzero (.inl hw), rfl⟩
          · cases h
        · cases h

/-- An error of `recreateSwapchain` leaves the swapchain for the next draw to make. -/
private theorem recreateSwapchain_error (h : vk.recreateSwapchain o = .error vk') :
    vk' = vk ∨ ∃ swapchain swapImages, vk' = { vk with gpu := vk.gpu.finish, swapchain, swapImages } := by
  simp only [recreateSwapchain] at h
  cases hidle : o.deviceWaitIdle with
  | false =>
    simp only [hidle, Bool.false_eq_true, if_false] at h
    cases h
    exact .inl rfl
  | true =>
    right
    cases hcaps : o.capabilities with
    | none =>
      simp only [hidle, hcaps, if_true] at h
      cases h
      exact ⟨vk.swapchain, vk.swapImages, rfl⟩
    | some caps =>
      simp only [hidle, hcaps, if_true] at h
      split at h
      · cases h
      · split at h
        · split at h
          · cases h
          · cases h
            exact ⟨true, false, rfl⟩
        · cases h
          exact ⟨vk.swapchain, vk.swapImages, rfl⟩

/-- The ways a draw can go. -/
inductive Drawn (o : Outcomes) (slot : CursorSlot) (expected : Option Picture) (vk : VkViewer) :
    Option DecodedFrame → VkViewer → Prop
  | unmade {newFrame : Option DecodedFrame} {v : VkViewer} (hrefresh : vk.refresh o = .error v) :
      Drawn o slot expected vk newFrame v
  | skipped {newFrame : Option DecodedFrame} {v : VkViewer} (hrefresh : vk.refresh o = .ok v)
      (hnone : v.extent.width = 0 ∨ v.swapchain = false) : Drawn o slot expected vk newFrame v
  | again {v v' : VkViewer} (hrefresh : vk.refresh o = .ok v) (hsome : ¬ (v.extent.width = 0 ∨ v.swapchain = false))
      (hwait : (v.compose slot false).waitAndSubmit o expected = some v') : Drawn o slot expected vk none v'
  | unallocated {f : DecodedFrame} {v v' : VkViewer} (hrefresh : vk.refresh o = .ok v)
      (hsome : ¬ (v.extent.width = 0 ∨ v.swapchain = false)) (hensure : v.ensureFrameImage o f = .error v') :
      Drawn o slot expected vk (some f) v'
  | ingested {f : DecodedFrame} {v w v' : VkViewer} (hrefresh : vk.refresh o = .ok v)
      (hsome : ¬ (v.extent.width = 0 ∨ v.swapchain = false)) (hensure : v.ensureFrameImage o f = .ok w)
      (hwait : ((w.ingest f).compose slot true).waitAndSubmit o expected = some v') :
      Drawn o slot expected vk (some f) v'

theorem draw_cases {newFrame : Option DecodedFrame} (h : vk.draw o slot newFrame expected = some vk') :
    Drawn o slot expected vk newFrame vk' := by
  unfold draw at h
  cases hrefresh : vk.refresh o with
  | error v =>
    simp only [hrefresh, Option.some_inj] at h
    subst h
    exact .unmade hrefresh
  | ok v =>
    by_cases hskip : v.extent.width = 0 ∨ v.swapchain = false
    · simp only [hrefresh, hskip, if_true, Option.some_inj] at h
      subst h
      exact .skipped hrefresh hskip
    · cases newFrame with
      | none =>
        simp only [hrefresh, hskip, if_false] at h
        exact .again hrefresh hskip h
      | some f =>
        cases hensure : v.ensureFrameImage o f with
        | error w =>
          simp only [hrefresh, hskip, if_false, hensure, Option.some_inj] at h
          subst h
          exact .unallocated hrefresh hskip hensure
        | ok w =>
          simp only [hrefresh, hskip, if_false, hensure] at h
          exact .ingested hrefresh hskip hensure h

/-- The ways the rest of a draw can go. -/
inductive Waited (o : Outcomes) (expected : Option Picture) (vk : VkViewer) : VkViewer → Prop
  | failed : Waited o expected vk vk
  | dropped {dirty : Bool} (hstuck : ¬ vk.Stuck) (hdirty : dirty = false → vk.dirty = false) :
      Waited o expected vk { vk with gpu := vk.gpu.finish, dirty }
  | stuck {dirty : Bool} {frame : Option FrameImage} (hstuck : ¬ vk.Stuck) (hdirty : dirty = false → vk.dirty = false)
      (hframe : frame.isSome = vk.frame.isSome) :
      Waited o expected vk { vk with gpu := { vk.gpu.finish with signalled := false }, dirty, frame }
  | submitted {dirty onScreen : Bool} (hstuck : ¬ vk.Stuck) (hdirty : dirty = false → vk.dirty = false)
      (hshows : onScreen = true → o.Shows) :
      Waited o expected vk
        { vk with
          gpu := { vk.gpu.finish with signalled := false, inFlight := some (vk.submission onScreen expected) }
          dirty
          frame := vk.frame.map FrameImage.submitted }

theorem waitAndSubmit_cases (h : vk.waitAndSubmit o expected = some vk') : Waited o expected vk vk' := by
  simp only [waitAndSubmit] at h
  cases hwait : o.waitForFences with
  | false =>
    simp only [hwait, Bool.false_eq_true, if_false, Option.some_inj] at h
    exact h ▸ .failed
  | true =>
    by_cases hstuck : vk.Stuck
    · simp [hwait, hstuck] at h
    simp only [hwait, hstuck, if_true, if_false] at h
    cases hacquire : o.acquire with
    | outOfDate =>
      simp only [hacquire, Option.some_inj] at h
      subst h
      exact .dropped hstuck fun hd => by simp at hd
    | failed =>
      simp only [hacquire, Option.some_inj] at h
      subst h
      exact .dropped hstuck fun hd => hd
    | image suboptimal =>
      have hdirty (d : Bool) : ((vk.dirty || suboptimal) || d) = false → vk.dirty = false := by
        simp only [Bool.or_eq_false_iff]
        exact fun hd => hd.1.1
      cases hreset : o.resetFences with
      | false =>
        simp only [hacquire, hreset, Bool.false_eq_true, if_false, Option.some_inj] at h
        subst h
        exact .dropped hstuck fun hd => hdirty false (by simpa using hd)
      | true =>
        simp only [hacquire, hreset, if_true, Option.some_inj] at h
        subst h
        cases hrecord : o.record with
        | notBegun =>
          simp only [submitAndPresent, hrecord]
          exact .stuck hstuck (fun hd => hdirty false (by simpa using hd)) rfl
        | notEnded =>
          simp only [submitAndPresent, hrecord]
          exact .stuck hstuck (fun hd => hdirty false (by simpa using hd)) Option.isSome_map
        | whole =>
          cases hsubmit : o.queueSubmit with
          | false =>
            simp only [submitAndPresent, hrecord, hsubmit, Bool.false_eq_true, if_false]
            exact .stuck hstuck (fun hd => hdirty false (by simpa using hd)) Option.isSome_map
          | true =>
            simp only [submitAndPresent, hrecord, hsubmit, if_true]
            exact .submitted hstuck (hdirty _) fun hscreen =>
              ⟨hwait, ⟨suboptimal, hacquire⟩, hreset, hrecord, hsubmit, hscreen⟩

private theorem Waited.hits (h : Waited o expected vk vk') : vk'.gpu.hits = vk.gpu.hits := by
  cases h with
  | failed => rfl
  | dropped => exact Gpu.finish_hits
  | stuck => exact Gpu.finish_hits
  | submitted => exact Gpu.finish_hits

/-- Where the swapchain is not made anew the draw begins with the viewer as it is, else with an idle GPU. -/
theorem refresh_gpu (h : vk.refresh o = .ok vk') :
    (vk.dirty = false ∧ vk' = vk) ∨ (vk.dirty = true ∧ vk'.gpu = vk.gpu.finish ∧ vk'.frame = vk.frame) := by
  unfold refresh at h
  cases hdirty : vk.dirty with
  | false =>
    simp only [hdirty, Bool.false_eq_true, if_false] at h
    cases h
    exact .inl ⟨rfl, rfl⟩
  | true =>
    simp only [hdirty, if_true] at h
    obtain ⟨-, rfl⟩ | ⟨-, extent, -, rfl⟩ := recreateSwapchain_ok h
    · exact .inr ⟨rfl, rfl, rfl⟩
    · exact .inr ⟨rfl, rfl, rfl⟩

theorem refresh_error (h : vk.refresh o = .error vk') :
    vk.dirty = true ∧
      (vk' = vk ∨ ∃ swapchain swapImages, vk' = { vk with gpu := vk.gpu.finish, swapchain, swapImages }) := by
  unfold refresh at h
  split at h
  · rename_i hdirty
    exact ⟨hdirty, recreateSwapchain_error h⟩
  · cases h

/-! ### What a draw hits -/

/-- What is in flight reads a frame image that is there. -/
def Backed (vk : VkViewer) : Prop := ∀ sub ∈ vk.gpu.inFlight, sub.reads ≠ .nothing → vk.frame.isSome = true

/-- A draw composites into the frame image that it finds. -/
def Recomposites (slot : CursorSlot) (newFrame : Option DecodedFrame) (vk : VkViewer) : Prop :=
  match newFrame with
  | some f => vk.fits f = true ∧ f.Drawable
  | none => vk.CursorChanged slot ∧ vk.composable = true

instance (slot : CursorSlot) (newFrame : Option DecodedFrame) (vk : VkViewer) :
    Decidable (vk.Recomposites slot newFrame) :=
  match newFrame with
  | some _ => inferInstanceAs (Decidable (_ ∧ _))
  | none => inferInstanceAs (Decidable (_ ∧ _))

/-- A draw neither destroys nor overwrites what the submission reads. -/
def Spares (slot : CursorSlot) (newFrame : Option DecodedFrame) (vk : VkViewer) (sub : Submission) : Prop :=
  (sub.reads ≠ .nothing → ∀ f ∈ newFrame, vk.fits f = true) ∧
    (sub.reads = .staged → ¬ vk.Recomposites slot newFrame)

instance (slot : CursorSlot) (newFrame : Option DecodedFrame) (vk : VkViewer) (sub : Submission) :
    Decidable (vk.Spares slot newFrame sub) := inferInstanceAs (Decidable (_ ∧ _))

/-- A draw that gets past the swapchain without a wait spares what is in flight. -/
def SparesAll (slot : CursorSlot) (newFrame : Option DecodedFrame) (vk : VkViewer) : Prop :=
  vk.dirty = true ∨ vk.extent.width = 0 ∨ vk.swapchain = false ∨ ∀ sub ∈ vk.gpu.inFlight, vk.Spares slot newFrame sub

instance (slot : CursorSlot) (newFrame : Option DecodedFrame) (vk : VkViewer) :
    Decidable (vk.SparesAll slot newFrame) := inferInstanceAs (Decidable (_ ∨ _ ∨ _ ∨ _))

private theorem compose_hits : (vk.compose slot needComposite).gpu.hits = [] ↔ vk.gpu.hits = [] ∧
    ((needComposite = true ∨ vk.CursorChanged slot) ∧ vk.composable = true →
      ∀ sub ∈ vk.gpu.inFlight, sub.reads ≠ .staged) := by
  rw [compose_gpu]
  split
  · rename_i hwrite
    rw [Gpu.write_hits]
    exact and_congr_right fun _ => ⟨fun h _ => h, fun h => h hwrite⟩
  · rename_i hwrite
    exact ⟨fun h => ⟨h, fun hw => absurd hw hwrite⟩, fun h => h.1⟩

private theorem destroyFrameImage_hits (hback : vk.Backed) : vk.destroyFrameImage.gpu.hits = [] ↔
    vk.gpu.hits = [] ∧ ∀ sub ∈ vk.gpu.inFlight, sub.reads = .nothing := by
  unfold destroyFrameImage
  cases hframe : vk.frame.isSome with
  | true => exact Gpu.destroy_hits
  | false =>
    refine ⟨fun h => ⟨h, fun sub hsub => ?_⟩, fun h => h.1⟩
    by_contra hr
    have hsome := hback sub hsub hr
    simp [hframe] at hsome

theorem reads_of_destroyFrameImage (hback : vk.Backed) {sub : Submission}
    (h : sub ∈ vk.destroyFrameImage.gpu.inFlight) : sub.reads = .nothing := by
  unfold destroyFrameImage at h
  cases hframe : vk.frame.isSome with
  | true =>
    rw [hframe, if_pos rfl] at h
    exact Gpu.reads_of_destroy h
  | false =>
    simp only [hframe, Bool.false_eq_true, if_false] at h
    by_contra hr
    have hsome := hback sub h hr
    simp [hframe] at hsome

theorem ensureFrameImage_ok (h : vk.ensureFrameImage o f = .ok vk') :
    (vk.fits f = true ∧ vk' = vk) ∨ (vk.fits f = false ∧ o.frameImage = true ∧
      vk' = { vk.destroyFrameImage with frame := some (.new f.width f.height) }) := by
  unfold ensureFrameImage at h
  cases hfits : vk.fits f with
  | true =>
    simp only [hfits, if_true] at h
    cases h
    exact .inl ⟨rfl, rfl⟩
  | false =>
    simp only [hfits, Bool.false_eq_true, if_false] at h
    split at h
    · rename_i hmade
      cases h
      exact .inr ⟨rfl, hmade, rfl⟩
    · cases h

theorem ensureFrameImage_error (h : vk.ensureFrameImage o f = .error vk') :
    vk.fits f = false ∧ o.frameImage = false ∧ vk' = vk.destroyFrameImage := by
  unfold ensureFrameImage at h
  cases hfits : vk.fits f with
  | true => simp [hfits] at h
  | false =>
    cases hmade : o.frameImage with
    | true => simp [hfits, hmade] at h
    | false =>
      simp only [hfits, hmade, Bool.false_eq_true, if_false] at h
      cases h
      exact ⟨rfl, rfl, rfl⟩

theorem fits_ensureFrameImage (h : vk.ensureFrameImage o f = .ok vk') : vk'.fits f = true := by
  obtain ⟨hfits, rfl⟩ | ⟨-, -, rfl⟩ := ensureFrameImage_ok h
  · exact hfits
  · simp [fits, FrameImage.new]

theorem spares_iff_of_not_fits {sub : Submission} (hfits : vk.fits f = false) :
    vk.Spares slot (some f) sub ↔ sub.reads = .nothing := by
  constructor
  · intro hspare
    by_contra hr
    have hfit := hspare.1 hr f rfl
    rw [hfits] at hfit
    cases hfit
  · intro hr
    refine ⟨fun hne => absurd hr hne, fun hstaged => ?_⟩
    rw [hr] at hstaged
    cases hstaged

/-- The draw of a new frame hits what is in flight by the frame image that it replaces, or by the staging buffer that
it keeps. -/
private theorem ingested_hits (hback : vk.Backed) (h : vk.ensureFrameImage o f = .ok vk') :
    ((vk'.ingest f).compose slot true).gpu.hits = [] ↔
      vk.gpu.hits = [] ∧ ∀ sub ∈ vk.gpu.inFlight, vk.Spares slot (some f) sub := by
  have hcompose : ((vk'.ingest f).compose slot true).gpu.hits = [] ↔ vk'.gpu.hits = [] ∧
      (f.Drawable → ∀ sub ∈ vk'.gpu.inFlight, sub.reads ≠ .staged) := by
    rw [compose_hits, composable_ingest (fits_ensureFrameImage h)]
    simp only [true_or, true_and]
    rfl
  rw [hcompose]
  obtain ⟨hfits, rfl⟩ | ⟨hfits, -, rfl⟩ := ensureFrameImage_ok h
  · refine and_congr_right fun _ => ⟨fun hdraw sub hsub => ⟨fun _ g hg => ?_, fun hstaged hre => ?_⟩,
      fun hspare hdraw sub hsub hstaged => (hspare sub hsub).2 hstaged ⟨hfits, hdraw⟩⟩
    · rw [Option.mem_def, Option.some_inj] at hg
      exact hg ▸ hfits
    · exact hdraw hre.2 sub hsub hstaged
  · have hnone : f.Drawable → ∀ sub ∈ vk.destroyFrameImage.gpu.inFlight, sub.reads ≠ .staged := by
      intro _ sub hsub hstaged
      rw [reads_of_destroyFrameImage hback hsub] at hstaged
      cases hstaged
    rw [and_iff_left hnone, destroyFrameImage_hits hback]
    exact and_congr_right fun _ => forall₂_congr fun sub _ => (spares_iff_of_not_fits hfits).symm

/-- A draw leaves what is in flight alone exactly if it spares it. -/
theorem draw_hits {newFrame : Option DecodedFrame} (hback : vk.Backed) (hclean : vk.gpu.hits = [])
    (h : vk.draw o slot newFrame expected = some vk') : vk'.gpu.hits = [] ↔ vk.SparesAll slot newFrame := by
  have hrefreshed {v : VkViewer} (hr : vk.refresh o = .ok v) (hs : ¬ (v.extent.width = 0 ∨ v.swapchain = false)) :
      v.Backed ∧ ((v.gpu.hits = [] ∧ ∀ sub ∈ v.gpu.inFlight, v.Spares slot newFrame sub) ↔
        vk.SparesAll slot newFrame) := by
    obtain ⟨hdirty, rfl⟩ | ⟨hdirty, hgpu, hframe⟩ := refresh_gpu hr
    · refine ⟨hback, ⟨fun hall => .inr (.inr (.inr hall.2)), fun hall => ⟨hclean, ?_⟩⟩⟩
      obtain hd | hw | hc | hall := hall
      · rw [hdirty] at hd
        cases hd
      · exact absurd (.inl hw) hs
      · exact absurd (.inr hc) hs
      · exact hall
    · have hidle : v.gpu.inFlight = none := by rw [hgpu, Gpu.finish_inFlight]
      have hhits : v.gpu.hits = [] := by rw [hgpu, Gpu.finish_hits, hclean]
      refine ⟨fun sub hsub => ?_, iff_of_true ⟨hhits, fun sub hsub => ?_⟩ (.inl hdirty)⟩
      · simp [hidle] at hsub
      · simp [hidle] at hsub
  cases draw_cases h with
  | unmade hr =>
    obtain ⟨hdirty, rfl | ⟨_, _, rfl⟩⟩ := refresh_error hr
    · exact iff_of_true hclean (.inl hdirty)
    · exact iff_of_true (Gpu.finish_hits.trans hclean) (.inl hdirty)
  | skipped hr hs =>
    obtain ⟨hdirty, rfl⟩ | ⟨hdirty, hgpu, -⟩ := refresh_gpu hr
    · refine iff_of_true hclean (.inr ?_)
      exact hs.elim .inl fun hc => .inr (.inl hc)
    · exact iff_of_true (by rw [hgpu, Gpu.finish_hits, hclean]) (.inl hdirty)
  | again hr hs hwait =>
    obtain ⟨hback', hiff⟩ := hrefreshed hr hs
    rw [(waitAndSubmit_cases hwait).hits, compose_hits, ← hiff]
    refine and_congr_right fun _ => ?_
    constructor
    · intro hw sub hsub
      exact ⟨fun _ g hg => by simp at hg, fun hstaged hre => hw ⟨.inr hre.1, hre.2⟩ sub hsub hstaged⟩
    · rintro hspare ⟨hneed, hc⟩ sub hsub hstaged
      exact (hspare sub hsub).2 hstaged ⟨hneed.resolve_left (by decide), hc⟩
  | unallocated hr hs hensure =>
    obtain ⟨hback', hiff⟩ := hrefreshed hr hs
    obtain ⟨hfits, -, rfl⟩ := ensureFrameImage_error hensure
    rw [destroyFrameImage_hits hback', ← hiff]
    exact and_congr_right fun _ => forall₂_congr fun sub _ => (spares_iff_of_not_fits hfits).symm
  | ingested hr hs hensure hwait =>
    obtain ⟨hback', hiff⟩ := hrefreshed hr hs
    rw [(waitAndSubmit_cases hwait).hits, ingested_hits hback' hensure, hiff]

/-! ### Runs -/

theorem backed_of_idle (h : vk.gpu.inFlight = none) : vk.Backed := by
  intro sub hsub
  simp [h] at hsub

theorem Backed.compose (hback : vk.Backed) : (vk.compose slot needComposite).Backed := by
  intro sub hsub hr
  rw [compose_isSome]
  rw [compose_gpu] at hsub
  split at hsub
  · obtain ⟨sub', hsub', heq⟩ := Gpu.reads_of_write hsub
    exact hback sub' hsub' (heq ▸ hr)
  · exact hback sub hsub hr

theorem Waited.backed (h : Waited o expected vk vk') (hback : vk.Backed) : vk'.Backed := by
  cases h with
  | failed => exact hback
  | dropped => exact backed_of_idle Gpu.finish_inFlight
  | stuck => exact backed_of_idle Gpu.finish_inFlight
  | submitted =>
    intro sub hsub hr
    rw [Option.mem_def, Option.some_inj] at hsub
    subst hsub
    cases hframe : vk.frame with
    | none => simp [submission, hframe] at hr
    | some fi => rfl

theorem Backed.ensureFrameImage (hback : vk.Backed) (h : vk.ensureFrameImage o f = .ok vk') : vk'.Backed := by
  obtain ⟨-, rfl⟩ | ⟨-, -, rfl⟩ := ensureFrameImage_ok h
  · exact hback
  · exact fun _ _ _ => rfl

private theorem Backed.refresh (hback : vk.Backed) (h : vk.refresh o = .ok vk') : vk'.Backed := by
  obtain ⟨-, rfl⟩ | ⟨-, hgpu, -⟩ := refresh_gpu h
  · exact hback
  · exact backed_of_idle (by rw [hgpu, Gpu.finish_inFlight])

private theorem Backed.draw {newFrame : Option DecodedFrame} (hback : vk.Backed)
    (h : vk.draw o slot newFrame expected = some vk') : vk'.Backed := by
  cases draw_cases h with
  | unmade hr =>
    obtain ⟨-, rfl | ⟨_, _, rfl⟩⟩ := refresh_error hr
    · exact hback
    · exact backed_of_idle Gpu.finish_inFlight
  | skipped hr => exact hback.refresh hr
  | again hr _ hwait => exact (waitAndSubmit_cases hwait).backed (hback.refresh hr).compose
  | unallocated hr _ hensure =>
    obtain ⟨-, -, rfl⟩ := ensureFrameImage_error hensure
    exact fun sub hsub hread => absurd (reads_of_destroyFrameImage (hback.refresh hr) hsub) hread
  | ingested hr _ hensure hwait =>
    have hingest := (hback.refresh hr).ensureFrameImage hensure
    exact (waitAndSubmit_cases hwait).backed (Backed.compose hingest)

/-- A new viewer has an idle GPU and no frame image. -/
theorem new_idle {w h : UInt32} (hnew : new w h o = some vk) :
    vk.gpu = .new ∧ vk.frame = none ∧ vk.lastCursorKey = none ∧ (vk.dirty = false → vk.swapImages = true) := by
  unfold new at hnew
  split at hnew
  · rename_i hrec
    rw [Option.some_inj] at hnew
    subst hnew
    obtain ⟨-, rfl⟩ | ⟨-, extent, -, rfl⟩ := recreateSwapchain_ok hrec
    · exact ⟨rfl, rfl, rfl, fun hd => by simp at hd⟩
    · exact ⟨rfl, rfl, rfl, fun _ => rfl⟩
  · cases hnew

end VkViewer

namespace App

variable {s s' : App} {o : Outcomes}

/-- The condition on one event, by the state before it. -/
def Spares (s : App) : Event → Prop
  | .redrawRequested _ => s.vk.SparesAll s.cursorSlot s.slot
  | .put _ => True
  | .define _ _ => True
  | .setVisible _ => True
  | .pointer _ => True
  | .resized _ _ => True
  | .gpuFinished => True

instance (s : App) : (e : Event) → Decidable (s.Spares e)
  | .redrawRequested _ => inferInstanceAs (Decidable (VkViewer.SparesAll _ _ _))
  | .put _ => .isTrue trivial
  | .define _ _ => .isTrue trivial
  | .setVisible _ => .isTrue trivial
  | .pointer _ => .isTrue trivial
  | .resized _ _ => .isTrue trivial
  | .gpuFinished => .isTrue trivial

/-- Nothing was destroyed or written that a submission still read. -/
def Unhit (s : App) : Prop := s.vk.gpu.hits = []

theorem redraw_cases (h : s.redraw o = some s') : ∃ vk,
    s.vk.draw o s.cursorSlot s.slot ((s.slot.or s.newest).map fun f => f.shown s.cursorSlot s.vk.localCursor) =
      some vk ∧ s' = { s with vk, slot := none, newest := s.slot.or s.newest } := by
  obtain ⟨vk, hdraw, heq⟩ := Option.map_eq_some_iff.mp h
  exact ⟨vk, hdraw, heq.symm⟩

private theorem step_backed {e : Event} (hback : s.vk.Backed) (h : s.step e = some s') : s'.vk.Backed := by
  cases e with
  | redrawRequested o =>
    obtain ⟨vk, hdraw, rfl⟩ := redraw_cases h
    exact hback.draw hdraw
  | gpuFinished =>
    cases h
    exact VkViewer.backed_of_idle Gpu.finish_inFlight
  | put f | define shape visible | setVisible visible | pointer pos | resized w h =>
    cases h
    exact hback

private theorem step_unhit {e : Event} (hback : s.vk.Backed) (hs : s.Unhit) (h : s.step e = some s') :
    s'.Unhit ↔ s.Spares e := by
  cases e with
  | redrawRequested o =>
    obtain ⟨vk, hdraw, rfl⟩ := redraw_cases h
    exact VkViewer.draw_hits hback hs hdraw
  | gpuFinished =>
    cases h
    exact iff_of_true (Gpu.finish_hits.trans hs) trivial
  | put f | define shape visible | setVisible visible | pointer pos | resized w h =>
    cases h
    exact iff_of_true hs trivial

/-- A run leaves what is in flight alone exactly if each of its draws spares it: a draw that gets past the swapchain
without a wait has no frame of another size while its image is read, and composites nothing while its staging buffer
is. -/
theorem spared_iff {w h : UInt32} {es : List Event} (hnew : App.new w h o = some s)
    (hrun : (Lts.run App.step s es).isSome) :
    Lts.Always App.step Unhit s es ↔ Lts.Along App.step Spares s es := by
  obtain ⟨vk, hvk, rfl⟩ := Option.map_eq_some_iff.mp hnew
  obtain ⟨hgpu, -⟩ := VkViewer.new_idle hvk
  refine Lts.always_iff_along (I := fun s => s.vk.Backed) (fun s e s' hs hstep => step_backed hs hstep)
    (fun s e s' hs hQ hstep => step_unhit hs hQ hstep) ?_ ?_ hrun
  · exact VkViewer.backed_of_idle (by rw [hgpu]; rfl)
  · show vk.gpu.hits = []
    rw [hgpu]
    rfl

/-- A surface of one pixel, and no call that fails. -/
def fine : Outcomes :=
  { deviceWaitIdle := true, capabilities := some ⟨⟨1, 1⟩, ⟨1, 1⟩, ⟨1, 1⟩⟩, surfaceFormats := true
    presentModes := true
    createSwapchain := true, swapchainImages := true, frameImage := true, waitForFences := true
    acquire := .image false, resetFences := true, record := .whole, queueSubmit := true
    queuePresent := .presented false }

/-- A frame of one pixel. -/
def dot (r g b : UInt8) : DecodedFrame := ⟨[r, g, b, 255], 1, 1, rfl⟩

/-- The window of one pixel, before its first draw. -/
def opened : App where
  vk :=
    { gpu := .new, swapchain := true, swapImages := true, extent := ⟨1, 1⟩, frame := none, wantExtent := ⟨1, 1⟩
      dirty := false, cleanFrame := [], cleanW := 0, cleanH := 0, localCursor := none, cachedShape := none
      cachedVersion := 0, cursorVisible := false, lastCursorKey := none }
  slot := none
  cursorSlot := .default
  newest := none

theorem new_fine : App.new 1 1 fine = some opened := rfl

theorem spared_iff_finished : Lts.Always App.step Unhit opened
    [.put (dot 1 2 3), .redrawRequested fine, .gpuFinished, .put (dot 4 5 6), .redrawRequested fine] :=
  (spared_iff new_fine (by decide +kernel)).mpr (by decide +kernel)

/-- The second of two frames is composited while the first is still read. -/
theorem not_always_spared : ¬ ∀ (w h : UInt32) (o : Outcomes) (s : App) (es : List Event),
    App.new w h o = some s → (Lts.run App.step s es).isSome → Lts.Always App.step Unhit s es := by
  intro h
  have hhit : ∀ t ∈ Lts.run App.step opened
      [.put (dot 1 2 3), .redrawRequested fine, .put (dot 4 5 6), .redrawRequested fine], t.vk.gpu.hits ≠ [] := by
    decide +kernel
  obtain ⟨t, ht⟩ := Option.isSome_iff_exists.mp (show (Lts.run App.step opened
    [.put (dot 1 2 3), .redrawRequested fine, .put (dot 4 5 6), .redrawRequested fine]).isSome by decide +kernel)
  exact hhit t ht ((h 1 1 fine opened _ new_fine (by rw [ht]; rfl)).last ht)

end App

end Infinigpu.Window
