import Infinigpu.Pixel.InFlight

/-!
# The composite of the viewer's window (`infinigpu-viewer`, `window` and `stream`)

A draw composites again only for a new frame, a new shape or a new cursor key.

* `VkViewer.overlaid_eq`: the composite is a function of the clean frame, the shape and the cursor key;
* `VkViewer.Current`: the clean buffer holds the newest frame, and the frame image is, or is about to become, what
  compositing from scratch under the last cursor key gives;
* `App.newest_shown`: a run whose draws lose no frame and hit nothing in flight shows the newest frame under the
  current cursor.
-/

namespace Infinigpu.Window

private theorem exists_cons_four {l : List UInt8} (h : 4 ≤ l.length) :
    ∃ a b c d l', l = a :: b :: c :: d :: l' := by
  obtain ⟨a, l, rfl⟩ := List.exists_cons_of_length_pos (by omega : 0 < l.length)
  rw [List.length_cons] at h
  obtain ⟨b, l, rfl⟩ := List.exists_cons_of_length_pos (by omega : 0 < l.length)
  rw [List.length_cons] at h
  obtain ⟨c, l, rfl⟩ := List.exists_cons_of_length_pos (by omega : 0 < l.length)
  rw [List.length_cons] at h
  obtain ⟨d, l, rfl⟩ := List.exists_cons_of_length_pos (by omega : 0 < l.length)
  exact ⟨a, b, c, d, l, rfl⟩

/-- A BGRA copy does not depend on the buffer that it fills. -/
private theorem swizzleInto_congr {n : Nat} {src dst dst' : List UInt8} (hsrc : src.length = n * 4)
    (hdst : dst.length = n * 4) (hdst' : dst'.length = n * 4) : swizzleInto src dst = swizzleInto src dst' := by
  induction n generalizing src dst dst' with
  | zero =>
    rw [List.eq_nil_of_length_eq_zero (by omega : dst.length = 0),
      List.eq_nil_of_length_eq_zero (by omega : dst'.length = 0)]
  | succ n ih =>
    obtain ⟨r, g, b, a, src, rfl⟩ := exists_cons_four (l := src) (by omega)
    obtain ⟨_, _, _, _, dst, rfl⟩ := exists_cons_four (l := dst) (by omega)
    obtain ⟨_, _, _, _, dst', rfl⟩ := exists_cons_four (l := dst') (by omega)
    simp only [List.length_cons] at hsrc hdst hdst'
    have htail : swizzleInto src dst = swizzleInto src dst' := ih (by omega) (by omega) (by omega)
    rw [swizzleInto, swizzleInto, htail]

/-! ### The cursor key -/

/-- The shape matters where it is drawn only. -/
private theorem overlay_congr {clean : List UInt8} {w h : UInt32} {visible : Bool} {pos : Option (Float32 × Float32)}
    {shape shape' : Option CursorShape} (hshape : visible = true → pos.isSome = true → shape = shape') :
    overlay clean w h visible pos shape = overlay clean w h visible pos shape' := by
  cases pos with
  | none => rfl
  | some p =>
    cases visible with
    | true => rw [hshape rfl rfl]
    | false => cases shape <;> cases shape' <;> simp [overlay]

namespace VkViewer

variable {o : Outcomes} {vk vk' : VkViewer} {slot : CursorSlot} {f : DecodedFrame} {expected : Option Picture}
  {needComposite : Bool} {key : CursorKey}

/-- The clean frame with the sprite where the key has it. -/
def drawnAt (key : CursorKey) (vk : VkViewer) : List UInt8 :=
  let dst := vk.cleanFrame.take vk.need
  match vk.cachedShape with
  | some sh =>
    if key.drawn then
      blendSprite dst vk.cleanW.toNat vk.cleanH.toNat sh.bgra sh.w.toNat sh.h.toNat key.px key.py sh.premultiplied
    else
      dst
  | none => dst

/-- What is composited depends on the pointer and the visibility by the cursor key only. -/
theorem overlaid_eq : vk.overlaid = vk.drawnAt vk.cursorKey := by
  unfold overlaid drawnAt overlay cursorKey
  cases vk.cachedShape with
  | none =>
    cases vk.localCursor with
    | none => rfl
    | some pos => rfl
  | some sh =>
    cases vk.localCursor with
    | none => simp [need]
    | some pos =>
      cases vk.cursorVisible with
      | true => simp [need]
      | false => simp [need]

/-- The frame image shows the clean frame under the key, or will after the upload that is pending. -/
def SyncedAt (key : CursorKey) (vk : VkViewer) : Prop :=
  ∃ fi ∈ vk.frame, (fi.width = vk.cleanW ∧ fi.height = vk.cleanH) ∧
    ((fi.pendingUpload = true ∧ fi.staging = vk.drawnAt key) ∨
      (fi.pendingUpload = false ∧ fi.initialized = true ∧ fi.content = some (vk.drawnAt key)))

/-- The frame image shows the clean frame under the key of the last composite. -/
def Synced (vk : VkViewer) : Prop := ∃ key ∈ vk.lastCursorKey, vk.SyncedAt key

/-- The clean buffer holds the frame. -/
def Holds (vk : VkViewer) (f : DecodedFrame) : Prop :=
  vk.cleanFrame = swizzleInto f.rgba f.rgba ∧ vk.cleanW = f.width ∧ vk.cleanH = f.height

private theorem holds_ingest (hdraw : f.Drawable) : (vk.ingest f).Holds f := by
  have hmod : (f.width * f.height).toNat = f.width.toNat * f.height.toNat := by
    rw [UInt32.toNat_mul, Nat.mod_eq_of_lt hdraw.2]
  refine ⟨?_, rfl, rfl⟩
  refine swizzleInto_congr f.packed ?_ f.packed
  simp only [List.length_append, List.length_take, List.length_replicate, hmod]
  omega

private theorem Holds.composable (hdraw : f.Drawable) (hholds : vk.Holds f)
    (hsize : ∃ fi ∈ vk.frame, fi.width = vk.cleanW ∧ fi.height = vk.cleanH) : vk.composable = true := by
  obtain ⟨fi, hfi, hw, hh⟩ := hsize
  obtain ⟨hclean, hcw, hch⟩ := hholds
  have hlen : vk.cleanFrame.length = vk.need := by
    rw [hclean, length_swizzleInto, f.packed, need, hcw, hch]
  have hpos : vk.need ≠ 0 := by
    have hd := hdraw.1
    rw [need, hcw, hch]
    omega
  rw [Option.mem_def] at hfi
  simp [VkViewer.composable, hpos, hlen, hfi, hw, hh]

/-- The keyed viewer keeps the shape of an unchanged cursor. -/
private theorem keyed_cachedShape (h : ¬ vk.CursorChanged slot) : (vk.keyed slot).cachedShape = vk.cachedShape := by
  have hv : ¬ slot.version ≠ vk.cachedVersion := fun hne => h (.inl hne)
  exact if_neg hv

/-- After the compose step the frame image shows the frame under the present cursor: with a new frame or another key
it is composited again, else it still shows what it would be composited to. -/
private theorem Holds.compose (hholds : vk.Holds f) (hdraw : f.Drawable)
    (hsize : ∃ fi ∈ vk.frame, fi.width = vk.cleanW ∧ fi.height = vk.cleanH)
    (hsync : needComposite = false → vk.Synced) :
    (vk.compose slot needComposite).lastCursorKey = some (vk.compose slot needComposite).cursorKey ∧
      (vk.compose slot needComposite).SyncedAt (vk.compose slot needComposite).cursorKey := by
  by_cases hneed : needComposite = true ∨ vk.CursorChanged slot
  · have hc : (vk.keyed slot).composable = true := Holds.composable hdraw hholds hsize
    rw [compose_eq, if_pos hneed, compositeIntoStaging, if_pos hc]
    obtain ⟨fi, hfi, hdims⟩ := hsize
    have hfi' : (vk.keyed slot).frame = some fi := hfi
    refine ⟨rfl, { fi with pendingUpload := true, staging := (vk.keyed slot).overlaid }, ?_, hdims, .inl ⟨rfl, ?_⟩⟩
    · rw [hfi']
      rfl
    · exact overlaid_eq
  · rw [compose_eq, if_neg hneed]
    have hchanged : ¬ vk.CursorChanged slot := fun h => hneed (.inr h)
    have hkey : vk.lastCursorKey = some (vk.withCursor slot).cursorKey := by
      by_contra hne
      exact hchanged (.inr hne)
    obtain ⟨key, hmem, hat⟩ := hsync (by simpa using fun h => hneed (.inl h))
    rw [hkey, Option.mem_def, Option.some_inj] at hmem
    subst hmem
    obtain ⟨fi, hfi, hdims, hstate⟩ := hat
    refine ⟨rfl, fi, hfi, hdims, ?_⟩
    have hdrawn : (vk.keyed slot).drawnAt (vk.keyed slot).cursorKey = vk.drawnAt (vk.withCursor slot).cursorKey := by
      rw [drawnAt, drawnAt, keyed_cachedShape hchanged]
      rfl
    rw [hdrawn]
    exact hstate

/-- The compose step changes the frame image and the GPU only, besides the cursor. -/
private theorem compose_keeps (vk : VkViewer) (slot : CursorSlot) (needComposite : Bool) :
    ∃ frame gpu, vk.compose slot needComposite = { vk.keyed slot with frame, gpu } := by
  rw [compose_eq]
  split
  · unfold compositeIntoStaging
    split
    · exact ⟨_, _, rfl⟩
    · exact ⟨_, _, rfl⟩
  · exact ⟨_, _, rfl⟩

private theorem Holds.keyed (hholds : vk.Holds f) : (vk.compose slot needComposite).Holds f := by
  obtain ⟨frame, gpu, heq⟩ := compose_keeps vk slot needComposite
  rw [heq]
  exact hholds

/-- The submission that uploads or keeps a synced frame image fills the screen with it. -/
private theorem SyncedAt.picture {onScreen : Bool} (hsync : vk.SyncedAt key) (hlist : vk.swapImages = true) :
    (vk.submission onScreen expected).picture = .frame vk.cleanW vk.cleanH (vk.drawnAt key) := by
  obtain ⟨fi, hfi, ⟨hw, hh⟩, ⟨hpending, hstaging⟩ | ⟨hpending, hinit, hcontent⟩⟩ := hsync
  · rw [Option.mem_def] at hfi
    simp [submission, hlist, hfi, FrameImage.picture, FrameImage.submitted, FrameImage.recorded, hpending, hstaging,
      hw, hh]
  · rw [Option.mem_def] at hfi
    simp [submission, hlist, hfi, FrameImage.picture, FrameImage.submitted, FrameImage.recorded, hpending, hinit,
      hcontent, hw, hh]

private theorem SyncedAt.submitted {gpu : Gpu} {dirty : Bool} (hsync : vk.SyncedAt key) :
    SyncedAt key { vk with gpu, dirty, frame := vk.frame.map FrameImage.submitted } := by
  obtain ⟨fi, hfi, hdims, hstate⟩ := hsync
  rw [Option.mem_def] at hfi
  refine ⟨fi.submitted, ?_, ?_⟩
  · rw [hfi]
    rfl
  obtain ⟨hpending, hstaging⟩ | ⟨hpending, hinit, hcontent⟩ := hstate
  · refine ⟨?_, .inr ?_⟩
    · simpa [FrameImage.submitted, FrameImage.recorded, hpending] using hdims
    · simp only [FrameImage.submitted, FrameImage.recorded, hpending, if_true, hstaging]
      exact ⟨trivial, trivial, rfl⟩
  · refine ⟨?_, .inr ?_⟩
    · simpa [FrameImage.submitted, FrameImage.recorded, hpending] using hdims
    · simp only [FrameImage.submitted, FrameImage.recorded, hpending, Bool.false_eq_true, if_false, hcontent]
      exact ⟨trivial, hinit, rfl⟩

end VkViewer

/-! ### What came on screen -/

/-- What came on screen, and what is about to, is what was expected. -/
structure Gpu.Agrees (g : Gpu) : Prop where
  presented : ∀ e ∈ g.presented, ∀ p ∈ e.1, e.2 = p
  inFlight : ∀ sub ∈ g.inFlight, sub.onScreen = true → ∀ p ∈ sub.expected, sub.picture = p

namespace Gpu.Agrees

variable {g : Gpu}

private theorem finish (h : g.Agrees) : g.finish.Agrees := by
  refine ⟨?_, by simp⟩
  unfold Gpu.finish
  cases hg : g.inFlight with
  | none => exact h.presented
  | some sub =>
    intro e he
    cases hscreen : sub.onScreen with
    | false =>
      simp only [hscreen, Bool.false_eq_true, if_false] at he
      exact h.presented e he
    | true =>
      simp only [hscreen, if_true, List.mem_append, List.mem_singleton] at he
      obtain he | rfl := he
      · exact h.presented e he
      · exact h.inFlight sub hg hscreen

private theorem destroy (h : g.Agrees) (hspare : ∀ sub ∈ g.inFlight, sub.onScreen = true → sub.reads = .nothing) :
    g.destroy.Agrees := by
  unfold Gpu.destroy
  cases hg : g.inFlight with
  | none => exact h
  | some sub =>
    by_cases hr : sub.reads = .nothing
    · simp only [hr, if_true]
      exact h
    · simp only [hr, if_false]
      refine ⟨h.presented, fun sub' hsub' hscreen => ?_⟩
      rw [Option.mem_def, Option.some_inj] at hsub'
      subst hsub'
      exact absurd (hspare sub hg hscreen) hr

private theorem write (h : g.Agrees) (hspare : ∀ sub ∈ g.inFlight, sub.onScreen = true → sub.reads ≠ .staged) :
    g.write.Agrees := by
  unfold Gpu.write
  cases hg : g.inFlight with
  | none => exact h
  | some sub =>
    by_cases hr : sub.reads = .staged
    · simp only [hr, if_true]
      refine ⟨h.presented, fun sub' hsub' hscreen => ?_⟩
      rw [Option.mem_def, Option.some_inj] at hsub'
      subst hsub'
      exact absurd hr (hspare sub hg hscreen)
    · simp only [hr, if_false]
      exact h

end Gpu.Agrees

namespace VkViewer

variable {o : Outcomes} {vk vk' : VkViewer} {slot : CursorSlot} {f : DecodedFrame} {expected : Option Picture}
  {needComposite : Bool} {key : CursorKey} {newest : Option DecodedFrame}

/-- The clean buffer holds the newest frame, and what came on screen was right. -/
structure Tracks (vk : VkViewer) (newest : Option DecodedFrame) : Prop where
  kept : ∀ f ∈ newest, vk.Holds f
  drawable : ∀ f ∈ newest, f.Drawable
  agrees : vk.gpu.Agrees
  /-- A swapchain that is used has its images. -/
  listed : vk.dirty = false → vk.swapImages = true

/-- The invariant: the frame image follows the clean buffer, unless no submission ever gets through again. -/
structure Current (vk : VkViewer) (newest : Option DecodedFrame) : Prop extends vk.Tracks newest where
  synced : vk.Stuck ∨ ∀ f ∈ newest, vk.Synced
  backed : vk.Backed

private theorem Current.finish (h : vk.Current newest) : Current { vk with gpu := vk.gpu.finish } newest where
  kept := h.kept
  drawable := h.drawable
  agrees := h.agrees.finish
  listed := h.listed
  synced := by
    obtain hstuck | hsync := h.synced
    · left
      have hgpu : vk.gpu.finish = vk.gpu := by
        unfold Gpu.finish
        rw [hstuck.2]
      exact ⟨by rw [hgpu]; exact hstuck.1, Gpu.finish_inFlight⟩
    · exact .inr hsync
  backed := backed_of_idle Gpu.finish_inFlight

private theorem Current.refresh (h : vk.Current newest) (hr : vk.refresh o = .ok vk') : vk'.Current newest := by
  unfold VkViewer.refresh at hr
  split at hr
  · rename_i hdirty
    obtain ⟨-, rfl⟩ | ⟨-, extent, -, rfl⟩ := recreateSwapchain_ok hr
    · exact h.finish
    · obtain ⟨⟨hkept, hdrawable, hagrees, -⟩, hsynced, hbacked⟩ := h.finish
      exact ⟨⟨hkept, hdrawable, hagrees, fun _ => rfl⟩, hsynced, hbacked⟩
  · cases hr
    exact h

private theorem Current.refresh_error (h : vk.Current newest) (hr : vk.refresh o = .error vk') :
    vk'.Current newest := by
  obtain ⟨hdirty, rfl | ⟨swapchain, swapImages, rfl⟩⟩ := VkViewer.refresh_error hr
  · exact h
  · obtain ⟨⟨hkept, hdrawable, hagrees, -⟩, hsynced, hbacked⟩ := h.finish
    refine ⟨⟨hkept, hdrawable, hagrees, fun hclean => ?_⟩, hsynced, hbacked⟩
    exact absurd (hdirty.symm.trans hclean) (by decide)

/-- The draw gets past the swapchain. -/
def Reaches (o : Outcomes) (vk : VkViewer) : Prop :=
  (vk.dirty = true ∧ o.Remakes vk.wantExtent) ∨
    ((vk.dirty = true → o.Minimized vk.wantExtent) ∧ vk.extent.width ≠ 0 ∧ vk.swapchain = true)

private theorem recreateSwapchain_of_minimized (h : o.Minimized vk.wantExtent) :
    vk.recreateSwapchain o = .ok { vk with gpu := vk.gpu.finish } := by
  obtain ⟨hidle, caps, hcaps, hzero⟩ := h
  rw [Option.mem_def] at hcaps
  simp only [recreateSwapchain, hidle, hcaps, hzero, if_true]

private theorem recreateSwapchain_of_remakes (h : o.Remakes vk.wantExtent) : ∃ extent : Extent2D, extent.width ≠ 0 ∧
    vk.recreateSwapchain o =
      .ok { vk with gpu := vk.gpu.finish, swapchain := true, swapImages := true, extent, dirty := false } := by
  obtain ⟨hidle, ⟨caps, hcaps, hzero⟩, hmake, himages⟩ := h
  rw [Option.mem_def] at hcaps
  refine ⟨caps.extent vk.wantExtent, fun hw => hzero (.inl hw), ?_⟩
  simp only [recreateSwapchain, hidle, hcaps, hzero, hmake, himages, if_true, if_false]

private theorem refresh_of_reaches (h : vk.Reaches o) :
    ∃ v, vk.refresh o = .ok v ∧ ¬ (v.extent.width = 0 ∨ v.swapchain = false) := by
  unfold VkViewer.refresh
  obtain ⟨hdirty, hmake⟩ | ⟨hmin, hwidth, hchain⟩ := h
  · obtain ⟨extent, hextent, hrec⟩ := recreateSwapchain_of_remakes hmake
    rw [if_pos hdirty, hrec]
    exact ⟨_, rfl, by simp [hextent]⟩
  · by_cases hdirty : vk.dirty = true
    · rw [if_pos hdirty, recreateSwapchain_of_minimized (hmin hdirty)]
      exact ⟨_, rfl, by simp [hwidth, hchain]⟩
    · rw [if_neg hdirty]
      exact ⟨_, rfl, by simp [hwidth, hchain]⟩

/-- What the rest of a draw begins with: the cursor and the frame are those before, the swapchain has its images. -/
private theorem reaches_of_refresh (h : vk.refresh o = .ok vk')
    (hs : ¬ (vk'.extent.width = 0 ∨ vk'.swapchain = false)) :
    vk.Reaches o := by
  unfold VkViewer.refresh at h
  split at h
  · rename_i hdirty
    obtain ⟨hmin, rfl⟩ | ⟨hmake, -⟩ := recreateSwapchain_ok h
    · exact .inr ⟨fun _ => hmin, fun hw => hs (.inl hw), by simpa using fun hc => hs (.inr hc)⟩
    · exact .inl ⟨hdirty, hmake⟩
  · rename_i hdirty
    cases h
    exact .inr ⟨fun hd => absurd hd hdirty, fun hw => hs (.inl hw), by simpa using fun hc => hs (.inr hc)⟩

instance (o : Outcomes) (vk : VkViewer) : Decidable (vk.Reaches o) :=
  inferInstanceAs (Decidable (_ ∧ _ ∨ _ ∧ _ ∧ _))

/-- The condition on a draw, by the viewer before it and the newest frame that was taken before it. -/
structure Keeps (o : Outcomes) (slot : CursorSlot) (newFrame newest : Option DecodedFrame) (vk : VkViewer) :
    Prop where
  /-- A frame that is taken has pixels and gets to the clean buffer. -/
  frame : ∀ f ∈ newFrame, f.Drawable ∧ vk.Reaches o ∧ (vk.fits f = true ∨ o.frameImage = true)
  /-- What is shown goes into images of the swapchain. -/
  images : (newFrame.or newest).isSome = true → vk.Reaches o → o.Shows → vk.dirty = true →
    o.Minimized vk.wantExtent → vk.swapImages = true
  /-- A sprite that is shown is the one of its version. -/
  shape : (newFrame.or newest).isSome = true → vk.Reaches o → o.Shows → slot.visible = true →
    vk.localCursor.isSome = true → slot.version = vk.cachedVersion → slot.shape = vk.cachedShape
  /-- What is about to come on screen is spared. -/
  inFlight : vk.dirty = false → vk.Reaches o →
    ∀ sub ∈ vk.gpu.inFlight, sub.onScreen = true → vk.Spares slot newFrame sub

/-! ### One draw -/

private theorem compose_stuck (h : vk.Stuck) : (vk.compose slot needComposite).Stuck := by
  have hgpu : (vk.compose slot needComposite).gpu = vk.gpu := by
    rw [compose_gpu]
    split
    · unfold Gpu.write
      rw [h.2]
    · rfl
  unfold Stuck
  rw [hgpu]
  exact h

private theorem Tracks.compose (h : vk.Tracks newest)
    (hspare : (needComposite = true ∨ vk.CursorChanged slot) ∧ vk.composable = true →
      ∀ sub ∈ vk.gpu.inFlight, sub.onScreen = true → sub.reads ≠ .staged) :
    (vk.compose slot needComposite).Tracks newest where
  kept := fun f hf => (h.kept f hf).keyed
  drawable := h.drawable
  agrees := by
    rw [compose_gpu]
    split
    · rename_i hwrite
      exact h.agrees.write (hspare hwrite)
    · exact h.agrees
  listed := by
    obtain ⟨frame, gpu, heq⟩ := compose_keeps vk slot needComposite
    rw [heq]
    exact h.listed

/-- The composite is the frame from scratch under the cursor of the slot. -/
private theorem shown_eq (hholds : vk.Holds f)
    (hshape : slot.visible = true → vk.localCursor.isSome = true → slot.version = vk.cachedVersion →
      slot.shape = vk.cachedShape) :
    f.shown slot vk.localCursor = .frame (vk.compose slot needComposite).cleanW
      (vk.compose slot needComposite).cleanH (vk.compose slot needComposite).overlaid := by
  obtain ⟨hclean, hw, hh⟩ := hholds
  have hkeyed : f.shown slot vk.localCursor =
      .frame (vk.keyed slot).cleanW (vk.keyed slot).cleanH (vk.keyed slot).overlaid := by
    show Picture.frame f.width f.height (overlay (swizzleInto f.rgba f.rgba) f.width f.height slot.visible
      vk.localCursor slot.shape) = .frame vk.cleanW vk.cleanH (overlay vk.cleanFrame vk.cleanW vk.cleanH slot.visible
      vk.localCursor (if slot.version ≠ vk.cachedVersion then slot.shape else vk.cachedShape))
    rw [hclean, hw, hh]
    refine congrArg _ (overlay_congr fun hvisible hpos => ?_)
    by_cases hv : slot.version = vk.cachedVersion
    · rw [if_neg (not_not_intro hv)]
      exact hshape hvisible hpos hv
    · rw [if_pos hv]
  obtain ⟨frame, gpu, heq⟩ := compose_keeps vk slot needComposite
  rw [hkeyed, heq]
  rfl

/-- The rest of a draw, from a viewer whose composite is done. -/
private theorem Waited.current {pos : Option (Float32 × Float32)}
    (h : Waited o (newest.map fun f => f.shown slot pos) vk vk') (ht : vk.Tracks newest) (hback : vk.Backed)
    (hready : vk.Stuck ∨ ∀ f ∈ newest, vk.lastCursorKey = some vk.cursorKey ∧ vk.SyncedAt vk.cursorKey)
    (hshown : o.Shows → ∀ f ∈ newest,
      vk.swapImages = true ∧ f.shown slot pos = .frame vk.cleanW vk.cleanH vk.overlaid) :
    vk'.Current newest := by
  have hback' := h.backed hback
  cases h with
  | failed =>
    refine ⟨ht, ?_, hback'⟩
    exact hready.imp_right fun hr f hf => ⟨_, (hr f hf).1, (hr f hf).2⟩
  | dropped hstuck hdirty =>
    refine ⟨⟨ht.kept, ht.drawable, ht.agrees.finish, fun hd => ht.listed (hdirty hd)⟩, .inr fun f hf => ?_, hback'⟩
    obtain ⟨hkey, hsync⟩ := hready.resolve_left hstuck f hf
    exact ⟨_, hkey, hsync⟩
  | stuck hstuck hdirty hframe =>
    have hagrees : Gpu.Agrees { vk.gpu.finish with signalled := false } :=
      ⟨ht.agrees.finish.presented, ht.agrees.finish.inFlight⟩
    exact ⟨⟨ht.kept, ht.drawable, hagrees, fun hd => ht.listed (hdirty hd)⟩, .inl ⟨rfl, Gpu.finish_inFlight⟩, hback'⟩
  | submitted hstuck hdirty hshows =>
    rename_i dirty onScreen
    refine ⟨⟨ht.kept, ht.drawable, ⟨ht.agrees.finish.presented, ?_⟩, fun hd => ht.listed (hdirty hd)⟩,
      .inr fun f hf => ?_, hback'⟩
    · intro sub hsub hscreen p hp
      rw [Option.mem_def, Option.some_inj] at hsub
      subst hsub
      obtain ⟨f, hf, rfl⟩ := Option.map_eq_some_iff.mp hp
      obtain ⟨hlist, hfresh⟩ := hshown (hshows hscreen) f hf
      rw [(hready.resolve_left hstuck f hf).2.picture hlist, hfresh, overlaid_eq]
    · obtain ⟨hkey, hsync⟩ := hready.resolve_left hstuck f hf
      exact ⟨_, hkey, hsync.submitted⟩

private theorem refresh_eq (h : vk.refresh o = .ok vk') : ∃ gpu swapchain swapImages extent dirty,
    vk' = { vk with gpu, swapchain, swapImages, extent, dirty } := by
  unfold VkViewer.refresh at h
  split at h
  · obtain ⟨-, rfl⟩ | ⟨-, extent, -, rfl⟩ := recreateSwapchain_ok h
    · exact ⟨vk.gpu.finish, vk.swapchain, vk.swapImages, vk.extent, vk.dirty, rfl⟩
    · exact ⟨vk.gpu.finish, true, true, extent, false, rfl⟩
  · cases h
    exact ⟨vk.gpu, vk.swapchain, vk.swapImages, vk.extent, vk.dirty, rfl⟩

namespace Keeps

variable {newFrame : Option DecodedFrame}

/-- What is shown goes into the images of the swapchain, once it is made anew where it has to be. -/
private theorem listed (hkeeps : vk.Keeps o slot newFrame newest) (hnewest : (newFrame.or newest).isSome = true)
    (h : vk.Current newest) (hr : vk.refresh o = .ok vk') (hs : ¬ (vk'.extent.width = 0 ∨ vk'.swapchain = false))
    (hshows : o.Shows) : vk'.swapImages = true := by
  have hreach := reaches_of_refresh hr hs
  unfold VkViewer.refresh at hr
  split at hr
  · rename_i hdirty
    obtain ⟨hmin, rfl⟩ | ⟨-, extent, -, rfl⟩ := recreateSwapchain_ok hr
    · exact hkeeps.images hnewest hreach hshows hdirty hmin
    · rfl
  · rename_i hdirty
    cases hr
    exact h.listed (by simpa using hdirty)

private theorem spared (hkeeps : vk.Keeps o slot newFrame newest) (hr : vk.refresh o = .ok vk')
    (hs : ¬ (vk'.extent.width = 0 ∨ vk'.swapchain = false)) :
    ∀ sub ∈ vk'.gpu.inFlight, sub.onScreen = true → vk'.Spares slot newFrame sub := by
  obtain ⟨hdirty, rfl⟩ | ⟨-, hgpu, -⟩ := refresh_gpu hr
  · exact hkeeps.inFlight hdirty (reaches_of_refresh hr hs)
  · intro sub hsub
    rw [hgpu, Gpu.finish_inFlight] at hsub
    exact absurd hsub (Option.not_mem_none sub)

private theorem shape_of_refresh (hkeeps : vk.Keeps o slot newFrame newest)
    (hnewest : (newFrame.or newest).isSome = true) (hr : vk.refresh o = .ok vk')
    (hs : ¬ (vk'.extent.width = 0 ∨ vk'.swapchain = false)) (hshows : o.Shows) :
    slot.visible = true → vk'.localCursor.isSome = true → slot.version = vk'.cachedVersion →
      slot.shape = vk'.cachedShape := by
  have hreach := reaches_of_refresh hr hs
  obtain ⟨gpu, swapchain, swapImages, extent, dirty, rfl⟩ := refresh_eq hr
  exact hkeeps.shape hnewest hreach hshows

end Keeps

/-- A draw without a new frame. -/
private theorem Current.again (h : vk.Current newest) (hkeeps : vk.Keeps o slot none newest)
    (hr : vk.refresh o = .ok vk') (hs : ¬ (vk'.extent.width = 0 ∨ vk'.swapchain = false)) {v : VkViewer}
    (hwait : (vk'.compose slot false).waitAndSubmit o (newest.map fun f => f.shown slot vk'.localCursor) = some v) :
    v.Current newest := by
  have hcur : vk'.Current newest := h.refresh hr
  have htracks : (vk'.compose slot false).Tracks newest := by
    refine hcur.toTracks.compose fun hwrite sub hsub hscreen hstaged => ?_
    exact (hkeeps.spared hr hs sub hsub hscreen).2 hstaged ⟨hwrite.1.resolve_left (by decide), hwrite.2⟩
  refine (waitAndSubmit_cases hwait).current htracks hcur.backed.compose ?_ fun hshows => ?_
  · refine hcur.synced.imp compose_stuck fun hsync f hf => ?_
    obtain ⟨key, hkey, fi, hfi, hdims, hstate⟩ := hsync f hf
    exact (hcur.kept f hf).compose (hcur.drawable f hf) ⟨fi, hfi, hdims⟩ fun _ => ⟨key, hkey, fi, hfi, hdims, hstate⟩
  · intro f hf
    have hnewest : ((none : Option DecodedFrame).or newest).isSome = true := Option.isSome_of_mem hf
    have hlist : vk'.swapImages = true := hkeeps.listed hnewest h hr hs hshows
    refine ⟨?_, shown_eq (hcur.kept f hf) (hkeeps.shape_of_refresh hnewest hr hs hshows)⟩
    obtain ⟨frame, gpu, heq⟩ := compose_keeps vk' slot false
    rw [heq]
    exact hlist

private theorem ensureFrameImage_eq (h : vk.ensureFrameImage o f = .ok vk') :
    ∃ frame gpu, vk' = { vk with frame, gpu } := by
  obtain ⟨-, rfl⟩ | ⟨-, -, rfl⟩ := ensureFrameImage_ok h
  · exact ⟨vk'.frame, vk'.gpu, rfl⟩
  · unfold destroyFrameImage
    split
    · exact ⟨_, _, rfl⟩
    · exact ⟨_, _, rfl⟩

/-- With a frame image of the size of the new frame, what is about to come on screen is as it was, and is read out of
no staging buffer that is still to be written. -/
private theorem agrees_ensureFrameImage (hback : vk.Backed) (hagrees : vk.gpu.Agrees)
    (hspare : ∀ sub ∈ vk.gpu.inFlight, sub.onScreen = true → vk.Spares slot (some f) sub) (hdraw : f.Drawable)
    (h : vk.ensureFrameImage o f = .ok vk') :
    vk'.gpu.Agrees ∧ ∀ sub ∈ vk'.gpu.inFlight, sub.onScreen = true → sub.reads ≠ .staged := by
  obtain ⟨hfits, rfl⟩ | ⟨hfits, -, rfl⟩ := ensureFrameImage_ok h
  · exact ⟨hagrees, fun sub hsub hscreen hstaged => (hspare sub hsub hscreen).2 hstaged ⟨hfits, hdraw⟩⟩
  · constructor
    · show vk.destroyFrameImage.gpu.Agrees
      unfold destroyFrameImage
      split
      · exact hagrees.destroy fun sub hsub hscreen => (spares_iff_of_not_fits hfits).mp (hspare sub hsub hscreen)
      · exact hagrees
    · intro sub hsub _ hstaged
      rw [reads_of_destroyFrameImage hback hsub] at hstaged
      cases hstaged

/-- A draw that takes a new frame. -/
private theorem Current.ingested (h : vk.Current newest) (hkeeps : vk.Keeps o slot (some f) newest)
    (hr : vk.refresh o = .ok vk') (hs : ¬ (vk'.extent.width = 0 ∨ vk'.swapchain = false)) {v w : VkViewer}
    (hensure : vk'.ensureFrameImage o f = .ok w) (hwait : ((w.ingest f).compose slot true).waitAndSubmit o
      ((some f).map fun f => f.shown slot vk'.localCursor) = some v) : v.Current (some f) := by
  have hcur : vk'.Current newest := h.refresh hr
  have hdraw : f.Drawable := (hkeeps.frame f rfl).1
  obtain ⟨hagrees, hspare⟩ := agrees_ensureFrameImage hcur.backed hcur.agrees (hkeeps.spared hr hs) hdraw hensure
  have hbackw : w.Backed := hcur.backed.ensureFrameImage hensure
  have hback : (w.ingest f).Backed := hbackw
  have hholds : (w.ingest f).Holds f := holds_ingest hdraw
  have hfits := fits_ensureFrameImage hensure
  obtain ⟨frame, gpu, rfl⟩ := ensureFrameImage_eq hensure
  have hsize : ∃ fi ∈ (ingest f { vk' with frame, gpu }).frame, fi.width = f.width ∧ fi.height = f.height := by
    obtain ⟨fi, hfi, hdims⟩ := (Option.any_eq_true _ _).mp hfits
    exact ⟨fi, hfi, by simpa using hdims⟩
  have htracks : (ingest f { vk' with frame, gpu }).Tracks (some f) := by
    refine ⟨fun g hg => ?_, fun g hg => ?_, hagrees, hcur.listed⟩
    · cases hg
      exact hholds
    · cases hg
      exact hdraw
  refine (waitAndSubmit_cases hwait).current (htracks.compose fun _ => hspare) hback.compose ?_ fun hshows => ?_
  · refine .inr fun g hg => ?_
    cases hg
    exact hholds.compose hdraw hsize fun hf => by cases hf
  · intro g hg
    cases hg
    have hlist : vk'.swapImages = true := hkeeps.listed rfl h hr hs hshows
    have hshape := hkeeps.shape_of_refresh rfl hr hs hshows
    refine ⟨?_, shown_eq hholds hshape⟩
    obtain ⟨frame', gpu', heq⟩ := compose_keeps (ingest f { vk' with frame, gpu }) slot true
    rw [heq]
    exact hlist

/-- A draw that meets its condition keeps the invariant, for the frame that it takes. -/
private theorem Current.draw {newFrame : Option DecodedFrame} (h : vk.Current newest)
    (hkeeps : vk.Keeps o slot newFrame newest)
    (hdraw : vk.draw o slot newFrame ((newFrame.or newest).map fun f => f.shown slot vk.localCursor) = some vk') :
    vk'.Current (newFrame.or newest) := by
  -- a frame that is taken gets past the swapchain and to its frame image
  have hnone {v : VkViewer} (hstop : vk.refresh o = .error v ∨
      (vk.refresh o = .ok v ∧ (v.extent.width = 0 ∨ v.swapchain = false))) : newFrame = none := by
    cases newFrame with
    | none => rfl
    | some f =>
      obtain ⟨u, hu, hs⟩ := refresh_of_reaches (hkeeps.frame f rfl).2.1
      obtain hstop | ⟨hv, hstop⟩ := hstop
      · rw [hu] at hstop
        cases hstop
      · rw [hu] at hv
        cases hv
        exact absurd hstop hs
  have hlocal {v : VkViewer} (hr : vk.refresh o = .ok v) : vk.localCursor = v.localCursor := by
    obtain ⟨gpu, swapchain, swapImages, extent, dirty, rfl⟩ := refresh_eq hr
    rfl
  cases draw_cases hdraw with
  | unmade hr =>
    rw [hnone (.inl hr)]
    exact h.refresh_error hr
  | skipped hr hs =>
    rw [hnone (.inr ⟨hr, hs⟩)]
    exact h.refresh hr
  | again hr hs hwait =>
    rw [hlocal hr] at hwait
    exact h.again hkeeps hr hs hwait
  | unallocated hr hs hensure =>
    rename_i f v
    obtain ⟨hfits, hmade, -⟩ := ensureFrameImage_error hensure
    obtain ⟨gpu, swapchain, swapImages, extent, dirty, rfl⟩ := refresh_eq hr
    have hfits' : vk.fits f = false := hfits
    have hkept := (hkeeps.frame f rfl).2.2
    rw [hfits', hmade] at hkept
    exact absurd hkept (by decide)
  | ingested hr hs hensure hwait =>
    rw [hlocal hr] at hwait
    exact h.ingested hkeeps hr hs hensure hwait

set_option synthInstance.maxSize 512 in
instance (o : Outcomes) (slot : CursorSlot) (newFrame newest : Option DecodedFrame) (vk : VkViewer) :
    Decidable (vk.Keeps o slot newFrame newest) :=
  decidable_of_iff (_ ∧ _ ∧ _ ∧ _)
    ⟨fun h => ⟨h.1, h.2.1, h.2.2.1, h.2.2.2⟩, fun h => ⟨h.frame, h.images, h.shape, h.inFlight⟩⟩

/-- The cached sprite with its version. -/
def sprite (vk : VkViewer) : Option CursorShape × UInt64 := (vk.cachedShape, vk.cachedVersion)

private theorem refresh_sprite (h : vk.refresh o = .ok vk') : vk'.sprite = vk.sprite := by
  obtain ⟨gpu, swapchain, swapImages, extent, dirty, rfl⟩ := refresh_eq h
  rfl

private theorem waited_sprite (h : vk.Waited o expected vk') : vk'.sprite = vk.sprite := by cases h <;> rfl

private theorem compose_sprite (vk : VkViewer) : (vk.compose slot needComposite).sprite = vk.sprite ∨
    (vk.compose slot needComposite).sprite = (slot.shape, slot.version) := by
  obtain ⟨frame, gpu, heq⟩ := compose_keeps vk slot needComposite
  rw [heq]
  by_cases hv : slot.version = vk.cachedVersion
  · exact .inl (Prod.ext (if_neg (not_not.2 hv)) hv)
  · exact .inr (Prod.ext (if_pos hv) rfl)

/-- A draw keeps the cached sprite or takes that of the slot. -/
private theorem draw_sprite {newFrame : Option DecodedFrame} (h : vk.draw o slot newFrame expected = some vk') :
    vk'.sprite = vk.sprite ∨ vk'.sprite = (slot.shape, slot.version) := by
  cases draw_cases h with
  | unmade hr =>
    obtain ⟨-, rfl | ⟨swapchain, swapImages, rfl⟩⟩ := refresh_error hr
    · exact .inl rfl
    · exact .inl rfl
  | skipped hr hs => exact .inl (refresh_sprite hr)
  | again hr hs hwait =>
    rw [waited_sprite (waitAndSubmit_cases hwait), ← refresh_sprite hr]
    exact compose_sprite _
  | unallocated hr hs hensure =>
    obtain ⟨-, -, rfl⟩ := ensureFrameImage_error hensure
    rw [← refresh_sprite hr]
    left
    unfold destroyFrameImage
    split
    · rfl
    · rfl
  | ingested hr hs hensure hwait =>
    rename_i f v w
    obtain ⟨frame, gpu, rfl⟩ := ensureFrameImage_eq hensure
    rw [waited_sprite (waitAndSubmit_cases hwait), ← refresh_sprite hr]
    exact compose_sprite ({ v with frame, gpu }.ingest f)

private theorem new_sprite {w h : UInt32} (hnew : new w h o = some vk) : vk.sprite = (none, 0) := by
  unfold new at hnew
  split at hnew
  · rename_i hrec
    rw [Option.some_inj] at hnew
    subst hnew
    obtain ⟨-, rfl⟩ | ⟨-, extent, -, rfl⟩ := recreateSwapchain_ok hrec
    · rfl
    · rfl
  · cases hnew

end VkViewer

/-! ### Runs -/

/-- A shape that is new. -/
def Event.defines : Event → Bool
  | .define _ _ => true
  | _ => false

namespace App

variable {s s' : App} {o : Outcomes}

/-- The condition on one event, by the state before it. -/
def Keeps (s : App) : Event → Prop
  | .redrawRequested o => s.vk.Keeps o s.cursorSlot s.slot s.newest
  | .put _ => True
  | .define _ _ => True
  | .setVisible _ => True
  | .pointer _ => True
  | .resized _ _ => True
  | .gpuFinished => True

instance (s : App) : (e : Event) → Decidable (s.Keeps e)
  | .redrawRequested _ => inferInstanceAs (Decidable (VkViewer.Keeps _ _ _ _ _))
  | .put _ => .isTrue trivial
  | .define _ _ => .isTrue trivial
  | .setVisible _ => .isTrue trivial
  | .pointer _ => .isTrue trivial
  | .resized _ _ => .isTrue trivial
  | .gpuFinished => .isTrue trivial

/-- No frame that was taken is lost, and what came on screen was the newest one under the cursor of its draw. -/
structure Faithful (s : App) : Prop where
  kept : ∀ f ∈ s.newest, s.vk.Holds f
  shown : ∀ e ∈ s.vk.gpu.presented, ∀ p ∈ e.1, e.2 = p

private theorem step_current {e : Event} (hs : s.vk.Current s.newest) (hkeeps : s.Keeps e) (h : s.step e = some s') :
    s'.vk.Current s'.newest := by
  cases e with
  | redrawRequested o =>
    obtain ⟨vk, hdraw, rfl⟩ := redraw_cases h
    exact hs.draw hkeeps hdraw
  | gpuFinished =>
    cases h
    exact hs.finish
  | resized w h' =>
    cases h
    exact ⟨⟨hs.kept, hs.drawable, hs.agrees, fun hd => by cases hd⟩, hs.synced, hs.backed⟩
  | put f | define shape visible | setVisible visible =>
    cases h
    exact hs
  | pointer pos =>
    cases h
    exact ⟨⟨hs.kept, hs.drawable, hs.agrees, hs.listed⟩, hs.synced, hs.backed⟩

/-- After `n` shapes the version has come to `n`, and the version of the cached sprite has not gone beyond. -/
structure Counts (n : Nat) (s : App) : Prop where
  version : s.cursorSlot.version.toNat = n
  cached_le : s.vk.cachedVersion.toNat ≤ n
  shape : s.cursorSlot.version = s.vk.cachedVersion → s.cursorSlot.shape = s.vk.cachedShape

private theorem Counts.of_sprite {n : Nat} (hs : s.Counts n) (hslot : s'.cursorSlot.version = s.cursorSlot.version ∧
    s'.cursorSlot.shape = s.cursorSlot.shape) (hsprite : s'.vk.sprite = s.vk.sprite ∨
      s'.vk.sprite = (s.cursorSlot.shape, s.cursorSlot.version)) : s'.Counts n := by
  rcases hsprite with hkept | htaken
  · obtain ⟨hshape, hversion⟩ := Prod.mk.inj hkept
    refine ⟨hslot.1 ▸ hs.version, hversion ▸ hs.cached_le, fun h => ?_⟩
    rw [hslot.2, hshape]
    exact hs.shape (by rw [← hslot.1, h, hversion])
  · obtain ⟨hshape, hversion⟩ := Prod.mk.inj htaken
    refine ⟨hslot.1 ▸ hs.version, ?_, fun _ => hslot.2.trans hshape.symm⟩
    rw [hversion, hs.version]

private theorem step_counts {n : Nat} {e : Event} (hs : s.Counts n) (hfew : n + e.defines.toNat < 2 ^ 64)
    (h : s.step e = some s') : s'.Counts (n + e.defines.toNat) := by
  cases e with
  | define shape visible =>
    cases h
    have hversion : (s.cursorSlot.version + 1).toNat = n + 1 := by
      rw [UInt64.toNat_add, hs.version]
      exact Nat.mod_eq_of_lt hfew
    refine ⟨hversion, Nat.le_succ_of_le hs.cached_le, fun heq => ?_⟩
    have hle := hs.cached_le
    have hnat : n + 1 = s.vk.cachedVersion.toNat := by rw [← hversion]; exact congrArg UInt64.toNat heq
    omega
  | redrawRequested o =>
    obtain ⟨vk, hdraw, rfl⟩ := redraw_cases h
    exact hs.of_sprite ⟨rfl, rfl⟩ (VkViewer.draw_sprite hdraw)
  | put f | setVisible visible | pointer pos | resized w h' | gpuFinished =>
    cases h
    exact hs.of_sprite ⟨rfl, rfl⟩ (.inl rfl)

/-- **With fewer than 2^64 shapes the cached sprite of the version of the slot is the sprite of the slot**, as `Keeps`
asks of a draw that shows it. -/
theorem shape_of_few {w h : UInt32} {es : List Event} (hnew : App.new w h o = some s)
    (hfew : es.countP Event.defines < 2 ^ 64) :
    Lts.Always App.step (fun s => s.cursorSlot.version = s.vk.cachedVersion → s.cursorSlot.shape = s.vk.cachedShape)
      s es := by
  have key : ∀ (es : List Event) (s : App) (n : Nat), s.Counts n → n + es.countP Event.defines < 2 ^ 64 →
      Lts.Always App.step
        (fun s => s.cursorSlot.version = s.vk.cachedVersion → s.cursorSlot.shape = s.vk.cachedShape) s es := by
    intro es
    induction es with
    | nil => exact fun s n hs _ => hs.shape
    | cons e es ih =>
      intro s n hs hlt
      have hcount : (e :: es).countP Event.defines = es.countP Event.defines + e.defines.toNat := by
        rw [List.countP_cons]
        cases e.defines <;> rfl
      rw [hcount] at hlt
      exact ⟨hs.shape, fun s' hs' => ih s' _ (step_counts hs (by omega) hs') (by omega)⟩
  have hstart : s.Counts 0 := by
    obtain ⟨vk, hvk, rfl⟩ := Option.map_eq_some_iff.mp hnew
    have hsprite : vk.sprite = (none, 0) := VkViewer.new_sprite hvk
    obtain ⟨hshape, hversion⟩ := Prod.mk.inj hsprite
    exact ⟨rfl, by rw [hversion]; rfl, fun _ => hshape.symm⟩
  exact key es s 0 hstart (by omega)

/-- A run whose draws lose no frame that they take and spare what is about to come on screen shows the newest frame
under the current cursor. -/
theorem newest_shown {w h : UInt32} {es : List Event} (hnew : App.new w h o = some s)
    (hkeeps : Lts.Along App.step Keeps s es) : Lts.Always App.step Faithful s es := by
  have hstart : s.vk.Current s.newest := by
    obtain ⟨vk, hvk, rfl⟩ := Option.map_eq_some_iff.mp hnew
    obtain ⟨hgpu, -, -, hlist⟩ := VkViewer.new_idle hvk
    have hagrees : vk.gpu.Agrees := by
      rw [hgpu]
      exact ⟨fun e he => absurd he List.not_mem_nil, fun sub hsub => absurd hsub (Option.not_mem_none sub)⟩
    have hnone {P : DecodedFrame → Prop} : ∀ f ∈ (none : Option DecodedFrame), P f := fun f hf =>
      absurd hf (Option.not_mem_none f)
    exact ⟨⟨hnone, hnone, hagrees, hlist⟩, .inr hnone, VkViewer.backed_of_idle (by rw [hgpu]; rfl)⟩
  refine Lts.Along.always (A := fun _ => True) (I := fun s => s.vk.Current s.newest) ?_ hstart ?_
    (fun _ _ => trivial) hkeeps
  · intro s e s' _ hs hP hstep
    have hs' := step_current hs hP hstep
    exact ⟨hs', hs'.kept, hs'.agrees.presented⟩
  · exact ⟨hstart.kept, hstart.agrees.presented⟩

/-- What is drawn first: a frame with the sprite at the pointer. -/
def pointed : List Event :=
  [.put (dot 1 2 3), .define ⟨[7, 8, 9, 255], 1, 1, 0, 0, false⟩ true, .pointer (some (0.5, 0.5)),
    .redrawRequested fine, .gpuFinished]

private theorem pointed_draws : (Lts.run App.step opened pointed).isSome := by decide +kernel

/-- The window once the first draw is on screen. -/
def onScreen : App := (Lts.run App.step opened pointed).get pointed_draws

/-- Between two draws the pointer moves. -/
theorem newest_shown_small : Lts.Always App.step Faithful opened
    (pointed ++ [.pointer (some (0.25, 0.75)), .redrawRequested fine, .gpuFinished]) := by
  refine newest_shown new_fine (Lts.Along.append (by decide +kernel) fun t ht => ?_)
  obtain rfl : onScreen = t := Option.some_inj.1 ((Option.some_get pointed_draws).trans ht)
  refine ⟨trivial, fun s' hs' => ?_⟩
  cases hs'
  exact ⟨by decide +kernel, fun _ _ => ⟨trivial, fun _ _ => trivial⟩⟩

/-- The surface of a minimized window. -/
def iconic : Outcomes := { fine with capabilities := some ⟨⟨0, 0⟩, ⟨0, 0⟩, ⟨0, 0⟩⟩ }

/-- The window of one pixel, minimized from the start. -/
def hidden : App :=
  { opened with vk := { opened.vk with swapchain := false, swapImages := false, extent := ⟨0, 0⟩, dirty := true } }

private theorem new_iconic : App.new 1 1 iconic = some hidden := rfl

/-- The frame that a draw takes while the window is minimized is not shown when the window is back. -/
theorem not_always_newest : ¬ ∀ (w h : UInt32) (o : Outcomes) (s : App) (es : List Event),
    App.new w h o = some s → (Lts.run App.step s es).isSome → Lts.Always App.step Faithful s es := by
  intro h
  have hlost : ∀ t ∈ Lts.run App.step hidden
      [.put (dot 1 2 3), .redrawRequested iconic, .resized 1 1, .redrawRequested fine, .gpuFinished],
      ¬ ∀ e ∈ t.vk.gpu.presented, ∀ p ∈ e.1, e.2 = p := by
    decide +kernel
  obtain ⟨t, ht⟩ := Option.isSome_iff_exists.mp (show (Lts.run App.step hidden
    [.put (dot 1 2 3), .redrawRequested iconic, .resized 1 1, .redrawRequested fine, .gpuFinished]).isSome by
      decide +kernel)
  exact hlost t ht ((h 1 1 iconic hidden _ new_iconic (by rw [ht]; rfl)).last ht).shown

end App

end Infinigpu.Window
