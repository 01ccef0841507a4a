import Infinigpu.Pixel.Viewer

/-!
# The window of the viewer (`infinigpu-viewer`, `window`)

A draw takes the newest decoded frame, composites it with the cursor into the staging buffer of the frame image, and
submits a copy into this image and a blit of it to the swapchain.  One fence says that the last submission is done.

* `overlay`, `blendSprite`: the frame with the cursor;
* `VkViewer.draw`: one draw, with what the Vulkan calls of it return;
* `App.step`: the frames, cursor updates, pointer moves, resizes and draws of a window, with the GPU that finishes at
  any time.
-/

namespace Infinigpu.Window

/-! ### What is composited -/

/-- A decoded frame, tightly packed RGBA. -/
structure DecodedFrame where
  rgba : List UInt8
  width : UInt32
  height : UInt32
  packed : rgba.length = width.toNat * height.toNat * 4

/-- The frame has pixels, and 32 bits suffice for their number. -/
def DecodedFrame.Drawable (f : DecodedFrame) : Prop :=
  0 < f.width.toNat * f.height.toNat ∧ f.width.toNat * f.height.toNat < 2 ^ 32

instance (f : DecodedFrame) : Decidable f.Drawable := inferInstanceAs (Decidable (_ ∧ _))

/-- RGBA pixels over the front of a BGRA buffer, opaque. -/
def swizzleInto : List UInt8 → List UInt8 → List UInt8
  | r :: g :: b :: _ :: src, _ :: _ :: _ :: _ :: dst => b :: g :: r :: 255 :: swizzleInto src dst
  | _, dst => dst

theorem length_swizzleInto (src dst : List UInt8) : (swizzleInto src dst).length = dst.length := by
  induction src, dst using swizzleInto.induct with
  | case1 r g b _ src _ _ _ _ dst ih => simp [swizzleInto, ih]
  | case2 src dst h =>
    rw [swizzleInto]
    exact h

def blendChannel (premul : Bool) (sc sa dc : UInt8) : UInt8 :=
  if premul then
    UInt8.ofNat (min (sc.toNat + dc.toNat * (255 - sa.toNat) / 255) 255)
  else
    UInt8.ofNat ((sc.toNat * sa.toNat + dc.toNat * (255 - sa.toNat)) / 255)

/-- One sprite pixel `s` over the frame pixel at `di`, whose alpha is kept. -/
def blendPixel (premul : Bool) (dst : List UInt8) (di : Nat) (s : List UInt8) : List UInt8 :=
  let sa := s.getD 3 0
  if sa = 0 then
    dst
  else
    (List.range 3).foldl
      (fun dst c => dst.set (di + c) (blendChannel premul (s.getD c 0) sa (dst.getD (di + c) 0))) dst

/-- The sprite with its top left corner at `(px0, py0)`, clipped to the frame. -/
def blendSprite (dst : List UInt8) (fw fh : Nat) (sprite : List UInt8) (cw ch : Nat) (px0 py0 : Int32)
    (premul : Bool) : List UInt8 :=
  if sprite.length < cw * ch * 4 then
    dst
  else
    (List.range ch).foldl (fun dst sy =>
      let dy := py0 + Int32.ofNat sy
      if dy < 0 ∨ Int32.ofNat fh ≤ dy then
        dst
      else
        (List.range cw).foldl (fun dst sx =>
          let dx := px0 + Int32.ofNat sx
          if dx < 0 ∨ Int32.ofNat fw ≤ dx then
            dst
          else
            blendPixel premul dst ((dy.toNatClampNeg * fw + dx.toNatClampNeg) * 4)
              (Bytes.slice sprite ((sy * cw + sx) * 4) 4)) dst) dst

/-- A window-normalized coordinate on an axis of `n` pixels. -/
def toPixel (x : Float32) (n : UInt32) : Int32 := (x * n.toFloat32).toInt32

/-- The first pixels of the clean frame, with the sprite at the local pointer. -/
def overlay (clean : List UInt8) (w h : UInt32) (visible : Bool) (pos : Option (Float32 × Float32))
    (shape : Option CursorShape) : List UInt8 :=
  let dst := clean.take (w.toNat * h.toNat * 4)
  match pos, shape with
  | some (nx, ny), some sh =>
    if visible then
      blendSprite dst w.toNat h.toNat sh.bgra sh.w.toNat sh.h.toNat (toPixel nx w - Int32.ofNat sh.hotX.toNat)
        (toPixel ny h - Int32.ofNat sh.hotY.toNat) sh.premultiplied
    else
      dst
  | none, _ => dst
  | some _, none => dst

/-! ### The GPU -/

/-- What a swapchain image is filled with. -/
inductive Picture where
  | clear
  | frame (w h : UInt32) (bgra : List UInt8)
  | undefined
  deriving DecidableEq

/-- What the command buffer of a submission reads of the frame image that the viewer holds: the image for the blit,
with its staging buffer for the copy before. -/
inductive Reading where
  | nothing
  | image
  | staged
  deriving DecidableEq

structure Submission where
  reads : Reading
  picture : Picture
  /-- The present that follows it was accepted. -/
  onScreen : Bool
  /-- What the picture is compared with: the newest frame under the current cursor. -/
  expected : Option Picture
  deriving DecidableEq

/-- What a submission still reads is destroyed or overwritten. -/
inductive Hit where
  | destroyed
  | overwritten
  deriving DecidableEq

structure Gpu where
  /-- The fence `in_flight`. -/
  signalled : Bool
  inFlight : Option Submission
  hits : List Hit
  /-- The pictures that came on screen, each with what was expected. -/
  presented : List (Option Picture × Picture)
  deriving DecidableEq

namespace Gpu

def new : Gpu := ⟨true, none, [], []⟩

/-- The submission in flight is done and signals the fence. -/
def finish (g : Gpu) : Gpu :=
  match g.inFlight with
  | none => g
  | some sub =>
    { g with
      signalled := true
      inFlight := none
      presented := if sub.onScreen then g.presented ++ [(sub.expected, sub.picture)] else g.presented }

/-- The frame image and its staging buffer are destroyed. -/
def destroy (g : Gpu) : Gpu :=
  match g.inFlight with
  | none => g
  | some sub =>
    if sub.reads = .nothing then
      g
    else
      { g with
        inFlight := some { sub with reads := .nothing, picture := .undefined }
        hits := g.hits ++ [.destroyed] }

/-- The staging buffer is written. -/
def write (g : Gpu) : Gpu :=
  match g.inFlight with
  | none => g
  | some sub =>
    if sub.reads = .staged then
      { g with inFlight := some { sub with picture := .undefined }, hits := g.hits ++ [.overwritten] }
    else
      g

end Gpu

/-! ### The viewer -/

structure Extent2D where
  width : UInt32
  height : UInt32
  deriving DecidableEq

structure FrameImage where
  width : UInt32
  height : UInt32
  staging : List UInt8
  /-- What the image holds once the submissions are done, if they read what they were given. -/
  content : Option (List UInt8)
  initialized : Bool
  pendingUpload : Bool

/-- Cursor top left pixel, shape version, drawn. -/
structure CursorKey where
  px : Int32
  py : Int32
  version : UInt64
  drawn : Bool
  deriving DecidableEq

structure VkViewer where
  gpu : Gpu
  /-- There is a swapchain. -/
  swapchain : Bool
  /-- The listed images are those of the swapchain. -/
  swapImages : Bool
  extent : Extent2D
  frame : Option FrameImage
  wantExtent : Extent2D
  dirty : Bool
  cleanFrame : List UInt8
  cleanW : UInt32
  cleanH : UInt32
  localCursor : Option (Float32 × Float32)
  cachedShape : Option CursorShape
  cachedVersion : UInt64
  cursorVisible : Bool
  lastCursorKey : Option CursorKey

structure SurfaceCapabilities where
  currentExtent : Extent2D
  minImageExtent : Extent2D
  maxImageExtent : Extent2D
  deriving DecidableEq

inductive Acquire where
  | image (suboptimal : Bool)
  | outOfDate
  | failed
  deriving DecidableEq

/-- How far the recording of the command buffer gets. -/
inductive Recording where
  | whole
  | notBegun
  | notEnded
  deriving DecidableEq

inductive QueuePresent where
  | presented (suboptimal : Bool)
  | outOfDate
  | failed
  deriving DecidableEq

def QueuePresent.onScreen : QueuePresent → Bool
  | .presented _ => true
  | .outOfDate => false
  | .failed => false

/-- What the Vulkan calls of one draw return; a `Bool` says that the call succeeds. -/
structure Outcomes where
  deviceWaitIdle : Bool
  capabilities : Option SurfaceCapabilities
  surfaceFormats : Bool
  presentModes : Bool
  createSwapchain : Bool
  swapchainImages : Bool
  /-- All calls that make the frame image. -/
  frameImage : Bool
  waitForFences : Bool
  acquire : Acquire
  resetFences : Bool
  record : Recording
  queueSubmit : Bool
  queuePresent : QueuePresent
  deriving DecidableEq

def clamp (x lo hi : UInt32) : UInt32 := if x < lo then lo else if hi < x then hi else x

/-- A current width of `u32::MAX` means that the window picks the extent. -/
def SurfaceCapabilities.extent (caps : SurfaceCapabilities) (want : Extent2D) : Extent2D :=
  if caps.currentExtent.width ≠ 0xffffffff then
    caps.currentExtent
  else
    ⟨clamp want.width caps.minImageExtent.width caps.maxImageExtent.width,
      clamp want.height caps.minImageExtent.height caps.maxImageExtent.height⟩

namespace Outcomes

/-- The surface has no area. -/
def Minimized (o : Outcomes) (want : Extent2D) : Prop :=
  o.deviceWaitIdle = true ∧ ∃ caps ∈ o.capabilities, (caps.extent want).width = 0 ∨ (caps.extent want).height = 0

/-- The swapchain is made anew. -/
def Remakes (o : Outcomes) (want : Extent2D) : Prop :=
  o.deviceWaitIdle = true ∧
    (∃ caps ∈ o.capabilities, ¬ ((caps.extent want).width = 0 ∨ (caps.extent want).height = 0)) ∧
    (o.surfaceFormats && o.presentModes && o.createSwapchain) = true ∧ o.swapchainImages = true

/-- An image gets onto the screen. -/
def Shows (o : Outcomes) : Prop :=
  o.waitForFences = true ∧ (∃ suboptimal, o.acquire = .image suboptimal) ∧ o.resetFences = true ∧
    o.record = .whole ∧ o.queueSubmit = true ∧ o.queuePresent.onScreen = true

instance (o : Outcomes) (want : Extent2D) : Decidable (o.Minimized want) := inferInstanceAs (Decidable (_ ∧ _))

instance (o : Outcomes) (want : Extent2D) : Decidable (o.Remakes want) := inferInstanceAs (Decidable (_ ∧ _ ∧ _ ∧ _))

instance (o : Outcomes) : Decidable o.Shows := inferInstanceAs (Decidable (_ ∧ _ ∧ _ ∧ _ ∧ _ ∧ _))

end Outcomes

def FrameImage.new (w h : UInt32) : FrameImage := ⟨w, h, [], none, false, false⟩

namespace VkViewer

/-- The viewer after `?`: an error ends the call, the state stays as it is by then. -/
abbrev Result := Except VkViewer VkViewer

def recreateSwapchain (o : Outcomes) (vk : VkViewer) : Result :=
  if o.deviceWaitIdle then
    let vk := { vk with gpu := vk.gpu.finish }
    match o.capabilities with
    | none => .error vk
    | some caps =>
      let extent := caps.extent vk.wantExtent
      if extent.width = 0 ∨ extent.height = 0 then
        .ok vk -- minimized; `dirty` stays
      else if o.surfaceFormats && o.presentModes && o.createSwapchain then
        if o.swapchainImages then
          .ok { vk with swapchain := true, swapImages := true, extent, dirty := false }
        else
          .error { vk with swapchain := true, swapImages := false }
      else
        .error vk
  else
    .error vk

/-- The frame image has the size of the frame. -/
def fits (vk : VkViewer) (f : DecodedFrame) : Bool :=
  vk.frame.any fun fi => fi.width = f.width ∧ fi.height = f.height

def destroyFrameImage (vk : VkViewer) : VkViewer :=
  if vk.frame.isSome then { vk with frame := none, gpu := vk.gpu.destroy } else vk

def ensureFrameImage (o : Outcomes) (f : DecodedFrame) (vk : VkViewer) : Result :=
  if vk.fits f then
    .ok vk
  else if o.frameImage then
    .ok { vk.destroyFrameImage with frame := some (.new f.width f.height) }
  else
    .error vk.destroyFrameImage

/-- The frame in the clean buffer, whose size is computed with 32 bits. -/
def ingest (f : DecodedFrame) (vk : VkViewer) : VkViewer :=
  let size := (f.width * f.height).toNat * 4
  let resized := vk.cleanFrame.take size ++ List.replicate (size - vk.cleanFrame.length) 0
  { vk with cleanFrame := swizzleInto f.rgba resized, cleanW := f.width, cleanH := f.height }

def cursorKey (vk : VkViewer) : CursorKey :=
  let drawn := vk.cursorVisible && vk.localCursor.isSome && vk.cachedShape.isSome
  match vk.localCursor, vk.cachedShape with
  | some (nx, ny), some sh =>
    ⟨toPixel nx vk.cleanW - Int32.ofNat sh.hotX.toNat, toPixel ny vk.cleanH - Int32.ofNat sh.hotY.toNat,
      vk.cachedVersion, drawn⟩
  | none, _ => ⟨Int32.minValue, Int32.minValue, vk.cachedVersion, drawn⟩
  | some _, none => ⟨Int32.minValue, Int32.minValue, vk.cachedVersion, drawn⟩

/-- The latest cursor state, and whether it needs a new composite. -/
def pullCursor (slot : CursorSlot) (vk : VkViewer) : VkViewer × Bool :=
  let vk := { vk with cursorVisible := slot.visible }
  let newer := decide (slot.version ≠ vk.cachedVersion)
  let vk := if newer then { vk with cachedShape := slot.shape, cachedVersion := slot.version } else vk
  let key := vk.cursorKey
  if vk.lastCursorKey ≠ some key then
    ({ vk with lastCursorKey := some key }, true)
  else
    (vk, newer)

/-- Bytes of the clean frame. -/
def need (vk : VkViewer) : Nat := vk.cleanW.toNat * vk.cleanH.toNat * 4

/-- The clean frame is there and the frame image has its size. -/
def composable (vk : VkViewer) : Bool :=
  vk.need ≠ 0 && vk.need ≤ vk.cleanFrame.length &&
    vk.frame.any fun fi => fi.width = vk.cleanW ∧ fi.height = vk.cleanH

def overlaid (vk : VkViewer) : List UInt8 :=
  overlay vk.cleanFrame vk.cleanW vk.cleanH vk.cursorVisible vk.localCursor vk.cachedShape

def compositeIntoStaging (vk : VkViewer) : VkViewer :=
  if vk.composable then
    { vk with
      frame := vk.frame.map fun fi => { fi with pendingUpload := true, staging := vk.overlaid }
      gpu := vk.gpu.write }
  else
    vk

end VkViewer

/-- The flags after the recording. -/
def FrameImage.recorded (fi : FrameImage) : FrameImage :=
  if fi.pendingUpload then { fi with initialized := true, pendingUpload := false } else fi

/-- The copy and the blit are submitted. -/
def FrameImage.submitted (fi : FrameImage) : FrameImage :=
  { fi.recorded with content := if fi.pendingUpload then some fi.staging else fi.content }

def FrameImage.picture (fi : FrameImage) : Picture :=
  if fi.initialized then (fi.content.map (Picture.frame fi.width fi.height)).getD .undefined else .clear

def FrameImage.reading (fi : FrameImage) : Reading :=
  if fi.pendingUpload then .staged else if fi.initialized then .image else .nothing

namespace VkViewer

/-- The submission of what is recorded: the flags are those before the recording. -/
def submission (vk : VkViewer) (onScreen : Bool) (expected : Option Picture) : Submission :=
  { reads := (vk.frame.map FrameImage.reading).getD .nothing
    picture := if vk.swapImages then (vk.frame.map fun fi => fi.submitted.picture).getD .clear else .undefined
    onScreen
    expected }

/-- From the recording to the present; an error on the way is only logged. -/
def submitAndPresent (o : Outcomes) (expected : Option Picture) (vk : VkViewer) : VkViewer :=
  let vk := { vk with gpu := { vk.gpu with signalled := false } }
  match o.record with
  | .notBegun => vk
  | .notEnded => { vk with frame := vk.frame.map FrameImage.recorded }
  | .whole =>
    if o.queueSubmit then
      { vk with
        frame := vk.frame.map FrameImage.submitted
        gpu := { vk.gpu with inFlight := some (vk.submission o.queuePresent.onScreen expected) }
        dirty := vk.dirty || decide (o.queuePresent = .presented true ∨ o.queuePresent = .outOfDate) }
    else
      { vk with frame := vk.frame.map FrameImage.recorded }

/-- Nothing is left that signals the fence. -/
def Stuck (vk : VkViewer) : Prop := vk.gpu.signalled = false ∧ vk.gpu.inFlight = none

instance (vk : VkViewer) : Decidable vk.Stuck := inferInstanceAs (Decidable (_ ∧ _))

/-- The rest of the draw, from the wait for the fence: `none` when the wait does not end. -/
def waitAndSubmit (o : Outcomes) (expected : Option Picture) (vk : VkViewer) : Option VkViewer :=
  if o.waitForFences then
    if vk.Stuck then
      none
    else
      let vk := { vk with gpu := vk.gpu.finish }
      match o.acquire with
      | .outOfDate => some { vk with dirty := true }
      | .failed => some vk
      | .image suboptimal =>
        let vk := { vk with dirty := vk.dirty || suboptimal }
        if o.resetFences then some (vk.submitAndPresent o expected) else some vk
  else
    some vk

/-- The overlay, from the cursor slot into the staging buffer. -/
def compose (slot : CursorSlot) (needComposite : Bool) (vk : VkViewer) : VkViewer :=
  let (vk, changed) := vk.pullCursor slot
  if needComposite || changed then vk.compositeIntoStaging else vk

def refresh (o : Outcomes) (vk : VkViewer) : Result := if vk.dirty then vk.recreateSwapchain o else .ok vk

/-- One draw; `expected` is what it is to show.  The GPU may finish at any time; to finish within a draw is to finish
before it, as nothing but the destruction of the frame image comes before the composite, which then is another
one's. -/
def draw (o : Outcomes) (slot : CursorSlot) (newFrame : Option DecodedFrame) (expected : Option Picture)
    (vk : VkViewer) : Option VkViewer :=
  match vk.refresh o with
  | .error vk => some vk
  | .ok vk =>
    if vk.extent.width = 0 ∨ vk.swapchain = false then
      some vk
    else
      match newFrame with
      | none => (vk.compose slot false).waitAndSubmit o expected
      | some f =>
        match vk.ensureFrameImage o f with
        | .error vk => some vk
        | .ok vk => ((vk.ingest f).compose slot true).waitAndSubmit o expected

def markDirty (w h : UInt32) (vk : VkViewer) : VkViewer :=
  { vk with wantExtent := ⟨max w 1, max h 1⟩, dirty := true }

/-- An error here ends the application. -/
def new (w h : UInt32) (o : Outcomes) : Option VkViewer :=
  match recreateSwapchain o
      { gpu := .new, swapchain := false, swapImages := false, extent := ⟨0, 0⟩, frame := none
        wantExtent := ⟨max w 1, max h 1⟩, dirty := true, cleanFrame := [], cleanW := 0, cleanH := 0
        localCursor := none, cachedShape := none, cachedVersion := 0, cursorVisible := false
        lastCursorKey := none } with
  | .ok vk => some vk
  | .error _ => none

end VkViewer

/-! ### The application -/

structure App where
  vk : VkViewer
  slot : Option DecodedFrame
  cursorSlot : CursorSlot
  /-- The newest frame that was taken from the slot. -/
  newest : Option DecodedFrame

inductive Event where
  /-- The stream thread. -/
  | put (f : DecodedFrame)
  | define (shape : CursorShape) (visible : Bool)
  | setVisible (visible : Bool)
  /-- The window. -/
  | pointer (pos : Option (Float32 × Float32))
  | resized (w h : UInt32)
  | redrawRequested (o : Outcomes)
  /-- The GPU is done with what is in flight. -/
  | gpuFinished

/-- The frame over which the cursor is drawn from scratch. -/
def DecodedFrame.shown (f : DecodedFrame) (slot : CursorSlot) (pos : Option (Float32 × Float32)) : Picture :=
  .frame f.width f.height (overlay (swizzleInto f.rgba f.rgba) f.width f.height slot.visible pos slot.shape)

namespace App

def new (w h : UInt32) (o : Outcomes) : Option App :=
  (VkViewer.new w h o).map fun vk => ⟨vk, none, .default, none⟩

/-- A draw takes the frame from the slot first. -/
def redraw (o : Outcomes) (s : App) : Option App :=
  let newest := s.slot.or s.newest
  (s.vk.draw o s.cursorSlot s.slot (newest.map fun f => f.shown s.cursorSlot s.vk.localCursor)).map fun vk =>
    { s with vk, slot := none, newest }

def step (s : App) : Event → Option App
  | .put f => some { s with slot := some f }
  | .define shape visible => some { s with cursorSlot := s.cursorSlot.define shape visible }
  | .setVisible visible => some { s with cursorSlot := s.cursorSlot.setVisible visible }
  | .pointer pos => some { s with vk := { s.vk with localCursor := pos } }
  | .resized w h => some { s with vk := s.vk.markDirty w h }
  | .redrawRequested o => s.redraw o
  | .gpuFinished => some { s with vk := { s.vk with gpu := s.vk.gpu.finish } }

end App

end Infinigpu.Window
