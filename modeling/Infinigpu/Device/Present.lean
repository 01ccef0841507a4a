import Infinigpu.Device.Backend

/-!
# Presents (`infinigpu-device`, the 2D paths)

Full and damaged presents of a guest framebuffer, the flush of a blob resource, and the rendered clear.  The BGRA
surface is painted row by row (`paintRows`).  What a present can do is said once: `presentScanoutDamaged_cases` and
`presentScanout_cases`.
-/

namespace Infinigpu

/-! ### Converting pixels -/

/-- The fourth byte of every pixel made opaque. -/
def fillAlpha : List UInt8 → List UInt8
  | b :: g :: r :: _ :: rest => b :: g :: r :: 255 :: fillAlpha rest
  | rest => rest

/-- Red and blue of every pixel exchanged, and the fourth byte made opaque. -/
def swapRedBlue : List UInt8 → List UInt8
  | r :: g :: b :: _ :: rest => b :: g :: r :: 255 :: swapRedBlue rest
  | _ => []

def swizzleRowToBgra (src : List UInt8) (isCopy : Bool) : List UInt8 :=
  if isCopy then fillAlpha src else swapRedBlue src

/-- `n` rows painted into a surface `w` pixels wide, from pixel `(dx, dy)` on. -/
def paintRows (w dx dy : Nat) (row : Nat → List UInt8) : Nat → List UInt8 → List UInt8
  | 0, bgra => bgra
  | n + 1, bgra => Bytes.splice (paintRows w dx dy row n bgra) (((dy + n) * w + dx) * 4) (row n)

/-! ### Geometry -/

/-- A rectangle inside a frame, in pixels. -/
structure Damage where
  dx : Nat
  dy : Nat
  dw : Nat
  dh : Nat
deriving DecidableEq, Repr

def clampDamage (w h : Nat) (dx dy dw dh : UInt32) : Damage :=
  let dx := min dx.toNat w
  let dy := min dy.toNat h
  { dx
    dy
    dw := min dw.toNat (w - dx)
    dh := min dh.toNat (h - dy) }

def MAX_FRAME_BYTES : Nat := 64 * 1024 * 1024

namespace ScanoutPresent

def w (sp : ScanoutPresent) : Nat := sp.width.toNat

def h (sp : ScanoutPresent) : Nat := sp.height.toNat

/-- The bytes of the framebuffer, if its geometry is accepted. -/
def fbBytes (sp : ScanoutPresent) : Option Nat :=
  let pitch := sp.pitch.toNat
  if pitch ≥ sp.w * 4 ∧ sp.w ≠ 0 ∧ sp.h ≠ 0 ∧ pitch * sp.h ≤ MAX_FRAME_BYTES then some (pitch * sp.h) else none

def bgraIsCopy (sp : ScanoutPresent) : Bool := sp.format != Format.r8g8b8a8

/-- The whole framebuffer `buf` painted over a surface. -/
def paintFrame (sp : ScanoutPresent) (buf bgra : List UInt8) : List UInt8 :=
  paintRows sp.w 0 0 (fun y => swizzleRowToBgra (Bytes.slice buf (y * sp.pitch.toNat) (sp.w * 4)) sp.bgraIsCopy)
    sp.h bgra

/-- The image a full present makes of the framebuffer `buf`. -/
def fullFrame (sp : ScanoutPresent) (buf : List UInt8) : ScanoutBuffer where
  w := sp.w
  h := sp.h
  bgra := sp.paintFrame buf (List.replicate (sp.w * sp.h * 4) 0)

end ScanoutPresent

/-- An image as it is handed to the streamer. -/
def ScanoutBuffer.frame (b : ScanoutBuffer) : List UInt8 × UInt32 × UInt32 :=
  (b.bgra, UInt32.ofNat b.w, UInt32.ofNat b.h)

def ScanoutPresentDamaged.damage (sp : ScanoutPresentDamaged) : Damage :=
  clampDamage sp.w sp.h sp.dx sp.dy sp.dw sp.dh

/-- The guest address of the damaged part of row `dy + r`. -/
def ScanoutPresentDamaged.rowAddr (sp : ScanoutPresentDamaged) (r : Nat) : UInt64 :=
  sp.scanoutAddr + UInt64.ofNat (sp.damage.dy + r) * sp.pitch.toUInt64 + UInt64.ofNat sp.damage.dx * 4

/-- Render targets of the clear and 3D paths that are refused. -/
def badRenderGeometry (width height : UInt32) : Bool :=
  decide (width = 0) || decide (height = 0) || decide (width > 16384) || decide (height > 16384) ||
    decide (width.toNat * height.toNat * 4 > MAX_FRAME_BYTES)

/-- How the closure of a render ends: `none` is a panic. -/
def Rendered.outcome : Rendered → Option (Option (List UInt8))
  | .panicked => none
  | .failed => some none
  | .pixels px => some (some px)

namespace Backend

variable (env : Env)

/-! ### Full presents -/

def presentScanout (sp : ScanoutPresent) (seqno : UInt64) (ctx : Fin NUM_CONTEXTS) (d : Backend) : Backend :=
  let (admitted, d) := d.ensureAdmitted env
  if !admitted then
    d
  else
    match sp.fbBytes with
    | none => d
    | some total =>
      let d := d.accountScanoutVram sp.width sp.height
      match d.dmaRead sp.scanoutAddr total with
      | none => d
      | some buf =>
        let d := { d with
          lastScanout := none
          bytesReadLast := total
          presentCount := d.presentCount + 1 }
        -- the seqno is retired before the frame is handed over
        let d := d.retire ctx seqno
        d.streamFrame (sp.paintFrame buf (List.replicate (sp.w * sp.h * 4) 0)) sp.width sp.height

/-! ### Damaged presents -/

/-- The retained surface, if it has the size of the frame. -/
def matchingScanout (w h : Nat) (d : Backend) : Option ScanoutBuffer :=
  d.lastScanout.filter fun b => decide (b.w = w) && decide (b.h = h)

/-- The damaged parts of the first `n` rows, one after another. -/
def readRows (sp : ScanoutPresentDamaged) (d : Backend) : Nat → Option (List UInt8)
  | 0 => some []
  | n + 1 =>
    match d.readRows sp n with
    | none => none
    | some rows => (d.dmaRead (sp.rowAddr n) (sp.damage.dw * 4)).map (rows ++ ·)

/-- The surface after the damage and the bytes read for it; `none` when the framebuffer or a row of it cannot be
read. -/
def damagedSurface (sp : ScanoutPresentDamaged) (fbBytes : Nat) (d : Backend) : Option (ScanoutBuffer × Nat) :=
  let dmg := sp.damage
  let fullDamage := dmg.dx = 0 ∧ dmg.dy = 0 ∧ dmg.dw = sp.w ∧ dmg.dh = sp.h
  match d.matchingScanout sp.w sp.h with
  | none =>
    (d.dmaRead sp.scanoutAddr fbBytes).map fun buf =>
      ({ w := sp.w, h := sp.h, bgra := sp.paintFrame buf (List.replicate (sp.w * sp.h * 4) 0) }, fbBytes)
  | some b =>
    if fullDamage then
      (d.dmaRead sp.scanoutAddr fbBytes).map fun buf =>
        ({ w := sp.w, h := sp.h, bgra := sp.paintFrame buf b.bgra }, fbBytes)
    else if dmg.dw > 0 ∧ dmg.dh > 0 then
      -- every row is read before the first one is painted
      (d.readRows sp dmg.dh).map fun rows =>
        let row (r : Nat) := swizzleRowToBgra (Bytes.slice rows (r * (dmg.dw * 4)) (dmg.dw * 4)) sp.bgraIsCopy
        ({ b with bgra := paintRows sp.w dmg.dx dmg.dy row dmg.dh b.bgra }, dmg.dw * dmg.dh * 4)
    else
      some (b, 0)

def presentScanoutDamaged (sp : ScanoutPresentDamaged) (seqno : UInt64) (ctx : Fin NUM_CONTEXTS) (d : Backend) :
    Backend :=
  let d := d.invalidateElision
  let (admitted, d) := d.ensureAdmitted env
  if !admitted then
    d
  else
    match sp.fbBytes with
    | none => d
    | some fbBytes =>
      let d := d.accountScanoutVram sp.width sp.height
      match d.damagedSurface sp fbBytes with
      | none => d
      | some (b, bytesRead) =>
        let d := { d with
          lastScanout := some b
          bytesReadLast := bytesRead
          presentCount := d.presentCount + 1 }
        let d := d.retire ctx seqno
        d.streamFrame b.bgra (UInt32.ofNat b.w) (UInt32.ofNat b.h)

/-! ### Flushes and clears -/

/-- The present a flush of a resource stands for. -/
def flushPresent (resId : UInt32) (rect : Rect) (d : Backend) : Option ScanoutPresentDamaged :=
  match d.resources.scanoutBindingFor resId with
  | none => none
  | some (_, b) =>
    match d.resources.get resId with
    | none => none
    | some r =>
      match r.backing with
      | [seg] =>
        some
          { width := b.width
            height := b.height
            pitch := b.stride
            format := b.format
            scanoutAddr := seg.addr
            dx := rect.x
            dy := rect.y
            dw := rect.w
            dh := rect.h }
      | _ => none

def presentResourceFlush (resId : UInt32) (rect : Rect) (seqno : UInt64) (ctx : Fin NUM_CONTEXTS) (d : Backend) :
    Backend :=
  let d := d.invalidateElision
  match d.flushPresent resId rect with
  | none => d
  | some sp => d.presentScanoutDamaged env sp seqno ctx

def renderClearPresent (cp : ClearPresent) (seqno : UInt64) (ctx : Fin NUM_CONTEXTS) (d : Backend) : Backend :=
  let d := d.invalidateElision
  let (admitted, d) := d.ensureAdmitted env
  if !admitted then
    d
  else if badRenderGeometry cp.width cp.height then
    d
  else
    let frame := (env.renderClear d.calls cp.width cp.height cp.rgba).outcome
    match d.runTimed env frame with
    | (.ok (some rgba), d) =>
      let (ok, d) := d.dmaWrite cp.scanoutAddr rgba
      if ok then d.retire ctx seqno else d
    | (_, d) => d

/-! ### What a present does -/

/-- A present went through: it leaves `last` as the retained image, acknowledges `seqno` on its context and hands over
the image `b`. -/
structure Presented (ctx : Fin NUM_CONTEXTS) (seqno : UInt64) (last : Option ScanoutBuffer) (b : ScanoutBuffer)
    (d d' : Backend) : Prop extends Keeps d d' where
  mem : d'.mem = d.mem
  lastScanout : d'.lastScanout = last
  presentCount : d'.presentCount = d.presentCount + 1
  ringRetired : d'.ringRetired = Function.update d.ringRetired ctx seqno
  frames : d'.frames = d.frames.map (· ++ [b.frame])

variable {env}

private theorem Presented.of_quiet {ctx : Fin NUM_CONTEXTS} {seqno : UInt64} {last : Option ScanoutBuffer}
    {b : ScanoutBuffer} {d d' d'' : Backend} (h : Quiet d d') (h' : Presented ctx seqno last b d' d'') :
    Presented ctx seqno last b d d'' where
  toKeeps := h.toKeeps.trans h'.toKeeps
  mem := h'.mem.trans h.mem
  lastScanout := h'.lastScanout
  presentCount := by rw [h'.presentCount, h.presentCount]
  ringRetired := by rw [h'.ringRetired, h.ringRetired]
  frames := by rw [h'.frames, h.frames]

/-- Nothing but bookkeeping, or the framebuffer was read and the surface is dropped. -/
theorem presentScanout_cases (env : Env) (sp : ScanoutPresent) (seqno : UInt64) (ctx : Fin NUM_CONTEXTS)
    (d : Backend) :
    Quiet d (d.presentScanout env sp seqno ctx) ∨
      ∃ total buf, sp.fbBytes = some total ∧ d.dmaRead sp.scanoutAddr total = some buf ∧
        Presented ctx seqno none (sp.fullFrame buf) d (d.presentScanout env sp seqno ctx) := by
  have hadm := ensureAdmitted_quiet env d
  simp only [presentScanout]
  split
  · exact .inl hadm
  · split
    · exact .inl hadm
    · rename_i total htotal
      have hacc := hadm.trans (accountScanoutVram_quiet sp.width sp.height _)
      split
      · exact .inl hacc
      · rename_i buf hbuf
        rw [hacc.dmaRead] at hbuf
        have hframe : (sp.fullFrame buf).frame =
            (sp.paintFrame buf (List.replicate (sp.w * sp.h * 4) 0), sp.width, sp.height) := by
          rw [ScanoutBuffer.frame, ScanoutPresent.fullFrame, ScanoutPresent.w, ScanoutPresent.h, UInt32.ofNat_toNat,
            UInt32.ofNat_toNat]
        refine .inr ⟨total, buf, htotal, hbuf, .of_quiet hacc ?_⟩
        exact ⟨⟨rfl, rfl, rfl, rfl, id⟩, rfl, rfl, rfl, rfl, hframe ▸ streamFrame_frames _ _ _ _⟩

private theorem Quiet.readRows {d d' : Backend} (h : Quiet d d') (sp : ScanoutPresentDamaged) (n : Nat) :
    d'.readRows sp n = d.readRows sp n := by
  induction n with
  | zero => rfl
  | succ n ih => simp only [Backend.readRows, ih, h.dmaRead]

/-- The surface depends on guest memory, the mappings and the retained image only. -/
theorem Quiet.damagedSurface {d d' : Backend} (h : Quiet d d') (sp : ScanoutPresentDamaged) (n : Nat) :
    d'.damagedSurface sp n = d.damagedSurface sp n := by
  simp only [Backend.damagedSurface, matchingScanout, h.lastScanout, h.dmaRead, h.readRows]

/-- Nothing but bookkeeping, or the surface with the damage on it is retained. -/
theorem presentScanoutDamaged_cases (env : Env) (sp : ScanoutPresentDamaged) (seqno : UInt64)
    (ctx : Fin NUM_CONTEXTS) (d : Backend) :
    Quiet d (d.presentScanoutDamaged env sp seqno ctx) ∨
      ∃ fbBytes b bytesRead, sp.fbBytes = some fbBytes ∧ d.damagedSurface sp fbBytes = some (b, bytesRead) ∧
        Presented ctx seqno (some b) b d (d.presentScanoutDamaged env sp seqno ctx) := by
  have hadm := (invalidateElision_quiet d).trans (ensureAdmitted_quiet env _)
  simp only [presentScanoutDamaged]
  split
  · exact .inl hadm
  · split
    · exact .inl hadm
    · rename_i fbBytes hfb
      have hacc := hadm.trans (accountScanoutVram_quiet sp.width sp.height _)
      split
      · exact .inl hacc
      · rename_i b bytesRead hb
        rw [hacc.damagedSurface] at hb
        refine .inr ⟨fbBytes, b, bytesRead, hfb, hb, .of_quiet hacc ?_⟩
        exact ⟨⟨rfl, rfl, rfl, rfl, id⟩, rfl, rfl, rfl, rfl, streamFrame_frames _ _ _ _⟩

/-- The present must read the whole framebuffer: there is no surface of its size, or all of it is damaged. -/
def NeedFull (sp : ScanoutPresentDamaged) (d : Backend) : Prop :=
  d.matchingScanout sp.w sp.h = none ∨
    (sp.damage.dx = 0 ∧ sp.damage.dy = 0 ∧ sp.damage.dw = sp.w ∧ sp.damage.dh = sp.h)

/-- The framebuffer, or a damaged row of it, is not mapped. -/
def Unreadable (sp : ScanoutPresentDamaged) (fbBytes : Nat) (d : Backend) : Prop :=
  (d.NeedFull sp ∧ d.dmaRead sp.scanoutAddr fbBytes = none) ∨
    (¬ d.NeedFull sp ∧ sp.damage.dw > 0 ∧
      ∃ r < sp.damage.dh, d.dmaRead (sp.rowAddr r) (sp.damage.dw * 4) = none)

theorem readRows_eq_none_iff {sp : ScanoutPresentDamaged} {d : Backend} {n : Nat} :
    d.readRows sp n = none ↔ ∃ r < n, d.dmaRead (sp.rowAddr r) (sp.damage.dw * 4) = none := by
  induction n with
  | zero => exact iff_of_false nofun (fun ⟨r, hr, _⟩ => absurd hr (Nat.not_lt_zero r))
  | succ n ih =>
    simp only [readRows]
    constructor
    · intro h
      split at h
      · rename_i hn
        obtain ⟨r, hr, hnone⟩ := ih.1 hn
        exact ⟨r, by omega, hnone⟩
      · exact ⟨n, Nat.lt_succ_self n, Option.map_eq_none_iff.1 h⟩
    · rintro ⟨r, hr, hnone⟩
      split
      · rfl
      · rename_i rows hrows
        rcases Nat.lt_succ_iff_lt_or_eq.1 hr with hlt | rfl
        · rw [ih.2 ⟨r, hlt, hnone⟩] at hrows
          cases hrows
        · rw [hnone]; rfl

/-- There is no surface exactly when something it needs cannot be read. -/
theorem damagedSurface_eq_none_iff {sp : ScanoutPresentDamaged} {fbBytes : Nat} {d : Backend} :
    d.damagedSurface sp fbBytes = none ↔ d.Unreadable sp fbBytes := by
  have hneed : d.NeedFull sp → (d.Unreadable sp fbBytes ↔ d.dmaRead sp.scanoutAddr fbBytes = none) := fun h =>
    ⟨fun hun => hun.elim And.right fun hun => absurd h hun.1, fun hread => .inl ⟨h, hread⟩⟩
  simp only [damagedSurface]
  split
  · rename_i hnone
    rw [hneed (.inl hnone), Option.map_eq_none_iff]
  · rename_i b hb
    have hne : d.matchingScanout sp.w sp.h ≠ none := by rw [hb]; exact nofun
    by_cases hfull : sp.damage.dx = 0 ∧ sp.damage.dy = 0 ∧ sp.damage.dw = sp.w ∧ sp.damage.dh = sp.h
    · rw [if_pos hfull, hneed (.inr hfull), Option.map_eq_none_iff]
    · have hpart : ¬ d.NeedFull sp := not_or.2 ⟨hne, hfull⟩
      rw [if_neg hfull]
      by_cases hpos : sp.damage.dw > 0 ∧ sp.damage.dh > 0
      · rw [if_pos hpos, Option.map_eq_none_iff, readRows_eq_none_iff]
        exact ⟨fun h => .inr ⟨hpart, hpos.1, h⟩, fun h => h.elim (fun h => absurd h.1 hpart) fun h => h.2.2⟩
      · rw [if_neg hpos]
        refine iff_of_false nofun fun h => ?_
        rcases h with h | ⟨-, hdw, r, hr, -⟩
        · exact hpart h.1
        · exact hpos ⟨hdw, by omega⟩

/-- An admitted present with accepted geometry that cannot read what it needs. -/
def Bails (env : Env) (sp : ScanoutPresentDamaged) (d : Backend) : Prop :=
  (d.ensureAdmitted env).1 = true ∧ ∃ fbBytes, sp.fbBytes = some fbBytes ∧ d.Unreadable sp fbBytes

/-- A present that bails does nothing but bookkeeping. -/
theorem Bails.quiet {sp : ScanoutPresentDamaged} {d : Backend} (h : d.Bails env sp) (seqno : UInt64)
    (ctx : Fin NUM_CONTEXTS) : Quiet d (d.presentScanoutDamaged env sp seqno ctx) := by
  obtain ⟨-, fbBytes, hfb, hun⟩ := h
  rcases presentScanoutDamaged_cases env sp seqno ctx d with hq | ⟨n, b, bytesRead, hn, hb, -⟩
  · exact hq
  · rw [hfb, Option.some_inj] at hn
    subst hn
    rw [damagedSurface_eq_none_iff.2 hun] at hb
    cases hb

theorem presentScanout_keeps (sp : ScanoutPresent) (seqno : UInt64) (ctx : Fin NUM_CONTEXTS) (d : Backend) :
    Keeps d (d.presentScanout env sp seqno ctx) := by
  rcases presentScanout_cases env sp seqno ctx d with h | ⟨_, _, _, _, h⟩
  · exact h.toKeeps
  · exact h.toKeeps

theorem presentScanoutDamaged_keeps (sp : ScanoutPresentDamaged) (seqno : UInt64) (ctx : Fin NUM_CONTEXTS)
    (d : Backend) : Keeps d (d.presentScanoutDamaged env sp seqno ctx) := by
  rcases presentScanoutDamaged_cases env sp seqno ctx d with h | ⟨_, _, _, _, _, h⟩
  · exact h.toKeeps
  · exact h.toKeeps

theorem presentResourceFlush_keeps (resId : UInt32) (rect : Rect) (seqno : UInt64) (ctx : Fin NUM_CONTEXTS)
    (d : Backend) : Keeps d (d.presentResourceFlush env resId rect seqno ctx) := by
  simp only [presentResourceFlush]
  split
  · exact (invalidateElision_quiet d).toKeeps
  · exact (invalidateElision_quiet d).toKeeps.trans (presentScanoutDamaged_keeps _ _ _ _)

theorem renderClearPresent_keeps (cp : ClearPresent) (seqno : UInt64) (ctx : Fin NUM_CONTEXTS) (d : Backend) :
    Keeps d (d.renderClearPresent env cp seqno ctx) := by
  have hadm := ((invalidateElision_quiet d).trans (ensureAdmitted_quiet env _)).toKeeps
  simp only [renderClearPresent]
  split
  · exact hadm
  · split
    · exact hadm
    · have hrun := fun out : Option (Option (List UInt8)) => hadm.trans (runTimed_quiet env out _).toKeeps
      split
      · rename_i rgba d' hd'
        have hd := hrun (env.renderClear (ensureAdmitted env d.invalidateElision).2.calls cp.width cp.height
          cp.rgba).outcome
        rw [hd'] at hd
        split
        · exact (hd.trans (dmaWrite_keeps _ _ _)).trans (retire_keeps _ _ _)
        · exact hd.trans (dmaWrite_keeps _ _ _)
      · rename_i r d' hd'
        have hd := hrun (env.renderClear (ensureAdmitted env d.invalidateElision).2.calls cp.width cp.height
          cp.rgba).outcome
        rw [hd'] at hd
        exact hd

end Backend

end Infinigpu
