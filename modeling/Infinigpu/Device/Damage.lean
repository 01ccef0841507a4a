import Infinigpu.Device.Paint
import Infinigpu.Lib.Lts

/-!
# Damaged presents refine full presents (`infinigpu-device`, `present_scanout_damaged`)

A damaged present paints a part of the framebuffer over the image that is retained from an earlier present.  The
retained image is always the one that was shown last (`Screen.Retains`), so what is not painted is up to date as long
as the damage covers every pixel that differs from what is shown, and the result is the image of the whole framebuffer
(`damagedSurface_eq`, `damaged_present_refines`).
-/

namespace Infinigpu

namespace ScanoutPresentDamaged

/-- The damage contains the pixel `(x, y)`, whether or not it is clipped. -/
def Contains (sp : ScanoutPresentDamaged) (x y : Nat) : Prop :=
  sp.dx.toNat ≤ x ∧ x < sp.dx.toNat + sp.dw.toNat ∧ sp.dy.toNat ≤ y ∧ y < sp.dy.toNat + sp.dh.toNat

/-- The damage covers every pixel of the framebuffer `fb` that differs from what is shown, if that has its size. -/
def Covers (sp : ScanoutPresentDamaged) (fb : Memory) (shown : Option ScanoutBuffer) : Prop :=
  ∀ b ∈ shown, b.w = sp.w → b.h = sp.h → ∀ x < sp.w, ∀ y < sp.h,
    (∃ k < 4, b.bgra[(y * sp.w + x) * 4 + k]? ≠ some (sp.bgraAt fb x y k)) → sp.Contains x y

instance (sp : ScanoutPresentDamaged) (x y : Nat) : Decidable (sp.Contains x y) := by unfold Contains; infer_instance

instance (sp : ScanoutPresentDamaged) (fb : Memory) (shown : Option ScanoutBuffer) :
    Decidable (sp.Covers fb shown) := by
  unfold Covers; infer_instance

variable {sp : ScanoutPresentDamaged}

/-- The clamped damage lies inside the frame. -/
theorem damage_le (sp : ScanoutPresentDamaged) :
    sp.damage.dx + sp.damage.dw ≤ sp.w ∧ sp.damage.dy + sp.damage.dh ≤ sp.h := by
  simp only [damage, clampDamage]
  omega

/-- Inside the frame, clamping keeps the damage. -/
private theorem contains_iff {x y : Nat} (hx : x < sp.w) (hy : y < sp.h) :
    sp.Contains x y ↔ sp.damage.dx ≤ x ∧ x < sp.damage.dx + sp.damage.dw ∧
      sp.damage.dy ≤ y ∧ y < sp.damage.dy + sp.damage.dh := by
  simp only [Contains, damage, clampDamage]
  omega

theorem rowAddr_eq (sp : ScanoutPresentDamaged) (r : Nat) :
    sp.rowAddr r = sp.scanoutAddr + UInt64.ofNat ((sp.damage.dy + r) * sp.pitch.toNat + sp.damage.dx * 4) := by
  have hpitch : sp.pitch.toUInt64 = UInt64.ofNat sp.pitch.toNat := by
    have hlt := sp.pitch.toNat_lt
    rw [← UInt64.toNat_inj, UInt32.toNat_toUInt64, UInt64.toNat_ofNat']
    omega
  rw [rowAddr, hpitch, UInt64.ofNat_add (_ * _), UInt64.ofNat_mul, UInt64.ofNat_mul, UInt64.add_assoc]
  rfl

/-- The part of row `dy + r` that is damaged lies inside the framebuffer. -/
theorem damaged_row_le {r : Nat} (hpitch : sp.w * 4 ≤ sp.pitch.toNat) (hr : r < sp.damage.dh) :
    (sp.damage.dy + r) * sp.pitch.toNat + sp.damage.dx * 4 + sp.damage.dw * 4 ≤ sp.pitch.toNat * sp.h := by
  obtain ⟨hx, hy⟩ := sp.damage_le
  have hrow := sp.toScanoutPresent.row_le (sp.damage.dy + r) hpitch (by omega)
  omega

end ScanoutPresentDamaged

theorem ScanoutPresent.fbBytes_eq_some {sp : ScanoutPresent} {n : Nat} (h : sp.fbBytes = some n) :
    sp.w * 4 ≤ sp.pitch.toNat ∧ n = sp.pitch.toNat * sp.h := by
  simp only [fbBytes] at h
  split at h
  · rename_i hgeom
    rw [Option.some_inj] at h
    exact ⟨hgeom.1, h.symm⟩
  · cases h

namespace Backend

/-! ### What the device sees of a framebuffer -/

/-- What the device reads inside the framebuffer of a present are the bytes `fb`. -/
def Shows (sp : ScanoutPresent) (fb : Memory) (d : Backend) : Prop :=
  ∀ i len bs, i + len ≤ sp.pitch.toNat * sp.h → d.dmaRead (sp.scanoutAddr + UInt64.ofNat i) len = some bs →
    bs = fb.load i len

/-- The bytes of a framebuffer, zero where it is not mapped. -/
def framebuffer (sp : ScanoutPresent) (d : Backend) : Memory := fun i =>
  match d.dma.resolve (sp.scanoutAddr + UInt64.ofNat i) 1 with
  | some p => d.mem p
  | none => 0

/-- Where no mapped intervals overlap, a framebuffer has bytes. -/
theorem shows_framebuffer {d : Backend} (h : d.dma.Disjoint) (sp : ScanoutPresent) :
    d.Shows sp (d.framebuffer sp) := by
  intro i len bs _ hread
  obtain ⟨p, hp, rfl⟩ := Option.map_eq_some_iff.1 hread
  refine List.map_congr_left fun k hk => ?_
  rw [List.mem_range] at hk
  have hbyte := DmaTable.resolve_add h hp Nat.zero_lt_one hk
  rw [UInt64.add_assoc, ← UInt64.ofNat_add] at hbyte
  rw [framebuffer, hbyte]

private theorem Shows.of_eq {d d' : Backend} {sp : ScanoutPresent} {fb : Memory} (hdma : d'.dma = d.dma)
    (hmem : d'.mem = d.mem) (h : d.Shows sp fb) : d'.Shows sp fb := by
  intro i len bs hi hread
  rw [dmaRead, hdma, hmem] at hread
  exact h i len bs hi hread

variable {d : Backend} {sp : ScanoutPresentDamaged} {fb : Memory}

private theorem Shows.whole (h : d.Shows sp.toScanoutPresent fb) {buf : List UInt8}
    (hread : d.dmaRead sp.scanoutAddr (sp.pitch.toNat * sp.h) = some buf) :
    buf = fb.load 0 (sp.pitch.toNat * sp.h) := by
  refine h 0 _ buf (Nat.le_of_eq (Nat.zero_add _)) ?_
  have hzero : sp.scanoutAddr + UInt64.ofNat 0 = sp.scanoutAddr := UInt64.add_zero _
  rw [hzero]
  exact hread

/-- The damaged part of every row is where it was put. -/
private theorem Shows.readRows (h : d.Shows sp.toScanoutPresent fb) (hpitch : sp.w * 4 ≤ sp.pitch.toNat) {n : Nat}
    (hn : n ≤ sp.damage.dh) {rows : List UInt8} (hrows : d.readRows sp n = some rows) :
    rows.length = n * (sp.damage.dw * 4) ∧ ∀ r < n, Bytes.slice rows (r * (sp.damage.dw * 4)) (sp.damage.dw * 4) =
      fb.load ((sp.damage.dy + r) * sp.pitch.toNat + sp.damage.dx * 4) (sp.damage.dw * 4) := by
  induction n generalizing rows with
  | zero =>
    cases hrows
    exact ⟨(Nat.zero_mul _).symm, fun r hr => absurd hr (Nat.not_lt_zero r)⟩
  | succ n ih =>
    simp only [Backend.readRows] at hrows
    split at hrows
    · cases hrows
    · rename_i before hbefore
      obtain ⟨bs, hbs, rfl⟩ := Option.map_eq_some_iff.1 hrows
      obtain ⟨hlen, hslice⟩ := ih (by omega) hbefore
      rw [sp.rowAddr_eq] at hbs
      have hbytes := h _ _ bs (sp.damaged_row_le hpitch (by omega)) hbs
      have hbslen : bs.length = sp.damage.dw * 4 := by rw [hbytes, Memory.load_length]
      refine ⟨by rw [List.length_append, hlen, hbslen, Nat.succ_mul], fun r hr => ?_⟩
      rcases Nat.lt_succ_iff_lt_or_eq.1 hr with hlt | rfl
      · have hend : (r + 1) * (sp.damage.dw * 4) ≤ n * (sp.damage.dw * 4) := Nat.mul_le_mul_right _ hlt
        rw [Nat.succ_mul] at hend
        rw [Bytes.slice_append_left (by omega), hslice r hlt]
      · rw [← hlen, ← hbslen, Bytes.slice_append_right, hbytes, Memory.load_length]

/-- Painting the damaged rows over a surface that is right outside the damage makes the image of the framebuffer. -/
private theorem paintDamage_eq {rows bgra : List UInt8} (hlen : bgra.length = sp.w * sp.h * 4)
    (hrows : ∀ r < sp.damage.dh, Bytes.slice rows (r * (sp.damage.dw * 4)) (sp.damage.dw * 4) =
      fb.load ((sp.damage.dy + r) * sp.pitch.toNat + sp.damage.dx * 4) (sp.damage.dw * 4))
    (hkept : ∀ x < sp.w, ∀ y < sp.h, ∀ k < 4, ¬ sp.Contains x y →
      bgra[(y * sp.w + x) * 4 + k]? = some (sp.bgraAt fb x y k)) :
    paintRows sp.w sp.damage.dx sp.damage.dy
      (fun r => swizzleRowToBgra (Bytes.slice rows (r * (sp.damage.dw * 4)) (sp.damage.dw * 4)) sp.bgraIsCopy)
      sp.damage.dh bgra = sp.toBgra fb := by
  obtain ⟨hx, hy⟩ := sp.damage_le
  have hrow : ∀ r < sp.damage.dh, (swizzleRowToBgra (Bytes.slice rows (r * (sp.damage.dw * 4)) (sp.damage.dw * 4))
      sp.bgraIsCopy).length = sp.damage.dw * 4 := by
    intro r hr
    rw [hrows r hr, swizzleRow_length]
  have hsize : (sp.damage.dy + sp.damage.dh) * sp.w * 4 ≤ bgra.length := by
    rw [hlen, Nat.mul_comm sp.w]
    exact Nat.mul_le_mul_right 4 (Nat.mul_le_mul_right sp.w hy)
  refine ScanoutPresent.eq_toBgra ?_ fun x hxw y hyh k hk => ?_
  · rw [paintRows_length hx hrow hsize, hlen]
  · rw [getElem?_paintRows hx hrow hsize hxw hk]
    by_cases hin : sp.Contains x y
    · have hclamped := (ScanoutPresentDamaged.contains_iff hxw hyh).1 hin
      rw [if_pos hclamped, hrows _ (by omega), getElem?_swizzleRow _ _ (by omega) hk, ScanoutPresent.bgraAt]
      have hline : sp.damage.dy + (y - sp.damage.dy) = y := by omega
      have hpixel : y * sp.pitch.toNat + sp.damage.dx * 4 + (x - sp.damage.dx) * 4 = y * sp.pitch.toNat + x * 4 := by
        omega
      rw [hline, hpixel]
    · rw [if_neg (fun h => hin ((ScanoutPresentDamaged.contains_iff hxw hyh).2 h))]
      exact hkept x hxw y hyh k hk hin

/-- The surface after the damage is the image of the whole framebuffer, if the retained image was as large as it says
and what differs from it is covered. -/
theorem damagedSurface_eq (h : d.Shows sp.toScanoutPresent fb)
    (hsize : ∀ b ∈ d.lastScanout, b.bgra.length = b.w * b.h * 4) (hcovers : sp.Covers fb d.lastScanout)
    {n bytesRead : Nat} (hfb : sp.fbBytes = some n) {b : ScanoutBuffer}
    (hb : d.damagedSurface sp n = some (b, bytesRead)) :
    b = { w := sp.w, h := sp.h, bgra := sp.toBgra fb } := by
  obtain ⟨hpitch, rfl⟩ := ScanoutPresent.fbBytes_eq_some hfb
  simp only [damagedSurface] at hb
  split at hb
  · -- a new surface
    obtain ⟨buf, hbuf, heq⟩ := Option.map_eq_some_iff.1 hb
    rw [h.whole hbuf, ScanoutPresent.paintFrame_eq hpitch List.length_replicate] at heq
    exact (Prod.mk.inj heq).1.symm
  · rename_i old hold
    obtain ⟨hlast, hdims⟩ := Option.filter_eq_some_iff.1 hold
    rw [Bool.and_eq_true, decide_eq_true_eq, decide_eq_true_eq] at hdims
    obtain ⟨hw, hh⟩ := hdims
    have hlen : old.bgra.length = sp.w * sp.h * 4 := by rw [hsize old hlast, hw, hh]
    split at hb
    · -- all of the frame is damaged
      obtain ⟨buf, hbuf, heq⟩ := Option.map_eq_some_iff.1 hb
      rw [h.whole hbuf, ScanoutPresent.paintFrame_eq hpitch hlen] at heq
      exact (Prod.mk.inj heq).1.symm
    · have hkept : ∀ x < sp.w, ∀ y < sp.h, ∀ k < 4, ¬ sp.Contains x y →
          old.bgra[(y * sp.w + x) * 4 + k]? = some (sp.bgraAt fb x y k) := by
        intro x hx y hy k hk hout
        by_contra hne
        exact hout (hcovers old hlast hw hh x hx y hy ⟨k, hk, hne⟩)
      split at hb
      · obtain ⟨rows, hrows, heq⟩ := Option.map_eq_some_iff.1 hb
        rw [← (Prod.mk.inj heq).1, paintDamage_eq hlen (h.readRows hpitch (Nat.le_refl _) hrows).2 hkept, hw, hh]
      · -- no pixel is damaged
        rename_i hempty
        rw [Option.some_inj, Prod.mk.injEq] at hb
        have himage : old.bgra = sp.toBgra fb := by
          refine ScanoutPresent.eq_toBgra hlen fun x hx y hy k hk => hkept x hx y hy k hk fun hin => hempty ?_
          have hclamped := (ScanoutPresentDamaged.contains_iff hx hy).1 hin
          omega
        rw [← hb.1, ← hw, ← hh, ← himage]

/-- The image that a full present shows, if it can read the framebuffer. -/
def fullFrame (sp : ScanoutPresent) (d : Backend) : Option ScanoutBuffer :=
  (sp.fbBytes.bind fun total => d.dmaRead sp.scanoutAddr total).map sp.fullFrame

/-- It is the image of the framebuffer. -/
theorem fullFrame_eq {d : Backend} {sp : ScanoutPresentDamaged} {fb : Memory} (h : d.Shows sp.toScanoutPresent fb)
    {b : ScanoutBuffer} (hb : d.fullFrame sp.toScanoutPresent = some b) :
    b = { w := sp.w, h := sp.h, bgra := sp.toBgra fb } := by
  obtain ⟨buf, hbuf, rfl⟩ := Option.map_eq_some_iff.1 hb
  obtain ⟨total, htotal, hread⟩ := Option.bind_eq_some_iff.1 hbuf
  obtain ⟨hpitch, rfl⟩ := ScanoutPresent.fbBytes_eq_some htotal
  rw [h.whole hread, ScanoutPresent.fullFrame, ScanoutPresent.paintFrame_eq hpitch List.length_replicate]

end Backend

/-! ### Runs -/

/-- The device, and the image that the last present that went through handed to the streamer. -/
structure Screen where
  dev : Backend
  shown : Option ScanoutBuffer

/-- A present, `fb` being the bytes of the framebuffer it presents, or anything else that happens to the machine;
nothing else replaces the retained image, a reset drops it. -/
inductive PresentAct where
  | full (env : Env) (sp : ScanoutPresent) (seqno : UInt64) (ctx : Fin NUM_CONTEXTS)
  | damaged (env : Env) (sp : ScanoutPresentDamaged) (seqno : UInt64) (ctx : Fin NUM_CONTEXTS) (fb : Memory)
  | elsewhere (f : Backend → Backend)

namespace Screen

/-- A screen before the first present. -/
def start (d : Backend) : Screen where
  dev := d
  shown := none

/-- The screen after a present: what is shown changes if the present went through. -/
def presented (s : Screen) (dev : Backend) (shown : Option ScanoutBuffer) : Screen where
  dev
  shown := if dev.presentCount = s.dev.presentCount then s.shown else shown

def step (s : Screen) : PresentAct → Option Screen
  | .full env sp seqno ctx => some (s.presented (s.dev.presentScanout env sp seqno ctx) (s.dev.fullFrame sp))
  | .damaged env sp seqno ctx _ =>
    let dev := s.dev.presentScanoutDamaged env sp seqno ctx
    some (s.presented dev dev.lastScanout)
  | .elsewhere f =>
    if (f s.dev).lastScanout = s.dev.lastScanout ∨ (f s.dev).lastScanout = none then
      some { s with dev := f s.dev }
    else
      none

/-- A damaged present reads the framebuffer it presents, and covers what differs from what is shown. -/
def Honest (s : Screen) : PresentAct → Prop
  | .damaged _ sp _ _ fb => s.dev.Shows sp.toScanoutPresent fb ∧ sp.Covers fb s.shown
  | _ => True

/-- The retained image is what is shown, and as large as it says. -/
structure Retains (s : Screen) : Prop where
  shown : ∀ b ∈ s.dev.lastScanout, s.shown = some b
  size : ∀ b ∈ s.dev.lastScanout, b.bgra.length = b.w * b.h * 4

theorem succ_ne (n : UInt64) : n + 1 ≠ n := by
  intro h
  have hlt := n.toNat_lt
  rw [← UInt64.toNat_inj, UInt64.toNat_add, UInt64.toNat_one] at h
  omega

private theorem presented_dev (s : Screen) (dev : Backend) (shown : Option ScanoutBuffer) :
    (s.presented dev shown).dev = dev := rfl

private theorem presented_quiet {s : Screen} {dev : Backend} (h : Backend.Quiet s.dev dev)
    (shown : Option ScanoutBuffer) :
    s.presented dev shown = { s with dev } := by
  rw [presented, if_pos h.presentCount]

private theorem presented_presented {s : Screen} {dev : Backend} {ctx : Fin NUM_CONTEXTS} {seqno : UInt64}
    {last : Option ScanoutBuffer} {b : ScanoutBuffer} (h : Backend.Presented ctx seqno last b s.dev dev)
    (shown : Option ScanoutBuffer) : s.presented dev shown = { dev, shown } := by
  rw [presented, if_neg (by rw [h.presentCount]; exact succ_ne _)]

/-- A present that goes through hands what is shown from then on to the streamer. -/
theorem step_frames {s s' : Screen} {a : PresentAct} (ha : ∀ f, a ≠ .elsewhere f) (hstep : s.step a = some s')
    (hthrough : s'.dev.presentCount ≠ s.dev.presentCount) :
    ∃ b, s'.shown = some b ∧ s'.dev.frames = s.dev.frames.map (· ++ [b.frame]) := by
  cases a with
  | full env sp seqno ctx =>
    simp only [step, Option.some_inj] at hstep
    subst hstep
    rcases Backend.presentScanout_cases env sp seqno ctx s.dev with hq | ⟨total, buf, htotal, hbuf, hp⟩
    · exact absurd hq.presentCount hthrough
    · rw [presented_presented hp, Backend.fullFrame, htotal, Option.bind_some, hbuf]
      exact ⟨sp.fullFrame buf, rfl, hp.frames⟩
  | damaged env sp seqno ctx fb =>
    simp only [step, Option.some_inj] at hstep
    subst hstep
    rcases Backend.presentScanoutDamaged_cases env sp seqno ctx s.dev with hq | ⟨n, b, bytesRead, -, -, hp⟩
    · exact absurd hq.presentCount hthrough
    · rw [presented_presented hp]
      exact ⟨b, hp.lastScanout, hp.frames⟩
  | elsewhere f => exact absurd rfl (ha f)

private theorem Retains.covers {s : Screen} (h : s.Retains) {sp : ScanoutPresentDamaged} {fb : Memory}
    (hcovers : sp.Covers fb s.shown) : sp.Covers fb s.dev.lastScanout :=
  fun b hb => hcovers b (h.shown b hb)

/-- What an honest damaged present retains, if it goes through. -/
theorem Retains.damaged {s : Screen} (h : s.Retains) {env : Env} {sp : ScanoutPresentDamaged} {seqno : UInt64}
    {ctx : Fin NUM_CONTEXTS} {fb : Memory} (hhonest : s.Honest (.damaged env sp seqno ctx fb)) :
    Backend.Quiet s.dev (s.dev.presentScanoutDamaged env sp seqno ctx) ∨
      Backend.Presented ctx seqno (some { w := sp.w, h := sp.h, bgra := sp.toBgra fb })
        { w := sp.w, h := sp.h, bgra := sp.toBgra fb } s.dev (s.dev.presentScanoutDamaged env sp seqno ctx) := by
  rcases Backend.presentScanoutDamaged_cases env sp seqno ctx s.dev with hq | ⟨n, b, bytesRead, hn, hb, hp⟩
  · exact .inl hq
  · right
    rw [← Backend.damagedSurface_eq hhonest.1 h.size (h.covers hhonest.2) hn hb]
    exact hp

private theorem Retains.step {s s' : Screen} {a : PresentAct} (hhonest : s.Honest a) (h : s.Retains)
    (hstep : s.step a = some s') : s'.Retains := by
  cases a with
  | full env sp seqno ctx =>
    simp only [Screen.step, Option.some_inj] at hstep
    subst hstep
    rcases Backend.presentScanout_cases env sp seqno ctx s.dev with hq | ⟨total, buf, -, -, hp⟩
    · rw [presented_quiet hq]
      exact ⟨fun b hb => h.shown b (hq.lastScanout ▸ hb), fun b hb => h.size b (hq.lastScanout ▸ hb)⟩
    · -- the image is dropped
      rw [presented_presented hp]
      refine ⟨fun b hb => ?_, fun b hb => ?_⟩
      · rw [hp.lastScanout] at hb
        cases hb
      · rw [hp.lastScanout] at hb
        cases hb
  | damaged env sp seqno ctx fb =>
    simp only [Screen.step, Option.some_inj] at hstep
    subst hstep
    rcases h.damaged hhonest with hq | hp
    · rw [presented_quiet hq]
      exact ⟨fun b hb => h.shown b (hq.lastScanout ▸ hb), fun b hb => h.size b (hq.lastScanout ▸ hb)⟩
    · rw [presented_presented hp]
      refine ⟨fun b hb => hb, fun b hb => ?_⟩
      rw [hp.lastScanout, Option.mem_some_iff] at hb
      rw [← hb]
      exact ScanoutPresent.toBgra_length _ _
  | elsewhere f =>
    simp only [Screen.step] at hstep
    split at hstep
    · rename_i hkept
      rw [Option.some_inj] at hstep
      subst hstep
      rcases hkept with hkept | hnone
      · exact ⟨fun b hb => h.shown b (hkept ▸ hb), fun b hb => h.size b (hkept ▸ hb)⟩
      · refine ⟨fun b hb => ?_, fun b hb => ?_⟩
        · rw [hnone] at hb
          cases hb
        · rw [hnone] at hb
          cases hb
    · cases hstep

theorem Retains.start {d : Backend} (h : d.lastScanout = none) : (start d).Retains where
  shown b hb := by
    rw [Screen.start, h] at hb
    cases hb
  size b hb := by
    rw [Screen.start, h] at hb
    cases hb

/-- After any run of honest presents from a device without a retained image, a damaged present that goes through
retains the BGRA image of the whole framebuffer it presents. -/
theorem damaged_present_refines {d : Backend} (hd : d.lastScanout = none) {acts : List PresentAct} {env : Env}
    {sp : ScanoutPresentDamaged} {seqno : UInt64} {ctx : Fin NUM_CONTEXTS} {fb : Memory} {s s' : Screen}
    (hhonest : Lts.Along step Honest (start d) (acts ++ [.damaged env sp seqno ctx fb]))
    (hrun : Lts.run step (start d) acts = some s) (hstep : s.step (.damaged env sp seqno ctx fb) = some s')
    (hthrough : s'.dev.presentCount ≠ s.dev.presentCount) :
    s'.dev.lastScanout = some { w := sp.w, h := sp.h, bgra := sp.toBgra fb } := by
  have hretains : s.Retains :=
    hhonest.left.invariant (fun _ _ _ ha h hs' => h.step ha hs') hrun (.start hd)
  simp only [step, Option.some_inj] at hstep
  subst hstep
  rcases hretains.damaged (hhonest.right hrun).1 with hq | hp
  · exact absurd hq.presentCount hthrough
  · exact hp.lastScanout

/-- The guest writes to its memory. -/
private theorem step_mem (s : Screen) (mem : Memory) :
    s.step (.elsewhere fun d => { d with mem }) = some { s with dev := { s.dev with mem } } := if_pos (.inl rfl)

/-- A device whose framebuffer of two pixels is mapped. -/
def twoPixels (mem : Memory) : Backend :=
  { Backend.withBroker .default .new (.new "vm" 1 4096) mem with dma := DmaTable.new.map 0x1000 8 0 }

private theorem twoPixels_dma (mem : Memory) : (twoPixels mem).dma = DmaTable.new.map 0x1000 8 0 := rfl

private theorem twoPixels_disjoint (mem : Memory) : (twoPixels mem).dma.Disjoint := by
  rw [twoPixels_dma]
  decide

private theorem shows_twoPixels {d : Backend} (h : d.dma = DmaTable.new.map 0x1000 8 0) (mem : Memory)
    (sp : ScanoutPresent) :
    ({ d with mem } : Backend).Shows sp ((twoPixels mem).framebuffer sp) :=
  .of_eq (h.trans (twoPixels_dma mem).symm) rfl (Backend.shows_framebuffer (twoPixels_disjoint mem) sp)

/-- A present of the two pixels of which `dw` from `dx` on are damaged. -/
def presentTwo (dx dw : UInt32) : ScanoutPresentDamaged where
  width := 2
  height := 1
  pitch := 8
  format := Format.r8g8b8a8
  scanoutAddr := 0x1000
  dx := dx
  dy := 0
  dw := dw
  dh := 7

theorem damaged_present_refines_second_pixel :
    let mem : Memory := .ofWords [0x332211, 0x665544]
    let mem' : Memory := .ofWords [0x332211, 0x998877]
    ∃ s s', Lts.run step (start (twoPixels mem))
        [.damaged .idle (presentTwo 0 2) 1 0 ((twoPixels mem).framebuffer (presentTwo 0 2).toScanoutPresent),
          .elsewhere fun d => { d with mem := mem' }] = some s ∧
      s.step (.damaged .idle (presentTwo 1 9) 2 0 ((twoPixels mem').framebuffer (presentTwo 1 9).toScanoutPresent)) =
        some s' ∧
      s'.dev.bytesReadLast = 4 ∧
      s'.dev.lastScanout = some { w := 2, h := 1, bgra := [0x33, 0x22, 0x11, 255, 0x99, 0x88, 0x77, 255] } := by
  intro mem mem'
  let first := (twoPixels mem).presentScanoutDamaged .idle (presentTwo 0 2) 1 0
  let s₁ := (start (twoPixels mem)).presented first first.lastScanout
  let s₂ : Screen := { s₁ with dev := { s₁.dev with mem := mem' } }
  let second := s₂.dev.presentScanoutDamaged .idle (presentTwo 1 9) 2 0
  let s₃ := s₂.presented second second.lastScanout
  have helsewhere : s₁.step (.elsewhere fun d => { d with mem := mem' }) = some s₂ := step_mem s₁ mem'
  have hrun : Lts.run step (start (twoPixels mem))
      [.damaged .idle (presentTwo 0 2) 1 0 ((twoPixels mem).framebuffer (presentTwo 0 2).toScanoutPresent),
        .elsewhere fun d => { d with mem := mem' }] = some s₂ := by
    rw [Lts.run_cons_of_eq (t := s₁) rfl, Lts.run_cons_of_eq helsewhere, Lts.run_nil]
  have hfirst : Backend.Keeps (twoPixels mem) first := Backend.presentScanoutDamaged_keeps _ _ _ _
  have hdma : s₁.dev.dma = DmaTable.new.map 0x1000 8 0 := by
    rw [presented_dev]
    exact hfirst.dma.trans (twoPixels_dma mem)
  have hhonest : Lts.Along step Honest (start (twoPixels mem))
      ([.damaged .idle (presentTwo 0 2) 1 0 ((twoPixels mem).framebuffer (presentTwo 0 2).toScanoutPresent),
        .elsewhere fun d => { d with mem := mem' }] ++
        [.damaged .idle (presentTwo 1 9) 2 0 ((twoPixels mem').framebuffer (presentTwo 1 9).toScanoutPresent)]) := by
    refine ⟨⟨Backend.shows_framebuffer (twoPixels_disjoint mem) _, by decide⟩, fun t ht => ?_⟩
    have ht' : s₁ = t := Option.some_inj.1 ht
    subst ht'
    refine ⟨trivial, fun u hu => ?_⟩
    have hu' : s₂ = u := Option.some_inj.1 (helsewhere.symm.trans hu)
    subst hu'
    exact ⟨⟨shows_twoPixels hdma mem' _, by decide⟩, fun _ _ => trivial⟩
  have hlast := damaged_present_refines rfl hhonest hrun rfl (by decide)
  exact ⟨s₂, s₃, hrun, rfl, by decide, hlast.trans (by decide)⟩

end Screen

end Infinigpu
