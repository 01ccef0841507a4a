import Infinigpu.Guest.Legacy
import Infinigpu.Lib.Lts

/-!
# What the screen shows of the guest's framebuffers (`guest/linux`, `igpu_pipe_update` and `igpu_primary_update`)

The guest draws into its framebuffers and commits them, whole or with the damage that the display helpers have merged;
the cursor plane is committed in between.  `Panel` is the machine with the image that the primary plane has scanned
out last.

The damage is clamped in signed arithmetic before it is sent (`clamp_axis`), each commit of the plane hands the image
of the committed framebuffer to the streamer (`scanned_full`, `scanned_damaged`), and so a run hands over the
committed images, one after another and nothing else (`Panel.commits_shown`).
-/

namespace Infinigpu.Kmd

/-! ### Clamped damage -/

private theorem toInt_toInt32 {v : UInt32} (h : v.toNat < 2 ^ 31) : v.toInt32.toInt = v.toNat := by
  have hhalf : 2 * v.toBitVec.toNat < 2 ^ 32 := by
    have hsame : v.toBitVec.toNat = v.toNat := rfl
    omega
  exact BitVec.toInt_eq_toNat_of_lt hhalf

private theorem toNat_of_nonneg {v : Int32} (h : 0 ≤ v.toInt) : (v.toUInt32.toNat : Int) = v.toInt := by
  have hle : 0 ≤ v := Int32.le_iff_toInt_le.2 h
  rw [Int32.toNat_toUInt32_of_le hle]
  exact Int.toNat_of_nonneg h

/-- One axis: a pixel of the framebuffer that is damaged is damaged after clamping. -/
theorem clamp_axis {a b : Int32} {n : UInt32} {x : Nat} (hn : n.toNat < 2 ^ 31) (hx : x < n.toNat) (ha : a.toInt ≤ x)
    (hb : x < b.toInt) :
    let lo := if a < 0 then 0 else a
    let hi := if b > n.toInt32 then n.toInt32 else b
    ¬ hi ≤ lo ∧ lo.toUInt32.toNat ≤ x ∧ x < lo.toUInt32.toNat + (hi - lo).toUInt32.toNat := by
  intro lo hi
  have hlo : 0 ≤ lo.toInt ∧ lo.toInt ≤ x := by
    show 0 ≤ (if a < 0 then 0 else a).toInt ∧ (if a < 0 then 0 else a).toInt ≤ x
    split
    · exact ⟨Int.le_refl 0, Int.natCast_nonneg x⟩
    · rename_i hneg
      rw [Int32.lt_iff_toInt_lt, Int.not_lt] at hneg
      exact ⟨hneg, ha⟩
  have hhi : (x : Int) < hi.toInt ∧ hi.toInt ≤ n.toNat := by
    show (x : Int) < (if b > n.toInt32 then n.toInt32 else b).toInt ∧
      (if b > n.toInt32 then n.toInt32 else b).toInt ≤ n.toNat
    have hbound := toInt_toInt32 hn
    split
    · omega
    · rename_i hle
      rw [gt_iff_lt, Int32.lt_iff_toInt_lt, Int.not_lt] at hle
      omega
  have hsub : (hi - lo).toInt = hi.toInt - lo.toInt :=
    Int32.toInt_sub_of_le hi lo (Int32.le_iff_toInt_le.2 hlo.1) (Int32.le_iff_toInt_le.2 (by omega))
  have hlow := toNat_of_nonneg hlo.1
  have hdiff := toNat_of_nonneg (v := hi - lo) (by omega)
  refine ⟨?_, by omega, by omega⟩
  rw [Int32.le_iff_toInt_le]
  omega

namespace DrmRect

def Contains (r : DrmRect) (x y : Nat) : Prop :=
  r.x1.toInt ≤ x ∧ x < r.x2.toInt ∧ r.y1.toInt ≤ y ∧ y < r.y2.toInt

instance (r : DrmRect) (x y : Nat) : Decidable (r.Contains x y) := by unfold Contains; infer_instance

end DrmRect

private theorem contains_clamped {fb : Framebuffer} {r : DrmRect} (hw : fb.width.toNat < 2 ^ 31)
    (hh : fb.height.toNat < 2 ^ 31) {x y : Nat} (hx : x < fb.width.toNat) (hy : y < fb.height.toNat)
    (h : r.Contains x y) :
    ∃ c, Phase0.clampRect fb r = some c ∧ ScanoutPresentDamaged.Contains
      ⟨Phase0.scanout fb, c.x1.toUInt32, c.y1.toUInt32, (c.x2 - c.x1).toUInt32, (c.y2 - c.y1).toUInt32⟩ x y := by
  obtain ⟨hx1, hx2, hy1, hy2⟩ := h
  have hcolumns := clamp_axis hw hx hx1 hx2
  have hrows := clamp_axis hh hy hy1 hy2
  unfold Phase0.clampRect
  simp only at hcolumns hrows ⊢
  rw [if_neg (not_or.2 ⟨hcolumns.1, hrows.1⟩)]
  exact ⟨_, rfl, hcolumns.2.1, hcolumns.2.2, hrows.2.1, hrows.2.2⟩

namespace Phase0

/-! ### Framebuffers -/

/-- What the plane scans out of a framebuffer. -/
def image (fb : Framebuffer) (m : Phase0) : ScanoutBuffer where
  w := (scanout fb).w
  h := (scanout fb).h
  bgra := (scanout fb).toBgra (m.dev.dev.framebuffer (scanout fb))

/-- A framebuffer that the host accepts and can read, apart from the page of the ring. -/
def Scannable (m : Phase0) (fb : Framebuffer) : Prop :=
  ∃ total p, (scanout fb).fbBytes = some total ∧ m.dev.dev.dma.resolve fb.addr total = some p ∧
    (p + total ≤ m.ring ∨ m.ring + 4096 ≤ p)

private theorem fbBytes_bounds {sp : ScanoutPresent} {total : Nat} (h : sp.fbBytes = some total) :
    sp.w < 2 ^ 31 ∧ sp.h < 2 ^ 31 ∧ 0 < total := by
  simp only [ScanoutPresent.fbBytes] at h
  split at h
  · rename_i hgeom
    obtain ⟨hpitch, hw, hh, hmax⟩ := hgeom
    rw [Option.some_inj] at h
    have hrow : sp.pitch.toNat * 1 ≤ sp.pitch.toNat * sp.h := Nat.mul_le_mul_left _ (Nat.pos_of_ne_zero hh)
    have hcolumn : 1 * sp.h ≤ sp.pitch.toNat * sp.h := Nat.mul_le_mul_right _ (by omega)
    unfold MAX_FRAME_BYTES at hmax
    omega
  · cases h

private theorem fbBytes_nonempty {sp : ScanoutPresent} {total : Nat} (h : sp.fbBytes = some total) :
    0 < sp.w ∧ 0 < sp.h := by
  simp only [ScanoutPresent.fbBytes] at h
  split at h
  · rename_i hgeom
    exact ⟨Nat.pos_of_ne_zero hgeom.2.1, Nat.pos_of_ne_zero hgeom.2.2.1⟩
  · cases h

variable {m : Phase0} {fb : Framebuffer} {d : Backend}

private theorem Scannable.bounds (hf : m.Scannable fb) : fb.width.toNat < 2 ^ 31 ∧ fb.height.toNat < 2 ^ 31 := by
  obtain ⟨total, p, htotal, -, -⟩ := hf
  obtain ⟨hw, hh, -⟩ := fbBytes_bounds htotal
  exact ⟨hw, hh⟩

/-- The device finds the framebuffer as the guest has left it, whatever is on the page. -/
private theorem Scannable.shows (hf : m.Scannable fb) (h : m.Probed) (hdma : d.dma = m.dev.dev.dma)
    (hmem : ∀ a, a < m.ring ∨ m.ring + 4096 ≤ a → d.mem a = m.dev.dev.mem a) :
    d.Shows (scanout fb) (m.dev.dev.framebuffer (scanout fb)) := by
  obtain ⟨total, p, htotal, hp, hapart⟩ := hf
  obtain ⟨-, hbytes⟩ := ScanoutPresent.fbBytes_eq_some htotal
  intro i len bs hi hread
  rw [← hbytes] at hi
  rcases Nat.eq_zero_or_pos len with rfl | hpos
  · obtain ⟨q, -, rfl⟩ := Option.map_eq_some_iff.1 hread
    rfl
  · have hresolve := DmaTable.resolve_add h.disjoint hp hpos hi
    have hread' : d.dmaRead (fb.addr + UInt64.ofNat i) len = some (d.mem.load (p + i) len) := by
      rw [Backend.dmaRead, DmaTable.read, hdma, hresolve]; rfl
    have hbefore : m.dev.dev.dmaRead (fb.addr + UInt64.ofNat i) len = some (m.dev.dev.mem.load (p + i) len) := by
      rw [Backend.dmaRead, DmaTable.read, hresolve]; rfl
    have hsame : d.mem.load (p + i) len = m.dev.dev.mem.load (p + i) len :=
      Memory.load_congr fun a _ _ => hmem a (by omega)
    have hbs : bs = d.mem.load (p + i) len := Option.some_inj.1 (hread.symm.trans hread')
    rw [hbs, hsame]
    exact Backend.shows_framebuffer h.disjoint (scanout fb) i len _ (by omega) hbefore

theorem Scannable.reads (hf : m.Scannable fb) (h : m.Probed) (hdma : d.dma = m.dev.dev.dma) {i len : Nat}
    (hlen : 0 < len) (hi : i + len ≤ fb.pitch.toNat * (scanout fb).h) :
    (d.dmaRead (fb.addr + UInt64.ofNat i) len).isSome := by
  obtain ⟨total, p, htotal, hp, -⟩ := hf
  obtain ⟨-, hbytes⟩ := ScanoutPresent.fbBytes_eq_some htotal
  have hbound : i + len ≤ total := by
    rw [hbytes]
    exact hi
  rw [Backend.dmaRead, DmaTable.read, hdma, DmaTable.resolve_add h.disjoint hp hlen hbound]
  rfl

/-! ### One submission -/

private theorem staged_outside (encoding : UInt32) {payload : List UInt8} (hlen : payload.length ≤ 4024)
    (m : Phase0) (a : Nat) (ha : a < m.ring ∨ m.ring + 4096 ≤ a) :
    (m.staged encoding payload).pointed.mem a = m.dev.dev.mem a := by
  have hdescriptor := (submitDescriptor (m.idev.seqno + 1) (UInt32.ofNat payload.length)).encode_length
  have hcommand := (submitCommand (m.idev.seqno + 1) encoding (UInt32.ofNat payload.length)).encode_length
  rw [descriptorSize] at hdescriptor
  rw [SubmitCmd.size] at hcommand
  rw [staged_mem]
  rcases ha with ha | ha
  · rw [Memory.store_of_lt _ (by omega), Memory.store_of_lt _ (by omega), Memory.store_of_lt _ ha]
  · rw [Memory.store_of_ge (by omega), Memory.store_of_ge (by omega), Memory.store_of_ge (by omega)]

/-- A present that is admitted, of an accepted framebuffer that can be read, goes through. -/
private theorem presentScanout_through (env : Env) {sp : ScanoutPresent} (seqno : UInt64) (ctx : Fin NUM_CONTEXTS)
    {total : Nat} {buf : List UInt8} (hticket : d.ticket.isSome) (hfb : sp.fbBytes = some total)
    (hread : d.dmaRead sp.scanoutAddr total = some buf) :
    (d.presentScanout env sp seqno ctx).presentCount = d.presentCount + 1 := by
  have hacc := Backend.accountScanoutVram_quiet sp.width sp.height d
  have hread' : (d.accountScanoutVram sp.width sp.height).dmaRead sp.scanoutAddr total = some buf := by
    rw [Backend.dmaRead, hacc.dma, hacc.mem]
    exact hread
  simp only [Backend.presentScanout, Backend.ensureAdmitted_of_ticket hticket, hfb, hread', Bool.not_true,
    Bool.false_eq_true, if_false]
  show (d.accountScanoutVram sp.width sp.height).presentCount + 1 = _
  rw [hacc.presentCount]

private theorem presentScanoutDamaged_through (env : Env) {sp : ScanoutPresentDamaged} (seqno : UInt64)
    (ctx : Fin NUM_CONTEXTS) {total : Nat} (hticket : d.ticket.isSome) (hfb : sp.fbBytes = some total)
    (hread : ¬ d.Unreadable sp total) :
    (d.presentScanoutDamaged env sp seqno ctx).presentCount = d.presentCount + 1 := by
  have hinv := Backend.invalidateElision_quiet d
  have hacc := hinv.trans (Backend.accountScanoutVram_quiet sp.width sp.height d.invalidateElision)
  have hticket' : d.invalidateElision.ticket.isSome := hticket
  obtain ⟨⟨b, bytesRead⟩, hb⟩ := Option.ne_none_iff_exists'.1 (mt Backend.damagedSurface_eq_none_iff.1 hread)
  have hb' : (d.invalidateElision.accountScanoutVram sp.width sp.height).damagedSurface sp total =
      some (b, bytesRead) := by
    rw [hacc.damagedSurface, hb]
  simp only [Backend.presentScanoutDamaged, Backend.ensureAdmitted_of_ticket hticket', hfb, hb', Bool.not_true,
    Bool.false_eq_true, if_false]
  show (d.invalidateElision.accountScanoutVram sp.width sp.height).presentCount + 1 = _
  rw [hacc.presentCount]

/-- The screen follows the driver: the retained image is the one scanned out last, and the last submission is
acknowledged. -/
structure Follows (m : Phase0) (shown : Option ScanoutBuffer) : Prop extends Probed m where
  retains : Screen.Retains ⟨m.dev.dev, shown⟩
  acknowledged : m.dev.dev.ringRetired 0 = m.idev.seqno

private theorem igpuRingSubmit_keeps (env : Env) (encoding : UInt32) (payload : List UInt8) (m : Phase0) :
    (m.igpuRingSubmit env encoding payload).2.idev = { m.idev with seqno := m.idev.seqno + 1 } ∧
      (m.igpuRingSubmit env encoding payload).2.ring = m.ring := by
  rw [igpuRingSubmit, ringDoorbell_eq]
  exact ⟨rfl, rfl⟩

/-- After a present that went through, the screen follows with the new image. -/
private theorem Follows.presented {m m' : Phase0} {shown last : Option ScanoutBuffer} (h : m.Follows shown)
    {encoding : UInt32} {payload : List UInt8} {b : ScanoutBuffer}
    (hp : Backend.Presented 0 (m.idev.seqno + 1) last b (m.staged encoding payload).pointed m'.dev.dev)
    (hlast : ∀ b' ∈ last, b' = b) (hsize : b.bgra.length = b.w * b.h * 4)
    (hidev : m'.idev = { m.idev with seqno := m.idev.seqno + 1 }) (hring : m'.ring = m.ring) :
    m'.Follows (some b) ∧ m'.dev.dev.frames = m.dev.dev.frames.map (· ++ [b.frame]) := by
  have hindex : m'.dev.dev.ringIndex 0 = 0 := by
    rw [hp.ringIndex]
    exact h.index
  refine ⟨⟨⟨hp.ticket h.ticket, hindex, ?_, ?_, ?_⟩, ⟨fun b' hb' => ?_, fun b' hb' => ?_⟩, ?_⟩, hp.frames⟩
  · rw [hp.dma]
    exact h.disjoint
  · rw [hidev]
    exact h.base
  · rw [hp.dma, hidev, hring]
    exact h.page
  · rw [hp.lastScanout] at hb'
    rw [hlast b' hb']
  · rw [hp.lastScanout] at hb'
    rw [hlast b' hb']
    exact hsize
  · rw [hp.ringRetired, hidev, Function.update_self]

/-- A framebuffer scanned out whole. -/
theorem scanned_full {shown : Option ScanoutBuffer} (h : m.Follows shown) (hf : m.Scannable fb) (env : Env) :
    (m.igpuSubmitScanout env fb).2.Follows (some (image fb m)) ∧
      (m.igpuSubmitScanout env fb).2.dev.dev.frames = m.dev.dev.frames.map (· ++ [(image fb m).frame]) := by
  obtain ⟨hidev, hring⟩ := igpuRingSubmit_keeps env Encoding.displayScanout (scanout fb).encode m
  have hdev := submitted_scanout h.toProbed env fb
  have hlen : (scanout fb).encode.length = 24 := (scanout fb).encode_length
  have hshows := hf.shows h.toProbed (d := (m.staged Encoding.displayScanout (scanout fb).encode).pointed) rfl
    (staged_outside _ (by omega) m)
  obtain ⟨total, p, htotal, hp, hapart⟩ := hf
  have hread : (m.staged Encoding.displayScanout (scanout fb).encode).pointed.dmaRead fb.addr total =
      some ((m.staged Encoding.displayScanout (scanout fb).encode).pointed.mem.load p total) := by
    rw [Backend.dmaRead, DmaTable.read]
    show (m.dev.dev.dma.resolve fb.addr total).map _ = _
    rw [hp]; rfl
  generalize hd : (m.staged Encoding.displayScanout (scanout fb).encode).pointed = d at hdev hshows hread
  have hticket : d.ticket.isSome := hd ▸ h.ticket
  have hthrough := presentScanout_through env (m.idev.seqno + 1) 0 hticket htotal hread
  rcases Backend.presentScanout_cases env (scanout fb)
    (m.idev.seqno + 1) 0 d with hq | ⟨total', buf, htotal', hbuf, hpres⟩
  · rw [hq.presentCount] at hthrough
    exact absurd hthrough.symm (Screen.succ_ne _)
  · have himage : (scanout fb).fullFrame buf = image fb m := by
      have hfull : d.fullFrame (scanout fb) = some ((scanout fb).fullFrame buf) := by
        rw [Backend.fullFrame, htotal', Option.bind_some, hbuf, Option.map_some]
      exact @Backend.fullFrame_eq _ ⟨scanout fb, 0, 0, 0, 0⟩ _ hshows _ hfull
    rw [himage, ← hdev, ← hd] at hpres
    exact h.presented hpres (fun _ hb' => by cases hb') (ScanoutPresent.toBgra_length _ _) hidev hring

/-- Where every part of the framebuffer can be read, so can what a damaged present needs. -/
private theorem readable {sp : ScanoutPresentDamaged} {total : Nat} (htotal : sp.fbBytes = some total)
    (hreads : ∀ i len, 0 < len → i + len ≤ sp.pitch.toNat * sp.h →
      (d.dmaRead (sp.scanoutAddr + UInt64.ofNat i) len).isSome) : ¬ d.Unreadable sp total := by
  obtain ⟨hpitch, hbytes⟩ := ScanoutPresent.fbBytes_eq_some htotal
  obtain ⟨-, -, hpos⟩ := fbBytes_bounds htotal
  rintro (⟨-, hnone⟩ | ⟨-, hdw, r, hr, hnone⟩)
  · have hwhole := hreads 0 total hpos (by omega)
    have hzero : sp.scanoutAddr + UInt64.ofNat 0 = sp.scanoutAddr := UInt64.add_zero _
    rw [hzero, hnone] at hwhole
    cases hwhole
  · have hrow := hreads _ _ (by omega) (sp.damaged_row_le hpitch hr)
    rw [← sp.rowAddr_eq, hnone] at hrow
    cases hrow

/-- A framebuffer scanned out by its damage, where that covers what differs from what is shown. -/
theorem scanned_damaged {shown : Option ScanoutBuffer} (h : m.Follows shown) (hf : m.Scannable fb) (env : Env)
    {dx dy dw dh : UInt32}
    (hcovers : ScanoutPresentDamaged.Covers ⟨scanout fb, dx, dy, dw, dh⟩ (m.dev.dev.framebuffer (scanout fb)) shown) :
    (m.igpuSubmitScanoutDamaged env fb dx dy dw dh).2.Follows (some (image fb m)) ∧
      (m.igpuSubmitScanoutDamaged env fb dx dy dw dh).2.dev.dev.frames =
        m.dev.dev.frames.map (· ++ [(image fb m).frame]) := by
  let sp : ScanoutPresentDamaged := ⟨scanout fb, dx, dy, dw, dh⟩
  let d := (m.staged Encoding.displayScanoutDamage sp.encode).pointed
  have hdev : (m.igpuSubmitScanoutDamaged env fb dx dy dw dh).2.dev.dev =
      d.presentScanoutDamaged env sp (m.idev.seqno + 1) 0 := submitted_damaged h.toProbed env fb dx dy dw dh
  have hlen : sp.encode.length = 40 := sp.encode_length
  obtain ⟨hidev, hring⟩ := igpuRingSubmit_keeps env Encoding.displayScanoutDamage sp.encode m
  have hshows : d.Shows sp.toScanoutPresent (m.dev.dev.framebuffer (scanout fb)) :=
    hf.shows h.toProbed rfl (staged_outside _ (by omega) m)
  have hretains : Screen.Retains ⟨d, shown⟩ := ⟨h.retains.shown, h.retains.size⟩
  obtain ⟨total, -, htotal, -, -⟩ := id hf
  have hreadable : ¬ d.Unreadable sp total :=
    readable htotal fun i len hpos hi => hf.reads (d := d) h.toProbed rfl hpos hi
  have hthrough := presentScanoutDamaged_through env (m.idev.seqno + 1) 0
    (show d.ticket.isSome from h.ticket) htotal hreadable
  rcases @Screen.Retains.damaged _ hretains env sp (m.idev.seqno + 1) 0 _ ⟨hshows, hcovers⟩ with hq | hpres
  · rw [hq.presentCount] at hthrough
    exact absurd hthrough.symm (Screen.succ_ne _)
  · have hpres' : Backend.Presented 0 (m.idev.seqno + 1) (some (image fb m)) (image fb m) d
        (m.igpuSubmitScanoutDamaged env fb dx dy dw dh).2.dev.dev := by
      rw [hdev]
      exact hpres
    exact h.presented hpres' (fun b' hb' => (Option.mem_some_iff.1 hb').symm) (ScanoutPresent.toBgra_length _ _) hidev
      hring

/-- A message of the cursor plane leaves the display alone. -/
private theorem Follows.cursor {shown : Option ScanoutBuffer} (h : m.Follows shown) (env : Env) (cu : CursorUpdate) :
    (m.igpuSubmitCursor env cu).2.Follows shown ∧
      (m.igpuSubmitCursor env cu).2.dev.dev.frames = m.dev.dev.frames := by
  obtain ⟨d, hq, hdev⟩ := submitted_cursor h.toProbed env cu
  have hidev : (m.igpuSubmitCursor env cu).2.idev = { m.idev with seqno := m.idev.seqno + 1 } := by
    rw [igpuSubmitCursor, ringDoorbell_eq]; rfl
  have hring : (m.igpuSubmitCursor env cu).2.ring = m.ring := by
    rw [igpuSubmitCursor, ringDoorbell_eq]; rfl
  have hlast : d.lastScanout = m.dev.dev.lastScanout := hq.lastScanout
  have hindex : d.ringIndex 0 = 0 := by
    rw [hq.ringIndex]
    exact h.index
  refine ⟨⟨⟨?_, ?_, ?_, ?_, ?_⟩, ⟨fun b hb => ?_, fun b hb => ?_⟩, ?_⟩, ?_⟩
  · rw [hdev]
    exact hq.ticket h.ticket
  · rw [hdev]
    exact hindex
  · rw [hdev]
    show d.dma.Disjoint
    rw [hq.dma]
    exact h.disjoint
  · rw [hidev]
    exact h.base
  · rw [hdev, hidev, hring]
    show d.dma.resolve _ _ = _
    rw [hq.dma]
    exact h.page
  · rw [hdev] at hb
    exact h.retains.shown b (hlast ▸ hb)
  · rw [hdev] at hb
    exact h.retains.size b (hlast ▸ hb)
  · rw [hdev, hidev]
    show Function.update d.ringRetired 0 (m.idev.seqno + 1) 0 = _
    rw [Function.update_self]
  · rw [hdev]
    exact hq.frames

/-! ### Commits -/

/-- The pixel `(x, y)` of the framebuffer is not what is shown there. -/
def Stale (m : Phase0) (shown : Option ScanoutBuffer) (fb : Framebuffer) (x y : Nat) : Prop :=
  ∀ b ∈ shown, b.w = (scanout fb).w → b.h = (scanout fb).h →
    ∃ k < 4, b.bgra[(y * (scanout fb).w + x) * 4 + k]? ≠
      some ((scanout fb).bgraAt (m.dev.dev.framebuffer (scanout fb)) x y k)

instance (m : Phase0) (shown : Option ScanoutBuffer) (fb : Framebuffer) (x y : Nat) :
    Decidable (m.Stale shown fb x y) := by
  unfold Stale; infer_instance

/-- The damage that the display helpers have merged: nothing outside it is stale. -/
def Reports (m : Phase0) (shown : Option ScanoutBuffer) (fb : Framebuffer) (r : DrmRect) : Prop :=
  ∀ x < (scanout fb).w, ∀ y < (scanout fb).h, m.Stale shown fb x y → r.Contains x y

instance (m : Phase0) (shown : Option ScanoutBuffer) (fb : Framebuffer) (r : DrmRect) :
    Decidable (m.Reports shown fb r) := by
  unfold Reports; infer_instance

variable {shown : Option ScanoutBuffer} {r : DrmRect}

/-- Where no pixel is stale, the image is shown already. -/
private theorem shows_image (hf : m.Scannable fb) (hsize : ∀ b ∈ shown, b.bgra.length = b.w * b.h * 4)
    (hfresh : ∀ x < (scanout fb).w, ∀ y < (scanout fb).h, ¬ m.Stale shown fb x y) : shown = some (image fb m) := by
  obtain ⟨total, p, htotal, -, -⟩ := hf
  have hpositive := fbBytes_nonempty htotal
  have hpixel : ∀ x < (scanout fb).w, ∀ y < (scanout fb).h, ∃ b ∈ shown, b.w = (scanout fb).w ∧ b.h = (scanout fb).h ∧
      ∀ k < 4, b.bgra[(y * (scanout fb).w + x) * 4 + k]? =
        some ((scanout fb).bgraAt (m.dev.dev.framebuffer (scanout fb)) x y k) := by
    intro x hx y hy
    have hnot := hfresh x hx y hy
    unfold Stale at hnot
    push Not at hnot
    exact hnot
  obtain ⟨b, hb, hw, hh, -⟩ := hpixel 0 hpositive.1 0 hpositive.2
  have hbgra : b.bgra = (scanout fb).toBgra (m.dev.dev.framebuffer (scanout fb)) := by
    refine ScanoutPresent.eq_toBgra (by rw [hsize b hb, hw, hh]) fun x hx y hy => ?_
    obtain ⟨b', hb', -, -, hbytes⟩ := hpixel x hx y hy
    rw [Option.mem_unique hb hb']
    exact hbytes
  rw [Option.mem_def.1 hb, image, ← hw, ← hh, ← hbgra]

/-- The merged damage, clamped, covers what differs from what is shown; where nothing of it is left, nothing does. -/
private theorem Reports.clamped (hf : m.Scannable fb) (h : m.Reports shown fb r) :
    (∃ c, clampRect fb r = some c ∧ ScanoutPresentDamaged.Covers
      ⟨scanout fb, c.x1.toUInt32, c.y1.toUInt32, (c.x2 - c.x1).toUInt32, (c.y2 - c.y1).toUInt32⟩
        (m.dev.dev.framebuffer (scanout fb)) shown) ∨
      clampRect fb r = none ∧ ∀ x < (scanout fb).w, ∀ y < (scanout fb).h, ¬ m.Stale shown fb x y := by
  obtain ⟨hw, hh⟩ := hf.bounds
  cases hc : clampRect fb r with
  | none =>
    refine .inr ⟨rfl, fun x hx y hy hstale => ?_⟩
    obtain ⟨c, hc', -⟩ := contains_clamped hw hh hx hy (h x hx y hy hstale)
    rw [hc] at hc'
    cases hc'
  | some c =>
    refine .inl ⟨c, rfl, fun b hb hbw hbh x hx y hy hdiffers => ?_⟩
    have hstale : m.Stale shown fb x y := by
      intro b' hb' _ _
      rw [Option.mem_unique hb' hb]
      exact hdiffers
    obtain ⟨c', hc', hcontains⟩ := contains_clamped hw hh hx hy (h x hx y hy hstale)
    rw [hc, Option.some_inj] at hc'
    rw [hc']
    exact hcontains

end Phase0

/-- What the guest does to the display, and what the other devices of the host do to the broker that they share. -/
inductive Commit where
  | draws (f : Memory → Memory)
  | shared (f : Ledger → Ledger)
  | enable (env : Env) (fb : Option Framebuffer)
  | update (env : Env) (fb : Option Framebuffer) (damage : Option DrmRect)
  | cursor (env : Env) (plane : Option CursorPlane)

namespace Commit

/-- The framebuffer on the primary plane. -/
def plane : Commit → Option Framebuffer
  | .enable _ fb => fb
  | .update _ fb _ => fb
  | _ => none

end Commit

namespace Phase0

def act (m : Phase0) : Commit → Phase0
  | .draws f => { m with dev := { m.dev with dev := { m.dev.dev with mem := f m.dev.dev.mem } } }
  | .shared f => { m with dev := { m.dev with dev := { m.dev.dev with broker := f m.dev.dev.broker } } }
  | .enable env fb => m.igpuFlush env fb
  | .update env fb damage => m.igpuPrimaryUpdate env fb damage
  | .cursor env plane => m.igpuCursorUpdatePlane env plane

/-- The damage of an update leaves something of the framebuffer to scan out. -/
def Damages (m : Phase0) (fb : Framebuffer) (damage : Option DrmRect) : Prop :=
  m.idev.accel2d = true → ∀ r ∈ damage, (clampRect fb r).isSome

instance (m : Phase0) (fb : Framebuffer) (damage : Option DrmRect) : Decidable (m.Damages fb damage) := by
  unfold Damages; infer_instance

/-- The images that a commit hands to the streamer. -/
def scans (m : Phase0) : Commit → List ScanoutBuffer
  | .enable _ (some fb) => [image fb m]
  | .update _ (some fb) damage => if m.Damages fb damage then [image fb m] else []
  | _ => []

/-- The images of a run. -/
def scanned (m : Phase0) : List Commit → List ScanoutBuffer
  | [] => []
  | c :: cs => m.scans c ++ (m.act c).scanned cs

end Phase0

/-- The machine, and the image of the primary plane. -/
structure Panel where
  machine : Phase0
  shown : Option ScanoutBuffer

namespace Panel

def next (p : Panel) (c : Commit) : Option Panel :=
  some { machine := p.machine.act c, shown := (c.plane.map (Phase0.image · p.machine)).or p.shown }

/-- What the display helpers promise of a commit: the framebuffer has been accepted and stays pinned, and its damage
is reported. -/
def Contracts (p : Panel) : Commit → Prop
  | .enable _ fb => ∀ f ∈ fb, p.machine.Scannable f
  | .update _ fb damage => ∀ f ∈ fb, p.machine.Scannable f ∧ ∀ r ∈ damage, p.machine.Reports p.shown f r
  | _ => True

/-- The screen follows the driver, and what the streamer has got last is the image of the plane. -/
structure Follows (p : Panel) : Prop where
  machine : p.machine.Follows p.shown
  size : ∀ b ∈ p.shown, b.bgra.length = b.w * b.h * 4
  streamed : ∀ fs ∈ p.machine.dev.dev.frames, ∀ b ∈ p.shown, fs.getLast? = some b.frame

variable {p p' : Panel}

/-- A commit that has the image of `fb` scanned out. -/
private theorem Follows.of_scanned {fb : Framebuffer}
    (hmachine : p'.machine.Follows (some (Phase0.image fb p.machine)))
    (hframes : p'.machine.dev.dev.frames = p.machine.dev.dev.frames.map (· ++ [(Phase0.image fb p.machine).frame]))
    (hshown : p'.shown = some (Phase0.image fb p.machine)) : p'.Follows := by
  refine ⟨hshown ▸ hmachine, fun b hb => ?_, fun fs hfs b hb => ?_⟩
  · rw [hshown, Option.mem_some_iff] at hb
    rw [← hb]
    exact ScanoutPresent.toBgra_length _ _
  · rw [hshown, Option.mem_some_iff] at hb
    rw [hframes, Option.mem_def, Option.map_eq_some_iff] at hfs
    obtain ⟨before, -, rfl⟩ := hfs
    rw [← hb, List.getLast?_concat]

/-- A commit that hands nothing to the streamer. -/
private theorem Follows.of_kept (h : p.Follows) (hmachine : p'.machine.Follows p.shown)
    (hframes : p'.machine.dev.dev.frames = p.machine.dev.dev.frames) (hshown : p'.shown = p.shown) : p'.Follows := by
  refine ⟨hshown ▸ hmachine, fun b hb => h.size b (hshown ▸ hb), fun fs hfs b hb => ?_⟩
  rw [hframes] at hfs
  rw [hshown] at hb
  exact h.streamed fs hfs b hb

private theorem kept_frames (fs : Option (List (List UInt8 × UInt32 × UInt32))) : fs = fs.map (· ++ []) := by
  cases fs with
  | none => rfl
  | some fs => rw [Option.map_some, List.append_nil]

/-- What one commit does to what is handed to the streamer. -/
def Hands (p p' : Panel) (images : List ScanoutBuffer) : Prop :=
  p'.Follows ∧ p'.machine.dev.dev.frames = p.machine.dev.dev.frames.map (· ++ images.map ScanoutBuffer.frame)

private theorem Follows.enable (h : p.Follows) {env : Env} {fb : Framebuffer} (hf : p.machine.Scannable fb)
    (hmachine : p'.machine = (p.machine.igpuSubmitScanout env fb).2)
    (hshown : p'.shown = some (Phase0.image fb p.machine)) : Hands p p' [Phase0.image fb p.machine] := by
  obtain ⟨hfollows, hframes⟩ := Phase0.scanned_full h.machine hf env
  rw [← hmachine] at hfollows hframes
  exact ⟨.of_scanned hfollows hframes hshown, hframes⟩

private theorem Follows.update (h : p.Follows) {env : Env} {fb : Framebuffer} {damage : Option DrmRect}
    (hf : p.machine.Scannable fb) (hreports : ∀ r ∈ damage, p.machine.Reports p.shown fb r)
    (hmachine : p'.machine = p.machine.igpuPrimaryUpdate env (some fb) damage)
    (hshown : p'.shown = some (Phase0.image fb p.machine)) :
    Hands p p' (p.machine.scans (.update env (some fb) damage)) := by
  by_cases hfull : p.machine.idev.accel2d = true ∧ damage ≠ none
  · obtain ⟨haccel, hsome⟩ := hfull
    obtain ⟨r, rfl⟩ := Option.ne_none_iff_exists'.1 hsome
    rw [Phase0.igpuPrimaryUpdate, if_pos haccel, Phase0.igpuFlushDamaged] at hmachine
    rcases (hreports r rfl).clamped hf with ⟨c, hc, hcovers⟩ | ⟨hnone, hfresh⟩
    · have hdamages : p.machine.Damages fb (some r) := by
        intro _ r' hr'
        rw [← Option.mem_some_iff.1 hr', hc]
        rfl
      obtain ⟨hfollows, hframes⟩ := Phase0.scanned_damaged h.machine hf env hcovers
      simp only [hc] at hmachine
      rw [← hmachine] at hfollows hframes
      rw [Phase0.scans, if_pos hdamages]
      exact ⟨.of_scanned hfollows hframes hshown, hframes⟩
    · -- nothing is sent, and nothing has changed
      have hdamages : ¬ p.machine.Damages fb (some r) := by
        intro hd
        have hsome := hd haccel r rfl
        rw [hnone] at hsome
        cases hsome
      have hsame : p'.shown = p.shown := by rw [hshown, Phase0.shows_image hf h.size hfresh]
      simp only [hnone] at hmachine
      rw [Phase0.scans, if_neg hdamages]
      refine ⟨h.of_kept (by rw [hmachine]; exact h.machine) (by rw [hmachine]) hsame, ?_⟩
      rw [hmachine]
      exact kept_frames _
  · have hwhole : p.machine.igpuPrimaryUpdate env (some fb) damage = (p.machine.igpuSubmitScanout env fb).2 := by
      rw [Phase0.igpuPrimaryUpdate]
      split
      · rename_i haccel
        rw [not_and_not_right] at hfull
        rw [hfull haccel]
        rfl
      · rfl
    have hdamages : p.machine.Damages fb damage := by
      intro haccel r hr
      rw [not_and_not_right] at hfull
      rw [hfull haccel] at hr
      cases hr
    rw [Phase0.scans, if_pos hdamages]
    exact h.enable hf (hmachine.trans hwhole) hshown

/-- A message of the cursor plane, with the driver's own notes of the cursor in any state. -/
private theorem Follows.cursor (h : p.Follows) {env : Env} {cu : CursorUpdate} {m : Phase0} {hadFb : Bool}
    {x y : Int32} (hm : m = { p.machine with idev := { p.machine.idev with
      cursorHadFb := hadFb, cursorLastX := x, cursorLastY := y } })
    (hmachine : p'.machine = (m.igpuSubmitCursor env cu).2) (hshown : p'.shown = p.shown) : Hands p p' [] := by
  subst hm
  have hnoted : Phase0.Follows { p.machine with idev := { p.machine.idev with
      cursorHadFb := hadFb, cursorLastX := x, cursorLastY := y } } p.shown :=
    ⟨⟨h.machine.ticket, h.machine.index, h.machine.disjoint, h.machine.base, h.machine.page⟩, h.machine.retains,
      h.machine.acknowledged⟩
  obtain ⟨hfollows, hframes⟩ := hnoted.cursor env cu
  rw [← hmachine] at hfollows hframes
  exact ⟨h.of_kept hfollows hframes hshown, hframes.trans (kept_frames _)⟩

private theorem Follows.next {c : Commit} (h : p.Follows) (hc : p.Contracts c) (hnext : p.next c = some p') :
    Hands p p' (p.machine.scans c) := by
  rw [Panel.next, Option.some_inj] at hnext
  subst hnext
  cases c with
  | draws f =>
    exact ⟨h.of_kept ⟨⟨h.machine.ticket, h.machine.index, h.machine.disjoint, h.machine.base, h.machine.page⟩,
      ⟨h.machine.retains.shown, h.machine.retains.size⟩, h.machine.acknowledged⟩ rfl rfl, kept_frames _⟩
  | shared f =>
    exact ⟨h.of_kept ⟨⟨h.machine.ticket, h.machine.index, h.machine.disjoint, h.machine.base, h.machine.page⟩,
      ⟨h.machine.retains.shown, h.machine.retains.size⟩, h.machine.acknowledged⟩ rfl rfl, kept_frames _⟩
  | enable env fb =>
    cases fb with
    | none => exact ⟨h.of_kept h.machine rfl rfl, kept_frames _⟩
    | some fb => exact h.enable (hc fb rfl) rfl rfl
  | update env fb damage =>
    cases fb with
    | none =>
      have hmachine : p.machine.igpuPrimaryUpdate env none damage = p.machine := by
        rw [Phase0.igpuPrimaryUpdate]
        split
        · rfl
        · rfl
      refine ⟨h.of_kept (by rw [Phase0.act, hmachine]; exact h.machine) ?_ rfl, ?_⟩
      · rw [Phase0.act, hmachine]
      · rw [Phase0.act, hmachine]
        exact kept_frames _
    | some fb => exact h.update (hc fb rfl).1 (hc fb rfl).2 rfl rfl
  | cursor env plane =>
    cases plane with
    | none =>
      exact h.cursor (m := { p.machine with idev := { p.machine.idev with cursorHadFb := false } }) rfl rfl rfl
    | some plane => exact h.cursor rfl rfl rfl

/-- Along a run of commits the streamer gets the images of the plane, each as the framebuffer was when it was
committed, one after another; every submission is acknowledged, and the streamer has got the image of the plane
last. -/
theorem commits_shown {p p' : Panel} {cs : List Commit} (h : p.Follows) (hcs : Lts.Along next Contracts p cs)
    (hrun : Lts.run next p cs = some p') :
    p'.machine.dev.dev.ringRetired 0 = p'.machine.idev.seqno ∧
      p'.machine.dev.dev.frames =
        p.machine.dev.dev.frames.map (· ++ (p.machine.scanned cs).map ScanoutBuffer.frame) ∧
      ∀ fs ∈ p'.machine.dev.dev.frames, ∀ b ∈ p'.shown, fs.getLast? = some b.frame := by
  have hhands : Hands p p' (p.machine.scanned cs) := by
    induction cs generalizing p with
    | nil =>
      cases hrun
      exact ⟨h, kept_frames _⟩
    | cons c cs ih =>
      rw [Lts.run_cons] at hrun
      obtain ⟨q, hq, hrest⟩ := Option.bind_eq_some_iff.1 hrun
      obtain ⟨hfollows, hframes⟩ := h.next hcs.1 hq
      obtain ⟨hfollows', hframes'⟩ := ih hfollows (hcs.2 q hq) hrest
      have hmachine : q.machine = p.machine.act c := by
        rw [Panel.next, Option.some_inj] at hq
        rw [← hq]
      refine ⟨hfollows', ?_⟩
      rw [hframes', hframes, hmachine, Option.map_map, Phase0.scanned, List.map_append]
      refine congrFun (congrArg Option.map (funext fun fs => ?_)) _
      exact List.append_assoc _ _ _
  exact ⟨hhands.1.machine.acknowledged, hhands.2, hhands.1.streamed⟩

/-- The page of the ring and a framebuffer of two pixels behind it. -/
def twoPixelMachine (mem : Memory) : Phase0 where
  idev :=
    { ringDma := 0x1000
      seqno := 0
      accel2d := true
      cursorHadFb := true
      cursorLastX := 3
      cursorLastY := 4 }
  dev :=
    { dev := { Backend.withBroker .default .new (.new "vm" 1 4096) mem with
        dma := DmaTable.new.map 0x1000 0x2000 0
        ticket := some ⟨"vm", false⟩
        pixel := some ⟨[], []⟩ }
      irqMask := 0
      dbgDmaAddr := 0
      cursorPlaneEnabled := true
      raised := [] }
  ring := 0

def twoPixelFb : Framebuffer where
  addr := 0x2000
  width := 2
  height := 1
  pitch := 8

/-- The plane is enabled, its second pixel drawn and committed, and the cursor hidden. -/
def secondPixel : List Commit :=
  [.enable .idle (some twoPixelFb), .draws fun m => m.store 0x1004 [0x77, 0x88, 0x99, 0],
    .update .idle (some twoPixelFb) (some ⟨1, -3, 9, 1⟩), .cursor .idle none]

/-- The screen after the commits, none of which can fail. -/
def after (p : Panel) (cs : List Commit) : Panel := cs.foldl (fun p c => (p.next c).getD p) p

theorem commits_shown_secondPixel :
    let p : Panel := ⟨twoPixelMachine fun _ => 1, none⟩
    ∃ p', Lts.run next p secondPixel = some p' ∧ p'.machine.dev.dev.ringRetired 0 = 3 ∧
      p'.machine.dev.dev.frames =
        some [([1, 1, 1, 255, 1, 1, 1, 255], 2, 1), ([1, 1, 1, 255, 0x77, 0x88, 0x99, 255], 2, 1)] := by
  intro p
  have hscannable : ∀ m : Phase0, m.dev.dev.dma.resolve 0x2000 8 = some 0x1000 → m.ring = 0 →
      m.Scannable twoPixelFb := fun m hresolve hring =>
    ⟨8, 0x1000, by decide, hresolve, .inr (by rw [hring])⟩
  have hfollows : p.Follows := by
    refine ⟨⟨⟨rfl, rfl, ?_, by decide, by decide⟩, ⟨nofun, nofun⟩, rfl⟩, nofun, fun _ _ _ hb => nomatch hb⟩
    show (DmaTable.new.map 0x1000 0x2000 0).Disjoint
    decide
  have hcontracts : Lts.Along next Contracts p secondPixel := by
    refine ⟨fun f hf => ?_, fun q hq => ⟨trivial,
      fun q' hq' => ⟨fun f hf => ?_, fun _ _ => ⟨trivial, fun _ _ => trivial⟩⟩⟩⟩
    · obtain rfl := Option.mem_some_iff.1 hf
      exact hscannable _ (by decide) rfl
    · obtain rfl := Option.mem_some_iff.1 hf
      obtain rfl := Option.some_inj.1 hq
      obtain rfl := Option.some_inj.1 hq'
      refine ⟨hscannable _ (by decide +kernel) (by decide +kernel), fun r hr => ?_⟩
      obtain rfl := Option.mem_some_iff.1 hr
      decide +kernel
  have hrun : Lts.run next p secondPixel = some (after p secondPixel) := rfl
  obtain ⟨hretired, hframes, -⟩ := commits_shown hfollows hcontracts hrun
  refine ⟨after p secondPixel, hrun, hretired.trans (by decide +kernel), hframes.trans (by decide +kernel)⟩

end Panel

end Infinigpu.Kmd
