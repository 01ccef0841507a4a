import Infinigpu.Device.Damage
import Infinigpu.Device.Table

/-!
# What a flush reads (`infinigpu-device`, `present_resource_flush`)

A flush copies blocks of guest memory: the whole frame of the scanout binding, or the damaged part of its rows.
`flushReads` lists them, and nothing else of guest memory has a part in the outcome (`presentResourceFlush_local`).
They start where the backing of the resource starts, but their extent is taken from the binding, whose stride and
height no operation compares with the backing: the reads stay inside the backing exactly if `FlushFits` holds
(`flush_contained_iff`), which a frame that fits into the resource ensures (`flush_contained_of_covered`).
-/

namespace Infinigpu

namespace Backend

variable (env : Env)

/-! ### The blocks that are read -/

/-- The block of `len` bytes at `addr`, if it can be read. -/
def blockRead (addr : UInt64) (len : Nat) (d : Backend) : List (UInt64 × Nat) :=
  if (d.dmaRead addr len).isSome then [(addr, len)] else []

/-- What is read of the first `n` damaged rows: the reads stop at the first row that is not mapped. -/
def rowReads (sp : ScanoutPresentDamaged) (d : Backend) : Nat → List (UInt64 × Nat)
  | 0 => []
  | n + 1 =>
    match d.readRows sp n with
    | none => d.rowReads sp n
    | some _ => d.rowReads sp n ++ d.blockRead (sp.rowAddr n) (sp.damage.dw * 4)

/-- What `damagedSurface` reads. -/
def surfaceReads (sp : ScanoutPresentDamaged) (fbBytes : Nat) (d : Backend) : List (UInt64 × Nat) :=
  let dmg := sp.damage
  let fullDamage := dmg.dx = 0 ∧ dmg.dy = 0 ∧ dmg.dw = sp.w ∧ dmg.dh = sp.h
  match d.matchingScanout sp.w sp.h with
  | none => d.blockRead sp.scanoutAddr fbBytes
  | some _ =>
    if fullDamage then
      d.blockRead sp.scanoutAddr fbBytes
    else if dmg.dw > 0 ∧ dmg.dh > 0 then
      d.rowReads sp dmg.dh
    else
      []

/-- What `presentScanoutDamaged` reads. -/
def presentReads (sp : ScanoutPresentDamaged) (d : Backend) : List (UInt64 × Nat) :=
  let d := d.invalidateElision
  let (admitted, d) := d.ensureAdmitted env
  if !admitted then
    []
  else
    match sp.fbBytes with
    | none => []
    | some fbBytes => (d.accountScanoutVram sp.width sp.height).surfaceReads sp fbBytes

/-- What `presentResourceFlush` reads. -/
def flushReads (resId : UInt32) (rect : Rect) (d : Backend) : List (UInt64 × Nat) :=
  let d := d.invalidateElision
  match d.flushPresent resId rect with
  | none => []
  | some sp => d.presentReads env sp

/-! ### Nothing else is read -/

variable {env} {d : Backend} {m : Memory} {sp : ScanoutPresentDamaged}

/-- The device with another guest memory. -/
def withMem (m : Memory) (d : Backend) : Backend := { d with mem := m }

/-- The blocks hold the same bytes in the memory `m`. -/
def SameBlocks (m : Memory) (blocks : List (UInt64 × Nat)) (d : Backend) : Prop :=
  ∀ blk ∈ blocks, (d.withMem m).dmaRead blk.1 blk.2 = d.dmaRead blk.1 blk.2

private theorem dmaRead_withMem_isNone (m : Memory) (addr : UInt64) (len : Nat) (d : Backend) :
    ((d.withMem m).dmaRead addr len).isNone = (d.dmaRead addr len).isNone := by
  rw [dmaRead, dmaRead, DmaTable.read, DmaTable.read, Option.isNone_map, Option.isNone_map]
  rfl

/-- A block that cannot be read cannot be read in another memory either, and one that can is among the reads. -/
private theorem SameBlocks.dmaRead {addr : UInt64} {len : Nat} (h : d.SameBlocks m (d.blockRead addr len)) :
    (d.withMem m).dmaRead addr len = d.dmaRead addr len := by
  cases hread : d.dmaRead addr len with
  | none =>
    have hnone := dmaRead_withMem_isNone m addr len d
    rw [hread] at hnone
    exact Option.isNone_iff_eq_none.1 hnone
  | some bs =>
    rw [← hread]
    refine h (addr, len) ?_
    rw [blockRead, hread]
    exact List.mem_singleton_self _

private theorem SameBlocks.readRows {n : Nat} (h : d.SameBlocks m (d.rowReads sp n)) :
    (d.withMem m).readRows sp n = d.readRows sp n := by
  induction n with
  | zero => rfl
  | succ n ih =>
    rw [rowReads] at h
    cases hrows : d.readRows sp n with
    | none =>
      rw [hrows] at h
      simp only [Backend.readRows, ih h, hrows]
    | some rows =>
      rw [hrows] at h
      have hbefore : d.SameBlocks m (d.rowReads sp n) := fun blk hblk => h blk (List.mem_append_left _ hblk)
      have hrow : d.SameBlocks m (d.blockRead (sp.rowAddr n) (sp.damage.dw * 4)) :=
        fun blk hblk => h blk (List.mem_append_right _ hblk)
      simp only [Backend.readRows, ih hbefore, hrows, hrow.dmaRead]

theorem SameBlocks.damagedSurface {fbBytes : Nat} (h : d.SameBlocks m (d.surfaceReads sp fbBytes)) :
    (d.withMem m).damagedSurface sp fbBytes = d.damagedSurface sp fbBytes := by
  have hmatch : (d.withMem m).matchingScanout sp.w sp.h = d.matchingScanout sp.w sp.h := rfl
  simp only [surfaceReads] at h
  simp only [Backend.damagedSurface, hmatch]
  cases hb : d.matchingScanout sp.w sp.h with
  | none =>
    simp only [hb] at h
    simp only [h.dmaRead]
  | some b =>
    simp only [hb] at h
    simp only
    by_cases hfull : sp.damage.dx = 0 ∧ sp.damage.dy = 0 ∧ sp.damage.dw = sp.w ∧ sp.damage.dh = sp.h
    · rw [if_pos hfull] at h
      rw [if_pos hfull, if_pos hfull, h.dmaRead]
    · rw [if_neg hfull] at h
      rw [if_neg hfull, if_neg hfull]
      by_cases hpos : sp.damage.dw > 0 ∧ sp.damage.dh > 0
      · rw [if_pos hpos] at h
        rw [if_pos hpos, if_pos hpos, h.readRows]
      · rw [if_neg hpos, if_neg hpos]

private theorem ensureAdmitted_withMem (env : Env) (m : Memory) (d : Backend) :
    (d.withMem m).ensureAdmitted env = ((d.ensureAdmitted env).1, (d.ensureAdmitted env).2.withMem m) := by
  by_cases hticket : d.ticket.isSome
  · simp only [ensureAdmitted, withMem, hticket, if_true]
  by_cases hdenied : d.admissionDenied
  · simp only [ensureAdmitted, withMem, hticket, hdenied, Bool.false_eq_true, if_false, if_true]
  simp only [ensureAdmitted, withMem, hticket, hdenied, Bool.false_eq_true, if_false]
  cases d.broker.admitVm d.brokerConfig d.vmConfig
      (if d.pixel.isSome then .streaming VRAM_ESTIMATE_MB else .vram VRAM_ESTIMATE_MB) (env.clock d.calls) with
  | mk r broker =>
    cases r with
    | ok t => rfl
    | error e => rfl

private theorem accountScanoutVram_withMem (w h : UInt32) (m : Memory) (d : Backend) :
    (d.withMem m).accountScanoutVram w h = (d.accountScanoutVram w h).withMem m := by
  by_cases hdims : d.scanoutVramDims = some (w, h)
  · simp only [accountScanoutVram, withMem, hdims, if_true]
  simp only [accountScanoutVram, withMem, hdims, if_false]
  cases d.ticket with
  | none => rfl
  | some t => rfl

private theorem presentScanoutDamaged_local (seqno : UInt64) (ctx : Fin NUM_CONTEXTS)
    (h : d.SameBlocks m (d.presentReads env sp)) :
    (d.withMem m).presentScanoutDamaged env sp seqno ctx = (d.presentScanoutDamaged env sp seqno ctx).withMem m := by
  have hquiet := (invalidateElision_quiet d).trans (ensureAdmitted_quiet env _)
  have hstart : (d.withMem m).invalidateElision = d.invalidateElision.withMem m := rfl
  simp only [presentReads] at h
  simp only [presentScanoutDamaged, hstart, ensureAdmitted_withMem]
  cases hadm : (d.invalidateElision.ensureAdmitted env).1 with
  | false => rfl
  | true =>
    rw [hadm] at h
    cases hfb : sp.fbBytes with
    | none => rfl
    | some fbBytes =>
      simp only [hfb, Bool.not_true] at h
      have hblocks : ((d.invalidateElision.ensureAdmitted env).2.accountScanoutVram sp.width sp.height).SameBlocks m
          (((d.invalidateElision.ensureAdmitted env).2.accountScanoutVram sp.width sp.height).surfaceReads
            sp fbBytes) := by
        have hq := hquiet.trans (accountScanoutVram_quiet sp.width sp.height _)
        intro blk hblk
        have hsame := h blk hblk
        rw [hq.dmaRead, ← hsame, dmaRead, dmaRead]
        simp only [withMem, hq.dma]
      simp only [Bool.not_true, accountScanoutVram_withMem, hblocks.damagedSurface]
      cases hb : ((d.invalidateElision.ensureAdmitted env).2.accountScanoutVram sp.width sp.height).damagedSurface
          sp fbBytes with
      | none => rfl
      | some b => rfl

/-- The outcome of a flush depends on guest memory only through the blocks it reads. -/
theorem presentResourceFlush_local {resId : UInt32} {rect : Rect} (seqno : UInt64) (ctx : Fin NUM_CONTEXTS)
    (h : d.SameBlocks m (d.flushReads env resId rect)) :
    (d.withMem m).presentResourceFlush env resId rect seqno ctx =
      (d.presentResourceFlush env resId rect seqno ctx).withMem m := by
  have hpresent : (d.withMem m).invalidateElision.flushPresent resId rect =
      d.invalidateElision.flushPresent resId rect := rfl
  simp only [flushReads] at h
  simp only [presentResourceFlush, hpresent]
  cases hsp : d.invalidateElision.flushPresent resId rect with
  | none => rfl
  | some sp =>
    rw [hsp] at h
    exact presentScanoutDamaged_local seqno ctx (d := d.invalidateElision) h

/-! ### Inside the backing -/

variable (env) in
/-- Every byte that a flush reads lies inside a segment of the backing of the resource. -/
def FlushContained (resId : UInt32) (rect : Rect) (d : Backend) : Prop :=
  ∀ a, (∃ blk ∈ d.flushReads env resId rect, blk.1.toNat ≤ a ∧ a < blk.1.toNat + blk.2) →
    ∃ r, d.resources.get resId = some r ∧ ∃ seg ∈ r.backing, seg.addr.toNat ≤ a ∧ a < seg.addr.toNat + seg.len.toNat

/-- The offset in the framebuffer at which the damaged part of row `dy + r` starts. -/
def rowOffset (sp : ScanoutPresentDamaged) (r : Nat) : Nat := (sp.damage.dy + r) * sp.pitch.toNat + sp.damage.dx * 4

/-- The damaged part of each row is mapped, up to row `dy + r`. -/
def RowsMapped (sp : ScanoutPresentDamaged) (r : Nat) (d : Backend) : Prop :=
  ∀ r' ≤ r, (d.dmaRead (sp.rowAddr r') (sp.damage.dw * 4)).isSome

/-- What is read of the framebuffer fits into `len` bytes: all of it, where it has to be read as a whole and is
mapped, else the damaged part of each row that is reached; and no address of a row wraps around. -/
def FrameFits (sp : ScanoutPresentDamaged) (fbBytes len : Nat) (d : Backend) : Prop :=
  (d.NeedFull sp → (d.dmaRead sp.scanoutAddr fbBytes).isSome → fbBytes ≤ len) ∧
    (¬ d.NeedFull sp → 0 < sp.damage.dw → ∀ r < sp.damage.dh, d.RowsMapped sp r →
      sp.scanoutAddr.toNat + rowOffset sp r < 2 ^ 64 ∧ rowOffset sp r + sp.damage.dw * 4 ≤ len)

variable (env) in
/-- What a flush reads fits into the backing, if the VM is admitted, the frame is accepted and the backing is one
segment. -/
def FlushFits (resId : UInt32) (rect : Rect) (d : Backend) : Prop :=
  ∀ sp seg r fbBytes, d.flushPresent resId rect = some sp → (d.invalidateElision.ensureAdmitted env).1 = true →
    sp.fbBytes = some fbBytes → d.resources.get resId = some r → r.backing = [seg] →
      d.FrameFits sp fbBytes seg.len.toNat

/-- A present that stands for a flush starts at the segment that backs the resource. -/
private theorem flushPresent_cases {resId : UInt32} {rect : Rect} (h : d.flushPresent resId rect = some sp) :
    ∃ sid b r seg, d.resources.scanoutBindingFor resId = some (sid, b) ∧ d.resources.get resId = some r ∧
      r.backing = [seg] ∧ sp.scanoutAddr = seg.addr ∧ sp.pitch = b.stride ∧ sp.height = b.height := by
  unfold flushPresent at h
  cases hb : d.resources.scanoutBindingFor resId with
  | none =>
    rw [hb] at h
    cases h
  | some b =>
    cases hr : d.resources.get resId with
    | none =>
      simp only [hb, hr] at h
      cases h
    | some r =>
      cases hbacking : r.backing with
      | nil =>
        simp only [hb, hr, hbacking] at h
        cases h
      | cons seg rest =>
        cases rest with
        | nil =>
          simp only [hb, hr, hbacking, Option.some_inj] at h
          subst h
          exact ⟨b.1, b.2, r, seg, rfl, rfl, hbacking, rfl, rfl, rfl⟩
        | cons seg' rest =>
          simp only [hb, hr, hbacking] at h
          cases h

private theorem mem_blockRead {addr : UInt64} {len : Nat} {blk : UInt64 × Nat} :
    blk ∈ d.blockRead addr len ↔ blk = (addr, len) ∧ (d.dmaRead addr len).isSome := by
  rw [blockRead]
  by_cases h : (d.dmaRead addr len).isSome
  · rw [if_pos h, List.mem_singleton, and_iff_left h]
  · rw [if_neg h]
    exact iff_of_false List.not_mem_nil fun hblk => h hblk.2

/-- The rows that are read are those before the first one that is not mapped. -/
private theorem mem_rowReads {n : Nat} {blk : UInt64 × Nat} :
    blk ∈ d.rowReads sp n ↔ ∃ r < n, d.RowsMapped sp r ∧ blk = (sp.rowAddr r, sp.damage.dw * 4) := by
  induction n with
  | zero => exact iff_of_false List.not_mem_nil fun ⟨r, hr, _⟩ => absurd hr (Nat.not_lt_zero r)
  | succ n ih =>
    rw [rowReads]
    cases hrows : d.readRows sp n with
    | none =>
      -- an earlier row is not mapped, so row `n` is not reached
      obtain ⟨r₀, hr₀, hnone⟩ := readRows_eq_none_iff.1 hrows
      simp only [ih]
      constructor
      · rintro ⟨r, hr, h⟩
        exact ⟨r, Nat.lt_succ_of_lt hr, h⟩
      · rintro ⟨r, hr, hmapped, hblk⟩
        refine ⟨r, ?_, hmapped, hblk⟩
        by_contra hge
        have hsome := hmapped r₀ (by omega)
        rw [hnone] at hsome
        cases hsome
    | some rows =>
      have hbefore : ∀ r < n, (d.dmaRead (sp.rowAddr r) (sp.damage.dw * 4)).isSome := by
        intro r hr
        by_contra hnone
        rw [Option.not_isSome_iff_eq_none] at hnone
        rw [readRows_eq_none_iff.2 ⟨r, hr, hnone⟩] at hrows
        cases hrows
      simp only [List.mem_append, ih, mem_blockRead]
      constructor
      · rintro (⟨r, hr, h⟩ | ⟨rfl, hsome⟩)
        · exact ⟨r, Nat.lt_succ_of_lt hr, h⟩
        · refine ⟨n, Nat.lt_succ_self n, fun r hr => ?_, rfl⟩
          rcases Nat.lt_or_eq_of_le hr with hlt | rfl
          · exact hbefore r hlt
          · exact hsome
      · rintro ⟨r, hr, hmapped, rfl⟩
        rcases Nat.lt_succ_iff_lt_or_eq.1 hr with hlt | rfl
        · exact .inl ⟨r, hlt, hmapped, rfl⟩
        · exact .inr ⟨rfl, hmapped r (Nat.le_refl r)⟩

/-- The blocks that the surface is made of. -/
private theorem mem_surfaceReads {fbBytes : Nat} {blk : UInt64 × Nat} :
    blk ∈ d.surfaceReads sp fbBytes ↔
      (d.NeedFull sp ∧ blk = (sp.scanoutAddr, fbBytes) ∧ (d.dmaRead sp.scanoutAddr fbBytes).isSome) ∨
        (¬ d.NeedFull sp ∧ 0 < sp.damage.dw ∧
          ∃ r < sp.damage.dh, d.RowsMapped sp r ∧ blk = (sp.rowAddr r, sp.damage.dw * 4)) := by
  simp only [surfaceReads]
  cases hb : d.matchingScanout sp.w sp.h with
  | none =>
    have hneed : d.NeedFull sp := .inl hb
    simp only [hneed, not_true, true_and, false_and, or_false, mem_blockRead]
  | some b =>
    have hne : d.matchingScanout sp.w sp.h ≠ none := by rw [hb]; exact nofun
    by_cases hfull : sp.damage.dx = 0 ∧ sp.damage.dy = 0 ∧ sp.damage.dw = sp.w ∧ sp.damage.dh = sp.h
    · have hneed : d.NeedFull sp := .inr hfull
      simp only [if_pos hfull, hneed, not_true, true_and, false_and, or_false, mem_blockRead]
    · have hpart : ¬ d.NeedFull sp := not_or.2 ⟨hne, hfull⟩
      simp only [if_neg hfull, hpart, not_false_iff, true_and, false_and, false_or]
      by_cases hpos : sp.damage.dw > 0 ∧ sp.damage.dh > 0
      · rw [if_pos hpos, mem_rowReads]
        exact (and_iff_right hpos.1).symm
      · rw [if_neg hpos]
        refine iff_of_false List.not_mem_nil fun ⟨hdw, r, hr, _⟩ => hpos ⟨hdw, ?_⟩
        omega

/-- A nonempty block lies inside a segment exactly if its ends do. -/
private theorem block_inside_iff {p n q len : Nat} (hn : 0 < n) :
    (∀ a, p ≤ a ∧ a < p + n → q ≤ a ∧ a < q + len) ↔ q ≤ p ∧ p + n ≤ q + len := by
  constructor
  · intro h
    have hfirst := h p (by omega)
    have hlast := h (p + n - 1) (by omega)
    omega
  · rintro ⟨hle, hend⟩ a ha
    omega

private theorem rowAddr_toNat (sp : ScanoutPresentDamaged) (r : Nat) :
    (sp.rowAddr r).toNat = (sp.scanoutAddr.toNat + rowOffset sp r) % 2 ^ 64 := by
  rw [sp.rowAddr_eq, UInt64.toNat_add, UInt64.toNat_ofNat', rowOffset, Nat.add_mod_mod]

theorem fbBytes_bounds {fbBytes : Nat} (h : sp.fbBytes = some fbBytes) : 0 < fbBytes ∧ fbBytes ≤ MAX_FRAME_BYTES := by
  simp only [ScanoutPresent.fbBytes] at h
  by_cases hgeom : sp.pitch.toNat ≥ sp.w * 4 ∧ sp.w ≠ 0 ∧ sp.h ≠ 0 ∧ sp.pitch.toNat * sp.h ≤ MAX_FRAME_BYTES
  · rw [if_pos hgeom, Option.some_inj] at h
    subst h
    exact ⟨Nat.mul_pos (by omega) (by omega), hgeom.2.2.2⟩
  · rw [if_neg hgeom] at h
    cases h

/-- The reads of an accepted present stay inside the `len` bytes from its start exactly if they fit there. -/
private theorem surfaceReads_inside_iff {fbBytes len : Nat} (hfb : sp.fbBytes = some fbBytes) :
    (∀ blk ∈ d.surfaceReads sp fbBytes, ∀ a, blk.1.toNat ≤ a ∧ a < blk.1.toNat + blk.2 →
      sp.scanoutAddr.toNat ≤ a ∧ a < sp.scanoutAddr.toNat + len) ↔ d.FrameFits sp fbBytes len := by
  obtain ⟨hpitch, hbytes⟩ := ScanoutPresent.fbBytes_eq_some hfb
  obtain ⟨hpos, hle⟩ := fbBytes_bounds hfb
  have hframe : MAX_FRAME_BYTES = 67108864 := rfl
  constructor
  · intro h
    refine ⟨fun hneed hsome => ?_, fun hpart hdw r hr hmapped => ?_⟩
    · have hblk := h _ (mem_surfaceReads.2 (.inl ⟨hneed, rfl, hsome⟩))
      have hends := (block_inside_iff hpos).1 hblk
      simp only at hends
      omega
    · have hblk := h _ (mem_surfaceReads.2 (.inr ⟨hpart, hdw, r, hr, hmapped, rfl⟩))
      have hends := (block_inside_iff (by omega)).1 hblk
      simp only at hends
      have hrow := sp.damaged_row_le hpitch hr
      have haddr := rowAddr_toNat sp r
      have hlt := sp.scanoutAddr.toNat_lt
      -- an address that wraps around would lie below the start
      simp only [rowOffset] at haddr ⊢
      omega
  · rintro ⟨hfull, hrows⟩ blk hblk
    rcases mem_surfaceReads.1 hblk with ⟨hneed, rfl, hsome⟩ | ⟨hpart, hdw, r, hr, hmapped, rfl⟩
    · have hfits := hfull hneed hsome
      exact (block_inside_iff hpos).2 ⟨Nat.le_refl _, Nat.add_le_add_left hfits _⟩
    · obtain ⟨hnowrap, hend⟩ := hrows hpart hdw r hr hmapped
      have haddr := rowAddr_toNat sp r
      rw [Nat.mod_eq_of_lt hnowrap] at haddr
      refine (block_inside_iff (by omega)).2 ?_
      simp only
      omega

/-- A flush reads nothing outside the backing exactly if what it reads fits into it. -/
theorem flush_contained_iff (env : Env) (resId : UInt32) (rect : Rect) (d : Backend) :
    d.FlushContained env resId rect ↔ d.FlushFits env resId rect := by
  have hpresent : d.invalidateElision.flushPresent resId rect = d.flushPresent resId rect := rfl
  have hquiet := (invalidateElision_quiet d).trans (ensureAdmitted_quiet env _)
  cases hsp : d.flushPresent resId rect with
  | none =>
    refine iff_of_true (fun a ⟨blk, hblk, _⟩ => ?_) (fun sp seg r fbBytes h => ?_)
    · simp only [flushReads, hpresent, hsp] at hblk
      cases hblk
    · rw [hsp] at h
      cases h
  | some sp =>
    obtain ⟨sid, b, r, seg, -, hr, hbacking, haddr, -⟩ := flushPresent_cases hsp
    have hcontained : d.FlushContained env resId rect ↔ ∀ blk ∈ d.flushReads env resId rect, ∀ a,
        blk.1.toNat ≤ a ∧ a < blk.1.toNat + blk.2 →
          sp.scanoutAddr.toNat ≤ a ∧ a < sp.scanoutAddr.toNat + seg.len.toNat := by
      rw [haddr]
      constructor
      · intro h blk hblk a ha
        obtain ⟨r', hr', seg', hseg', hin⟩ := h a ⟨blk, hblk, ha⟩
        rw [hr, Option.some_inj] at hr'
        subst hr'
        rw [hbacking, List.mem_singleton] at hseg'
        rw [hseg'] at hin
        exact hin
      · rintro h a ⟨blk, hblk, ha⟩
        exact ⟨r, hr, seg, by rw [hbacking]; exact List.mem_singleton_self _, h blk hblk a ha⟩
    rw [hcontained]
    simp only [flushReads, hpresent, hsp, presentReads]
    cases hadm : (d.invalidateElision.ensureAdmitted env).1 with
    | false =>
      have hidem : d.invalidateElision.invalidateElision = d.invalidateElision := rfl
      simp only [hidem, hadm]
      refine iff_of_true (fun blk hblk => by cases hblk) fun sp seg r fbBytes _ h => ?_
      rw [hadm] at h
      cases h
    | true =>
      have hidem : d.invalidateElision.invalidateElision = d.invalidateElision := rfl
      simp only [hidem, hadm]
      cases hfb : sp.fbBytes with
      | none =>
        refine iff_of_true (fun blk hblk => by cases hblk) fun sp' seg r fbBytes hsp' _ h => ?_
        rw [hsp, Option.some_inj] at hsp'
        rw [← hsp', hfb] at h
        cases h
      | some fbBytes =>
        have hq := hquiet.trans (accountScanoutVram_quiet sp.width sp.height _)
        have hfits : ∀ n len,
            ((d.invalidateElision.ensureAdmitted env).2.accountScanoutVram sp.width sp.height).FrameFits sp n len ↔
              d.FrameFits sp n len := by
          intro n len
          simp only [FrameFits, NeedFull, RowsMapped, matchingScanout, hq.lastScanout, hq.dmaRead]
        simp only [Bool.not_true, Bool.false_eq_true, if_false]
        rw [surfaceReads_inside_iff hfb, hfits]
        constructor
        · intro h sp' seg' r' n hsp' _ hn hr' hbacking'
          rw [hsp, Option.some_inj] at hsp'
          rw [hr, Option.some_inj] at hr'
          subst hsp' hr'
          rw [hfb, Option.some_inj] at hn
          rw [hbacking, List.cons.injEq] at hbacking'
          rw [← hn, ← hbacking'.1]
          exact h
        · intro h
          exact h sp seg r fbBytes hsp hadm hfb hr hbacking

/-- A resource of four bytes with a backing of four bytes, and a head of two rows of one pixel bound to it. -/
def smallBacking : List (Descriptor × List UInt8) :=
  let desc (msgType : UInt32) : Descriptor :=
    { msgType, flags := 0, len := 0, dataOffset := 0, seqno := 0, payloadAddr := 0 }
  let words (ws : List UInt32) : List UInt8 := ws.flatMap fun w => Bytes.ofValue 4 w.toNat
  [(desc MsgType.resourceCreateBlob, words [1, 0, 0, 0, 4, 0]),
    (desc MsgType.resourceAttachBacking, words [1, 1, 0x100, 0, 4, 0]),
    (desc MsgType.setScanoutBlob, words [0, 1, 1, 2, 1, 4])]

/-- A flush of the whole head. -/
def flushWhole : Descriptor × List UInt8 :=
  ({ msgType := MsgType.resourceFlush, flags := 0, len := 0, dataOffset := 0, seqno := 0, payloadAddr := 0 },
    ([1, 0, 0, 1, 2, 0] : List UInt32).flatMap fun w => Bytes.ofValue 4 w.toNat)

/-- The accepted flush reads the four bytes behind the backing as well. -/
theorem flush_reads_behind :
    let table := ResourceTable.new.executeAll smallBacking
    let d := { withBroker .default .new (.new "a" 1 4096) (fun _ => 0) with
      dma := DmaTable.new.map 0 0x1000 0
      resources := table }
    let rect : Rect := { x := 0, y := 0, w := 1, h := 2 }
    (executeResource flushWhole.1 flushWhole.2 table).1 = .flush 1 rect ∧ ¬ d.FlushContained .idle 1 rect := by
  refine ⟨by decide, fun h => ?_⟩
  obtain ⟨r, hr, seg, hseg, -, hlt⟩ := h 0x104 ⟨(0x100, 8), by decide, by decide, by decide⟩
  have htable : (ResourceTable.new.executeAll smallBacking).get 1 =
      some { resId := 1, blobMem := 0, size := 4, backing := [{ addr := 0x100, len := 4 }] } := by decide
  rw [htable, Option.some_inj] at hr
  subst hr
  rw [List.mem_singleton.1 hseg] at hlt
  exact absurd hlt (by decide)

/-- With a valid table it is enough that the frame fits into the resource and the resource below the top of the
address space: the two checks that no operation makes. -/
theorem flush_contained_of_covered (env : Env) {resId : UInt32} (rect : Rect) (hvalid : d.resources.Valid)
    (hcovered : ∀ sid b r seg, d.resources.scanoutBindingFor resId = some (sid, b) → d.resources.get resId = some r →
      r.backing = [seg] → b.stride.toNat * b.height.toNat ≤ r.size.toNat ∧ seg.addr.toNat + r.size.toNat ≤ 2 ^ 64) :
    d.FlushContained env resId rect := by
  rw [flush_contained_iff]
  intro sp seg r fbBytes hsp _ hfb hr hbacking
  obtain ⟨sid, b, r', seg', hb, hr', hbacking', haddr, hpitch, hheight⟩ := flushPresent_cases hsp
  rw [hr, Option.some_inj] at hr'
  subst hr'
  rw [hbacking, List.cons.injEq] at hbacking'
  obtain ⟨rfl, -⟩ := hbacking'
  obtain ⟨hfits, htop⟩ := hcovered sid b r seg hb hr hbacking
  obtain ⟨hrow, hbytes⟩ := ScanoutPresent.fbBytes_eq_some hfb
  have hsize : r.size.toNat ≤ seg.len.toNat := by
    have hcov := (hvalid.resource _ _ hr).2.covered (by rw [hbacking]; exact nofun)
    rw [hbacking] at hcov
    exact hcov
  have hframe : sp.pitch.toNat * sp.h ≤ r.size.toNat := by
    rw [ScanoutPresent.h, hpitch, hheight]
    exact hfits
  refine ⟨fun _ _ => by omega, fun _ hdw row hlt _ => ?_⟩
  have hend := sp.damaged_row_le hrow hlt
  rw [haddr, rowOffset]
  omega

end Backend

end Infinigpu
