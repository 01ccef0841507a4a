import Infinigpu.Device.Drain
import Infinigpu.Device.Mappings
import Infinigpu.Device.Registers

/-!
# The ring views of a drain (`infinigpu-device`, `drain_ctx`)

`ring_over_shared` and `retire_over_shared` take raw pointers, and their contract is up to the caller: both pointers
aligned, both areas mapped, and apart from each other.  `drain_ctx` checks that the areas are mapped, but neither the
alignment nor the overlap of the addresses in the ring registers.  The contract holds at each call exactly if
`RegistersFit` does (`views_contract_iff`).
-/

namespace Infinigpu

/-- `align_of` the index page and the descriptor, and what `mmap` aligns to. -/
def indicesAlign : Nat := 64
def descriptorAlign : Nat := 8
def pageSize : Nat := 4096

namespace DmaTable

/-- The bytes lie in the host memory behind one live interval. -/
def HostMapped (p len : Nat) (t : DmaTable) : Prop :=
  ∃ e ∈ t.maps.entries, e.2.host ≤ p ∧ p + len ≤ e.2.host + e.2.size.toNat

/-- What `mmap` promises of the host addresses: they are whole pages, and mappings that live at the same time do not
overlap. -/
structure Mmapped (t : DmaTable) : Prop where
  aligned : ∀ e ∈ t.maps.entries, pageSize ∣ e.2.host
  apart : ∀ e ∈ t.maps.entries, ∀ e' ∈ t.maps.entries, e.1 ≠ e'.1 →
    e.2.host + e.2.size.toNat ≤ e'.2.host ∨ e'.2.host + e'.2.size.toNat ≤ e.2.host

variable {t : DmaTable} {addr base : UInt64} {len p : Nat} {m : Mapping}

private theorem entry_unique {m' : Mapping} (h : ⟨base, m⟩ ∈ t.maps.entries) (h' : ⟨base, m'⟩ ∈ t.maps.entries) :
    m = m' := by
  have hlookup := AList.mem_lookup_iff.2 h
  have hlookup' := AList.mem_lookup_iff.2 h'
  rw [hlookup] at hlookup'
  exact Option.some_inj.1 hlookup'

/-- What resolves has host memory. -/
private theorem Covers.hostMapped (h : ⟨base, m⟩ ∈ t.maps.entries) (hcov : Covers base m addr len) :
    t.HostMapped (m.host + (addr.toNat - base.toNat)) len := by
  obtain ⟨hbase, hend⟩ := hcov
  refine ⟨⟨base, m⟩, h, Nat.le_add_right _ _, ?_⟩
  show m.host + (addr.toNat - base.toNat) + len ≤ m.host + m.size.toNat
  omega

/-- A part of a page is aligned exactly as in its interval. -/
private theorem Mmapped.aligned_iff (h : t.Mmapped) (hmem : ⟨base, m⟩ ∈ t.maps.entries) {align : Nat}
    (halign : align ∣ pageSize) (off : Nat) : align ∣ m.host + off ↔ align ∣ off :=
  (Nat.dvd_add_iff_right (halign.trans (h.aligned _ hmem))).symm

end DmaTable

/-- The contract of `ring_over_shared` and `retire_over_shared`. -/
structure ViewContract (t : DmaTable) (r : RingMemory) : Prop where
  indexAligned : indicesAlign ∣ r.indexPtr
  indexMapped : t.HostMapped r.indexPtr indicesSize
  descAligned : descriptorAlign ∣ r.descPtr
  descMapped : t.HostMapped r.descPtr (r.cap * descriptorSize)
  pow2 : r.cap ≠ 0 ∧ r.cap.isPowerOfTwo
  apart : r.indexPtr + indicesSize ≤ r.descPtr ∨ r.descPtr + r.cap * descriptorSize ≤ r.indexPtr

namespace Backend

variable (env : Env) (ctx : Fin NUM_CONTEXTS)

/-- The calls that a drain makes of the two, each with the table as it is then: one for the batch, and one to retire
it if its highest seqno is not zero. -/
def viewCalls (d : Backend) : List (DmaTable × RingMemory) :=
  match d.ringMemory ctx with
  | none => []
  | some r =>
    let (admitted, d) := d.ensureAdmitted env
    if !admitted then
      []
    else
      (d.dma, r) ::
        match Geometry.fromParts r.cap with
        | .error _ => []
        | .ok g =>
          let (drained, mem) := popBatch (sharedRing g r.indexPtr r.descPtr) r.cap d.mem
          let d := { d with mem }.executeBatch env ctx drained.descriptors
          if drained.highestSeqno > 0 then [(d.dma, r)] else []

/-- The ring registers keep to the alignment inside the intervals they point to, and to different parts of one
interval. -/
def RegistersFit (d : Backend) : Prop :=
  ∀ ibase im dbase dm, d.dma.nextBack (d.ringIndex ctx) = some (ibase, im) →
    d.dma.nextBack (d.ringBase ctx) = some (dbase, dm) →
      indicesAlign ∣ (d.ringIndex ctx).toNat - ibase.toNat ∧ descriptorAlign ∣ (d.ringBase ctx).toNat - dbase.toNat ∧
        (ibase = dbase → (d.ringIndex ctx).toNat + indicesSize ≤ (d.ringBase ctx).toNat ∨
          (d.ringBase ctx).toNat + (d.ringCap ctx).toNat * descriptorSize ≤ (d.ringIndex ctx).toNat)

variable {env ctx} {d : Backend} {r : RingMemory}

/-- What the checks of a drain leave. -/
theorem ringMemory_eq_some (h : d.ringMemory ctx = some r) :
    r.cap = (d.ringCap ctx).toNat ∧ (r.cap ≠ 0 ∧ r.cap.isPowerOfTwo) ∧
      d.dma.resolve (d.ringIndex ctx) indicesSize = some r.indexPtr ∧
      d.dma.resolve (d.ringBase ctx) (r.cap * descriptorSize) = some r.descPtr := by
  unfold Backend.ringMemory at h
  simp only at h
  split at h
  · cases h
  · rename_i hgeom
    simp only [not_or, not_not] at hgeom
    split at h
    · rename_i indexPtr descPtr hindex hdesc
      rw [Option.some_inj] at h
      subst h
      exact ⟨rfl, hgeom.2, hindex, hdesc⟩
    · cases h

/-- Every call is made with the same pointers, over the table of the doorbell. -/
private theorem viewCalls_eq (hr : d.ringMemory ctx = some r) (hadm : (d.ensureAdmitted env).1 = true) :
    ∃ calls, d.viewCalls env ctx = (d.dma, r) :: calls ∧ ∀ c ∈ calls, c = (d.dma, r) := by
  have hdma := (ensureAdmitted_quiet env d).dma
  simp only [viewCalls, hr, hadm, Bool.not_true, Bool.false_eq_true, if_false, hdma]
  refine ⟨_, rfl, fun c hc => ?_⟩
  split at hc
  · cases hc
  · rename_i g hg
    split at hc
    · rw [List.mem_singleton] at hc
      rw [hc, (executeBatch_keeps env ctx _ _).dma]
    · cases hc

private theorem viewCalls_eq_nil (h : ¬ ((d.ringMemory ctx).isSome ∧ (d.ensureAdmitted env).1 = true)) :
    d.viewCalls env ctx = [] := by
  unfold viewCalls
  cases hr : d.ringMemory ctx with
  | none => rfl
  | some r =>
    have hdenied : (d.ensureAdmitted env).1 = false := by
      rw [hr] at h
      simpa using h
    simp only [hdenied, Bool.not_false, if_true]

private theorem viewContract_iff (hmmap : d.dma.Mmapped) (hr : d.ringMemory ctx = some r) :
    ViewContract d.dma r ↔ d.RegistersFit ctx := by
  obtain ⟨hcap, hpow, hindex, hdesc⟩ := ringMemory_eq_some hr
  obtain ⟨ibase, im, hiback, hicov, -, hip⟩ := DmaTable.resolve_nextBack hindex
  obtain ⟨dbase, dm, hdback, hdcov, -, hdp⟩ := DmaTable.resolve_nextBack hdesc
  have himem := (DmaTable.nextBack_eq_some_iff.1 hiback).1
  have hdmem := (DmaTable.nextBack_eq_some_iff.1 hdback).1
  have hialign := hmmap.aligned_iff himem (by decide : indicesAlign ∣ pageSize)
    ((d.ringIndex ctx).toNat - ibase.toNat)
  have hdalign := hmmap.aligned_iff hdmem (by decide : descriptorAlign ∣ pageSize)
    ((d.ringBase ctx).toNat - dbase.toNat)
  rw [← hip] at hialign
  rw [← hdp] at hdalign
  -- in one interval the areas lie as the addresses do, in two of them the host memory is apart
  have hapart : (r.indexPtr + indicesSize ≤ r.descPtr ∨ r.descPtr + r.cap * descriptorSize ≤ r.indexPtr) ↔
      (ibase = dbase → (d.ringIndex ctx).toNat + indicesSize ≤ (d.ringBase ctx).toNat ∨
        (d.ringBase ctx).toNat + (d.ringCap ctx).toNat * descriptorSize ≤ (d.ringIndex ctx).toNat) := by
    obtain ⟨hibase, hiend⟩ := hicov
    obtain ⟨hdbase, hdend⟩ := hdcov
    rw [← hcap]
    by_cases hsame : ibase = dbase
    · subst hsame
      have hm := DmaTable.entry_unique himem hdmem
      subst hm
      rw [hip, hdp]
      constructor
      · intro h _
        omega
      · intro h
        have hfits := h rfl
        omega
    · refine iff_of_true ?_ fun h => absurd h hsame
      rcases hmmap.apart _ himem _ hdmem hsame with hlt | hgt
      · left
        simp only at hlt
        omega
      · right
        simp only at hgt
        omega
  constructor
  · intro h ibase' im' dbase' dm' hi hd
    rw [hiback, Option.some_inj, Prod.mk.injEq] at hi
    rw [hdback, Option.some_inj, Prod.mk.injEq] at hd
    rw [← hi.1, ← hd.1]
    exact ⟨hialign.1 h.indexAligned, hdalign.1 h.descAligned, hapart.1 h.apart⟩
  · intro h
    obtain ⟨hi, hd, hfits⟩ := h ibase im dbase dm hiback hdback
    exact
      { indexAligned := hialign.2 hi
        indexMapped := hip ▸ hicov.hostMapped himem
        descAligned := hdalign.2 hd
        descMapped := hdp ▸ hdcov.hostMapped hdmem
        pow2 := hpow
        apart := hapart.2 hfits }

theorem views_contract_iff (env : Env) (ctx : Fin NUM_CONTEXTS) (d : Backend) (h : d.dma.Mmapped) :
    (∀ c ∈ d.viewCalls env ctx, ViewContract c.1 c.2) ↔
      ((d.ringMemory ctx).isSome → (d.ensureAdmitted env).1 = true → d.RegistersFit ctx) := by
  by_cases hserved : (d.ringMemory ctx).isSome ∧ (d.ensureAdmitted env).1 = true
  · obtain ⟨hring, hadm⟩ := hserved
    obtain ⟨r, hr⟩ := Option.isSome_iff_exists.1 hring
    obtain ⟨calls, hcalls, hsame⟩ := viewCalls_eq hr hadm
    rw [← viewContract_iff h hr, hcalls]
    constructor
    · intro hall _ _
      exact hall _ List.mem_cons_self
    · intro hcontract c hc
      have hc' : c = (d.dma, r) := (List.mem_cons.1 hc).elim id (hsame c)
      rw [hc']
      exact hcontract hring hadm
  · rw [viewCalls_eq_nil hserved]
    exact iff_of_true (fun c hc => absurd hc List.not_mem_nil) fun hring hadm => absurd ⟨hring, hadm⟩ hserved

theorem views_contract_twoSlotRing : (twoSlotRing fun _ => 0).viewCalls .idle 0 ≠ [] ∧
    ∀ c ∈ (twoSlotRing fun _ => 0).viewCalls .idle 0, ViewContract c.1 c.2 := by
  refine ⟨?_, ?_⟩
  · have hring : ((twoSlotRing fun _ => 0).ringMemory 0).isSome := by decide
    obtain ⟨r, hr⟩ := Option.isSome_iff_exists.1 hring
    obtain ⟨calls, hcalls, -⟩ := viewCalls_eq hr
      (show ((twoSlotRing fun _ => 0).ensureAdmitted .idle).1 = true by decide)
    rw [hcalls]
    exact List.cons_ne_nil _ _
  refine (views_contract_iff .idle 0 _ ⟨by decide, by decide⟩).2 fun _ _ ibase im dbase dm hi hd => ?_
  have hindex : (twoSlotRing fun _ => 0).dma.nextBack ((twoSlotRing fun _ => 0).ringIndex 0) =
      some (0x1000, ⟨0x1000, 0⟩) := by decide
  have hbase : (twoSlotRing fun _ => 0).dma.nextBack ((twoSlotRing fun _ => 0).ringBase 0) =
      some (0x1000, ⟨0x1000, 0⟩) := by decide
  rw [hindex, Option.some_inj, Prod.mk.injEq] at hi
  rw [hbase, Option.some_inj, Prod.mk.injEq] at hd
  rw [← hi.1, ← hd.1]
  decide

/-- A ring whose index page starts in the middle of a line and ends behind the start of the descriptors. -/
def crookedRing : List Device.Access :=
  [.map 0x1000 0x1000 (some 0x10000), .write .idle 0x100 [0x40, 0x10, 0, 0], .write .idle 0x108 [2, 0, 0, 0],
    .write .idle 0x11c [0x20, 0x10, 0, 0]]

theorem views_unchecked :
    ¬ ∀ (cfg : Device.Config) (broker : Ledger) (mem : Memory) (hist : List Device.Access) (env : Env)
      (ctx : Fin NUM_CONTEXTS), ((Device.create cfg broker mem).run hist).dev.dma.Mmapped →
        ∀ c ∈ ((Device.create cfg broker mem).run hist).dev.viewCalls env ctx, ViewContract c.1 c.2 := by
  intro h
  have hall := h ⟨.default, .new "vm" 1 4096, false, false, false, false⟩ .new (fun _ => 0) crookedRing .idle 0
    ⟨by decide, by decide⟩
  have hring : (((Device.create ⟨.default, .new "vm" 1 4096, false, false, false, false⟩ .new (fun _ => 0)).run
      crookedRing).dev.ringMemory 0) = some { indexPtr := 0x10020, descPtr := 0x10040, cap := 2 } := by decide
  have hadm : (((Device.create ⟨.default, .new "vm" 1 4096, false, false, false, false⟩ .new (fun _ => 0)).run
      crookedRing).dev.ensureAdmitted .idle).1 = true := by decide
  obtain ⟨calls, hcalls, -⟩ := viewCalls_eq hring hadm
  rw [hcalls] at hall
  exact absurd (hall _ List.mem_cons_self).indexAligned (by decide)

end Backend

end Infinigpu
