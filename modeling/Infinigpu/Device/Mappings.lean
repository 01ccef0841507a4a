import Infinigpu.Device.Twin
import Infinigpu.Lib.Holdings
import Infinigpu.Lib.Lts

/-!
# The DMA table and the host mappings behind it (`infinigpu-device`, `dma.rs`)

`table_sound`: what resolves lies inside one live interval, and an access that is granted is to exactly the bytes of
its range.  This needs nothing of the table.

Whether everything that is mapped resolves, and whether every host mapping is released, depends on the intervals that
the other side of the socket sends: it does exactly as long as no interval meets a live one or reaches the end of the
address space (`kept_iff`).
-/

namespace Infinigpu

namespace DmaTable

variable {t : DmaTable} {addr base : UInt64} {len p : Nat} {m : Mapping} {mem : Memory}

/-! ### Accesses -/

/-- `[addr, addr + len)` lies inside the interval that starts at `base`. -/
def Covers (base : UInt64) (m : Mapping) (addr : UInt64) (len : Nat) : Prop :=
  base.toNat ≤ addr.toNat ∧ addr.toNat + len ≤ base.toNat + m.size.toNat

instance (base : UInt64) (m : Mapping) (addr : UInt64) (len : Nat) : Decidable (Covers base m addr len) := by
  unfold Covers; infer_instance

/-- `read` with the buffer that it fills. -/
def readInto (addr : UInt64) (buf : List UInt8) (mem : Memory) (t : DmaTable) : Bool × List UInt8 :=
  match t.resolve addr buf.length with
  | some p => (true, mem.load p buf.length)
  | none => (false, buf)

/-- What resolves lies inside the interval that is looked up, which does not wrap. -/
theorem resolve_nextBack (h : t.resolve addr len = some p) :
    ∃ base m, t.nextBack addr = some (base, m) ∧ Covers base m addr len ∧ base.toNat + m.size.toNat < 2 ^ 64 ∧
      p = m.host + (addr.toNat - base.toNat) := by
  unfold resolve at h
  cases hback : t.nextBack addr with
  | none =>
    rw [hback] at h
    cases h
  | some e =>
    obtain ⟨base, m⟩ := e
    rw [hback] at h
    simp only at h
    obtain ⟨-, hle, -⟩ := nextBack_eq_some_iff.1 hback
    by_cases hfits : addr.toNat + len < 2 ^ 64 ∧ base.toNat + m.size.toNat < 2 ^ 64 ∧
        addr.toNat + len ≤ base.toNat + m.size.toNat
    · rw [if_pos hfits, Option.some_inj, UInt64.toNat_sub_of_le _ _ hle] at h
      exact ⟨base, m, rfl, ⟨UInt64.le_iff_toNat_le.1 hle, hfits.2.2⟩, hfits.2.1, h.symm⟩
    · rw [if_neg hfits] at h
      cases h

/-- That interval is a live one. -/
theorem resolve_inside (h : t.resolve addr len = some p) :
    ∃ base m, ⟨base, m⟩ ∈ t.maps.entries ∧ Covers base m addr len ∧ base.toNat + m.size.toNat < 2 ^ 64 ∧
      p = m.host + (addr.toNat - base.toNat) := by
  obtain ⟨base, m, hback, hcov⟩ := resolve_nextBack h
  exact ⟨base, m, (nextBack_eq_some_iff.1 hback).1, hcov⟩

private theorem write_eq_true {buf : List UInt8} (h : (t.write addr buf mem).1 = true) :
    ∃ p, t.resolve addr buf.length = some p ∧ (t.write addr buf mem).2 = mem.store p buf := by
  unfold write at h ⊢
  cases hp : t.resolve addr buf.length with
  | none =>
    simp only [hp] at h
    cases h
  | some p => exact ⟨p, rfl, rfl⟩

/-- Accesses stay inside the range they resolve, and an access that is refused leaves everything as it was. -/
theorem table_sound (t : DmaTable) (addr : UInt64) (mem : Memory) :
    (∀ len p, t.resolve addr len = some p →
      ∃ base m, ⟨base, m⟩ ∈ t.maps.entries ∧ Covers base m addr len ∧ base.toNat + m.size.toNat < 2 ^ 64 ∧
        p = m.host + (addr.toNat - base.toNat)) ∧
    (∀ buf, (t.write addr buf mem).1 = true →
      ∃ p, t.resolve addr buf.length = some p ∧
        (∀ i (h : i < buf.length), (t.write addr buf mem).2 (p + i) = buf.get ⟨i, h⟩) ∧
        (∀ a, a < p ∨ p + buf.length ≤ a → (t.write addr buf mem).2 a = mem a) ∧
        ∀ buf', buf'.length = buf.length → t.readInto addr buf' (t.write addr buf mem).2 = (true, buf)) ∧
    (∀ buf, (t.readInto addr buf mem).1 = true →
      ∃ p, t.resolve addr buf.length = some p ∧ (t.readInto addr buf mem).2 = mem.load p buf.length) ∧
    (∀ buf, (t.write addr buf mem).1 = false → (t.write addr buf mem).2 = mem) ∧
    (∀ buf, (t.readInto addr buf mem).1 = false → (t.readInto addr buf mem).2 = buf) := by
  refine ⟨fun len p h => resolve_inside h, fun buf h => ?_, fun buf h => ?_, fun buf h => ?_, fun buf h => ?_⟩
  · obtain ⟨p, hp, hwritten⟩ := write_eq_true h
    rw [hwritten]
    refine ⟨p, hp, fun i hi => Memory.store_add hi, fun a ha => ?_, fun buf' hlen => ?_⟩
    · rcases ha with hlt | hge
      · exact Memory.store_of_lt buf hlt
      · exact Memory.store_of_ge hge
    · rw [readInto, hlen, hp]
      simp only [Memory.load_store_same]
  · unfold readInto at h ⊢
    cases hp : t.resolve addr buf.length with
    | none =>
      simp only [hp] at h
      cases h
    | some p => exact ⟨p, rfl, rfl⟩
  · unfold write at h ⊢
    cases hp : t.resolve addr buf.length with
    | none => rfl
    | some p =>
      simp only [hp] at h
      cases h
  · unfold readInto at h ⊢
    cases hp : t.resolve addr buf.length with
    | none => rfl
    | some p =>
      simp only [hp] at h
      cases h

/-! ### Completeness -/

/-- The intervals are not empty and end below the end of the address space. -/
def Bounded (t : DmaTable) : Prop :=
  ∀ e ∈ t.maps.entries, 0 < e.2.size.toNat ∧ e.1.toNat + e.2.size.toNat < 2 ^ 64

/-- What lies inside an interval of a table of disjoint ones resolves. -/
private theorem resolve_isSome (hd : t.Disjoint) (hb : t.Bounded) (hmem : ⟨base, m⟩ ∈ t.maps.entries)
    (hcov : Covers base m addr len) : (t.resolve addr len).isSome := by
  have hkey : base ∈ t.maps.keys := List.mem_map_of_mem (f := Sigma.fst) hmem
  have hle : base ≤ addr := UInt64.le_iff_toNat_le.2 hcov.1
  -- the interval that the lookup finds
  obtain ⟨base', hmax⟩ : ∃ base', (t.maps.keys.filter (· ≤ addr)).max? = some base' := by
    refine Option.ne_none_iff_exists'.1 fun hnone => ?_
    rw [List.max?_eq_none_iff] at hnone
    exact List.ne_nil_of_mem (List.mem_filter.2 ⟨hkey, decide_eq_true hle⟩) hnone
  rw [List.max?_eq_some_iff] at hmax
  simp only [List.mem_filter, decide_eq_true_eq, and_imp] at hmax
  obtain ⟨⟨hkey', hle'⟩, hmax⟩ := hmax
  obtain ⟨m', hm'⟩ := Option.isSome_iff_exists.1 (AList.lookup_isSome.2 (AList.mem_keys.2 hkey'))
  have hmem' := AList.mem_lookup_iff.1 hm'
  have hback : t.nextBack addr = some (base', m') := nextBack_eq_some_iff.2 ⟨hmem', hle', hmax⟩
  have hb' := hb _ hmem'
  have hfits : addr.toNat + len ≤ base'.toNat + m'.size.toNat := by
    rcases UInt64.lt_or_eq_of_le (hmax base hkey hle) with hlt | heq
    · -- a later interval starts behind the end of this one, so nothing is left of the range
      have hbehind := hd _ hmem _ hmem' hlt
      obtain ⟨-, hend⟩ := hcov
      rw [UInt64.le_iff_toNat_le] at hle'
      simp only at hbehind
      omega
    · subst heq
      obtain rfl : m = m' := Option.some_inj.1 ((AList.mem_lookup_iff.2 hmem).symm.trans hm')
      exact hcov.2
  simp only [resolve, hback]
  simp only at hb'
  rw [if_pos (by omega)]
  rfl

private theorem resolve_isSome_iff (hd : t.Disjoint) (hb : t.Bounded) :
    (t.resolve addr len).isSome ↔ ∃ base m, ⟨base, m⟩ ∈ t.maps.entries ∧ Covers base m addr len := by
  constructor
  · intro h
    obtain ⟨p, hp⟩ := Option.isSome_iff_exists.1 h
    obtain ⟨base, m, hmem, hcov, -⟩ := resolve_inside hp
    exact ⟨base, m, hmem, hcov⟩
  · rintro ⟨base, m, hmem, hcov⟩
    exact resolve_isSome hd hb hmem hcov

end DmaTable

/-! ### Runs -/

/-- A table, with what was done to it: the intervals that were mapped and not unmapped since, and the host mappings by
the interval that owns them.  The table never reads these. -/
structure Mmaps where
  table : DmaTable
  mapped : List (UInt64 × Mapping)
  holdings : Holdings UInt64

inductive MapCall where
  /-- `host` is where the file is mapped, if it can be. -/
  | map (iova size : UInt64) (host : Option Nat)
  | unmap (iova : UInt64)
  | clear

namespace Mmaps

open DmaTable

variable {s s' : Mmaps} {c : MapCall} {iova size : UInt64} {host : Nat}

def new : Mmaps where
  table := .new
  mapped := []
  holdings := .new

def map (iova size : UInt64) (host : Option Nat) (s : Mmaps) : Mmaps :=
  match host with
  | some host =>
    if size = 0 then s
    else
      { table := s.table.map iova size host
        mapped := (iova, { size, host }) :: s.mapped
        holdings := s.holdings.acquire iova }
  | none => s

def unmap (iova : UInt64) (s : Mmaps) : Mmaps where
  table := s.table.unmap iova
  mapped := s.mapped.filter (·.1 ≠ iova)
  holdings := s.holdings.release iova

/-- `clear`, which a table that is dropped also does: the keys are collected and unmapped one by one. -/
def clear (s : Mmaps) : Mmaps := s.table.maps.keys.foldl (fun s k => s.unmap k) s

def step (s : Mmaps) : MapCall → Option Mmaps
  | .map iova size host => some (s.map iova size host)
  | .unmap iova => some (s.unmap iova)
  | .clear => some s.clear

/-- The mapped intervals are disjoint, exactly the ranges inside an interval that is mapped and not unmapped resolve,
and every host mapping is released or still owned by one interval, so that the drop releases the rest. -/
structure Kept (s : Mmaps) : Prop where
  disjoint : s.table.Disjoint
  resolves : ∀ addr len, (s.table.resolve addr len).isSome ↔ ∃ e ∈ s.mapped, Covers e.1 e.2 addr len
  owned : s.holdings.Exact
  dropped : s.clear.holdings.released.Perm (List.range s.clear.holdings.made)

/-- An interval that is mapped ends below the end of the address space and meets no live one. -/
def Fits (s : Mmaps) : MapCall → Prop
  | .map iova size (some _) => size ≠ 0 → iova.toNat + size.toNat < 2 ^ 64 ∧
      ∀ e ∈ s.table.maps.entries,
        iova.toNat + size.toNat ≤ e.1.toNat ∨ e.1.toNat + e.2.size.toNat ≤ iova.toNat
  | _ => True

/-- What a run with `Fits` keeps. -/
structure Good (s : Mmaps) : Prop where
  disjoint : s.table.Disjoint
  bounded : s.table.Bounded
  mapped : ∀ base m, (base, m) ∈ s.mapped ↔ ⟨base, m⟩ ∈ s.table.maps.entries
  owned : s.holdings.Exact
  keys : ∀ k, s.holdings.held.lookup k = none ↔ s.table.maps.lookup k = none

private theorem good_new : new.Good where
  disjoint _ h := (List.not_mem_nil h).elim
  bounded _ h := (List.not_mem_nil h).elim
  mapped _ _ := Iff.intro (fun h => (List.not_mem_nil h).elim) (fun h => (List.not_mem_nil h).elim)
  owned := Holdings.exact_new
  keys _ := iff_of_true rfl rfl

/-! #### Unmapping -/

theorem mem_entries_unmap {e : (_ : UInt64) × Mapping} {t : DmaTable} :
    e ∈ (t.unmap iova).maps.entries ↔ e ∈ t.maps.entries ∧ e.1 ≠ iova := by
  obtain ⟨k, m⟩ := e
  rw [← AList.mem_lookup_iff, ← AList.mem_lookup_iff]
  show m ∈ (t.maps.erase iova).lookup k ↔ _
  by_cases hk : k = iova
  · subst hk
    rw [AList.lookup_erase]
    exact iff_of_false (fun h => (by cases h)) (fun h => h.2 rfl)
  · rw [AList.lookup_erase_ne hk]
    exact (and_iff_left hk).symm

private theorem Good.unmap (h : s.Good) (iova : UInt64) : (s.unmap iova).Good where
  disjoint e he e' he' hlt := h.disjoint e (mem_entries_unmap.1 he).1 e' (mem_entries_unmap.1 he').1 hlt
  bounded e he := h.bounded e (mem_entries_unmap.1 he).1
  mapped base m := by
    show (base, m) ∈ s.mapped.filter (·.1 ≠ iova) ↔ _
    rw [List.mem_filter, decide_eq_true_eq, h.mapped]
    exact mem_entries_unmap.symm
  owned := h.owned.release iova
  keys k := by
    show (s.holdings.held.erase iova).lookup k = none ↔ (s.table.maps.erase iova).lookup k = none
    by_cases hk : k = iova
    · rw [hk, AList.lookup_erase, AList.lookup_erase]
      exact iff_of_true rfl rfl
    · rw [AList.lookup_erase_ne hk, AList.lookup_erase_ne hk]
      exact h.keys k

private theorem Good.foldl_unmap (h : s.Good) (ks : List UInt64) : (ks.foldl (fun s k => s.unmap k) s).Good := by
  induction ks generalizing s with
  | nil => exact h
  | cons k ks ih => exact ih (h.unmap k)

theorem Good.clear (h : s.Good) : s.clear.Good := h.foldl_unmap _

private theorem lookup_foldl_unmap (ks : List UInt64) (k : UInt64) :
    (ks.foldl (fun s k => s.unmap k) s).table.maps.lookup k = if k ∈ ks then none else s.table.maps.lookup k := by
  induction ks generalizing s with
  | nil => rfl
  | cons k' ks ih =>
    rw [List.foldl_cons, ih]
    show (if k ∈ ks then none else (s.table.maps.erase k').lookup k) = _
    by_cases hk : k = k'
    · subst hk
      rw [AList.lookup_erase, ite_self, if_pos List.mem_cons_self]
    · rw [AList.lookup_erase_ne hk]
      simp only [List.mem_cons, hk, false_or]

private theorem alist_eq_empty {V : Type} {l : AList fun _ : UInt64 => V} (h : ∀ k, l.lookup k = none) : l = ∅ := by
  refine AList.ext (List.eq_nil_iff_forall_not_mem.2 fun e he => ?_)
  have hsome := AList.mem_lookup_iff.2 he
  rw [h e.1] at hsome
  cases hsome

/-- A table that is cleared is as new. -/
private theorem clear_table (s : Mmaps) : s.clear.table = s.table.clear := by
  have hempty : s.clear.table.maps = ∅ := alist_eq_empty fun k => by
    show (s.table.maps.keys.foldl (fun s k => s.unmap k) s).table.maps.lookup k = none
    rw [lookup_foldl_unmap]
    by_cases hk : k ∈ s.table.maps.keys
    · exact if_pos hk
    · rw [if_neg hk]
      exact AList.lookup_eq_none.2 hk
  show s.clear.table = DmaTable.new
  unfold DmaTable.new
  rw [← hempty]

private theorem Good.dropped (h : s.Good) : s.clear.holdings.released.Perm (List.range s.clear.holdings.made) := by
  refine h.clear.owned.released_perm (alist_eq_empty fun k => ?_)
  rw [h.clear.keys, clear_table]
  rfl

private theorem Good.kept (h : s.Good) : s.Kept where
  disjoint := h.disjoint
  resolves addr len := by
    rw [resolve_isSome_iff h.disjoint h.bounded]
    constructor
    · rintro ⟨base, m, hmem, hcov⟩
      exact ⟨(base, m), (h.mapped base m).2 hmem, hcov⟩
    · rintro ⟨⟨base, m⟩, hmem, hcov⟩
      exact ⟨base, m, (h.mapped base m).1 hmem, hcov⟩
  owned := h.owned
  dropped := h.dropped

/-! #### Mapping -/

private theorem map_of_ne (hsize : size ≠ 0) (host : Nat) (s : Mmaps) : s.map iova size (some host) =
    { table := { maps := s.table.maps.insert iova { size, host } }
      mapped := (iova, { size, host }) :: s.mapped
      holdings := s.holdings.acquire iova } := by
  unfold map DmaTable.map
  simp only [if_neg hsize]

private theorem toNat_pos (hsize : size ≠ 0) : 0 < size.toNat := by
  refine Nat.pos_of_ne_zero fun h => hsize ?_
  exact UInt64.toNat_inj.1 h

/-- The new interval is not that of a live key. -/
private theorem Good.lookup_none (h : s.Good) (hfits : s.Fits (.map iova size (some host))) (hsize : size ≠ 0) :
    s.table.maps.lookup iova = none := by
  by_contra hsome
  obtain ⟨m, hm⟩ := Option.ne_none_iff_exists'.1 hsome
  have hmem := AList.mem_lookup_iff.1 hm
  have hpos := toNat_pos hsize
  have hpos' := (h.bounded _ hmem).1
  have happart := (hfits hsize).2 _ hmem
  simp only at hpos' happart
  omega

theorem Good.map (h : s.Good) (hfits : s.Fits (.map iova size (some host))) : (s.map iova size (some host)).Good := by
  by_cases hsize : size = 0
  · subst hsize
    exact h
  · have hnone := h.lookup_none hfits hsize
    obtain ⟨hlimit, happart⟩ := hfits hsize
    have hpos := toNat_pos hsize
    have hentries : (s.table.maps.insert iova { size, host }).entries =
      ⟨iova, { size, host }⟩ :: s.table.maps.entries := by
      rw [AList.entries_insert_of_notMem (AList.lookup_eq_none.1 hnone)]
    rw [map_of_ne hsize]
    constructor
    · intro e he e' he' hlt
      rw [hentries, List.mem_cons] at he he'
      rw [UInt64.lt_iff_toNat_lt] at hlt
      rcases he with rfl | he
      · rcases he' with rfl | he'
        · omega
        · have := happart e' he'
          simp only at hlt ⊢
          have := (h.bounded e' he').1
          omega
      · rcases he' with rfl | he'
        · have := happart e he
          simp only at hlt ⊢
          omega
        · exact h.disjoint e he e' he' (UInt64.lt_iff_toNat_lt.2 hlt)
    · intro e he
      rw [hentries, List.mem_cons] at he
      rcases he with rfl | he
      · exact ⟨hpos, hlimit⟩
      · exact h.bounded e he
    · intro base m
      rw [hentries, List.mem_cons, List.mem_cons, h.mapped, Prod.mk.injEq, Sigma.mk.injEq, heq_eq_eq]
    · exact (Holdings.exact_acquire_iff h.owned).2 ((h.keys iova).2 hnone)
    · intro k
      show (s.holdings.held.insert iova _).lookup k = none ↔ (s.table.maps.insert iova _).lookup k = none
      by_cases hk : k = iova
      · rw [hk, AList.lookup_insert, AList.lookup_insert]
        exact iff_of_false (Option.some_ne_none _) (Option.some_ne_none _)
      · rw [AList.lookup_insert_ne hk, AList.lookup_insert_ne hk]
        exact h.keys k

/-- What a mapping that is kept fits. -/
private theorem Good.fits (h : s.Good) (hkept : (s.map iova size (some host)).Kept) :
    s.Fits (.map iova size (some host)) := by
  intro hsize
  rw [map_of_ne hsize] at hkept
  have hpos := toNat_pos hsize
  have hnone : s.table.maps.lookup iova = none :=
    (h.keys iova).1 ((Holdings.exact_acquire_iff h.owned).1 hkept.owned)
  have hentries : (s.table.maps.insert iova { size, host }).entries =
    ⟨iova, { size, host }⟩ :: s.table.maps.entries := by
    rw [AList.entries_insert_of_notMem (AList.lookup_eq_none.1 hnone)]
  have hnew : (⟨iova, { size, host }⟩ : (_ : UInt64) × Mapping) ∈
      (s.table.maps.insert iova { size, host }).entries := hentries ▸ List.mem_cons_self
  have hold : ∀ e ∈ s.table.maps.entries, e ∈ (s.table.maps.insert iova { size, host }).entries := fun e he =>
    hentries ▸ List.mem_cons_of_mem _ he
  constructor
  · -- its first byte resolves, and only in the new interval
    have hcov : Covers iova { size, host } iova 1 := ⟨Nat.le_refl _, Nat.add_le_add_left hpos _⟩
    obtain ⟨p, hp⟩ := Option.isSome_iff_exists.1 ((hkept.resolves iova 1).2 ⟨_, List.mem_cons_self, hcov⟩)
    obtain ⟨base, m, hmem, ⟨hle, hend⟩, hlimit, -⟩ := resolve_inside hp
    rcases UInt64.lt_or_eq_of_le (UInt64.le_iff_toNat_le.2 hle) with hlt | heq
    · have := hkept.disjoint _ hmem _ hnew hlt
      simp only at this
      omega
    · subst heq
      have hm : m = { size, host } :=
        Option.some_inj.1 ((AList.mem_lookup_iff.2 hmem).symm.trans (AList.mem_lookup_iff.2 hnew))
      subst hm
      exact hlimit
  · intro e he
    have hne : e.1 ≠ iova := by
      intro heq
      subst heq
      rw [AList.mem_lookup_iff.2 he] at hnone
      exact Option.some_ne_none _ hnone
    rcases UInt64.lt_or_lt_of_ne hne with hlt | hgt
    · exact .inr (hkept.disjoint e (hold e he) _ hnew hlt)
    · exact .inl (hkept.disjoint _ hnew e (hold e he) hgt)

private theorem Good.step_iff (h : s.Good) (hs : step s c = some s') :
    (s'.Kept ↔ s.Fits c) ∧ (s.Fits c → s'.Good) := by
  cases c with
  | map iova size host =>
    cases hs
    cases host with
    | none => exact ⟨iff_of_true h.kept trivial, fun _ => h⟩
    | some host => exact ⟨⟨h.fits, fun hf => (h.map hf).kept⟩, h.map⟩
  | unmap iova =>
    cases hs
    exact ⟨iff_of_true (h.unmap iova).kept trivial, fun _ => h.unmap iova⟩
  | clear =>
    cases hs
    exact ⟨iff_of_true h.clear.kept trivial, fun _ => h.clear⟩

private theorem step_isSome (s : Mmaps) (c : MapCall) : (step s c).isSome := by
  cases c <;> rfl

/-- All along a run of calls the table is kept exactly when every interval that is mapped ends below the end of the
address space and meets no live one. -/
theorem kept_iff (calls : List MapCall) : Lts.Always step Kept new calls ↔ Lts.Along step Fits new calls := by
  refine Lts.always_iff_along_total (A := fun _ => True) (I := Good) step_isSome ?_ ?_ good_new good_new.kept
    fun _ _ => trivial
  · intro s c s' _ h _ hkept hs
    exact (h.step_iff hs).2 ((h.step_iff hs).1.1 hkept)
  · intro s c s' _ h _ hs
    exact (h.step_iff hs).1

/-- Two files mapped at one address. -/
def remaps : List MapCall := [.map 0x1000 0x1000 (some 0), .map 0x1000 0x1000 (some 0x10000)]

/-- The second one takes the place of the first, which is never released. -/
theorem not_always_kept : ¬ ∀ calls, Lts.Always step Kept new calls := by
  intro h
  have hexact := ((h remaps).2 _ rfl).2 _ rfl |>.owned 0
  revert hexact
  decide

end Mmaps

/-! ### The calls of the device -/

namespace Backend

variable {d : Backend} {s : Mmaps}

/-- The table of a device that is told of the mappings is the table of the run of its calls. -/
theorem dmaMap_dma (iova size : UInt64) (host : Option Nat) (h : d.dma = s.table) :
    (d.dmaMap iova size host).dma = (s.map iova size host).table := by
  unfold dmaMap Mmaps.map
  cases host with
  | none => exact h
  | some host =>
    by_cases hsize : size = 0
    · simp only [DmaTable.map, if_pos hsize]
      exact h
    · simp only [if_neg hsize]
      show d.dma.map iova size host = _
      rw [h]

theorem dmaUnmap_dma (iova : UInt64) (h : d.dma = s.table) : (d.dmaUnmap iova).dma = (s.unmap iova).table := by
  show d.dma.unmap iova = s.table.unmap iova
  rw [h]

theorem dmaUnmapAll_dma (s : Mmaps) : d.dmaUnmapAll.dma = s.clear.table := (Mmaps.clear_table s).symm

end Backend

end Infinigpu
