import Infinigpu.Lib.Keyed
import Mathlib.Data.List.Count
import Mathlib.Data.List.Perm.Basic

/-!
# Handles held by key

Handles are made one after another and numbered in that order.  Each is put under a key, and releasing a key releases
the handle under it.  Putting a handle under a key that holds one silently forgets the old one, so every handle is
released or held exactly once (`Exact`) as long as no key is taken when a handle is put under it
(`exact_acquire_iff`); when nothing is held any more, every handle has been released exactly once
(`Exact.released_perm`).
-/

structure Holdings (K : Type*) where
  held : AList fun _ : K => Nat
  made : Nat
  released : List Nat

namespace Holdings

variable {K : Type*} [DecidableEq K]

def new : Holdings K where
  held := ∅
  made := 0
  released := []

/-- Makes a handle and puts it under `k`. -/
def acquire (k : K) (h : Holdings K) : Holdings K :=
  { h with held := h.held.insert k h.made, made := h.made + 1 }

/-- Releases the handle under `k`, if there is one. -/
def release (k : K) (h : Holdings K) : Holdings K :=
  { h with held := h.held.erase k, released := h.released ++ (h.held.lookup k).toList }

omit [DecidableEq K] in
/-- How often the handle `n` is held. -/
def holds (n : Nat) (h : Holdings K) : Nat := Keyed.total (fun m => if m = n then 1 else 0) h.held

/-- Every handle that was made is either released or held, and that once. -/
def Exact (h : Holdings K) : Prop := ∀ n, h.released.count n + h.holds n = if n < h.made then 1 else 0

variable {h : Holdings K} {k : K}

omit [DecidableEq K] in
theorem exact_new : (new : Holdings K).Exact := fun _ => rfl

theorem holds_release (n : Nat) :
    h.holds n = (h.held.lookup k).toList.count n + (h.release k).holds n := by
  unfold holds release
  cases hk : h.held.lookup k with
  | none => rw [Keyed.erase_of_lookup_none hk, Option.toList_none, List.count_nil, Nat.zero_add]
  | some m =>
    rw [Keyed.total_erase hk, Option.toList_some, List.count_singleton]
    simp only [beq_iff_eq]

theorem Exact.release (hh : h.Exact) (k : K) : (h.release k).Exact := by
  intro n
  have hn := hh n
  rw [holds_release (k := k)] at hn
  show (h.released ++ (h.held.lookup k).toList).count n + _ = if n < h.made then 1 else 0
  rw [List.count_append]
  omega

omit [DecidableEq K] in
/-- When nothing is held any more, every handle has been released exactly once. -/
theorem Exact.released_perm (hh : h.Exact) (hempty : h.held = ∅) : h.released.Perm (List.range h.made) := by
  rw [List.perm_iff_count]
  intro n
  have hn := hh n
  have hnone : h.holds n = 0 := by
    unfold holds
    rw [hempty]
    rfl
  rw [hnone, Nat.add_zero] at hn
  rw [hn]
  by_cases hlt : n < h.made
  · rw [if_pos hlt, List.count_eq_one_of_mem List.nodup_range (List.mem_range.2 hlt)]
  · rw [if_neg hlt, List.count_eq_zero_of_not_mem (by rw [List.mem_range]; exact hlt)]

/-- A handle that is held was made. -/
theorem Exact.lt_made (hh : h.Exact) {n : Nat} (hn : h.held.lookup k = some n) : n < h.made := by
  have hle := Keyed.le_total (fun m => if m = n then 1 else 0) hn
  have hcount := hh n
  by_contra hge
  rw [if_neg hge] at hcount
  simp only [if_true] at hle
  unfold holds at hcount
  omega

/-- Handles stay accounted for exactly if the key was free. -/
theorem exact_acquire_iff (hh : h.Exact) : (h.acquire k).Exact ↔ h.held.lookup k = none := by
  have hholds : ∀ n, (h.acquire k).holds n = (if h.made = n then 1 else 0) + (h.release k).holds n := fun n =>
    Keyed.total_insert
  constructor
  · intro hnew
    by_contra hsome
    obtain ⟨m, hm⟩ := Option.ne_none_iff_exists'.1 hsome
    have hlt := hh.lt_made hm
    have hold := hh m
    have hnew' := hnew m
    rw [holds_release (k := k), hm, Option.toList_some, List.count_singleton_self, if_pos hlt] at hold
    rw [hholds, if_neg (by omega)] at hnew'
    have hmade : m < (h.acquire k).made := Nat.lt_succ_of_lt hlt
    rw [if_pos hmade] at hnew'
    have hreleased : (h.acquire k).released = h.released := rfl
    rw [hreleased] at hnew'
    omega
  · intro hnone n
    have hn := hh n
    have hsame : (h.release k).holds n = h.holds n := by
      have hsplit := holds_release (h := h) (k := k) n
      rw [hnone, Option.toList_none, List.count_nil, Nat.zero_add] at hsplit
      exact hsplit.symm
    show h.released.count n + (h.acquire k).holds n = if n < h.made + 1 then 1 else 0
    rw [hholds, hsame]
    by_cases heq : h.made = n
    · subst heq
      rw [if_neg (Nat.lt_irrefl _)] at hn
      rw [if_pos rfl, if_pos (Nat.lt_succ_self _)]
      omega
    · rw [if_neg heq]
      by_cases hlt : n < h.made
      · rw [if_pos hlt] at hn
        rw [if_pos (by omega)]
        omega
      · rw [if_neg hlt] at hn
        rw [if_neg (by omega)]
        omega

end Holdings
