import Mathlib.Algebra.GroupWithZero.Nat
import Mathlib.Data.List.AList

/-!
# Totals over a keyed collection

A quantity summed over the entries of an association list changes by the entry that is put in or taken out
(`total_insert`, `total_erase`).  Counters kept beside a collection are such totals: a sum of amounts, a number of
entries that hold something, the number of entries.
-/

namespace Keyed

variable {K V : Type*} [DecidableEq K]

/-- The sum of `f` over the entries. -/
def total (f : V → Nat) (s : AList fun _ : K => V) : Nat := (s.entries.map fun e => f e.2).sum

variable {f : V → Nat} {s : AList fun _ : K => V} {a : K} {b : V}

theorem total_erase (h : s.lookup a = some b) : total f s = f b + total f (s.erase a) := by
  have hmem : a ∈ s.keys := AList.lookup_isSome.1 (by rw [h]; rfl)
  obtain ⟨b', l₁, l₂, hl₁, hs, herase⟩ := List.exists_of_kerase hmem
  have hb : b' = b := by
    have hlookup : s.lookup a = some b' := AList.mem_lookup_iff.2 (by rw [hs]; simp)
    rw [h] at hlookup
    exact (Option.some_inj.1 hlookup).symm
  have hentries : (s.erase a).entries = l₁ ++ l₂ := herase
  unfold total
  rw [hentries, hs, hb, List.map_append, List.map_append, List.map_cons, List.sum_append,
    List.sum_append, List.sum_cons]
  show _ + (f b + _) = _
  omega

theorem erase_of_lookup_none (h : s.lookup a = none) : s.erase a = s := by
  apply AList.ext
  exact List.kerase_of_notMem_keys (AList.lookup_eq_none.1 h)

theorem total_erase_le (f : V → Nat) (s : AList fun _ : K => V) (a : K) : total f (s.erase a) ≤ total f s := by
  cases h : s.lookup a with
  | none => rw [erase_of_lookup_none h]
  | some b =>
    rw [total_erase h]
    exact Nat.le_add_left _ _

theorem total_insert : total f (s.insert a b) = f b + total f (s.erase a) := by
  unfold total
  rw [AList.entries_insert, List.map_cons, List.sum_cons]; rfl

/-- A new entry. -/
theorem total_insert_new (h : s.lookup a = none) : total f (s.insert a b) = f b + total f s := by
  rw [total_insert, erase_of_lookup_none h]

/-- A changed entry. -/
theorem total_update (f : V → Nat) (b' : V) (h : s.lookup a = some b) :
    total f (s.insert a b') + f b = f b' + total f s := by
  rw [total_insert, total_erase h]
  omega

omit [DecidableEq K] in
theorem length_eq_total : s.entries.length = total (fun _ => 1) s := by
  simp only [total, List.map_const', List.sum_replicate_nat, Nat.mul_one]

omit [DecidableEq K] in
theorem total_le_total {f' : V → Nat} (h : ∀ v, f v ≤ f' v) : total f s ≤ total f' s := by
  unfold total
  induction s.entries with
  | nil => exact Nat.le_refl _
  | cons e l ih =>
    rw [List.map_cons, List.map_cons, List.sum_cons, List.sum_cons]
    exact Nat.add_le_add (h e.2) ih

theorem le_total (f : V → Nat) (h : s.lookup a = some b) : f b ≤ total f s := by
  rw [total_erase h]
  omega

/-- Changing an entry in a way that keeps `f` keeps the total. -/
theorem total_update_same {b' : V} (h : s.lookup a = some b) (hf : f b' = f b) :
    total f (s.insert a b') = total f s := by
  have := total_update f b' h
  omega

theorem length_update {b' : V} (h : s.lookup a = some b) : (s.insert a b').entries.length = s.entries.length := by
  rw [length_eq_total, length_eq_total]
  exact total_update_same h rfl

theorem length_insert_new (h : s.lookup a = none) : (s.insert a b).entries.length = s.entries.length + 1 := by
  rw [length_eq_total, length_eq_total, total_insert_new h, Nat.add_comm]

theorem length_erase (h : s.lookup a = some b) : s.entries.length = (s.erase a).entries.length + 1 := by
  rw [length_eq_total, length_eq_total, total_erase h, Nat.add_comm]

end Keyed
