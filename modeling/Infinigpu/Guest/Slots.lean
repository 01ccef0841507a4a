import Infinigpu.Guest.Descriptor

/-!
# What a table of slots holds after many writes

A binding gets a slot with its first write, if there is room then, and never later: what was full stays full. So the
table after any writes is told by the bindings in the order of their first use, and by the writes to each of them.
-/

namespace Infinigpu.Icd.Slots

variable {α : Type} {max : Nat}

def keys (s : Slots α max) : List UInt32 := s.entries.map Prod.fst

def get (s : Slots α max) (k : UInt32) : Option α := s.entries.lookup k

/-- The bindings that have a slot after `used` were used, `held` being those that have one before. -/
def taken (max : Nat) : List UInt32 → List UInt32 → List UInt32
  | held, [] => held
  | held, b :: used => if b ∈ held ∨ max ≤ held.length then taken max held used else taken max (held ++ [b]) used

/-- Writes one after the other, each to its binding. -/
def writeAll (s : Slots α max) (fresh : α) (ups : List (UInt32 × (α → α))) : Slots α max :=
  ups.foldl (fun s u => s.write u.1 fresh u.2) s

/-- What the writes to one binding make of a value. -/
def writtenAt (k : UInt32) (ups : List (UInt32 × (α → α))) (v : α) : α :=
  ups.foldl (fun v u => if u.1 = k then u.2 v else v) v

variable {s : Slots α max} {k b : UInt32} {fresh : α} {f : α → α}

theorem keys_length (s : Slots α max) : s.keys.length = s.entries.length := List.length_map ..

private theorem get_isSome_iff : (s.get k).isSome ↔ k ∈ s.keys := by
  rw [get, List.lookup_isSome_iff, keys, List.mem_map]
  constructor
  · rintro ⟨e, he, hk⟩
    exact ⟨e, he, (beq_iff_eq.mp hk).symm⟩
  · rintro ⟨e, he, hk⟩
    exact ⟨e, he, beq_iff_eq.mpr hk.symm⟩

private theorem get_eq_none_iff : s.get k = none ↔ k ∉ s.keys := by
  rw [← get_isSome_iff, Option.not_isSome_iff_eq_none]

/-- The entries are what is got. -/
theorem mem_entries_iff {v : α} : (k, v) ∈ s.entries ↔ s.get k = some v := by
  have hnodup := s.nodup
  unfold get
  generalize s.entries = es at hnodup ⊢
  induction es with
  | nil => simp
  | cons e es ih =>
    obtain ⟨b, w⟩ := e
    rw [List.map_cons, List.nodup_cons] at hnodup
    rw [List.lookup_cons, List.mem_cons, Prod.mk.injEq]
    by_cases hb : k = b
    · subst hb
      have hnot : (k, v) ∉ es := fun h => hnodup.1 (List.mem_map.mpr ⟨_, h, rfl⟩)
      simp only [true_and, hnot, or_false, BEq.rfl, Option.some_inj]
      exact eq_comm
    · have hne : (k == b) = false := beq_eq_false_iff_ne.mpr hb
      simp only [hb, false_and, false_or, hne]
      exact ih hnodup.2

/-! ### One write -/

/-- The write of an entry that is there. -/
private theorem lookup_map_write (es : List (UInt32 × α)) (k b : UInt32) (f : α → α) :
    (es.map fun e => if e.1 = b then (e.1, f e.2) else e).lookup k =
      (es.lookup k).map fun v => if k = b then f v else v := by
  induction es with
  | nil => rfl
  | cons e es ih =>
    obtain ⟨c, w⟩ := e
    rw [List.map_cons]
    by_cases hc : k = c
    · subst hc
      by_cases hb : k = b
      · simp [hb]
      · simp [hb]
    · have hne : (k == c) = false := beq_eq_false_iff_ne.mpr hc
      by_cases hb : c = b
      · simp only [hb, if_true, List.lookup_cons]
        rw [← hb, hne]
        rw [← hb] at ih
        exact ih
      · simp only [hb, if_false, List.lookup_cons, hne]
        exact ih

private theorem keys_write : (s.write b fresh f).keys = taken max s.keys [b] := by
  unfold write taken
  by_cases hold : b ∈ s.entries.map Prod.fst
  · have hheld : b ∈ s.keys ∨ max ≤ s.keys.length := Or.inl hold
    rw [dif_pos hold, if_pos hheld, taken, keys, keys, List.map_map]
    refine List.map_congr_left fun e _ => ?_
    by_cases he : e.1 = b
    · simp [he]
    · simp [he]
  · by_cases hroom : s.entries.length < max
    · have hfree : ¬ (b ∈ s.keys ∨ max ≤ s.keys.length) := by
        rw [keys_length, not_or, Nat.not_le]
        exact ⟨hold, hroom⟩
      rw [dif_neg hold, dif_pos hroom, if_neg hfree, taken, keys, keys, List.map_append]
      rfl
    · have hfull : b ∈ s.keys ∨ max ≤ s.keys.length := by
        rw [keys_length]
        exact Or.inr (Nat.le_of_not_lt hroom)
      rw [dif_neg hold, dif_neg hroom, if_pos hfull, taken]

private theorem get_write_other (h : k ≠ b) : (s.write b fresh f).get k = s.get k := by
  unfold write get
  by_cases hold : b ∈ s.entries.map Prod.fst
  · rw [dif_pos hold, lookup_map_write]
    simp [h]
  · by_cases hroom : s.entries.length < max
    · have hne : (k == b) = false := beq_eq_false_iff_ne.mpr h
      rw [dif_neg hold, dif_pos hroom, List.lookup_append, List.lookup_cons, hne, List.lookup_nil]
      exact Option.or_none
    · rw [dif_neg hold, dif_neg hroom]

private theorem get_write_self (h : b ∈ s.keys ∨ s.keys.length < max) :
    (s.write b fresh f).get b = some (f ((s.get b).getD fresh)) := by
  by_cases hold : b ∈ s.entries.map Prod.fst
  · obtain ⟨v, hv⟩ := Option.isSome_iff_exists.mp (get_isSome_iff.mpr hold)
    rw [hv]
    unfold get at hv
    unfold write get
    rw [dif_pos hold, lookup_map_write, hv]
    simp
  · have hroom : s.entries.length < max := by
      rw [keys_length] at h
      exact h.resolve_left hold
    have hnone : s.get b = none := get_eq_none_iff.mpr hold
    rw [hnone]
    unfold get at hnone
    unfold write get
    rw [dif_neg hold, dif_pos hroom, List.lookup_append, hnone]
    simp

/-! ### All writes -/

/-- A full table takes nothing more. -/
private theorem taken_full {held used : List UInt32} (h : max ≤ held.length) : taken max held used = held := by
  induction used with
  | nil => rfl
  | cons b used ih => rw [taken, if_pos (Or.inr h), ih]

private theorem taken_cons (held : List UInt32) (b : UInt32) (used : List UInt32) :
    taken max held (b :: used) = taken max (taken max held [b]) used := by
  rw [taken, taken]
  split
  · rw [taken]
  · rw [taken]

/-- A binding that has a slot has in it what all writes to it have made of what was there. -/
theorem get_writeAll (s : Slots α max) (fresh : α) (ups : List (UInt32 × (α → α))) (k : UInt32) :
    (s.writeAll fresh ups).get k =
      if k ∈ taken max s.keys (ups.map Prod.fst) then some (writtenAt k ups ((s.get k).getD fresh)) else none := by
  induction ups generalizing s with
  | nil =>
    change s.get k = if k ∈ s.keys then some ((s.get k).getD fresh) else none
    by_cases hk : k ∈ s.keys
    · obtain ⟨v, hv⟩ := Option.isSome_iff_exists.mp (get_isSome_iff.mpr hk)
      rw [if_pos hk, hv]
      rfl
    · rw [if_neg hk]
      exact get_eq_none_iff.mpr hk
  | cons u ups ih =>
    obtain ⟨b, f⟩ := u
    have hrest := ih (s.write b fresh f)
    rw [keys_write] at hrest
    rw [List.map_cons, taken_cons]
    refine hrest.trans ?_
    by_cases hk : k ∈ taken max (taken max s.keys [b]) (ups.map Prod.fst)
    · rw [if_pos hk, if_pos hk, Option.some_inj]
      have hcons : writtenAt k ((b, f) :: ups) ((s.get k).getD fresh) =
          writtenAt k ups (if b = k then f ((s.get k).getD fresh) else (s.get k).getD fresh) := rfl
      rw [hcons]
      by_cases hb : b = k
      · -- a write that found no room would have kept the binding out
        have hroom : b ∈ s.keys ∨ s.keys.length < max := by
          by_contra hno
          rw [not_or, Nat.not_lt] at hno
          rw [taken_full hno.2, taken_full hno.2, ← hb] at hk
          exact hno.1 hk
        rw [if_pos hb, ← hb, get_write_self hroom, Option.getD_some]
      · rw [if_neg hb, get_write_other (Ne.symm hb)]
    · rw [if_neg hk, if_neg hk]

end Infinigpu.Icd.Slots
