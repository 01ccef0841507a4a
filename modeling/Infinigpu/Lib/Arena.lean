import Mathlib.Data.List.AList

/-!
# Objects behind handles

An arena numbers the objects that are made in it, and a handle keeps its number until its object is freed, after which
it names nothing: handles are not used again.  So what a handle names is never changed by making other objects
(`Keeps.alloc`) nor by freeing objects made later (`Keeps.free_new`).

A cache maps keys to handles that it owns.  `Backs` says that they all name objects that fit their keys; it is kept as
long as what the handles name is kept (`Backs.keeps`), and by putting in a handle of a fitting object
(`Backs.insert`).  `Owners` says that a list has every live handle, and each once: what is made goes into the list
(`Owners.alloc`), what is freed leaves it (`Owners.freeAll`).
-/

structure Arena (α : Type*) where
  made : Nat
  live : Nat → Option α
  fresh : ∀ n, made ≤ n → live n = none

namespace Arena

variable {α : Type*}

def new : Arena α where
  made := 0
  live _ := none
  fresh _ _ := rfl

/-- Makes an object, whose handle is `s.made`. -/
def alloc (a : α) (s : Arena α) : Arena α where
  made := s.made + 1
  live n := if n = s.made then some a else s.live n
  fresh n hn := by
    rw [if_neg (by omega)]
    exact s.fresh n (by omega)

def free (n : Nat) (s : Arena α) : Arena α where
  made := s.made
  live m := if m = n then none else s.live m
  fresh m hm := by rw [s.fresh m hm, ite_self]

variable {s s' t : Arena α} {n : Nat} {a b : α}

theorem live_alloc (a : α) (s : Arena α) : (s.alloc a).live s.made = some a := if_pos rfl

theorem lt_made (h : s.live n = some a) : n < s.made := by
  by_contra hge
  rw [s.fresh n (by omega)] at h
  cases h

theorem live_alloc_of_live (h : s.live n = some b) (a : α) : (s.alloc a).live n = some b := by
  have hlt := lt_made h
  show (if n = s.made then some a else s.live n) = some b
  rw [if_neg (by omega), h]

theorem live_free_self : (s.free n).live n = none := if_pos rfl

theorem live_free_of_ne {m : Nat} (h : m ≠ n) : (s.free n).live m = s.live m := if_neg h

/-- What is live in `s` is in `t`, which was made from it. -/
structure Keeps (s t : Arena α) : Prop where
  made_le : s.made ≤ t.made
  live : ∀ n a, s.live n = some a → t.live n = some a

theorem Keeps.refl (s : Arena α) : Keeps s s := ⟨Nat.le_refl _, fun _ _ h => h⟩

theorem Keeps.trans (h : Keeps s s') (h' : Keeps s' t) : Keeps s t where
  made_le := Nat.le_trans h.made_le h'.made_le
  live n a hn := h'.live n a (h.live n a hn)

theorem Keeps.alloc (h : Keeps s t) (a : α) : Keeps s (t.alloc a) where
  made_le := Nat.le_succ_of_le h.made_le
  live n b hn := live_alloc_of_live (h.live n b hn) a

/-- Freeing an object that was made later. -/
theorem Keeps.free_new (h : Keeps s t) (hn : s.made ≤ n) : Keeps s (t.free n) where
  made_le := h.made_le
  live m b hm := by
    have hlt := lt_made hm
    rw [live_free_of_ne (by omega)]
    exact h.live m b hm

/-! ### Caches -/

variable {K V : Type*} [DecidableEq K] {f : V → Nat} {R : K → α → Prop} {map : AList fun _ : K => V}

/-- The handles in the map name objects that fit their keys. -/
def Backs (f : V → Nat) (R : K → α → Prop) (map : AList fun _ : K => V) (s : Arena α) : Prop :=
  ∀ k v, map.lookup k = some v → ∃ a, s.live (f v) = some a ∧ R k a

theorem backs_empty : Backs f R (∅ : AList fun _ : K => V) s := fun _ _ h => by cases h

theorem Backs.keeps (h : Backs f R map s) (hk : Keeps s t) : Backs f R map t := by
  intro k v hv
  obtain ⟨a, ha, hR⟩ := h k v hv
  exact ⟨a, hk.live _ a ha, hR⟩

theorem Backs.insert {k : K} {v : V} (h : Backs f R map s) (ha : s.live (f v) = some a) (hR : R k a) :
    Backs f R (map.insert k v) s := by
  intro k' v' hv'
  by_cases hk : k' = k
  · subst hk
    rw [AList.lookup_insert, Option.some_inj] at hv'
    subst hv'
    exact ⟨a, ha, hR⟩
  · rw [AList.lookup_insert_ne hk] at hv'
    exact h k' v' hv'

/-! ### Owners -/

/-- The live handles are those in the list, which has each of them once. -/
structure Owners (l : List Nat) (s : Arena α) : Prop where
  nodup : l.Nodup
  live_iff : ∀ n, (s.live n).isSome ↔ n ∈ l

variable {l l' ns : List Nat}

theorem owners_new : Owners [] (new : Arena α) where
  nodup := List.nodup_nil
  live_iff _ := iff_of_false Bool.false_ne_true List.not_mem_nil

theorem Owners.perm (h : Owners l s) (hperm : l.Perm l') : Owners l' s where
  nodup := hperm.nodup_iff.1 h.nodup
  live_iff n := (h.live_iff n).trans hperm.mem_iff

theorem Owners.alloc (h : Owners l s) (a : α) : Owners (s.made :: l) (s.alloc a) where
  nodup := by
    refine List.nodup_cons.2 ⟨fun hmem => ?_, h.nodup⟩
    obtain ⟨b, hb⟩ := Option.isSome_iff_exists.1 ((h.live_iff _).2 hmem)
    exact Nat.lt_irrefl _ (lt_made hb)
  live_iff n := by
    rw [List.mem_cons, ← h.live_iff]
    by_cases hn : n = s.made
    · rw [hn, live_alloc]
      exact iff_of_true rfl (.inl rfl)
    · rw [or_iff_right hn]
      show (if n = s.made then some a else s.live n).isSome ↔ _
      rw [if_neg hn]

theorem Owners.free (h : Owners (n :: l) s) : Owners l (s.free n) where
  nodup := (List.nodup_cons.1 h.nodup).2
  live_iff m := by
    by_cases hm : m = n
    · rw [hm, live_free_self]
      exact iff_of_false Bool.false_ne_true (List.nodup_cons.1 h.nodup).1
    · rw [live_free_of_ne hm, h.live_iff, List.mem_cons, or_iff_right hm]

def freeAll (ns : List Nat) (s : Arena α) : Arena α := ns.foldl (fun s n => s.free n) s

theorem live_freeAll_of_notMem (h : n ∉ ns) : (s.freeAll ns).live n = s.live n := by
  induction ns generalizing s with
  | nil => rfl
  | cons m ns ih =>
    rw [List.mem_cons, not_or] at h
    exact (ih h.2).trans (live_free_of_ne h.1)

theorem Owners.freeAll (h : Owners (ns ++ l) s) : Owners l (s.freeAll ns) := by
  induction ns generalizing s with
  | nil => exact h
  | cons n ns ih => exact ih h.free

/-- Freeing objects that were made later. -/
theorem Keeps.freeAll_new (h : Keeps s t) (hns : ∀ n ∈ ns, s.made ≤ n) : Keeps s (t.freeAll ns) := by
  induction ns generalizing t with
  | nil => exact h
  | cons n ns ih =>
    exact ih (h.free_new (hns n List.mem_cons_self)) fun m hm => hns m (List.mem_cons_of_mem n hm)

end Arena
