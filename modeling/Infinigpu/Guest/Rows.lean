import Infinigpu.Guest.InOrder

/-!
# Blocks of rows

Clears, frames and image copies store one row of an image or a buffer after another.  Rows that are no longer than
they are apart do not meet, so each byte of the block is what its own row stores (`runAll_rows`), and no other byte
changes (`runAll_rows_frame`).
-/

namespace Infinigpu.Icd

open Footprint

namespace Ptr

@[simp] theorem add_handle (p : Ptr) (n : Nat) : (p.add n).handle = p.handle := rfl

@[simp] theorem add_at (p : Ptr) (n : Nat) : (p.add n).at_ = p.at_ + n := rfl

theorem add_add (p : Ptr) (m n : Nat) : (p.add m).add n = p.add (m + n) := by
  simp only [add, Nat.add_assoc]

/-- The byte at an offset. -/
def loc (p : Ptr) (k : Nat) : Loc := (p.handle, p.at_ + k)

theorem loc_mem_span {p : Ptr} {k n : Nat} (h : k < n) : p.loc k ∈ p.span n :=
  ⟨rfl, Nat.le_add_right _ _, Nat.add_lt_add_left h _⟩

theorem mem_span_iff {p : Ptr} {n : Nat} {l : Loc} : l ∈ p.span n ↔ ∃ k < n, l = p.loc k := by
  constructor
  · rintro ⟨hhandle, hlow, hhigh⟩
    refine ⟨l.2 - p.at_, by omega, Prod.ext hhandle ?_⟩
    change l.2 = p.at_ + (l.2 - p.at_)
    omega
  · rintro ⟨k, hk, rfl⟩
    exact loc_mem_span hk

theorem get_store {maps : Maps} {p : Ptr} {bs : List UInt8} {k : Nat} (h : k < bs.length) :
    (p.store maps bs).get (p.loc k) = bs.get ⟨k, h⟩ := by
  unfold Maps.get store loc
  rw [Function.update_self]
  exact Memory.store_add h

/-- What lies behind a pointer is known from its bytes. -/
theorem load_eq_iff {maps : Maps} {p : Ptr} {bs : List UInt8} :
    (maps p.handle).load p.at_ bs.length = bs ↔ ∀ k (h : k < bs.length), maps.get (p.loc k) = bs.get ⟨k, h⟩ := by
  constructor
  · intro h k hk
    have hat := congrArg (·[k]?) h
    simp only [Memory.getElem?_load, if_pos hk, List.getElem?_eq_getElem hk, Option.some_inj] at hat
    exact hat
  · intro h
    refine List.ext_getElem (Memory.load_length _ _ _) fun k hk hk' => ?_
    rw [List.getElem_eq_iff, Memory.getElem?_load, if_pos hk', Option.some_inj]
    exact h k hk'

end Ptr

/-! ### Rows -/

section Rows

variable {p : Ptr} {pitch n h : Nat}

/-- Rows that are no longer than they are apart do not meet. -/
private theorem disjoint_rows (hn : n ≤ pitch) {y y' : Nat} (hne : y ≠ y') :
    Disjoint ((p.add (y * pitch)).span n) ((p.add (y' * pitch)).span n) := by
  refine Set.disjoint_left.2 ?_
  rintro l ⟨-, hlow, hhigh⟩ ⟨-, hlow', hhigh'⟩
  rw [Ptr.add_at] at hlow hhigh hlow' hhigh'
  rcases Nat.lt_or_gt_of_ne hne with hlt | hgt
  · have hnext : (y + 1) * pitch ≤ y' * pitch := Nat.mul_le_mul_right _ hlt
    rw [Nat.succ_mul] at hnext
    omega
  · have hnext : (y' + 1) * pitch ≤ y * pitch := Nat.mul_le_mul_right _ hgt
    rw [Nat.succ_mul] at hnext
    omega

variable (op : Nat → Op)

/-- Every byte of a block of rows is what its row stores. -/
theorem runAll_rows (hwrites : ∀ y < h, (op y).action.writes ⊆ (p.add (y * pitch)).span n) (hn : n ≤ pitch)
    (hreads : ∀ y < h, ∀ y' < h, Disjoint ((p.add (y * pitch)).span n) (op y').action.reads) {y : Nat} (hy : y < h)
    {l : Loc} (hl : l ∈ (op y).action.writes) (maps : Maps) :
    (Op.runAll maps ((List.range h).map op)).get l = ((op y).run maps).get l := by
  have hindep : ((List.range h).map op).Pairwise fun a b => Independent a.action b.action := by
    rw [List.pairwise_map]
    refine List.Pairwise.imp_of_mem ?_ (List.pairwise_lt_range (n := h))
    intro a b ha hb hlt
    rw [List.mem_range] at ha hb
    exact
      { writes := (disjoint_rows hn (Nat.ne_of_lt hlt)).mono (hwrites a ha) (hwrites b hb)
        left := (hreads a ha b hb).mono_left (hwrites a ha)
        right := (hreads b hb a ha).mono_left (hwrites b hb) }
  have hmem : op y ∈ (List.range h).map op := List.mem_map_of_mem (List.mem_range.2 hy)
  rw [Op.runAll_eq, runAll_written hindep hmem hl]
  cases op y with
  | memcpy dst src n => rfl
  | store dst bs => rfl

/-- Bytes outside the block stay. -/
theorem runAll_rows_frame {l : Loc} (hl : ∀ y < h, l ∉ (op y).action.writes) (maps : Maps) :
    (Op.runAll maps ((List.range h).map op)).get l = maps.get l := by
  rw [Op.runAll_eq]
  refine runAll_frame _ (fun a ha => ?_) maps
  obtain ⟨y, hy, rfl⟩ := List.mem_map.1 ha
  exact hl y (List.mem_range.1 hy)

/-- A block of rows of given bytes. -/
theorem runAll_rows_store {row : Nat → List UInt8} (hrow : ∀ y < h, (row y).length ≤ pitch) {y k : Nat} (hy : y < h)
    (hk : k < (row y).length) (maps : Maps) :
    (Op.runAll maps ((List.range h).map fun y => .store (p.add (y * pitch)) (row y))).get
      ((p.add (y * pitch)).loc k) =
      (row y).get ⟨k, hk⟩ := by
  have hwrites : ∀ y < h, (Op.store (p.add (y * pitch)) (row y)).action.writes ⊆ (p.add (y * pitch)).span pitch := by
    rintro y hy l ⟨hhandle, hlow, hhigh⟩
    exact ⟨hhandle, hlow, Nat.lt_of_lt_of_le hhigh (Nat.add_le_add_left (hrow y hy) _)⟩
  rw [runAll_rows (fun y => .store (p.add (y * pitch)) (row y)) hwrites (Nat.le_refl _)
    (fun _ _ _ _ => Set.disjoint_empty _) hy (Ptr.loc_mem_span hk) maps]
  exact Ptr.get_store hk

theorem get_memcpy {maps : Maps} {dst src : Ptr} {k : Nat} (hk : k < n) :
    ((Op.memcpy dst src n).run maps).get (dst.loc k) = maps.get (src.loc k) := by
  have hlen : k < ((maps src.handle).load src.at_ n).length := by rw [Memory.load_length]; exact hk
  have hget : ((maps src.handle).load src.at_ n).get ⟨k, hlen⟩ = maps.get (src.loc k) := by
    rw [List.get_eq_getElem, List.getElem_eq_iff, Memory.getElem?_load, if_pos hk]
    rfl
  exact (Ptr.get_store hlen).trans hget

/-- A block of rows that is copied moves its bytes and nothing else, if it does not meet where it is copied from. -/
theorem runAll_rows_moved {src : Nat → Ptr} (hn : n ≤ pitch)
    (happart : ∀ y < h, ∀ y' < h, Disjoint ((p.add (y * pitch)).span n) ((src y').span n)) (maps : Maps) :
    Moved Maps.get (fun d x => ∃ y < h, ∃ j < n, d = (p.add (y * pitch)).loc j ∧ x = (src y).loc j) maps
      (Op.runAll maps ((List.range h).map fun y => .memcpy (p.add (y * pitch)) (src y) n)) where
  moved := by
    rintro d x ⟨y, hy, j, hj, rfl, rfl⟩
    rw [runAll_rows (fun y => .memcpy (p.add (y * pitch)) (src y) n) (fun _ _ => subset_rfl) hn happart hy
      (Ptr.loc_mem_span hj) maps]
    exact get_memcpy hj
  kept := by
    intro l hl
    refine runAll_rows_frame (fun y => .memcpy (p.add (y * pitch)) (src y) n) (fun y hy hmem => ?_) maps
    obtain ⟨j, hj, rfl⟩ := Ptr.mem_span_iff.1 hmem
    exact hl ((src y).loc j) ⟨y, hy, j, hj, rfl, rfl⟩

end Rows

end Infinigpu.Icd
