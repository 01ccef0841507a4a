import Infinigpu.Lib.Bytes
import Infinigpu.Ring.Basic
import Mathlib.Data.List.AList

/-!
# Guest memory and the DMA table (`infinigpu-device`, `dma.rs` and `drain.rs`)

Guest memory is a flat byte memory; a host pointer is an address in it.  A table maps intervals of guest addresses
to host addresses, and every access is resolved inside one interval or refused.

`sharedRing` is the ring over the index page and the descriptor array of a guest: the loads and stores of its two
ends are loads and stores of guest memory.  It is a lawful ring as long as the two areas do not overlap
(`sharedRing_lawful`).
-/

namespace Infinigpu

structure Mapping where
  size : UInt64
  host : Nat
deriving DecidableEq, Repr

/-- The mapped intervals, by the guest address they start at. -/
structure DmaTable where
  maps : AList fun _ : UInt64 => Mapping

namespace DmaTable

def new : DmaTable where
  maps := ∅

/-- `map`, once the file is mapped at `host`. -/
def map (iova size : UInt64) (host : Nat) (t : DmaTable) : DmaTable :=
  if size = 0 then t else { maps := t.maps.insert iova { size, host } }

def unmap (iova : UInt64) (t : DmaTable) : DmaTable := { maps := t.maps.erase iova }

def clear (_ : DmaTable) : DmaTable := new

/-- The interval with the greatest start that is not above `addr` (`range(..=addr).next_back()`). -/
def nextBack (addr : UInt64) (t : DmaTable) : Option (UInt64 × Mapping) :=
  ((t.maps.keys.filter (· ≤ addr)).max?).bind fun base => (t.maps.lookup base).map fun m => (base, m)

/-- The host address of a block that lies inside one interval. -/
def resolve (addr : UInt64) (len : Nat) (t : DmaTable) : Option Nat :=
  match t.nextBack addr with
  | none => none
  | some (base, m) =>
    let stop := addr.toNat + len
    let limit := base.toNat + m.size.toNat
    -- the two `checked_add`
    if stop < 2 ^ 64 ∧ limit < 2 ^ 64 ∧ stop ≤ limit then some (m.host + (addr - base).toNat) else none

/-- Copies `len` bytes from guest memory at `addr`. -/
def read (addr : UInt64) (len : Nat) (mem : Memory) (t : DmaTable) : Option (List UInt8) :=
  (t.resolve addr len).map fun p => mem.load p len

/-- Copies bytes into guest memory at `addr`. -/
def write (addr : UInt64) (buf : List UInt8) (mem : Memory) (t : DmaTable) : Bool × Memory :=
  match t.resolve addr buf.length with
  | some p => (true, mem.store p buf)
  | none => (false, mem)

theorem read_length {addr : UInt64} {len : Nat} {mem : Memory} {t : DmaTable} {bs : List UInt8}
    (h : t.read addr len mem = some bs) : bs.length = len := by
  obtain ⟨p, -, rfl⟩ := Option.map_eq_some_iff.1 h
  exact Memory.load_length _ _ _

/-- The mapped intervals do not overlap. -/
def Disjoint (t : DmaTable) : Prop :=
  ∀ e ∈ t.maps.entries, ∀ e' ∈ t.maps.entries, e.1 < e'.1 → e.1.toNat + e.2.size.toNat ≤ e'.1.toNat

instance (t : DmaTable) : Decidable t.Disjoint := by unfold Disjoint; infer_instance

instance : Std.LawfulOrderMax UInt64 where
  max_eq_or a b := by
    show (if a ≤ b then b else a) = a ∨ (if a ≤ b then b else a) = b
    split
    · exact .inr rfl
    · exact .inl rfl
  max_le_iff a b c := by
    show (if a ≤ b then b else a) ≤ c ↔ a ≤ c ∧ b ≤ c
    split <;> simp only [UInt64.le_iff_toNat_le] at * <;> omega

theorem nextBack_eq_some_iff {addr base : UInt64} {m : Mapping} {t : DmaTable} :
    t.nextBack addr = some (base, m) ↔
      ⟨base, m⟩ ∈ t.maps.entries ∧ base ≤ addr ∧ ∀ b ∈ t.maps.keys, b ≤ addr → b ≤ base := by
  simp only [nextBack, Option.bind_eq_some_iff, Option.map_eq_some_iff, Prod.mk.injEq, List.max?_eq_some_iff,
    List.mem_filter, decide_eq_true_eq, and_imp]
  constructor
  · rintro ⟨_, ⟨⟨-, hle⟩, hmax⟩, _, hlookup, rfl, rfl⟩
    exact ⟨AList.mem_lookup_iff.1 hlookup, hle, hmax⟩
  · rintro ⟨hmem, hle, hmax⟩
    have hlookup := AList.mem_lookup_iff.2 hmem
    refine ⟨base, ⟨⟨?_, hle⟩, hmax⟩, m, hlookup, rfl, rfl⟩
    rw [← AList.mem_keys, ← AList.lookup_isSome, hlookup]
    rfl

/-- A part of a block that resolves resolves to that part of the memory, when no interval starts inside another. -/
theorem resolve_add {t : DmaTable} (ht : t.Disjoint) {addr : UInt64} {len p i k : Nat}
    (h : t.resolve addr len = some p) (hk : 0 < k) (hi : i + k ≤ len) :
    t.resolve (addr + UInt64.ofNat i) k = some (p + i) := by
  simp only [resolve] at h
  split at h
  · cases h
  · rename_i base m hback
    split at h
    · rename_i hfits
      rw [Option.some_inj] at h
      subst h
      obtain ⟨hmem, hle, hmax⟩ := nextBack_eq_some_iff.1 hback
      have haddr : (addr + UInt64.ofNat i).toNat = addr.toNat + i := by
        rw [UInt64.toNat_add, UInt64.toNat_ofNat']
        omega
      have hback' : t.nextBack (addr + UInt64.ofNat i) = some (base, m) := by
        rw [UInt64.le_iff_toNat_le] at hle
        refine nextBack_eq_some_iff.2 ⟨hmem, ?_, fun b hb hble => ?_⟩
        · rw [UInt64.le_iff_toNat_le, haddr]
          omega
        · by_contra hgt
          -- an interval that starts between the two addresses starts behind the end of this one
          obtain ⟨m', hm'⟩ := Option.isSome_iff_exists.1 (AList.lookup_isSome.2 (AList.mem_keys.2 hb))
          have hbehind := ht _ hmem _ (AList.mem_lookup_iff.1 hm') (UInt64.not_le.1 hgt)
          rw [UInt64.le_iff_toNat_le, haddr] at hble
          simp only at hbehind
          omega
      have hhost : (addr + UInt64.ofNat i - base).toNat = (addr - base).toNat + i := by
        rw [UInt64.le_iff_toNat_le] at hle
        rw [UInt64.toNat_sub_of_le _ _ (UInt64.le_iff_toNat_le.2 hle), UInt64.toNat_sub_of_le, haddr]
        · omega
        · rw [UInt64.le_iff_toNat_le, haddr]
          omega
      simp only [resolve, hback', haddr, hhost]
      rw [if_pos (by omega), Nat.add_assoc]
    · cases h

/-- The front of a block that resolves. -/
theorem resolve_le {t : DmaTable} {addr : UInt64} {len n p : Nat} (h : t.resolve addr len = some p) (hn : n ≤ len) :
    t.resolve addr n = some p := by
  unfold resolve at h ⊢
  cases hback : t.nextBack addr with
  | none =>
    rw [hback] at h
    cases h
  | some e =>
    simp only [hback] at h ⊢
    split at h
    · next hfits =>
      rw [if_pos (by omega)]
      exact h
    · cases h

end DmaTable

/-! ### The ring in guest memory -/

/-- Offsets of the index words in a `RingIndices` page. -/
def tailOffset : Nat := 0
def headOffset : Nat := 4
def seqnoSubmitOffset : Nat := 8
def seqnoRetiredOffset : Nat := 16
def statusOffset : Nat := 24

/-- The bytes of a `RingIndices` page and of a descriptor. -/
def indicesSize : Nat := 64
def descriptorSize : Nat := 32

/-- The index words on the page at `p`. -/
def Indices.fromPtr (mem : Memory) (p : Nat) : Indices where
  tail := Bytes.u32 (mem.load (p + tailOffset) 4)
  head := Bytes.u32 (mem.load (p + headOffset) 4)
  seqnoSubmit := Bytes.u64 (mem.load (p + seqnoSubmitOffset) 8)
  seqnoRetired := Bytes.u64 (mem.load (p + seqnoRetiredOffset) 8)
  status := Bytes.u32 (mem.load (p + statusOffset) 4)

/-- `ring_over_shared`: the ring view of the index page at `ip` and the descriptor array at `dp`. -/
def sharedRing (g : Geometry) (ip dp : Nat) : Store g descriptorSize UInt8 Memory where
  view mem :=
    { slots := fun i k => mem (dp + descriptorSize * i + k)
      idx := Indices.fromPtr mem ip }
  storeTail v mem := mem.store (ip + tailOffset) (Bytes.ofValue 4 v.toNat)
  storeHead v mem := mem.store (ip + headOffset) (Bytes.ofValue 4 v.toNat)
  storeSeqnoSubmit v mem := mem.store (ip + seqnoSubmitOffset) (Bytes.ofValue 8 v.toNat)
  storeSeqnoRetired v mem := mem.store (ip + seqnoRetiredOffset) (Bytes.ofValue 8 v.toNat)
  storeWord i k x mem := mem.store (dp + descriptorSize * i + k) [x]

/-- An address of the index page or of the descriptor array. -/
def OnRing (g : Geometry) (ip dp a : Nat) : Prop :=
  (ip ≤ a ∧ a < ip + indicesSize) ∨ (dp ≤ a ∧ a < dp + descriptorSize * g.slots)

instance (g : Geometry) (ip dp a : Nat) : Decidable (OnRing g ip dp a) := by unfold OnRing; infer_instance

variable {g : Geometry} {ip dp : Nat}

/-- The page at `p` shows what its first 28 bytes hold. -/
private theorem Indices.fromPtr_congr {m m' : Memory} {p : Nat} (h : ∀ a, p ≤ a → a < p + indicesSize → m' a = m a) :
    Indices.fromPtr m' p = Indices.fromPtr m p := by
  have hload : ∀ i n, i + n ≤ indicesSize → m'.load (p + i) n = m.load (p + i) n := fun i n hin =>
    Memory.load_congr fun a ha ha' => h a (by omega) (by omega)
  simp only [Indices.fromPtr]
  rw [hload _ _ (by decide), hload _ _ (by decide), hload _ _ (by decide), hload _ _ (by decide),
    hload _ _ (by decide)]

private theorem slot_le {i : Fin g.slots} {k : Fin descriptorSize} :
    descriptorSize * i.val + k.val < descriptorSize * g.slots := by
  have hi : descriptorSize * (i.val + 1) ≤ descriptorSize * g.slots := Nat.mul_le_mul_left _ i.isLt
  have hk := k.isLt
  rw [Nat.mul_succ] at hi
  omega

/-- Memories that agree on the ring show the same ring. -/
theorem sharedRing_view_congr {m m' : Memory} (h : ∀ a, OnRing g ip dp a → m' a = m a) :
    (sharedRing g ip dp).view m' = (sharedRing g ip dp).view m := by
  have hidx : Indices.fromPtr m' ip = Indices.fromPtr m ip :=
    Indices.fromPtr_congr fun a ha ha' => h a (.inl ⟨ha, ha'⟩)
  have hslots : ∀ (i : Fin g.slots) (k : Fin descriptorSize),
      m' (dp + descriptorSize * i + k) = m (dp + descriptorSize * i + k) := by
    intro i k
    have := slot_le (g := g) (i := i) (k := k)
    exact h _ (.inr ⟨by omega, by omega⟩)
  simp only [sharedRing, hidx, hslots]

/-- The descriptor array does not overlap the index page. -/
def Apart (g : Geometry) (ip dp : Nat) : Prop :=
  ip + indicesSize ≤ dp ∨ dp + descriptorSize * g.slots ≤ ip

/-- A store to the index page leaves the slots alone. -/
private theorem slots_of_index_store (h : Apart g ip dp) (m : Memory) (o : Nat) (bs : List UInt8)
    (ho : o + bs.length ≤ indicesSize) (i : Fin g.slots) (k : Fin descriptorSize) :
    m.store (ip + o) bs (dp + descriptorSize * i + k) = m (dp + descriptorSize * i + k) := by
  have := slot_le (g := g) (i := i) (k := k)
  rcases h with h | h
  · exact Memory.store_of_ge (by omega)
  · exact Memory.store_of_lt _ (by omega)

private theorem slot_address_inj {i j : Fin g.slots} {k l : Fin descriptorSize}
    (h : dp + descriptorSize * i.val + k.val = dp + descriptorSize * j.val + l.val) : i = j ∧ k = l := by
  have hk := k.isLt
  have hl := l.isLt
  have hij : i.val = j.val := by
    rcases Nat.lt_trichotomy i.val j.val with hlt | heq | hgt
    · have := Nat.mul_le_mul_left descriptorSize (Nat.succ_le_of_lt hlt)
      rw [Nat.mul_succ] at this
      omega
    · exact heq
    · have := Nat.mul_le_mul_left descriptorSize (Nat.succ_le_of_lt hgt)
      rw [Nat.mul_succ] at this
      omega
  rw [hij] at h
  exact ⟨Fin.ext hij, Fin.ext (by omega)⟩

/-- A word of the index page is not touched by a store beside it. -/
theorem load_word_store (m : Memory) {o n q k v : Nat} (h : o + n ≤ q ∨ q + k ≤ o) :
    (m.store (ip + q) (Bytes.ofValue k v)).load (ip + o) n = m.load (ip + o) n :=
  Memory.load_store_of_disjoint (by rw [Bytes.ofValue_length]; omega)

private theorem u32_store (m : Memory) (p : Nat) (v : UInt32) :
    Bytes.u32 ((m.store p (Bytes.ofValue 4 v.toNat)).load p 4) = v := by
  have h := Memory.load_store_same m p (Bytes.ofValue 4 v.toNat)
  rw [Bytes.ofValue_length] at h
  rw [h, Bytes.u32_ofValue]

theorem u64_store (m : Memory) (p : Nat) (v : UInt64) :
    Bytes.u64 ((m.store p (Bytes.ofValue 8 v.toNat)).load p 8) = v := by
  have h := Memory.load_store_same m p (Bytes.ofValue 8 v.toNat)
  rw [Bytes.ofValue_length] at h
  rw [h, Bytes.u64_ofValue]

/-- A store to a slot leaves the index page alone. -/
private theorem fromPtr_slot_store (h : Apart g ip dp) (m : Memory) (i : Fin g.slots) (k : Fin descriptorSize)
    (x : UInt8) :
    Indices.fromPtr (m.store (dp + descriptorSize * i + k) [x]) ip = Indices.fromPtr m ip := by
  refine Indices.fromPtr_congr fun a ha ha' => ?_
  have := slot_le (g := g) (i := i) (k := k)
  rcases h with h | h
  · exact Memory.store_of_lt _ (by omega)
  · exact Memory.store_of_ge (by rw [List.length_singleton]; omega)

/-- A store to a slot changes the one byte. -/
private theorem slot_store (m : Memory) (i j : Fin g.slots) (k l : Fin descriptorSize) (x : UInt8) :
    m.store (dp + descriptorSize * i + k) [x] (dp + descriptorSize * j + l) =
      if j = i ∧ l = k then x else m (dp + descriptorSize * j + l) := by
  by_cases hj : j = i ∧ l = k
  · obtain ⟨rfl, rfl⟩ := hj
    rw [if_pos ⟨rfl, rfl⟩]
    exact (Memory.store_add Nat.zero_lt_one : m.store _ [x] (_ + 0) = _)
  · rw [if_neg hj]
    have hne : dp + descriptorSize * j.val + l.val ≠ dp + descriptorSize * i.val + k.val :=
      fun e => hj (slot_address_inj e)
    rcases Nat.lt_or_gt_of_ne hne with hlt | hgt
    · exact Memory.store_of_lt _ hlt
    · exact Memory.store_of_ge (by rw [List.length_singleton]; omega)

/-- The index page and the descriptor array are a ring when they do not overlap. -/
theorem sharedRing_lawful (h : Apart g ip dp) : (sharedRing g ip dp).Lawful := by
  refine ⟨fun v m => ?_, fun v m => ?_, fun v m => ?_, fun v m => ?_, fun i k x m => ?_⟩
  · have hslots := slots_of_index_store h m tailOffset (Bytes.ofValue 4 v.toNat)
      (by rw [Bytes.ofValue_length]; decide)
    simp (disch := decide) only [sharedRing, Indices.fromPtr, hslots, u32_store, load_word_store]
  · have hslots := slots_of_index_store h m headOffset (Bytes.ofValue 4 v.toNat)
      (by rw [Bytes.ofValue_length]; decide)
    simp (disch := decide) only [sharedRing, Indices.fromPtr, hslots, u32_store, load_word_store]
  · have hslots := slots_of_index_store h m seqnoSubmitOffset (Bytes.ofValue 8 v.toNat)
      (by rw [Bytes.ofValue_length]; decide)
    simp (disch := decide) only [sharedRing, Indices.fromPtr, hslots, u64_store, load_word_store]
  · have hslots := slots_of_index_store h m seqnoRetiredOffset (Bytes.ofValue 8 v.toNat)
      (by rw [Bytes.ofValue_length]; decide)
    simp (disch := decide) only [sharedRing, Indices.fromPtr, hslots, u64_store, load_word_store]
  · simp only [sharedRing, fromPtr_slot_store h]
    congr 1
    funext j l
    rw [slot_store]
    by_cases hj : j = i
    · subst hj
      by_cases hl : l = k
      · subst hl
        rw [if_pos ⟨rfl, rfl⟩, Function.update_self, Function.update_self]
      · rw [if_neg (fun e => hl e.2), Function.update_self, Function.update_of_ne hl]
    · rw [if_neg (fun e => hj e.1), Function.update_of_ne hj]

end Infinigpu
