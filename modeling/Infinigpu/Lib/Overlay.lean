import Infinigpu.Lib.Bytes

/-!
# Memories with a part of them replaced

An overlay gives the bytes at some addresses.  Loads and stores of a block that misses these addresses do not notice
it (`Memory.load_over`, `Memory.store_over`).
-/

/-- The bytes at some addresses. -/
structure Overlay where
  foreign : Nat → Bool
  bytes : Memory

/-- No byte of the block is replaced. -/
def Overlay.Misses (o : Overlay) (p n : Nat) : Prop := ∀ a, p ≤ a → a < p + n → o.foreign a = false

theorem Overlay.Misses.mono {o : Overlay} {p n q k : Nat} (h : o.Misses p n) (hp : p ≤ q) (hk : q + k ≤ p + n) :
    o.Misses q k := fun a ha ha' => h a (by omega) (by omega)

namespace Memory

/-- The memory with the bytes of the overlay in place of its own. -/
def overlaid (o : Overlay) (m : Memory) : Memory := fun a => if o.foreign a then o.bytes a else m a

variable {o : Overlay} {m : Memory} {p n : Nat} {bs : List UInt8}

theorem over_foreign {a : Nat} (h : o.foreign a = true) : m.overlaid o a = o.bytes a := if_pos h

theorem over_own {a : Nat} (h : o.foreign a = false) : m.overlaid o a = m a := by
  rw [overlaid, h, if_neg Bool.false_ne_true]

/-- A memory over its own bytes. -/
theorem over_self (foreign : Nat → Bool) (m : Memory) : m.overlaid ⟨foreign, m⟩ = m := funext fun _ => ite_self _

theorem over_over (foreign : Nat → Bool) (bytes bytes' m : Memory) :
    (m.overlaid ⟨foreign, bytes⟩).overlaid ⟨foreign, bytes'⟩ = m.overlaid ⟨foreign, bytes'⟩ := by
  funext a
  by_cases h : foreign a = true
  · rw [over_foreign h, over_foreign h]
  · rw [Bool.not_eq_true] at h
    rw [over_own h, over_own h, over_own h]

theorem load_over (h : o.Misses p n) : (m.overlaid o).load p n = m.load p n :=
  load_congr fun a ha ha' => over_own (h a ha ha')

theorem store_over (h : o.Misses p bs.length) : (m.overlaid o).store p bs = (m.store p bs).overlaid o := by
  funext a
  by_cases hlt : a < p
  · rw [store_of_lt bs hlt, overlaid, overlaid, store_of_lt bs hlt]
  · by_cases hge : p + bs.length ≤ a
    · rw [store_of_ge hge, overlaid, overlaid, store_of_ge hge]
    · have hin : a - p < bs.length := by omega
      have ha : a = p + (a - p) := by omega
      rw [over_own (h a (by omega) (by omega)), ha, store_add hin, store_add hin]

end Memory
