import Mathlib.Data.Nat.ModEq

/-!
# Free-running 32-bit counters

A producer and a consumer count the entries they have published and released in `u32` words that wrap at `2^32`.
As long as the true counts are less than `2^32` apart, the wrapping difference is the true one, whatever the words
are (`toNat_succ_sub`, `toNat_sub_succ`); and when the capacity divides `2^32` the slot of an index can be read off
the wrapped word (`slot_add`), with no two of the live indices in one slot (`slot_add_inj`).
-/

namespace Counter

/-- One more entry published. -/
theorem toNat_succ_sub {x y : UInt32} (h : (x - y).toNat + 1 < 2 ^ 32) :
    (x + 1 - y).toNat = (x - y).toNat + 1 := by
  have hx := x.toNat_lt
  have hy := y.toNat_lt
  rw [UInt32.toNat_sub] at h
  rw [UInt32.toNat_sub, UInt32.toNat_sub, UInt32.toNat_add, UInt32.toNat_one]
  omega

/-- One more entry released. -/
theorem toNat_sub_succ {x y : UInt32} (h : 0 < (x - y).toNat) :
    (x - (y + 1)).toNat = (x - y).toNat - 1 := by
  have hx := x.toNat_lt
  have hy := y.toNat_lt
  rw [UInt32.toNat_sub] at h
  rw [UInt32.toNat_sub, UInt32.toNat_sub, UInt32.toNat_add, UInt32.toNat_one]
  omega

theorem toNat_sub_eq_zero {x y : UInt32} : (x - y).toNat = 0 ↔ y = x := by
  have hx := x.toNat_lt
  have hy := y.toNat_lt
  rw [UInt32.toNat_sub, ← UInt32.toNat_inj]
  omega

theorem add_toNat_sub (x y : UInt32) : y + UInt32.ofNat (x - y).toNat = x := by
  rw [UInt32.ofNat_toNat, UInt32.add_comm, UInt32.sub_add_cancel]

/-- The slot of a free-running index. -/
def slot (capacity : Nat) (i : UInt32) : Nat := i.toNat % capacity

theorem slot_add {capacity : Nat} (hdvd : capacity ∣ 2 ^ 32) (x : UInt32) (j : Nat) :
    slot capacity (x + UInt32.ofNat j) = (x.toNat + j) % capacity := by
  rw [slot, UInt32.toNat_add, UInt32.toNat_ofNat', Nat.mod_mod_of_dvd _ hdvd, Nat.add_mod,
    Nat.mod_mod_of_dvd _ hdvd, ← Nat.add_mod]

/-- Two indices less than a revolution ahead of `x` share a slot only when they are equal. -/
theorem slot_add_inj {capacity : Nat} (hdvd : capacity ∣ 2 ^ 32) (x : UInt32) {i j : Nat} (hi : i < capacity)
    (hj : j < capacity) (h : slot capacity (x + UInt32.ofNat i) = slot capacity (x + UInt32.ofNat j)) : i = j := by
  rw [slot_add hdvd, slot_add hdvd] at h
  exact Nat.ModEq.eq_of_lt_of_lt (Nat.ModEq.add_left_cancel' x.toNat h) hi hj

end Counter
