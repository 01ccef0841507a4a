import Mathlib.Algebra.GroupWithZero.Nat
import Mathlib.Data.List.Basic
import Mathlib.Data.List.FinRange

/-!
# Byte strings and flat memories

* `Bytes.value`, `Bytes.ofValue`: little-endian numbers;
* `Bytes.splice`: a byte string with a block of it replaced in place;
* `Memory.load`, `Memory.store`: blocks of a flat memory.  A load sees a store at its own place and no store beside
  it.
-/

namespace Bytes

/-- The little-endian value of a byte string. -/
def value : List UInt8 → Nat
  | [] => 0
  | b :: bs => b.toNat + 256 * value bs

/-- The `k` low bytes of a number, the lowest first. -/
def ofValue : Nat → Nat → List UInt8
  | 0, _ => []
  | k + 1, n => UInt8.ofNat n :: ofValue k (n / 256)

@[simp] theorem ofValue_length (k n : Nat) : (ofValue k n).length = k := by
  induction k generalizing n with
  | zero => rfl
  | succ k ih => rw [ofValue, List.length_cons, ih]

theorem value_ofValue (k n : Nat) : value (ofValue k n) = n % 256 ^ k := by
  induction k generalizing n with
  | zero => rw [ofValue, value, Nat.pow_zero, Nat.mod_one]
  | succ k ih =>
    have hpow : 256 ^ (k + 1) = 256 * 256 ^ k := by rw [Nat.pow_succ, Nat.mul_comm]
    rw [ofValue, value, ih, UInt8.toNat_ofNat', hpow, Nat.mod_mul]

def u16 (bs : List UInt8) : UInt16 := UInt16.ofNat (value bs)

def u32 (bs : List UInt8) : UInt32 := UInt32.ofNat (value bs)

def u64 (bs : List UInt8) : UInt64 := UInt64.ofNat (value bs)

theorem u16_ofValue (v : UInt16) : u16 (ofValue 2 v.toNat) = v := by
  have hlt : v.toNat < 256 ^ 2 := v.toNat_lt
  rw [u16, value_ofValue, Nat.mod_eq_of_lt hlt, UInt16.ofNat_toNat]

theorem u32_ofValue (v : UInt32) : u32 (ofValue 4 v.toNat) = v := by
  have hlt : v.toNat < 256 ^ 4 := v.toNat_lt
  rw [u32, value_ofValue, Nat.mod_eq_of_lt hlt, UInt32.ofNat_toNat]

theorem u64_ofValue (v : UInt64) : u64 (ofValue 8 v.toNat) = v := by
  have hlt : v.toNat < 256 ^ 8 := v.toNat_lt
  rw [u64, value_ofValue, Nat.mod_eq_of_lt hlt, UInt64.ofNat_toNat]

/-- The `n` bytes from `i` on. -/
def slice (bs : List UInt8) (i n : Nat) : List UInt8 := (bs.drop i).take n

theorem getElem?_slice (bs : List UInt8) (i n k : Nat) :
    (slice bs i n)[k]? = if k < n then bs[i + k]? else none := by
  rw [slice, List.getElem?_take, List.getElem?_drop]

theorem slice_length {bs : List UInt8} {i n : Nat} (h : i + n ≤ bs.length) : (slice bs i n).length = n := by
  rw [slice, List.length_take, List.length_drop]
  omega

theorem slice_append_left {xs ys : List UInt8} {i n : Nat} (h : i + n ≤ xs.length) :
    slice (xs ++ ys) i n = slice xs i n := by
  rw [slice, slice, List.drop_append_of_le_length (by omega), List.take_append_of_le_length]
  rw [List.length_drop]
  omega

theorem slice_append_right (xs ys : List UInt8) : slice (xs ++ ys) xs.length ys.length = ys := by
  rw [slice, List.drop_left, List.take_length]

theorem slice_slice {bs : List UInt8} {i n j k : Nat} (h : j + k ≤ n) :
    slice (slice bs i n) j k = slice bs (i + j) k := by
  refine List.ext_getElem? fun m => ?_
  rw [getElem?_slice, getElem?_slice, getElem?_slice]
  by_cases hm : m < k
  · rw [if_pos hm, if_pos (by omega), if_pos hm, Nat.add_assoc]
  · rw [if_neg hm, if_neg hm]

/-- A row of equal blocks. -/
theorem slice_replicate {w : Nat} {px : List UInt8} {x : Nat} (hx : x < w) :
    slice (List.replicate w px).flatten (x * px.length) px.length = px := by
  induction w generalizing x with
  | zero => exact absurd hx (Nat.not_lt_zero _)
  | succ w ih =>
    rw [List.replicate_succ, List.flatten_cons]
    cases x with
    | zero => rw [Nat.zero_mul, slice, List.drop_zero, List.take_left]
    | succ x =>
      have hdrop : slice (px ++ (List.replicate w px).flatten) ((x + 1) * px.length) px.length =
          slice (List.replicate w px).flatten (x * px.length) px.length := by
        rw [slice, slice, Nat.succ_mul, Nat.add_comm (x * px.length), ← List.drop_drop, List.drop_left]
      rw [hdrop]
      exact ih (by omega)

/-- The byte string with `new` written over it from `i` on. -/
def splice (bs : List UInt8) (i : Nat) (new : List UInt8) : List UInt8 :=
  bs.take i ++ new ++ bs.drop (i + new.length)

theorem splice_length {bs new : List UInt8} {i : Nat} (h : i + new.length ≤ bs.length) :
    (splice bs i new).length = bs.length := by
  rw [splice, List.length_append, List.length_append, List.length_take, List.length_drop]
  omega

theorem getElem?_splice {bs new : List UInt8} {i : Nat} (h : i + new.length ≤ bs.length) (k : Nat) :
    (splice bs i new)[k]? = if i ≤ k ∧ k < i + new.length then new[k - i]? else bs[k]? := by
  have htake : (bs.take i).length = i := by
    rw [List.length_take]
    omega
  rw [splice, List.append_assoc, List.getElem?_append, htake]
  by_cases hlt : k < i
  · rw [if_pos hlt, if_neg (by omega), List.getElem?_take_of_lt hlt]
  · rw [if_neg hlt, List.getElem?_append]
    by_cases hin : k - i < new.length
    · rw [if_pos hin, if_pos (by omega)]
    · rw [if_neg hin, if_neg (by omega), List.getElem?_drop]
      congr 1
      omega

end Bytes

/-- A flat byte memory. -/
abbrev Memory := Nat → UInt8

namespace Memory

/-- The memory that starts with some little-endian words and is zero after them. -/
def ofWords (ws : List UInt32) : Memory := fun a => (ws.flatMap fun w => Bytes.ofValue 4 w.toNat).getD a 0

def load (m : Memory) (p n : Nat) : List UInt8 := (List.range n).map fun i => m (p + i)

def store (m : Memory) (p : Nat) (bs : List UInt8) : Memory :=
  fun a => if p ≤ a then bs.getD (a - p) (m a) else m a

@[simp] theorem load_length (m : Memory) (p n : Nat) : (m.load p n).length = n := by
  rw [load, List.length_map, List.length_range]

theorem getElem?_load (m : Memory) (p n i : Nat) : (m.load p n)[i]? = if i < n then some (m (p + i)) else none := by
  rw [load, List.getElem?_map]
  by_cases h : i < n
  · rw [if_pos h, List.getElem?_range h, Option.map_some]
  · rw [if_neg h, List.getElem?_eq_none (by rw [List.length_range]; omega), Option.map_none]

theorem load_zero (m : Memory) (p : Nat) : m.load p 0 = [] := rfl

theorem load_succ (m : Memory) (p n : Nat) : m.load p (n + 1) = m p :: m.load (p + 1) n := by
  rw [load, List.range_succ_eq_map, List.map_cons, List.map_map, load, Nat.add_zero]
  congr 1
  refine List.map_congr_left fun i _ => ?_
  rw [Function.comp_apply, Nat.succ_eq_add_one, Nat.add_assoc, Nat.add_comm 1 i]

/-- Loads that see the same bytes are the same. -/
theorem load_congr {m m' : Memory} {p n : Nat} (h : ∀ a, p ≤ a → a < p + n → m' a = m a) :
    m'.load p n = m.load p n := by
  refine List.map_congr_left fun i hi => ?_
  rw [List.mem_range] at hi
  exact h _ (by omega) (by omega)

theorem eq_of_load_eq {m m' : Memory} {p n a : Nat} (h : m'.load p n = m.load p n) (ha : p ≤ a) (ha' : a < p + n) :
    m' a = m a := by
  have hat := congrArg (·[a - p]?) h
  simp only [getElem?_load] at hat
  rw [if_pos (by omega), if_pos (by omega), Option.some_inj, Nat.add_sub_cancel' ha] at hat
  exact hat

/-- A part of a load is a load. -/
theorem slice_load {m : Memory} {p n i k : Nat} (h : i + k ≤ n) :
    Bytes.slice (m.load p n) i k = m.load (p + i) k := by
  refine List.ext_getElem? fun j => ?_
  rw [Bytes.getElem?_slice, getElem?_load, getElem?_load]
  by_cases hj : j < k
  · rw [if_pos hj, if_pos (by omega), if_pos hj, Nat.add_assoc]
  · rw [if_neg hj, if_neg hj]

theorem store_of_lt {m : Memory} {p a : Nat} (bs : List UInt8) (h : a < p) : m.store p bs a = m a :=
  if_neg (by omega)

theorem store_of_ge {m : Memory} {p a : Nat} {bs : List UInt8} (h : p + bs.length ≤ a) : m.store p bs a = m a := by
  rw [store, if_pos (by omega), List.getD_eq_getElem?_getD, List.getElem?_eq_none (by omega), Option.getD_none]

theorem store_add {m : Memory} {p i : Nat} {bs : List UInt8} (h : i < bs.length) :
    m.store p bs (p + i) = bs.get ⟨i, h⟩ := by
  rw [store, if_pos (by omega), Nat.add_sub_cancel_left, List.getD_eq_getElem?_getD, List.getElem?_eq_getElem h]
  rfl

theorem store_nil (m : Memory) (p : Nat) : m.store p [] = m := by
  funext a
  by_cases h : a < p
  · exact store_of_lt [] h
  · exact store_of_ge (by rw [List.length_nil]; omega)

/-- Two stores, one right behind the other. -/
theorem store_append (m : Memory) (p : Nat) (bs cs : List UInt8) :
    m.store p (bs ++ cs) = (m.store p bs).store (p + bs.length) cs := by
  funext a
  by_cases hlt : a < p + bs.length
  · rw [store_of_lt cs hlt]
    by_cases hlow : a < p
    · rw [store_of_lt _ hlow, store_of_lt _ hlow]
    · simp only [store, if_pos (Nat.not_lt.1 hlow), List.getD_eq_getElem?_getD]
      rw [List.getElem?_append_left (by omega)]
  · have hge := Nat.not_lt.1 hlt
    by_cases hhigh : p + (bs ++ cs).length ≤ a
    · rw [store_of_ge hhigh]
      rw [List.length_append] at hhigh
      rw [store_of_ge (by omega), store_of_ge hge]
    · obtain ⟨i, rfl⟩ := Nat.exists_eq_add_of_le hge
      rw [List.length_append] at hhigh
      have hi : i < cs.length := by omega
      rw [store_add hi, Nat.add_assoc, store_add (by rw [List.length_append]; omega)]
      simp only [List.get_eq_getElem, List.getElem_append_right (Nat.le_add_right bs.length i),
        Nat.add_sub_cancel_left]

/-- A block stored byte by byte. -/
theorem foldl_store {n : Nat} (f : Fin n → UInt8) (m : Memory) (p : Nat) :
    (List.finRange n).foldl (fun m k => m.store (p + k) [f k]) m = m.store p (List.ofFn f) := by
  induction n with
  | zero => exact (store_nil m p).symm
  | succ n ih =>
    have hrest := ih fun k => f k.castSucc
    rw [List.finRange_succ_last, List.foldl_append, List.foldl_map, List.ofFn_succ', List.concat_eq_append,
      store_append, List.length_ofFn]
    simp only [Fin.val_castSucc] at hrest ⊢
    rw [hrest]
    rfl

theorem load_store_same (m : Memory) (p : Nat) (bs : List UInt8) : (m.store p bs).load p bs.length = bs := by
  refine List.ext_getElem (load_length _ _ _) fun i hi hi' => ?_
  rw [List.getElem_eq_iff, getElem?_load, if_pos hi', store_add hi']
  rfl

/-- Storing what is there already changes nothing, and storing anything else does. -/
theorem store_eq_self_iff {m : Memory} {p : Nat} {bs : List UInt8} : m.store p bs = m ↔ m.load p bs.length = bs := by
  constructor
  · intro h
    have hsame := load_store_same m p bs
    rwa [h] at hsame
  · intro h
    have hsame : (m.store p bs).load p bs.length = m.load p bs.length := by rw [load_store_same, h]
    funext a
    by_cases hlt : a < p
    · exact store_of_lt bs hlt
    · by_cases hge : p + bs.length ≤ a
      · exact store_of_ge hge
      · exact eq_of_load_eq hsame (by omega) (by omega)

/-- What is stored over all of another store is all that is left. -/
theorem store_store {m : Memory} {p : Nat} {bs cs : List UInt8} (h : bs.length ≤ cs.length) :
    (m.store p bs).store p cs = m.store p cs := by
  funext a
  by_cases hlt : a < p
  · rw [store_of_lt cs hlt, store_of_lt bs hlt, store_of_lt cs hlt]
  · by_cases hge : p + cs.length ≤ a
    · rw [store_of_ge hge, store_of_ge hge, store_of_ge (by omega)]
    · obtain ⟨i, rfl⟩ := Nat.exists_eq_add_of_le (Nat.le_of_not_lt hlt)
      have hi : i < cs.length := by omega
      rw [store_add hi, store_add hi]

theorem store_eq_store_iff {m : Memory} {p : Nat} {bs cs : List UInt8} (h : bs.length ≤ cs.length) :
    m.store p bs = m.store p cs ↔ (m.store p bs).load p cs.length = cs := by
  rw [← store_store h, eq_comm, store_eq_self_iff]

theorem load_store_of_disjoint {m : Memory} {p n q : Nat} {bs : List UInt8}
    (h : p + n ≤ q ∨ q + bs.length ≤ p) : (m.store q bs).load p n = m.load p n := by
  refine load_congr fun a ha ha' => ?_
  rcases h with h | h
  · exact store_of_lt bs (by omega)
  · exact store_of_ge (by omega)

end Memory
