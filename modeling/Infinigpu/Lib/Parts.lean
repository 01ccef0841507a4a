import Infinigpu.Lib.Bytes

/-!
# Byte strings in parts

* `Bytes.cut`: consecutive parts of given lengths at the front of a byte string.  Cutting what was put together gives
  the parts back (`cut_append`), and the parts of any string that is long enough are together its front
  (`cut_flatten`, `cut_lengths`);
* `Bytes.splitAt?`, `Bytes.cut?`: the same where a part beyond the end is an error;
* `Bytes.ofWords`: little-endian 32-bit words.
-/

namespace Bytes

/-! ### Cutting -/

/-- The parts with the lengths `ns`, one after another, and what follows them. -/
def cut : List Nat → List UInt8 → List (List UInt8) × List UInt8
  | [], bs => ([], bs)
  | n :: ns, bs => (bs.take n :: (cut ns (bs.drop n)).1, (cut ns (bs.drop n)).2)

theorem cut_append (parts : List (List UInt8)) (rest : List UInt8) :
    cut (parts.map List.length) (parts.flatten ++ rest) = (parts, rest) := by
  induction parts with
  | nil => rfl
  | cons p parts ih =>
    rw [List.map_cons, List.flatten_cons, List.append_assoc, cut, List.take_left, List.drop_left, ih]

theorem cut_flatten (ns : List Nat) (bs : List UInt8) : (cut ns bs).1.flatten ++ (cut ns bs).2 = bs := by
  induction ns generalizing bs with
  | nil => rfl
  | cons n ns ih => rw [cut, List.flatten_cons, List.append_assoc, ih, List.take_append_drop]

theorem cut_lengths {ns : List Nat} {bs : List UInt8} (h : ns.sum ≤ bs.length) :
    (cut ns bs).1.map List.length = ns := by
  induction ns generalizing bs with
  | nil => rfl
  | cons n ns ih =>
    rw [List.sum_cons] at h
    rw [cut, List.map_cons, ih, List.length_take, Nat.min_eq_left (by omega)]
    rw [List.length_drop]
    omega

/-- The two parts of a string cut at `n`, if it is that long. -/
def splitAt? (n : Nat) (bs : List UInt8) : Option (List UInt8 × List UInt8) :=
  if n ≤ bs.length then some (bs.splitAt n) else none

theorem splitAt?_eq {n : Nat} {bs : List UInt8} (h : n ≤ bs.length) : splitAt? n bs = some (bs.splitAt n) := if_pos h

/-- `cut`, if no part goes beyond the end. -/
def cut? : List Nat → List UInt8 → Option (List (List UInt8) × List UInt8)
  | [], bs => some ([], bs)
  | n :: ns, bs =>
    match splitAt? n bs with
    | none => none
    | some (p, r) => (cut? ns r).map fun c => (p :: c.1, c.2)

theorem cut?_eq {ns : List Nat} {bs : List UInt8} (h : ns.sum ≤ bs.length) : cut? ns bs = some (cut ns bs) := by
  induction ns generalizing bs with
  | nil => rfl
  | cons n ns ih =>
    rw [List.sum_cons] at h
    have hrest : ns.sum ≤ (bs.drop n).length := by
      rw [List.length_drop]
      omega
    have hsplit : splitAt? n bs = some (bs.take n, bs.drop n) := by
      rw [splitAt?_eq (by omega), List.splitAt_eq]
    simp only [cut?, hsplit, ih hrest, Option.map_some, cut]

/-! ### Words -/

def ofWords (ws : List UInt32) : List UInt8 := ws.flatMap fun w => ofValue 4 w.toNat

theorem ofWords_cons (w : UInt32) (ws : List UInt32) : ofWords (w :: ws) = ofValue 4 w.toNat ++ ofWords ws :=
  List.flatMap_cons

@[simp] theorem ofWords_length (ws : List UInt32) : (ofWords ws).length = 4 * ws.length := by
  induction ws with
  | nil => rfl
  | cons w ws ih =>
    rw [ofWords_cons, List.length_append, ofValue_length, ih, List.length_cons, Nat.mul_succ, Nat.add_comm]

/-- Word `i` of some words. -/
theorem slice_ofWords {ws : List UInt32} {i : Nat} (rest : List UInt8) (h : i < ws.length) :
    slice (ofWords ws ++ rest) (4 * i) 4 = ofValue 4 (ws.get ⟨i, h⟩).toNat := by
  induction ws generalizing i with
  | nil => exact absurd h (Nat.not_lt_zero i)
  | cons w ws ih =>
    rw [ofWords_cons, List.append_assoc]
    cases i with
    | zero =>
      have hslice : slice (ofValue 4 w.toNat ++ (ofWords ws ++ rest)) 0 4 = slice (ofValue 4 w.toNat) 0 4 :=
        slice_append_left (Nat.le_of_eq (ofValue_length 4 _).symm)
      rw [Nat.mul_zero, hslice]
      rfl
    | succ i =>
      have hdrop : (ofValue 4 w.toNat ++ (ofWords ws ++ rest)).drop (4 * (i + 1)) =
          (ofWords ws ++ rest).drop (4 * i) := by
        have hlen : 4 * (i + 1) = (ofValue 4 w.toNat).length + 4 * i := by rw [ofValue_length]; omega
        rw [hlen, ← List.drop_drop, List.drop_left]
      rw [slice, hdrop]
      exact ih (Nat.lt_of_succ_lt_succ h)

/-- A byte string is determined by its length and its value. -/
theorem ofValue_value (bs : List UInt8) : ofValue bs.length (value bs) = bs := by
  induction bs with
  | nil => rfl
  | cons b bs ih =>
    have hlow : UInt8.ofNat (b.toNat + 256 * value bs) = b := by
      rw [← UInt8.toNat_inj, UInt8.toNat_ofNat', Nat.add_mul_mod_self_left]
      exact Nat.mod_eq_of_lt b.toNat_lt
    have hhigh : (b.toNat + 256 * value bs) / 256 = value bs := by
      have hlt := b.toNat_lt
      omega
    rw [List.length_cons, value, ofValue, hlow, hhigh, ih]

theorem value_lt (bs : List UInt8) : value bs < 256 ^ bs.length := by
  induction bs with
  | nil => exact Nat.one_pos
  | cons b bs ih =>
    have hlt := b.toNat_lt
    rw [List.length_cons, value, Nat.pow_succ]
    omega

theorem ofValue_u32 {bs : List UInt8} (h : bs.length = 4) : ofValue 4 (u32 bs).toNat = bs := by
  have hlt := value_lt bs
  rw [h] at hlt
  have hvalue : (u32 bs).toNat = value bs := UInt32.toNat_ofNat_of_lt' hlt
  rw [hvalue, ← h]
  exact ofValue_value bs

/-- The two words at the front of a string. -/
theorem ofWords_front {bs : List UInt8} (h : 8 ≤ bs.length) :
    ofWords [u32 (slice bs 0 4), u32 (slice bs 4 4)] = bs.take 8 := by
  have hfirst : ofValue 4 (u32 (slice bs 0 4)).toNat = slice bs 0 4 := ofValue_u32 (slice_length (by omega))
  have hsecond : ofValue 4 (u32 (slice bs 4 4)).toNat = slice bs 4 4 := ofValue_u32 (slice_length (by omega))
  rw [ofWords_cons, ofWords_cons, hfirst, hsecond, slice, slice, ofWords, List.flatMap_nil, List.append_nil,
    List.drop_zero, ← List.take_add]

end Bytes
