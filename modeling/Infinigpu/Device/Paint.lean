import Infinigpu.Device.Present

/-!
# The BGRA image of a framebuffer

`ScanoutPresent.toBgra` says what a present is to show: pixel by pixel, the bytes of the framebuffer in the order
blue, green, red, opaque.  The code reaches it row by row: what a row becomes (`getElem?_swizzleRow`), where painted
rows land (`getElem?_paintRows`), and the whole frame (`paintFrame_eq`).
-/

namespace Infinigpu

/-- Byte `k` of the BGRA value of a pixel with the bytes `px` in the framebuffer. -/
def bgraByte (isCopy : Bool) (px : Nat → UInt8) (k : Nat) : UInt8 :=
  if k = 3 then 255 else if isCopy then px k else px (2 - k)

/-! ### Rows -/

/-- The first pixel of a row, and the others. -/
private theorem swizzleRow_succ (isCopy : Bool) (m : Memory) (p n : Nat) :
    swizzleRowToBgra (m.load p ((n + 1) * 4)) isCopy =
      bgraByte isCopy (fun i => m (p + i)) 0 :: bgraByte isCopy (fun i => m (p + i)) 1 ::
        bgraByte isCopy (fun i => m (p + i)) 2 :: bgraByte isCopy (fun i => m (p + i)) 3 ::
          swizzleRowToBgra (m.load (p + 4) (n * 4)) isCopy := by
  rw [Nat.succ_mul, Memory.load_succ, Memory.load_succ, Memory.load_succ, Memory.load_succ]
  cases isCopy with
  | true => rfl
  | false => rfl

private theorem swizzleRow_zero (isCopy : Bool) : swizzleRowToBgra [] isCopy = [] := by
  cases isCopy with
  | true => rfl
  | false => rfl

theorem swizzleRow_length (isCopy : Bool) (m : Memory) (p n : Nat) :
    (swizzleRowToBgra (m.load p (n * 4)) isCopy).length = n * 4 := by
  induction n generalizing p with
  | zero => rw [Nat.zero_mul, Memory.load_zero, swizzleRow_zero, List.length_nil]
  | succ n ih =>
    rw [swizzleRow_succ, List.length_cons, List.length_cons, List.length_cons, List.length_cons, ih, Nat.succ_mul]

/-- Byte `k` of pixel `x` of a converted row. -/
theorem getElem?_swizzleRow (isCopy : Bool) (m : Memory) {p n x k : Nat} (hx : x < n) (hk : k < 4) :
    (swizzleRowToBgra (m.load p (n * 4)) isCopy)[x * 4 + k]? =
      some (bgraByte isCopy (fun i => m (p + x * 4 + i)) k) := by
  induction n generalizing p x with
  | zero => exact absurd hx (Nat.not_lt_zero x)
  | succ n ih =>
    rw [swizzleRow_succ]
    cases x with
    | zero =>
      -- the four bytes of the first pixel
      rw [Nat.zero_mul, Nat.zero_add, Nat.add_zero]
      match k, hk with
      | 0, _ => rfl
      | 1, _ => rfl
      | 2, _ => rfl
      | 3, _ => rfl
    | succ x =>
      have hindex : (x + 1) * 4 + k = x * 4 + k + 1 + 1 + 1 + 1 := by omega
      have hplace : p + (x + 1) * 4 = p + 4 + x * 4 := by omega
      rw [hindex, List.getElem?_cons_succ, List.getElem?_cons_succ, List.getElem?_cons_succ,
        List.getElem?_cons_succ, ih (Nat.lt_of_succ_lt_succ hx), hplace]

/-! ### Painted rows -/

section Paint

variable {w dx dy cw n : Nat} {row : Nat → List UInt8} {bgra : List UInt8}

/-- The last painted row ends inside the surface. -/
private theorem painted_le (hcw : dx + cw ≤ w) (hlen : (dy + (n + 1)) * w * 4 ≤ bgra.length) :
    ((dy + n) * w + dx) * 4 + cw * 4 ≤ bgra.length := by
  have hrow : (dy + (n + 1)) * w = (dy + n) * w + w := by rw [← Nat.add_assoc, Nat.succ_mul]
  rw [hrow] at hlen
  omega

theorem paintRows_length (hcw : dx + cw ≤ w) (hrow : ∀ r < n, (row r).length = cw * 4)
    (hlen : (dy + n) * w * 4 ≤ bgra.length) : (paintRows w dx dy row n bgra).length = bgra.length := by
  induction n with
  | zero => rfl
  | succ n ih =>
    have hle : (dy + n) * w * 4 ≤ bgra.length :=
      Nat.le_trans (Nat.mul_le_mul_right 4 (Nat.mul_le_mul_right w (by omega))) hlen
    have hprev := ih (fun r hr => hrow r (Nat.lt_succ_of_lt hr)) hle
    rw [paintRows, Bytes.splice_length, hprev]
    rw [hprev, hrow n (Nat.lt_succ_self n)]
    exact painted_le hcw hlen

/-- A painted pixel shows its row, every other pixel what was there. -/
theorem getElem?_paintRows (hcw : dx + cw ≤ w) (hrow : ∀ r < n, (row r).length = cw * 4)
    (hlen : (dy + n) * w * 4 ≤ bgra.length) {x y k : Nat} (hx : x < w) (hk : k < 4) :
    (paintRows w dx dy row n bgra)[(y * w + x) * 4 + k]? =
      if dx ≤ x ∧ x < dx + cw ∧ dy ≤ y ∧ y < dy + n then
        (row (y - dy))[(x - dx) * 4 + k]?
      else
        bgra[(y * w + x) * 4 + k]? := by
  induction n with
  | zero => rw [paintRows, if_neg (by omega)]
  | succ n ih =>
    have hle : (dy + n) * w * 4 ≤ bgra.length :=
      Nat.le_trans (Nat.mul_le_mul_right 4 (Nat.mul_le_mul_right w (by omega))) hlen
    have hrow' : ∀ r < n, (row r).length = cw * 4 := fun r hr => hrow r (Nat.lt_succ_of_lt hr)
    have hlast := hrow n (Nat.lt_succ_self n)
    have hfits : ((dy + n) * w + dx) * 4 + (row n).length ≤ (paintRows w dx dy row n bgra).length := by
      rw [paintRows_length hcw hrow' hle, hlast]
      exact painted_le hcw hlen
    rw [paintRows, Bytes.getElem?_splice hfits, ih hrow' hle, hlast]
    rcases Nat.lt_trichotomy y (dy + n) with hlt | heq | hgt
    · -- above the last row
      have hrows : y * w + w ≤ (dy + n) * w := by
        rw [← Nat.succ_mul]
        exact Nat.mul_le_mul_right w hlt
      rw [if_neg (by omega)]
      by_cases hin : dx ≤ x ∧ x < dx + cw ∧ dy ≤ y
      · rw [if_pos ⟨hin.1, hin.2.1, hin.2.2, hlt⟩, if_pos ⟨hin.1, hin.2.1, hin.2.2, by omega⟩]
      · rw [if_neg (fun h => hin ⟨h.1, h.2.1, h.2.2.1⟩), if_neg (fun h => hin ⟨h.1, h.2.1, h.2.2.1⟩)]
    · -- on the last row
      subst heq
      rw [Nat.add_sub_cancel_left]
      by_cases hin : dx ≤ x ∧ x < dx + cw
      · rw [if_pos (by omega), if_pos ⟨hin.1, hin.2, by omega, by omega⟩]
        congr 1
        omega
      · rw [if_neg (by omega), if_neg (fun h => by omega), if_neg (fun h => hin ⟨h.1, h.2.1⟩)]
    · -- below the last row
      have hrows : (dy + n) * w + w ≤ y * w := by
        rw [← Nat.succ_mul]
        exact Nat.mul_le_mul_right w hgt
      rw [if_neg (by omega), if_neg (by omega), if_neg (by omega)]

end Paint

/-! ### The whole frame -/

namespace ScanoutPresent

variable {sp : ScanoutPresent} {fb : Memory}

/-- Byte `k` of the BGRA value of the pixel `(x, y)` of a framebuffer with the bytes `fb`. -/
def bgraAt (sp : ScanoutPresent) (fb : Memory) (x y k : Nat) : UInt8 :=
  bgraByte sp.bgraIsCopy (fun i => fb (y * sp.pitch.toNat + x * 4 + i)) k

/-- The BGRA image of a framebuffer with the bytes `fb`, row after row without padding. -/
def toBgra (sp : ScanoutPresent) (fb : Memory) : List UInt8 :=
  (List.range (sp.w * sp.h * 4)).map fun i => sp.bgraAt fb (i / 4 % sp.w) (i / 4 / sp.w) (i % 4)

theorem toBgra_length (sp : ScanoutPresent) (fb : Memory) : (sp.toBgra fb).length = sp.w * sp.h * 4 := by
  rw [toBgra, List.length_map, List.length_range]

/-- A surface with the right bytes at every pixel is the image. -/
theorem eq_toBgra {bgra : List UInt8} (hlen : bgra.length = sp.w * sp.h * 4)
    (h : ∀ x < sp.w, ∀ y < sp.h, ∀ k < 4, bgra[(y * sp.w + x) * 4 + k]? = some (sp.bgraAt fb x y k)) :
    bgra = sp.toBgra fb := by
  refine List.ext_getElem? fun i => ?_
  by_cases hi : i < sp.w * sp.h * 4
  · have hpixel : i / 4 < sp.w * sp.h := by omega
    have hw : 0 < sp.w := Nat.pos_of_mul_pos_right (Nat.lt_of_le_of_lt (Nat.zero_le _) hpixel)
    have hsplit : (i / 4 / sp.w * sp.w + i / 4 % sp.w) * 4 + i % 4 = i := by
      rw [Nat.div_add_mod']
      omega
    have hat := h (i / 4 % sp.w) (Nat.mod_lt _ hw) (i / 4 / sp.w) (Nat.div_lt_of_lt_mul hpixel) (i % 4)
      (Nat.mod_lt _ (by decide))
    rw [hsplit] at hat
    rw [hat, toBgra, List.getElem?_map, List.getElem?_range hi, Option.map_some]
  · rw [List.getElem?_eq_none (by omega), List.getElem?_eq_none (by rw [toBgra_length]; omega)]

/-- Rows of the frame lie inside it. -/
theorem row_le (sp : ScanoutPresent) (y : Nat) (hpitch : sp.w * 4 ≤ sp.pitch.toNat) (hy : y < sp.h) :
    y * sp.pitch.toNat + sp.w * 4 ≤ sp.pitch.toNat * sp.h := by
  have hrows : (y + 1) * sp.pitch.toNat ≤ sp.h * sp.pitch.toNat := Nat.mul_le_mul_right _ hy
  rw [Nat.succ_mul, Nat.mul_comm sp.h] at hrows
  omega

/-- Painting the whole framebuffer makes its image of any surface of the right size. -/
theorem paintFrame_eq {bgra : List UInt8} (hpitch : sp.w * 4 ≤ sp.pitch.toNat)
    (hlen : bgra.length = sp.w * sp.h * 4) :
    sp.paintFrame (fb.load 0 (sp.pitch.toNat * sp.h)) bgra = sp.toBgra fb := by
  have hslice : ∀ y < sp.h, Bytes.slice (fb.load 0 (sp.pitch.toNat * sp.h)) (y * sp.pitch.toNat) (sp.w * 4) =
      fb.load (y * sp.pitch.toNat) (sp.w * 4) := by
    intro y hy
    rw [Memory.slice_load (sp.row_le _ hpitch hy), Nat.zero_add]
  have hrow : ∀ r < sp.h, (swizzleRowToBgra (Bytes.slice (fb.load 0 (sp.pitch.toNat * sp.h))
      (r * sp.pitch.toNat) (sp.w * 4)) sp.bgraIsCopy).length = sp.w * 4 := by
    intro r hr
    rw [hslice r hr, swizzleRow_length]
  have hsize : (0 + sp.h) * sp.w * 4 ≤ bgra.length := by rw [Nat.zero_add, Nat.mul_comm sp.h, hlen]
  refine eq_toBgra ?_ fun x hx y hy k hk => ?_
  · rw [paintFrame, paintRows_length (Nat.le_of_eq (Nat.zero_add _)) hrow hsize, hlen]
  · rw [paintFrame, getElem?_paintRows (Nat.le_of_eq (Nat.zero_add _)) hrow hsize hx hk, if_pos (by omega),
      Nat.sub_zero, Nat.sub_zero, hslice y hy, getElem?_swizzleRow _ _ hx hk]
    rfl

end ScanoutPresent

end Infinigpu
