import Mathlib.Data.List.Basic

/-!
# Lossy UTF-8 decoding

`lossy` decodes any bytes: each longest start of a character that cannot be continued is replaced by U+FFFD.  Bytes
that encode characters are decoded to them (`lossy_encode`).
-/

namespace Utf8

def encode (cs : List Char) : List UInt8 := cs.flatMap String.utf8EncodeChar

/-- The character at the start of the bytes. -/
def first (bs : List UInt8) : Option Char := bs.toByteArray.utf8DecodeChar? 0

def isContinuation (b : UInt8) : Bool := 0x80 ≤ b ∧ b ≤ 0xbf

/-- Some character of three or four bytes starts with these two. -/
def startsLong (b c : UInt8) : Bool :=
  if b = 0xe0 then 0xa0 ≤ c ∧ c ≤ 0xbf
  else if b = 0xed then 0x80 ≤ c ∧ c ≤ 0x9f
  else if b = 0xf0 then 0x90 ≤ c ∧ c ≤ 0xbf
  else if b = 0xf4 then 0x80 ≤ c ∧ c ≤ 0x8f
  else 0xe1 ≤ b ∧ b ≤ 0xf3 ∧ isContinuation c

/-- How many bytes are replaced at once, where no character is at the start. -/
def invalidLength : List UInt8 → Nat
  | b :: c :: bs =>
    if startsLong b c then
      match bs with
      | d :: _ => if 0xf0 ≤ b ∧ isContinuation d then 3 else 2
      | [] => 2
    else 1
  | _ => 1

/-- `lossy` on at most so many characters. -/
def decode : Nat → List UInt8 → List Char
  | 0, _ => []
  | _ + 1, [] => []
  | n + 1, b :: bs =>
    match first (b :: bs) with
    | some c => c :: decode n ((b :: bs).drop c.utf8Size)
    | none => Char.ofNat 0xfffd :: decode n ((b :: bs).drop (invalidLength (b :: bs)))

def lossy (bs : List UInt8) : List Char := decode bs.length bs

theorem encode_cons (c : Char) (cs : List Char) : encode (c :: cs) = String.utf8EncodeChar c ++ encode cs := rfl

theorem first_append (c : Char) (bs : List UInt8) : first (String.utf8EncodeChar c ++ bs) = some c := by
  unfold first
  rw [List.toByteArray_append, ByteArray.utf8DecodeChar?_utf8EncodeChar_append]

theorem decode_encode {n : Nat} {cs : List Char} (hn : (encode cs).length ≤ n) : decode n (encode cs) = cs := by
  induction cs generalizing n with
  | nil => cases n <;> rfl
  | cons c cs ih =>
    have hlen : (String.utf8EncodeChar c).length = c.utf8Size := String.length_utf8EncodeChar c
    have hpos := c.utf8Size_pos
    rw [encode_cons, List.length_append, hlen] at hn
    obtain ⟨n, rfl⟩ := Nat.exists_eq_add_of_le' (show 1 ≤ n by omega)
    cases hbs : encode (c :: cs) with
    | nil =>
      have hempty := congrArg List.length hbs
      rw [encode_cons, List.length_append, hlen, List.length_nil] at hempty
      omega
    | cons b bs =>
      have hfirst := first_append c (encode cs)
      rw [← encode_cons, hbs] at hfirst
      have hrest : (b :: bs).drop c.utf8Size = encode cs := by
        rw [← hbs, encode_cons, ← hlen, List.drop_left]
      rw [decode, hfirst]
      simp only
      rw [hrest, ih (by omega)]

/-- Nothing is lost of what is valid. -/
theorem lossy_encode (cs : List Char) : lossy (encode cs) = cs := decode_encode (Nat.le_refl _)

/-- The start of a character of three bytes is replaced as a whole, and what cannot continue it stays. -/
example : lossy [0x61, 0xe2, 0x82, 0x62] = [Char.ofNat 0x61, Char.ofNat 0xfffd, Char.ofNat 0x62] := by decide +kernel

end Utf8
