import Infinigpu.Lib.Bytes

/-!
# Reading from a byte stream

A reader takes what it needs from the front of the unread bytes and leaves the rest; `none` says that it has to wait
for more.  What was written first is what is read, whatever comes after it.
-/

namespace ByteStream

def readExact (n : Nat) (bs : List UInt8) : Option (List UInt8 × List UInt8) :=
  if n ≤ bs.length then some (bs.take n, bs.drop n) else none

def readU32 (bs : List UInt8) : Option (UInt32 × List UInt8) := (readExact 4 bs).map fun r => (Bytes.u32 r.1, r.2)

def writeU32 (v : UInt32) : List UInt8 := Bytes.ofValue 4 v.toNat

theorem readExact_of_le {n : Nat} {bs : List UInt8} (h : n ≤ bs.length) :
    readExact n bs = some (bs.take n, bs.drop n) := if_pos h

theorem readExact_one (b : UInt8) (bs : List UInt8) : readExact 1 (b :: bs) = some ([b], bs) := rfl

theorem readU32_append (v : UInt32) (bs : List UInt8) : readU32 (writeU32 v ++ bs) = some (v, bs) := by
  have hlen : (writeU32 v).length = 4 := Bytes.ofValue_length 4 v.toNat
  unfold readU32
  rw [readExact_of_le (by rw [List.length_append]; omega), Option.map_some, ← hlen, List.take_left, List.drop_left]
  exact congrArg (fun w => some (w, bs)) (Bytes.u32_ofValue v)

end ByteStream
