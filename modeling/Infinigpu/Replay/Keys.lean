import Infinigpu.Device.Forwarded

/-!
# Cache keys (`infinigpu-replay`, `hash_spirv`, `hash_vinput`, `content_hash`, `geom_key` and `tex_key`)

The hashes that the caches of the replay are addressed by.  All arithmetic is on 64 bits and wraps.
-/

namespace Infinigpu

def FNV_OFFSET : UInt64 := 0xcbf29ce484222325
def FNV_PRIME : UInt64 := 0x00000100000001b3

def rotateLeft (x : UInt64) (k : UInt64) : UInt64 := x <<< k ||| x >>> (64 - k)

/-- One round of the hashes. -/
def fnvRound (h w : UInt64) : UInt64 := (h ^^^ w) * FNV_PRIME

/-! ### Pipelines -/

def hashSpirv (data : List UInt32) : UInt64 :=
  data.foldl (fun h word => fnvRound h word.toUInt64) (FNV_OFFSET ^^^ UInt64.ofNat data.length)

/-- The stride and the attributes of a draw with a vertex buffer. -/
def vertexInputOf (draw : OwnedForwardedDraw) : Option (UInt32 × List VertexAttr) :=
  match draw.geometry with
  | none => none
  | some g => if g.vertexStride = 0 then none else some (g.vertexStride, g.attrs)

def hashVertexInput : Option (UInt32 × List VertexAttr) → UInt64
  | none => 0
  | some (stride, attrs) =>
    attrs.foldl (fun h a => [a.location, a.format, a.offset].foldl (fun h v => fnvRound h v.toUInt64) h)
      (FNV_OFFSET ^^^ rotateLeft stride.toUInt64 1)

def hashVinput (draw : OwnedForwardedDraw) : UInt64 := hashVertexInput (vertexInputOf draw)

/-! ### Content -/

structure Lanes4 where
  h0 : UInt64
  h1 : UInt64
  h2 : UInt64
  h3 : UInt64
deriving DecidableEq, Repr

def Lanes4.seed : Lanes4 where
  h0 := 0xcbf29ce484222325
  h1 := 0x84222325cbf29ce4
  h2 := 0x0100000001b3beef
  h3 := 0xdeadbeefcafef00d

/-- The rounds over `n` chunks of 32 bytes. -/
def hashChunks : Nat → List UInt8 → Lanes4 → Lanes4
  | 0, _, h => h
  | n + 1, data, h => hashChunks n (data.drop 32)
      { h0 := fnvRound h.h0 (u64At data 0)
        h1 := fnvRound h.h1 (u64At data 8)
        h2 := fnvRound h.h2 (u64At data 16)
        h3 := fnvRound h.h3 (u64At data 24) }

def Lanes4.combine (h : Lanes4) : UInt64 :=
  h.h0 ^^^ rotateLeft h.h1 16 ^^^ rotateLeft h.h2 32 ^^^ rotateLeft h.h3 48

/-- The rounds over `n` words of 8 bytes. -/
def hashTail : Nat → List UInt8 → UInt64 → UInt64
  | 0, _, acc => acc
  | n + 1, data, acc => hashTail n (data.drop 8) (fnvRound acc (u64At data 0))

def contentHash (data : List UInt8) : UInt64 :=
  let chunks := data.length / 32
  let rem := data.drop (32 * chunks)
  let words := rem.length / 8
  let acc := hashTail words rem (hashChunks chunks data .seed).combine
  let acc := (rem.drop (8 * words)).foldl (fun acc b => fnvRound acc b.toUInt64) acc
  acc ^^^ UInt64.ofNat data.length * FNV_PRIME

def geomKey (g : OwnedGeometry) : UInt64 :=
  contentHash g.vertexData ^^^ rotateLeft (contentHash g.indexData) 32 ^^^
    UInt64.ofNat g.vertexData.length * FNV_PRIME ^^^ rotateLeft (UInt64.ofNat g.indexData.length) 17 ^^^
    g.indexU32.toUInt64 <<< 1

def texKey (t : OwnedTexture) : UInt64 :=
  contentHash t.rgba ^^^ (t.width.toUInt64 <<< 40 ^^^ t.height.toUInt64 <<< 8) ^^^
    t.linear.toUInt64 <<< 2 ^^^ t.repeat.toUInt64 <<< 3

end Infinigpu
