import Infinigpu.Lib.Counter
import Mathlib.Data.List.FinRange
import Mathlib.Logic.Function.Basic

/-!
# The descriptor ring (`infinigpu-ring`)

The single-producer single-consumer ring as a view over caller-provided memory.  An entry is a block of `w` words
(`T: Copy`), and a slot is copied word by word, so that a torn entry is expressible.

* `Geometry`, `Indices`, `Ring`: what `from_parts` accepts, the index words, and what the view shows;
* `Store`: a memory that a ring is a view over, with the stores the two ends issue; `Store.Lawful` says that each
  store changes the word it names and nothing else of the view;
* `Store.push`, `Store.pop` and the other operations as one call computes them;
* `PushPc`, `PopPc`: the same calls as sequences of single loads and stores, for the interleavings.
-/

namespace Infinigpu

/-- Errors from ring operations. -/
inductive RingError where
  | badGeometry
  | full
deriving DecidableEq, Repr

/-- The index words: the producer owns `tail` and `seqnoSubmit`, the consumer the others. -/
structure Indices where
  tail : UInt32
  head : UInt32
  seqnoSubmit : UInt64
  seqnoRetired : UInt64
  status : UInt32
deriving DecidableEq, Repr

def Indices.new : Indices where
  tail := 0
  head := 0
  seqnoSubmit := 0
  seqnoRetired := 0
  status := 0

/-! ### Geometry -/

/-- A number of slots that `from_parts` accepts. -/
structure Geometry where
  slots : Nat
  pow2 : slots.isPowerOfTwo
  le_max : slots ≤ 2 ^ 32 - 1

namespace Geometry

def fromParts (slots : Nat) : Except RingError Geometry :=
  if h : slots = 0 ∨ ¬ slots.isPowerOfTwo ∨ slots > 2 ^ 32 - 1 then
    .error .badGeometry
  else
    .ok
      { slots
        pow2 := by simp only [not_or, not_not] at h; exact h.2.1
        le_max := by omega }

/-- Every other number of slots is refused. -/
theorem fromParts_eq_ok {slots : Nat} (hpow : slots.isPowerOfTwo) (hle : slots ≤ 2 ^ 32 - 1) :
    ∃ g, fromParts slots = .ok g ∧ g.slots = slots := by
  have hpos := Nat.pos_of_isPowerOfTwo hpow
  rw [fromParts, dif_neg (by rw [not_or, not_or, not_not]; exact ⟨by omega, hpow, by omega⟩)]
  exact ⟨_, rfl, rfl⟩

/-- Two slots are a ring. -/
theorem two_pow2 : Nat.isPowerOfTwo 2 := ⟨1, rfl⟩

theorem two_le_max : 2 ≤ 2 ^ 32 - 1 := by decide

variable (g : Geometry)

def mask : UInt32 := UInt32.ofNat (g.slots - 1)

def capacity : UInt32 := g.mask + 1

theorem slots_pos : 0 < g.slots := Nat.pos_of_isPowerOfTwo g.pow2

private theorem mask_toNat : g.mask.toNat = g.slots - 1 := by
  have := g.le_max
  rw [mask, UInt32.toNat_ofNat']
  omega

theorem capacity_toNat : g.capacity.toNat = g.slots := by
  have := g.le_max
  have := g.slots_pos
  rw [capacity, UInt32.toNat_add, mask_toNat, UInt32.toNat_one]
  omega

private theorem slots_dvd : g.slots ∣ 2 ^ 32 := by
  obtain ⟨k, hk⟩ := g.pow2
  have := g.le_max
  have hlt : 2 ^ k < 2 ^ 32 := by omega
  rw [hk]
  exact Nat.pow_dvd_pow 2 (Nat.pow_lt_pow_iff_right (by omega) |>.1 hlt).le

/-- `index & mask`. -/
private theorem and_mask (i : UInt32) : (i &&& g.mask).toNat = Counter.slot g.slots i := by
  obtain ⟨k, hk⟩ := g.pow2
  rw [UInt32.toNat_and, mask_toNat, Counter.slot, hk, Nat.and_two_pow_sub_one_eq_mod]

def slotIndex (i : UInt32) : Fin g.slots :=
  ⟨(i &&& g.mask).toNat, by rw [and_mask]; exact Nat.mod_lt _ g.slots_pos⟩

theorem slotIndex_inj (x : UInt32) {i j : Nat} (hi : i < g.slots) (hj : j < g.slots)
    (h : g.slotIndex (x + UInt32.ofNat i) = g.slotIndex (x + UInt32.ofNat j)) : i = j := by
  rw [slotIndex, slotIndex, Fin.mk.injEq, and_mask, and_mask] at h
  exact Counter.slot_add_inj g.slots_dvd x hi hj h

private theorem slotIndex_add_mod (x : UInt32) (j : Nat) :
    g.slotIndex (x + UInt32.ofNat (j % g.slots)) = g.slotIndex (x + UInt32.ofNat j) := by
  rw [slotIndex, slotIndex, Fin.mk.injEq, and_mask, and_mask, Counter.slot_add g.slots_dvd,
    Counter.slot_add g.slots_dvd, Nat.add_mod_mod]

end Geometry

/-! ### The view -/

/-- What a ring view shows: the slots and the index words. -/
structure Ring (g : Geometry) (T : Type*) where
  slots : Fin g.slots → T
  idx : Indices

namespace Ring

variable {g : Geometry} {T : Type*} (r : Ring g T)

def len : UInt32 := r.idx.tail - r.idx.head

def isEmpty : Bool := r.len == 0

/-- The entries published and not yet released, oldest first. -/
def pending : List T := (List.range r.len.toNat).map fun j => r.slots (g.slotIndex (r.idx.head + UInt32.ofNat j))

theorem pending_length : r.pending.length = r.len.toNat := by rw [pending, List.length_map, List.length_range]

/-- Also in a ring whose words claim more entries than it has slots, every pending entry is among the first ones. -/
theorem mem_pending_take {x : T} (h : x ∈ r.pending) : x ∈ r.pending.take g.slots := by
  obtain ⟨j, hj, rfl⟩ := List.mem_map.1 h
  rw [List.mem_range] at hj
  have hmod : j % g.slots < g.slots := Nat.mod_lt _ g.slots_pos
  have hle := Nat.mod_le j g.slots
  rw [pending, ← List.map_take, List.take_range, List.mem_map]
  refine ⟨j % g.slots, List.mem_range.2 (Nat.lt_min.2 ⟨hmod, by omega⟩), ?_⟩
  rw [Geometry.slotIndex_add_mod]

def retired : UInt64 := r.idx.seqnoRetired

def submitted : UInt64 := r.idx.seqnoSubmit

def isFenceSignaled (seqno : UInt64) : Bool :=
  decide (r.retired - seqno < (1 : UInt64) <<< 63) && decide (r.retired ≥ seqno)

end Ring

/-! ### Memories a ring is a view over -/

/-- A memory `M` that holds a ring of `w`-word entries, with the stores its two ends issue. -/
structure Store (g : Geometry) (w : Nat) (β M : Type*) where
  view : M → Ring g (Fin w → β)
  storeTail : UInt32 → M → M
  storeHead : UInt32 → M → M
  storeSeqnoSubmit : UInt64 → M → M
  storeSeqnoRetired : UInt64 → M → M
  storeWord : Fin g.slots → Fin w → β → M → M

namespace Store

variable {g : Geometry} {w : Nat} {β M : Type*} (S : Store g w β M)

/-- Each store changes the word it names and nothing else of the view. -/
structure Lawful : Prop where
  view_storeTail (v : UInt32) (m : M) :
    S.view (S.storeTail v m) = { S.view m with idx := { (S.view m).idx with tail := v } }
  view_storeHead (v : UInt32) (m : M) :
    S.view (S.storeHead v m) = { S.view m with idx := { (S.view m).idx with head := v } }
  view_storeSeqnoSubmit (v : UInt64) (m : M) :
    S.view (S.storeSeqnoSubmit v m) = { S.view m with idx := { (S.view m).idx with seqnoSubmit := v } }
  view_storeSeqnoRetired (v : UInt64) (m : M) :
    S.view (S.storeSeqnoRetired v m) = { S.view m with idx := { (S.view m).idx with seqnoRetired := v } }
  view_storeWord (i : Fin g.slots) (k : Fin w) (x : β) (m : M) :
    S.view (S.storeWord i k x m) = { S.view m with
      slots := Function.update (S.view m).slots i (Function.update ((S.view m).slots i) k x) }

/-! ### The operations, one call at a time -/

/-- The slot write, word after word. -/
def writeSlot (i : Fin g.slots) (item : Fin w → β) (m : M) : M :=
  (List.finRange w).foldl (fun m k => S.storeWord i k (item k) m) m

def push (item : Fin w → β) (m : M) : Except RingError UInt64 × M :=
  let tail := (S.view m).idx.tail
  let head := (S.view m).idx.head
  if tail - head ≥ g.capacity then
    (.error .full, m)
  else
    let m := S.writeSlot (g.slotIndex tail) item m
    let seqno := (tail + 1).toUInt64
    let m := S.storeSeqnoSubmit seqno m
    let m := S.storeTail (tail + 1) m
    (.ok seqno, m)

def pop (m : M) : Option (Fin w → β) × M :=
  let head := (S.view m).idx.head
  let tail := (S.view m).idx.tail
  if head = tail then
    (none, m)
  else
    let item := (S.view m).slots (g.slotIndex head)
    (some item, S.storeHead (head + 1) m)

/-- Publishes the highest retired seqno. -/
def retire (seqno : UInt64) (m : M) : M := S.storeSeqnoRetired seqno m

end Store

/-- The ring in memory of its own: the view is the memory. -/
def Ring.store (g : Geometry) (w : Nat) (β : Type*) : Store g w β (Ring g (Fin w → β)) where
  view r := r
  storeTail v r := { r with idx := { r.idx with tail := v } }
  storeHead v r := { r with idx := { r.idx with head := v } }
  storeSeqnoSubmit v r := { r with idx := { r.idx with seqnoSubmit := v } }
  storeSeqnoRetired v r := { r with idx := { r.idx with seqnoRetired := v } }
  storeWord i k x r := { r with slots := Function.update r.slots i (Function.update (r.slots i) k x) }

theorem Ring.store_lawful (g : Geometry) (w : Nat) (β : Type*) : (Ring.store g w β).Lawful where
  view_storeTail _ _ := rfl
  view_storeHead _ _ := rfl
  view_storeSeqnoSubmit _ _ := rfl
  view_storeSeqnoRetired _ _ := rfl
  view_storeWord _ _ _ _ := rfl

/-! ### The operations, one load or store at a time -/

/-- Where a call of `push` stands.  `write item tail n` has copied the words below `n`. -/
inductive PushPc (w : Nat) (β : Type*) where
  | loadTail (item : Fin w → β)
  | loadHead (item : Fin w → β) (tail : UInt32)
  | write (item : Fin w → β) (tail : UInt32) (n : Nat)
  | storeSubmit (item : Fin w → β) (tail : UInt32)
  | storeTail (item : Fin w → β) (tail : UInt32)

/-- Where a call of `pop` stands.  `read head words` has copied `words`, the first ones of the slot. -/
inductive PopPc (w : Nat) (β : Type*) where
  | loadHead
  | loadTail (head : UInt32)
  | read (head : UInt32) (words : List β)
  | storeHead (head : UInt32) (item : Fin w → β)

/-- What one step of a call leads to: the next point of the call, or its result. -/
inductive Progress (P R M : Type*) where
  | running (pc : P) (m : M)
  | done (result : R) (m : M)

def Progress.mem {P R M : Type*} : Progress P R M → M
  | .running _ m => m
  | .done _ m => m

namespace Store

variable {g : Geometry} {w : Nat} {β M : Type*} (S : Store g w β M)

def pushStep (m : M) : PushPc w β → Progress (PushPc w β) (Except RingError UInt64) M
  | .loadTail item => .running (.loadHead item (S.view m).idx.tail) m
  | .loadHead item tail =>
    let head := (S.view m).idx.head
    if tail - head ≥ g.capacity then
      .done (.error .full) m
    else
      .running (.write item tail 0) m
  | .write item tail n =>
    if h : n < w then
      .running (.write item tail (n + 1)) (S.storeWord (g.slotIndex tail) ⟨n, h⟩ (item ⟨n, h⟩) m)
    else
      .running (.storeSubmit item tail) m
  | .storeSubmit item tail => .running (.storeTail item tail) (S.storeSeqnoSubmit (tail + 1).toUInt64 m)
  | .storeTail _ tail => .done (.ok (tail + 1).toUInt64) (S.storeTail (tail + 1) m)

def popStep (m : M) : PopPc w β → Progress (PopPc w β) (Option (Fin w → β)) M
  | .loadHead => .running (.loadTail (S.view m).idx.head) m
  | .loadTail head =>
    if head = (S.view m).idx.tail then
      .done none m
    else
      .running (.read head []) m
  | .read head words =>
    if h : words.length < w then
      .running (.read head (words ++ [(S.view m).slots (g.slotIndex head) ⟨words.length, h⟩])) m
    else
      .running (.storeHead head fun k => words.get ⟨k, by omega⟩) m
  | .storeHead head item => .done (some item) (S.storeHead (head + 1) m)

end Store

end Infinigpu
