import Infinigpu.Guest.Display

/-!
# The producers in C (`guest_ring_ref.c`, `igpu_ring2_push`)

Two routines in C publish a descriptor on the ring in guest memory: the reference of the conformance crate, for any
capacity, and the kernel driver's, for its own ring and with the payload staged in the area of the slot.  Both store
the fields of the descriptor one after another, and both are compared with `Ring::push` on the same memory
(`CPush.Mirrors`).

They widen the tail before they add one and `Ring::push` adds one before it widens, so they agree exactly as long as
the tail that is published does not wrap (`CPush.mirrors_iff`).
-/

namespace Infinigpu

namespace Descriptor

def encode (d : Descriptor) : List UInt8 :=
  Bytes.ofWords [d.msgType, d.flags, d.len, d.dataOffset] ++ Bytes.ofValue 8 d.seqno.toNat ++
    Bytes.ofValue 8 d.payloadAddr.toNat

theorem encode_length (d : Descriptor) : d.encode.length = descriptorSize := by
  rw [encode, List.length_append, List.length_append, Bytes.ofWords_length, Bytes.ofValue_length,
    Bytes.ofValue_length]
  rfl

/-- The descriptor as the entry of a ring. -/
def toSlot (d : Descriptor) : Fin descriptorSize → UInt8 :=
  fun k => d.encode.get ⟨k, by rw [encode_length]; exact k.isLt⟩

private theorem ofFn_toSlot (d : Descriptor) : List.ofFn d.toSlot = d.encode := by
  refine List.ext_getElem (by rw [List.length_ofFn, encode_length]) fun i hi hi' => ?_
  rw [List.getElem_ofFn]
  rfl

theorem decode_encode (d : Descriptor) : decode d.encode = d := by
  cases d with
  | mk msgType flags len dataOffset seqno payloadAddr =>
    have hseqno : u64At (encode ⟨msgType, flags, len, dataOffset, seqno, payloadAddr⟩) 16 = seqno := by
      have hfits : 16 + 8 ≤ (Bytes.ofWords [msgType, flags, len, dataOffset] ++
        Bytes.ofValue 8 seqno.toNat).length := by
        rw [List.length_append, Bytes.ofWords_length, Bytes.ofValue_length]
        exact Nat.le_refl _
      have hslice := Bytes.slice_append_right (Bytes.ofWords [msgType, flags, len, dataOffset])
        (Bytes.ofValue 8 seqno.toNat)
      rw [Bytes.ofWords_length, Bytes.ofValue_length] at hslice
      rw [u64At, encode, Bytes.slice_append_left hfits]
      exact (congrArg Bytes.u64 hslice).trans (Bytes.u64_ofValue seqno)
    have haddr : u64At (encode ⟨msgType, flags, len, dataOffset, seqno, payloadAddr⟩) 24 = payloadAddr := by
      have hslice := Bytes.slice_append_right
        (Bytes.ofWords [msgType, flags, len, dataOffset] ++ Bytes.ofValue 8 seqno.toNat)
          (Bytes.ofValue 8 payloadAddr.toNat)
      rw [List.length_append, Bytes.ofWords_length, Bytes.ofValue_length, Bytes.ofValue_length] at hslice
      exact (congrArg Bytes.u64 hslice).trans (Bytes.u64_ofValue payloadAddr)
    rw [decode, hseqno, haddr, mk.injEq, encode, List.append_assoc]
    exact ⟨u32At_ofWords (i := 0) _ rfl, u32At_ofWords (i := 1) _ rfl, u32At_ofWords (i := 2) _ rfl,
      u32At_ofWords (i := 3) _ rfl, rfl, rfl⟩

private theorem ofSlot_toSlot (d : Descriptor) : ofSlot d.toSlot = d := by rw [ofSlot, ofFn_toSlot, decode_encode]

/-- `d->field = ..` for one field after another. -/
def storeFields (slot : Nat) (d : Descriptor) (mem : Memory) : Memory :=
  let mem := mem.store slot (Bytes.ofValue 4 d.msgType.toNat)
  let mem := mem.store (slot + 4) (Bytes.ofValue 4 d.flags.toNat)
  let mem := mem.store (slot + 8) (Bytes.ofValue 4 d.len.toNat)
  let mem := mem.store (slot + 12) (Bytes.ofValue 4 d.dataOffset.toNat)
  let mem := mem.store (slot + 16) (Bytes.ofValue 8 d.seqno.toNat)
  mem.store (slot + 24) (Bytes.ofValue 8 d.payloadAddr.toNat)

private theorem storeFields_eq (slot : Nat) (d : Descriptor) (mem : Memory) :
    d.storeFields slot mem = mem.store slot d.encode := by
  simp only [encode, Bytes.ofWords_cons, Memory.store_append, List.length_append, Bytes.ofValue_length,
    Bytes.ofWords_length, List.length_nil]
  simp only [Bytes.ofWords, List.flatMap_nil, Memory.store_nil, Nat.add_assoc]
  rfl

end Descriptor

/-! ### The routines -/

/-- `igpu_gref_push`: the number of the descriptor, or 0 if the ring is full. -/
def igpuGrefPush (idxBase descBase : Nat) (cap msgType dataOffset len : UInt32) (mem : Memory) : UInt64 × Memory :=
  let tail := (Indices.fromPtr mem idxBase).tail
  let head := (Indices.fromPtr mem idxBase).head
  if tail - head ≥ cap then
    (0, mem)
  else
    let slot := descBase + (tail &&& (cap - 1)).toNat * descriptorSize
    let seqno := tail.toUInt64 + 1
    let d : Descriptor := { msgType, flags := 0, len, dataOffset, seqno, payloadAddr := 0 }
    let mem := d.storeFields slot mem
    let mem := mem.store (idxBase + seqnoSubmitOffset) (Bytes.ofValue 8 seqno.toNat)
    let mem := mem.store (idxBase + tailOffset) (Bytes.ofValue 4 (tail + 1).toNat)
    (seqno, mem)

namespace Kmd

/-- The driver's two allocations: the index page, and the descriptors with the payload areas behind them. -/
structure Ring2Area where
  idx : Nat
  descs : Nat
  apart : idx + indicesSize ≤ descs ∨
    descs + (RING2_CAP.toNat * descriptorSize + RING2_CAP.toNat * RING2_PSTRIDE.toNat) ≤ idx

/-- A message that fits the payload area of a slot, as those of every caller do. -/
structure Slotted where
  msgType : UInt32
  payload : List UInt8
  fits : payload.length ≤ RING2_PSTRIDE.toNat

namespace Ring2Area

def payloads (a : Ring2Area) : Nat := a.descs + RING2_CAP.toNat * descriptorSize

/-- `igpu_ring2_push` up to the doorbell: the memory then, unless the message is dropped. -/
def publish (a : Ring2Area) (msgType : UInt32) (payload : List UInt8) (mem : Memory) : Option Memory :=
  let tail := (Indices.fromPtr mem a.idx).tail
  let head := (Indices.fromPtr mem a.idx).head
  if tail - head ≥ RING2_CAP then
    none
  else if payload.length > RING2_PSTRIDE.toNat then
    none
  else
    let slot := tail &&& (RING2_CAP - 1)
    let d := ring2Push tail msgType (UInt32.ofNat payload.length)
    let mem := mem.store (a.payloads + slot.toNat * RING2_PSTRIDE.toNat) payload
    let mem := d.storeFields (a.descs + slot.toNat * descriptorSize) mem
    let mem := mem.store (a.idx + seqnoSubmitOffset) (Bytes.ofValue 8 d.seqno.toNat)
    some (mem.store (a.idx + tailOffset) (Bytes.ofValue 4 (tail + 1).toNat))

end Ring2Area

end Kmd

/-! ### The stores of the routines are those of a push -/

private theorem sharedRing_stores (g : Geometry) (ip dp : Nat) (d : Descriptor) (v : UInt64) (mem : Memory) :
    (sharedRing g ip dp).stores d.toSlot v mem =
      ((d.storeFields (dp + ((Indices.fromPtr mem ip).tail &&& (g.capacity - 1)).toNat * descriptorSize) mem).store
        (ip + seqnoSubmitOffset) (Bytes.ofValue 8 v.toNat)).store
        (ip + tailOffset) (Bytes.ofValue 4 ((Indices.fromPtr mem ip).tail + 1).toNat) := by
  have hmask : g.capacity - 1 = g.mask := UInt32.add_sub_cancel _ _
  have hslot : ∀ (i : Fin g.slots) (m : Memory), (sharedRing g ip dp).writeSlot i d.toSlot m =
      d.storeFields (dp + i.val * descriptorSize) m := by
    intro i m
    rw [Descriptor.storeFields_eq, ← Descriptor.ofFn_toSlot, Nat.mul_comm, ← Memory.foldl_store]
    rfl
  rw [Store.stores, hslot, hmask]
  rfl

/-- The words of the page after the two index stores. -/
private theorem seqnoSubmit_of_stores (g : Geometry) (ip dp : Nat) (item : Fin descriptorSize → UInt8) (v : UInt64)
    (mem : Memory) :
    ((sharedRing g ip dp).view ((sharedRing g ip dp).stores item v mem)).idx.seqnoSubmit = v := by
  show Bytes.u64 (Memory.load (Memory.store _ (ip + tailOffset) _) (ip + seqnoSubmitOffset) 8) = v
  rw [load_word_store _ (.inr (by decide))]
  exact u64_store _ _ v

private theorem igpuGrefPush_full {g : Geometry} {ip dp : Nat} {mem : Memory} (h : (sharedRing g ip dp).Full mem)
    (msgType dataOffset len : UInt32) : igpuGrefPush ip dp g.capacity msgType dataOffset len mem = (0, mem) :=
    if_pos h

private theorem igpuGrefPush_room {g : Geometry} {ip dp : Nat} {mem : Memory} (h : ¬ (sharedRing g ip dp).Full mem)
    (msgType dataOffset len : UInt32) :
    igpuGrefPush ip dp g.capacity msgType dataOffset len mem =
      ((Indices.fromPtr mem ip).tail.toUInt64 + 1,
        (sharedRing g ip dp).stores
          (Descriptor.toSlot ⟨msgType, 0, len, dataOffset, (Indices.fromPtr mem ip).tail.toUInt64 + 1, 0⟩)
          ((Indices.fromPtr mem ip).tail.toUInt64 + 1) mem) := by
  rw [sharedRing_stores]
  exact if_neg h

namespace Kmd

namespace Ring2Area

variable (a : Ring2Area)

/-- The driver's ring, as a ring in memory. -/
def ring : Store ring2Geometry descriptorSize UInt8 Memory := sharedRing ring2Geometry a.idx a.descs

private theorem ring_lawful : a.ring.Lawful := by
  have hdescs : descriptorSize * ring2Geometry.slots ≤
      RING2_CAP.toNat * descriptorSize + RING2_CAP.toNat * RING2_PSTRIDE.toNat := by decide
  have hapart := a.apart
  exact sharedRing_lawful (by unfold Apart; omega)

/-- The area of the slot of `tail`. -/
def payloadArea (tail : UInt32) : Nat := a.payloads + (tail &&& (RING2_CAP - 1)).toNat * RING2_PSTRIDE.toNat

/-- The payload lies behind the descriptors and off the index page. -/
private theorem view_staged (tail : UInt32) {payload : List UInt8} (hfits : payload.length ≤ RING2_PSTRIDE.toNat)
    (mem : Memory) :
    a.ring.view (mem.store (a.payloadArea tail) payload) = a.ring.view mem := by
  have hslot : (tail &&& (RING2_CAP - 1)).toNat < 16 := (ring2Geometry.slotIndex tail).isLt
  have hfits' : payload.length ≤ 128 := hfits
  have hapart : a.idx + 64 ≤ a.descs ∨ a.descs + (16 * 32 + 16 * 128) ≤ a.idx := a.apart
  have harea : a.payloadArea tail = a.descs + 16 * 32 + (tail &&& (RING2_CAP - 1)).toNat * 128 := rfl
  refine sharedRing_view_congr fun q hq => ?_
  have hq' : (a.idx ≤ q ∧ q < a.idx + 64) ∨ (a.descs ≤ q ∧ q < a.descs + 32 * 16) := hq
  rcases hq' with hidx | hdescs
  · by_cases hbelow : q < a.payloadArea tail
    · exact Memory.store_of_lt _ hbelow
    · exact Memory.store_of_ge (by omega)
  · exact Memory.store_of_lt _ (by omega)

private theorem publish_full {mem : Memory} (h : a.ring.Full mem) (msgType : UInt32) (payload : List UInt8) :
    a.publish msgType payload mem = none := if_pos h

private theorem publish_room {mem : Memory} (h : ¬ a.ring.Full mem) (m : Slotted) :
    a.publish m.msgType m.payload mem =
      some (a.ring.stores
        (ring2Push (Indices.fromPtr mem a.idx).tail m.msgType (UInt32.ofNat m.payload.length)).toSlot
        ((Indices.fromPtr mem a.idx).tail.toUInt64 + 1)
        (mem.store (a.payloadArea (Indices.fromPtr mem a.idx).tail) m.payload)) := by
  have htail : (Indices.fromPtr (mem.store (a.payloadArea (Indices.fromPtr mem a.idx).tail) m.payload) a.idx).tail =
      (Indices.fromPtr mem a.idx).tail := congrArg (fun r => r.idx.tail) (a.view_staged _ m.fits mem)
  rw [ring, sharedRing_stores, htail, publish, if_neg (Nat.not_lt.2 m.fits)]
  exact if_neg h

end Ring2Area

end Kmd

/-! ### Agreement with `Ring::push` -/

/-- A push by one of the routines: its ring and its arguments. -/
inductive CPush where
  | gref (g : Geometry) (idxBase descBase : Nat) (msgType dataOffset len : UInt32)
  | ring2 (a : Kmd.Ring2Area) (m : Kmd.Slotted)

namespace CPush

def geometry : CPush → Geometry
  | gref g _ _ _ _ _ => g
  | ring2 _ _ => Kmd.ring2Geometry

/-- The ring that the routine pushes to. -/
def ring : (p : CPush) → Store p.geometry descriptorSize UInt8 Memory
  | gref g idxBase descBase _ _ _ => sharedRing g idxBase descBase
  | ring2 a _ => a.ring

def indexPtr : CPush → Nat
  | gref _ idxBase _ _ _ _ => idxBase
  | ring2 a _ => a.idx

def tail (p : CPush) (mem : Memory) : UInt32 := (Indices.fromPtr mem p.indexPtr).tail

/-- The descriptor of the message with the number `seqno`. -/
def descriptor (seqno : UInt64) (mem : Memory) : CPush → Descriptor
  | gref _ _ _ msgType dataOffset len => { msgType, flags := 0, len, dataOffset, seqno, payloadAddr := 0 }
  | ring2 a m =>
    { Kmd.ring2Push (Indices.fromPtr mem a.idx).tail m.msgType (UInt32.ofNat m.payload.length) with seqno }

/-- Whether the routine accepts the message. -/
def Accepts (mem : Memory) : CPush → Prop
  | gref g idxBase descBase msgType dataOffset len =>
    (igpuGrefPush idxBase descBase g.capacity msgType dataOffset len mem).1 ≠ 0
  | ring2 a m => (a.publish m.msgType m.payload mem).isSome

/-- What the routine leaves in memory, before the host is told. -/
def after (mem : Memory) : CPush → Memory
  | gref g idxBase descBase msgType dataOffset len =>
    (igpuGrefPush idxBase descBase g.capacity msgType dataOffset len mem).2
  | ring2 a m => (a.publish m.msgType m.payload mem).getD mem

/-- The routine does what `Ring::push` does with the descriptor of the message, given the number that the push
assigns: it accepts the same pushes and leaves the same slots and index words. -/
def Mirrors (p : CPush) (mem : Memory) : Prop :=
  ∀ n, (∀ s, (p.ring.push (p.descriptor n mem).toSlot mem).1 = .ok s → n = s) →
    (p.Accepts mem ↔ ∃ s, (p.ring.push (p.descriptor n mem).toSlot mem).1 = .ok s) ∧
      p.ring.view (p.after mem) = p.ring.view (p.ring.push (p.descriptor n mem).toSlot mem).2

variable (p : CPush) (mem : Memory)

private theorem view_tail : (p.ring.view mem).idx.tail = p.tail mem := by
  cases p <;> rfl

private theorem seqnoSubmit_stores (item : Fin descriptorSize → UInt8) (v : UInt64) :
    (p.ring.view (p.ring.stores item v mem)).idx.seqnoSubmit = v := by
  cases p with
  | gref g idxBase descBase msgType dataOffset len => exact seqnoSubmit_of_stores g idxBase descBase item v mem
  | ring2 a m => exact seqnoSubmit_of_stores _ a.idx a.descs item v mem

/-- The number that the routines give: the tail is widened first. -/
def cSeqno : UInt64 := (p.tail mem).toUInt64 + 1

private theorem toUInt64_succ_ne_zero (t : UInt32) : t.toUInt64 + 1 ≠ 0 := by
  have := t.toNat_lt
  intro h
  have hnat := congrArg UInt64.toNat h
  rw [UInt64.toNat_add, UInt32.toNat_toUInt64] at hnat
  simp only [UInt64.reduceToNat] at hnat
  omega

/-- Widening before and after the addition differ where the addition wraps. -/
private theorem toUInt64_succ_eq_iff (t : UInt32) : (t + 1).toUInt64 = t.toUInt64 + 1 ↔ t ≠ 0xFFFFFFFF := by
  have hlt := t.toNat_lt
  rw [← UInt64.toNat_inj, UInt64.toNat_add, UInt32.toNat_toUInt64, UInt32.toNat_toUInt64, UInt32.toNat_add, ne_eq,
    ← UInt32.toNat_inj]
  simp only [UInt64.reduceToNat, UInt32.reduceToNat]
  omega

variable {p mem}

private theorem full_spec (h : p.ring.Full mem) : ¬ p.Accepts mem ∧ p.after mem = mem := by
  cases p with
  | gref g idxBase descBase msgType dataOffset len =>
    have hpush := igpuGrefPush_full h msgType dataOffset len
    exact ⟨fun haccepts => haccepts (congrArg Prod.fst hpush), congrArg Prod.snd hpush⟩
  | ring2 a m =>
    have hpush := a.publish_full h m.msgType m.payload
    simp only [Accepts, after, hpush]
    exact ⟨by decide, rfl⟩

private theorem room_spec (h : ¬ p.ring.Full mem) :
    p.Accepts mem ∧ p.ring.view (p.after mem) =
      p.ring.view (p.ring.stores (p.descriptor (p.cSeqno mem) mem).toSlot (p.cSeqno mem) mem) := by
  cases p with
  | gref g idxBase descBase msgType dataOffset len =>
    have hroom : ¬ (sharedRing g idxBase descBase).Full mem := h
    have hpush := igpuGrefPush_room hroom msgType dataOffset len
    simp only [Accepts, after, hpush]
    exact ⟨toUInt64_succ_ne_zero _, rfl⟩
  | ring2 a m =>
    have hpush := a.publish_room h m
    have hview : ∀ (item : Fin descriptorSize → UInt8) (v : UInt64),
        a.ring.view (a.ring.stores item v (mem.store (a.payloadArea (Indices.fromPtr mem a.idx).tail) m.payload)) =
          a.ring.view (a.ring.stores item v mem) := by
      intro item v
      rw [Store.view_stores a.ring_lawful, Store.view_stores a.ring_lawful, a.view_staged _ m.fits]
    simp only [Accepts, after, hpush]
    exact ⟨rfl, hview _ _⟩

private theorem mirrors_of_full (h : p.ring.Full mem) : p.Mirrors mem := by
  obtain ⟨haccepts, hafter⟩ := full_spec h
  intro n _
  rw [Store.push_full h, hafter]
  refine ⟨⟨fun hyes => absurd hyes haccepts, ?_⟩, rfl⟩
  rintro ⟨s, hs⟩
  cases hs

private theorem mirrors_iff_of_room (h : ¬ p.ring.Full mem) : p.Mirrors mem ↔ p.tail mem ≠ 0xFFFFFFFF := by
  obtain ⟨haccepts, hafter⟩ := room_spec h
  have hpush := Store.push_room h
  rw [view_tail] at hpush
  rw [← toUInt64_succ_eq_iff]
  constructor
  · intro hmirrors
    have hview := (hmirrors ((p.tail mem + 1).toUInt64) (by
      intro s hs
      rw [hpush] at hs
      exact Except.ok.inj hs)).2
    rw [hafter, hpush] at hview
    have hsubmit := congrArg (fun r => r.idx.seqnoSubmit) hview
    simp only [seqnoSubmit_stores] at hsubmit
    exact hsubmit.symm
  · intro hsame n hn
    have hstamp := hn _ (congrArg Prod.fst (hpush _))
    rw [hpush, hafter, hstamp, hsame]
    exact ⟨⟨fun _ => ⟨_, rfl⟩, fun _ => haccepts⟩, rfl⟩

/-- The routines do as `Ring::push` does with any push that is refused, and with any other as long as the tail does
not wrap. -/
theorem mirrors_iff (p : CPush) (mem : Memory) : p.Mirrors mem ↔ p.ring.Full mem ∨ p.tail mem ≠ 0xFFFFFFFF := by
  by_cases h : p.ring.Full mem
  · exact ⟨fun _ => .inl h, fun _ => mirrors_of_full h⟩
  · rw [mirrors_iff_of_room h]
    exact ⟨.inr, fun htail => htail.resolve_left h⟩

/-- An empty ring whose indices are about to wrap. -/
def beforeWrap : Memory := .ofWords [0xFFFFFFFF, 0xFFFFFFFF]

/-- The reference pushes number 2 ^ 32 there, and `Ring::push` number 0. -/
theorem not_always_mirrors : ¬ ∀ (p : CPush) (mem : Memory), p.Mirrors mem := by
  intro h
  have hroom : ¬ (gref ⟨2, Geometry.two_pow2, Geometry.two_le_max⟩ 0 64 0 0 0).ring.Full beforeWrap := by
    decide +kernel
  exact (mirrors_iff_of_room hroom).1 (h _ _) (by decide +kernel)

end CPush

/-! ### The driver's ring, decoded -/

namespace Kmd

/-- The ring as its descriptors read. -/
def Ring2Area.shown (a : Ring2Area) (mem : Memory) : Ring ring2Geometry Descriptor where
  slots i := .ofSlot ((a.ring.view mem).slots i)
  idx := (a.ring.view mem).idx

/-- The stores of `igpu_ring2_push` publish its descriptor. -/
theorem Ring2Area.publish_shown (a : Ring2Area) (m : Slotted) {mem : Memory} (h : ¬ a.ring.Full mem) {r : CommandRing}
    (hr : a.shown mem = r.ring) :
    ∃ mem', a.publish m.msgType m.payload mem = some mem' ∧
      a.shown mem' = (r.publish (ring2Push r.ring.idx.tail m.msgType (UInt32.ofNat m.payload.length))).ring := by
  refine ⟨_, a.publish_room h m, ?_⟩
  have hslot : ∀ (slots : Fin ring2Geometry.slots → Fin descriptorSize → UInt8) (i : Fin ring2Geometry.slots)
      (d : Descriptor), (fun j => Descriptor.ofSlot (Function.update slots i d.toSlot j)) =
        Function.update (fun j => .ofSlot (slots j)) i d := by
    intro slots i d
    funext j
    by_cases hj : j = i
    · subst hj
      rw [Function.update_self, Function.update_self, Descriptor.ofSlot_toSlot]
    · rw [Function.update_of_ne hj, Function.update_of_ne hj]
  rw [← hr]
  simp only [shown, Store.view_stores a.ring_lawful, a.view_staged _ m.fits, hslot, CommandRing.publish, ← hr]
  rfl

end Kmd

end Infinigpu
