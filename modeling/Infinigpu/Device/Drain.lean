import Infinigpu.Device.Rings
import Infinigpu.Ring.Steps

/-!
# What a drain pops and retires (`infinigpu-device`, `drain.rs`)

* `popBatch_lawful`: over a ring, a batch is the oldest pending entries, in order;
* `popBatch_bounded`: its highest seqno bounds every seqno of the batch;
* `serveRing_highest`: after the batch, the retired word and the register are its highest seqno, if that is not zero;
* `serveRing_unnumbered`: a batch without seqnos that neither submits nor flushes leaves both as they were.
-/

namespace Infinigpu

variable {g : Geometry} {M : Type*}

namespace Drained

/-- The highest seqno bounds all of them. -/
def Bounded (out : Drained) : Prop := ∀ d ∈ out.descriptors, d.seqno ≤ out.highestSeqno

private theorem le_push (out : Drained) (d : Descriptor) :
    out.highestSeqno ≤ (out.push d).highestSeqno ∧ d.seqno ≤ (out.push d).highestSeqno := by
  unfold push
  by_cases h : d.seqno > out.highestSeqno
  · rw [if_pos h]
    exact ⟨UInt64.le_of_lt h, UInt64.le_refl _⟩
  · rw [if_neg h]
    exact ⟨UInt64.le_refl _, UInt64.not_lt.1 h⟩

theorem Bounded.push {out : Drained} (h : out.Bounded) (d : Descriptor) : (out.push d).Bounded := by
  obtain ⟨hle, hd⟩ := le_push out d
  intro e he
  rcases List.mem_append.1 he with he | he
  · exact UInt64.le_trans (h e he) hle
  · rw [List.mem_singleton] at he
    subst he
    exact hd

/-- The highest seqno is zero or one of them. -/
def Attained (out : Drained) : Prop := out.highestSeqno = 0 ∨ ∃ d ∈ out.descriptors, d.seqno = out.highestSeqno

theorem Attained.push {out : Drained} (h : out.Attained) (d : Descriptor) : (out.push d).Attained := by
  unfold Attained Drained.push
  by_cases hgt : d.seqno > out.highestSeqno
  · rw [if_pos hgt]
    exact .inr ⟨d, List.mem_append_right _ (List.mem_singleton_self d), rfl⟩
  · rw [if_neg hgt]
    rcases h with h | ⟨e, he, heq⟩
    · exact .inl h
    · exact .inr ⟨e, List.mem_append_left _ he, heq⟩

/-- A batch with the descriptors of some slots added to it. -/
def pushAll (out : Drained) (slots : List (Fin descriptorSize → UInt8)) : Drained :=
  slots.foldl (fun out slot => out.push (.ofSlot slot)) out

private theorem pushAll_descriptors (out : Drained) (slots : List (Fin descriptorSize → UInt8)) :
    (out.pushAll slots).descriptors = out.descriptors ++ slots.map .ofSlot := by
  induction slots generalizing out with
  | nil => exact (List.append_nil _).symm
  | cons slot slots ih =>
    show ((out.push (.ofSlot slot)).pushAll slots).descriptors = _
    rw [ih, push, List.append_assoc, List.map_cons]
    rfl

end Drained

/-- A bound on the seqnos is kept by the loop. -/
private theorem popLoop_bounded (S : Store g descriptorSize UInt8 M) (n : Nat) {out : Drained}
    (h : out.Bounded) (m : M) :
    (popLoop S n out m).1.Bounded := by
  induction n generalizing out m with
  | zero => exact h
  | succ n ih =>
    simp only [popLoop]
    split
    · exact ih (h.push _) _
    · exact h

theorem popBatch_bounded (S : Store g descriptorSize UInt8 M) (max : Nat) (m : M) : (popBatch S max m).1.Bounded :=
  popLoop_bounded S _ (fun _ h => absurd h List.not_mem_nil) m

private theorem popLoop_attained (S : Store g descriptorSize UInt8 M) (n : Nat) {out : Drained}
    (h : out.Attained) (m : M) :
    (popLoop S n out m).1.Attained := by
  induction n generalizing out m with
  | zero => exact h
  | succ n ih =>
    simp only [popLoop]
    split
    · exact ih (h.push _) _
    · exact h

private theorem popBatch_attained (S : Store g descriptorSize UInt8 M) (max : Nat) (m : M) :
    (popBatch S max m).1.Attained :=
  popLoop_attained S _ (.inl rfl) m

/-- Over a ring, the loop takes the oldest entries. -/
theorem popLoop_lawful {S : Store g descriptorSize UInt8 M} (hS : S.Lawful) (n : Nat) (out : Drained) (m : M) :
    (popLoop S n out m).1 = out.pushAll ((S.view m).pending.take n) := by
  induction n generalizing out m with
  | zero => rfl
  | succ n ih =>
    simp only [popLoop, Store.pop]
    by_cases hempty : (S.view m).idx.head = (S.view m).idx.tail
    · have hpending : (S.view m).pending = [] := by
        rw [← List.length_eq_zero_iff, Ring.pending_length, Ring.len_eq_zero]
        exact hempty
      rw [if_pos hempty, hpending]
      rfl
    · have hlen : 0 < (S.view m).len.toNat := Nat.pos_of_ne_zero (mt Ring.len_eq_zero.1 hempty)
      have hview : S.view (S.storeHead ((S.view m).idx.head + 1) m) = (S.view m).release := hS.view_storeHead _ _
      rw [if_neg hempty, Ring.pending_release hlen]
      show (popLoop S n _ _).1 = _
      rw [ih, hview]
      rfl

/-- Over a ring, everything that is pending is in a batch as large as the ring. -/
theorem mem_popBatch_lawful {S : Store g descriptorSize UInt8 M} (hS : S.Lawful) {m : M} {desc : Descriptor}
    (h : desc ∈ (S.view m).pending.map .ofSlot) : desc ∈ (popBatch S g.slots m).1.descriptors := by
  obtain ⟨slot, hslot, rfl⟩ := List.mem_map.1 h
  have hbound : batchBound g g.slots = g.slots := by rw [batchBound, Geometry.capacity_toNat, Nat.min_self]
  rw [popBatch, popLoop_lawful hS, Drained.pushAll_descriptors, hbound]
  exact List.mem_append_right _ (List.mem_map_of_mem (Ring.mem_pending_take _ hslot))

/-- Over a ring that is not overfull, a batch as large as the ring is everything that is pending. -/
theorem popBatch_lawful {S : Store g descriptorSize UInt8 M} (hS : S.Lawful) {m : M}
    (hroom : (S.view m).len.toNat ≤ g.slots) :
    (popBatch S g.slots m).1.descriptors = (S.view m).pending.map .ofSlot := by
  have hbound : batchBound g g.slots = g.slots := by rw [batchBound, Geometry.capacity_toNat, Nat.min_self]
  rw [popBatch, popLoop_lawful hS, Drained.pushAll_descriptors, hbound,
    List.take_of_length_le (by rw [Ring.pending_length]; exact hroom)]
  rfl

/-- Popping does not touch the retired word, wherever the descriptors lie. -/
private theorem popLoop_retired (ip dp n : Nat) (out : Drained) (m : Memory) :
    (Indices.fromPtr (popLoop (sharedRing g ip dp) n out m).2 ip).seqnoRetired =
      (Indices.fromPtr m ip).seqnoRetired := by
  induction n generalizing out m with
  | zero => rfl
  | succ n ih =>
    simp only [popLoop, Store.pop]
    by_cases hempty : ((sharedRing g ip dp).view m).idx.head = ((sharedRing g ip dp).view m).idx.tail
    · rw [if_pos hempty]
    · rw [if_neg hempty]
      show (Indices.fromPtr (popLoop _ n _ _).2 ip).seqnoRetired = _
      rw [ih]
      simp (disch := decide) only [sharedRing, Indices.fromPtr, load_word_store]

/-- The word on the page after it was stored. -/
private theorem retire_retired (ip dp : Nat) (v : UInt64) (m : Memory) :
    (Indices.fromPtr ((sharedRing g ip dp).retire v m) ip).seqnoRetired = v := u64_store m _ v

theorem eq_zero_of_le_of_not_pos {a b : UInt64} (h : a ≤ b) (hb : ¬ b > 0) : a = 0 := by
  rw [UInt64.le_iff_toNat_le] at h
  rw [gt_iff_lt, UInt64.lt_iff_toNat_lt, UInt64.toNat_zero] at hb
  exact UInt64.toNat_inj.1 (by rw [UInt64.toNat_zero]; omega)

namespace Backend

variable {env : Env} {ctx : Fin NUM_CONTEXTS}

/-- The batch a drain of the ring pops. -/
def batch (g : Geometry) (r : RingMemory) (d : Backend) : Drained :=
  (popBatch (sharedRing g r.indexPtr r.descPtr) r.cap d.mem).1

theorem batch_bounded (g : Geometry) (r : RingMemory) (d : Backend) : (d.batch g r).Bounded :=
  popBatch_bounded _ _ _

theorem batch_attained (g : Geometry) (r : RingMemory) (d : Backend) : (d.batch g r).Attained :=
  popBatch_attained _ _ _

theorem Quiet.batch {d d' : Backend} (h : Quiet d d') (g : Geometry) (r : RingMemory) :
    d'.batch g r = d.batch g r := by
  rw [Backend.batch, Backend.batch, h.mem]

/-- The device after the first phase. -/
def popped (g : Geometry) (r : RingMemory) (d : Backend) : Backend :=
  { d with mem := (popBatch (sharedRing g r.indexPtr r.descPtr) r.cap d.mem).2 }

theorem popped_keeps (g : Geometry) (r : RingMemory) (d : Backend) : Keeps d (d.popped g r) :=
  ⟨rfl, rfl, rfl, rfl, id⟩

private theorem retireBatch_keeps (S : Store g descriptorSize UInt8 Memory) (v : UInt64) (d : Backend) :
    Keeps d (d.retireBatch S ctx v) := by
  unfold retireBatch
  split
  · exact ⟨rfl, rfl, rfl, rfl, id⟩
  · exact .refl d

theorem serveRing_eq (g : Geometry) (r : RingMemory) (ctx : Fin NUM_CONTEXTS) (d : Backend) :
    d.serveRing env g r ctx =
      ((d.popped g r).executeBatch env ctx (d.batch g r).descriptors).retireBatch
        (sharedRing g r.indexPtr r.descPtr) ctx (d.batch g r).highestSeqno := rfl

theorem serveRing_keeps (env : Env) (ctx : Fin NUM_CONTEXTS) (g : Geometry) (r : RingMemory) (d : Backend) :
    Keeps d (d.serveRing env g r ctx) := by
  rw [serveRing_eq]
  exact ((popped_keeps g r d).trans (executeBatch_keeps _ _ _ _)).trans (retireBatch_keeps _ _ _)

/-- A batch with a seqno leaves its highest one in both places, whatever its descriptors did to them. -/
theorem serveRing_highest (env : Env) {r : RingMemory} {d : Backend} (hr : d.ringMemory ctx = some r)
    (h : (d.batch g r).highestSeqno > 0) :
    (d.serveRing env g r ctx).sharedRetired ctx = some (d.batch g r).highestSeqno ∧
      (d.serveRing env g r ctx).ringRetired ctx = (d.batch g r).highestSeqno := by
  have hr' := (serveRing_keeps env ctx g r d).ringMemory ctx
  rw [sharedRetired_of_ringMemory (hr'.trans hr), serveRing_eq, retireBatch, if_pos h]
  exact ⟨congrArg some (retire_retired (g := g) r.indexPtr r.descPtr _ _), retire_self _ _ _⟩

/-- A batch without seqnos whose descriptors are quiet leaves both as they were. -/
theorem serveRing_unnumbered (env : Env) {r : RingMemory} {d : Backend} (hr : d.ringMemory ctx = some r)
    (h : ¬ (d.batch g r).highestSeqno > 0)
    (hquiet : ∀ desc ∈ (d.batch g r).descriptors,
      desc.msgType ≠ MsgType.submitCmd ∧ desc.msgType ≠ MsgType.resourceFlush) :
    (d.serveRing env g r ctx).sharedRetired ctx = d.sharedRetired ctx ∧
      (d.serveRing env g r ctx).ringRetired = d.ringRetired := by
  have hexec := executeBatch_quiet env ctx hquiet (d.popped g r)
  have hr' := (popped_keeps g r d).ringMemory ctx
  rw [serveRing_eq, retireBatch, if_neg h, hexec.sharedRetired, hexec.ringRetired,
    sharedRetired_of_ringMemory (hr'.trans hr), sharedRetired_of_ringMemory hr]
  exact ⟨congrArg some (popLoop_retired _ _ _ _ _), rfl⟩

/-- Every seqno of a batch is reported once the batch is served. -/
private theorem serveRing_reports (env : Env) {r : RingMemory} {d : Backend} (hr : d.ringMemory ctx = some r)
    {desc : Descriptor} (hdesc : desc ∈ (d.batch g r).descriptors) :
    ∃ word, (d.serveRing env g r ctx).sharedRetired ctx = some word ∧ desc.seqno ≤ word := by
  have hle := batch_bounded g r d desc hdesc
  by_cases h : (d.batch g r).highestSeqno > 0
  · exact ⟨_, (serveRing_highest env hr h).1, hle⟩
  · have hr' := (serveRing_keeps env ctx g r d).ringMemory ctx
    refine ⟨_, sharedRetired_of_ringMemory (hr'.trans hr), ?_⟩
    -- the highest seqno is zero, and so is this one
    rw [UInt64.le_iff_toNat_le] at hle ⊢
    rw [gt_iff_lt, UInt64.lt_iff_toNat_lt, UInt64.toNat_zero] at h
    omega

/-- A drain of an admitted VM reports every descriptor it takes. -/
theorem drainCtx_reports {d : Backend} {r : RingMemory} (hr : d.ringMemory ctx = some r)
    (hg : Geometry.fromParts r.cap = .ok g) (hadm : (d.ensureAdmitted env).1 = true) {desc : Descriptor}
    (hdesc : desc ∈ (d.batch g r).descriptors) :
    ∃ word, (d.drainCtx env ctx).sharedRetired ctx = some word ∧ desc.seqno ≤ word := by
  rcases drainCtx_of_ringMemory env hr hg with ⟨-, -, heq⟩ | ⟨hdenied, -⟩
  · have hq := ensureAdmitted_quiet env d
    rw [heq]
    exact serveRing_reports env ((hq.ringMemory ctx).trans hr) (by rw [hq.batch]; exact hdesc)
  · rw [hadm] at hdenied
    cases hdenied

end Backend

end Infinigpu
