import Infinigpu.Device.Drain
import Infinigpu.Lib.Lts

/-!
# Retired seqnos over a run of drains

The two places where a guest reads what has retired on a context are the word on the index page and the register.
A drain stores the highest seqno of its batch in both, without looking at what is there (`drainCtx_advances_iff`), so
they stay or rise over a run exactly as long as the guest publishes its seqnos in order (`retired_advances`).
-/

namespace Infinigpu

namespace Backend

variable {env : Env} {ctx : Fin NUM_CONTEXTS}

/-- Neither the register of the context nor the word on its index page is lower than before. -/
structure Advances (ctx : Fin NUM_CONTEXTS) (d d' : Backend) : Prop where
  register : d.ringRetired ctx ≤ d'.ringRetired ctx
  word : ∀ v, d.sharedRetired ctx = some v → ∃ v', d'.sharedRetired ctx = some v' ∧ v ≤ v'

private theorem Advances.of_eq {d d' : Backend} (hregister : d'.ringRetired ctx = d.ringRetired ctx)
    (hword : d'.sharedRetired ctx = d.sharedRetired ctx) : Advances ctx d d' where
  register := UInt64.le_of_eq hregister.symm
  word v hv := ⟨v, hword.trans hv, UInt64.le_refl v⟩

private theorem Advances.refl (d : Backend) : Advances ctx d d := .of_eq rfl rfl

private theorem Advances.trans {d d' d'' : Backend} (h : Advances ctx d d') (h' : Advances ctx d' d'') :
    Advances ctx d d'' where
  register := UInt64.le_trans h.register h'.register
  word v hv := by
    obtain ⟨v', hv', hle⟩ := h.word v hv
    obtain ⟨v'', hv'', hle'⟩ := h'.word v' hv'
    exact ⟨v'', hv'', UInt64.le_trans hle hle'⟩

private theorem Quiet.advances {d d' : Backend} (h : Quiet d d') : Advances ctx d d' :=
  .of_eq (congrFun h.ringRetired ctx) (h.sharedRetired ctx)

/-- Where both places hold zero, they cannot fall. -/
private theorem Advances.of_zero {d d' : Backend} {r : RingMemory} (hr : d.ringMemory ctx = some r)
    (hkeeps : Keeps d d') (hregister : d.ringRetired ctx = 0)
    (hword : (Indices.fromPtr d.mem r.indexPtr).seqnoRetired = 0) :
    Advances ctx d d' where
  register := by
    rw [hregister]
    exact UInt64.zero_le
  word v hv := by
    rw [sharedRetired_of_ringMemory hr, hword, Option.some_inj] at hv
    refine ⟨_, sharedRetired_of_ringMemory ((hkeeps.ringMemory ctx).trans hr), ?_⟩
    rw [← hv]
    exact UInt64.zero_le

/-- A batch with a seqno keeps both places from falling exactly if its highest one is not below them. -/
private theorem serveRing_advances_iff {g : Geometry} {r : RingMemory} {d : Backend} (hr : d.ringMemory ctx = some r)
    (h : (d.batch g r).highestSeqno > 0) :
    Advances ctx d (d.serveRing env g r ctx) ↔
      d.ringRetired ctx ≤ (d.batch g r).highestSeqno ∧
        (Indices.fromPtr d.mem r.indexPtr).seqnoRetired ≤ (d.batch g r).highestSeqno := by
  obtain ⟨hword, hregister⟩ := serveRing_highest env hr h
  constructor
  · intro hadv
    obtain ⟨v, hv, hle⟩ := hadv.word _ (sharedRetired_of_ringMemory hr)
    rw [hword, Option.some_inj] at hv
    exact ⟨hregister ▸ hadv.register, hv ▸ hle⟩
  · rintro ⟨hle, hle'⟩
    refine ⟨by rw [hregister]; exact hle, fun v hv => ⟨_, hword, ?_⟩⟩
    rw [sharedRetired_of_ringMemory hr, Option.some_inj] at hv
    rw [← hv]
    exact hle'

/-! ### Runs -/

/-- The descriptors that a drain would take next are published in order: one of them has a seqno as high as both
places, or none of them has a seqno and none is a submission or a flush, which acknowledge by themselves. -/
def InOrder (env : Env) (ctx : Fin NUM_CONTEXTS) (d : Backend) : Prop :=
  ∀ r ∈ d.ringMemory ctx, ∀ g ∈ (Geometry.fromParts r.cap).toOption, (d.ensureAdmitted env).1 = true →
    (∃ desc ∈ (d.batch g r).descriptors,
      d.ringRetired ctx ≤ desc.seqno ∧ (Indices.fromPtr d.mem r.indexPtr).seqnoRetired ≤ desc.seqno) ∨
    ∀ desc ∈ (d.batch g r).descriptors,
      desc.seqno = 0 ∧ desc.msgType ≠ MsgType.submitCmd ∧ desc.msgType ≠ MsgType.resourceFlush

instance (env : Env) (ctx : Fin NUM_CONTEXTS) (d : Backend) : Decidable (d.InOrder env ctx) := by
  unfold InOrder; infer_instance

private theorem batch_highest_eq_zero {g : Geometry} {r : RingMemory} {d : Backend}
    (h : ∀ desc ∈ (d.batch g r).descriptors, desc.seqno = 0) : (d.batch g r).highestSeqno = 0 := by
  rcases d.batch_attained g r with hzero | ⟨desc, hdesc, heq⟩
  · exact hzero
  · rw [← heq, h desc hdesc]

/-- A drain of descriptors in order keeps both places from falling. -/
private theorem drainCtx_advances {d : Backend} (h : d.InOrder env ctx) : Advances ctx d (d.drainCtx env ctx) := by
  rcases drainCtx_cases env ctx d with ⟨-, hquiet⟩ | ⟨r, g, hr, hg, -, hadm, heq⟩
  · exact hquiet.advances
  · have hq := ensureAdmitted_quiet env d
    have hg' : g ∈ (Geometry.fromParts r.cap).toOption := by rw [hg]; rfl
    have hr' := (hq.ringMemory ctx).trans hr
    have hbatch := hq.batch g r
    rw [heq]
    refine hq.advances.trans ?_
    by_cases hzero : ((d.ensureAdmitted env).2.batch g r).highestSeqno > 0
    · rw [serveRing_advances_iff hr' hzero, hbatch, hq.ringRetired, hq.mem]
      rw [hbatch] at hzero
      rcases h r hr g hg' hadm with ⟨desc, hdesc, hregister, hword⟩ | hall
      · have hle := d.batch_bounded g r desc hdesc
        exact ⟨UInt64.le_trans hregister hle, UInt64.le_trans hword hle⟩
      · rw [batch_highest_eq_zero fun desc hdesc => (hall desc hdesc).1] at hzero
        exact absurd hzero (by decide)
    · rcases h r hr g hg' hadm with ⟨desc, hdesc, hregister, hword⟩ | hall
      · -- a seqno of zero is as high as both places
        have hle := d.batch_bounded g r desc hdesc
        rw [← hbatch] at hle
        refine .of_zero hr' (serveRing_keeps env ctx g r _) ?_ ?_
        · rw [hq.ringRetired]
          exact eq_zero_of_le_of_not_pos (UInt64.le_trans hregister hle) hzero
        · rw [hq.mem]
          exact eq_zero_of_le_of_not_pos (UInt64.le_trans hword hle) hzero
      · obtain ⟨hword, hregister⟩ := serveRing_unnumbered env hr' hzero fun desc hdesc =>
          (hall desc (hbatch ▸ hdesc)).2
        exact .of_eq (congrFun hregister ctx) hword

/-- A drain of the context, or anything else that happens to the machine and leaves both places alone. -/
inductive DrainAct where
  | drain (env : Env)
  | elsewhere (f : Backend → Backend)

def drainStep (ctx : Fin NUM_CONTEXTS) (d : Backend) : DrainAct → Option Backend
  | .drain env => some (d.drainCtx env ctx)
  | .elsewhere f =>
    if (f d).ringRetired ctx = d.ringRetired ctx ∧ (f d).sharedRetired ctx = d.sharedRetired ctx then
      some (f d)
    else
      none

/-- What a drain finds is in order. -/
def DrainsInOrder (ctx : Fin NUM_CONTEXTS) (d : Backend) : DrainAct → Prop
  | .drain env => d.InOrder env ctx
  | .elsewhere _ => True

instance (ctx : Fin NUM_CONTEXTS) (d : Backend) : (a : DrainAct) → Decidable (d.DrainsInOrder ctx a)
  | .drain env => inferInstanceAs (Decidable (d.InOrder env ctx))
  | .elsewhere _ => .isTrue trivial

private theorem drainStep_advances {d d' : Backend} {a : DrainAct} (h : d.DrainsInOrder ctx a)
    (hstep : d.drainStep ctx a = some d') : Advances ctx d d' := by
  cases a with
  | drain env =>
    simp only [drainStep, Option.some_inj] at hstep
    subst hstep
    exact drainCtx_advances h
  | elsewhere f =>
    simp only [drainStep] at hstep
    split at hstep
    · rename_i hkept
      rw [Option.some_inj] at hstep
      subst hstep
      exact .of_eq hkept.1 hkept.2
    · cases hstep

/-- Between any two points of a run whose drains all find their descriptors in order, nothing un-retires. -/
theorem retired_advances (ctx : Fin NUM_CONTEXTS) {d d₁ d₂ : Backend} {before between : List DrainAct}
    (h : Lts.Along (drainStep ctx) (DrainsInOrder ctx) d (before ++ between))
    (hbefore : Lts.run (drainStep ctx) d before = some d₁) (hbetween : Lts.run (drainStep ctx) d₁ between = some d₂) :
    Advances ctx d₁ d₂ :=
  (h.right hbefore).relates .refl (fun _ _ _ => .trans) (fun _ _ _ => drainStep_advances) hbetween

/-- A ring of two descriptors with seqnos `a` and `b`, of which the first is published. -/
def twoSeqnos (a b : UInt32) : Memory :=
  .ofWords ([1, 0, 0, 0, 0, 0, 0, 0] ++ List.replicate 8 0 ++ [0, 0, 0, 0, a, 0, 0, 0] ++ [0, 0, 0, 0, b, 0, 0, 0])

/-- The guest publishes the second descriptor. -/
def publishSecond (d : Backend) : Backend := { d with mem := d.mem.store tailOffset [2] }

theorem retired_advances_in_order : ∃ d₁ d₂,
    Lts.run (drainStep 0) (twoSlotRing (twoSeqnos 3 5)) [.drain .idle] = some d₁ ∧
      Lts.run (drainStep 0) d₁ [.elsewhere publishSecond, .drain .idle] = some d₂ ∧ Advances 0 d₁ d₂ := by
  let d := twoSlotRing (twoSeqnos 3 5)
  have hkept : (Lts.run (drainStep 0) (d.drainCtx .idle 0) [.elsewhere publishSecond, .drain .idle]).isSome := by
    decide
  have horder : Lts.Along (drainStep 0) (DrainsInOrder 0) d
    ([.drain .idle] ++ [.elsewhere publishSecond, .drain .idle]) := by
    decide
  obtain ⟨d₂, hd₂⟩ := Option.isSome_iff_exists.1 hkept
  exact ⟨_, d₂, rfl, hd₂, retired_advances 0 horder rfl hd₂⟩

/-- The seqno 3 after the seqno 5: both places fall. -/
theorem retired_falls : ∃ d₁ d₂,
    Lts.run (drainStep 0) (twoSlotRing (twoSeqnos 5 3)) [.drain .idle] = some d₁ ∧
      Lts.run (drainStep 0) d₁ [.elsewhere publishSecond, .drain .idle] = some d₂ ∧
      d₁.ringRetired 0 = 5 ∧ d₁.sharedRetired 0 = some 5 ∧
      d₂.ringRetired 0 = 3 ∧ d₂.sharedRetired 0 = some 3 ∧ ¬ Advances 0 d₁ d₂ := by
  let d₁ := (twoSlotRing (twoSeqnos 5 3)).drainCtx .idle 0
  have hafter : (Lts.run (drainStep 0) d₁ [.elsewhere publishSecond, .drain .idle]).map
      (fun d => (d.ringRetired 0, d.sharedRetired 0)) = some (3, some 3) := by decide
  obtain ⟨d₂, hd₂, hpair⟩ := Option.map_eq_some_iff.1 hafter
  obtain ⟨hregister, hword⟩ := Prod.mk.inj hpair
  refine ⟨d₁, d₂, rfl, hd₂, by decide, by decide, hregister, hword, fun h => ?_⟩
  have hle := h.register
  rw [hregister] at hle
  exact absurd hle (by decide)

end Backend

end Infinigpu
