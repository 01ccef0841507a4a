import Infinigpu.Device.Drain
import Infinigpu.Ring.Delivery

/-!
# A guest and the doorbell at work (`infinigpu-device`, `drain_ctx`)

The guest pushes on the shared ring while the host drains it: one load or store of the guest's `push`, one load or
store of the host's `pop`, one descriptor executed or one batch retired at a time, in any order.  The host's steps
with nothing in between are `drain_ctx` (`reachable_drainCtx`).
-/

namespace Infinigpu

/-- Where the host stands: between two drains, inside a `pop` with `n` more descriptors allowed after it, or with the
rest of the batch to execute before the batch is retired. -/
inductive Phase where
  | idle
  | popping (pc : PopPc descriptorSize UInt8) (n : Nat) (out : Drained)
  | executing (rest : List Descriptor) (highestSeqno : UInt64)

namespace Phase

/-- The next turn of the pop loop. -/
def next : Nat → Drained → Phase
  | 0, out => .executing out.descriptors out.highestSeqno
  | n + 1, out => .popping .loadHead n out

/-- The call of `pop` under way. -/
def consumer : Phase → Option (PopPc descriptorSize UInt8)
  | .popping pc _ _ => some pc
  | _ => none

/-- The descriptors popped and not yet executed. -/
def inFlight : Phase → List Descriptor
  | .idle => []
  | .popping _ _ out => out.descriptors
  | .executing rest _ => rest

end Phase

/-- The device and the guest's call of `push`, with what has happened so far: the slots `push` accepted with the
seqnos it returned, the slots `pop` returned, and the descriptors that have been executed. -/
structure Serving where
  dev : Backend
  producer : Option (PushPc descriptorSize UInt8)
  phase : Phase
  accepted : List ((Fin descriptorSize → UInt8) × UInt64)
  returned : List (Fin descriptorSize → UInt8)
  executed : List Descriptor

namespace Serving

def start (d : Backend) : Serving where
  dev := d
  producer := none
  phase := .idle
  accepted := []
  returned := []
  executed := []

/-- The guest calls `push` or takes a step of it, the host is rung or takes a step of its drain, or anything else
happens to the machine. -/
inductive Action where
  | push (item : Fin descriptorSize → UInt8)
  | producer
  | doorbell (env : Env)
  | host (env : Env)
  | elsewhere (f : Backend → Backend)

/-- The two ends of the ring. -/
def ring (s : Serving) : Spsc descriptorSize UInt8 Memory where
  mem := s.dev.mem
  producer := s.producer
  consumer := s.phase.consumer
  accepted := s.accepted
  returned := s.returned

theorem ring_mem (s : Serving) : s.ring.mem = s.dev.mem := rfl

def withMem (s : Serving) (mem : Memory) : Serving := { s with dev := { s.dev with mem } }

variable (g : Geometry) (r : RingMemory) (ctx : Fin NUM_CONTEXTS)

/-- The ring that the two ends share. -/
def store : Store g descriptorSize UInt8 Memory := sharedRing g r.indexPtr r.descPtr

def stepGuest (s : Serving) (a : Spsc.Action descriptorSize UInt8) : Option Serving :=
  (s.ring.step (store g r) a).map fun ring =>
    { s.withMem ring.mem with
      producer := ring.producer
      accepted := ring.accepted }

/-- The doorbell, up to the first turn of the pop loop. -/
def stepDoorbell (env : Env) (s : Serving) : Serving :=
  if s.dev.ringMemory ctx = some r then
    let (admitted, dev) := s.dev.ensureAdmitted env
    if admitted then
      { s with
        dev
        phase := .next (batchBound g r.cap) .empty }
    else
      { s with dev }
  else
    s

/-- The next step of a drain. -/
def stepHost (env : Env) (s : Serving) : Option Serving :=
  match s.phase with
  | .idle => none
  | .popping pc n out =>
    match (store g r).popStep s.dev.mem pc with
    | .running pc mem => some { s.withMem mem with phase := .popping pc n out }
    | .done (some slot) mem =>
      some { s.withMem mem with
        returned := s.returned ++ [slot]
        phase := .next n (out.push (.ofSlot slot)) }
    | .done none mem => some { s.withMem mem with phase := .executing out.descriptors out.highestSeqno }
  | .executing (desc :: rest) highestSeqno =>
    some { s with
      dev := s.dev.executeDescriptor env ctx desc
      executed := s.executed ++ [desc]
      phase := .executing rest highestSeqno }
  | .executing [] highestSeqno =>
    some { s with
      dev := s.dev.retireBatch (store g r) ctx highestSeqno
      phase := .idle }

def step (s : Serving) : Action → Option Serving
  | .push item => s.stepGuest g r (.push item)
  | .producer => s.stepGuest g r .producer
  | .doorbell env =>
    match s.phase with
    | .idle => some (s.stepDoorbell g r ctx env)
    | _ => none
  | .host env => s.stepHost g r ctx env
  | .elsewhere f => some { s with dev := f s.dev }

variable {g r ctx}

/-! ### A drain with nothing in between -/

/-- The state after a call of `pop` inside the loop. -/
def afterPop (s : Serving) (n : Nat) (out : Drained) (mem : Memory) : Option (Fin descriptorSize → UInt8) → Serving
  | some slot =>
    { s.withMem mem with
      returned := s.returned ++ [slot]
      phase := .next n (out.push (.ofSlot slot)) }
  | none => { s.withMem mem with phase := .executing out.descriptors out.highestSeqno }

private theorem reachable_pop (ctx : Fin NUM_CONTEXTS) (env : Env) {pc : PopPc descriptorSize UInt8} {m m' : Memory}
    {result : Option (Fin descriptorSize → UInt8)} (h : Store.Runs (store g r).popStep pc m result m') (s : Serving)
    (n : Nat) (out : Drained) :
    Lts.Reachable (step g r ctx) { s.withMem m with phase := .popping pc n out } (s.afterPop n out m' result) := by
  induction h with
  | @done pc m result m' hstep =>
    refine .single (a := .host env) ?_
    cases result with
    | none => simp only [step, stepHost, withMem, hstep, afterPop]
    | some slot => simp only [step, stepHost, withMem, hstep, afterPop]
  | running hstep _ ih =>
    refine .trans (.single (a := .host env) ?_) ih
    simp only [step, stepHost, withMem, hstep]

private theorem eq_of_phase {s : Serving} {phase : Phase} (h : s.phase = phase) :
    s = { s.withMem s.dev.mem with phase } := by
  subst h
  rfl

/-- The pop loop run alone is `popLoop`. -/
private theorem reachable_popLoop (g : Geometry) (r : RingMemory) (ctx : Fin NUM_CONTEXTS) (env : Env) (n : Nat)
    (out : Drained) (s : Serving) (hphase : s.phase = .next n out) :
    ∃ returned, Lts.Reachable (step g r ctx) s
      { s.withMem (popLoop (store g r) n out s.dev.mem).2 with
        returned
        phase := .executing (popLoop (store g r) n out s.dev.mem).1.descriptors
          (popLoop (store g r) n out s.dev.mem).1.highestSeqno } := by
  induction n generalizing out s with
  | zero =>
    have hs := eq_of_phase (show s.phase = .executing out.descriptors out.highestSeqno from hphase)
    exact ⟨s.returned, Lts.reachable_of_eq hs⟩
  | succ n ih =>
    have hs := eq_of_phase (show s.phase = .popping .loadHead n out from hphase)
    have hpop := reachable_pop ctx env (Store.pop_runs (S := store g r) s.dev.mem) s n out
    rw [← hs] at hpop
    simp only [popLoop]
    split
    · rename_i slot m hm
      rw [hm] at hpop
      obtain ⟨returned, hloop⟩ := ih (out.push (.ofSlot slot)) (s.afterPop n out m (some slot)) rfl
      exact ⟨returned, hpop.trans hloop⟩
    · rename_i m hm
      rw [hm] at hpop
      exact ⟨s.returned, hpop⟩

private theorem reachable_executeBatch (g : Geometry) (r : RingMemory) (ctx : Fin NUM_CONTEXTS) (env : Env)
    (batch : List Descriptor) (highestSeqno : UInt64) (s : Serving)
    (hphase : s.phase = .executing batch highestSeqno) :
    Lts.Reachable (step g r ctx) s
      { s with
        dev := s.dev.executeBatch env ctx batch
        executed := s.executed ++ batch
        phase := .executing [] highestSeqno } := by
  induction batch generalizing s with
  | nil =>
    have hs := eq_of_phase hphase
    rw [List.append_nil]
    exact Lts.reachable_of_eq hs
  | cons desc batch ih =>
    have hstep : s.step g r ctx (.host env) = some
        { s with
          dev := s.dev.executeDescriptor env ctx desc
          executed := s.executed ++ [desc]
          phase := .executing batch highestSeqno } := by
      simp only [step, stepHost, hphase]
    have hrest := ih { s with
      dev := s.dev.executeDescriptor env ctx desc
      executed := s.executed ++ [desc]
      phase := .executing batch highestSeqno } rfl
    rw [List.append_cons, Backend.executeBatch_cons]
    exact (Lts.Reachable.single hstep).trans hrest

theorem stepDoorbell_eq (env : Env) {s : Serving} (hr : s.dev.ringMemory ctx = some r) :
    s.stepDoorbell g r ctx env =
      if (s.dev.ensureAdmitted env).1 then
        { s with
          dev := (s.dev.ensureAdmitted env).2
          phase := .next (batchBound g r.cap) .empty }
      else
        { s with dev := (s.dev.ensureAdmitted env).2 } := by
  rw [stepDoorbell, if_pos hr]

/-- The host's steps with nothing in between are the drain. -/
theorem reachable_drainCtx (env : Env) {s : Serving} (hphase : s.phase = .idle)
    (hr : s.dev.ringMemory ctx = some r) (hg : Geometry.fromParts r.cap = .ok g) :
    ∃ s', Lts.Reachable (step g r ctx) s s' ∧ s'.dev = s.dev.drainCtx env ctx ∧ s'.phase = .idle ∧
      s'.producer = s.producer ∧ s'.accepted = s.accepted := by
  have hbell : s.step g r ctx (.doorbell env) = some (s.stepDoorbell g r ctx env) := by
    simp only [step, hphase]
  have hdoorbell := stepDoorbell_eq (g := g) env hr
  have hdrain : s.dev.drainCtx env ctx =
      if (s.dev.ensureAdmitted env).1 then
        (s.dev.ensureAdmitted env).2.serveRing env g r ctx
      else
        (s.dev.ensureAdmitted env).2 := by
    simp only [Backend.drainCtx, hr, hg]
    cases (s.dev.ensureAdmitted env).1 with
    | true => rfl
    | false => rfl
  by_cases hadm : (s.dev.ensureAdmitted env).1 = true
  · rw [if_pos hadm] at hdoorbell hdrain
    rw [hdoorbell] at hbell
    let d := (s.dev.ensureAdmitted env).2
    obtain ⟨returned, hpops⟩ := reachable_popLoop g r ctx env (batchBound g r.cap) .empty
      { s with
        dev := d
        phase := .next (batchBound g r.cap) .empty } rfl
    have hexec := reachable_executeBatch g r ctx env (d.batch g r).descriptors
      (d.batch g r).highestSeqno
      { s with
        dev := d.popped g r
        returned
        phase := .executing (d.batch g r).descriptors (d.batch g r).highestSeqno } rfl
    have hserve : d.serveRing env g r ctx =
      ((d.popped g r).executeBatch env ctx (d.batch g r).descriptors).retireBatch
        (store g r) ctx (d.batch g r).highestSeqno := Backend.serveRing_eq _ _ _ _
    refine ⟨_, (((Lts.Reachable.single hbell).trans hpops).trans hexec).tail (a := .host env) rfl, ?_, rfl, rfl, rfl⟩
    rw [hdrain, hserve]
  · rw [if_neg hadm] at hdoorbell hdrain
    rw [hdoorbell] at hbell
    exact ⟨_, .single hbell, hdrain.symm, hphase, rfl, rfl⟩

end Serving

end Infinigpu
