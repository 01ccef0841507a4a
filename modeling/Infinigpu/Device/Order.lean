import Infinigpu.Device.Serving
import Infinigpu.Lib.Stamps

/-!
# Ordered execution behind the doorbell (`infinigpu-device`, `drain_ctx`)

What holds at every moment of any interleaving of a guest that stamps its descriptors with rising seqnos and a host
that drains (`Orderly`): the descriptors executed are the first ones pushed, in their order, and the retired word
never runs ahead of them and has caught up between two drains (`executed_in_order`).  Nothing of this survives a
descriptor that makes the host write into the ring itself (`retired_ahead_of_execution`).
-/

namespace Infinigpu

/-- The bytes of the index page and of the descriptor array. -/
def Backend.ringBytes (g : Geometry) (r : RingMemory) (d : Backend) : List UInt8 × List UInt8 :=
  (d.mem.load r.indexPtr indicesSize, d.mem.load r.descPtr (descriptorSize * g.slots))

/-- The newest seqno of a list of descriptors. -/
def newestSeqno (l : List Descriptor) : UInt64 := Stamps.newest 0 (l.map Descriptor.seqno)

/-- Where the retired word, the descriptors executed and the host stand with each other: the word has caught up
outside the execution of a batch, and the batch carries the seqno it is to be retired with. -/
def Phase.Retires (word : UInt64) (executed : List Descriptor) : Phase → Prop
  | .idle => word = newestSeqno executed
  | .popping _ _ out => word = newestSeqno executed ∧ out.highestSeqno = newestSeqno out.descriptors
  | .executing rest highestSeqno =>
    word ≤ newestSeqno executed ∧ (highestSeqno = newestSeqno (executed ++ rest) ∨
      (highestSeqno = 0 ∧ rest = [] ∧ word = newestSeqno executed))

namespace Serving

open Backend

variable (g : Geometry) (r : RingMemory) (ctx : Fin NUM_CONTEXTS)

/-- The descriptors that `push` has accepted. -/
def pushed (s : Serving) : List Descriptor := s.accepted.map fun a => .ofSlot a.1

/-- The retired word on the index page. -/
def retiredWord (s : Serving) : UInt64 := ((store g r).view s.dev.mem).idx.seqnoRetired

/-- The guest stamps a descriptor above zero and above all it has pushed, and what else happens to the machine leaves
the bytes of the ring alone. -/
def Stamped (s : Serving) : Action → Prop
  | .push item => ∀ x ∈ 0 :: s.pushed.map Descriptor.seqno, x < (Descriptor.ofSlot item).seqno
  | .elsewhere f => (f s.dev).ringBytes g r = s.dev.ringBytes g r
  | _ => True

/-- The descriptor that the host executes leaves the bytes of the ring alone. -/
def Harmless (s : Serving) : Action → Prop
  | .host env =>
    match s.phase with
    | .executing (desc :: _) _ => (s.dev.executeDescriptor env ctx desc).ringBytes g r = s.dev.ringBytes g r
    | _ => True
  | _ => True

instance (s : Serving) : (a : Action) → Decidable (s.Stamped g r a)
  | .push item =>
    List.decidableBAll (fun x => x < (Descriptor.ofSlot item).seqno) (0 :: s.pushed.map Descriptor.seqno)
  | .elsewhere f => inferInstanceAs (Decidable ((f s.dev).ringBytes g r = s.dev.ringBytes g r))
  | .producer => .isTrue trivial
  | .doorbell _ => .isTrue trivial
  | .host _ => .isTrue trivial

instance (s : Serving) : (a : Action) → Decidable (s.Harmless g r ctx a)
  | .host env =>
    match h : s.phase with
    | .executing (desc :: rest) highestSeqno =>
      decidable_of_iff ((s.dev.executeDescriptor env ctx desc).ringBytes g r = s.dev.ringBytes g r)
        (by simp only [Harmless, h])
    | .executing [] highestSeqno => .isTrue (by simp only [Harmless, h])
    | .idle => .isTrue (by simp only [Harmless, h])
    | .popping _ _ _ => .isTrue (by simp only [Harmless, h])
  | .push _ => .isTrue trivial
  | .producer => .isTrue trivial
  | .doorbell _ => .isTrue trivial
  | .elsewhere _ => .isTrue trivial

/-- The executed descriptors and those in flight are the first ones pushed, the others are pending; the seqnos rise;
and the retired word is where the phase says. -/
structure Orderly (s : Serving) : Prop where
  sound : s.ring.Sound (store g r)
  conserved : s.returned ++ ((store g r).view s.dev.mem).pending = s.accepted.map Prod.fst
  popped : s.returned.map .ofSlot = s.executed ++ s.phase.inFlight
  rising : Stamps.Rising 0 (s.pushed.map Descriptor.seqno)
  stamped : ∀ p, s.producer = some p → ∀ x ∈ 0 :: s.pushed.map Descriptor.seqno, x < (Descriptor.ofSlot p.item).seqno
  retires : s.phase.Retires (s.retiredWord g r) s.executed

variable {g r ctx}

private theorem view_of_ringBytes {d d' : Backend} (h : d'.ringBytes g r = d.ringBytes g r) :
    (store g r).view d'.mem = (store g r).view d.mem := by
  obtain ⟨hindex, hslots⟩ := Prod.mk.inj h
  refine sharedRing_view_congr fun a ha => ?_
  rcases ha with ⟨hle, hlt⟩ | ⟨hle, hlt⟩
  · exact Memory.eq_of_load_eq hindex hle hlt
  · exact Memory.eq_of_load_eq hslots hle hlt

/-- What was executed, what is in flight and what is pending is what was pushed. -/
private theorem Orderly.pushed_eq {s : Serving} (h : s.Orderly g r) :
    s.executed ++ s.phase.inFlight ++ ((store g r).view s.dev.mem).pending.map .ofSlot = s.pushed := by
  have hmap := congrArg (List.map Descriptor.ofSlot) h.conserved
  rw [List.map_append, h.popped, List.map_map] at hmap
  exact hmap

/-! ### Steps -/

/-- A step that keeps the slots and the two indices only has to say where the word and the batch stand. -/
private theorem Orderly.of_keeps {s s' : Serving} (h : s.Orderly g r)
    (hkeeps : ((store g r).view s.dev.mem).KeepsEntries ((store g r).view s'.dev.mem))
    (hslots : ((store g r).view s'.dev.mem).slots = ((store g r).view s.dev.mem).slots)
    (hproducer : s'.producer = s.producer) (haccepted : s'.accepted = s.accepted)
    (hreturned : s'.returned = s.returned)
    (hconsumer : ∀ c, s'.phase.consumer = some c → c.Ok ((store g r).view s.dev.mem))
    (hpopped : s'.executed ++ s'.phase.inFlight = s.executed ++ s.phase.inFlight)
    (hretires : s'.phase.Retires (s'.retiredWord g r) s'.executed) : s'.Orderly g r where
  sound :=
    { room := by
        show ((store g r).view s'.dev.mem).len.toNat ≤ g.slots
        rw [hkeeps.len]
        exact h.sound.room
      producer := fun p hp =>
        (h.sound.producer p (hproducer.symm.trans hp)).of_slots hslots hkeeps.tail hkeeps.head
      consumer := fun c hc => (hconsumer c hc).of_keeps hkeeps }
  conserved := by rw [hreturned, hkeeps.pending, haccepted, h.conserved]
  popped := by rw [hreturned, hpopped, h.popped]
  rising := by
    rw [pushed, haccepted]
    exact h.rising
  stamped p hp := by
    rw [pushed, haccepted]
    exact h.stamped p (hproducer ▸ hp)
  retires := hretires

private theorem Orderly.of_view {s s' : Serving} (h : s.Orderly g r)
    (hview : (store g r).view s'.dev.mem = (store g r).view s.dev.mem) (hproducer : s'.producer = s.producer)
    (haccepted : s'.accepted = s.accepted) (hreturned : s'.returned = s.returned)
    (hconsumer : ∀ c, s'.phase.consumer = some c → c.Ok ((store g r).view s.dev.mem))
    (hpopped : s'.executed ++ s'.phase.inFlight = s.executed ++ s.phase.inFlight)
    (hretires : s'.phase.Retires (s.retiredWord g r) s'.executed) : s'.Orderly g r := by
  refine h.of_keeps (hview ▸ .rfl _) (by rw [hview]) hproducer haccepted hreturned hconsumer hpopped ?_
  rw [retiredWord, hview]
  exact hretires

/-- The next turn of the pop loop starts a call of `pop`, or the execution of the batch. -/
private theorem next_inFlight (n : Nat) (out : Drained) : (Phase.next n out).inFlight = out.descriptors := by
  cases n with
  | zero => rfl
  | succ n => rfl

private theorem next_consumer {n : Nat} {out : Drained} {c : PopPc descriptorSize UInt8}
    (h : (Phase.next n out).consumer = some c) : c = .loadHead := by
  cases n with
  | zero => cases h
  | succ n => exact (Option.some_inj.1 h).symm

/-- A batch whose descriptors have all been popped. -/
private theorem retires_executing {word : UInt64} {executed : List Descriptor} {out : Drained}
    (hword : word = newestSeqno executed) (hout : out.highestSeqno = newestSeqno out.descriptors) :
    (Phase.executing out.descriptors out.highestSeqno).Retires word executed := by
  refine ⟨UInt64.le_of_eq hword, ?_⟩
  cases hdesc : out.descriptors with
  | nil =>
    rw [hdesc] at hout
    exact .inr ⟨hout, rfl, hword⟩
  | cons desc rest =>
    left
    rw [hout, hdesc, newestSeqno, newestSeqno, List.map_append, Stamps.newest_append]
    exact List.cons_ne_nil _ _

private theorem retires_next {word : UInt64} {executed : List Descriptor} {out : Drained} (n : Nat)
    (hword : word = newestSeqno executed) (hout : out.highestSeqno = newestSeqno out.descriptors) :
    (Phase.next n out).Retires word executed := by
  cases n with
  | zero => exact retires_executing hword hout
  | succ n => exact ⟨hword, hout⟩

/-- A seqno above the highest one becomes the highest one. -/
private theorem push_highest {out : Drained} {desc : Descriptor}
    (hout : out.highestSeqno = newestSeqno out.descriptors) (hlt : newestSeqno out.descriptors < desc.seqno) :
    (out.push desc).highestSeqno = newestSeqno (out.push desc).descriptors := by
  rw [newestSeqno, Drained.push, List.map_append, List.map_cons, List.map_nil, Stamps.newest_snoc]
  rw [← hout] at hlt
  exact if_pos hlt

private theorem stepGuest_push {s s' : Serving} {item : Fin descriptorSize → UInt8}
    (hstep : s.stepGuest g r (.push item) = some s') : s' = { s with producer := some (.loadTail item) } := by
  obtain ⟨ring, hring, rfl⟩ := Option.map_eq_some_iff.1 hstep
  simp only [Spsc.step] at hring
  split at hring
  · rw [Option.some_inj] at hring
    subst hring
    rfl
  · cases hring

/-- The guest calls `push` with a stamped descriptor. -/
theorem Orderly.push {s s' : Serving} (h : s.Orderly g r) {item : Fin descriptorSize → UInt8}
    (hstamped : s.Stamped g r (.push item)) (hstep : s.stepGuest g r (.push item) = some s') : s'.Orderly g r := by
  rw [stepGuest_push hstep]
  have hsound : Spsc.Sound (store g r) { s.ring with producer := some (.loadTail item) } := by
    refine ⟨h.sound.room, fun p hp => ?_, h.sound.consumer⟩
    cases hp
    trivial
  refine ⟨hsound, h.conserved, h.popped, h.rising, fun p hp => ?_, h.retires⟩
  cases hp
  exact hstamped

/-- The guest takes a step of its call. -/
private theorem Orderly.producer {s s' : Serving} (hS : (store g r).Lawful) (h : s.Orderly g r)
    (hstep : s.stepGuest g r .producer = some s') : s'.Orderly g r := by
  obtain ⟨ring, hring, rfl⟩ := Option.map_eq_some_iff.1 hstep
  obtain ⟨hsound, heff⟩ := Spsc.step_sound hS h.sound hring
  obtain ⟨hconsumer, hreturned⟩ := Spsc.producer_keeps hring
  have hword := Spsc.step_retired hS hring
  rw [ring_mem] at hword
  have hpushed : Stamps.Rising 0 ((ring.accepted.map fun a => Descriptor.ofSlot a.1).map Descriptor.seqno) ∧
      ∀ p, ring.producer = some p →
        ∀ x ∈ 0 :: (ring.accepted.map fun a => Descriptor.ofSlot a.1).map Descriptor.seqno,
          x < (Descriptor.ofSlot p.item).seqno := by
    rcases Spsc.producer_cases hring with ⟨hsame, hitem⟩ | ⟨p, seqno, hp, haccepted, hnone⟩
    · rw [hsame]
      refine ⟨h.rising, fun p' hp' => ?_⟩
      obtain ⟨p, hp, hpitem⟩ := hitem p' hp'
      rw [hpitem]
      exact h.stamped p hp
    · refine ⟨?_, fun p' hp' => ?_⟩
      · rw [haccepted, List.map_append, List.map_append]
        exact Stamps.rising_snoc.2 ⟨h.rising, h.stamped p hp⟩
      · rw [hnone] at hp'
        cases hp'
  refine ⟨⟨hsound.room, hsound.producer, fun c hc => ?_⟩, ?_, h.popped, hpushed.1, hpushed.2, ?_⟩
  · exact hsound.consumer c (hconsumer.trans hc)
  · have hconserved := h.conserved
    cases heff with
    | kept keeps accepted returned =>
      show s.returned ++ ((store g r).view ring.mem).pending = ring.accepted.map Prod.fst
      rw [keeps.pending, accepted]
      exact hconserved
    | accepted item room view pending accepted returned =>
      show s.returned ++ ((store g r).view ring.mem).pending = ring.accepted.map Prod.fst
      rw [pending, accepted, List.map_append, ← List.append_assoc]
      exact congrArg (· ++ [item]) hconserved
    | returned item some view pending accepted returned =>
      rw [hreturned] at returned
      have hlen := congrArg List.length returned
      rw [List.length_append, List.length_singleton] at hlen
      omega
  · show s.phase.Retires (((store g r).view ring.mem).idx.seqnoRetired) s.executed
    rw [hword]
    exact h.retires

/-- The host is rung. -/
private theorem Orderly.doorbell {s : Serving} (h : s.Orderly g r) (hphase : s.phase = .idle) (env : Env) :
    (s.stepDoorbell g r ctx env).Orderly g r := by
  have hview : (store g r).view (s.dev.ensureAdmitted env).2.mem = (store g r).view s.dev.mem := by
    rw [(Backend.ensureAdmitted_quiet env s.dev).mem]
  have hretires := h.retires
  rw [hphase] at hretires
  by_cases hr : s.dev.ringMemory ctx = some r
  · rw [stepDoorbell_eq env hr]
    split
    · refine h.of_view hview rfl rfl rfl (fun c hc => ?_) ?_ (retires_next _ hretires rfl)
      · rw [next_consumer hc]
        trivial
      · rw [hphase, next_inFlight]
        rfl
    · refine h.of_view hview rfl rfl rfl (fun c hc => ?_) rfl h.retires
      exact h.sound.consumer c hc
  · rw [stepDoorbell, if_neg hr]
    exact h

/-- What the host has popped rises, with what is pending after it. -/
private theorem Orderly.rising_popped {s : Serving} (h : s.Orderly g r) :
    Stamps.Rising 0 ((s.executed ++ s.phase.inFlight).map Descriptor.seqno ++
      (((store g r).view s.dev.mem).pending.map Descriptor.ofSlot).map Descriptor.seqno) := by
  rw [← List.map_append, h.pushed_eq]
  exact h.rising

/-- The host takes a step of its call of `pop`. -/
private theorem Orderly.popping {s s' : Serving} (hS : (store g r).Lawful) (h : s.Orderly g r) {env : Env}
    {pc : PopPc descriptorSize UInt8} {n : Nat} {out : Drained} (hphase : s.phase = .popping pc n out)
    (hstep : s.stepHost g r ctx env = some s') : s'.Orderly g r := by
  have hok : pc.Ok ((store g r).view s.dev.mem) := by
    refine h.sound.consumer pc ?_
    rw [ring, hphase]
    rfl
  obtain ⟨hword, hout⟩ : s.retiredWord g r = newestSeqno s.executed ∧
    out.highestSeqno = newestSeqno out.descriptors := by
    have hretires := h.retires
    rw [hphase] at hretires
    exact hretires
  have hrising := h.rising_popped
  have hpopped := h.popped
  rw [hphase] at hrising hpopped
  simp only [stepHost, hphase] at hstep
  split at hstep
  · -- inside the call
    rename_i pc' mem hpc
    obtain ⟨rfl, hok'⟩ := Store.popStep_running hok hpc
    rw [Option.some_inj] at hstep
    subst hstep
    refine h.of_view rfl rfl rfl rfl (fun c hc => ?_) ?_ ⟨hword, hout⟩
    · cases hc
      exact hok'
    · rw [hphase]
      rfl
  · -- a descriptor was popped
    rename_i slot mem hpc
    obtain ⟨hlen, hview, hpending, -⟩ := Store.popStep_some hS hok hpc
    rw [Option.some_inj] at hstep
    subst hstep
    have hlt : newestSeqno out.descriptors < (Descriptor.ofSlot slot).seqno := by
      rw [hpending, Phase.inFlight, List.map_append, List.append_assoc] at hrising
      exact hrising.right.newest_lt
    have hslots : ((store g r).view mem).slots = ((store g r).view s.dev.mem).slots := by rw [hview]; rfl
    have hword' : ((store g r).view mem).idx.seqnoRetired = newestSeqno s.executed := by rw [hview]; exact hword
    refine ⟨⟨?_, fun p hp => ?_, fun c hc => ?_⟩, ?_, ?_, h.rising, h.stamped, ?_⟩
    · have := h.sound.room
      show ((store g r).view mem).len.toNat ≤ g.slots
      rw [hview, Ring.release_len hlen]
      rw [ring_mem] at this
      omega
    · show p.Ok ((store g r).view mem)
      rw [hview]
      exact (h.sound.producer p hp).release hlen
    · rw [next_consumer hc]
      trivial
    · show (s.returned ++ [slot]) ++ ((store g r).view mem).pending = s.accepted.map Prod.fst
      rw [← h.conserved, hpending, List.append_assoc]
      rfl
    · show (s.returned ++ [slot]).map Descriptor.ofSlot = s.executed ++ (Phase.next n _).inFlight
      rw [next_inFlight, List.map_append, hpopped, Drained.push, Phase.inFlight, List.append_assoc]
      rfl
    · exact retires_next n hword' (push_highest hout hlt)
  · -- the ring was empty
    rename_i mem hpc
    obtain ⟨rfl, -⟩ := Store.popStep_none hok hpc
    rw [Option.some_inj] at hstep
    subst hstep
    refine h.of_view rfl rfl rfl rfl (fun c hc => ?_) ?_ (retires_executing hword hout)
    · cases hc
    · rw [hphase]
      rfl

/-- The host executes a descriptor, or retires the batch. -/
private theorem Orderly.executing {s s' : Serving} (hS : (store g r).Lawful) (h : s.Orderly g r) {env : Env}
    (hharmless : s.Harmless g r ctx (.host env)) {rest : List Descriptor} {highestSeqno : UInt64}
    (hphase : s.phase = .executing rest highestSeqno) (hstep : s.stepHost g r ctx env = some s') :
    s'.Orderly g r := by
  obtain ⟨hle, hhighest⟩ : s.retiredWord g r ≤ newestSeqno s.executed ∧
      (highestSeqno = newestSeqno (s.executed ++ rest) ∨
        (highestSeqno = 0 ∧ rest = [] ∧ s.retiredWord g r = newestSeqno s.executed)) := by
    have hretires := h.retires
    rw [hphase] at hretires
    exact hretires
  have hrising := h.rising_popped
  rw [hphase] at hrising
  simp only [Harmless, hphase] at hharmless
  cases rest with
  | cons desc rest =>
    simp only [stepHost, hphase, Option.some_inj] at hstep
    subst hstep
    have hlt : newestSeqno s.executed < desc.seqno := by
      have hleft := hrising.left
      rw [Phase.inFlight, List.map_append, List.map_cons] at hleft
      exact hleft.newest_lt
    refine h.of_view (view_of_ringBytes hharmless) rfl rfl rfl (fun _ hc => by cases hc) ?_ ⟨?_, ?_⟩
    · rw [hphase, Phase.inFlight, Phase.inFlight, ← List.append_cons]
    · rw [newestSeqno, List.map_append, List.map_cons, List.map_nil, Stamps.newest_snoc]
      exact UInt64.le_of_lt (UInt64.lt_of_le_of_lt hle hlt)
    · left
      rw [← List.append_cons]
      exact hhighest.elim id fun hnone => absurd hnone.2.1 (List.cons_ne_nil _ _)
  | nil =>
    simp only [stepHost, hphase, Option.some_inj] at hstep
    subst hstep
    rw [List.append_nil] at hhighest
    by_cases hpos : highestSeqno > 0
    · have hview : (store g r).view (s.dev.retireBatch (store g r) ctx highestSeqno).mem =
          { (store g r).view s.dev.mem with
            idx := { ((store g r).view s.dev.mem).idx with seqnoRetired := highestSeqno } } := by
        rw [Backend.retireBatch, if_pos hpos]
        exact hS.view_storeSeqnoRetired _ _
      refine h.of_keeps ?_ (by rw [hview]) rfl rfl rfl (fun _ hc => by cases hc) ?_ ?_
      · rw [hview]
        exact ⟨rfl, rfl, fun _ _ => rfl⟩
      · rw [hphase]
        rfl
      · show ((store g r).view (s.dev.retireBatch (store g r) ctx highestSeqno).mem).idx.seqnoRetired = _
        rw [hview]
        rcases hhighest with hnewest | ⟨hzero, -, -⟩
        · exact hnewest
        · rw [hzero] at hpos
          exact absurd hpos (by decide)
    · rw [Backend.retireBatch, if_neg hpos]
      refine h.of_view rfl rfl rfl rfl (fun _ hc => by cases hc) ?_ ?_
      · rw [hphase]
        rfl
      · rcases hhighest with hnewest | ⟨-, -, hword⟩
        · -- nothing with a seqno was executed
          have hzero := eq_zero_of_le_of_not_pos (UInt64.le_of_eq hnewest.symm) hpos
          show s.retiredWord g r = newestSeqno s.executed
          rw [hzero]
          exact eq_zero_of_le_of_not_pos (hnewest ▸ hle) hpos
        · exact hword

/-- Anything else happens to the machine. -/
private theorem Orderly.elsewhere {s : Serving} (h : s.Orderly g r) {f : Backend → Backend}
    (hstamped : s.Stamped g r (.elsewhere f)) : ({ s with dev := f s.dev } : Serving).Orderly g r :=
  h.of_view (view_of_ringBytes hstamped) rfl rfl rfl h.sound.consumer rfl h.retires

private theorem Orderly.step (hS : (store g r).Lawful) {s s' : Serving} {a : Action} (h : s.Orderly g r)
    (hstamped : s.Stamped g r a) (hharmless : s.Harmless g r ctx a) (hstep : s.step g r ctx a = some s') :
    s'.Orderly g r := by
  cases a with
  | push item => exact h.push hstamped hstep
  | producer => exact h.producer hS hstep
  | doorbell env =>
    simp only [Serving.step] at hstep
    split at hstep
    · rename_i hphase
      rw [Option.some_inj] at hstep
      subst hstep
      exact h.doorbell hphase env
    · cases hstep
  | host env =>
    cases hphase : s.phase with
    | idle =>
      simp only [Serving.step, stepHost, hphase] at hstep
      cases hstep
    | popping pc n out => exact h.popping hS hphase hstep
    | executing rest highestSeqno => exact h.executing hS hharmless hphase hstep
  | elsewhere f =>
    simp only [Serving.step, Option.some_inj] at hstep
    subst hstep
    exact h.elsewhere hstamped

/-- A ring with nothing on it, of which nothing has been retired. -/
def Fresh (g : Geometry) (r : RingMemory) (d : Backend) : Prop :=
  ((store g r).view d.mem).idx.head = ((store g r).view d.mem).idx.tail ∧
    ((store g r).view d.mem).idx.seqnoRetired = 0

instance (g : Geometry) (r : RingMemory) (d : Backend) : Decidable (Fresh g r d) := by
  unfold Fresh; infer_instance

theorem Orderly.start {d : Backend} (h : Fresh g r d) : (Serving.start d).Orderly g r := by
  have hlen := Ring.len_eq_zero.2 h.1
  have hpending : ((store g r).view d.mem).pending = [] := by
    rw [← List.length_eq_zero_iff, Ring.pending_length, hlen]
  have hroom : ((store g r).view d.mem).len.toNat ≤ g.slots := by
    rw [hlen]
    exact Nat.zero_le _
  have hconserved : [] ++ ((store g r).view d.mem).pending = [] := (List.nil_append _).trans hpending
  exact ⟨⟨hroom, nofun, nofun⟩, hconserved, rfl, .nil 0, nofun, h.2⟩

/-! ### Runs -/

private theorem Orderly.retiredWord_le {s : Serving} (h : s.Orderly g r) :
    s.retiredWord g r ≤ newestSeqno s.executed := by
  have hretires := h.retires
  cases hphase : s.phase with
  | idle =>
    rw [hphase] at hretires
    exact UInt64.le_of_eq hretires
  | popping pc n out =>
    rw [hphase] at hretires
    exact UInt64.le_of_eq hretires.1
  | executing rest highestSeqno =>
    rw [hphase] at hretires
    exact hretires.1

/-- In every run over a fresh ring whose guest stamps its descriptors in rising order, and in which no descriptor
makes the host write into the ring, the descriptors are executed in the order of the pushes, the retired word does not
run ahead of them, and after a drain that leaves the ring empty it is the newest seqno pushed. -/
theorem executed_in_order (ctx : Fin NUM_CONTEXTS) (hapart : Apart g r.indexPtr r.descPtr) {d : Backend}
    (hfresh : Fresh g r d) {as : List Action}
    (h : Lts.Along (step g r ctx) (fun s a => s.Stamped g r a ∧ s.Harmless g r ctx a) (start d) as) {s : Serving}
    (hrun : Lts.run (step g r ctx) (start d) as = some s) :
    s.executed <+: s.pushed ∧ s.retiredWord g r ≤ newestSeqno s.executed ∧
      (s.phase = .idle → ((store g r).view s.dev.mem).pending = [] → s.retiredWord g r = newestSeqno s.pushed) := by
  have hS : (store g r).Lawful := sharedRing_lawful hapart
  have hs : s.Orderly g r := h.invariant
    (fun _ _ _ hgood hord hstep => hord.step hS hgood.1 hgood.2 hstep) hrun (.start hfresh)
  refine ⟨?_, hs.retiredWord_le, fun hphase hempty => ?_⟩
  · rw [← hs.pushed_eq, List.append_assoc]
    exact List.prefix_append _ _
  · have hpushed := hs.pushed_eq
    have hretires := hs.retires
    rw [hphase, hempty, Phase.inFlight, List.append_nil, List.map_nil, List.append_nil] at hpushed
    rw [hphase] at hretires
    rw [← hpushed]
    exact hretires

/-! ### A descriptor that clears a surface -/

/-- The descriptor of the command behind the slots of `twoSlotRing`, with seqno 7. -/
def clearSlot : Fin descriptorSize → UInt8 :=
  fun k => (([0x30, 0, 72, 64, 7, 0, 0, 0] : List UInt32).flatMap fun w => Bytes.ofValue 4 w.toNat).getD k 0

/-- An empty ring, and behind it a command that clears a surface of six pixels at a guest address. -/
def clearCommand (scanoutAddr : UInt32) : Backend :=
  .twoSlotRing (.ofWords (List.replicate 32 0 ++ [0, 0x100, 32, 0, 7, 0, 0, 0, 0, 0] ++
    [6, 1, 0, 0, 0, 0, scanoutAddr, 0]))

/-- The guest pushes the descriptor, and `n` steps of the drain follow its doorbell. -/
def pushAndDrain (n : Nat) : List Action :=
  .push clearSlot :: List.replicate 37 .producer ++ .doorbell .white :: List.replicate n (.host .white)

/-- One descriptor that clears a surface apart from the ring. -/
theorem executed_in_order_clear : ∃ s,
    Lts.run (step twoSlots twoSlotArea 0) (start (clearCommand 0x1100)) (pushAndDrain 40) = some s ∧
      s.executed <+: s.pushed ∧ s.retiredWord twoSlots twoSlotArea ≤ newestSeqno s.executed := by
  have halong : Lts.Along (step twoSlots twoSlotArea 0)
      (fun s a => s.Stamped twoSlots twoSlotArea a ∧ s.Harmless twoSlots twoSlotArea 0 a)
      (start (clearCommand 0x1100)) (pushAndDrain 40) := by decide +kernel
  have hsome : (Lts.run (step twoSlots twoSlotArea 0) (start (clearCommand 0x1100)) (pushAndDrain 40)).isSome := by
    decide +kernel
  obtain ⟨s, hs⟩ := Option.isSome_iff_exists.1 hsome
  have horder := executed_in_order 0 (.inl (by decide)) (by decide +kernel) halong hs
  exact ⟨s, hs, horder.1, horder.2.1⟩

/-- One descriptor that clears a surface on the index page: the word is ahead of everything executed. -/
theorem retired_ahead_of_execution : ∃ s,
    Lts.run (step twoSlots twoSlotArea 0) (start (clearCommand 0x1000)) (pushAndDrain 39) = some s ∧
      Lts.Along (step twoSlots twoSlotArea 0) (Stamped twoSlots twoSlotArea) (start (clearCommand 0x1000))
        (pushAndDrain 39) ∧
      (clearCommand 0x1000).ringMemory 0 = some twoSlotArea ∧ Fresh twoSlots twoSlotArea (clearCommand 0x1000) ∧
      ¬ s.retiredWord twoSlots twoSlotArea ≤ newestSeqno s.executed := by
  have hafter : (Lts.run (step twoSlots twoSlotArea 0) (start (clearCommand 0x1000)) (pushAndDrain 39)).map
      (fun s => (s.retiredWord twoSlots twoSlotArea, newestSeqno s.executed)) =
        some (0xffffffffffffffff, 7) := by decide +kernel
  obtain ⟨s, hs, hpair⟩ := Option.map_eq_some_iff.1 hafter
  obtain ⟨hword, hnewest⟩ := Prod.mk.inj hpair
  refine ⟨s, hs, by decide +kernel, by decide, by decide +kernel, ?_⟩
  rw [hword, hnewest]
  decide

end Serving

end Infinigpu
