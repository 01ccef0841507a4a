import Infinigpu.Lib.Channel
import Infinigpu.Ring.Steps

/-!
# Delivery on the single-producer single-consumer ring

One producer and one consumer interleave the loads and stores of their calls in any order (`Spsc.step`).  Every step
of the interleaving is a step of a bounded channel whose queue is the list of pending entries, or does nothing to it
(`Spsc.step_refines`), whatever the free-running indices are; so what `pop` returns is a prefix of what `push`
accepted (`Spsc.delivery`).
-/

namespace Infinigpu

variable {g : Geometry} {w : Nat} {β M : Type*}

/-- The item a call of `push` is about. -/
def PushPc.item : PushPc w β → Fin w → β
  | .loadTail item => item
  | .loadHead item _ => item
  | .write item _ _ => item
  | .storeSubmit item _ => item
  | .storeTail item _ => item

/-- A ring with its two ends and what has come out of their calls so far: the items `push` accepted with the seqnos
it returned, and the items `pop` returned.  An end is `none` between two calls. -/
structure Spsc (w : Nat) (β M : Type*) where
  mem : M
  producer : Option (PushPc w β)
  consumer : Option (PopPc w β)
  accepted : List ((Fin w → β) × UInt64)
  returned : List (Fin w → β)

namespace Spsc

def start (m : M) : Spsc w β M where
  mem := m
  producer := none
  consumer := none
  accepted := []
  returned := []

/-- An end calls an operation, or takes the next step of the call it is in. -/
inductive Action (w : Nat) (β : Type*) where
  | push (item : Fin w → β)
  | producer
  | pop
  | consumer

def stepProducer (S : Store g w β M) (s : Spsc w β M) (p : PushPc w β) : Spsc w β M :=
  match S.pushStep s.mem p with
  | .running p' mem => { s with mem, producer := some p' }
  | .done (.ok seqno) mem => { s with mem, producer := none, accepted := s.accepted ++ [(p.item, seqno)] }
  | .done (.error _) mem => { s with mem, producer := none }

def stepConsumer (S : Store g w β M) (s : Spsc w β M) (c : PopPc w β) : Spsc w β M :=
  match S.popStep s.mem c with
  | .running c' mem => { s with mem, consumer := some c' }
  | .done (some item) mem => { s with mem, consumer := none, returned := s.returned ++ [item] }
  | .done none mem => { s with mem, consumer := none }

def step (S : Store g w β M) (s : Spsc w β M) : Action w β → Option (Spsc w β M)
  | .push item => if s.producer.isNone then some { s with producer := some (.loadTail item) } else none
  | .producer => s.producer.map (s.stepProducer S)
  | .pop => if s.consumer.isNone then some { s with consumer := some .loadHead } else none
  | .consumer => s.consumer.map (s.stepConsumer S)

/-! ### The invariant -/

/-- At most a ring full is pending, and both calls under way agree with the ring. -/
structure Sound (S : Store g w β M) (s : Spsc w β M) : Prop where
  room : (S.view s.mem).len.toNat ≤ g.slots
  producer : ∀ p, s.producer = some p → p.Ok (S.view s.mem)
  consumer : ∀ c, s.consumer = some c → c.Ok (S.view s.mem)

theorem sound_start {S : Store g w β M} {m : M} (h : (S.view m).len.toNat ≤ g.slots) : Sound S (start m) where
  room := h
  producer := nofun
  consumer := nofun

/-- What a step does to the entries: it leaves them all, publishes the item it accepts, or releases the one it
returns. -/
inductive Effect (S : Store g w β M) (s s' : Spsc w β M) : Prop where
  | kept (keeps : (S.view s.mem).KeepsEntries (S.view s'.mem)) (accepted : s'.accepted = s.accepted)
      (returned : s'.returned = s.returned)
  | accepted (item : Fin w → β) (room : (S.view s.mem).len.toNat < g.slots)
      (view : S.view s'.mem = (S.view s.mem).publish)
      (pending : (S.view s'.mem).pending = (S.view s.mem).pending ++ [item])
      (accepted : s'.accepted = s.accepted ++ [(item, ((S.view s.mem).idx.tail + 1).toUInt64)])
      (returned : s'.returned = s.returned)
  | returned (item : Fin w → β) (some : 0 < (S.view s.mem).len.toNat)
      (view : S.view s'.mem = (S.view s.mem).release)
      (pending : (S.view s.mem).pending = item :: (S.view s'.mem).pending)
      (accepted : s'.accepted = s.accepted) (returned : s'.returned = s.returned ++ [item])

private theorem stepProducer_sound {S : Store g w β M} (hS : S.Lawful) {s : Spsc w β M} (h : Sound S s)
    {p : PushPc w β} (hp : s.producer = some p) :
    Sound S (s.stepProducer S p) ∧ Effect S s (s.stepProducer S p) := by
  have hok := h.producer p hp
  simp only [stepProducer]
  split
  · rename_i p' mem hstep
    obtain ⟨hp', hkeeps⟩ := Store.pushStep_running hS hok hstep
    refine ⟨⟨by simp only [hkeeps.len]; exact h.room, fun _ e => ?_, fun c hc => ?_⟩, .kept hkeeps rfl rfl⟩
    · cases e
      exact hp'
    · exact (h.consumer c hc).of_keeps hkeeps
  · rename_i seqno mem hstep
    obtain ⟨item, rfl, rfl, hroom, hview, hpending⟩ := Store.pushStep_ok hS hok hstep
    refine ⟨⟨?_, nofun, fun c hc => ?_⟩, .accepted item hroom hview hpending rfl rfl⟩
    · rw [hview, Ring.publish_len hroom]
      exact hroom
    · rw [hview]
      exact (h.consumer c hc).publish hroom
  · rename_i e mem hstep
    obtain ⟨-, rfl, -⟩ := Store.pushStep_error hstep
    exact ⟨⟨h.room, nofun, h.consumer⟩, .kept (.rfl _) rfl rfl⟩

private theorem stepConsumer_sound {S : Store g w β M} (hS : S.Lawful) {s : Spsc w β M} (h : Sound S s)
    {c : PopPc w β} (hc : s.consumer = some c) :
    Sound S (s.stepConsumer S c) ∧ Effect S s (s.stepConsumer S c) := by
  have hok := h.consumer c hc
  simp only [stepConsumer]
  split
  · rename_i c' mem hstep
    obtain ⟨rfl, hc'⟩ := Store.popStep_running hok hstep
    refine ⟨⟨h.room, h.producer, fun _ e => ?_⟩, .kept (.rfl _) rfl rfl⟩
    cases e
    exact hc'
  · rename_i item mem hstep
    obtain ⟨hlen, hview, hpending, -⟩ := Store.popStep_some hS hok hstep
    refine ⟨⟨?_, fun p hp => ?_, nofun⟩, .returned item hlen hview hpending rfl rfl⟩
    · have := h.room
      rw [hview, Ring.release_len hlen]
      omega
    · rw [hview]
      exact (h.producer p hp).release hlen
  · rename_i mem hstep
    obtain ⟨rfl, -⟩ := Store.popStep_none hok hstep
    exact ⟨⟨h.room, h.producer, nofun⟩, .kept (.rfl _) rfl rfl⟩

/-- One step, whichever end takes it, keeps the invariant and does one of three things to the entries. -/
theorem step_sound {S : Store g w β M} (hS : S.Lawful) {s s' : Spsc w β M} {a : Action w β} (h : Sound S s)
    (hs : s.step S a = some s') : Sound S s' ∧ Effect S s s' := by
  cases a with
  | push item =>
    simp only [step] at hs
    split at hs <;> cases hs
    refine ⟨⟨h.room, fun _ e => ?_, h.consumer⟩, .kept (.rfl _) rfl rfl⟩
    cases e
    trivial
  | producer =>
    obtain ⟨p, hp, rfl⟩ := Option.map_eq_some_iff.1 hs
    exact stepProducer_sound hS h hp
  | pop =>
    simp only [step] at hs
    split at hs <;> cases hs
    refine ⟨⟨h.room, h.producer, fun _ e => ?_⟩, .kept (.rfl _) rfl rfl⟩
    cases e
    trivial
  | consumer =>
    obtain ⟨c, hc, rfl⟩ := Option.map_eq_some_iff.1 hs
    exact stepConsumer_sound hS h hc

private theorem pushStep_item {S : Store g w β M} {m m' : M} {p p' : PushPc w β}
    (h : S.pushStep m p = .running p' m') : p'.item = p.item := by
  cases p with
  | loadTail item => cases h; rfl
  | loadHead item tail =>
    simp only [Store.pushStep] at h
    split at h <;> cases h
    rfl
  | write item tail n =>
    simp only [Store.pushStep] at h
    split at h <;> cases h <;> rfl
  | storeSubmit item tail => cases h; rfl
  | storeTail item tail => cases h

theorem producer_keeps {S : Store g w β M} {s s' : Spsc w β M} (hs : s.step S .producer = some s') :
    s'.consumer = s.consumer ∧ s'.returned = s.returned := by
  obtain ⟨p, -, rfl⟩ := Option.map_eq_some_iff.1 hs
  simp only [stepProducer]
  split
  · exact ⟨rfl, rfl⟩
  · exact ⟨rfl, rfl⟩
  · exact ⟨rfl, rfl⟩

/-- A step of `push` keeps the item it is about, until the last one accepts it. -/
theorem producer_cases {S : Store g w β M} {s s' : Spsc w β M} (hs : s.step S .producer = some s') :
    (s'.accepted = s.accepted ∧
        ∀ p', s'.producer = some p' → ∃ p, s.producer = some p ∧ p'.item = p.item) ∨
      ∃ p seqno, s.producer = some p ∧ s'.accepted = s.accepted ++ [(p.item, seqno)] ∧ s'.producer = none := by
  obtain ⟨p, hp, rfl⟩ := Option.map_eq_some_iff.1 hs
  simp only [stepProducer]
  split
  · rename_i p' mem hstep
    refine .inl ⟨rfl, fun q hq => ⟨p, hp, ?_⟩⟩
    cases hq
    exact pushStep_item hstep
  · rename_i seqno mem hstep
    exact .inr ⟨p, seqno, hp, rfl, rfl⟩
  · exact .inl ⟨rfl, nofun⟩

/-- No step of either end touches the retired word. -/
theorem step_retired {S : Store g w β M} (hS : S.Lawful) {s s' : Spsc w β M} {a : Action w β}
    (hs : s.step S a = some s') : (S.view s'.mem).idx.seqnoRetired = (S.view s.mem).idx.seqnoRetired := by
  cases a with
  | push item =>
    simp only [step] at hs
    split at hs <;> cases hs
    rfl
  | producer =>
    obtain ⟨p, -, rfl⟩ := Option.map_eq_some_iff.1 hs
    have hmem : (s.stepProducer S p).mem = (S.pushStep s.mem p).mem := by
      simp only [stepProducer]
      split <;> rename_i hstep <;> rw [hstep, Progress.mem]
    rw [hmem, Store.pushStep_retired hS]
  | pop =>
    simp only [step] at hs
    split at hs <;> cases hs
    rfl
  | consumer =>
    obtain ⟨c, -, rfl⟩ := Option.map_eq_some_iff.1 hs
    have hmem : (s.stepConsumer S c).mem = (S.popStep s.mem c).mem := by
      simp only [stepConsumer]
      split <;> rename_i hstep <;> rw [hstep, Progress.mem]
    rw [hmem, Store.popStep_retired hS]

/-- A store that keeps every slot and the two indices keeps the invariant. -/
theorem Sound.of_keeps {S : Store g w β M} {s : Spsc w β M} {mem : M} (h : Sound S s)
    (hkeeps : (S.view s.mem).KeepsEntries (S.view mem)) (hslots : (S.view mem).slots = (S.view s.mem).slots) :
    Sound S { s with mem } where
  room := by simp only [hkeeps.len]; exact h.room
  producer p hp := (h.producer p hp).of_slots hslots hkeeps.tail hkeeps.head
  consumer c hc := (h.consumer c hc).of_keeps hkeeps

private theorem Reachable.sound {S : Store g w β M} (hS : S.Lawful) {s s' : Spsc w β M}
    (hr : Lts.Reachable (Spsc.step S) s s') (h : Sound S s) : Sound S s' :=
  hr.invariant (fun _ _ _ h hs => (step_sound hS h hs).1) h

/-! ### The ring refines the channel -/

/-- The channel a ring implements. -/
def channel (S : Store g w β M) (s : Spsc w β M) : Channel (Fin w → β) where
  queue := (S.view s.mem).pending
  sent := s.accepted.map Prod.fst
  received := s.returned

/-- A step of the ring is a send, a receive, or invisible in the channel. -/
theorem step_refines {S : Store g w β M} (hS : S.Lawful) {s s' : Spsc w β M} {a : Action w β} (h : Sound S s)
    (hs : s.step S a = some s') : Lts.Reachable (Channel.step g.slots) (s.channel S) (s'.channel S) := by
  obtain ⟨-, heff⟩ := step_sound hS h hs
  cases heff with
  | kept keeps accepted returned =>
    have he : s'.channel S = s.channel S := by rw [channel, channel, keeps.pending, accepted, returned]
    rw [he]
    exact .refl _
  | accepted item room view pending accepted returned =>
    refine .single (a := .send item) ?_
    rw [Channel.step_send item (by rw [channel, Ring.pending_length]; exact room)]
    simp only [channel, pending, accepted, returned, List.map_append, List.map_cons, List.map_nil]
  | returned item some view pending accepted returned =>
    refine .single (a := .receive) ?_
    have hqueue : (s.channel S).queue = item :: (S.view s'.mem).pending := pending
    rw [Channel.step_receive hqueue]
    simp only [channel, accepted, returned]

private theorem Reachable.channel {S : Store g w β M} (hS : S.Lawful) {s s' : Spsc w β M}
    (hr : Lts.Reachable (Spsc.step S) s s') (h : Sound S s) :
    Lts.Reachable (Channel.step g.slots) (s.channel S) (s'.channel S) := by
  have key : ∃ c, Lts.Reachable (Channel.step g.slots) (s.channel S) c ∧ Sound S s' ∧ c = s'.channel S := by
    refine hr.simulates (R := fun s c => Sound S s ∧ c = s.channel S) ?_ ⟨h, rfl⟩
    intro s₁ c a s₂ hR hs
    obtain ⟨h₁, rfl⟩ := hR
    exact ⟨s₂.channel S, step_refines hS h₁ hs, (step_sound hS h₁ hs).1, rfl⟩
  obtain ⟨c, hc, -, rfl⟩ := key
  exact hc

/-- Conservation: what was returned and what is pending is what was pending at the start and what was accepted. -/
private theorem Reachable.conserved {S : Store g w β M} (hS : S.Lawful) {m : M} {s : Spsc w β M}
    (hroom : (S.view m).len.toNat ≤ g.slots) (hr : Lts.Reachable (Spsc.step S) (start m) s) :
    s.returned ++ (S.view s.mem).pending = (S.view m).pending ++ s.accepted.map Prod.fst :=
  Channel.Reachable.conserved (Reachable.channel hS hr (sound_start hroom)) (List.append_nil _).symm

/-! ### Calls that run alone -/

private theorem reachable_of_push_runs {S : Store g w β M} {p : PushPc w β} {m m' : M}
    {result : Except RingError UInt64} (h : Store.Runs S.pushStep p m result m') {seqno : UInt64}
    (hresult : result = .ok seqno) (s : Spsc w β M) :
    Lts.Reachable (step S) { s with mem := m, producer := some p }
      { s with mem := m', producer := none, accepted := s.accepted ++ [(p.item, seqno)] } := by
  induction h with
  | done hstep =>
    subst hresult
    refine .single (a := .producer) ?_
    rw [step, Option.map_some, stepProducer, hstep]
  | running hstep _ ih =>
    rw [← pushStep_item hstep]
    refine .trans (.single (a := .producer) ?_) (ih hresult)
    rw [step, Option.map_some, stepProducer, hstep]

/-- A call of `push` that nothing interleaves with is `Store.push`. -/
theorem reachable_push {S : Store g w β M} {s : Spsc w β M} (hidle : s.producer = none) {item : Fin w → β}
    {seqno : UInt64} {m : M} (h : S.push item s.mem = (.ok seqno, m)) :
    Lts.Reachable (step S) s { s with mem := m, accepted := s.accepted ++ [(item, seqno)] } := by
  have hruns := Store.push_runs (S := S) item s.mem
  rw [h] at hruns
  have hcall : s.step S (.push item) = some { s with producer := some (.loadTail item) } := by
    rw [step, hidle]; rfl
  have := (Lts.Reachable.single hcall).trans (reachable_of_push_runs hruns rfl s)
  rwa [← hidle] at this

private theorem reachable_of_pop_runs {S : Store g w β M} {c : PopPc w β} {m m' : M} {result : Option (Fin w → β)}
    (h : Store.Runs S.popStep c m result m') {item : Fin w → β} (hresult : result = some item) (s : Spsc w β M) :
    Lts.Reachable (step S) { s with mem := m, consumer := some c }
      { s with mem := m', consumer := none, returned := s.returned ++ [item] } := by
  induction h with
  | done hstep =>
    subst hresult
    refine .single (a := .consumer) ?_
    rw [step, Option.map_some, stepConsumer, hstep]
  | running hstep _ ih =>
    refine .trans (.single (a := .consumer) ?_) (ih hresult)
    rw [step, Option.map_some, stepConsumer, hstep]

/-- A call of `pop` that nothing interleaves with is `Store.pop`. -/
theorem reachable_pop {S : Store g w β M} {s : Spsc w β M} (hidle : s.consumer = none) {item : Fin w → β} {m : M}
    (h : S.pop s.mem = (some item, m)) :
    Lts.Reachable (step S) s { s with mem := m, returned := s.returned ++ [item] } := by
  have hruns := Store.pop_runs (S := S) s.mem
  rw [h] at hruns
  have hcall : s.step S .pop = some { s with consumer := some .loadHead } := by
    rw [step, hidle]; rfl
  have := (Lts.Reachable.single hcall).trans (reachable_of_pop_runs hruns rfl s)
  rwa [← hidle] at this

/-! ### What the producer may touch and when it is refused -/

/-- Steps of the producer leave every slot alone that the consumer has not released. -/
private theorem producer_keeps_pending {S : Store g w β M} (hS : S.Lawful) {s s' : Spsc w β M} (h : Sound S s)
    (hs : s.step S .producer = some s') {j : Nat} (hj : j < (S.view s.mem).len.toNat) :
    (S.view s'.mem).slots (g.slotIndex ((S.view s.mem).idx.head + UInt32.ofNat j)) =
      (S.view s.mem).slots (g.slotIndex ((S.view s.mem).idx.head + UInt32.ofNat j)) := by
  obtain ⟨p, hp, rfl⟩ := Option.map_eq_some_iff.1 hs
  have heff := (stepProducer_sound hS h hp).2
  cases heff with
  | kept keeps _ _ => exact keeps.slots j hj
  | accepted item room view pending accepted returned =>
    rw [view]; rfl
  | returned item some view pending accepted returned =>
    rw [view]; rfl

/-- A call of `push` is refused exactly at the load of a head that is a full revolution behind. -/
private theorem push_full_iff {S : Store g w β M} {s : Spsc w β M} (h : Sound S s) {p : PushPc w β}
    (hp : s.producer = some p) (e : RingError) :
    (∃ mem, S.pushStep s.mem p = .done (.error e) mem) ↔
      e = .full ∧ ∃ item tail, p = .loadHead item tail ∧ (tail - (S.view s.mem).idx.head).toNat = g.slots := by
  constructor
  · rintro ⟨mem, hstep⟩
    obtain ⟨rfl, rfl, item, tail, rfl, hfull⟩ := Store.pushStep_error hstep
    refine ⟨rfl, item, tail, rfl, ?_⟩
    have htail : tail = _ := h.producer _ hp
    rw [UInt32.le_iff_toNat_le, Geometry.capacity_toNat] at hfull
    refine Nat.le_antisymm ?_ hfull
    rw [htail]
    exact h.room
  · rintro ⟨rfl, item, tail, rfl, hfull⟩
    refine ⟨s.mem, if_pos ?_⟩
    rw [ge_iff_le, UInt32.le_iff_toNat_le, Geometry.capacity_toNat]
    exact Nat.le_of_eq hfull.symm

/-- Whatever the interleaving and wherever the indices start, `pop` returns a prefix of what was pending at the
start followed by what `push` accepted, the rest being the entries still pending; the producer never writes a slot
the consumer has not released; and `push` is refused exactly when the head it loads shows a ring full of entries. -/
theorem delivery (g : Geometry) (w : Nat) (β : Type*) {r : Ring g (Fin w → β)} (hroom : r.len.toNat ≤ g.slots)
    {s : Spsc w β (Ring g (Fin w → β))} (hr : Lts.Reachable (Spsc.step (Ring.store g w β)) (start r) s) :
    s.returned <+: r.pending ++ s.accepted.map Prod.fst ∧
    s.returned ++ s.mem.pending = r.pending ++ s.accepted.map Prod.fst ∧
    (∀ s', s.step (Ring.store g w β) .producer = some s' → ∀ j < s.mem.len.toNat,
      s'.mem.slots (g.slotIndex (s.mem.idx.head + UInt32.ofNat j)) =
        s.mem.slots (g.slotIndex (s.mem.idx.head + UInt32.ofNat j))) ∧
    ∀ p, s.producer = some p → ∀ e, (∃ mem, (Ring.store g w β).pushStep s.mem p = .done (.error e) mem) ↔
      e = .full ∧ ∃ item tail, p = .loadHead item tail ∧ (tail - s.mem.idx.head).toNat = g.slots := by
  have hS := Ring.store_lawful g w β
  have hsound := Reachable.sound hS hr (sound_start hroom)
  have hcons := Reachable.conserved hS hroom hr
  refine ⟨⟨s.mem.pending, hcons⟩, hcons, fun s' hs j hj => ?_, fun p hp e => ?_⟩
  · exact producer_keeps_pending hS hsound hs hj
  · exact push_full_iff hsound hp e

/-- Two slots, empty, one push away from the wrap of the indices. -/
def beforeWrap : Ring { slots := 2, pow2 := Geometry.two_pow2, le_max := Geometry.two_le_max } (Fin 1 → Nat) where
  slots _ _ := 0
  idx := { Indices.new with tail := 0xffffffff, head := 0xffffffff }

/-- A push that wraps `tail`, a second one interleaved with a pop, and a third that is refused. -/
def wrapActions : List (Action 1 Nat) :=
  .push (fun _ => 7) :: List.replicate 6 .producer ++ .push (fun _ => 8) :: .producer :: .pop :: .consumer ::
    List.replicate 5 .producer ++ .push (fun _ => 9) :: List.replicate 2 .producer ++ List.replicate 4 .consumer

theorem delivery_across_wrap : ∃ s, Lts.run (Spsc.step (Ring.store _ 1 Nat)) (start beforeWrap) wrapActions = some s ∧
    s.returned.map (· 0) = [7] ∧ s.accepted.map (fun a => (a.1 0, a.2)) = [(7, 0), (8, 1)] ∧
    s.returned <+: s.accepted.map Prod.fst := by
  have hsome : (Lts.run (Spsc.step (Ring.store _ 1 Nat)) (start beforeWrap) wrapActions).isSome := by decide
  obtain ⟨s, hs⟩ := Option.isSome_iff_exists.1 hsome
  have hreturned : (Lts.run (Spsc.step (Ring.store _ 1 Nat)) (start beforeWrap) wrapActions).map
      (fun s => s.returned.map (· 0)) = some [7] := by decide
  have haccepted : (Lts.run (Spsc.step (Ring.store _ 1 Nat)) (start beforeWrap) wrapActions).map
      (fun s => s.accepted.map fun a => (a.1 0, a.2)) = some [(7, 0), (8, 1)] := by decide
  rw [hs, Option.map_some, Option.some_inj] at hreturned haccepted
  exact ⟨s, hs, hreturned, haccepted, (delivery _ 1 Nat (r := beforeWrap) (by decide) ⟨wrapActions, hs⟩).1⟩

end Spsc

end Infinigpu
