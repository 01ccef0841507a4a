import Infinigpu.Ring.Delivery

/-!
# Fence numbers on a ring that runs for ever

`push` numbers its submissions with `tail + 1`, a 32-bit index widened to 64 bits.  On a fresh ring the numbers are
`1, 2, 3, …` (`Fenced.Numbered`), and a fence is signalled exactly when its submission, or a later one, has been
retired, until the `2^32`-th submission gets the number `0` (`Fenced.fenceLaw_iff`).
-/

namespace Infinigpu

variable {g : Geometry} {w : Nat} {β M : Type*}

/-- A ring at work together with the number of submissions whose seqnos, or those of later ones, were retired. -/
structure Fenced (w : Nat) (β M : Type*) where
  ring : Spsc w β M
  retiredUpTo : Nat

namespace Fenced

inductive Action (w : Nat) (β : Type*) where
  | ring (a : Spsc.Action w β)
  | retire (k : Nat)

/-- The consumer retires in the order it pops: the seqno of a descriptor it has popped, none twice and never one
behind an already retired one. -/
def step (S : Store g w β M) (s : Fenced w β M) : Action w β → Option (Fenced w β M)
  | .ring a => (s.ring.step S a).map fun ring => { s with ring }
  | .retire k =>
    if s.ring.consumer.isNone ∧ s.retiredUpTo ≤ k ∧ k < s.ring.returned.length then
      s.ring.accepted[k]?.map fun (_, seqno) =>
        { ring := { s.ring with mem := S.retire seqno s.ring.mem }, retiredUpTo := k + 1 }
    else
      none

def start (m : M) : Fenced w β M where
  ring := .start m
  retiredUpTo := 0

/-- The law of fence numbers: each seqno is greater than all earlier ones, and a fence is signalled exactly when its
submission or a later one has been retired. -/
def FenceLaw (S : Store g w β M) (s : Fenced w β M) : Prop :=
  s.ring.accepted.Pairwise (fun a b => a.2 < b.2) ∧
  ∀ k a, s.ring.accepted[k]? = some a → ((S.view s.ring.mem).isFenceSignaled a.2 = true ↔ k < s.retiredUpTo)

/-! ### The numbers -/

/-- The seqno of the submission after `k` others on a fresh ring. -/
def seqnoOf (k : Nat) : UInt64 := (UInt32.ofNat k + 1).toUInt64

private theorem seqnoOf_toNat (k : Nat) : (seqnoOf k).toNat = (k + 1) % 2 ^ 32 := by
  rw [seqnoOf, UInt32.toNat_toUInt64, UInt32.toNat_add, UInt32.toNat_ofNat', UInt32.toNat_one]
  omega

/-- What the index words say on a ring that was fresh at the start. -/
structure Numbered (S : Store g w β M) (s : Fenced w β M) : Prop where
  sound : s.ring.Sound S
  tail : (S.view s.ring.mem).idx.tail = UInt32.ofNat s.ring.accepted.length
  seqnos : s.ring.accepted.map Prod.snd = (List.range s.ring.accepted.length).map seqnoOf
  pending : s.ring.returned.length + (S.view s.ring.mem).len.toNat = s.ring.accepted.length
  retiredUpTo : s.retiredUpTo ≤ s.ring.returned.length
  retired : (S.view s.ring.mem).retired.toNat = s.retiredUpTo % 2 ^ 32

theorem Numbered.seqno {S : Store g w β M} {s : Fenced w β M} (h : Numbered S s) {k : Nat}
    {a : (Fin w → β) × UInt64} (ha : s.ring.accepted[k]? = some a) : a.2 = seqnoOf k := by
  have hk : k < s.ring.accepted.length := (List.getElem?_eq_some_iff.1 ha).1
  have hmap := congrArg (·[k]?) h.seqnos
  simpa only [List.getElem?_map, ha, Option.map_some, List.getElem?_range hk, Option.some_inj] using hmap

private theorem numbered_start (S : Store g w β M) {m : M} (hm : (S.view m).idx = .new) : Numbered S (start m) where
  sound := Spsc.sound_start (by rw [Ring.len, hm]; exact Nat.zero_le _)
  tail := by rw [start, Spsc.start, hm]; rfl
  seqnos := rfl
  pending := by rw [start, Spsc.start, Ring.len, hm]; rfl
  retiredUpTo := Nat.le_refl _
  retired := by rw [start, Spsc.start, Ring.retired, hm]; rfl

private theorem Numbered.ring {S : Store g w β M} (hS : S.Lawful) {s : Fenced w β M} {ring : Spsc w β M}
    {a : Spsc.Action w β} (h : Numbered S s) (hs : s.ring.step S a = some ring) : Numbered S { s with ring } := by
  obtain ⟨hsound, heff⟩ := Spsc.step_sound hS h.sound hs
  have hretired : (S.view ring.mem).retired = (S.view s.ring.mem).retired := Spsc.step_retired hS hs
  have hpending := h.pending
  have hupTo := h.retiredUpTo
  cases heff with
  | kept keeps accepted returned =>
    refine ⟨hsound, ?_, ?_, ?_, ?_, ?_⟩
    · simp only [keeps.tail, accepted, h.tail]
    · simp only [accepted, h.seqnos]
    · simp only [keeps.len, accepted, returned, h.pending]
    · simp only [returned, hupTo]
    · simp only [hretired, h.retired]
  | accepted item room view pending accepted returned =>
    have hlen : ring.accepted.length = s.ring.accepted.length + 1 := by
      rw [accepted, List.length_append, List.length_singleton]
    refine ⟨hsound, ?_, ?_, ?_, ?_, ?_⟩
    · simp only [view, hlen]
      rw [Ring.publish, h.tail, UInt32.ofNat_add]; rfl
    · simp only [hlen]
      rw [accepted, List.map_append, h.seqnos, List.range_succ, List.map_append, h.tail]; rfl
    · simp only [view, hlen, returned, Ring.publish_len room]
      omega
    · simp only [returned, hupTo]
    · simp only [hretired, h.retired]
  | returned item some view pending accepted returned =>
    have hlen : ring.returned.length = s.ring.returned.length + 1 := by
      rw [returned, List.length_append, List.length_singleton]
    refine ⟨hsound, ?_, ?_, ?_, ?_, ?_⟩
    · simp only [view, accepted]
      exact h.tail
    · simp only [accepted, h.seqnos]
    · simp only [view, hlen, accepted, Ring.release_len some]
      omega
    · simp only [hlen]
      omega
    · simp only [hretired, h.retired]

private theorem Numbered.retire {S : Store g w β M} (hS : S.Lawful) {s : Fenced w β M} {k : Nat}
    {a : (Fin w → β) × UInt64} (h : Numbered S s) (hk : k < s.ring.returned.length)
    (ha : s.ring.accepted[k]? = some a) :
    Numbered S { ring := { s.ring with mem := S.retire a.2 s.ring.mem }, retiredUpTo := k + 1 } := by
  have hkeeps := Store.keeps_storeSeqnoRetired hS a.2 s.ring.mem
  refine ⟨h.sound.of_keeps hkeeps (by rw [Store.retire, hS.view_storeSeqnoRetired]), ?_, h.seqnos, ?_, hk, ?_⟩
  · simp only [Store.retire, hkeeps.tail]
    exact h.tail
  · simp only [Store.retire, hkeeps.len]
    exact h.pending
  · simp only [Store.retire, Ring.retired, hS.view_storeSeqnoRetired]
    rw [h.seqno ha, seqnoOf_toNat]

private theorem step_numbered {S : Store g w β M} (hS : S.Lawful) {s s' : Fenced w β M} {a : Action w β}
    (h : Numbered S s) (hs : s.step S a = some s') : Numbered S s' := by
  cases a with
  | ring a =>
    obtain ⟨ring, hring, rfl⟩ := Option.map_eq_some_iff.1 hs
    exact h.ring hS hring
  | retire k =>
    simp only [step] at hs
    split at hs
    · rename_i hguard
      obtain ⟨a, ha, rfl⟩ := Option.map_eq_some_iff.1 hs
      exact h.retire hS hguard.2.2 ha
    · cases hs

private theorem Reachable.numbered {S : Store g w β M} (hS : S.Lawful) {m : M} (hm : (S.view m).idx = .new)
    {s : Fenced w β M} (hr : Lts.Reachable (step S) (start m) s) : Numbered S s :=
  hr.invariant (fun _ _ _ => step_numbered hS) (numbered_start S hm)

/-! ### The law, before the numbers wrap and after -/

private theorem isFenceSignaled_iff {r : Ring g (Fin w → β)} {seqno : UInt64} (hr : r.retired.toNat < 2 ^ 32) :
    r.isFenceSignaled seqno = true ↔ seqno.toNat ≤ r.retired.toNat := by
  rw [Ring.isFenceSignaled, Bool.and_eq_true, decide_eq_true_iff, decide_eq_true_iff, ge_iff_le,
    UInt64.le_iff_toNat_le]
  refine ⟨And.right, fun h => ⟨?_, h⟩⟩
  have h63 : ((1 : UInt64) <<< 63).toNat = 2 ^ 63 := by decide
  rw [UInt64.lt_iff_toNat_lt, UInt64.toNat_sub_of_le _ _ (UInt64.le_iff_toNat_le.2 h), h63]
  omega

private theorem Numbered.fenceLaw {S : Store g w β M} {s : Fenced w β M} (h : Numbered S s)
    (hlt : s.ring.accepted.length < 2 ^ 32) : s.FenceLaw S := by
  have hreturned : s.ring.returned.length ≤ s.ring.accepted.length := by
    have := h.pending
    omega
  have hupTo := h.retiredUpTo
  have hretired : (S.view s.ring.mem).retired.toNat = s.retiredUpTo := by
    rw [h.retired, Nat.mod_eq_of_lt (by omega)]
  constructor
  · have hseq : (s.ring.accepted.map Prod.snd).Pairwise (· < ·) := by
      rw [h.seqnos, List.pairwise_map]
      refine List.Pairwise.imp_of_mem ?_ List.pairwise_lt_range
      intro i j hi hj hij
      have := List.mem_range.1 hj
      rw [UInt64.lt_iff_toNat_lt, seqnoOf_toNat, seqnoOf_toNat]
      omega
    exact List.pairwise_map.1 hseq
  · intro k a ha
    have hk : k < s.ring.accepted.length := (List.getElem?_eq_some_iff.1 ha).1
    rw [isFenceSignaled_iff (by omega), h.seqno ha, seqnoOf_toNat, hretired]
    omega

/-- The submission after `2^32 - 1` others gets a number smaller than all of theirs. -/
private theorem Numbered.not_fenceLaw {S : Store g w β M} {s : Fenced w β M} (h : Numbered S s)
    (hge : 2 ^ 32 ≤ s.ring.accepted.length) : ¬ s.FenceLaw S := by
  rintro ⟨hpairwise, -⟩
  have h₀ : 0 < s.ring.accepted.length := by omega
  have h₁ : 2 ^ 32 - 1 < s.ring.accepted.length := by omega
  have hlt := List.pairwise_iff_getElem.1 hpairwise 0 (2 ^ 32 - 1) h₀ h₁ (by omega)
  rw [h.seqno (List.getElem?_eq_getElem h₀), h.seqno (List.getElem?_eq_getElem h₁), UInt64.lt_iff_toNat_lt,
    seqnoOf_toNat, seqnoOf_toNat] at hlt
  omega

/-! ### Runs of any length -/

private theorem reachable_ring {S : Store g w β M} {s : Fenced w β M} {ring : Spsc w β M}
    (h : Lts.Reachable (Spsc.step S) s.ring ring) : Lts.Reachable (step S) s { s with ring } := by
  have key : ∃ x, Lts.Reachable (step S) s x ∧ x = { s with ring } := by
    refine h.simulates (R := fun r x => x = { s with ring := r }) ?_ rfl
    intro r x a r' hR hs
    refine ⟨{ s with ring := r' }, .single (a := .ring a) ?_, rfl⟩
    rw [step, hR, hs]; rfl
  obtain ⟨x, hx, rfl⟩ := key
  exact hx

/-- Both ends are between calls and nothing is pending. -/
def Quiet (s : Fenced w β M) : Prop :=
  s.ring.producer = none ∧ s.ring.consumer = none ∧ s.ring.returned.length = s.ring.accepted.length

/-- One item pushed and popped again. -/
private theorem Numbered.round {S : Store g w β M} (hS : S.Lawful) {s : Fenced w β M} (h : Numbered S s)
    (hquiet : s.Quiet) (item : Fin w → β) :
    ∃ s', Lts.Reachable (step S) s s' ∧ s'.Quiet ∧ s'.ring.accepted.length = s.ring.accepted.length + 1 := by
  obtain ⟨hproducer, hconsumer, hreturned⟩ := hquiet
  have hpending := h.pending
  have hcap : ¬ (S.view s.ring.mem).idx.tail - (S.view s.ring.mem).idx.head ≥ g.capacity := by
    have := g.slots_pos
    rw [ge_iff_le, UInt32.le_iff_toNat_le, Geometry.capacity_toNat]
    show ¬ g.slots ≤ (S.view s.ring.mem).len.toNat
    omega
  obtain ⟨seqno, m, hpush⟩ : ∃ seqno m, S.push item s.ring.mem = (.ok seqno, m) := by
    rw [Store.push]
    simp only [if_neg hcap]
    exact ⟨_, _, rfl⟩
  have hr₁ := reachable_ring (Spsc.reachable_push hproducer hpush)
  have h₁ := hr₁.invariant (fun _ _ _ => step_numbered hS) h
  have hlen := h₁.pending
  simp only [List.length_append, List.length_singleton] at hlen
  obtain ⟨item', m', hpop⟩ : ∃ item' m', S.pop m = (some item', m') := by
    have hne : ¬ (S.view m).idx.head = (S.view m).idx.tail := by
      rw [← Ring.len_eq_zero]
      omega
    rw [Store.pop]
    simp only [if_neg hne]
    exact ⟨_, _, rfl⟩
  have hr₂ := reachable_ring (s := { s with ring := _ }) (Spsc.reachable_pop (S := S) (s := { s.ring with
    mem := m, accepted := s.ring.accepted ++ [(item, seqno)] }) hconsumer hpop)
  refine ⟨_, hr₁.trans hr₂, ⟨hproducer, hconsumer, ?_⟩, ?_⟩
  · simp only [List.length_append, List.length_singleton, hreturned]
  · simp only [List.length_append, List.length_singleton]

private theorem exists_accepted {S : Store g w β M} (hS : S.Lawful) {m : M} (hm : (S.view m).idx = .new)
    (item : Fin w → β) (n : Nat) :
    ∃ s, Lts.Reachable (step S) (start m) s ∧ s.Quiet ∧ s.ring.accepted.length = n := by
  induction n with
  | zero => exact ⟨_, .refl _, ⟨rfl, rfl, rfl⟩, rfl⟩
  | succ n ih =>
    obtain ⟨s, hr, hquiet, hlen⟩ := ih
    obtain ⟨s', hr', hquiet', hlen'⟩ := (Reachable.numbered hS hm hr).round hS hquiet item
    exact ⟨s', hr.trans hr', hquiet', by rw [hlen', hlen]⟩

/-- A fresh ring of two slots of one word. -/
def fresh : Ring { slots := 2, pow2 := Geometry.two_pow2, le_max := Geometry.two_le_max } (Fin 1 → Nat) where
  slots _ _ := 0
  idx := .new

/-- On a fresh ring the law of fence numbers holds exactly until the `2^32`-th submission is accepted. -/
theorem fenceLaw_iff (g : Geometry) (w : Nat) (β : Type*) (slots : Fin g.slots → Fin w → β)
    {s : Fenced w β (Ring g (Fin w → β))}
    (hr : Lts.Reachable (step (Ring.store g w β)) (start { slots, idx := .new }) s) :
    s.FenceLaw (Ring.store g w β) ↔ s.ring.accepted.length < 2 ^ 32 := by
  have h := Reachable.numbered (Ring.store_lawful g w β) rfl hr
  refine ⟨fun hlaw => ?_, h.fenceLaw⟩
  by_contra hge
  exact h.not_fenceLaw (by omega) hlaw

theorem fenceLaw_of_one_retired : ∃ s, Lts.run (step (Ring.store _ 1 Nat)) (start fresh)
      ((.ring (.push fun _ => 7) :: List.replicate 6 (.ring .producer)) ++
        .ring .pop :: List.replicate 5 (.ring .consumer) ++ [.retire 0]) = some s ∧
    (s.FenceLaw (Ring.store _ 1 Nat) ↔ s.ring.accepted.length < 2 ^ 32) := by
  have hsome : (Lts.run (step (Ring.store _ 1 Nat)) (start fresh)
      ((.ring (.push fun _ => 7) :: List.replicate 6 (.ring .producer)) ++
        .ring .pop :: List.replicate 5 (.ring .consumer) ++ [.retire 0])).isSome := by decide
  obtain ⟨s, hs⟩ := Option.isSome_iff_exists.1 hsome
  exact ⟨s, hs, fenceLaw_iff _ 1 Nat fresh.slots ⟨_, hs⟩⟩

/-- Pushing and popping `2^32` times on the fresh ring breaks the law. -/
theorem fenceLaw_fails_after_wrap :
    ∃ s, Lts.Reachable (step (Ring.store _ 1 Nat)) (start fresh) s ∧ s.ring.accepted.length = 2 ^ 32 ∧
      ¬ s.FenceLaw (Ring.store _ 1 Nat) := by
  have hS := Ring.store_lawful { slots := 2, pow2 := Geometry.two_pow2, le_max := Geometry.two_le_max } 1 Nat
  obtain ⟨s, hr, -, hlen⟩ := exists_accepted hS (m := fresh) rfl (fun _ => 7) (2 ^ 32)
  exact ⟨s, hr, hlen, (Reachable.numbered hS rfl hr).not_fenceLaw (Nat.le_of_eq hlen.symm)⟩

end Fenced

end Infinigpu
