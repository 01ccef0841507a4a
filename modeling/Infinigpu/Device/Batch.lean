import Infinigpu.Device.Drain

/-!
# Popping a batch against a hostile guest (`infinigpu-device`, `pop_batch`)

The host pops a batch one load or store at a time, and between any two of them the guest may change everything it
shares with the host: the index words, which it may set to anything, and the slots.  `Contained` is what holds all the
same, and `left` bounds the steps that the host has left (`popBatch_contained`).  If the guest does nothing, the steps
compute `popBatch` (`run_alone`).
-/

namespace Infinigpu

/-- Where a call of `pop_batch` stands: in the two loads of `len`, inside a `pop`, or at its end. -/
inductive BatchPc where
  | lenTail
  | lenHead (tail : UInt32)
  | popping (pc : PopPc descriptorSize UInt8)
  | done

/-- A call of `pop_batch` under way.  `room` is the number of entries that the vector has been asked to have room for,
`pops` the number of calls of `pop`, and `indexed` has the indices at which the slots were accessed. -/
structure Batching (M : Type*) where
  mem : M
  pc : BatchPc
  out : Drained
  room : Nat
  pops : Nat
  indexed : List Nat

/-- The index of the slot that a step of `pop` accesses. -/
def PopPc.accessed (g : Geometry) : PopPc descriptorSize UInt8 → List Nat
  | .read head _ => [(head &&& g.mask).toNat]
  | _ => []

/-- The steps of a call of `pop`, from a point of it on. -/
def PopPc.left : PopPc descriptorSize UInt8 → Nat
  | .loadHead => descriptorSize + 4
  | .loadTail _ => descriptorSize + 3
  | .read _ words => descriptorSize - words.length + 2
  | .storeHead _ _ => 1

namespace Batching

variable {g : Geometry} {M : Type*}

def start (m : M) : Batching M where
  mem := m
  pc := .lenTail
  out := .empty
  room := 0
  pops := 0
  indexed := []

/-- The condition of the loop: another call of `pop`, or the end. -/
def loop (bound : Nat) (s : Batching M) : Batching M :=
  if s.out.descriptors.length < bound then
    { s with
      pc := .popping .loadHead
      pops := s.pops + 1 }
  else
    { s with pc := .done }

/-- What a call of `pop` returned is put into the batch; without an entry the loop ends. -/
def returned (bound : Nat) (mem : M) (s : Batching M) : Option (Fin descriptorSize → UInt8) → Batching M
  | some slot =>
    let out := s.out.push (.ofSlot slot)
    { s with mem, out, room := Max.max s.room out.descriptors.length }.loop bound
  | none => { s with mem, pc := .done }

variable (S : Store g descriptorSize UInt8 M) (max : Nat)

/-- The next step of the host, if there is one. -/
def stepHost (s : Batching M) : Batching M :=
  let bound := batchBound g max
  match s.pc with
  | .lenTail => { s with pc := .lenHead (S.view s.mem).idx.tail }
  | .lenHead tail =>
    let len := tail - (S.view s.mem).idx.head
    { s with room := min bound len.toNat }.loop bound
  | .popping pc =>
    let s := { s with indexed := s.indexed ++ pc.accessed g }
    match S.popStep s.mem pc with
    | .running pc mem => { s with mem, pc := .popping pc }
    | .done result mem => s.returned bound mem result
  | .done => s

/-- A step of the host, or anything the guest does to the memory it shares. -/
inductive Action (M : Type*) where
  | host
  | guest (f : M → M)

def step (s : Batching M) : Action M → Batching M
  | .host => s.stepHost S max
  | .guest f => { s with mem := f s.mem }

def run (s : Batching M) (as : List (Action M)) : Batching M := as.foldl (step S max) s

/-- The steps of the host among the actions. -/
def hostSteps : List (Action M) → Nat
  | [] => 0
  | .host :: as => hostSteps as + 1
  | .guest _ :: as => hostSteps as

/-! ### What holds whatever the guest does -/

/-- The number of calls of `pop` agrees with the batch. -/
def Turn (bound : Nat) (s : Batching M) : Prop :=
  match s.pc with
  | .popping _ => s.pops = s.out.descriptors.length + 1 ∧ s.out.descriptors.length < bound
  | .done => s.out.descriptors.length ≤ s.pops ∧ s.pops ≤ bound
  | _ => s.pops = 0 ∧ s.out.descriptors.length = 0

/-- The calls of `pop`, the batch and the room for it are bounded, no slot outside the array is accessed, and the
highest seqno is the maximum of those in the batch. -/
structure Contained (g : Geometry) (bound : Nat) (s : Batching M) : Prop where
  turn : s.Turn bound
  room : s.room ≤ bound
  indexed : ∀ i ∈ s.indexed, i < g.slots
  highest : s.out.highestSeqno = (s.out.descriptors.map Descriptor.seqno).foldl Max.max 0

variable {S max} {bound : Nat} {s : Batching M}

theorem Contained.pops (h : s.Contained g bound) :
    s.out.descriptors.length ≤ s.pops ∧ s.pops ≤ bound := by
  have hturn := h.turn
  simp only [Turn] at hturn
  split at hturn <;> omega

private theorem start_contained (bound : Nat) (m : M) : (start m).Contained g bound where
  turn := ⟨rfl, rfl⟩
  room := Nat.zero_le _
  indexed _ h := absurd h List.not_mem_nil
  highest := rfl

/-- The loop goes on with one call more than there are entries. -/
private theorem loop_contained (hroom : s.room ≤ bound) (hindexed : ∀ i ∈ s.indexed, i < g.slots)
    (hhighest : s.out.highestSeqno = (s.out.descriptors.map Descriptor.seqno).foldl Max.max 0)
    (hpops : s.pops = s.out.descriptors.length) (hlen : s.out.descriptors.length ≤ bound) :
    (s.loop bound).Contained g bound := by
  unfold loop
  split
  · rename_i hlt
    exact ⟨⟨by rw [hpops], hlt⟩, hroom, hindexed, hhighest⟩
  · exact ⟨⟨hpops.ge, hpops.trans_le hlen⟩, hroom, hindexed, hhighest⟩

private theorem accessed_lt (g : Geometry) (pc : PopPc descriptorSize UInt8) : ∀ i ∈ pc.accessed g, i < g.slots := by
  intro i hi
  cases pc with
  | read head words =>
    rw [PopPc.accessed, List.mem_singleton] at hi
    rw [hi]
    exact (g.slotIndex head).isLt
  | loadHead => cases hi
  | loadTail head => cases hi
  | storeHead head item => cases hi

/-- The highest seqno of a batch that was the maximum is the maximum again. -/
private theorem push_highest {out : Drained}
    (h : out.highestSeqno = (out.descriptors.map Descriptor.seqno).foldl Max.max 0) (desc : Descriptor) :
    (out.push desc).highestSeqno = ((out.push desc).descriptors.map Descriptor.seqno).foldl Max.max 0 := by
  have hfold : ((out.push desc).descriptors.map Descriptor.seqno).foldl Max.max 0 =
      if out.highestSeqno ≤ desc.seqno then desc.seqno else out.highestSeqno := by
    rw [h, Drained.push, List.map_append, List.foldl_append]
    rfl
  rw [hfold, Drained.push]
  by_cases hle : out.highestSeqno ≤ desc.seqno
  · rw [if_pos hle]
    split
    · rfl
    · rename_i hngt
      exact UInt64.le_antisymm hle (UInt64.not_lt.1 hngt)
  · rw [if_neg hle, if_neg fun hgt => hle (UInt64.le_of_lt hgt)]

private theorem Contained.returned (h : s.Contained g bound) {pc : PopPc descriptorSize UInt8}
    (hpc : s.pc = .popping pc) (mem : M) (result : Option (Fin descriptorSize → UInt8)) :
    (s.returned bound mem result).Contained g bound := by
  have hturn := h.turn
  simp only [Turn, hpc] at hturn
  obtain ⟨hpops, hlt⟩ := hturn
  cases result with
  | none =>
    have hcalls : s.out.descriptors.length ≤ s.pops ∧ s.pops ≤ bound := by omega
    exact ⟨hcalls, h.room, h.indexed, h.highest⟩
  | some slot =>
    have hlength : (s.out.push (.ofSlot slot)).descriptors.length = s.out.descriptors.length + 1 :=
      List.length_append
    refine loop_contained ?_ h.indexed ?_ (by rw [hlength, hpops]) (by rw [hlength]; omega)
    · rw [hlength]
      exact max_le h.room hlt
    · exact push_highest h.highest _

private theorem Contained.stepHost (h : s.Contained g (batchBound g max)) :
    (s.stepHost S max).Contained g (batchBound g max) := by
  have hturn := h.turn
  cases hpc : s.pc with
  | lenTail =>
    simp only [Turn, hpc] at hturn
    simp only [Batching.stepHost, hpc]
    exact ⟨hturn, h.room, h.indexed, h.highest⟩
  | lenHead tail =>
    simp only [Turn, hpc] at hturn
    simp only [Batching.stepHost, hpc]
    have hlen : s.out.descriptors.length ≤ batchBound g max := by omega
    exact loop_contained (Nat.min_le_left _ _) h.indexed h.highest (hturn.1.trans hturn.2.symm) hlen
  | popping pc =>
    simp only [Turn, hpc] at hturn
    simp only [Batching.stepHost, hpc]
    have hindexed : ∀ i ∈ s.indexed ++ pc.accessed g, i < g.slots := fun i hi =>
      (List.mem_append.1 hi).elim (h.indexed i) (accessed_lt g pc i)
    have hs : ({ s with indexed := s.indexed ++ pc.accessed g } : Batching M).Contained g (batchBound g max) :=
      ⟨by simp only [Turn, hpc]; exact hturn, h.room, hindexed, h.highest⟩
    split
    · exact ⟨hturn, h.room, hindexed, h.highest⟩
    · exact hs.returned hpc _ _
  | done =>
    simp only [Batching.stepHost, hpc]
    exact h

theorem Contained.run (h : s.Contained g (batchBound g max)) (as : List (Action M)) :
    (s.run S max as).Contained g (batchBound g max) := by
  induction as generalizing s with
  | nil => exact h
  | cons a as ih =>
    cases a with
    | host => exact ih h.stepHost
    | guest f => exact ih { h with }

/-! ### Steps left -/

/-- The steps that the host has left at most. -/
def left (bound : Nat) (s : Batching M) : Nat :=
  match s.pc with
  | .lenTail => 2 + bound * (descriptorSize + 4)
  | .lenHead _ => 1 + bound * (descriptorSize + 4)
  | .popping pc => pc.left + (bound - (s.out.descriptors.length + 1)) * (descriptorSize + 4)
  | .done => 0

private theorem left_eq_zero (h : s.left bound = 0) : s.pc = .done := by
  cases hpc : s.pc with
  | lenTail =>
    simp only [left, hpc] at h
    omega
  | lenHead tail =>
    simp only [left, hpc] at h
    omega
  | popping pc =>
    simp only [left, hpc] at h
    cases pc <;> simp only [PopPc.left] at h <;> omega
  | done => rfl

private theorem loop_left (bound : Nat) (s : Batching M) :
    (s.loop bound).left bound ≤ (bound - s.out.descriptors.length) * (descriptorSize + 4) := by
  unfold loop
  split
  · rename_i hlt
    have hstep : bound - s.out.descriptors.length = bound - (s.out.descriptors.length + 1) + 1 := by omega
    simp only [left, PopPc.left]
    rw [hstep, Nat.add_mul]
    omega
  · exact Nat.zero_le _

/-- A step of `pop` leaves fewer. -/
private theorem popStep_left {m m' : M} {pc pc' : PopPc descriptorSize UInt8} (h : S.popStep m pc = .running pc' m') :
    pc'.left < pc.left := by
  cases pc with
  | loadHead =>
    cases h
    simp only [PopPc.left]
    omega
  | loadTail head =>
    simp only [Store.popStep] at h
    split at h <;> cases h
    simp only [PopPc.left, List.length_nil]
    omega
  | read head words =>
    simp only [Store.popStep] at h
    split at h <;> cases h
    · simp only [PopPc.left, List.length_append, List.length_singleton]
      omega
    · simp only [PopPc.left]
      omega
  | storeHead head item => cases h

private theorem stepHost_left (S : Store g descriptorSize UInt8 M) (max : Nat) (s : Batching M) :
    (s.stepHost S max).left (batchBound g max) ≤ s.left (batchBound g max) - 1 := by
  cases hpc : s.pc with
  | lenTail =>
    simp only [stepHost, left, hpc]
    omega
  | lenHead tail =>
    simp only [stepHost, hpc]
    refine (loop_left _ _).trans ?_
    simp only [left, hpc]
    have hle : batchBound g max - s.out.descriptors.length ≤ batchBound g max := Nat.sub_le _ _
    have hmul := Nat.mul_le_mul_right (descriptorSize + 4) hle
    omega
  | popping pc =>
    simp only [stepHost, hpc]
    cases hstep : S.popStep s.mem pc with
    | running pc' mem =>
      have hless := popStep_left hstep
      simp only [left, hpc]
      omega
    | done result mem =>
      have hpos : 0 < pc.left := by cases pc <;> simp only [PopPc.left] <;> omega
      cases result with
      | none => exact Nat.zero_le _
      | some slot =>
        simp only [returned]
        refine (loop_left _ _).trans ?_
        simp only [left, hpc, Drained.push, List.length_append, List.length_singleton]
        omega
  | done =>
    simp only [stepHost, left, hpc]
    omega

private theorem run_left (S : Store g descriptorSize UInt8 M) (max : Nat) (s : Batching M) (as : List (Action M)) :
    (s.run S max as).left (batchBound g max) ≤ s.left (batchBound g max) - hostSteps as := by
  induction as generalizing s with
  | nil => exact Nat.le_refl _
  | cons a as ih =>
    cases a with
    | host =>
      have hstep := stepHost_left S max s
      have hrest := ih (s.stepHost S max)
      simp only [hostSteps]
      refine hrest.trans ?_
      omega
    | guest f => exact ih { s with mem := f s.mem }

/-- Whatever the guest stores between the steps of the host: `pop` is called at most as often as the batch may be
large, room is asked for that many entries at most, no slot outside the array is accessed, the highest seqno is the
maximum of those in the batch, and the call ends after a bounded number of the host's steps. -/
theorem popBatch_contained (S : Store g descriptorSize UInt8 M) (max : Nat) (m : M) (as : List (Action M)) :
    let s := (start m).run S max as
    s.pops ≤ min max g.slots ∧ s.out.descriptors.length ≤ s.pops ∧ s.room ≤ min max g.slots ∧
      (∀ i ∈ s.indexed, i < g.slots) ∧
      s.out.highestSeqno = (s.out.descriptors.map Descriptor.seqno).foldl Max.max 0 ∧
      (s.pc = .done ∨ hostSteps as < 2 + min max g.slots * (descriptorSize + 4)) := by
  have hbound : batchBound g max = min max g.slots := by rw [batchBound, Geometry.capacity_toNat]
  have h : ((start m).run S max as).Contained g (batchBound g max) := (start_contained _ m).run as
  have hleft := run_left S max (start m) as
  obtain ⟨hentries, hpops⟩ := h.pops
  rw [hbound] at h hpops hleft
  refine ⟨hpops, hentries, h.room, h.indexed, h.highest, ?_⟩
  by_cases hdone : (2 + min max g.slots * (descriptorSize + 4)) ≤ hostSteps as
  · refine .inl (left_eq_zero (Nat.eq_zero_of_le_zero (hleft.trans ?_)))
    exact (Nat.sub_eq_zero_of_le hdone).le
  · exact .inr (Nat.not_le.1 hdone)

/-! ### The host alone -/

private theorem run_replicate_add (S : Store g descriptorSize UInt8 M) (max : Nat) (s : Batching M) (n k : Nat) :
    s.run S max (List.replicate (n + k) .host) =
      (s.run S max (List.replicate n .host)).run S max (List.replicate k .host) := by
  rw [List.replicate_add, run, List.foldl_append]
  rfl

private theorem run_pop (max : Nat) {pc : PopPc descriptorSize UInt8} {m m' : M}
    {result : Option (Fin descriptorSize → UInt8)} (h : Store.Runs S.popStep pc m result m') (s : Batching M)
    (hmem : s.mem = m) (hpc : s.pc = .popping pc) :
    ∃ n indexed, s.run S max (List.replicate n .host) =
      ({ s with indexed } : Batching M).returned (batchBound g max) m' result := by
  induction h generalizing s with
  | done hstep =>
    rename_i pc _ _ _
    refine ⟨1, s.indexed ++ pc.accessed g, ?_⟩
    show s.stepHost S max = _
    simp only [stepHost, hpc, hmem, hstep]
  | running hstep rest ih =>
    rename_i pc pc' _ mem _ _
    have hnext : s.stepHost S max =
        { s with mem, pc := .popping pc', indexed := s.indexed ++ pc.accessed g } := by
      simp only [stepHost, hpc, hmem, hstep]
    obtain ⟨n, indexed, hrun⟩ := ih (s.stepHost S max) (by rw [hnext]) (by rw [hnext])
    refine ⟨1 + n, indexed, ?_⟩
    rw [run_replicate_add]
    refine hrun.trans ?_
    rw [hnext]
    rename_i result _
    cases result with
    | none => rfl
    | some slot => rfl

private theorem run_loop (S : Store g descriptorSize UInt8 M) (max n : Nat) (s : Batching M)
    (hn : s.out.descriptors.length + n = batchBound g max) :
    ∃ k, let t := (s.loop (batchBound g max)).run S max (List.replicate k .host)
      t.pc = .done ∧ (t.out, t.mem) = popLoop S n s.out s.mem := by
  induction n generalizing s with
  | zero =>
    have hend : ¬ s.out.descriptors.length < batchBound g max := by omega
    refine ⟨0, ?_⟩
    rw [loop, if_neg hend]
    exact ⟨rfl, rfl⟩
  | succ n ih =>
    have hlt : s.out.descriptors.length < batchBound g max := by omega
    rw [loop, if_pos hlt]
    obtain ⟨k, indexed, hpop⟩ := run_pop max (Store.pop_runs (S := S) s.mem)
      { s with
        pc := .popping .loadHead
        pops := s.pops + 1 } rfl rfl
    simp only [popLoop]
    split
    · rename_i slot mem hm
      rw [hm] at hpop
      have hlength : (s.out.push (.ofSlot slot)).descriptors.length = s.out.descriptors.length + 1 :=
        List.length_append
      obtain ⟨l, hrest⟩ := ih
        { mem, pc := .popping .loadHead, out := s.out.push (.ofSlot slot), indexed, pops := s.pops + 1,
          room := Max.max s.room (s.out.push (.ofSlot slot)).descriptors.length } (by rw [hlength]; omega)
      refine ⟨k + l, ?_⟩
      rw [run_replicate_add, hpop]
      exact hrest
    · rename_i mem hm
      rw [hm] at hpop
      refine ⟨k, ?_⟩
      simp only [hpop]
      exact ⟨rfl, rfl⟩

/-- With the guest at rest, the steps of the host compute `popBatch`. -/
theorem run_alone (S : Store g descriptorSize UInt8 M) (max : Nat) (m : M) :
    ∃ n, let s := (start m).run S max (List.replicate n .host)
      s.pc = .done ∧ (s.out, s.mem) = popBatch S max m := by
  have hlen : (start m).run S max (List.replicate 2 .host) =
      ({ start m with
        pc := .lenHead (S.view m).idx.tail
        room := min (batchBound g max) ((S.view m).idx.tail - (S.view m).idx.head).toNat } : Batching M).loop
        (batchBound g max) := rfl
  obtain ⟨k, hrun⟩ := run_loop S max (batchBound g max)
    { start m with
      pc := .lenHead (S.view m).idx.tail
      room := min (batchBound g max) ((S.view m).idx.tail - (S.view m).idx.head).toNat } (Nat.zero_add _)
  refine ⟨2 + k, ?_⟩
  rw [run_replicate_add, hlen]
  exact hrun

end Batching

end Infinigpu
