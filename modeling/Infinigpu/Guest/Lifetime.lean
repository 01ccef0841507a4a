import Infinigpu.Guest.Contained
import Infinigpu.Lib.Lts
import Infinigpu.Ring.Steps

/-!
# How long a forwarded submission keeps its buffers (`guest/linux`, `igpu_submit_forwarded`)

An ioctl stages its message, publishes a descriptor that names the staging buffer, and waits for its seqno to be
retired; when it returns, for whatever reason, the staging buffer is freed and the target let go.  Any number of calls
and the other users of the ring interleave with a host that pops, executes and retires at its own pace.
`Submitting.owned_iff`: nothing on the ring is without its buffers exactly when no call gives up too early.
-/

namespace Infinigpu.Kmd

def ring2Geometry : Geometry := ⟨16, ⟨4, rfl⟩, by decide⟩

/-- What a call owns until it returns. -/
structure Buffers where
  stagingDma : UInt64
  totalLen : UInt32
  /-- The object the host renders into. -/
  target : GemObject

/-- A descriptor on the ring.  A forwarded submission comes with the call that has published it and the object its
staged message has the host write. -/
structure Entry where
  desc : Descriptor
  owner : Option Nat
  writes : Option GemObject

namespace Entry

/-- What `igpu_ring2_push_abs` publishes for the call `n`. -/
def forwarded (n : Nat) (b : Buffers) (tail : UInt32) : Entry where
  desc := ring2PushAbs tail MsgType.submitCmd b.stagingDma b.totalLen
  owner := some n
  writes := some b.target

/-- What `igpu_ring2_push` publishes. -/
def inlined (msgType payloadLen tail : UInt32) : Entry where
  desc := ring2Push tail msgType payloadLen
  owner := none
  writes := none

/-- `b` are the buffers the entry is about. -/
def Names (e : Entry) (b : Buffers) : Prop :=
  e.desc.payloadAddr = b.stagingDma ∧ e.desc.len = b.totalLen ∧ e.writes = some b.target

end Entry

abbrev Ring2 := Ring ring2Geometry Entry

/-- `igpu_ring2_push` and `igpu_ring2_push_abs` from the check on: the descriptor of `tail` goes into its slot. -/
def Ring2.publishEntry (entry : UInt32 → Entry) (r : Ring2) : Ring2 :=
  let tail := r.idx.tail
  let head := r.idx.head
  if tail - head ≥ RING2_CAP then
    r
  else
    { slots := Function.update r.slots (ring2Geometry.slotIndex tail) (entry tail)
      idx := { r.idx with seqnoSubmit := tail.toUInt64 + 1, tail := tail + 1 } }

inductive WaitError where
  | busy
  | timedOut
  | fault
  deriving DecidableEq

/-- Where an ioctl stands, its buffers allocated. -/
inductive Call where
  | unborn
  | publishing (b : Buffers) (tries : Nat)
  | waiting (b : Buffers) (want : UInt64) (polls : Nat)
  | returned (result : Except WaitError Unit)

/-- What the call still owns. -/
def Call.holds : Call → Option Buffers
  | .publishing b _ => some b
  | .waiting b _ _ => some b
  | _ => none

/-- The last turn of its waiting loop, with its seqno not retired. -/
def Call.givesUp (seqnoRetired : UInt64) : Call → Bool
  | .waiting _ want polls => decide (¬ seqnoRetired ≥ want) && decide (¬ polls + 1 < 20000)
  | _ => false

/-- Where the host stands: between two drains, popping with `n` more allowed, or with the rest of a batch to
execute. -/
inductive HostPhase where
  | idle
  | popping (n : Nat) (batch : List Entry) (highestSeqno : UInt64)
  | executing (rest : List Entry) (highestSeqno : UInt64)

namespace HostPhase

def inFlight : HostPhase → List Entry
  | .idle => []
  | .popping _ batch _ => batch
  | .executing rest _ => rest

def highestSeqno : HostPhase → UInt64
  | .idle => 0
  | .popping _ _ highest => highest
  | .executing _ highest => highest

end HostPhase

structure Submitting where
  ring : Ring2
  host : HostPhase
  calls : Nat → Call
  /-- How many descriptors have been published. -/
  pushes : Nat

namespace Submitting

def start : Submitting where
  ring := ⟨fun _ => ⟨⟨0, 0, 0, 0, 0, 0⟩, none, none⟩, .new⟩
  host := .idle
  calls _ := .unborn
  pushes := 0

inductive Action where
  /-- An ioctl with its buffers allocated; `copied` is whether the caller's bytes could be read. -/
  | begin (n : Nat) (b : Buffers) (copied : Bool)
  /-- One turn of the publishing loop. -/
  | publish (n : Nat)
  /-- One turn of the waiting loop. -/
  | poll (n : Nat)
  /-- Another message with its payload in the slot. -/
  | push (msgType payloadLen : UInt32)
  | doorbell
  | pop
  | execute
  | retire

def setCall (s : Submitting) (n : Nat) (c : Call) : Submitting := { s with calls := Function.update s.calls n c }

/-- The ring with one more entry, if there was room. -/
def published (s : Submitting) (entry : UInt32 → Entry) : Submitting :=
  let ring := s.ring.publishEntry entry
  { s with ring, pushes := if ring.idx.tail = s.ring.idx.tail then s.pushes else s.pushes + 1 }

def step (s : Submitting) : Action → Option Submitting
  | .begin n b copied =>
    match s.calls n with
    | .unborn => some (s.setCall n (if copied then .publishing b 0 else .returned (.error .fault)))
    | _ => none
  | .publish n =>
    match s.calls n with
    | .publishing b tries =>
      let s' := s.published (Entry.forwarded n b)
      if s'.ring.idx.seqnoSubmit ≠ s.ring.idx.seqnoSubmit then
        some (s'.setCall n (.waiting b s'.ring.idx.seqnoSubmit 0))
      else if tries + 1 < 64 then
        some (s'.setCall n (.publishing b (tries + 1)))
      else
        some (s'.setCall n (.returned (.error .busy)))
    | _ => none
  | .poll n =>
    match s.calls n with
    | .waiting b want polls =>
      if s.ring.idx.seqnoRetired ≥ want then
        some (s.setCall n (.returned (.ok ())))
      else if polls + 1 < 20000 then
        some (s.setCall n (.waiting b want (polls + 1)))
      else
        some (s.setCall n (.returned (.error .timedOut)))
    | _ => none
  | .push msgType payloadLen =>
    if payloadLen > RING2_PSTRIDE then
      some s
    else
      some (s.published (Entry.inlined msgType payloadLen))
  | .doorbell =>
    match s.host with
    | .idle => some { s with host := .popping ring2Geometry.slots [] 0 }
    | _ => none
  | .pop =>
    match s.host with
    | .popping (n + 1) batch highest =>
      if s.ring.idx.head = s.ring.idx.tail then
        some { s with host := .executing batch highest }
      else
        let e := s.ring.slots (ring2Geometry.slotIndex s.ring.idx.head)
        some { s with
          ring := s.ring.release
          host := .popping n (batch ++ [e]) (if e.desc.seqno > highest then e.desc.seqno else highest) }
    | .popping 0 batch highest => some { s with host := .executing batch highest }
    | _ => none
  | .execute =>
    match s.host with
    | .executing (_ :: rest) highest => some { s with host := .executing rest highest }
    | _ => none
  | .retire =>
    match s.host with
    | .executing [] highest =>
      some { s with
        host := .idle
        ring := if highest > 0 then { s.ring with idx := { s.ring.idx with seqnoRetired := highest } } else s.ring }
    | _ => none

/-- The descriptors that the host has still to execute, in their order. -/
def outstanding (s : Submitting) : List Entry := s.host.inFlight ++ s.ring.pending

/-- The staging buffer and the target of every forwarded descriptor that is still to be executed are those of a call
that has not returned. -/
def Owned (s : Submitting) : Prop :=
  ∀ e ∈ s.outstanding, ∀ n ∈ e.owner, ∃ b, (s.calls n).holds = some b ∧ e.Names b

/-- A call that gives up waiting does so after its descriptor has been executed. -/
def Patient (s : Submitting) : Action → Prop
  | .poll n => (s.calls n).givesUp s.ring.idx.seqnoRetired → ∀ e ∈ s.outstanding, e.owner ≠ some n
  | _ => True

instance (s : Submitting) : (a : Action) → Decidable (s.Patient a)
  | .poll _ => inferInstanceAs (Decidable (_ → _))
  | .begin .. => .isTrue trivial
  | .publish _ => .isTrue trivial
  | .push .. => .isTrue trivial
  | .doorbell => .isTrue trivial
  | .pop => .isTrue trivial
  | .execute => .isTrue trivial
  | .retire => .isTrue trivial

/-! ### What holds all along -/

/-- The numbers on the ring.  Those of what is outstanding are the last ones given out. -/
structure Numbered (s : Submitting) : Prop where
  room : s.ring.len.toNat ≤ ring2Geometry.slots
  tail : s.ring.idx.tail = UInt32.ofNat s.pushes
  submitted : s.ring.idx.seqnoSubmit.toNat = s.pushes
  numbered : ∀ i e, s.outstanding[i]? = some e → e.desc.seqno.toNat + s.outstanding.length = s.pushes + i + 1
  retired : s.ring.idx.seqnoRetired.toNat + s.outstanding.length ≤ s.pushes
  highest : s.host.highestSeqno.toNat + s.ring.pending.length ≤ s.pushes

/-- What a call knows of a descriptor it has published. -/
def Knows (c : Call) (e : Entry) : Prop :=
  match c with
  | .waiting b want _ => want = e.desc.seqno ∧ e.Names b
  | .returned _ => True
  | _ => False

structure Sound (s : Submitting) : Prop extends Numbered s where
  known : ∀ e ∈ s.outstanding, ∀ n ∈ e.owner, Knows (s.calls n) e

/-! ### Publishing -/

theorem published_full {s : Submitting} {entry : UInt32 → Entry} (h : ¬ s.ring.len.toNat < ring2Geometry.slots) :
    s.published entry = s := by
  have hfull : s.ring.idx.tail - s.ring.idx.head ≥ RING2_CAP := by
    rw [ge_iff_le, UInt32.le_iff_toNat_le]
    exact Nat.not_lt.1 h
  have hsame : s.ring.publishEntry entry = s.ring := by rw [Ring2.publishEntry, if_pos hfull]
  rw [published, hsame, if_pos rfl]

/-- The ring after a push that found room: the entry is the newest pending one. -/
theorem publishEntry_room {r : Ring2} (entry : UInt32 → Entry) (h : r.len.toNat < ring2Geometry.slots) :
    (r.publishEntry entry).pending = r.pending ++ [entry r.idx.tail] ∧
      (r.publishEntry entry).len.toNat = r.len.toNat + 1 ∧
      (r.publishEntry entry).idx = { r.idx with seqnoSubmit := r.idx.tail.toUInt64 + 1, tail := r.idx.tail + 1 } := by
  have hroom : ¬ r.idx.tail - r.idx.head ≥ RING2_CAP := by
    rw [ge_iff_le, UInt32.le_iff_toNat_le]
    exact Nat.not_le.2 h
  -- the slot alone, before the descriptor is published
  let written : Ring2 :=
    { slots := Function.update r.slots (ring2Geometry.slotIndex r.idx.tail) (entry r.idx.tail)
      idx := { r.idx with seqnoSubmit := r.idx.tail.toUInt64 + 1 } }
  have hpublish : r.publishEntry entry = written.publish := by rw [Ring2.publishEntry, if_neg hroom]; rfl
  have hkeeps : r.KeepsEntries written := by
    refine ⟨rfl, rfl, fun j hj => ?_⟩
    exact Function.update_of_ne (Ring.slotIndex_tail_ne h hj) _ _
  have hlen : written.len.toNat < ring2Geometry.slots := by rw [hkeeps.len]; exact h
  refine ⟨?_, ?_, ?_⟩
  · rw [hpublish, Ring.publish_pending hlen, hkeeps.pending]
    show _ ++ [Function.update r.slots _ _ _] = _
    rw [Function.update_self]
  · rw [hpublish, Ring.publish_len hlen, hkeeps.len]
  · rw [hpublish]; rfl

private theorem succ_ne (x : UInt32) : x + 1 ≠ x := by
  intro h
  have hlt := x.toNat_lt
  have := congrArg UInt32.toNat h
  rw [UInt32.toNat_add, UInt32.toNat_one] at this
  omega

theorem published_pushes {s : Submitting} {entry : UInt32 → Entry} (h : s.ring.len.toNat < ring2Geometry.slots) :
    (s.published entry).pushes = s.pushes + 1 := by
  have htail : (s.ring.publishEntry entry).idx.tail = s.ring.idx.tail + 1 := by rw [(publishEntry_room entry h).2.2]
  have hne : (s.ring.publishEntry entry).idx.tail ≠ s.ring.idx.tail := by rw [htail]; exact succ_ne _
  exact if_neg hne

theorem published_outstanding {s : Submitting} {entry : UInt32 → Entry} (h : s.ring.len.toNat < ring2Geometry.slots) :
    (s.published entry).outstanding = s.outstanding ++ [entry s.ring.idx.tail] := by
  show s.host.inFlight ++ (s.ring.publishEntry entry).pending = _
  rw [(publishEntry_room entry h).1, ← List.append_assoc]; rfl

/-- The seqno a push gives out, as long as the free-running tail has not wrapped. -/
theorem Numbered.seqno {s : Submitting} (h : Numbered s) (hb : s.pushes < 2 ^ 32) :
    (s.ring.idx.tail.toUInt64 + 1).toNat = s.pushes + 1 := by
  rw [UInt64.toNat_add, UInt32.toNat_toUInt64, h.tail, UInt32.toNat_ofNat', UInt64.toNat_one]
  omega

private theorem Numbered.published {s : Submitting} {entry : UInt32 → Entry} (h : Numbered s)
    (hroom : s.ring.len.toNat < ring2Geometry.slots) (hb : s.pushes < 2 ^ 32)
    (hseqno : ∀ tail, (entry tail).desc.seqno = tail.toUInt64 + 1) : Numbered (s.published entry) := by
  obtain ⟨hpending, hlen, hidx⟩ := publishEntry_room entry hroom
  have hpushes : (s.published entry).pushes = s.pushes + 1 := published_pushes hroom
  have houtstanding : (s.published entry).outstanding = s.outstanding ++ [entry s.ring.idx.tail] :=
    published_outstanding hroom
  constructor
  · show (s.ring.publishEntry entry).len.toNat ≤ _
    omega
  · show (s.ring.publishEntry entry).idx.tail = _
    rw [hidx, hpushes, UInt32.ofNat_add, ← h.tail]; rfl
  · show (s.ring.publishEntry entry).idx.seqnoSubmit.toNat = _
    rw [hidx, hpushes, ← h.seqno hb]
  · intro i e he
    rw [houtstanding] at he
    rw [houtstanding, hpushes, List.length_append, List.length_singleton]
    rcases Nat.lt_trichotomy i s.outstanding.length with hi | hi | hi
    · rw [List.getElem?_append_left hi] at he
      have := h.numbered i e he
      omega
    · subst hi
      rw [List.getElem?_concat_length, Option.some_inj] at he
      rw [← he, hseqno, h.seqno hb]
      omega
    · rw [List.getElem?_eq_none (by rw [List.length_append, List.length_singleton]; omega)] at he
      cases he
  · show (s.ring.publishEntry entry).idx.seqnoRetired.toNat + _ ≤ _
    have := h.retired
    rw [hidx, houtstanding, hpushes, List.length_append, List.length_singleton]
    show s.ring.idx.seqnoRetired.toNat + _ ≤ _
    omega
  · show s.host.highestSeqno.toNat + (s.ring.publishEntry entry).pending.length ≤ _
    have := h.highest
    rw [hpending, hpushes, List.length_append, List.length_singleton]
    omega

/-! ### The moves of a call -/

theorem setCall_calls (s : Submitting) (n m : Nat) (c : Call) :
    (s.setCall n c).calls m = if m = n then c else s.calls m := Function.update_apply _ _ _ _

private theorem Numbered.setCall {s : Submitting} (h : Numbered s) (n : Nat) (c : Call) : Numbered (s.setCall n c) :=
  ⟨h.room, h.tail, h.submitted, h.numbered, h.retired, h.highest⟩

private theorem Sound.setCall {s : Submitting} (h : Sound s) {n : Nat} {c : Call}
    (hc : ∀ e ∈ s.outstanding, e.owner = some n → Knows c e) : Sound (s.setCall n c) := by
  refine ⟨h.toNumbered.setCall n c, fun e he m hm => ?_⟩
  rw [setCall_calls]
  by_cases hmn : m = n
  · rw [if_pos hmn]
    exact hc e he (hmn ▸ hm)
  · rw [if_neg hmn]
    exact h.known e he m hm

/-- A call that has published nothing has nothing outstanding. -/
private theorem Sound.none_of {s : Submitting} (h : Sound s) {n : Nat} (hn : ∀ e, ¬ Knows (s.calls n) e) (e : Entry)
    (he : e ∈ s.outstanding) : e.owner ≠ some n :=
  fun howner => hn e (h.known e he n howner)

/-- What is outstanding has not been retired. -/
theorem Numbered.not_retired {s : Submitting} (h : Numbered s) {e : Entry} (he : e ∈ s.outstanding) :
    ¬ s.ring.idx.seqnoRetired ≥ e.desc.seqno := by
  obtain ⟨i, hi⟩ := List.mem_iff_getElem?.1 he
  have := h.numbered i e hi
  have := h.retired
  rw [ge_iff_le, UInt64.le_iff_toNat_le]
  omega

private theorem owned_setCall {s : Submitting} {n : Nat} {c : Call} (hc : c.holds = (s.calls n).holds) :
    Owned (s.setCall n c) ↔ Owned s := by
  have hholds : ∀ m, ((s.setCall n c).calls m).holds = (s.calls m).holds := by
    intro m
    rw [setCall_calls]
    by_cases hmn : m = n
    · rw [if_pos hmn, hc, hmn]
    · rw [if_neg hmn]
  unfold Owned
  simp only [hholds]
  exact Iff.rfl

/-- A call that returns lets its buffers go. -/
private theorem owned_returned {s : Submitting} (h : Owned s) (n : Nat) (result : Except WaitError Unit) :
    Owned (s.setCall n (.returned result)) ↔ ∀ e ∈ s.outstanding, e.owner ≠ some n := by
  constructor
  · intro howned e he howner
    obtain ⟨b, hb, -⟩ := howned e he n howner
    rw [setCall_calls, if_pos rfl] at hb
    cases hb
  · intro hnone e he m hm
    have hmn : m ≠ n := by
      rintro rfl
      exact hnone e he hm
    rw [setCall_calls, if_neg hmn]
    exact h e he m hm

/-! ### The moves of the host -/

/-- The host moves on: the calls stay, and what it has executed is gone from the front. -/
structure Advances (s s' : Submitting) : Prop where
  calls : s'.calls = s.calls
  pushes : s'.pushes = s.pushes
  tail : s'.ring.idx.tail = s.ring.idx.tail
  submitted : s'.ring.idx.seqnoSubmit = s.ring.idx.seqnoSubmit
  room : s'.ring.len.toNat ≤ s.ring.len.toNat
  outstanding : ∃ done, s.outstanding = done ++ s'.outstanding
  retired : s'.ring.idx.seqnoRetired.toNat + s'.outstanding.length ≤ s.pushes
  highest : s'.host.highestSeqno.toNat + s'.ring.pending.length ≤ s.pushes

private theorem Sound.advances {s s' : Submitting} (h : Sound s) (hs : Advances s s') : Sound s' := by
  obtain ⟨done, hdone⟩ := hs.outstanding
  refine ⟨⟨hs.room.trans h.room, ?_, ?_, fun i e he => ?_, ?_, ?_⟩, fun e he n hn => ?_⟩
  · rw [hs.tail, hs.pushes, h.tail]
  · rw [hs.submitted, hs.pushes, h.submitted]
  · have hi : s.outstanding[done.length + i]? = some e := by
      rw [hdone, List.getElem?_append_right (Nat.le_add_right _ _), Nat.add_sub_cancel_left, he]
    have := h.numbered _ e hi
    rw [hdone, List.length_append] at this
    rw [hs.pushes]
    omega
  · rw [hs.pushes]
    exact hs.retired
  · rw [hs.pushes]
    exact hs.highest
  · rw [hs.calls]
    exact h.known e (by rw [hdone]; exact List.mem_append_right _ he) n hn

private theorem Owned.advances {s s' : Submitting} (h : Owned s) (hs : Advances s s') : Owned s' := by
  obtain ⟨done, hdone⟩ := hs.outstanding
  intro e he n hn
  rw [hs.calls]
  exact h e (by rw [hdone]; exact List.mem_append_right _ he) n hn

theorem advances_doorbell {s s' : Submitting} (h : Sound s) (hs : s.step .doorbell = some s') : Advances s s' := by
  cases hhost : s.host with
  | idle =>
    simp only [step, hhost, Option.some_inj] at hs
    subst hs
    have hsame : s.outstanding = s.ring.pending := by rw [outstanding, hhost]; rfl
    have hretired := h.retired
    refine ⟨rfl, rfl, rfl, rfl, Nat.le_refl _, ⟨[], ?_⟩, ?_, ?_⟩
    · exact hsame
    · rw [hsame] at hretired
      exact hretired
    · show (0 : UInt64).toNat + s.ring.pending.length ≤ _
      rw [hsame] at hretired
      rw [UInt64.toNat_zero]
      omega
  | popping n batch highest => simp [step, hhost] at hs
  | executing rest highest => simp [step, hhost] at hs

/-- The end of a batch: nothing more is popped, with or without its turns used up. -/
private theorem advances_batch {s : Submitting} (h : Sound s) {n : Nat} {batch : List Entry} {highest : UInt64}
    (hhost : s.host = .popping n batch highest) : Advances s { s with host := .executing batch highest } := by
  have hretired := h.retired
  have hhighest := h.highest
  rw [outstanding, hhost] at hretired
  rw [hhost] at hhighest
  exact ⟨rfl, rfl, rfl, rfl, Nat.le_refl _, ⟨[], by rw [outstanding, hhost]; rfl⟩, hretired, hhighest⟩

private theorem advances_popped {s : Submitting} (h : Sound s) {n : Nat} {batch : List Entry} {highest : UInt64}
    (hhost : s.host = .popping (n + 1) batch highest) (hne : s.ring.idx.head ≠ s.ring.idx.tail) :
    let e := s.ring.slots (ring2Geometry.slotIndex s.ring.idx.head)
    Advances s { s with
      ring := s.ring.release
      host := .popping n (batch ++ [e]) (if e.desc.seqno > highest then e.desc.seqno else highest) } := by
  intro e
  have hlen : 0 < s.ring.len.toNat := Nat.pos_of_ne_zero fun h0 => hne (Ring.len_eq_zero.1 h0)
  have hpending : s.ring.pending = e :: s.ring.release.pending := Ring.pending_release hlen
  have hout : s.outstanding = batch ++ e :: s.ring.release.pending := by rw [outstanding, hhost, ← hpending]; rfl
  have hretired := h.retired
  have hhighest := h.highest
  have hseqno := h.numbered batch.length e
    (by rw [hout, List.getElem?_append_right (Nat.le_refl _), Nat.sub_self]; rfl)
  rw [hout, List.length_append, List.length_cons] at hretired hseqno
  rw [hhost, hpending, List.length_cons] at hhighest
  refine ⟨rfl, rfl, rfl, rfl, ?_, ⟨[], ?_⟩, ?_, ?_⟩
  · show s.ring.release.len.toNat ≤ _
    rw [Ring.release_len hlen]
    exact Nat.sub_le _ _
  · show s.outstanding = (batch ++ [e]) ++ s.ring.release.pending
    rw [hout, List.append_assoc]; rfl
  · show s.ring.idx.seqnoRetired.toNat + ((batch ++ [e]) ++ s.ring.release.pending).length ≤ _
    rw [List.length_append, List.length_append, List.length_singleton]
    omega
  · show (if e.desc.seqno > highest then e.desc.seqno else highest).toNat + s.ring.release.pending.length ≤ _
    have hold : highest.toNat + (s.ring.release.pending.length + 1) ≤ s.pushes := hhighest
    by_cases hgt : e.desc.seqno > highest
    · rw [if_pos hgt]
      omega
    · rw [if_neg hgt]
      omega

theorem advances_pop {s s' : Submitting} (h : Sound s) (hs : s.step .pop = some s') : Advances s s' := by
  cases hhost : s.host with
  | idle => simp [step, hhost] at hs
  | popping n batch highest =>
    cases n with
    | zero =>
      simp only [step, hhost, Option.some_inj] at hs
      subst hs
      exact advances_batch h hhost
    | succ n =>
      simp only [step, hhost] at hs
      by_cases hempty : s.ring.idx.head = s.ring.idx.tail
      · rw [if_pos hempty, Option.some_inj] at hs
        subst hs
        exact advances_batch h hhost
      · rw [if_neg hempty, Option.some_inj] at hs
        subst hs
        exact advances_popped h hhost hempty
  | executing rest highest => simp [step, hhost] at hs

theorem advances_execute {s s' : Submitting} (h : Sound s) (hs : s.step .execute = some s') : Advances s s' := by
  cases hhost : s.host with
  | idle => simp [step, hhost] at hs
  | popping n batch highest => simp [step, hhost] at hs
  | executing rest highest =>
    cases rest with
    | nil => simp [step, hhost] at hs
    | cons e rest =>
      simp only [step, hhost, Option.some_inj] at hs
      subst hs
      have hout : s.outstanding = e :: (rest ++ s.ring.pending) := by rw [outstanding, hhost]; rfl
      have hretired := h.retired
      have hhighest := h.highest
      rw [hout, List.length_cons] at hretired
      rw [hhost] at hhighest
      exact ⟨rfl, rfl, rfl, rfl, Nat.le_refl _, ⟨[e], hout⟩, (Nat.le_succ _).trans hretired, hhighest⟩

theorem advances_retire {s s' : Submitting} (h : Sound s) (hs : s.step .retire = some s') : Advances s s' := by
  cases hhost : s.host with
  | idle => simp [step, hhost] at hs
  | popping n batch highest => simp [step, hhost] at hs
  | executing rest highest =>
    cases rest with
    | cons e rest => simp [step, hhost] at hs
    | nil =>
      simp only [step, hhost, Option.some_inj] at hs
      subst hs
      have hout : s.outstanding = s.ring.pending := by rw [outstanding, hhost]; rfl
      have hretired := h.retired
      have hhighest := h.highest
      rw [hout] at hretired
      rw [hhost] at hhighest
      have hidle : (0 : UInt64).toNat + s.ring.pending.length ≤ s.pushes := by
        rw [UInt64.toNat_zero]
        omega
      by_cases hpos : highest > 0
      · rw [if_pos hpos]
        exact ⟨rfl, rfl, rfl, rfl, Nat.le_refl _, ⟨[], hout⟩, hhighest, hidle⟩
      · rw [if_neg hpos]
        exact ⟨rfl, rfl, rfl, rfl, Nat.le_refl _, ⟨[], hout⟩, hretired, hidle⟩

/-! ### The steps -/

private theorem Sound.inlined {s : Submitting} (h : Sound s) (hroom : s.ring.len.toNat < ring2Geometry.slots)
    (hb : s.pushes < 2 ^ 32) (msgType payloadLen : UInt32) : Sound (s.published (.inlined msgType payloadLen)) := by
  refine ⟨h.toNumbered.published hroom hb fun _ => rfl, fun e he n hn => ?_⟩
  rw [published_outstanding hroom] at he
  rcases List.mem_append.1 he with he | he
  · exact h.known e he n hn
  · rw [List.mem_singleton] at he
    subst he
    cases hn

private theorem Sound.forwarded {s : Submitting} (h : Sound s) (hroom : s.ring.len.toNat < ring2Geometry.slots)
    (hb : s.pushes < 2 ^ 32) {n : Nat} (b : Buffers) (hn : ∀ e ∈ s.outstanding, e.owner ≠ some n) :
    Sound ((s.published (.forwarded n b)).setCall n (.waiting b (s.ring.idx.tail.toUInt64 + 1) 0)) := by
  refine ⟨(h.toNumbered.published hroom hb fun _ => rfl).setCall _ _, fun e he m hm => ?_⟩
  have he' : e ∈ (s.published (.forwarded n b)).outstanding := he
  rw [published_outstanding hroom] at he'
  rw [setCall_calls]
  rcases List.mem_append.1 he' with hold | hnew
  · have hmn : m ≠ n := by
      rintro rfl
      exact hn e hold hm
    rw [if_neg hmn]
    exact h.known e hold m hm
  · rw [List.mem_singleton] at hnew
    subst hnew
    cases hm
    rw [if_pos rfl]
    exact ⟨rfl, rfl, rfl, rfl⟩

/-- What a turn of the publishing loop does: the ring is full and the call tries again or gives up, or its entry is
published and it waits for the seqno. -/
theorem publish_cases {s s' : Submitting} {n : Nat} (h : Sound s) (hs : s.step (.publish n) = some s')
    (hb : s'.pushes ≤ 2 ^ 32) :
    ∃ b tries, s.calls n = .publishing b tries ∧
      ((∃ c, s' = s.setCall n c ∧ (c = .publishing b (tries + 1) ∨ c = .returned (.error .busy))) ∨
        s.ring.len.toNat < ring2Geometry.slots ∧ s.pushes < 2 ^ 32 ∧
          s' = (s.published (.forwarded n b)).setCall n (.waiting b (s.ring.idx.tail.toUInt64 + 1) 0)) := by
  cases hc : s.calls n with
  | unborn => simp [step, hc] at hs
  | waiting b want polls => simp [step, hc] at hs
  | returned result => simp [step, hc] at hs
  | publishing b tries =>
    refine ⟨b, tries, rfl, ?_⟩
    simp only [step, hc] at hs
    by_cases hroom : s.ring.len.toNat < ring2Geometry.slots
    · right
      have hsubmit : (s.published (.forwarded n b)).ring.idx.seqnoSubmit = s.ring.idx.tail.toUInt64 + 1 := by
        show (s.ring.publishEntry (.forwarded n b)).idx.seqnoSubmit = _
        rw [(publishEntry_room _ hroom).2.2]
      have hpushes : (s.published (.forwarded n b)).pushes = s.pushes + 1 := published_pushes hroom
      have hlt : s.pushes < 2 ^ 32 := by
        have hkept : s'.pushes = (s.published (.forwarded n b)).pushes := by
          split at hs
          · cases hs; rfl
          · split at hs <;> cases hs <;> rfl
        omega
      -- the seqno just given out is a new one, so the loop ends
      have hnew : s.ring.idx.tail.toUInt64 + 1 ≠ s.ring.idx.seqnoSubmit := by
        intro he
        have := h.seqno hlt
        rw [he, h.submitted] at this
        omega
      rw [hsubmit, if_pos hnew, Option.some_inj] at hs
      exact ⟨hroom, hlt, hs.symm⟩
    · left
      rw [published_full hroom, if_neg (not_not.2 rfl)] at hs
      by_cases htries : tries + 1 < 64
      · rw [if_pos htries, Option.some_inj] at hs
        exact ⟨_, hs.symm, .inl rfl⟩
      · rw [if_neg htries, Option.some_inj] at hs
        exact ⟨_, hs.symm, .inr rfl⟩

/-- What a turn of the waiting loop does. -/
theorem poll_cases {s s' : Submitting} {n : Nat} (hs : s.step (.poll n) = some s') :
    ∃ b want polls, s.calls n = .waiting b want polls ∧
      ((s.ring.idx.seqnoRetired ≥ want ∧ s' = s.setCall n (.returned (.ok ()))) ∨
        (¬ s.ring.idx.seqnoRetired ≥ want ∧ polls + 1 < 20000 ∧ s' = s.setCall n (.waiting b want (polls + 1))) ∨
        (¬ s.ring.idx.seqnoRetired ≥ want ∧ ¬ polls + 1 < 20000 ∧
          s' = s.setCall n (.returned (.error .timedOut)))) := by
  cases hc : s.calls n with
  | unborn => simp [step, hc] at hs
  | publishing b tries => simp [step, hc] at hs
  | returned result => simp [step, hc] at hs
  | waiting b want polls =>
    refine ⟨b, want, polls, rfl, ?_⟩
    simp only [step, hc] at hs
    by_cases hret : s.ring.idx.seqnoRetired ≥ want
    · rw [if_pos hret, Option.some_inj] at hs
      exact .inl ⟨hret, hs.symm⟩
    · rw [if_neg hret] at hs
      by_cases hpolls : polls + 1 < 20000
      · rw [if_pos hpolls, Option.some_inj] at hs
        exact .inr (.inl ⟨hret, hpolls, hs.symm⟩)
      · rw [if_neg hpolls, Option.some_inj] at hs
        exact .inr (.inr ⟨hret, hpolls, hs.symm⟩)

theorem begin_cases {s s' : Submitting} {n : Nat} {b : Buffers} {copied : Bool}
    (hs : s.step (.begin n b copied) = some s') :
    s.calls n = .unborn ∧ s' = s.setCall n (if copied then .publishing b 0 else .returned (.error .fault)) := by
  cases hc : s.calls n with
  | unborn =>
    simp only [step, hc, Option.some_inj] at hs
    exact ⟨rfl, hs.symm⟩
  | publishing b tries => simp [step, hc] at hs
  | waiting b want polls => simp [step, hc] at hs
  | returned result => simp [step, hc] at hs

theorem push_cases {s s' : Submitting} {msgType payloadLen : UInt32}
    (hs : s.step (.push msgType payloadLen) = some s') (hb : s'.pushes ≤ 2 ^ 32) :
    s' = s ∨ s.ring.len.toNat < ring2Geometry.slots ∧ s.pushes < 2 ^ 32 ∧
      s' = s.published (.inlined msgType payloadLen) := by
  simp only [step] at hs
  by_cases hlen : payloadLen > RING2_PSTRIDE
  · rw [if_pos hlen, Option.some_inj] at hs
    exact .inl hs.symm
  · rw [if_neg hlen, Option.some_inj] at hs
    subst hs
    by_cases hroom : s.ring.len.toNat < ring2Geometry.slots
    · rw [published_pushes hroom] at hb
      exact .inr ⟨hroom, hb, rfl⟩
    · exact .inl (published_full hroom)

theorem step_sound {s s' : Submitting} {a : Action} (hb : s'.pushes ≤ 2 ^ 32) (h : Sound s)
    (hs : s.step a = some s') : Sound s' := by
  cases a with
  | «begin» n b copied =>
    obtain ⟨hc, rfl⟩ := begin_cases hs
    have hnone := h.none_of (n := n) (by rw [hc]; exact fun _ => id)
    exact h.setCall fun e he howner => absurd howner (hnone e he)
  | publish n =>
    obtain ⟨b, tries, hc, ⟨c, rfl, -⟩ | ⟨hroom, hlt, rfl⟩⟩ := publish_cases h hs hb
    · have hnone := h.none_of (n := n) (by rw [hc]; exact fun _ => id)
      exact h.setCall fun e he howner => absurd howner (hnone e he)
    · exact h.forwarded hroom hlt b (h.none_of (by rw [hc]; exact fun _ => id))
  | poll n =>
    obtain ⟨b, want, polls, hc, ⟨-, rfl⟩ | ⟨-, -, rfl⟩ | ⟨-, -, rfl⟩⟩ := poll_cases hs
    · exact h.setCall fun _ _ _ => trivial
    · refine h.setCall fun e he howner => ?_
      have hknown := h.known e he n howner
      rw [hc] at hknown
      exact hknown
    · exact h.setCall fun _ _ _ => trivial
  | push msgType payloadLen =>
    obtain rfl | ⟨hroom, hlt, rfl⟩ := push_cases hs hb
    · exact h
    · exact h.inlined hroom hlt msgType payloadLen
  | doorbell => exact h.advances (advances_doorbell h hs)
  | pop => exact h.advances (advances_pop h hs)
  | execute => exact h.advances (advances_execute h hs)
  | retire => exact h.advances (advances_retire h hs)

private theorem Owned.inlined {s : Submitting} (h : Owned s) (hroom : s.ring.len.toNat < ring2Geometry.slots)
    (msgType payloadLen : UInt32) : Owned (s.published (.inlined msgType payloadLen)) := by
  intro e he n hn
  rw [published_outstanding hroom] at he
  rcases List.mem_append.1 he with he | he
  · exact h e he n hn
  · rw [List.mem_singleton] at he
    subst he
    cases hn

private theorem Owned.forwarded {s : Submitting} (h : Owned s)
    (hroom : s.ring.len.toNat < ring2Geometry.slots) {n : Nat} {b : Buffers} {tries : Nat}
    (hc : s.calls n = .publishing b tries) :
    Owned ((s.published (.forwarded n b)).setCall n (.waiting b (s.ring.idx.tail.toUInt64 + 1) 0)) := by
  have hholds : (Call.waiting b (s.ring.idx.tail.toUInt64 + 1) 0).holds = (s.calls n).holds := by rw [hc]; rfl
  rw [owned_setCall (s := s.published (.forwarded n b)) hholds]
  intro e he m hm
  rw [published_outstanding hroom] at he
  rcases List.mem_append.1 he with he | he
  · exact h e he m hm
  · rw [List.mem_singleton] at he
    subst he
    cases hm
    exact ⟨b, by show (s.calls n).holds = _; rw [hc]; rfl, rfl, rfl, rfl⟩

/-- A step leaves every outstanding descriptor with its buffers exactly when no call gives up too early. -/
private theorem step_owned {s s' : Submitting} {a : Action} (hb : s'.pushes ≤ 2 ^ 32) (h : Sound s) (howned : Owned s)
    (hs : s.step a = some s') : Owned s' ↔ Patient s a := by
  cases a with
  | «begin» n b copied =>
    obtain ⟨hc, rfl⟩ := begin_cases hs
    refine iff_of_true ?_ trivial
    have hnone := h.none_of (n := n) (by rw [hc]; exact fun _ => id)
    intro e he m hm
    have hmn : m ≠ n := by
      rintro rfl
      exact hnone e he hm
    rw [setCall_calls, if_neg hmn]
    exact howned e he m hm
  | publish n =>
    refine iff_of_true ?_ trivial
    obtain ⟨b, tries, hc, ⟨c, rfl, rfl | rfl⟩ | ⟨hroom, hlt, rfl⟩⟩ := publish_cases h hs hb
    · exact (owned_setCall (by rw [hc]; rfl)).2 howned
    · exact (owned_returned howned n _).2 (h.none_of (by rw [hc]; exact fun _ => id))
    · exact howned.forwarded hroom hc
  | poll n =>
    obtain ⟨b, want, polls, hc, ⟨hret, rfl⟩ | ⟨hret, hpolls, rfl⟩ | ⟨hret, hpolls, rfl⟩⟩ := poll_cases hs
    · -- its seqno retired, so its descriptor is not outstanding
      refine iff_of_true ((owned_returned howned n _).2 fun e he howner => ?_) ?_
      · have hknown := h.known e he n howner
        rw [hc] at hknown
        rw [hknown.1] at hret
        exact h.not_retired he hret
      · intro hgives
        simp [hc, Call.givesUp, hret] at hgives
    · refine iff_of_true ((owned_setCall (by rw [hc]; rfl)).2 howned) ?_
      intro hgives
      simp [hc, Call.givesUp, hpolls] at hgives
    · rw [owned_returned howned n]
      have hgives : (s.calls n).givesUp s.ring.idx.seqnoRetired = true := by simp [hc, Call.givesUp, hret, hpolls]
      exact ⟨fun hnone _ => hnone, fun hpatient => hpatient hgives⟩
  | push msgType payloadLen =>
    refine iff_of_true ?_ trivial
    obtain rfl | ⟨hroom, -, rfl⟩ := push_cases hs hb
    · exact howned
    · exact howned.inlined hroom msgType payloadLen
  | doorbell => exact iff_of_true (howned.advances (advances_doorbell h hs)) trivial
  | pop => exact iff_of_true (howned.advances (advances_pop h hs)) trivial
  | execute => exact iff_of_true (howned.advances (advances_execute h hs)) trivial
  | retire => exact iff_of_true (howned.advances (advances_retire h hs)) trivial

theorem step_pushes_le {s s' : Submitting} {a : Action} (hs : s.step a = some s') : s.pushes ≤ s'.pushes := by
  have hpublished : ∀ entry, s.pushes ≤ (s.published entry).pushes := by
    intro entry
    simp only [published]
    split <;> omega
  cases a with
  | «begin» n b copied =>
    obtain ⟨-, rfl⟩ := begin_cases hs
    exact Nat.le_refl _
  | publish n =>
    simp only [step] at hs
    split at hs
    · rename_i b tries hc
      split at hs
      · cases hs
        exact hpublished _
      · split at hs <;> cases hs <;> exact hpublished _
    · cases hs
  | poll n =>
    obtain ⟨b, want, polls, hc, ⟨-, rfl⟩ | ⟨-, -, rfl⟩ | ⟨-, -, rfl⟩⟩ := poll_cases hs
    · exact Nat.le_refl _
    · exact Nat.le_refl _
    · exact Nat.le_refl _
  | push msgType payloadLen =>
    simp only [step] at hs
    split at hs
    · cases hs
      exact Nat.le_refl _
    · cases hs
      exact hpublished _
  | doorbell =>
    cases hhost : s.host <;> simp only [step, hhost] at hs <;> cases hs
    exact Nat.le_refl _
  | pop =>
    cases hhost : s.host with
    | popping m batch highest =>
      cases m with
      | zero =>
        simp only [step, hhost] at hs
        cases hs
        exact Nat.le_refl _
      | succ m =>
        simp only [step, hhost] at hs
        split at hs <;> cases hs <;> exact Nat.le_refl _
    | idle => simp [step, hhost] at hs
    | executing rest highest => simp [step, hhost] at hs
  | execute =>
    cases hhost : s.host with
    | executing rest highest =>
      cases rest <;> simp only [step, hhost] at hs <;> cases hs
      exact Nat.le_refl _
    | idle => simp [step, hhost] at hs
    | popping m batch highest => simp [step, hhost] at hs
  | retire =>
    cases hhost : s.host with
    | executing rest highest =>
      cases rest <;> simp only [step, hhost] at hs <;> cases hs
      exact Nat.le_refl _
    | idle => simp [step, hhost] at hs
    | popping m batch highest => simp [step, hhost] at hs

theorem sound_start : Sound start where
  room := Nat.zero_le _
  tail := rfl
  submitted := rfl
  numbered i e he := by
    have hnone : ([] : List Entry)[i]? = some e := he
    cases hnone
  retired := Nat.le_refl _
  highest := Nat.le_refl _
  known := nofun

/-- Whatever the calls, the other users of the ring and the host do, in whatever order: as long as the seqnos have not
wrapped, nothing outstanding is without its buffers exactly when every call that gave up waiting did so after its
descriptor had been executed. -/
theorem owned_iff {as : List Action} {t : Submitting} (hrun : Lts.run step start as = some t)
    (ht : t.pushes ≤ 2 ^ 32) : Lts.Always step Owned start as ↔ Lts.Along step Patient start as :=
  Lts.always_iff_along_within (B := fun s => s.pushes ≤ 2 ^ 32)
    (fun _ _ _ hs hb => (step_pushes_le hs).trans hb) (fun _ _ _ hb h hs => step_sound hb h hs)
    (fun _ _ _ hb h howned hs => step_owned hb h howned hs) sound_start nofun hrun ht

/-- Buffers of one call. -/
def oneFrame : Buffers where
  stagingDma := 0x20000
  totalLen := 128
  target := ⟨4096, 0x10000⟩

def served : List Action := [.begin 0 oneFrame true, .publish 0, .doorbell, .pop, .pop, .execute, .retire, .poll 0]

private theorem served_runs : (Lts.run step start served).isSome := by decide +kernel

theorem owned_iff_served : (((Lts.run step start served).get served_runs).pushes ≤ 2 ^ 32 ∧
    Lts.Along step Patient start served) ∧ Lts.Always step Owned start served := by
  have hpushes : ((Lts.run step start served).get served_runs).pushes ≤ 2 ^ 32 := by decide +kernel
  have hpatient : Lts.Along step Patient start served := by decide +kernel
  exact ⟨⟨hpushes, hpatient⟩, (owned_iff (Option.some_get _).symm hpushes).2 hpatient⟩

/-! ### A host that pops too late -/

theorem run_polls {s : Submitting} {n : Nat} {b : Buffers} {want : UInt64} {polls : Nat} (k : Nat)
    (hc : s.calls n = .waiting b want polls) (hret : ¬ s.ring.idx.seqnoRetired ≥ want) (hk : polls + k < 20000) :
    Lts.run step s (List.replicate k (.poll n)) = some (s.setCall n (.waiting b want (polls + k))) := by
  induction k generalizing s polls with
  | zero =>
    have hsame : s.setCall n (.waiting b want (polls + 0)) = s := by
      rw [Nat.add_zero, ← hc, setCall, Function.update_eq_self]
    rw [hsame]; rfl
  | succ k ih =>
    have hstep : s.step (.poll n) = some (s.setCall n (.waiting b want (polls + 1))) := by
      simp only [step, hc]
      rw [if_neg hret, if_pos (by omega)]
    have htwice : (s.setCall n (.waiting b want (polls + 1))).setCall n (.waiting b want (polls + 1 + k)) =
        s.setCall n (.waiting b want (polls + (k + 1))) := by
      rw [Nat.add_right_comm, Nat.add_assoc]
      simp only [setCall, Function.update_idem]
    have hnext : (s.setCall n (.waiting b want (polls + 1))).calls n = .waiting b want (polls + 1) := by
      rw [setCall_calls, if_pos rfl]
    have hrest := ih hnext hret (by omega)
    rw [List.replicate_succ, Lts.run_cons_of_eq hstep, hrest, htwice]

/-- The call waits in vain, returns, and then the host pops its descriptor. -/
def lateHost : List Action :=
  [.begin 0 oneFrame true, .publish 0] ++ (List.replicate 19999 (.poll 0) ++ [.poll 0, .doorbell, .pop, .pop])

def waitingFirst : Submitting :=
  ((start.setCall 0 (.publishing oneFrame 0)).published (.forwarded 0 oneFrame)).setCall 0 (.waiting oneFrame 1 0)

theorem freed_staging_executed : ∃ t e highest, Lts.run step start lateHost = some t ∧ t.pushes = 1 ∧
    t.host = .executing [e] highest ∧ e.owner = some 0 ∧ e.desc.payloadAddr = oneFrame.stagingDma ∧
      (t.calls 0).holds = none ∧ ¬ Owned t := by
  have hwaits : Lts.run step start [.begin 0 oneFrame true, .publish 0] = some waitingFirst := rfl
  have hpolls := run_polls (s := waitingFirst) (n := 0) (b := oneFrame) 19999 rfl (by decide) (by omega)
  have hrest : (Lts.run step (waitingFirst.setCall 0 (.waiting oneFrame 1 19999))
      [.poll 0, .doorbell, .pop, .pop]).isSome := by decide +kernel
  let t := (Lts.run step (waitingFirst.setCall 0 (.waiting oneFrame 1 19999))
    [.poll 0, .doorbell, .pop, .pop]).get hrest
  have hrun : Lts.run step start lateHost = some t := by
    rw [lateHost, Lts.run_append_of_eq hwaits, Lts.run_append_of_eq hpolls]
    exact (Option.some_get hrest).symm
  have hhost : t.host = .executing [.forwarded 0 oneFrame 0] 1 := rfl
  have hholds : (t.calls 0).holds = none := rfl
  refine ⟨t, .forwarded 0 oneFrame 0, 1, hrun, rfl, hhost, rfl, rfl, hholds, fun howned => ?_⟩
  have hmem : Entry.forwarded 0 oneFrame 0 ∈ t.outstanding := by
    rw [outstanding, hhost]
    exact List.mem_append_left _ (List.mem_singleton_self _)
  obtain ⟨b, hb, -⟩ := howned _ hmem 0 rfl
  rw [hholds] at hb
  cases hb

end Submitting

end Infinigpu.Kmd
