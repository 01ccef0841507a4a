import Infinigpu.Guest.Lifetime

/-!
# What a forwarded submission tells its caller (`guest/linux`, `igpu_submit_forwarded`)

The run of `Submitting` with a record of what has been published and what the host has executed.  Everything published
is executed once and in order, an ioctl that returns zero does so after its own descriptor has been executed, one that
returns an error before it has published anything leaves nothing on the ring, and once the host has caught up no
waiting call can miss it (`Chronicle.told`).
-/

namespace Infinigpu.Kmd

/-- What the stage of a call says of the descriptors published for it, where `begun` are the buffers it began with. -/
def Call.Tells (begun : Option Buffers) (mine executed : List Entry) : Call → Prop
  | .unborn => mine = []
  | .publishing b _ => begun = some b ∧ mine = []
  | .waiting b want _ => begun = some b ∧ ∃ e, mine = [e] ∧ e.Names b ∧ e.desc.seqno = want
  | .returned (.ok ()) => ∃ b e, begun = some b ∧ mine = [e] ∧ e.Names b ∧ e ∈ executed
  | .returned (.error .timedOut) => ∃ b e, begun = some b ∧ mine = [e] ∧ e.Names b
  | .returned (.error .busy) => mine = []
  | .returned (.error .fault) => mine = []

namespace Submitting

/-- What a push puts on the ring. -/
def admits (s : Submitting) (entry : UInt32 → Entry) : List Entry :=
  if s.ring.idx.tail - s.ring.idx.head ≥ RING2_CAP then [] else [entry s.ring.idx.tail]

def publishes (s : Submitting) : Action → List Entry
  | .publish n =>
    match s.calls n with
    | .publishing b _ => s.admits (.forwarded n b)
    | _ => []
  | .push msgType payloadLen =>
    if payloadLen > RING2_PSTRIDE then [] else s.admits (.inlined msgType payloadLen)
  | _ => []

def executes (s : Submitting) : Action → List Entry
  | .execute =>
    match s.host with
    | .executing (e :: _) _ => [e]
    | _ => []
  | _ => []

private theorem admits_room {s : Submitting} {entry : UInt32 → Entry} (h : s.ring.len.toNat < ring2Geometry.slots) :
    s.admits entry = [entry s.ring.idx.tail] := by
  have hroom : ¬ s.ring.idx.tail - s.ring.idx.head ≥ RING2_CAP := by
    rw [ge_iff_le, UInt32.le_iff_toNat_le]
    exact Nat.not_le.2 h
  rw [admits, if_neg hroom]

private theorem admits_full {s : Submitting} {entry : UInt32 → Entry} (h : ¬ s.ring.len.toNat < ring2Geometry.slots) :
    s.admits entry = [] := by
  have hfull : s.ring.idx.tail - s.ring.idx.head ≥ RING2_CAP := by
    rw [ge_iff_le, UInt32.le_iff_toNat_le]
    exact Nat.not_lt.1 h
  rw [admits, if_pos hfull]

/-- A push, whether it finds room or not. -/
private theorem published_admits (s : Submitting) (entry : UInt32 → Entry) :
    (s.published entry).outstanding = s.outstanding ++ s.admits entry ∧
      (s.published entry).pushes = s.pushes + (s.admits entry).length := by
  by_cases hroom : s.ring.len.toNat < ring2Geometry.slots
  · rw [admits_room hroom]
    exact ⟨published_outstanding hroom, published_pushes hroom⟩
  · rw [admits_full hroom, published_full hroom, List.append_nil]
    exact ⟨rfl, rfl⟩

/-! ### The record -/

/-- A run so far: where it is, the buffers each call has begun with, and what has been published and executed. -/
structure Chronicle where
  now : Submitting
  begun : Nat → Option Buffers
  published : List Entry
  executed : List Entry

namespace Chronicle

def start : Chronicle := ⟨Submitting.start, fun _ => none, [], []⟩

def begins (c : Chronicle) : Action → Nat → Option Buffers
  | .begin n b _ => Function.update c.begun n (some b)
  | _ => c.begun

def step (c : Chronicle) (a : Action) : Option Chronicle :=
  (c.now.step a).map fun s => ⟨s, c.begins a, c.published ++ c.now.publishes a, c.executed ++ c.now.executes a⟩

/-- What has been published for a call. -/
def publishedFor (c : Chronicle) (n : Nat) : List Entry := c.published.filter fun e => e.owner = some n

def Tells (c : Chronicle) (n : Nat) : Prop := (c.now.calls n).Tells (c.begun n) (c.publishedFor n) c.executed

end Chronicle

/-! ### What a step adds to the record -/

/-- A step publishes behind what is outstanding and executes from the front of it. -/
private theorem step_outstanding {s s' : Submitting} {a : Action} (hs : s.step a = some s') :
    s.outstanding ++ s.publishes a = s.executes a ++ s'.outstanding ∧
      s'.pushes = s.pushes + (s.publishes a).length := by
  cases a with
  | «begin» n b copied =>
    obtain ⟨-, rfl⟩ := begin_cases hs
    exact ⟨List.append_nil _, rfl⟩
  | publish n =>
    cases hc : s.calls n with
    | publishing b tries =>
      have hpublished := published_admits s (.forwarded n b)
      have hpublishes : s.publishes (.publish n) = s.admits (.forwarded n b) := by simp only [publishes, hc]
      simp only [step, hc] at hs
      rw [hpublishes]
      split at hs
      · cases hs
        exact ⟨hpublished.1.symm, hpublished.2⟩
      · split at hs <;> cases hs <;> exact ⟨hpublished.1.symm, hpublished.2⟩
    | unborn => simp [step, hc] at hs
    | waiting b want polls => simp [step, hc] at hs
    | returned result => simp [step, hc] at hs
  | poll n =>
    obtain ⟨b, want, polls, hc, ⟨-, rfl⟩ | ⟨-, -, rfl⟩ | ⟨-, -, rfl⟩⟩ := poll_cases hs
    · exact ⟨List.append_nil _, rfl⟩
    · exact ⟨List.append_nil _, rfl⟩
    · exact ⟨List.append_nil _, rfl⟩
  | push msgType payloadLen =>
    simp only [step] at hs
    simp only [publishes]
    split at hs
    · rename_i hlong
      cases hs
      rw [if_pos hlong]
      exact ⟨List.append_nil _, rfl⟩
    · rename_i hlong
      cases hs
      have hpublished := published_admits s (.inlined msgType payloadLen)
      rw [if_neg hlong]
      exact ⟨hpublished.1.symm, hpublished.2⟩
  | doorbell =>
    cases hhost : s.host <;> simp only [step, hhost] at hs <;> cases hs
    refine ⟨?_, rfl⟩
    show (s.host.inFlight ++ s.ring.pending) ++ [] = [] ++ s.ring.pending
    rw [hhost, List.append_nil]; rfl
  | pop =>
    cases hhost : s.host with
    | idle => simp [step, hhost] at hs
    | executing rest highest => simp [step, hhost] at hs
    | popping n batch highest =>
      have hbatch : s.outstanding = batch ++ s.ring.pending := by rw [outstanding, hhost]; rfl
      cases n with
      | zero =>
        simp only [step, hhost, Option.some_inj] at hs
        subst hs
        exact ⟨by rw [hbatch]; exact List.append_nil _, rfl⟩
      | succ n =>
        simp only [step, hhost] at hs
        by_cases hempty : s.ring.idx.head = s.ring.idx.tail
        · rw [if_pos hempty, Option.some_inj] at hs
          subst hs
          exact ⟨by rw [hbatch]; exact List.append_nil _, rfl⟩
        · rw [if_neg hempty, Option.some_inj] at hs
          subst hs
          have hlen : 0 < s.ring.len.toNat := Nat.pos_of_ne_zero fun h0 => hempty (Ring.len_eq_zero.1 h0)
          refine ⟨?_, rfl⟩
          show s.outstanding ++ [] = (batch ++ [_]) ++ s.ring.release.pending
          rw [hbatch, List.append_nil, Ring.pending_release hlen, List.append_assoc]; rfl
  | execute =>
    cases hhost : s.host with
    | idle => simp [step, hhost] at hs
    | popping n batch highest => simp [step, hhost] at hs
    | executing rest highest =>
      cases rest with
      | nil => simp [step, hhost] at hs
      | cons e rest =>
        simp only [step, hhost, Option.some_inj] at hs
        subst hs
        refine ⟨?_, rfl⟩
        simp only [executes, hhost, outstanding, publishes, List.append_nil]
        rfl
  | retire =>
    cases hhost : s.host with
    | idle => simp [step, hhost] at hs
    | popping n batch highest => simp [step, hhost] at hs
    | executing rest highest =>
      cases rest with
      | cons e rest => simp [step, hhost] at hs
      | nil =>
        simp only [step, hhost, Option.some_inj] at hs
        subst hs
        refine ⟨?_, rfl⟩
        have hpending : (if highest > 0 then { s.ring with idx := { s.ring.idx with seqnoRetired := highest } }
            else s.ring).pending = s.ring.pending := by
          split <;> rfl
        show (s.host.inFlight ++ s.ring.pending) ++ [] = [] ++ Ring.pending _
        rw [hpending, hhost, List.append_nil]; rfl

private theorem admits_seqno {s : Submitting} {entry : UInt32 → Entry}
    (hseqno : ∀ tail, (entry tail).desc.seqno = tail.toUInt64 + 1) (e : Entry) (he : e ∈ s.admits entry) :
    e.desc.seqno = s.ring.idx.tail.toUInt64 + 1 := by
  unfold admits at he
  split at he
  · exact absurd he List.not_mem_nil
  · rw [List.mem_singleton] at he
    rw [he, hseqno]

private theorem publishes_seqno {s : Submitting} {a : Action} (e : Entry) (he : e ∈ s.publishes a) :
    e.desc.seqno = s.ring.idx.tail.toUInt64 + 1 := by
  cases a with
  | publish n =>
    simp only [publishes] at he
    split at he
    · exact admits_seqno (fun _ => rfl) e he
    · exact absurd he List.not_mem_nil
  | push msgType payloadLen =>
    simp only [publishes] at he
    split at he
    · exact absurd he List.not_mem_nil
    · exact admits_seqno (fun _ => rfl) e he
  | «begin» n b copied => exact absurd he List.not_mem_nil
  | poll n => exact absurd he List.not_mem_nil
  | doorbell => exact absurd he List.not_mem_nil
  | pop => exact absurd he List.not_mem_nil
  | execute => exact absurd he List.not_mem_nil
  | retire => exact absurd he List.not_mem_nil

private theorem publishes_length_le (s : Submitting) (a : Action) : (s.publishes a).length ≤ 1 := by
  have hadmits : ∀ entry, (s.admits entry).length ≤ 1 := by
    intro entry
    unfold admits
    split
    · exact Nat.zero_le _
    · exact Nat.le_refl _
  cases a with
  | publish n =>
    simp only [publishes]
    split
    · exact hadmits _
    · exact Nat.zero_le _
  | push msgType payloadLen =>
    simp only [publishes]
    split
    · exact Nat.zero_le _
    · exact hadmits _
  | «begin» n b copied => exact Nat.zero_le _
  | poll n => exact Nat.zero_le _
  | doorbell => exact Nat.zero_le _
  | pop => exact Nat.zero_le _
  | execute => exact Nat.zero_le _
  | retire => exact Nat.zero_le _

/-! ### How far the host has come -/

/-- What the host has popped last is retired, or will be at the end of the batch. -/
def Abreast (s : Submitting) : Prop :=
  s.host.highestSeqno = 0 ∧ s.ring.idx.seqnoRetired.toNat + s.ring.pending.length = s.pushes ∨
    s.host.highestSeqno.toNat + s.ring.pending.length = s.pushes

private theorem abreast_published {s : Submitting} (h : Abreast s) (entry : UInt32 → Entry) :
    Abreast (s.published entry) := by
  by_cases hroom : s.ring.len.toNat < ring2Geometry.slots
  · have hpending : (s.published entry).ring.pending.length = s.ring.pending.length + 1 := by
      show (s.ring.publishEntry entry).pending.length = _
      rw [(publishEntry_room entry hroom).1, List.length_append, List.length_singleton]
    have hretired : (s.published entry).ring.idx.seqnoRetired = s.ring.idx.seqnoRetired := by
      show (s.ring.publishEntry entry).idx.seqnoRetired = _
      rw [(publishEntry_room entry hroom).2.2]
    have hhost : (s.published entry).host = s.host := rfl
    unfold Abreast at h ⊢
    rw [hpending, hretired, hhost, published_pushes hroom]
    rcases h with ⟨hnone, hall⟩ | hall
    · left
      exact ⟨hnone, by omega⟩
    · right
      omega
  · rw [published_full hroom]
    exact h

private theorem abreast_step {s s' : Submitting} {a : Action} (hsound : Sound s) (h : Abreast s)
    (hs : s.step a = some s') :
    Abreast s' := by
  cases a with
  | «begin» n b copied =>
    obtain ⟨-, rfl⟩ := begin_cases hs
    exact h
  | publish n =>
    cases hc : s.calls n with
    | publishing b tries =>
      have hpublished := abreast_published h (.forwarded n b)
      simp only [step, hc] at hs
      split at hs
      · cases hs
        exact hpublished
      · split at hs <;> cases hs <;> exact hpublished
    | unborn => simp [step, hc] at hs
    | waiting b want polls => simp [step, hc] at hs
    | returned result => simp [step, hc] at hs
  | poll n =>
    obtain ⟨b, want, polls, hc, ⟨-, rfl⟩ | ⟨-, -, rfl⟩ | ⟨-, -, rfl⟩⟩ := poll_cases hs
    · exact h
    · exact h
    · exact h
  | push msgType payloadLen =>
    simp only [step] at hs
    split at hs
    · cases hs
      exact h
    · cases hs
      exact abreast_published h _
  | doorbell =>
    cases hhost : s.host <;> simp only [step, hhost] at hs <;> cases hs
    rw [Abreast, hhost] at h
    exact h
  | pop =>
    cases hhost : s.host with
    | idle => simp [step, hhost] at hs
    | executing rest highest => simp [step, hhost] at hs
    | popping n batch highest =>
      rw [Abreast, hhost] at h
      cases n with
      | zero =>
        simp only [step, hhost, Option.some_inj] at hs
        subst hs
        exact h
      | succ n =>
        simp only [step, hhost] at hs
        by_cases hempty : s.ring.idx.head = s.ring.idx.tail
        · rw [if_pos hempty, Option.some_inj] at hs
          subst hs
          exact h
        · rw [if_neg hempty, Option.some_inj] at hs
          subst hs
          have hlen : 0 < s.ring.len.toNat := Nat.pos_of_ne_zero fun h0 => hempty (Ring.len_eq_zero.1 h0)
          have hpending := Ring.pending_release hlen
          generalize s.ring.slots (ring2Geometry.slotIndex s.ring.idx.head) = e at hpending ⊢
          have hout : s.outstanding = batch ++ e :: s.ring.release.pending := by
            rw [outstanding, hhost, ← hpending]; rfl
          have hseqno := hsound.numbered batch.length e (by
            rw [hout, List.getElem?_append_right (Nat.le_refl _), Nat.sub_self]; rfl)
          have hbound := hsound.highest
          rw [hout, List.length_append, List.length_cons] at hseqno
          rw [hhost, hpending, List.length_cons] at hbound
          -- the entry just popped carries the highest number yet
          have hhigh : highest.toNat < e.desc.seqno.toNat := by
            have hb : highest.toNat + (s.ring.release.pending.length + 1) ≤ s.pushes := hbound
            omega
          right
          show (if e.desc.seqno > highest then e.desc.seqno else highest).toNat +
            s.ring.release.pending.length = s.pushes
          rw [if_pos (UInt64.lt_iff_toNat_lt.2 hhigh)]
          omega
  | execute =>
    cases hhost : s.host with
    | idle => simp [step, hhost] at hs
    | popping n batch highest => simp [step, hhost] at hs
    | executing rest highest =>
      rw [Abreast, hhost] at h
      cases rest with
      | nil => simp [step, hhost] at hs
      | cons e rest =>
        simp only [step, hhost, Option.some_inj] at hs
        subst hs
        exact h
  | retire =>
    cases hhost : s.host with
    | idle => simp [step, hhost] at hs
    | popping n batch highest => simp [step, hhost] at hs
    | executing rest highest =>
      have hretired := hsound.retired
      rw [Abreast, hhost] at h
      cases rest with
      | cons e rest => simp [step, hhost] at hs
      | nil =>
        have hout : s.outstanding = s.ring.pending := by rw [outstanding, hhost]; rfl
        rw [hout] at hretired
        simp only [step, hhost, Option.some_inj] at hs
        subst hs
        left
        refine ⟨rfl, ?_⟩
        by_cases hpos : highest > 0
        · rw [if_pos hpos]
          rcases h with ⟨hnone, -⟩ | hall
          · exact absurd (UInt64.lt_iff_toNat_lt.1 hpos) (by rw [show highest = 0 from hnone]; exact Nat.lt_irrefl _)
          · exact hall
        · rw [if_neg hpos]
          rcases h with ⟨-, hall⟩ | hall
          · exact hall
          · have hzero : highest.toNat = 0 :=
              Nat.le_zero.1 (Nat.not_lt.1 fun h0 => hpos (UInt64.lt_iff_toNat_lt.2 h0))
            have hsum : highest.toNat + s.ring.pending.length = s.pushes := hall
            show s.ring.idx.seqnoRetired.toNat + s.ring.pending.length = s.pushes
            omega

/-! ### What a run tells -/

namespace Chronicle

structure Told (c : Chronicle) : Prop extends Sound c.now where
  order : c.published = c.executed ++ c.now.outstanding
  count : c.published.length = c.now.pushes
  positions : ∀ i e, c.published[i]? = some e → e.desc.seqno.toNat = i + 1
  abreast : Abreast c.now
  tells : ∀ n, c.Tells n

private theorem step_cases {c c' : Chronicle} {a : Action} (hs : c.step a = some c') :
    ∃ s, c.now.step a = some s ∧
      c' = ⟨s, c.begins a, c.published ++ c.now.publishes a, c.executed ++ c.now.executes a⟩ := by
  obtain ⟨s, hstep, rfl⟩ := Option.map_eq_some_iff.1 hs
  exact ⟨s, hstep, rfl⟩

/-- What is said of a call after a step. -/
private theorem tells_after {c : Chronicle} {s : Submitting} {begun : Nat → Option Buffers}
    {new executed : List Entry} {n : Nat} :
    Chronicle.Tells ⟨s, begun, c.published ++ new, executed⟩ n ↔
      (s.calls n).Tells (begun n) (c.publishedFor n ++ new.filter fun e => e.owner = some n) executed := by
  have hfor : Chronicle.publishedFor ⟨s, begun, c.published ++ new, executed⟩ n =
      c.publishedFor n ++ new.filter fun e => e.owner = some n := List.filter_append _ _
  unfold Tells
  rw [hfor]

private theorem Tells.mono {begun : Option Buffers} {mine executed executed' : List Entry} {call : Call}
    (h : call.Tells begun mine executed) (hexecuted : ∀ e ∈ executed, e ∈ executed') :
    call.Tells begun mine executed' := by
  match call, h with
  | .unborn, h => exact h
  | .publishing b _, h => exact h
  | .waiting b want _, h => exact h
  | .returned (.ok ()), ⟨b, e, hb, he, hnames, hdone⟩ => exact ⟨b, e, hb, he, hnames, hexecuted e hdone⟩
  | .returned (.error .timedOut), h => exact h
  | .returned (.error .busy), h => exact h
  | .returned (.error .fault), h => exact h

/-- A call that does not move, and for which nothing is published. -/
private theorem Tells.elsewhere {c : Chronicle} {a : Action} {s : Submitting} {m : Nat} (h : c.Tells m)
    (hcalls : s.calls m = c.now.calls m) (hbegun : c.begins a m = c.begun m)
    (hnew : ∀ e ∈ c.now.publishes a, e.owner ≠ some m) :
    Chronicle.Tells ⟨s, c.begins a, c.published ++ c.now.publishes a, c.executed ++ c.now.executes a⟩ m := by
  have hnone : (c.now.publishes a).filter (fun e => e.owner = some m) = [] := by
    rw [List.filter_eq_nil_iff]
    intro e he
    rw [decide_eq_true_iff]
    exact hnew e he
  rw [tells_after, hcalls, hbegun, hnone, List.append_nil]
  exact Tells.mono h fun e he => List.mem_append_left _ he

private theorem publishes_none {s s' : Submitting} {a : Action} (hs : s.step a = some s')
    (hsame : s'.pushes = s.pushes) :
    s.publishes a = [] := by
  have hlength := (step_outstanding hs).2
  rw [hsame] at hlength
  exact List.eq_nil_of_length_eq_zero (by omega)

private theorem tells_begin {c : Chronicle} {s' : Submitting} {n : Nat} {b : Buffers} {copied : Bool} (h : c.Told)
    (hs : c.now.step (.begin n b copied) = some s') (m : Nat) :
    Chronicle.Tells ⟨s', c.begins (.begin n b copied), c.published ++ [], c.executed ++ []⟩ m := by
  have hm := h.tells m
  obtain ⟨hc, rfl⟩ := begin_cases hs
  by_cases hmn : m = n
  · subst hmn
    have hbegun : c.begins (.begin m b copied) m = some b := Function.update_self _ _ _
    have hfor : c.publishedFor m = [] := by
      rw [Tells, hc] at hm
      exact hm
    rw [tells_after, setCall_calls, if_pos rfl, hbegun, hfor]
    cases copied with
    | true => exact ⟨rfl, rfl⟩
    | false => exact rfl
  · exact Tells.elsewhere (a := .begin n b copied) hm (by rw [setCall_calls, if_neg hmn])
      (Function.update_of_ne hmn _ _) nofun

private theorem tells_publish {c : Chronicle} {s' : Submitting} {n : Nat} (h : c.Told) (hb : s'.pushes ≤ 2 ^ 32)
    (hs : c.now.step (.publish n) = some s') (m : Nat) :
    Chronicle.Tells ⟨s', c.begun, c.published ++ c.now.publishes (.publish n), c.executed ++ []⟩ m := by
  have hm := h.tells m
  obtain ⟨b, tries, hc, ⟨call, rfl, hcall⟩ | ⟨hroom, -, rfl⟩⟩ := publish_cases h.toSound hs hb
  · have hnone : c.now.publishes (.publish n) = [] := publishes_none hs rfl
    by_cases hmn : m = n
    · subst hmn
      rw [Tells, hc] at hm
      rw [tells_after, hnone, hm.1, setCall_calls, if_pos rfl, hm.2]
      rcases hcall with rfl | rfl
      · exact ⟨rfl, rfl⟩
      · exact rfl
    · refine Tells.elsewhere (a := .publish n) hm (by rw [setCall_calls, if_neg hmn]) rfl ?_
      rw [hnone]
      nofun
  · have hone : c.now.publishes (.publish n) = [.forwarded n b c.now.ring.idx.tail] := by
      simp only [publishes, hc, admits_room hroom]
    by_cases hmn : m = n
    · subst hmn
      rw [Tells, hc] at hm
      have howner : (decide ((Entry.forwarded m b c.now.ring.idx.tail).owner = some m)) = true := decide_eq_true rfl
      rw [tells_after, hone, hm.1, hm.2, setCall_calls, if_pos rfl, List.nil_append, List.filter_singleton, howner]
      exact ⟨rfl, _, rfl, ⟨rfl, rfl, rfl⟩, rfl⟩
    · refine Tells.elsewhere (a := .publish n) hm (by rw [setCall_calls, if_neg hmn]; rfl) rfl ?_
      rw [hone]
      intro e he
      rw [List.mem_singleton] at he
      subst he
      exact fun howner => hmn (Option.some_inj.1 howner).symm

private theorem tells_poll {c : Chronicle} {s' : Submitting} {n : Nat} (h : c.Told)
    (hs : c.now.step (.poll n) = some s') (m : Nat) :
    Chronicle.Tells ⟨s', c.begun, c.published ++ [], c.executed ++ []⟩ m := by
  have hm := h.tells m
  obtain ⟨b, want, polls, hc, hnext⟩ := poll_cases hs
  by_cases hmn : m = n
  · subst hmn
    rw [Tells, hc] at hm
    obtain ⟨hbegun, e, hfor, hnames, hwant⟩ := hm
    rw [tells_after, hbegun, hfor]
    obtain ⟨hretired, rfl⟩ | ⟨-, -, rfl⟩ | ⟨-, -, rfl⟩ := hnext
    · -- its seqno is retired, so its descriptor is not outstanding any more
      have hmem : e ∈ c.executed ++ c.now.outstanding := by
        rw [← h.order]
        exact (List.mem_filter.1 (hfor ▸ List.mem_singleton_self e : e ∈ c.publishedFor m)).1
      have hdone : e ∈ c.executed := by
        rcases List.mem_append.1 hmem with hdone | hleft
        · exact hdone
        · rw [← hwant] at hretired
          exact absurd hretired (h.toNumbered.not_retired hleft)
      rw [setCall_calls, if_pos rfl]
      exact ⟨b, e, rfl, rfl, hnames, List.mem_append_left _ hdone⟩
    · rw [setCall_calls, if_pos rfl]
      exact ⟨rfl, e, rfl, hnames, hwant⟩
    · rw [setCall_calls, if_pos rfl]
      exact ⟨b, e, rfl, rfl, hnames⟩
  · have hcalls : s'.calls m = c.now.calls m := by
      obtain ⟨-, rfl⟩ | ⟨-, -, rfl⟩ | ⟨-, -, rfl⟩ := hnext
      · rw [setCall_calls, if_neg hmn]
      · rw [setCall_calls, if_neg hmn]
      · rw [setCall_calls, if_neg hmn]
    exact Tells.elsewhere (a := .poll n) hm hcalls rfl nofun

private theorem tells_push {c : Chronicle} {s' : Submitting} {msgType payloadLen : UInt32} (h : c.Told)
    (hb : s'.pushes ≤ 2 ^ 32) (hs : c.now.step (.push msgType payloadLen) = some s') (m : Nat) :
    Chronicle.Tells ⟨s', c.begun, c.published ++ c.now.publishes (.push msgType payloadLen), c.executed ++ []⟩ m := by
  have hcalls : s'.calls = c.now.calls := by
    obtain rfl | ⟨-, -, rfl⟩ := push_cases hs hb
    · rfl
    · rfl
  refine Tells.elsewhere (a := .push msgType payloadLen) (h.tells m) (congrFun hcalls m) rfl fun e he => ?_
  simp only [publishes, admits] at he
  split at he
  · exact absurd he List.not_mem_nil
  · split at he
    · exact absurd he List.not_mem_nil
    · rw [List.mem_singleton] at he
      subst he
      exact nofun

private theorem tells_step {c : Chronicle} {s' : Submitting} {a : Action} (h : c.Told) (hb : s'.pushes ≤ 2 ^ 32)
    (hs : c.now.step a = some s') (m : Nat) :
    Chronicle.Tells ⟨s', c.begins a, c.published ++ c.now.publishes a, c.executed ++ c.now.executes a⟩ m := by
  have hm := h.tells m
  cases a with
  | «begin» n b copied => exact tells_begin h hs m
  | publish n => exact tells_publish h hb hs m
  | poll n => exact tells_poll h hs m
  | push msgType payloadLen => exact tells_push h hb hs m
  | doorbell => exact hm.elsewhere (congrFun (advances_doorbell h.toSound hs).calls m) rfl nofun
  | pop => exact hm.elsewhere (congrFun (advances_pop h.toSound hs).calls m) rfl nofun
  | execute => exact hm.elsewhere (congrFun (advances_execute h.toSound hs).calls m) rfl nofun
  | retire => exact hm.elsewhere (congrFun (advances_retire h.toSound hs).calls m) rfl nofun

private theorem told_start : Told start where
  toSound := sound_start
  order := rfl
  count := rfl
  positions i e he := by
    have hnone : ([] : List Entry)[i]? = some e := he
    cases hnone
  abreast := .inl ⟨rfl, rfl⟩
  tells _ := rfl

private theorem told_step {c c' : Chronicle} {a : Action} (h : Told c) (hb : c'.now.pushes ≤ 2 ^ 32)
    (hs : c.step a = some c') : Told c' := by
  obtain ⟨s', hstep, rfl⟩ := step_cases hs
  obtain ⟨houtstanding, hpushes⟩ := step_outstanding hstep
  have hb' : s'.pushes ≤ 2 ^ 32 := hb
  refine ⟨step_sound hb' h.toSound hstep, ?_, ?_, fun i e he => ?_, abreast_step h.toSound h.abreast hstep,
    tells_step h hb' hstep⟩
  · show c.published ++ c.now.publishes a = (c.executed ++ c.now.executes a) ++ s'.outstanding
    rw [h.order, List.append_assoc, houtstanding, List.append_assoc]
  · show (c.published ++ c.now.publishes a).length = s'.pushes
    rw [List.length_append, h.count, hpushes]
  · have hi : (c.published ++ c.now.publishes a)[i]? = some e := he
    rcases Nat.lt_or_ge i c.published.length with hlt | hge
    · rw [List.getElem?_append_left hlt] at hi
      exact h.positions i e hi
    · rw [List.getElem?_append_right hge] at hi
      have hlength := publishes_length_le c.now a
      have hlast := (List.getElem?_eq_some_iff.1 hi).1
      have hcount := h.count
      have hroom : c.now.pushes < 2 ^ 32 := by omega
      rw [publishes_seqno e (List.mem_of_getElem? hi), h.toNumbered.seqno hroom]
      omega

/-- What a run tells, as long as the seqnos have not wrapped.  The calls, the other users of the ring and the host
interleave in any way; the host may be late by any number of polls.
* Everything published has been executed, once and in order, or is still to be.
* A call that has returned zero has published one descriptor, which names its buffers and has been executed; a call
  that was refused has published nothing (`Tells`).
* When the host has caught up, the next poll of a waiting call returns zero. -/
theorem told {as : List Action} {t : Chronicle} (hrun : Lts.run step start as = some t) (ht : t.now.pushes ≤ 2 ^ 32) :
    t.published = t.executed ++ t.now.outstanding ∧ (∀ n, t.Tells n) ∧
      (t.now.host = .idle → t.now.ring.pending = [] → ∀ n b want polls, t.now.calls n = .waiting b want polls →
        t.now.step (.poll n) = some (t.now.setCall n (.returned (.ok ())))) := by
  have hall : Lts.Always step (fun c => c.now.pushes ≤ 2 ^ 32 → Told c) start as := by
    refine Lts.always_of_invariant (I := fun c => c.now.pushes ≤ 2 ^ 32 → Told c) ?_ (fun _ => id)
      (fun _ => told_start) as
    intro c a c' h hs hb
    obtain ⟨s', hstep, rfl⟩ := step_cases hs
    exact told_step (h ((step_pushes_le hstep).trans hb)) hb hs
  have h : Told t := hall.last hrun ht
  refine ⟨h.order, h.tells, fun hidle hempty n b want polls hc => ?_⟩
  have htells := h.tells n
  rw [Tells, hc] at htells
  obtain ⟨-, e, hfor, -, hwant⟩ := htells
  -- the seqno is that of one of the descriptors published, all of which have been retired
  have hmem : e ∈ t.published := (List.mem_filter.1 (hfor ▸ List.mem_singleton_self e : e ∈ t.publishedFor n)).1
  obtain ⟨i, hi⟩ := List.mem_iff_getElem?.1 hmem
  have hseqno := h.positions i e hi
  have hlast := (List.getElem?_eq_some_iff.1 hi).1
  have hcount := h.count
  have hretired : t.now.ring.idx.seqnoRetired ≥ want := by
    have hhost := h.abreast
    rw [Abreast, hidle, hempty] at hhost
    have hbound := h.toSound.retired
    rw [ge_iff_le, UInt64.le_iff_toNat_le, ← hwant, hseqno]
    rcases hhost with ⟨-, hall⟩ | hall
    · have hall' : t.now.ring.idx.seqnoRetired.toNat + 0 = t.now.pushes := hall
      omega
    · have hall' : (0 : UInt64).toNat + 0 = t.now.pushes := hall
      rw [UInt64.toNat_zero] at hall'
      omega
  simp only [Submitting.step, hc, if_pos hretired]

/-- A forwarded submission behind a message of the display, polled once too early, and one that could not be
copied. -/
def oneLate : List Action :=
  [.begin 0 oneFrame true, .push 0x0010 40, .publish 0, .poll 0, .doorbell, .pop, .pop, .pop, .execute,
    .execute, .retire, .begin 1 oneFrame false]

private theorem oneLate_runs : (Lts.run step start oneLate).isSome := by decide +kernel

theorem told_oneLate :
    ∃ t, Lts.run step start oneLate = some t ∧ t.published.length = 2 ∧
      t.published = t.executed ++ t.now.outstanding ∧ (∀ n, t.Tells n) ∧
      (t.now.host = .idle → t.now.ring.pending = [] → ∀ n b want polls, t.now.calls n = .waiting b want polls →
        t.now.step (.poll n) = some (t.now.setCall n (.returned (.ok ())))) := by
  have hpushes : ((Lts.run step start oneLate).get oneLate_runs).now.pushes ≤ 2 ^ 32 := by decide +kernel
  have hrun : Lts.run step start oneLate = some ((Lts.run step start oneLate).get oneLate_runs) :=
    (Option.some_get _).symm
  exact ⟨_, hrun, by decide +kernel, told hrun hpushes⟩

end Chronicle

end Submitting

end Infinigpu.Kmd
