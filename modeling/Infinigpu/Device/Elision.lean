import Infinigpu.Device.Frames
import Infinigpu.Lib.Lts
import Mathlib.Data.Set.Function

/-!
# Leaving out repeated frames (`infinigpu-device`, `submit_vulkan`)

Two devices are given the same commands, one with the elision of unchanged frames and one without it (`Elision`).  As
long as the buffer of every frame that is left out still holds what was rendered into it, guest memory and the retired
seqnos of the two stay the same, and they differ as soon as one does not (`Elision.elision_agrees_iff`).
-/

namespace Infinigpu

/-! ### The two devices -/

/-- The devices with and without the elision, and what each buffer held when the frame it is remembered for had been
rendered. -/
structure Elision where
  on : Backend
  off : Backend
  held : UInt64 → Option (List UInt8)

namespace Elision

open Backend

def start (d : Backend) : Elision where
  on := { d with elideUnchanged := true }
  off := { d with elideUnchanged := false }
  held _ := none

/-- `on` is the device after the command. -/
def heldAfter (s : Elision) (on : Backend) : Act → UInt64 → Option (List UInt8)
  | .submit sc payload _ =>
    match acceptedWorkload sc payload with
    | some wl =>
      if s.on.lastForwardedHash.lookup wl.scanoutAddr ≠ some (fnv1a64 payload) ∧
          on.lastForwardedHash.lookup wl.scanoutAddr = some (fnv1a64 payload) then
        Function.update s.held wl.scanoutAddr (on.dmaRead wl.scanoutAddr wl.frameBytes)
      else
        s.held
    | none => s.held
  | _ => s.held

/-- Both devices are given the same command; their clocks and their viewers may differ. -/
def step (env env' : Env) (s : Elision) (a : Act) : Option Elision :=
  let on := s.on.act env a
  some { on, off := s.off.act env' a, held := s.heldAfter on a }

def Agrees (s : Elision) : Prop := s.on.mem = s.off.mem ∧ s.on.ringRetired = s.off.ringRetired

/-- A frame that is left out is still in its buffer. -/
def Current (s : Elision) : Act → Prop
  | .submit sc payload _ =>
    ∀ wl ∈ acceptedWorkload sc payload, s.on.Elided wl payload →
      s.on.dmaRead wl.scanoutAddr wl.frameBytes = s.held wl.scanoutAddr
  | _ => True

instance (s : Elision) : (a : Act) → Decidable (s.Current a)
  | .submit sc payload _ =>
    inferInstanceAs (Decidable (∀ wl ∈ acceptedWorkload sc payload, s.on.Elided wl payload →
      s.on.dmaRead wl.scanoutAddr wl.frameBytes = s.held wl.scanoutAddr))
  | .present .. | .presentDamaged .. | .flush .. | .clear .. | .resource .. | .cursor .. | .enable | .debugWrite ..
  | .map .. | .unmap .. | .unmapAll | .reset | .stores .. => .isTrue trivial

/-- The payloads that are submitted are among `S`. -/
def Submits (S : Set (List UInt8)) : Act → Prop
  | .submit _ payload _ => payload ∈ S
  | _ => True

/-- What is remembered of a buffer: a payload, and the frame that rendering it again would leave there. -/
structure Remembered (env : Env) (S : Set (List UInt8)) (s : Elision) (addr hash : UInt64) (payload : List UInt8)
    (wl : VulkanWorkload) (px : List UInt8) : Prop where
  mem : payload ∈ S
  hash : fnv1a64 payload = hash
  decodes : (readFromPrefix VulkanWorkload.size VulkanWorkload.decode payload).map Prod.fst = some wl
  target : wl.scanoutAddr = addr
  target_ne : addr ≠ 0
  ticket : s.on.ticket.isSome
  held : s.held addr = some px
  repeatable : Repeatable env wl payload px s.on

structure Lockstep (env : Env) (S : Set (List UInt8)) (s : Elision) : Prop where
  alike : Alike s.on s.off
  zerocopyScanout : s.on.zerocopyScanout = s.off.zerocopyScanout
  elides : s.on.elideUnchanged = true
  renders : s.off.elideUnchanged = false
  registered : s.on.Registered
  remembered : ∀ addr hash, s.on.lastForwardedHash.lookup addr = some hash →
    ∃ payload wl px, Remembered env S s addr hash payload wl px

private theorem lockstep_start (env : Env) (S : Set (List UInt8)) {d : Backend} (hempty : d.lastForwardedHash = ∅)
    (hreg : d.Registered) : Lockstep env S (start d) where
  alike := { Alike.refl d with }
  zerocopyScanout := rfl
  elides := rfl
  renders := rfl
  registered := hreg
  remembered addr hash h := by
    have hnone : d.lastForwardedHash.lookup addr = some hash := h
    rw [hempty, AList.lookup_empty] at hnone
    cases hnone

variable {env env' : Env} {S : Set (List UInt8)} {s : Elision}

/-- Frames are remembered as long as the mappings, the ticket and what is held are the same. -/
private theorem Remembered.of_keeps {s' : Elision} {addr hash : UInt64} {payload : List UInt8} {wl : VulkanWorkload}
    {px : List UInt8} (h : Remembered env S s addr hash payload wl px) (henv : env.Alike env)
    (hkeeps : Keeps s.on s'.on) (hzero : s'.on.zerocopyScanout = true → s.on.zerocopyScanout = true)
    (hheld : s'.held addr = s.held addr) : Remembered env S s' addr hash payload wl px :=
  { h with
    ticket := hkeeps.ticket h.ticket
    held := hheld.trans h.held
    repeatable := h.repeatable.alike henv henv hkeeps.dma hzero }

/-- Steps that remember what was remembered. -/
private theorem Lockstep.of_latches {s' : Elision} (h : Lockstep env S s) (hself : env.Alike env)
    (halike : Alike s'.on s'.off) (hzero : s'.on.zerocopyScanout = s'.off.zerocopyScanout)
    (hon : Latches s.on s'.on) (hkeeps : Keeps s.on s'.on) (hoff : s'.off.elideUnchanged = s.off.elideUnchanged)
    (hheld : s'.held = s.held) : Lockstep env S s' := by
  refine ⟨halike, hzero, hon.elideUnchanged.trans h.elides, hoff.trans h.renders, hon.registered h.registered,
    fun addr hash hlookup => ?_⟩
  rw [hon.lastForwardedHash] at hlookup
  obtain ⟨payload, wl, px, hrem⟩ := h.remembered addr hash hlookup
  exact ⟨payload, wl, px, hrem.of_keeps hself hkeeps hon.zerocopyScanout (congrFun hheld addr)⟩

/-- Steps that remember one more frame, and may forget the others. -/
private theorem Lockstep.of_insert {s' : Elision} {addr hash : UInt64} {cache : AList fun _ : UInt64 => UInt64}
    (h : Lockstep env S s) (hself : env.Alike env) (halike : Alike s'.on s'.off)
    (hzero : s'.on.zerocopyScanout = s'.off.zerocopyScanout) (hkeeps : Keeps s.on s'.on)
    (hlatch : s'.on.zerocopyScanout = true → s.on.zerocopyScanout = true) (helides : s'.on.elideUnchanged = true)
    (hrenders : s'.off.elideUnchanged = false) (hreg : s'.on.Registered)
    (hcache : cache = ∅ ∨ cache = s.on.lastForwardedHash) (hinsert : s'.on.lastForwardedHash = cache.insert addr hash)
    (hheld : ∀ other, other ≠ addr → s'.held other = s.held other)
    (hnew : ∃ payload wl px, Remembered env S s' addr hash payload wl px) : Lockstep env S s' := by
  refine ⟨halike, hzero, helides, hrenders, hreg, fun other hash' hlookup => ?_⟩
  rw [hinsert] at hlookup
  by_cases hother : other = addr
  · subst hother
    rw [AList.lookup_insert, Option.some_inj] at hlookup
    exact hlookup ▸ hnew
  · rw [AList.lookup_insert_ne hother] at hlookup
    rcases hcache with rfl | rfl
    · rw [AList.lookup_empty] at hlookup
      cases hlookup
    · obtain ⟨payload, wl, px, hrem⟩ := h.remembered other hash' hlookup
      exact ⟨payload, wl, px, hrem.of_keeps hself hkeeps hlatch (hheld other hother)⟩

/-- Every command but a 3D submission. -/
private theorem Lockstep.act (h : Lockstep env S s) (henv : env.Alike env') (hself : env.Alike env) {a : Act}
    (ha : ∀ sc payload ctx, a ≠ .submit sc payload ctx) {s' : Elision} (hs : s.step env env' a = some s') :
    Lockstep env S s' := by
  have hheld : s.heldAfter (s.on.act env a) a = s.held := by
    cases a with
    | submit sc payload ctx => exact absurd rfl (ha sc payload ctx)
    | _ => rfl
  rw [step, hheld, Option.some_inj] at hs
  subst hs
  have hon : Steady (if a.forgets then s.on.invalidateElision else s.on) (s.on.act env a) := act_steady ha
  have hoff : Steady (if a.forgets then s.off.invalidateElision else s.off) (s.off.act env' a) := act_steady ha
  have hreg : s.on.invalidateElision.Registered := h.registered
  have halike : Alike (s.on.act env a) (s.off.act env' a) := h.alike.act henv.toSameRenders ha
  cases hforgets : a.forgets with
  | true =>
    rw [hforgets] at hon hoff
    refine ⟨halike, ?_, hon.elideUnchanged.trans h.elides, hoff.elideUnchanged.trans h.renders, hon.registered hreg,
      fun addr hash hlookup => ?_⟩
    · rw [hon.zerocopyScanout, hoff.zerocopyScanout]
      exact h.zerocopyScanout
    · have hempty : (s.on.act env a).lastForwardedHash = ∅ := hon.lastForwardedHash
      rw [hempty, AList.lookup_empty] at hlookup
      cases hlookup
  | false =>
    rw [hforgets] at hon hoff
    have hzero : (s.on.act env a).zerocopyScanout = (s.off.act env' a).zerocopyScanout := by
      rw [hon.zerocopyScanout, hoff.zerocopyScanout]
      exact h.zerocopyScanout
    exact h.of_latches hself halike hzero hon.latches (act_keeps ha hforgets) hoff.elideUnchanged rfl

/-! ### 3D submissions -/

variable {sc : SubmitCmd} {payload : List UInt8} {ctx : Fin NUM_CONTEXTS} {wl : VulkanWorkload}

private theorem heldAfter_of_same {on : Backend} (h : on.lastForwardedHash = s.on.lastForwardedHash) :
    s.heldAfter on (.submit sc payload ctx) = s.held := by
  simp only [heldAfter, h]
  cases acceptedWorkload sc payload with
  | none => rfl
  | some wl => exact if_neg fun hnew => hnew.1 hnew.2

private theorem Lockstep.refused (h : Lockstep env S s) (hself : env.Alike env)
    (hno : (s.on.ensureAdmitted env).1 = false ∨ acceptedWorkload sc payload = none) {s' : Elision}
    (hs : s.step env env' (.submit sc payload ctx) = some s') : Lockstep env S s' ∧ Agrees s' := by
  obtain ⟨hadm, halike⟩ := h.alike.ensureAdmitted env env'
  have hon : s.on.act env (.submit sc payload ctx) = (s.on.ensureAdmitted env).2.retire ctx sc.seqno :=
    submitVulkan_refused ctx hno
  have hoff : s.off.act env' (.submit sc payload ctx) = (s.off.ensureAdmitted env').2.retire ctx sc.seqno :=
    submitVulkan_refused ctx (by rw [← hadm]; exact hno)
  have hsteady := ensureAdmitted_steady env s.on
  have hsteady' := ensureAdmitted_steady env' s.off
  have hheld : s.heldAfter ((s.on.ensureAdmitted env).2.retire ctx sc.seqno) (.submit sc payload ctx) = s.held :=
    heldAfter_of_same hsteady.lastForwardedHash
  rw [step, hon, hoff, hheld, Option.some_inj] at hs
  subst hs
  have hretired := halike.retire ctx sc.seqno
  have hzero : (s.on.ensureAdmitted env).2.zerocopyScanout = (s.off.ensureAdmitted env').2.zerocopyScanout := by
    rw [hsteady.zerocopyScanout, hsteady'.zerocopyScanout, h.zerocopyScanout]
  have hretires : Steady (s.on.ensureAdmitted env).2 ((s.on.ensureAdmitted env).2.retire ctx sc.seqno) :=
    .of_eq rfl rfl rfl rfl (.refl _)
  refine ⟨h.of_latches hself hretired hzero (hsteady.trans hretires).latches ?_ hsteady'.elideUnchanged rfl,
    hretired.mem, hretired.ringRetired⟩
  exact (ensureAdmitted_quiet env s.on).toKeeps.trans (retire_keeps _ _ _)

/-- The payload that is remembered under its hash is the one that is left out. -/
private theorem Lockstep.left_out (h : Lockstep env S s) (hS : Set.InjOn fnv1a64 S) (hmem : payload ∈ S)
    (hwl : acceptedWorkload sc payload = some wl) (hel : s.on.Elided wl payload) :
    ∃ px, s.on.ticket.isSome ∧ s.held wl.scanoutAddr = some px ∧ Repeatable env wl payload px s.on := by
  obtain ⟨payload', wl', px, hrem⟩ := h.remembered _ _ hel.2.2
  have hsame : payload' = payload := hS hrem.mem hmem hrem.hash
  subst hsame
  have hwl' : wl' = wl := Option.some_inj.1 (hrem.decodes.symm.trans (acceptedWorkload_decodes hwl))
  subst hwl'
  exact ⟨px, hrem.ticket, hrem.held, hrem.repeatable⟩

/-- A frame that is left out: the other device renders it again, which makes no difference exactly when the buffer
still holds it. -/
private theorem Lockstep.elided (h : Lockstep env S s) (henv : env.Alike env') (hself : env.Alike env)
    (hself' : env'.Alike env') (hfaithful : env.Faithful) (hS : Set.InjOn fnv1a64 S) (hmem : payload ∈ S)
    (hadm : (s.on.ensureAdmitted env).1 = true) (hwl : acceptedWorkload sc payload = some wl)
    (hel : s.on.Elided wl payload) {s' : Elision} (hs : s.step env env' (.submit sc payload ctx) = some s') :
    (Agrees s' ↔ s.on.dmaRead wl.scanoutAddr wl.frameBytes = s.held wl.scanoutAddr) ∧
      (Agrees s' → Lockstep env S s') := by
  obtain ⟨px, hticket, hheld, hrepeatable⟩ := h.left_out hS hmem hwl hel
  have hadm' : (s.off.ensureAdmitted env').1 = true := by rw [← (h.alike.ensureAdmitted env env').1, hadm]
  have hnot : ¬ s.off.Elided wl payload := by
    rw [Elided, h.renders]
    exact fun h => Bool.false_ne_true h.1
  have halike := counted_alike h.alike env env'
  have hsteady := counted_steady env s.on
  have hsteady' := counted_steady env' s.off
  have hquiet := counted_quiet env s.on
  have hquiet' := counted_quiet env' s.off
  have hon : s.on.act env (.submit sc payload ctx) =
      { s.on.counted env with framesElided := (s.on.counted env).framesElided + 1 }.retire ctx sc.seqno := by
    rw [Backend.act, submitVulkan_accepted ctx hadm hwl, if_pos hel]
  have hoff : s.off.act env' (.submit sc payload ctx) =
      ((s.off.counted env').replay env' wl payload).2.retire ctx sc.seqno := by
    rw [Backend.act, submitVulkan_accepted ctx hadm' hwl, if_neg hnot,
      rendered_off (hsteady'.elideUnchanged.trans h.renders)]
  have hrepeatable' : Repeatable env' wl payload px (s.off.counted env') := by
    refine hrepeatable.alike henv hself' ?_ fun hz => ?_
    · rw [hquiet'.dma, h.alike.dma]
    · rw [h.zerocopyScanout, ← hsteady'.zerocopyScanout, hz]
  have hkeeps : Keeps s.on (s.on.act env (.submit sc payload ctx)) := submitVulkan_keeps sc payload ctx s.on
  have hticket' : (s.off.counted env').ticket.isSome := hquiet'.ticket (h.alike.ticket ▸ hticket)
  have hreg' : (s.off.counted env').Registered := hsteady'.registered (h.alike.registered h.registered)
  obtain ⟨-, ⟨p, hp, hrep⟩, hzero⟩ :=
    replay_repeats (hfaithful.alike henv) hticket' hreg' hel.2.1 hrepeatable'
  rw [hquiet'.dma, ← h.alike.dma] at hp
  have hlen : px.length = wl.frameBytes := rendering_length hfaithful.toSized (hrepeatable.rendering 0)
  have hread : s.on.dmaRead wl.scanoutAddr wl.frameBytes = some (s.on.mem.load p px.length) := by
    rw [← hlen, Backend.dmaRead, DmaTable.read, hp, Option.map_some]
  have hheld' : s.heldAfter (s.on.act env (.submit sc payload ctx)) (.submit sc payload ctx) = s.held := by
    rw [hon]
    exact heldAfter_of_same hsteady.lastForwardedHash
  rw [step, hheld', Option.some_inj] at hs
  subst hs
  have honmem : (s.on.act env (.submit sc payload ctx)).mem = s.on.mem := by
    rw [hon]
    exact hquiet.mem
  have hoffmem : (s.off.act env' (.submit sc payload ctx)).mem = s.on.mem.store p px := by
    rw [hoff, retire_mem, ← hrep.mem, hquiet'.mem, h.alike.mem]
  have hiff : (s.on.act env (.submit sc payload ctx)).mem = (s.off.act env' (.submit sc payload ctx)).mem ↔
      s.on.dmaRead wl.scanoutAddr wl.frameBytes = s.held wl.scanoutAddr := by
    rw [honmem, hoffmem, hread, hheld, Option.some_inj, eq_comm, Memory.store_eq_self_iff]
  have hretired : (s.on.act env (.submit sc payload ctx)).ringRetired =
      (s.off.act env' (.submit sc payload ctx)).ringRetired := by
    rw [hon, hoff]
    have hsame : (s.off.counted env').ringRetired = ((s.off.counted env').replay env' wl payload).2.ringRetired :=
      hrep.ringRetired
    simp only [retire, ← hsame, ← halike.ringRetired]
  refine ⟨⟨fun hagrees => hiff.1 hagrees.1, fun hcurrent => ⟨hiff.2 hcurrent, hretired⟩⟩, fun hagrees => ?_⟩
  have hagreed : (s.on.counted env).mem = (s.off.counted env').mem.store p px := by
    rw [hquiet.mem, hquiet'.mem, ← h.alike.mem, ← hoffmem, ← hagrees.1, honmem]
  have hstored : Alike (s.on.counted env) { s.off.counted env' with mem := (s.off.counted env').mem.store p px } :=
    { halike with mem := hagreed }
  have hskipped : Alike { s.on.counted env with framesElided := (s.on.counted env).framesElided + 1 }
      ((s.off.counted env').replay env' wl payload).2 := { hstored.trans hrep with }
  have halike' : Alike (s.on.act env (.submit sc payload ctx)) (s.off.act env' (.submit sc payload ctx)) := by
    rw [hon, hoff]
    exact hskipped.retire _ _
  have hzero' : (s.on.act env (.submit sc payload ctx)).zerocopyScanout =
      (s.off.act env' (.submit sc payload ctx)).zerocopyScanout := by
    rw [hon, hoff]
    exact hsteady.zerocopyScanout.trans (h.zerocopyScanout.trans (hsteady'.zerocopyScanout.symm.trans hzero.symm))
  have hlatches : Latches s.on (s.on.act env (.submit sc payload ctx)) := by
    rw [hon]
    exact hsteady.latches.trans ⟨id, rfl, rfl, id⟩
  have helide : (s.off.act env' (.submit sc payload ctx)).elideUnchanged = s.off.elideUnchanged := by
    rw [hoff]
    exact (hsteady'.latches.trans (replay_latches env' wl payload _)).elideUnchanged
  exact h.of_latches hself halike' hzero' hlatches hkeeps helide rfl

/-- The replay of a frame leaves the devices alike, whatever is remembered of it. -/
private theorem Lockstep.replays_alike (h : Lockstep env S s) (henv : env.Alike env') (wl : VulkanWorkload)
    (payload : List UInt8) (cache : AList fun _ : UInt64 => UInt64) (ctx : Fin NUM_CONTEXTS) (seqno : UInt64) :
    Alike ({ ((s.on.counted env).replay env wl payload).2 with lastForwardedHash := cache }.retire ctx seqno)
        (((s.off.counted env').replay env' wl payload).2.retire ctx seqno) ∧
      ({ ((s.on.counted env).replay env wl payload).2 with lastForwardedHash := cache }.retire
          ctx seqno).zerocopyScanout =
        (((s.off.counted env').replay env' wl payload).2.retire ctx seqno).zerocopyScanout := by
  have hzero : (s.on.counted env).zerocopyScanout = (s.off.counted env').zerocopyScanout := by
    rw [(counted_steady env s.on).zerocopyScanout, (counted_steady env' s.off).zerocopyScanout, h.zerocopyScanout]
  obtain ⟨-, hrep, hzero'⟩ := (counted_alike h.alike env env').replay henv hzero wl payload
  have hremembered : Alike { ((s.on.counted env).replay env wl payload).2 with lastForwardedHash := cache }
      ((s.off.counted env').replay env' wl payload).2 := { hrep with }
  exact ⟨hremembered.retire _ _, hzero'⟩

/-- A frame that both devices render. -/
private theorem Lockstep.replayed (h : Lockstep env S s) (henv : env.Alike env') (hself : env.Alike env)
    (hfaithful : env.Faithful) (hmem : payload ∈ S) (hadm : (s.on.ensureAdmitted env).1 = true)
    (hwl : acceptedWorkload sc payload = some wl) (hel : ¬ s.on.Elided wl payload) {s' : Elision}
    (hs : s.step env env' (.submit sc payload ctx) = some s') : Lockstep env S s' ∧ Agrees s' := by
  have hadm' : (s.off.ensureAdmitted env').1 = true := by rw [← (h.alike.ensureAdmitted env env').1, hadm]
  have hnot : ¬ s.off.Elided wl payload := by
    rw [Elided, h.renders]
    exact fun h => Bool.false_ne_true h.1
  have hsteady := counted_steady env s.on
  have hsteady' := counted_steady env' s.off
  have hon : s.on.act env (.submit sc payload ctx) =
      ((s.on.counted env).rendered env wl payload).retire ctx sc.seqno := by
    rw [Backend.act, submitVulkan_accepted ctx hadm hwl, if_neg hel]
  have hoff : s.off.act env' (.submit sc payload ctx) =
      ((s.off.counted env').replay env' wl payload).2.retire ctx sc.seqno := by
    rw [Backend.act, submitVulkan_accepted ctx hadm' hwl, if_neg hnot,
      rendered_off (hsteady'.elideUnchanged.trans h.renders)]
  have hlatches := hsteady.latches.trans (replay_latches env wl payload (s.on.counted env))
  have helide : (s.off.act env' (.submit sc payload ctx)).elideUnchanged = s.off.elideUnchanged := by
    rw [hoff]
    exact (hsteady'.latches.trans (replay_latches env' wl payload _)).elideUnchanged
  have hkeeps : Keeps s.on (s.on.act env (.submit sc payload ctx)) := submitVulkan_keeps sc payload ctx s.on
  have hkept : Keeps s.on ((s.on.counted env).replay env wl payload).2 :=
    (counted_quiet env s.on).toKeeps.trans (replay_keeps env wl payload _)
  rcases rendered_cases env wl payload (s.on.counted env) with hsame | ⟨helides, haddr, htrue, cache, hcache, hnew⟩
  · -- nothing new is remembered
    rw [hsame] at hon
    have hheld : s.heldAfter (s.on.act env (.submit sc payload ctx)) (.submit sc payload ctx) = s.held := by
      rw [hon]
      exact heldAfter_of_same hlatches.lastForwardedHash
    rw [step, hheld, Option.some_inj] at hs
    subst hs
    have hreplays := h.replays_alike henv wl payload
      ((s.on.counted env).replay env wl payload).2.lastForwardedHash ctx sc.seqno
    obtain ⟨halike, hzero⟩ : Alike (s.on.act env (.submit sc payload ctx)) (s.off.act env' (.submit sc payload ctx)) ∧
        (s.on.act env (.submit sc payload ctx)).zerocopyScanout =
          (s.off.act env' (.submit sc payload ctx)).zerocopyScanout := by
      rw [hon, hoff]
      exact hreplays
    have hlatches' : Latches s.on (s.on.act env (.submit sc payload ctx)) := by
      rw [hon]
      exact hlatches.trans ⟨id, rfl, rfl, id⟩
    exact ⟨h.of_latches hself halike hzero hlatches' hkeeps helide rfl, halike.mem, halike.ringRetired⟩
  · -- the frame is in its buffer and is remembered
    rw [hnew] at hon
    have hlookup : (s.on.act env (.submit sc payload ctx)).lastForwardedHash =
        cache.insert wl.scanoutAddr (fnv1a64 payload) := by
      rw [hon]
      rfl
    have hfresh : s.on.lastForwardedHash.lookup wl.scanoutAddr ≠ some (fnv1a64 payload) := fun hold =>
      hel ⟨h.elides, haddr, hold⟩
    have hreplay : (s.on.counted env).replay env wl payload =
        (some true, ((s.on.counted env).replay env wl payload).2) := Prod.ext htrue rfl
    obtain ⟨px, hread, hrepeatable⟩ := replay_true hself hfaithful haddr hreplay
    have hlen : px.length = wl.frameBytes := rendering_length hfaithful.toSized (hrepeatable.rendering 0)
    have hread' : (s.on.act env (.submit sc payload ctx)).dmaRead wl.scanoutAddr wl.frameBytes = some px := by
      rw [← hlen, hon]
      exact hread
    have hheld : s.heldAfter (s.on.act env (.submit sc payload ctx)) (.submit sc payload ctx) =
        Function.update s.held wl.scanoutAddr (some px) := by
      simp only [heldAfter, hwl, hread']
      rw [if_pos ⟨hfresh, by rw [hlookup, AList.lookup_insert]⟩]
    rw [step, hheld, Option.some_inj] at hs
    subst hs
    obtain ⟨halike, hzero⟩ := h.replays_alike henv wl payload
      (cache.insert wl.scanoutAddr (fnv1a64 payload)) ctx sc.seqno
    rw [← hon, ← hoff] at halike hzero
    have honzero : (s.on.act env (.submit sc payload ctx)).zerocopyScanout =
        ((s.on.counted env).replay env wl payload).2.zerocopyScanout := by
      rw [hon]
      rfl
    have honelide : (s.on.act env (.submit sc payload ctx)).elideUnchanged =
        ((s.on.counted env).replay env wl payload).2.elideUnchanged := by
      rw [hon]
      rfl
    have honreg : (s.on.act env (.submit sc payload ctx)).Registered := by
      rw [hon]
      exact hlatches.registered h.registered
    have hondma : (s.on.act env (.submit sc payload ctx)).dma = ((s.on.counted env).replay env wl payload).2.dma := by
      rw [hon]
      rfl
    have hticket : (s.on.act env (.submit sc payload ctx)).ticket.isSome := by
      rw [hon]
      exact (replay_keeps env wl payload (s.on.counted env)).ticket (ensureAdmitted_ticket hadm)
    refine ⟨h.of_insert hself halike hzero hkeeps ?_ (honelide.trans (hlatches.elideUnchanged.trans h.elides))
      (helide.trans h.renders) honreg (hcache.imp_right fun hold => hold.trans hsteady.lastForwardedHash) hlookup
      (fun other hother => Function.update_of_ne hother _ _) ⟨payload, wl, px, ?_⟩, halike.mem, halike.ringRetired⟩
    · rw [honzero]
      exact hlatches.zerocopyScanout
    · exact ⟨hmem, rfl, acceptedWorkload_decodes hwl, rfl, haddr, hticket, Function.update_self _ _ _,
        hrepeatable.alike hself hself hondma (by rw [honzero]; exact id)⟩

/-! ### Along a run -/

/-- One command keeps the devices in agreement exactly when a frame that it leaves out is still there. -/
private theorem Lockstep.step (h : Lockstep env S s) (henv : env.Alike env') (hfaithful : env.Faithful)
    (hS : Set.InjOn fnv1a64 S) {a : Act} (ha : Submits S a) {s' : Elision} (hs : s.step env env' a = some s') :
    (Agrees s' ↔ s.Current a) ∧ (Agrees s' → Lockstep env S s') := by
  have hself := henv.left
  have hother : (∀ sc payload ctx, a ≠ .submit sc payload ctx) → s.Current a →
      (Agrees s' ↔ s.Current a) ∧ (Agrees s' → Lockstep env S s') := by
    intro hne hcurrent
    have h' := h.act henv hself hne hs
    exact ⟨iff_of_true ⟨h'.alike.mem, h'.alike.ringRetired⟩ hcurrent, fun _ => h'⟩
  cases a with
  | submit sc payload ctx =>
    by_cases hno : (s.on.ensureAdmitted env).1 = false ∨ acceptedWorkload sc payload = none
    · obtain ⟨h', hagrees⟩ := h.refused hself hno hs
      refine ⟨iff_of_true hagrees fun wl hwl hel => ?_, fun _ => h'⟩
      -- the buffer is remembered for a frame of an admitted VM
      have hwl' : acceptedWorkload sc payload = some wl := hwl
      obtain ⟨px, hticket, -, -⟩ := h.left_out hS ha hwl' hel
      rw [ensureAdmitted_of_ticket hticket, hwl'] at hno
      rcases hno with hno | hno
      · cases hno
      · cases hno
    · rw [not_or, Bool.not_eq_false] at hno
      obtain ⟨hadm, haccepted⟩ := hno
      obtain ⟨wl, hwl⟩ := Option.ne_none_iff_exists'.1 haccepted
      by_cases hel : s.on.Elided wl payload
      · obtain ⟨hiff, h'⟩ := h.elided henv hself henv.right hfaithful hS ha hadm hwl hel hs
        refine ⟨hiff.trans ⟨fun hcurrent wl' hwl' _ => ?_, fun hcurrent => hcurrent wl hwl hel⟩, h'⟩
        rw [Option.mem_def, hwl, Option.some_inj] at hwl'
        exact hwl' ▸ hcurrent
      · obtain ⟨h', hagrees⟩ := h.replayed henv hself hfaithful ha hadm hwl hel hs
        refine ⟨iff_of_true hagrees fun wl' hwl' hel' => ?_, fun _ => h'⟩
        rw [Option.mem_def, hwl, Option.some_inj] at hwl'
        exact absurd (hwl' ▸ hel') hel
  | _ => exact hother nofun trivial

/-- With and without the elision the devices have the same guest memory and the same retired seqnos all along a run
exactly when every frame that is left out is still in its buffer.  The hash tells the payloads of the run apart. -/
theorem elision_agrees_iff (henv : env.Alike env') (hfaithful : env.Faithful) (hS : Set.InjOn fnv1a64 S) {d : Backend}
    (hempty : d.lastForwardedHash = ∅) (hreg : d.Registered) {as : List Act} (has : ∀ a ∈ as, Submits S a) :
    Lts.Always (step env env') Agrees (start d) as ↔ Lts.Along (step env env') Current (start d) as := by
  have hrun : (Lts.run (step env env') (start d) as).isSome := Lts.run_isSome (fun _ _ => rfl) _ as
  obtain ⟨t, ht⟩ := Option.isSome_iff_exists.1 hrun
  refine Lts.always_iff_along_while (A := Submits S) (B := fun _ => True) (I := Lockstep env S)
    (fun _ _ _ _ _ => trivial)
    ?_ ?_ (lockstep_start env S hempty hreg) ⟨rfl, rfl⟩ has ht trivial
  · intro s a s' ha _ h _ hagrees hs
    exact (h.step henv hfaithful hS ha hs).2 hagrees
  · intro s a s' ha _ h _ hs
    exact (h.step henv hfaithful hS ha hs).1

/-! ### A pixel that is cleared -/

private theorem white_alike : Env.white.Alike .white :=
  ⟨⟨fun _ _ => rfl, fun _ _ => rfl, fun _ _ => rfl⟩, fun _ _ => rfl, fun _ _ => rfl⟩

private theorem white_faithful : Env.white.Faithful := { Env.white_sized with inPlace := nofun }

/-- The clear of a single pixel at guest address `0x1000`. -/
def clearPixel : List UInt8 := ([0, 1, 1, 0, 0, 0, 0, 0, 0x1000, 0] : List UInt32).flatMap
    fun w => Bytes.ofValue 4 w.toNat

def submitPixel (seqno : UInt64) : Act :=
  .submit ⟨0, Encoding.vulkanVenuslike, 40, 0, seqno, 0, 0⟩ clearPixel 0

def onePage : Backend :=
  { withBroker .default .new (.new "vm" 1 4096) (fun _ => 0) with dma := DmaTable.new.map 0x1000 0x1000 0 }

/-- The pixel is cleared once and left out once. -/
theorem elision_agrees_clear :
    Lts.Always (step .white .white) Agrees (start onePage) [submitPixel 1, submitPixel 2] ∧
      (Lts.run (step .white .white) (start onePage) [submitPixel 1, submitPixel 2]).map
        (fun s => s.on.framesElided) = some 1 := by
  have hreg : onePage.Registered := by
    intro t ht
    cases ht
  refine ⟨(elision_agrees_iff white_alike white_faithful (Set.injOn_singleton fnv1a64 clearPixel) rfl hreg ?_).2
    ?_, by decide +kernel⟩
  · intro a ha
    simp only [List.mem_cons, List.not_mem_nil, or_false] at ha
    rcases ha with rfl | rfl
    · rfl
    · rfl
  · decide +kernel

/-- A word that is written through the debug register stays in the buffer with the elision, and only with it. -/
theorem debug_word_kept : ¬ Lts.Always (step .white .white) Agrees (start onePage)
    [submitPixel 1, .debugWrite 0x1000 0, submitPixel 2] := by
  intro h
  have hend := ((h.2 _ rfl).2 _ rfl).2 _ rfl
  have hpixel := congrFun hend.1 0
  revert hpixel
  decide +kernel

end Elision

end Infinigpu
