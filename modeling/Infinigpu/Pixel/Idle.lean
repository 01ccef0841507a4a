import Infinigpu.Pixel.Streamer
import Mathlib.Data.Set.Function

/-!
# Idle-skip (`infinigpu-pixel`, `Deduper` and `submit_bgra`)

A frame whose hash is that of the frame before is not encoded again, but for the first one, which pushes the last
change out of the splitter.  The hash does not cover the size, and it is recorded before the encoder is known to be
there.

* `Watched`: the streamer, with the frames that it has handed to its sessions;
* `Watched.dropped_iff`: in which runs a call that hands nothing on was given the frame that was handed on last;
* `Watched.idle_iff`: from which states a run of identical frames hands on two or three of them.
-/

namespace Infinigpu

/-- A frame as `submit_bgra` is given it. -/
structure BgraFrame where
  bgra : List UInt8
  w : UInt32
  h : UInt32
  deriving DecidableEq

def BgraFrame.size (f : BgraFrame) : UInt32 × UInt32 := (f.w, f.h)

/-- Four bytes a pixel. -/
def BgraFrame.Packed (f : BgraFrame) : Prop := f.bgra.length = 4 * (f.w.toNat * f.h.toNat)

instance (f : BgraFrame) : Decidable f.Packed :=
  inferInstanceAs (Decidable (f.bgra.length = 4 * (f.w.toNat * f.h.toNat)))

def StreamCall.frame (c : StreamCall) : BgraFrame := ⟨c.bgra, c.w, c.h⟩

/-- The call that is in `ensure_encoder`. -/
def Submitter.call : Submitter → Option StreamCall
  | .idle => none
  | .closing _ _ _ c => some c
  | .spawning _ c => some c

namespace StreamAction

/-- The frame of a call. -/
def submitted : StreamAction → Option BgraFrame
  | .submit bgra w h _ => some ⟨bgra, w, h⟩
  | _ => none

/-- A step of the submitting thread that can hand a frame on, or a step of another kind. -/
theorem cases_submit (a : StreamAction) : (∃ bgra w h now, a = .submit bgra w h now) ∨
    (∃ first second, a = .spawn first second) ∨ a.submitted = none ∧ ∀ first second, a ≠ .spawn first second := by
  cases a with
  | submit bgra w h now => exact .inl ⟨bgra, w, h, now, rfl⟩
  | spawn first second => exact .inr (.inl ⟨first, second, rfl⟩)
  | joined => exact .inr (.inr ⟨rfl, by simp⟩)
  | requestKeyframe => exact .inr (.inr ⟨rfl, by simp⟩)
  | feed => exact .inr (.inr ⟨rfl, by simp⟩)
  | feederDied => exact .inr (.inr ⟨rfl, by simp⟩)
  | drain => exact .inr (.inr ⟨rfl, by simp⟩)
  | drainEnded => exact .inr (.inr ⟨rfl, by simp⟩)

/-- The frames of the calls. -/
def frames (as : List StreamAction) : List BgraFrame := as.filterMap submitted

private theorem injOn_frames {as : List StreamAction}
    (h : ∀ f ∈ frames as, ∀ g ∈ frames as, frameHash f.bgra = frameHash g.bgra → f.bgra = g.bgra) :
    Set.InjOn frameHash {b | ∃ f ∈ frames as, f.bgra = b} := by
  rintro _ ⟨f, hf, rfl⟩ _ ⟨g, hg, rfl⟩ hhash
  exact h f hf g hg hhash

end StreamAction

private theorem Deduper.changed_fst (d : Deduper) (bgra : List UInt8) :
    (d.changed bgra).1 = true ↔ d.last ≠ some (frameHash bgra) := by
  unfold changed
  by_cases h : d.last = some (frameHash bgra)
  · simp [h]
  · simp [h]

@[simp] theorem Deduper.changed_snd (d : Deduper) (bgra : List UInt8) :
    (d.changed bgra).2 = ⟨some (frameHash bgra)⟩ := by
  unfold changed
  by_cases h : d.last = some (frameHash bgra)
  · rw [if_pos h, ← h]
  · rw [if_neg h]

namespace Streamer

/-- The frame of the call that a step belongs to. -/
def calling (s : Streamer) : StreamAction → Option BgraFrame
  | .submit bgra w h _ => some ⟨bgra, w, h⟩
  | .joined => s.submitter.call.map StreamCall.frame
  | .spawn _ _ => s.submitter.call.map StreamCall.frame
  | _ => none

/-- `ensure_encoder` keeps the session. -/
def Reuses (s : Streamer) (w h : UInt32) : Prop :=
  s.forceRespawn = false ∧ ∃ e ∈ s.enc, e.w = w ∧ e.h = h ∧ e.alive = true

/-- The first of a run of identical frames differs from the baseline, or it pushes out the last change through a
session of its own. -/
def Notices (s : Streamer) (f : BgraFrame) : Prop :=
  s.dedup.last ≠ some (frameHash f.bgra) ∨ s.pendingFlush = true ∧ ¬ s.Reuses f.w f.h

/-- One of the two spawns succeeds. -/
def spawns (s : Streamer) (first second : Bool) : Bool := first || (!s.hardwareFailed && second)

/-- No keyframe is asked for and no session dies or fails to come up. -/
def Undisturbed (s : Streamer) : StreamAction → Prop
  | .submit _ _ _ _ => s.keyframeRequested = false
  | .spawn first second => s.spawns first second = true
  | .feederDied => s.enc = none
  | .drainEnded => s.enc = none
  | _ => True

instance (s : Streamer) : (a : StreamAction) → Decidable (s.Undisturbed a)
  | .submit _ _ _ _ => inferInstanceAs (Decidable (s.keyframeRequested = false))
  | .spawn first second => inferInstanceAs (Decidable (s.spawns first second = true))
  | .feederDied => inferInstanceAs (Decidable (s.enc = none))
  | .drainEnded => inferInstanceAs (Decidable (s.enc = none))
  | .joined => .isTrue trivial
  | .requestKeyframe => .isTrue trivial
  | .feed => .isTrue trivial
  | .drain _ => .isTrue trivial

/-! ### What a call does -/

section Effects

variable {s s' : Streamer} {c : StreamCall}

/-- The call has handed its frame to a session and returned; `s` is the streamer with the baseline it had then. -/
structure Handed (c : StreamCall) (s s' : Streamer) : Prop where
  submitter : s'.submitter = .idle
  sent : s'.sent = s.sent + 1
  frame : s'.frame = s.frame
  dedup : s'.dedup.last = if c.resume = .seed then some (frameHash c.bgra) else s.dedup.last
  pendingFlush : s'.pendingFlush = if c.resume = .flush then s.pendingFlush else true
  forceRespawn : s'.forceRespawn = s.forceRespawn
  session : ∃ e ∈ s'.enc, e.w = c.w ∧ e.h = c.h ∧ e.alive = true

/-- If anything is recorded after the call, it is the hash of its frame. -/
private theorem Handed.recorded (hh : Handed c s s')
    (hs : c.resume = .seed ∨ s.dedup.last = some (frameHash c.bgra) ∨ s.dedup.last = none) :
    ∀ k ∈ s'.dedup.last, frameHash c.bgra = k := by
  intro k hk
  rw [hh.dedup] at hk
  by_cases hseed : c.resume = .seed
  · rw [if_pos hseed, Option.mem_some_iff] at hk
    exact hk
  · rw [if_neg hseed] at hk
    rcases hs with h | h | h
    · exact absurd h hseed
    · rw [h, Option.mem_some_iff] at hk
      exact hk
    · rw [h] at hk
      cases hk

/-- The call is replacing the session. -/
structure Waits (c : StreamCall) (s s' : Streamer) : Prop where
  call : s'.submitter.call = some c
  sent : s'.sent = s.sent
  frame : s'.frame = s.frame
  dedup : s'.dedup = s.dedup
  forceRespawn : s'.forceRespawn = false

/-- The call has returned without handing its frame on. -/
structure Dropped (s s' : Streamer) : Prop where
  submitter : s'.submitter = .idle
  sent : s'.sent = s.sent
  frame : s'.frame = s.frame
  dedup : s'.dedup = s.dedup

private theorem resume_handed (hsession : ∃ e ∈ s.enc, e.w = c.w ∧ e.h = c.h ∧ e.alive = true) :
    Handed c s (s.resume c) := by
  obtain ⟨e, henc, hw, hh, halive⟩ := hsession
  rw [Option.mem_def] at henc
  unfold resume push
  dsimp only
  rw [henc]
  cases hresume : c.resume with
  | seed =>
    refine ⟨rfl, rfl, rfl, ?_, by simp [hresume], rfl, _, rfl, hw, hh, halive⟩
    rw [Deduper.changed_snd, hresume, if_pos rfl]
  | flush => exact ⟨rfl, rfl, rfl, by simp [hresume], by simp [hresume], rfl, _, rfl, hw, hh, halive⟩
  | encode => exact ⟨rfl, rfl, rfl, by simp [hresume], by simp [hresume], rfl, _, rfl, hw, hh, halive⟩

theorem ensureEncoder_reuses (h : s.Reuses c.w c.h) : Handed c s (s.ensureEncoder c) := by
  obtain ⟨hforce, e, henc, hw, hh, halive⟩ := h
  have heq : s.ensureEncoder c = s.resume c := by
    rw [Option.mem_def] at henc
    unfold ensureEncoder
    dsimp only
    rw [henc]
    dsimp only
    rw [if_pos ⟨hforce, hw, hh, halive⟩, ← hforce, ← henc]
  rw [heq]
  exact resume_handed ⟨e, henc, hw, hh, halive⟩

theorem ensureEncoder_respawns (h : ¬ s.Reuses c.w c.h) : Waits c s (s.ensureEncoder c) := by
  unfold ensureEncoder
  dsimp only
  cases henc : s.enc with
  | none => exact ⟨rfl, rfl, rfl, rfl, rfl⟩
  | some e =>
    have hlive : ¬ (s.forceRespawn = false ∧ e.w = c.w ∧ e.h = c.h ∧ e.alive = true) :=
      fun hl => h ⟨hl.1, e, henc, hl.2⟩
    dsimp only
    rw [if_neg hlive]
    exact ⟨rfl, rfl, rfl, rfl, rfl⟩

/-- A fresh session starts from a baseline of its own. -/
private theorem install_handed (hardware : Bool) :
    Handed c { s with dedup := ⟨none⟩, pendingFlush := false } (s.install c hardware) := by
  obtain ⟨hsub, hsent, hframe, hdedup, hflush, hforce, hsession⟩ := resume_handed (c := c)
    (s := { s with
      enc := some ⟨c.w, c.h, hardware, none, true, 0, true⟩, dedup := ⟨none⟩, pendingFlush := false })
    ⟨_, rfl, rfl, rfl, rfl⟩
  exact ⟨hsub, hsent, hframe, hdedup, hflush, hforce, hsession⟩

theorem spawnSession_handed {first second : Bool} (h : s.spawns first second = true) :
    Handed c { s with dedup := ⟨none⟩, pendingFlush := false } (s.spawnSession c first second) := by
  unfold spawnSession
  cases first with
  | true => exact install_handed _
  | false =>
    obtain ⟨hhard, rfl⟩ : s.hardwareFailed = false ∧ second = true := by simpa [spawns] using h
    simp only [hhard, Bool.false_eq_true, if_false, if_true]
    obtain ⟨hsub, hsent, hframe, hdedup, hflush, hforce, hsession⟩ :=
      install_handed (c := c) (s := { s with hardwareFailed := true }) false
    exact ⟨hsub, hsent, hframe, hdedup, hflush, hforce, hsession⟩

theorem spawnSession_dropped {first second : Bool} (h : s.spawns first second = false) :
    Dropped s (s.spawnSession c first second) := by
  obtain ⟨rfl, hsecond⟩ : first = false ∧ (s.hardwareFailed = false → second = false) := by simpa [spawns] using h
  unfold spawnSession
  cases hhard : s.hardwareFailed with
  | true => exact ⟨rfl, rfl, rfl, rfl⟩
  | false =>
    obtain rfl := hsecond hhard
    exact ⟨rfl, rfl, rfl, rfl⟩

/-- A keyframe that is due. -/
private theorem submitBgra_seed {now : Nat} (hdue : (s.keyframeRequested && s.due now) = true) (bgra : List UInt8)
    (w h : UInt32) : s.submitBgra bgra w h now =
      ({ s with
        frame := some (w, h), keyframeRequested := false, lastForcedIdr := some now,
        forceRespawn := true } : Streamer).ensureEncoder ⟨bgra, w, h, .seed⟩ := by
  have hdue' : (s.keyframeRequested && ({ s with frame := some (w, h) } : Streamer).due now) = true := hdue
  unfold submitBgra
  dsimp only
  rw [if_pos hdue']

private theorem submitBgra_encodeOrSkip {now : Nat} (hdue : (s.keyframeRequested && s.due now) = false)
    (bgra : List UInt8) (w h : UInt32) :
    s.submitBgra bgra w h now = ({ s with frame := some (w, h) } : Streamer).encodeOrSkip bgra w h := by
  have hdue' : (s.keyframeRequested && ({ s with frame := some (w, h) } : Streamer).due now) = false := hdue
  unfold submitBgra
  dsimp only
  rw [hdue', if_neg Bool.false_ne_true]

private theorem encodeOrSkip_encode {bgra : List UInt8} (hnew : s.dedup.last ≠ some (frameHash bgra)) (w h : UInt32) :
    s.encodeOrSkip bgra w h =
      ({ s with dedup := ⟨some (frameHash bgra)⟩ } : Streamer).ensureEncoder ⟨bgra, w, h, .encode⟩ := by
  unfold encodeOrSkip
  dsimp only
  rw [if_pos ((Deduper.changed_fst _ _).2 hnew), Deduper.changed_snd]

private theorem encodeOrSkip_same {bgra : List UInt8} (hsame : s.dedup.last = some (frameHash bgra)) (w h : UInt32) :
    s.encodeOrSkip bgra w h =
      if s.pendingFlush then
        ({ s with skipped := s.skipped + 1, pendingFlush := false } : Streamer).ensureEncoder ⟨bgra, w, h, .flush⟩
      else
        { s with skipped := s.skipped + 1 } := by
  have hfst : ¬ (s.dedup.changed bgra).1 = true := fun h => (Deduper.changed_fst _ _).1 h hsame
  have hsnd : (s.dedup.changed bgra).2 = s.dedup := by rw [Deduper.changed_snd, ← hsame]
  unfold encodeOrSkip
  dsimp only
  rw [if_neg hfst, hsnd]

/-- A skipped frame is that of the baseline, and leaves it. -/
theorem submitBgra_skips {bgra : List UInt8} {now : Nat} (hskip : s.skips bgra now = true) (w h : UInt32) :
    s.dedup.last = some (frameHash bgra) ∧
      s.submitBgra bgra w h now = { s with frame := some (w, h), skipped := s.skipped + 1 } := by
  simp only [skips, idles, Bool.and_eq_true, Bool.not_eq_true'] at hskip
  obtain ⟨hdue, hfst, hflush⟩ := hskip
  have hsame : s.dedup.last = some (frameHash bgra) := by
    by_contra hnew
    rw [(Deduper.changed_fst _ _).2 hnew] at hfst
    cases hfst
  refine ⟨hsame, ?_⟩
  rw [submitBgra_encodeOrSkip hdue, encodeOrSkip_same (s := { s with frame := some (w, h) }) hsame]
  dsimp only
  rw [hflush, if_neg Bool.false_ne_true]

/-- Any other call looks at the encoder, with the hash of its frame recorded unless it asks for a keyframe. -/
theorem submitBgra_ensures {bgra : List UInt8} {now : Nat} (hskip : s.skips bgra now = false) (w h : UInt32) :
    ∃ (t : Streamer) (r : Resume), s.submitBgra bgra w h now = t.ensureEncoder ⟨bgra, w, h, r⟩ ∧ t.sent = s.sent ∧
      t.frame = some (w, h) ∧ (r = .seed ∧ t.dedup = s.dedup ∨ t.dedup.last = some (frameHash bgra)) := by
  cases hdue : s.keyframeRequested && s.due now with
  | true => exact ⟨_, _, submitBgra_seed hdue bgra w h, rfl, rfl, .inl ⟨rfl, rfl⟩⟩
  | false =>
    rw [submitBgra_encodeOrSkip hdue]
    by_cases hsame : s.dedup.last = some (frameHash bgra)
    · have hflush : s.pendingFlush = true := by
        have hfst : (s.dedup.changed bgra).1 = false := by
          rw [Bool.eq_false_iff, Ne, Deduper.changed_fst]
          exact fun hnew => hnew hsame
        simpa [skips, idles, hdue, hfst] using hskip
      rw [encodeOrSkip_same (s := { s with frame := some (w, h) }) hsame]
      dsimp only
      rw [hflush, if_pos rfl]
      exact ⟨_, _, rfl, rfl, rfl, .inr hsame⟩
    · rw [encodeOrSkip_encode (s := { s with frame := some (w, h) }) hsame]
      exact ⟨_, _, rfl, rfl, rfl, .inr rfl⟩

theorem call_eq_none_iff {p : Submitter} : p.call = none ↔ p = .idle := by
  cases p with
  | idle => simp [Submitter.call]
  | closing => simp [Submitter.call]
  | spawning => simp [Submitter.call]

/-- What a step of another thread leaves as it is. -/
structure Unmoved (s : Streamer) (a : StreamAction) (s' : Streamer) : Prop where
  call : s'.submitter.call = s.submitter.call
  sent : s'.sent = s.sent
  frame : s'.frame = s.frame
  dedup : s'.dedup = s.dedup
  pendingFlush : s'.pendingFlush = s.pendingFlush
  forceRespawn : s'.forceRespawn = s.forceRespawn
  session : ∃ g : EncoderSession → EncoderSession, s'.enc = s.enc.map g ∧
    ∀ e ∈ s.enc, (g e).w = e.w ∧ (g e).h = e.h ∧ (s.Undisturbed a → (g e).alive = e.alive)

/-- A step that leaves the session alone. -/
private theorem Unmoved.of_enc {a : StreamAction} (hcall : s'.submitter.call = s.submitter.call)
    (henc : s'.enc = s.enc) (hsent : s'.sent = s.sent) (hframe : s'.frame = s.frame) (hdedup : s'.dedup = s.dedup)
    (hflush : s'.pendingFlush = s.pendingFlush) (hforce : s'.forceRespawn = s.forceRespawn) : Unmoved s a s' :=
  ⟨hcall, hsent, hframe, hdedup, hflush, hforce, id, henc.trans Option.map_id'.symm,
    fun _ _ => ⟨rfl, rfl, fun _ => rfl⟩⟩

/-- A step of a thread of the session. -/
private theorem withSession_unmoved {a : StreamAction} {g : EncoderSession → EncoderSession}
    (hg : ∀ e, (g e).w = e.w ∧ (g e).h = e.h) (halive : s.Undisturbed a → ∀ e ∈ s.enc, (g e).alive = e.alive) :
    Unmoved s a (s.withSession g) :=
  ⟨rfl, rfl, rfl, rfl, rfl, rfl, g, rfl, fun e he => ⟨(hg e).1, (hg e).2, fun hq => halive hq e he⟩⟩

private theorem drain_unmoved {au : EncodedAu} (hstep : s.step (.drain au) = some s') : Unmoved s (.drain au) s' := by
  have hlive : ∀ e : EncoderSession, Unmoved s (.drain au)
      ((s.broadcast e au).withSession fun e => { e with produced := e.produced + 1 }) := by
    intro e
    obtain ⟨hcall, hsent, hframe, hdedup, hflush, hforce, hsession⟩ := withSession_unmoved (s := s.broadcast e au)
      (a := .drain au) (g := fun e => { e with produced := e.produced + 1 }) (fun _ => ⟨rfl, rfl⟩) fun _ _ _ => rfl
    exact ⟨hcall, hsent, hframe, hdedup, hflush, hforce, hsession⟩
  cases hsub : s.submitter with
  | closing old died sizeChanged c =>
    simp only [step, hsub, Option.ite_none_right_eq_some, Option.some_inj] at hstep
    obtain ⟨-, rfl⟩ := hstep
    exact .of_enc (by rw [hsub]; rfl) rfl rfl rfl rfl rfl rfl
  | idle =>
    cases henc : s.enc with
    | none => simp [step, hsub, henc] at hstep
    | some e =>
      simp only [step, hsub, henc, Option.ite_none_right_eq_some, Option.some_inj] at hstep
      exact hstep.2 ▸ hlive e
  | spawning replaced c =>
    cases henc : s.enc with
    | none => simp [step, hsub, henc] at hstep
    | some e =>
      simp only [step, hsub, henc, Option.ite_none_right_eq_some, Option.some_inj] at hstep
      exact hstep.2 ▸ hlive e

private theorem drainEnded_unmoved (hstep : s.step .drainEnded = some s') : Unmoved s .drainEnded s' := by
  have hlive : Unmoved s .drainEnded (s.withSession fun e => { e with draining := false, alive := false }) := by
    refine withSession_unmoved (fun _ => ⟨rfl, rfl⟩) fun hq e he => ?_
    have henc : s.enc = none := hq
    rw [henc] at he
    cases he
  cases hsub : s.submitter with
  | closing old died sizeChanged c =>
    simp only [step, hsub, Option.some_inj] at hstep
    subst hstep
    exact .of_enc (by rw [hsub]; rfl) rfl rfl rfl rfl rfl rfl
  | idle =>
    simp only [step, hsub, Option.some_inj] at hstep
    exact hstep ▸ hlive
  | spawning replaced c =>
    simp only [step, hsub, Option.some_inj] at hstep
    exact hstep ▸ hlive

theorem step_unmoved {a : StreamAction} (hsubmit : a.submitted = none)
    (hspawn : ∀ first second, a ≠ .spawn first second) (hstep : s.step a = some s') : Unmoved s a s' := by
  cases a with
  | submit bgra w h now => cases hsubmit
  | spawn first second => exact absurd rfl (hspawn first second)
  | requestKeyframe =>
    cases hstep
    exact .of_enc rfl rfl rfl rfl rfl rfl rfl
  | feed =>
    cases hstep
    exact withSession_unmoved (fun _ => ⟨rfl, rfl⟩) fun _ _ _ => rfl
  | feederDied =>
    cases hstep
    refine withSession_unmoved (fun _ => ⟨rfl, rfl⟩) fun hq e he => ?_
    have henc : s.enc = none := hq
    rw [henc] at he
    cases he
  | joined =>
    obtain ⟨old, died, sizeChanged, c, hsub, rfl⟩ := step_joined hstep
    exact .of_enc (by rw [hsub]; rfl) rfl rfl rfl rfl rfl rfl
  | drain au => exact drain_unmoved hstep
  | drainEnded => exact drainEnded_unmoved hstep

/-- While no session dies, the other threads do not decide whether it is kept. -/
private theorem Unmoved.reuses {a : StreamAction} (hs : Unmoved s a s') (hq : s.Undisturbed a) (w h : UInt32) :
    s'.Reuses w h ↔ s.Reuses w h := by
  obtain ⟨g, henc, hg⟩ := hs.session
  unfold Reuses
  rw [hs.forceRespawn, henc]
  refine and_congr_right fun _ => ?_
  cases he : s.enc with
  | none => exact Iff.rfl
  | some e =>
    obtain ⟨hw, hh, halive⟩ := hg e he
    simp [hw, hh, halive hq]

end Effects

end Streamer

/-! ### The frames handed on -/

/-- The streamer, and the frames that it has handed to its sessions, the last one first. -/
structure Watched where
  streamer : Streamer
  handed : List BgraFrame

namespace Watched

def new (fps : UInt32) (codec : Codec) : Watched := ⟨.new fps codec, []⟩

/-- The counter of `push` tells whether the call has handed its frame on. -/
def step (x : Watched) (a : StreamAction) : Option Watched :=
  (x.streamer.step a).map fun s =>
    ⟨s, if s.sent = x.streamer.sent then x.handed else (x.streamer.calling a).toList ++ x.handed⟩

/-- What is watched of a streamer does not change what it does. -/
private theorem run_streamer (x : Watched) (as : List StreamAction) :
    (Lts.run step x as).map streamer = Lts.run Streamer.step x.streamer as := by
  induction as generalizing x with
  | nil => rfl
  | cons a as ih =>
    rw [Lts.run_cons, Lts.run_cons]
    unfold step
    cases x.streamer.step a with
    | none => rfl
    | some s => exact ih _

/-- A call that returns without handing its frame on was given the frame handed on last. -/
def Faithful (x : Watched) (a : StreamAction) : Prop :=
  ∀ s ∈ x.streamer.step a, s.submitter = .idle → s.sent = x.streamer.sent →
    ∀ f ∈ x.streamer.calling a, x.handed.head? = some f

/-- A frame that is skipped has the size of the one before, and a spawn fails for no other frame than the one handed
on last. -/
def Unmistaken (x : Watched) : StreamAction → Prop
  | .submit bgra w h now => x.streamer.skips bgra now = true → x.streamer.frame = some (w, h)
  | .spawn first second => x.streamer.spawns first second = false →
      ∀ c ∈ x.streamer.submitter.call, x.handed.head? = some c.frame
  | _ => True

instance (x : Watched) (a : StreamAction) : Decidable (x.Faithful a) :=
  inferInstanceAs (Decidable (∀ s ∈ x.streamer.step a, s.submitter = .idle → s.sent = x.streamer.sent →
    ∀ f ∈ x.streamer.calling a, x.handed.head? = some f))

instance (x : Watched) : (a : StreamAction) → Decidable (x.Unmistaken a)
  | .submit bgra w h now =>
    inferInstanceAs (Decidable (x.streamer.skips bgra now = true → x.streamer.frame = some (w, h)))
  | .spawn first second => inferInstanceAs (Decidable (x.streamer.spawns first second = false →
      ∀ c ∈ x.streamer.submitter.call, x.handed.head? = some c.frame))
  | .joined => .isTrue trivial
  | .requestKeyframe => .isTrue trivial
  | .feed => .isTrue trivial
  | .feederDied => .isTrue trivial
  | .drain _ => .isTrue trivial
  | .drainEnded => .isTrue trivial

section Tracks

variable {S : Set (List UInt8)} {x x' : Watched} {s : Streamer} {a : StreamAction} {f : BgraFrame}

private theorem sent_ne (hsent : s.sent = x.streamer.sent + 1) : s.sent ≠ x.streamer.sent := by
  rw [hsent]
  intro h
  exact absurd (UInt64.add_eq_left.1 h) (by decide)

private theorem step_handed (hs : x.streamer.step a = some s) (hsent : s.sent = x.streamer.sent + 1)
    (hf : x.streamer.calling a = some f) : x.step a = some ⟨s, f :: x.handed⟩ := by
  unfold step
  rw [hs, Option.map_some, if_neg (sent_ne hsent), hf]
  rfl

private theorem step_kept (hs : x.streamer.step a = some s) (hsent : s.sent = x.streamer.sent) :
    x.step a = some ⟨s, x.handed⟩ := by
  unfold step
  rw [hs, Option.map_some, if_pos hsent]

private theorem step_streamer (hstep : x.step a = some x') : x.streamer.step a = some x'.streamer := by
  obtain ⟨s, hs, rfl⟩ := Option.map_eq_some_iff.1 hstep
  exact hs

private theorem eq_of_kept (hstep : x.step a = some x') (hsent : x'.streamer.sent = x.streamer.sent) :
    x' = ⟨x'.streamer, x.handed⟩ :=
  Option.some_inj.1 (hstep.symm.trans (step_kept (step_streamer hstep) hsent))

private theorem eq_of_handed (hstep : x.step a = some x') (hsent : x'.streamer.sent = x.streamer.sent + 1)
    (hf : x.streamer.calling a = some f) : x' = ⟨x'.streamer, f :: x.handed⟩ :=
  Option.some_inj.1 (hstep.symm.trans (step_handed (step_streamer hstep) hsent hf))

/-- A step that hands a frame on, or does not end a call, drops none. -/
private theorem faithful_of (hs : x.streamer.step a = some s)
    (h : s.submitter = .idle → s.sent ≠ x.streamer.sent) : x.Faithful a := by
  intro s' hs' hidle hsent
  rw [hs, Option.mem_some_iff] at hs'
  subst hs'
  exact absurd hsent (h hidle)

private theorem faithful_iff (hs : x.streamer.step a = some s) (hf : x.streamer.calling a = some f)
    (hidle : s.submitter = .idle) (hsent : s.sent = x.streamer.sent) : x.Faithful a ↔ x.handed.head? = some f := by
  unfold Faithful
  rw [hs, hf]
  simp [hidle, hsent]

/-- What is recorded belongs to the frame handed on last or to the call under way, and all frames come from `S`. -/
structure Tracks (S : Set (List UInt8)) (x : Watched) : Prop where
  size : x.streamer.submitter = .idle → x.streamer.frame = x.handed.head?.map BgraFrame.size
  recorded : ∀ k ∈ x.streamer.dedup.last,
    (∃ f ∈ x.handed.head?, frameHash f.bgra = k) ∨ ∃ c ∈ x.streamer.submitter.call, frameHash c.bgra = k
  handed : ∀ f ∈ x.handed.head?, f.bgra ∈ S
  calling : ∀ c ∈ x.streamer.submitter.call, c.bgra ∈ S ∧ x.streamer.frame = some (c.w, c.h)

private theorem new_tracks (fps : UInt32) (codec : Codec) : Tracks S (new fps codec) where
  size _ := rfl
  recorded k hk := by cases hk
  handed f hf := by cases hf
  calling c hc := by cases hc

private theorem Tracks.unmoved (hx : Tracks S x) (hs : Streamer.Unmoved x.streamer a s) : Tracks S ⟨s, x.handed⟩ where
  size hidle := by
    have hidle' : x.streamer.submitter = .idle :=
      Streamer.call_eq_none_iff.1 (hs.call ▸ Streamer.call_eq_none_iff.2 hidle)
    exact hs.frame.trans (hx.size hidle')
  recorded k hk := by
    rw [hs.dedup] at hk
    rw [hs.call]
    exact hx.recorded k hk
  handed := hx.handed
  calling c hc := by
    rw [hs.call] at hc
    rw [hs.frame]
    exact hx.calling c hc

/-- After a call whose frame is the one handed on last. -/
private theorem tracks_of_idle {l : List BgraFrame} (hidle : s.submitter = .idle) (hf : f ∈ l.head?)
    (hmem : f.bgra ∈ S) (hframe : s.frame = some f.size) (hdedup : ∀ k ∈ s.dedup.last, frameHash f.bgra = k) :
    Tracks S ⟨s, l⟩ := by
  rw [Option.mem_def] at hf
  refine ⟨fun _ => ?_, fun k hk => .inl ⟨f, hf, hdedup k hk⟩, ?_, ?_⟩
  · rw [hf]
    exact hframe
  · rintro g hg
    rw [Option.mem_def, hf, Option.some_inj] at hg
    exact hg ▸ hmem
  · rintro c hc
    rw [Streamer.call_eq_none_iff.2 hidle] at hc
    cases hc

/-- While a call replaces the session. -/
private theorem tracks_of_waits (hx : Tracks S x) (hidle : x.streamer.submitter = .idle) {c : StreamCall}
    {t : Streamer} (hw : Streamer.Waits c t s) (hmem : c.bgra ∈ S) (hframe : t.frame = some (c.w, c.h))
    (hdedup : t.dedup = x.streamer.dedup ∨ t.dedup.last = some (frameHash c.bgra)) : Tracks S ⟨s, x.handed⟩ := by
  refine ⟨fun h => ?_, fun k hk => ?_, hx.handed, fun c' hc' => ?_⟩
  · have hnone := Streamer.call_eq_none_iff.2 h
    rw [hw.call] at hnone
    cases hnone
  · dsimp only at hk
    rw [hw.dedup] at hk
    rcases hdedup with hd | hd
    · rw [hd] at hk
      obtain h | ⟨c', hc', -⟩ := hx.recorded k hk
      · exact .inl h
      · rw [Streamer.call_eq_none_iff.2 hidle] at hc'
        cases hc'
    · rw [hd, Option.mem_some_iff] at hk
      exact .inr ⟨c, hw.call, hk⟩
  · dsimp only at hc'
    rw [hw.call, Option.mem_some_iff] at hc'
    subst hc'
    exact ⟨hmem, hw.frame.trans hframe⟩

/-- Between two calls the baseline is the frame handed on last. -/
private theorem Tracks.baseline (hx : Tracks S x) (hinj : Set.InjOn frameHash S)
    (hidle : x.streamer.submitter = .idle) {bgra : List UInt8} (hmem : bgra ∈ S)
    (hlast : x.streamer.dedup.last = some (frameHash bgra)) :
    ∃ f, x.handed.head? = some f ∧ f.bgra = bgra := by
  obtain ⟨f, hf, hhash⟩ | ⟨c, hc, -⟩ := hx.recorded _ hlast
  · exact ⟨f, hf, hinj (hx.handed f hf) hmem hhash⟩
  · rw [Streamer.call_eq_none_iff.2 hidle] at hc
    cases hc

private theorem skip_faithful (hx : Tracks S x) (hinj : Set.InjOn frameHash S) {bgra : List UInt8}
    {w h : UInt32} {now : Nat} (hmem : bgra ∈ S) (hskip : x.streamer.skips bgra now = true)
    (hstep : x.step (.submit bgra w h now) = some x') :
    (x.Faithful (.submit bgra w h now) ↔ x.Unmistaken (.submit bgra w h now)) ∧
      (x.Faithful (.submit bgra w h now) → Tracks S x') := by
  have hs := step_streamer hstep
  obtain ⟨hidle, hs'⟩ := Streamer.step_submit hs
  obtain ⟨hlast, heq⟩ := Streamer.submitBgra_skips hskip w h
  rw [heq] at hs'
  have hsent : x'.streamer.sent = x.streamer.sent := by rw [hs']
  have hidle' : x'.streamer.submitter = .idle := by rw [hs']; exact hidle
  have hiff := faithful_iff hs (f := ⟨bgra, w, h⟩) rfl hidle' hsent
  refine ⟨hiff.trans ?_, fun hfaithful => ?_⟩
  · obtain ⟨f, hf, hbytes⟩ := hx.baseline hinj hidle hmem hlast
    have hsize : x.streamer.frame = some f.size := by rw [hx.size hidle, hf]; rfl
    have hun : x.Unmistaken (.submit bgra w h now) ↔ x.streamer.frame = some (w, h) :=
      ⟨fun hu => hu hskip, fun hu _ => hu⟩
    rw [hun, hf, hsize, Option.some_inj, Option.some_inj]
    cases f with
    | mk b fw fh =>
      obtain rfl : b = bgra := hbytes
      simp [BgraFrame.size]
  · rw [eq_of_kept hstep hsent]
    refine tracks_of_idle hidle' (hiff.1 hfaithful) hmem (by rw [hs']; rfl) fun k hk => ?_
    have hk' : k ∈ x.streamer.dedup.last := by
      rw [hs'] at hk
      exact hk
    rw [hlast, Option.mem_some_iff] at hk'
    exact hk'

private theorem submit_faithful (hx : Tracks S x) (hinj : Set.InjOn frameHash S) {bgra : List UInt8}
    {w h : UInt32} {now : Nat} (hmem : bgra ∈ S) (hstep : x.step (.submit bgra w h now) = some x') :
    (x.Faithful (.submit bgra w h now) ↔ x.Unmistaken (.submit bgra w h now)) ∧
      (x.Faithful (.submit bgra w h now) → Tracks S x') := by
  cases hskip : x.streamer.skips bgra now with
  | true => exact skip_faithful hx hinj hmem hskip hstep
  | false =>
    have hs := step_streamer hstep
    obtain ⟨hidle, hs'⟩ := Streamer.step_submit hs
    obtain ⟨t, r, heq, hsent, hframe, hdedup⟩ := Streamer.submitBgra_ensures hskip w h
    rw [heq] at hs'
    have hun : x.Unmistaken (.submit bgra w h now) := fun h => by
      rw [hskip] at h
      cases h
    by_cases hreuse : t.Reuses w h
    · have hh : Streamer.Handed ⟨bgra, w, h, r⟩ t x'.streamer := hs' ▸ Streamer.ensureEncoder_reuses hreuse
      have hsent' : x'.streamer.sent = x.streamer.sent + 1 := hh.sent.trans (by rw [hsent])
      refine ⟨iff_of_true (faithful_of hs fun _ => sent_ne hsent') hun, fun _ => ?_⟩
      rw [eq_of_handed hstep hsent' rfl]
      exact tracks_of_idle hh.submitter rfl hmem (hh.frame.trans hframe)
        (hh.recorded (hdedup.imp And.left .inl))
    · have hw : Streamer.Waits ⟨bgra, w, h, r⟩ t x'.streamer := hs' ▸ Streamer.ensureEncoder_respawns hreuse
      refine ⟨iff_of_true (faithful_of hs fun h => ?_) hun, fun _ => ?_⟩
      · have hnone := Streamer.call_eq_none_iff.2 h
        rw [hw.call] at hnone
        cases hnone
      · rw [eq_of_kept hstep (hw.sent.trans hsent)]
        exact tracks_of_waits hx hidle hw hmem hframe (hdedup.imp_left And.right)

private theorem spawn_faithful (hx : Tracks S x) {first second : Bool}
    (hstep : x.step (.spawn first second) = some x') :
    (x.Faithful (.spawn first second) ↔ x.Unmistaken (.spawn first second)) ∧
      (x.Faithful (.spawn first second) → Tracks S x') := by
  have hs := step_streamer hstep
  obtain ⟨replaced, c, hsub, hs'⟩ := Streamer.step_spawn hs
  have hcall : x.streamer.submitter.call = some c := by rw [hsub]; rfl
  have hcalling : x.streamer.calling (.spawn first second) = some c.frame := by
    unfold Streamer.calling
    rw [hcall]
    rfl
  obtain ⟨hmem, hframe⟩ := hx.calling c hcall
  have hun : x.Unmistaken (.spawn first second) ↔
      (x.streamer.spawns first second = false → x.handed.head? = some c.frame) := by
    refine imp_congr_right fun _ => ?_
    simp [hcall]
  cases hspawn : x.streamer.spawns first second with
  | true =>
    have hh := Streamer.spawnSession_handed (c := c) hspawn
    rw [← hs'] at hh
    refine ⟨iff_of_true (faithful_of hs fun _ => sent_ne hh.sent) (hun.2 fun h => ?_), fun _ => ?_⟩
    · rw [hspawn] at h
      cases h
    · rw [eq_of_handed hstep hh.sent hcalling]
      exact tracks_of_idle hh.submitter rfl hmem (hh.frame.trans hframe) (hh.recorded (.inr (.inr rfl)))
  | false =>
    have hd := Streamer.spawnSession_dropped (c := c) hspawn
    rw [← hs'] at hd
    have hiff := faithful_iff hs hcalling hd.submitter hd.sent
    refine ⟨hiff.trans (hun.trans ⟨fun h => h hspawn, fun h _ => h⟩).symm, fun hfaithful => ?_⟩
    have hhead := hiff.1 hfaithful
    rw [eq_of_kept hstep hd.sent]
    refine tracks_of_idle hd.submitter hhead hmem (hd.frame.trans hframe) fun k hk => ?_
    rw [hd.dedup] at hk
    obtain ⟨f, hf, hhash⟩ | ⟨c', hc', hhash⟩ := hx.recorded k hk
    · rw [Option.mem_def, hhead, Option.some_inj] at hf
      exact hf ▸ hhash
    · rw [hcall, Option.mem_some_iff] at hc'
      exact hc' ▸ hhash

/-- A step of another thread drops nothing and breaks no rule. -/
private theorem other_faithful (hx : Tracks S x) (hsubmit : a.submitted = none)
    (hspawn : ∀ first second, a ≠ .spawn first second) (hstep : x.step a = some x') :
    x.Faithful a ∧ x.Unmistaken a ∧ Tracks S x' := by
  have hs := step_streamer hstep
  have hmoved := Streamer.step_unmoved hsubmit hspawn hs
  have hun : x.Unmistaken a := by
    cases a with
    | submit => cases hsubmit
    | spawn first second => exact absurd rfl (hspawn first second)
    | joined => trivial
    | requestKeyframe => trivial
    | feed => trivial
    | feederDied => trivial
    | drain => trivial
    | drainEnded => trivial
  refine ⟨fun s' hs' hidle _ f hf => ?_, hun, eq_of_kept hstep hmoved.sent ▸ hx.unmoved hmoved⟩
  rw [hs, Option.mem_some_iff] at hs'
  subst hs'
  have hcall : x.streamer.submitter.call = none := hmoved.call ▸ Streamer.call_eq_none_iff.2 hidle
  -- outside a call there is no frame that could be dropped
  have hnone : x.streamer.calling a = none := by
    cases a with
    | submit => cases hsubmit
    | spawn first second => exact absurd rfl (hspawn first second)
    | joined => simp [Streamer.calling, hcall]
    | requestKeyframe => rfl
    | feed => rfl
    | feederDied => rfl
    | drain => rfl
    | drainEnded => rfl
  rw [hnone] at hf
  cases hf

private theorem step_faithful (hx : Tracks S x) (hinj : Set.InjOn frameHash S) (ha : ∀ f ∈ a.submitted, f.bgra ∈ S)
    (hstep : x.step a = some x') : (x.Faithful a ↔ x.Unmistaken a) ∧ (x.Faithful a → Tracks S x') := by
  obtain ⟨bgra, w, h, now, rfl⟩ | ⟨first, second, rfl⟩ | ⟨hsubmit, hspawn⟩ := a.cases_submit
  · exact submit_faithful hx hinj (ha _ rfl) hstep
  · exact spawn_faithful hx hstep
  · obtain ⟨hfaithful, hun, hx'⟩ := other_faithful hx hsubmit hspawn hstep
    exact ⟨iff_of_true hfaithful hun, fun _ => hx'⟩

end Tracks

/-- In every run over frames whose hashes differ, a call that returns without handing its frame on was given the frame
handed on last exactly when every step is unmistaken: the hash does not tell two sizes apart, and a failed spawn
leaves its frame recorded as shown. -/
theorem dropped_iff (fps : UInt32) (codec : Codec) (as : List StreamAction)
    (hrun : (Lts.run Streamer.step (.new fps codec) as).isSome)
    (hinj : Set.InjOn frameHash {b | ∃ f ∈ StreamAction.frames as, f.bgra = b}) :
    Lts.Along step Faithful (new fps codec) as ↔ Lts.Along step Unmistaken (new fps codec) as := by
  have hrun' : (Lts.run step (new fps codec) as).isSome := by
    rw [← Option.isSome_map, run_streamer]
    exact hrun
  refine Lts.along_iff_along_while
    (A := fun a => ∀ f ∈ a.submitted, f.bgra ∈ {b | ∃ f ∈ StreamAction.frames as, f.bgra = b})
    (I := Tracks {b | ∃ f ∈ StreamAction.frames as, f.bgra = b}) ?_ ?_ (new_tracks fps codec) ?_ hrun'
  · intro x a x' ha hx hfaithful hstep
    exact (step_faithful hx hinj ha hstep).2 hfaithful
  · intro x a x' ha hx hstep
    exact (step_faithful hx hinj ha hstep).1
  · intro a ha f hf
    exact ⟨f, List.mem_filterMap.2 ⟨a, ha, hf⟩, rfl⟩

/-- A frame that is shown, encoded and flushed. -/
def shown : List StreamAction :=
  [.submit (List.replicate 16 0) 2 2 0, .spawn true true, .submit (List.replicate 16 0) 2 2 1,
    .submit (List.replicate 16 0) 2 2 2]

/-- The same bytes in another mode. -/
def switched : List StreamAction := [.submit (List.replicate 16 0) 4 1 3, .submit (List.replicate 16 0) 4 1 4]

theorem dropped_iff_shown : Lts.Along step Faithful (new 30 .h264)
    (shown ++ [StreamAction.submit (List.replicate 16 1) 4 1 3, .drainEnded, .joined, .spawn true true]) :=
  (dropped_iff 30 .h264 _ (by decide +kernel) (StreamAction.injOn_frames (by decide +kernel))).2 (by decide +kernel)

theorem not_always_faithful : ¬ ∀ (fps : UInt32) (codec : Codec) (as : List StreamAction),
    (Lts.run Streamer.step (.new fps codec) as).isSome → (∀ f ∈ StreamAction.frames as, f.Packed) →
    Set.InjOn frameHash {b | ∃ f ∈ StreamAction.frames as, f.bgra = b} →
    Lts.Along step Faithful (new fps codec) as := by
  intro h
  have hdrop : ¬ Lts.Along step Faithful (new 30 .h264) (shown ++ switched) := by decide +kernel
  exact hdrop (h 30 .h264 _ (by decide +kernel) (by decide +kernel) (StreamAction.injOn_frames (by decide +kernel)))

/-! ### A run of identical frames -/

section Stage

variable {f : BgraFrame} {x y : Watched} {s s' : Streamer} {a : StreamAction} {k p : Nat}

/-- Where the streamer stands in a run of the frame: with the number of times that it is still owed by the call under
way, and the number that further calls hand it on. -/
inductive Stage (f : BgraFrame) (s : Streamer) : Nat → Nat → Prop
  | quiet (hidle : s.submitter = .idle) (hsame : s.dedup.last = some (frameHash f.bgra))
      (hflush : s.pendingFlush = false) : Stage f s 0 0
  | flush (hidle : s.submitter = .idle) (hsame : s.dedup.last = some (frameHash f.bgra))
      (hflush : s.pendingFlush = true) (hreuse : s.Reuses f.w f.h) : Stage f s 0 1
  | encode (hidle : s.submitter = .idle) (hnew : s.dedup.last ≠ some (frameHash f.bgra))
      (hreuse : s.Reuses f.w f.h) : Stage f s 0 2
  | fresh (hidle : s.submitter = .idle) (hnew : s.dedup.last ≠ some (frameHash f.bgra) ∨ s.pendingFlush = true)
      (hreuse : ¬ s.Reuses f.w f.h) : Stage f s 0 3
  | spawning (c : StreamCall) (hcall : s.submitter.call = some c) (hf : c.frame = f) (hseed : c.resume ≠ .seed)
      (hforce : s.forceRespawn = false) : Stage f s 1 2

private theorem Stage.unmoved (hst : Stage f s p k) (hs : Streamer.Unmoved s a s') (hq : s.Undisturbed a) :
    Stage f s' p k := by
  have hidle' : s.submitter = .idle → s'.submitter = .idle := fun h =>
    Streamer.call_eq_none_iff.1 (hs.call.trans (Streamer.call_eq_none_iff.2 h))
  have hreuse' := hs.reuses hq f.w f.h
  cases hst with
  | quiet hidle hsame hflush => exact .quiet (hidle' hidle) (hs.dedup ▸ hsame) (hs.pendingFlush.trans hflush)
  | flush hidle hsame hflush hreuse =>
    exact .flush (hidle' hidle) (hs.dedup ▸ hsame) (hs.pendingFlush.trans hflush) (hreuse'.2 hreuse)
  | encode hidle hnew hreuse => exact .encode (hidle' hidle) (hs.dedup ▸ hnew) (hreuse'.2 hreuse)
  | fresh hidle hnew hreuse =>
    refine .fresh (hidle' hidle) ?_ fun h => hreuse (hreuse'.1 h)
    rw [hs.dedup, hs.pendingFlush]
    exact hnew
  | spawning c hcall hf hseed hforce =>
    exact .spawning c (hs.call.trans hcall) hf hseed (hs.forceRespawn.trans hforce)

/-- A session that is up is kept for the next frame of its size. -/
private theorem handed_reuses {c : StreamCall} (hh : Streamer.Handed c s s') (hforce : s.forceRespawn = false) :
    s'.Reuses c.w c.h :=
  ⟨hh.forceRespawn.trans hforce, hh.session⟩

/-- What a call for the frame makes of a stage: the frame is handed on now, owed, or not wanted. -/
private theorem Stage.submitBgra (hst : Stage f s p k) (hidle : s.submitter = .idle)
    (hrequest : s.keyframeRequested = false) (now : Nat) :
    ∃ p', Stage f (s.submitBgra f.bgra f.w f.h now) p' (k - 1) ∧
      ((s.submitBgra f.bgra f.w f.h now).sent = s.sent ∧ p' = min k 1 ∨
        (s.submitBgra f.bgra f.w f.h now).sent = s.sent + 1 ∧ p' = 0 ∧ 0 < k) := by
  have hdue : (s.keyframeRequested && s.due now) = false := by rw [hrequest]; rfl
  rw [Streamer.submitBgra_encodeOrSkip hdue]
  cases hst with
  | quiet _ hsame hflush =>
    rw [Streamer.encodeOrSkip_same (s := { s with frame := some (f.w, f.h) }) hsame]
    dsimp only
    rw [hflush, if_neg Bool.false_ne_true]
    exact ⟨0, .quiet hidle hsame rfl, .inl ⟨rfl, rfl⟩⟩
  | flush _ hsame hflush hreuse =>
    rw [Streamer.encodeOrSkip_same (s := { s with frame := some (f.w, f.h) }) hsame]
    dsimp only
    rw [hflush, if_pos rfl]
    have hh := Streamer.ensureEncoder_reuses (c := ⟨f.bgra, f.w, f.h, .flush⟩)
      (s := { s with frame := some (f.w, f.h), skipped := s.skipped + 1, pendingFlush := false }) hreuse
    exact ⟨0, .quiet hh.submitter (hh.dedup.trans hsame) hh.pendingFlush, .inr ⟨hh.sent, rfl, Nat.one_pos⟩⟩
  | encode _ hnew hreuse =>
    rw [Streamer.encodeOrSkip_encode (s := { s with frame := some (f.w, f.h) }) hnew]
    have hh := Streamer.ensureEncoder_reuses (c := ⟨f.bgra, f.w, f.h, .encode⟩)
      (s := { s with frame := some (f.w, f.h), dedup := ⟨some (frameHash f.bgra)⟩ }) hreuse
    exact ⟨0, .flush hh.submitter hh.dedup hh.pendingFlush (handed_reuses hh hreuse.1),
      .inr ⟨hh.sent, rfl, Nat.two_pos⟩⟩
  | fresh _ hnew hreuse =>
    by_cases hsame : s.dedup.last = some (frameHash f.bgra)
    · have hflush : s.pendingFlush = true := hnew.resolve_left fun h => h hsame
      rw [Streamer.encodeOrSkip_same (s := { s with frame := some (f.w, f.h) }) hsame]
      dsimp only
      rw [hflush, if_pos rfl]
      have hw := Streamer.ensureEncoder_respawns (c := ⟨f.bgra, f.w, f.h, .flush⟩)
        (s := { s with frame := some (f.w, f.h), skipped := s.skipped + 1, pendingFlush := false }) hreuse
      exact ⟨1, .spawning _ hw.call rfl (fun h => by cases h) hw.forceRespawn, .inl ⟨hw.sent, rfl⟩⟩
    · rw [Streamer.encodeOrSkip_encode (s := { s with frame := some (f.w, f.h) }) hsame]
      have hw := Streamer.ensureEncoder_respawns (c := ⟨f.bgra, f.w, f.h, .encode⟩)
        (s := { s with frame := some (f.w, f.h), dedup := ⟨some (frameHash f.bgra)⟩ }) hreuse
      exact ⟨1, .spawning _ hw.call rfl (fun h => by cases h) hw.forceRespawn, .inl ⟨hw.sent, rfl⟩⟩
  | spawning c hcall =>
    rw [Streamer.call_eq_none_iff.2 hidle] at hcall
    cases hcall

/-- The number of calls that a step makes. -/
def calls (a : StreamAction) : Nat := a.submitted.toList.length

theorem Stage.submit (hst : Stage f x.streamer p k) {now : Nat}
    (hq : x.streamer.Undisturbed (.submit f.bgra f.w f.h now))
    (hstep : x.step (.submit f.bgra f.w f.h now) = some y) :
    ∃ p', Stage f y.streamer p' (k - 1) ∧ y.handed.length + p' = x.handed.length + p + min k 1 := by
  have hs := step_streamer hstep
  obtain ⟨hidle, hs'⟩ := Streamer.step_submit hs
  have hp : p = 0 := by
    cases hst with
    | spawning c hcall =>
      rw [Streamer.call_eq_none_iff.2 hidle] at hcall
      cases hcall
    | quiet => rfl
    | flush => rfl
    | encode => rfl
    | fresh => rfl
  obtain ⟨p', hst', h⟩ := hst.submitBgra hidle hq now
  rw [← hs'] at hst' h
  refine ⟨p', hst', ?_⟩
  rcases h with ⟨hsent, rfl⟩ | ⟨hsent, rfl, hk⟩
  · rw [eq_of_kept hstep hsent, hp]
    rfl
  · rw [eq_of_handed hstep hsent rfl, List.length_cons]
    omega

private theorem Stage.spawn (hst : Stage f x.streamer p k) {first second : Bool}
    (hq : x.streamer.Undisturbed (.spawn first second)) (hstep : x.step (.spawn first second) = some y) :
    ∃ p', Stage f y.streamer p' k ∧ y.handed.length + p' = x.handed.length + p := by
  have hs := step_streamer hstep
  obtain ⟨replaced, c, hsub, hs'⟩ := Streamer.step_spawn hs
  have hcall : x.streamer.submitter.call = some c := by rw [hsub]; rfl
  have hnidle : x.streamer.submitter ≠ .idle := by
    rw [hsub]
    exact fun h => by cases h
  cases hst with
  | quiet hidle => exact absurd hidle hnidle
  | flush hidle => exact absurd hidle hnidle
  | encode hidle => exact absurd hidle hnidle
  | fresh hidle => exact absurd hidle hnidle
  | spawning c' hcall' hf hseed hforce =>
    rw [hcall, Option.some_inj] at hcall'
    subst hcall' hf
    have hh := Streamer.spawnSession_handed (c := c) hq
    rw [← hs'] at hh
    have hcalling : x.streamer.calling (.spawn first second) = some c.frame := by
      unfold Streamer.calling
      rw [hcall]
      rfl
    refine ⟨0, .encode hh.submitter ?_ (handed_reuses hh hforce), ?_⟩
    · rw [hh.dedup, if_neg hseed]
      exact (Option.some_ne_none _).symm
    · rw [eq_of_handed hstep hh.sent hcalling]
      rfl

theorem Stage.other (hst : Stage f x.streamer p k) (hq : x.streamer.Undisturbed a) (hsubmit : a.submitted = none)
    (hspawn : ∀ first second, a ≠ .spawn first second) (hstep : x.step a = some y) :
    ∃ p', Stage f y.streamer p' k ∧ y.handed.length + p' = x.handed.length + p := by
  have hmoved := Streamer.step_unmoved hsubmit hspawn (step_streamer hstep)
  rw [eq_of_kept hstep hmoved.sent]
  exact ⟨p, hst.unmoved hmoved hq, rfl⟩

private theorem Stage.step (hst : Stage f x.streamer p k) (hq : x.streamer.Undisturbed a)
    (ha : ∀ g ∈ a.submitted, g = f) (hstep : x.step a = some y) :
    ∃ p', Stage f y.streamer p' (k - calls a) ∧ y.handed.length + p' = x.handed.length + p + min k (calls a) := by
  have hquiet : calls a = 0 → (∃ p', Stage f y.streamer p' k ∧ y.handed.length + p' = x.handed.length + p) →
      ∃ p', Stage f y.streamer p' (k - calls a) ∧ y.handed.length + p' = x.handed.length + p + min k (calls a) := by
    intro hcalls h
    rw [hcalls, Nat.sub_zero, Nat.min_zero, Nat.add_zero]
    exact h
  obtain ⟨bgra, w, h, now, rfl⟩ | ⟨first, second, rfl⟩ | ⟨hsubmit, hspawn⟩ := a.cases_submit
  · obtain rfl := ha _ rfl
    exact hst.submit hq hstep
  · exact hquiet rfl (hst.spawn hq hstep)
  · refine hquiet ?_ (hst.other hq hsubmit hspawn hstep)
    rw [calls, hsubmit]
    rfl

/-- Over a run of the frame, the calls hand on what the stage says. -/
theorem Stage.run {as : List StreamAction} (hst : Stage f x.streamer p k)
    (hsame : ∀ g ∈ StreamAction.frames as, g = f) (hq : Lts.Along Watched.step (fun x => x.streamer.Undisturbed) x as)
    (hrun : Lts.run Watched.step x as = some y) :
    ∃ p', Stage f y.streamer p' (k - (StreamAction.frames as).length) ∧
      y.handed.length + p' = x.handed.length + p + min k (StreamAction.frames as).length := by
  induction as generalizing x p k with
  | nil =>
    cases hrun
    exact ⟨p, hst, by simp [StreamAction.frames]⟩
  | cons a as ih =>
    rw [Lts.run_cons] at hrun
    obtain ⟨x', hx', hrun'⟩ := Option.bind_eq_some_iff.1 hrun
    have hlen : (StreamAction.frames (a :: as)).length = calls a + (StreamAction.frames as).length := by
      unfold StreamAction.frames calls
      cases ha : a.submitted with
      | none => simp [ha]
      | some g =>
        simp [ha]
        omega
    have hhead : ∀ g ∈ a.submitted, g = f := fun g hg =>
      hsame g (List.mem_filterMap.2 ⟨a, List.mem_cons_self, hg⟩)
    have htail : ∀ g ∈ StreamAction.frames as, g = f := by
      intro g hg
      obtain ⟨b, hb, hg⟩ := List.mem_filterMap.1 hg
      exact hsame g (List.mem_filterMap.2 ⟨b, List.mem_cons_of_mem a hb, hg⟩)
    obtain ⟨q, hst', heq⟩ := hst.step hq.1 hhead hx'
    obtain ⟨q', hst'', heq'⟩ := ih hst' htail (hq.2 x' hx') hrun'
    refine ⟨q', ?_, ?_⟩
    · rw [hlen, ← Nat.sub_sub]
      exact hst''
    · rw [hlen]
      omega

/-- Between two calls the streamer is at some stage; it is one of the last two exactly when it notices the frame. -/
private theorem stage_of_idle (f : BgraFrame) (hidle : s.submitter = .idle) :
    ∃ k ≤ 3, Stage f s 0 k ∧ (2 ≤ k ↔ s.Notices f) := by
  unfold Streamer.Notices
  by_cases hsame : s.dedup.last = some (frameHash f.bgra)
  · cases hflush : s.pendingFlush with
    | false => exact ⟨0, by omega, .quiet hidle hsame hflush, by simp [hsame]⟩
    | true =>
      by_cases hreuse : s.Reuses f.w f.h
      · exact ⟨1, by omega, .flush hidle hsame hflush hreuse, by simp [hsame, hreuse]⟩
      · exact ⟨3, by omega, .fresh hidle (.inr hflush) hreuse, by simp [hreuse]⟩
  · by_cases hreuse : s.Reuses f.w f.h
    · exact ⟨2, by omega, .encode hidle hsame hreuse, by simp [hsame]⟩
    · exact ⟨3, by omega, .fresh hidle (.inl hsame) hreuse, by simp [hsame]⟩

/-- Only the first call of the run can be waiting for its session. -/
private theorem Stage.owed (hst : Stage f s p k) : p = 0 ∨ p = 1 ∧ k = 2 := by
  cases hst with
  | quiet => exact .inl rfl
  | flush => exact .inl rfl
  | encode => exact .inl rfl
  | fresh => exact .inl rfl
  | spawning => exact .inr ⟨rfl, rfl⟩

end Stage

/-- Of `n` frames at most three have been handed on, and of two or more at least two. -/
def Economical (x y : Watched) (n : Nat) : Prop :=
  y.handed.length ≤ x.handed.length + 3 ∧ (2 ≤ n → x.handed.length + 2 ≤ y.handed.length)

instance (x y : Watched) (n : Nat) : Decidable (x.Economical y n) :=
  inferInstanceAs (Decidable
    (y.handed.length ≤ x.handed.length + 3 ∧ (2 ≤ n → x.handed.length + 2 ≤ y.handed.length)))

section Run

variable {x y : Watched} {f : BgraFrame} {n : Nat} {as : List StreamAction}

/-- How many of the frames of an undisturbed run are handed on: a number that the first one decides. -/
private theorem run_handed (hidle : x.streamer.submitter = .idle)
    (hsame : StreamAction.frames as = List.replicate n f)
    (hquiet : Lts.Along step (fun x => x.streamer.Undisturbed) x as) (hrun : Lts.run step x as = some y) :
    ∃ k ≤ 3, (2 ≤ k ↔ x.streamer.Notices f) ∧ y.handed.length ≤ x.handed.length + min k n ∧
      (2 ≤ n → y.handed.length = x.handed.length + min k n) := by
  obtain ⟨k, hk, hst, hnotices⟩ := stage_of_idle f hidle
  have hmem : ∀ g ∈ StreamAction.frames as, g = f := by
    intro g hg
    rw [hsame] at hg
    exact List.eq_of_mem_replicate hg
  have hlen : (StreamAction.frames as).length = n := by rw [hsame, List.length_replicate]
  obtain ⟨p, hst', heq⟩ := hst.run hmem hquiet hrun
  rw [hlen] at hst' heq
  refine ⟨k, hk, hnotices, by omega, fun hn => ?_⟩
  rcases hst'.owed with h | ⟨-, h⟩
  · omega
  · omega

private theorem handed_le_three (hidle : x.streamer.submitter = .idle)
    (hsame : StreamAction.frames as = List.replicate n f)
    (hquiet : Lts.Along step (fun x => x.streamer.Undisturbed) x as) (hrun : Lts.run step x as = some y) :
    y.handed.length ≤ x.handed.length + 3 := by
  obtain ⟨k, hk, -, hle, -⟩ := run_handed hidle hsame hquiet hrun
  omega

/-- From any state between two calls, an undisturbed run of identical frames, maximal or not, hands on two or three of
them exactly when the first one is noticed. -/
theorem idle_iff (hidle : x.streamer.submitter = .idle) (hsame : StreamAction.frames as = List.replicate n f)
    (hquiet : Lts.Along step (fun x => x.streamer.Undisturbed) x as) (hrun : Lts.run step x as = some y) :
    x.Economical y n ↔ (2 ≤ n → x.streamer.Notices f) := by
  obtain ⟨k, hk, hnotices, -, heq⟩ := run_handed hidle hsame hquiet hrun
  constructor
  · rintro ⟨-, hlow⟩ hn
    have h₁ := hlow hn
    have h₂ := heq hn
    exact hnotices.1 (by omega)
  · intro h
    refine ⟨handed_le_three hidle hsame hquiet hrun, fun hn => ?_⟩
    have h₁ := hnotices.2 (h hn)
    have h₂ := heq hn
    omega

end Run

theorem idle_iff_shown :
    ∃ y, Lts.run step (new 30 .h264) shown = some y ∧ (new 30 .h264).Economical y 3 := by
  have hrun : (Lts.run step (new 30 .h264) shown).isSome := by decide +kernel
  obtain ⟨y, hy⟩ := Option.isSome_iff_exists.1 hrun
  refine ⟨y, hy, (idle_iff (f := ⟨List.replicate 16 0, 2, 2⟩) rfl rfl (by decide +kernel) hy).2 fun _ => .inl ?_⟩
  exact (Option.some_ne_none _).symm

/-- A maximal run of the frame, between what comes before and after it. -/
structure MaximalRun (before as after : List StreamAction) (f : BgraFrame) (n : Nat) : Prop where
  same : StreamAction.frames as = List.replicate n f
  before : (StreamAction.frames before).getLast? ≠ some f
  after : (StreamAction.frames after).head? ≠ some f

/-- In another mode the same bytes are skipped from the first frame on. -/
theorem not_always_economical : ¬ ∀ (fps : UInt32) (codec : Codec) (before as after : List StreamAction)
    (f : BgraFrame) (n : Nat) (x y : Watched), MaximalRun before as after f n → f.Packed →
    Lts.run step (new fps codec) before = some x → x.streamer.submitter = .idle → Lts.run step x as = some y →
    (Lts.run step y after).isSome → Lts.Along step (fun x => x.streamer.Undisturbed) x as → x.Economical y n := by
  intro h
  have hrun : (Lts.run step (new 30 .h264) shown).isSome := by decide +kernel
  have hidle : ∀ x ∈ Lts.run step (new 30 .h264) shown, x.streamer.submitter = .idle := by decide +kernel
  have hquiet : ∀ x ∈ Lts.run step (new 30 .h264) shown,
      Lts.Along step (fun x => x.streamer.Undisturbed) x switched := by decide +kernel
  have hrun' : ∀ x ∈ Lts.run step (new 30 .h264) shown, (Lts.run step x switched).isSome := by decide +kernel
  have hfew : ∀ x ∈ Lts.run step (new 30 .h264) shown, ∀ y ∈ Lts.run step x switched, ¬ x.Economical y 2 := by
    decide +kernel
  obtain ⟨x, hx⟩ := Option.isSome_iff_exists.1 hrun
  obtain ⟨y, hy⟩ := Option.isSome_iff_exists.1 (hrun' x hx)
  have hmax : MaximalRun shown switched [] ⟨List.replicate 16 0, 4, 1⟩ 2 :=
    ⟨rfl, by decide +kernel, by decide +kernel⟩
  exact hfew x hx y hy (h 30 .h264 shown switched [] _ 2 x y hmax (by decide) hx (hidle x hx) hy rfl (hquiet x hx))

end Watched

end Infinigpu
