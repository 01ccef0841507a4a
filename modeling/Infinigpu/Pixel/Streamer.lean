import Infinigpu.Pixel.Joiner

/-!
# The streamer (`infinigpu-pixel`, `PixelStreamer`)

`submit_bgra` keeps one encoder session, sized to the frames, and replaces it when the size changes, when it has died
or when a client has asked for a keyframe.  The drain thread of a session broadcasts what the encoder puts out, and
the hub caches the last keyframe for the clients that join later.

* `Streamer.step`: the calls of `submit_bgra`, cut where another thread can come in between, the two threads of
  the session and the requests of the hub;
* `Streamer.Current`: between two calls the cached keyframe comes from a session of the size of the last frame;
* `Streamer.keyframe_current_iff`: the runs in which it does.  A replaced session takes its keyframe with it when
  the size changes; a session that is gone, after a failed respawn, and a skipped frame of another size do not.
-/

namespace Infinigpu

namespace Proto
def version : UInt8 := 1
def keyframe : UInt8 := 1
end Proto

inductive Codec where
  | h264
  | hevc
  deriving DecidableEq

def Codec.wire : Codec → UInt8
  | .h264 => 1
  | .hevc => 2

/-- An access unit of the encoder. -/
structure EncodedAu where
  data : List UInt8
  keyframe : Bool
  seq : UInt64

structure FrameHeader where
  flags : UInt8
  codec : UInt8
  frameSeq : UInt32
  width : UInt16
  height : UInt16
  ptsUs : UInt64
  payloadLen : UInt32

namespace FrameHeader

def toBytes (h : FrameHeader) : List UInt8 :=
  [Bytes.ofValue 4 Proto.magic.toNat, [Proto.version, h.flags, h.codec, 0], Bytes.ofValue 4 h.frameSeq.toNat,
    Bytes.ofValue 2 h.width.toNat, Bytes.ofValue 2 h.height.toNat, Bytes.ofValue 8 h.ptsUs.toNat,
    Bytes.ofValue 4 h.payloadLen.toNat, [0, 0, 0, 0]].flatten

def message (h : FrameHeader) (au : List UInt8) : List UInt8 := h.toBytes ++ au

end FrameHeader

/-- A message of the stream, and the size of the session that encoded it. -/
structure Streamed where
  w : UInt32
  h : UInt32
  msg : List UInt8
  deriving DecidableEq

/-! ### Idle-skip -/

def fnvPrime : UInt64 := 0x100000001b3

/-- The hash of `frame_hash` from a state on: by words of eight bytes, the remainder by bytes. -/
def frameHashFrom (h : UInt64) : List UInt8 → UInt64
  | b0 :: b1 :: b2 :: b3 :: b4 :: b5 :: b6 :: b7 :: rest =>
    frameHashFrom ((h ^^^ Bytes.u64 [b0, b1, b2, b3, b4, b5, b6, b7]) * fnvPrime) rest
  | rest => rest.foldl (fun h x => (h ^^^ x.toUInt64) * fnvPrime) h

def frameHash (b : List UInt8) : UInt64 := frameHashFrom 0xcbf29ce484222325 b

/-- The hash of the last frame seen. -/
structure Deduper where
  last : Option UInt64

/-- Whether the frame differs from the last one; it is recorded. -/
def Deduper.changed (d : Deduper) (bgra : List UInt8) : Bool × Deduper :=
  if d.last = some (frameHash bgra) then (false, d) else (true, ⟨some (frameHash bgra)⟩)

/-! ### The streamer -/

structure EncoderSession where
  w : UInt32
  h : UInt32
  hardware : Bool
  /-- The frame in the mailbox of the feeder. -/
  pending : Option (List UInt8)
  alive : Bool
  produced : UInt64
  /-- The drain thread is still running. -/
  draining : Bool
  deriving DecidableEq

/-- What `submit_bgra` does once it has an encoder. -/
inductive Resume where
  /-- A requested keyframe: the frame is the new baseline. -/
  | seed
  /-- An unchanged frame that pushes out the one before. -/
  | flush
  | encode
  deriving DecidableEq

/-- A call of `submit_bgra` that is in `ensure_encoder`. -/
structure StreamCall where
  bgra : List UInt8
  w : UInt32
  h : UInt32
  resume : Resume
  deriving DecidableEq

/-- Where the thread that submits frames stands. -/
inductive Submitter where
  | idle
  /-- Joining the threads of the old session. -/
  | closing (old : EncoderSession) (died : Bool) (sizeChanged : Bool) (call : StreamCall)
  /-- About to spawn an encoder; `replaced` says that there was one. -/
  | spawning (replaced : Bool) (call : StreamCall)
  deriving DecidableEq

/-- The streamer and its hub: the hub is what has taken effect on it (`Hub.log`). -/
structure Streamer where
  fps : UInt32
  codec : Codec
  enc : Option EncoderSession
  hardwareFailed : Bool
  dedup : Deduper
  pendingFlush : Bool
  forceRespawn : Bool
  lastForcedIdr : Option Nat
  sent : UInt64
  skipped : UInt64
  keyframeRequested : Bool
  log : List (HubEvent Streamed)
  submitter : Submitter
  /-- The size of the frame submitted last. -/
  frame : Option (UInt32 × UInt32)

/-- `MIN_FORCED_IDR_INTERVAL`, in nanoseconds. -/
def minForcedIdrInterval : Nat := 500000000

inductive StreamAction where
  | submit (bgra : List UInt8) (w h : UInt32) (now : Nat)
  /-- Both threads of the old session have ended. -/
  | joined
  /-- The outcomes of the first spawn and of the one in software after it. -/
  | spawn (first second : Bool)
  /-- A client has registered. -/
  | requestKeyframe
  /-- The feeder takes the frame of its mailbox. -/
  | feed
  /-- The feeder cannot write to the encoder. -/
  | feederDied
  /-- The drain thread broadcasts an access unit. -/
  | drain (au : EncodedAu)
  /-- The encoder has exited. -/
  | drainEnded

namespace Streamer

def new (fps : UInt32) (codec : Codec) : Streamer where
  fps := fps
  codec := codec
  enc := none
  hardwareFailed := false
  dedup := ⟨none⟩
  pendingFlush := false
  forceRespawn := false
  lastForcedIdr := none
  sent := 0
  skipped := 0
  keyframeRequested := false
  log := []
  submitter := .idle
  frame := none

/-- The keyframe that the hub holds. -/
def cached (s : Streamer) : Option Streamed := HubEvent.keyframeOf s.log

/-- The message of an access unit. -/
def framed (s : Streamer) (e : EncoderSession) (au : EncodedAu) : Streamed :=
  let hdr : FrameHeader :=
    { flags := if au.keyframe then Proto.keyframe else 0
      codec := s.codec.wire
      frameSeq := au.seq.toUInt32
      width := e.w.toUInt16
      height := e.h.toUInt16
      ptsUs := au.seq * (1000000 / (max s.fps 1).toUInt64)
      payloadLen := UInt32.ofNat au.data.length }
  ⟨e.w, e.h, hdr.message au.data⟩

def push (s : Streamer) (bgra : List UInt8) : Streamer :=
  match s.enc with
  | some e => { s with sent := s.sent + 1, enc := some { e with pending := some bgra } }
  | none => s

/-- The rest of `submit_bgra`, which then returns. -/
def resume (s : Streamer) (c : StreamCall) : Streamer :=
  let s := { s with submitter := .idle }
  match c.resume with
  | .seed => { s with dedup := (s.dedup.changed c.bgra).2, pendingFlush := true }.push c.bgra
  | .flush => s.push c.bgra
  | .encode => { s with pendingFlush := true }.push c.bgra

/-- `ensure_encoder`, up to the teardown of the old session or to the spawn. -/
def ensureEncoder (s : Streamer) (c : StreamCall) : Streamer :=
  let force := s.forceRespawn
  let s := { s with forceRespawn := false }
  match s.enc with
  | some e =>
    if force = false ∧ e.w = c.w ∧ e.h = c.h ∧ e.alive = true then
      s.resume c
    else
      { s with
        enc := none
        submitter := .closing { e with pending := none } (!e.alive) (e.w != c.w || e.h != c.h) c }
  | none => { s with submitter := .spawning false c }

/-- Whether a request for a keyframe may respawn the encoder now. -/
def due (s : Streamer) (now : Nat) : Bool :=
  match s.lastForcedIdr with
  | some t => minForcedIdrInterval ≤ now - t
  | none => true

/-- `submit_bgra` without a keyframe that is due. -/
def encodeOrSkip (s : Streamer) (bgra : List UInt8) (w h : UInt32) : Streamer :=
  let r := s.dedup.changed bgra
  let s := { s with dedup := r.2 }
  if r.1 then
    s.ensureEncoder ⟨bgra, w, h, .encode⟩
  else
    let s := { s with skipped := s.skipped + 1 }
    if s.pendingFlush then
      { s with pendingFlush := false }.ensureEncoder ⟨bgra, w, h, .flush⟩
    else
      s

def submitBgra (s : Streamer) (bgra : List UInt8) (w h : UInt32) (now : Nat) : Streamer :=
  let s := { s with frame := some (w, h) }
  if s.keyframeRequested && s.due now then
    { s with keyframeRequested := false, lastForcedIdr := some now, forceRespawn := true }.ensureEncoder
      ⟨bgra, w, h, .seed⟩
  else
    -- a request that is not due stays pending
    s.encodeOrSkip bgra w h

/-- The old session is gone: a hardware encoder that died without output is not tried again, and a keyframe of another
size is forgotten. -/
def retire (s : Streamer) (old : EncoderSession) (died sizeChanged : Bool) (c : StreamCall) : Streamer :=
  { s with
    hardwareFailed := s.hardwareFailed || (old.hardware && died && old.produced == 0)
    log := if sizeChanged then s.log ++ [.resetKeyframe] else s.log
    submitter := .spawning true c }

/-- A fresh session, and the rest of the call. -/
def install (s : Streamer) (c : StreamCall) (hardware : Bool) : Streamer :=
  { s with
    enc := some ⟨c.w, c.h, hardware, none, true, 0, true⟩
    dedup := ⟨none⟩
    pendingFlush := false }.resume c

def spawnSession (s : Streamer) (c : StreamCall) (first second : Bool) : Streamer :=
  if first then
    s.install c (!s.hardwareFailed)
  else if s.hardwareFailed then
    -- the call returns the error
    { s with submitter := .idle }
  else if second then
    { s with hardwareFailed := true }.install c false
  else
    { s with hardwareFailed := true, submitter := .idle }

/-- The broadcast of an access unit, the keyframe cached with it. -/
def broadcast (s : Streamer) (e : EncoderSession) (au : EncodedAu) : Streamer :=
  { s with log := s.log ++ [.broadcast (s.framed e au) au.keyframe] }

/-- What a thread of the session does to it. -/
def withSession (s : Streamer) (f : EncoderSession → EncoderSession) : Streamer :=
  { s with enc := s.enc.map f }

def step (s : Streamer) : StreamAction → Option Streamer
  | .submit bgra w h now =>
    match s.submitter with
    | .idle => some (s.submitBgra bgra w h now)
    | _ => none
  | .joined =>
    match s.submitter with
    | .closing old died sizeChanged c => if old.draining then none else some (s.retire old died sizeChanged c)
    | _ => none
  | .spawn first second =>
    match s.submitter with
    | .spawning _ c => some (s.spawnSession c first second)
    | _ => none
  | .requestKeyframe => some { s with keyframeRequested := true }
  | .feed => some (s.withSession fun e => { e with pending := none })
  | .feederDied => some (s.withSession fun e => { e with alive := false })
  | .drain au =>
    match s.submitter, s.enc with
    | .closing old died sizeChanged c, _ =>
      if old.draining then
        some { s.broadcast old au with
          submitter := .closing { old with produced := old.produced + 1 } died sizeChanged c }
      else
        none
    | _, some e =>
      if e.draining then
        some ((s.broadcast e au).withSession fun e => { e with produced := e.produced + 1 })
      else
        none
    | _, none => none
  | .drainEnded =>
    match s.submitter with
    | .closing old died sizeChanged c =>
      some { s with submitter := .closing { old with draining := false, alive := false } died sizeChanged c }
    | _ => some (s.withSession fun e => { e with draining := false, alive := false })

/-! ### What a step does -/

section Effects

variable {s s' : Streamer}

@[simp] theorem push_log (bgra : List UInt8) : (s.push bgra).log = s.log := by
  unfold push
  cases s.enc <;> rfl

@[simp] theorem push_frame (bgra : List UInt8) : (s.push bgra).frame = s.frame := by
  unfold push
  cases s.enc <;> rfl

@[simp] theorem push_submitter (bgra : List UInt8) : (s.push bgra).submitter = s.submitter := by
  unfold push
  cases s.enc <;> rfl

private theorem push_enc (bgra : List UInt8) :
    (s.push bgra).enc = s.enc.map fun e => { e with pending := some bgra } := by
  unfold push
  cases h : s.enc with
  | none => exact h
  | some e => rfl

@[simp] theorem resume_log (c : StreamCall) : (s.resume c).log = s.log := by
  unfold resume
  cases c.resume <;> exact push_log _

@[simp] theorem resume_frame (c : StreamCall) : (s.resume c).frame = s.frame := by
  unfold resume
  cases c.resume <;> exact push_frame _

@[simp] theorem resume_submitter (c : StreamCall) : (s.resume c).submitter = .idle := by
  unfold resume
  cases c.resume <;> exact push_submitter _

private theorem resume_enc (c : StreamCall) :
    (s.resume c).enc = s.enc.map fun e => { e with pending := some c.bgra } := by
  unfold resume
  cases c.resume <;> exact push_enc _

/-- What `ensure_encoder` comes to: a live session of the right size is kept, another one is torn down, and without
one an encoder is spawned. -/
inductive Ensured (enc : Option EncoderSession) (c : StreamCall) (s' : Streamer) : Prop where
  | kept (e : EncoderSession) (henc : enc = some e) (hw : e.w = c.w) (hh : e.h = c.h)
      (hsub : s'.submitter = .idle) (henc' : s'.enc = some { e with pending := some c.bgra })
  | torn (e : EncoderSession) (henc : enc = some e)
      (hsub : s'.submitter = .closing { e with pending := none } (!e.alive) (e.w != c.w || e.h != c.h) c)
      (henc' : s'.enc = none)
  | absent (henc : enc = none) (hsub : s'.submitter = .spawning false c) (henc' : s'.enc = none)

private theorem ensureEncoder_spec (c : StreamCall) :
    (s.ensureEncoder c).log = s.log ∧ (s.ensureEncoder c).frame = s.frame ∧ Ensured s.enc c (s.ensureEncoder c) := by
  unfold ensureEncoder
  dsimp only
  cases henc : s.enc with
  | none =>
    dsimp only
    exact ⟨rfl, rfl, .absent rfl rfl rfl⟩
  | some e =>
    dsimp only
    by_cases hlive : s.forceRespawn = false ∧ e.w = c.w ∧ e.h = c.h ∧ e.alive = true
    · rw [if_pos hlive]
      refine ⟨resume_log c, resume_frame c, .kept e rfl hlive.2.1 hlive.2.2.1 (resume_submitter c) ?_⟩
      rw [resume_enc]
      rfl
    · rw [if_neg hlive]
      exact ⟨rfl, rfl, .torn e rfl rfl rfl⟩

/-- The frame is the last one again and there is nothing to push out. -/
def idles (s : Streamer) (bgra : List UInt8) : Bool := !(s.dedup.changed bgra).1 && !s.pendingFlush

/-- The call returns without a look at the encoder. -/
def skips (s : Streamer) (bgra : List UInt8) (now : Nat) : Bool :=
  !(s.keyframeRequested && s.due now) && s.idles bgra

private theorem encodeOrSkip_spec (bgra : List UInt8) (w h : UInt32) :
    (s.encodeOrSkip bgra w h).log = s.log ∧ (s.encodeOrSkip bgra w h).frame = s.frame ∧
    (s.idles bgra = true ∧ (s.encodeOrSkip bgra w h).enc = s.enc ∧
        (s.encodeOrSkip bgra w h).submitter = s.submitter ∨
      s.idles bgra = false ∧ ∃ c : StreamCall, c.w = w ∧ c.h = h ∧ Ensured s.enc c (s.encodeOrSkip bgra w h)) := by
  unfold encodeOrSkip idles
  dsimp only
  cases hchanged : (s.dedup.changed bgra).1 with
  | true =>
    rw [if_pos rfl]
    obtain ⟨hlog, hframe, hens⟩ :=
      ensureEncoder_spec (s := { s with dedup := (s.dedup.changed bgra).2 }) ⟨bgra, w, h, .encode⟩
    exact ⟨hlog, hframe, .inr ⟨rfl, _, rfl, rfl, hens⟩⟩
  | false =>
    rw [if_neg Bool.false_ne_true]
    cases hflush : s.pendingFlush with
    | true =>
      rw [if_pos rfl]
      obtain ⟨hlog, hframe, hens⟩ := ensureEncoder_spec
        (s := { s with dedup := (s.dedup.changed bgra).2, skipped := s.skipped + 1, pendingFlush := false })
        ⟨bgra, w, h, .flush⟩
      exact ⟨hlog, hframe, .inr ⟨rfl, _, rfl, rfl, hens⟩⟩
    | false =>
      rw [if_neg Bool.false_ne_true]
      exact ⟨rfl, rfl, .inl ⟨rfl, rfl, rfl⟩⟩

theorem submitBgra_spec (bgra : List UInt8) (w h : UInt32) (now : Nat) :
    (s.submitBgra bgra w h now).log = s.log ∧ (s.submitBgra bgra w h now).frame = some (w, h) ∧
    (s.skips bgra now = true ∧ (s.submitBgra bgra w h now).enc = s.enc ∧
        (s.submitBgra bgra w h now).submitter = s.submitter ∨
      s.skips bgra now = false ∧ ∃ c : StreamCall, c.w = w ∧ c.h = h ∧
        Ensured s.enc c (s.submitBgra bgra w h now)) := by
  have hdue : ({ s with frame := some (w, h) } : Streamer).due now = s.due now := rfl
  unfold submitBgra skips
  dsimp only
  rw [hdue]
  cases s.keyframeRequested && s.due now with
  | true =>
    rw [if_pos rfl]
    obtain ⟨hlog, hframe, hens⟩ := ensureEncoder_spec
      (s := { s with
        frame := some (w, h), keyframeRequested := false, lastForcedIdr := some now, forceRespawn := true })
      ⟨bgra, w, h, .seed⟩
    exact ⟨hlog, hframe, .inr ⟨rfl, _, rfl, rfl, hens⟩⟩
  | false =>
    rw [if_neg Bool.false_ne_true]
    exact encodeOrSkip_spec (s := { s with frame := some (w, h) }) bgra w h

theorem spawnSession_spec (c : StreamCall) (first second : Bool) :
    (s.spawnSession c first second).log = s.log ∧ (s.spawnSession c first second).frame = s.frame ∧
    (s.spawnSession c first second).submitter = .idle ∧
    ((s.spawnSession c first second).enc = s.enc ∨
      ∃ e, (s.spawnSession c first second).enc = some e ∧ e.w = c.w ∧ e.h = c.h) := by
  have hinstall : ∀ (t : Streamer) (hardware : Bool), (t.install c hardware).log = t.log ∧
      (t.install c hardware).frame = t.frame ∧ (t.install c hardware).submitter = .idle ∧
      ∃ e, (t.install c hardware).enc = some e ∧ e.w = c.w ∧ e.h = c.h := by
    intro t hardware
    refine ⟨resume_log c, resume_frame c, resume_submitter c, ?_⟩
    rw [install, resume_enc]
    exact ⟨_, rfl, rfl, rfl⟩
  unfold spawnSession
  cases first with
  | true =>
    obtain ⟨hlog, hframe, hsub, henc⟩ := hinstall s (!s.hardwareFailed)
    exact ⟨hlog, hframe, hsub, .inr henc⟩
  | false =>
    cases s.hardwareFailed with
    | true => exact ⟨rfl, rfl, rfl, .inl rfl⟩
    | false =>
      cases second with
      | true =>
        obtain ⟨hlog, hframe, hsub, henc⟩ := hinstall { s with hardwareFailed := true } false
        exact ⟨hlog, hframe, hsub, .inr henc⟩
      | false => exact ⟨rfl, rfl, rfl, .inl rfl⟩

private theorem retire_cached (old : EncoderSession) (died sizeChanged : Bool) (c : StreamCall) :
    (s.retire old died sizeChanged c).cached = if sizeChanged then none else s.cached := by
  cases sizeChanged with
  | true => exact HubEvent.keyframeOf_snoc s.log .resetKeyframe
  | false => rfl

private theorem broadcast_cached (e : EncoderSession) (au : EncodedAu) :
    (s.broadcast e au).cached = if au.keyframe then some (s.framed e au) else s.cached := by
  have h := HubEvent.keyframeOf_snoc s.log (.broadcast (s.framed e au) au.keyframe)
  unfold cached broadcast
  rw [h]
  cases au.keyframe <;> rfl

theorem step_submit {bgra : List UInt8} {w h : UInt32} {now : Nat} (hstep : s.step (.submit bgra w h now) = some s') :
    s.submitter = .idle ∧ s' = s.submitBgra bgra w h now := by
  cases hsub : s.submitter with
  | idle =>
    simp only [step, hsub, Option.some_inj] at hstep
    exact ⟨rfl, hstep.symm⟩
  | closing => simp [step, hsub] at hstep
  | spawning => simp [step, hsub] at hstep

theorem step_spawn {first second : Bool} (hstep : s.step (.spawn first second) = some s') :
    ∃ replaced c, s.submitter = .spawning replaced c ∧ s' = s.spawnSession c first second := by
  cases hsub : s.submitter with
  | idle => simp [step, hsub] at hstep
  | closing => simp [step, hsub] at hstep
  | spawning replaced c =>
    simp only [step, hsub, Option.some_inj] at hstep
    exact ⟨replaced, c, rfl, hstep.symm⟩

theorem step_joined (hstep : s.step .joined = some s') : ∃ old died sizeChanged c,
    s.submitter = .closing old died sizeChanged c ∧ s' = s.retire old died sizeChanged c := by
  cases hsub : s.submitter with
  | idle => simp [step, hsub] at hstep
  | closing old died sizeChanged c =>
    simp only [step, hsub, Option.ite_none_left_eq_some, Option.some_inj] at hstep
    exact ⟨old, died, sizeChanged, c, rfl, hstep.2.symm⟩
  | spawning => simp [step, hsub] at hstep

end Effects

/-! ### The cached keyframe -/

section Cache

variable {s s' : Streamer} {a : StreamAction}

/-- The cached keyframe, if any, comes from a session of this size. -/
def CachedAt (s : Streamer) (w h : UInt32) : Prop := ∀ k ∈ s.cached, k.w = w ∧ k.h = h

/-- Once `submit_bgra` has returned, the cached keyframe has the size of the frame it was given. -/
def Current (s : Streamer) : Prop := s.submitter = .idle → ∀ k ∈ s.cached, s.frame = some (k.w, k.h)

instance (s : Streamer) : Decidable s.Current :=
  inferInstanceAs (Decidable (s.submitter = .idle → ∀ k ∈ s.cached, s.frame = some (k.w, k.h)))

/-- A frame that is skipped, or that finds no session to replace, has the size of the cached keyframe; and while the
session left running has not the size of the last frame, no keyframe comes from it. -/
def Fits (s : Streamer) : StreamAction → Prop
  | .submit bgra w h now => s.submitter = .idle → s.skips bgra now = true → s.CachedAt w h
  | .spawn _ _ => ∀ c, s.submitter = .spawning false c → s.CachedAt c.w c.h
  | .drain au => s.submitter = .idle → au.keyframe = true →
      ∀ e ∈ s.enc, e.draining = true → s.frame = some (e.w, e.h)
  | _ => True

/-- The keyframe and the session, at every point of a call. -/
structure Kept (s : Streamer) : Prop where
  session : s.submitter = .idle → ∀ e ∈ s.enc, s.CachedAt e.w e.h
  calling : s.submitter ≠ .idle → s.enc = none
  closing : ∀ old died sizeChanged c, s.submitter = .closing old died sizeChanged c →
    s.frame = some (c.w, c.h) ∧ (sizeChanged = false → old.w = c.w ∧ old.h = c.h) ∧ s.CachedAt old.w old.h
  spawning : ∀ replaced c, s.submitter = .spawning replaced c →
    s.frame = some (c.w, c.h) ∧ (replaced = true → s.CachedAt c.w c.h)

private theorem current_iff (hsub : s.submitter = .idle) {w h : UInt32} (hframe : s.frame = some (w, h)) :
    s.Current ↔ s.CachedAt w h := by
  unfold Current CachedAt
  rw [hframe]
  simp only [hsub, true_imp_iff, Option.some_inj, Prod.mk.injEq]
  exact forall₂_congr fun k _ => and_congr eq_comm eq_comm

private theorem new_kept (fps : UInt32) (codec : Codec) : (new fps codec).Kept where
  session _ e he := by cases he
  calling h := absurd rfl h
  closing _ _ _ _ h := by cases h
  spawning _ _ h := by cases h

private theorem new_current (fps : UInt32) (codec : Codec) : (new fps codec).Current := fun _ k hk => by cases hk

private theorem CachedAt.congr {w h : UInt32} (hc : s.CachedAt w h) (hlog : s'.log = s.log) : s'.CachedAt w h := by
  unfold CachedAt cached
  rw [hlog]
  exact hc

/-- The threads of a session change neither its size nor the hub. -/
private theorem Kept.threads (hk : s.Kept) (hlog : s'.log = s.log) (hframe : s'.frame = s.frame)
    (hsub : s'.submitter = s.submitter) (henc : ∀ e' ∈ s'.enc, ∃ e ∈ s.enc, e.w = e'.w ∧ e.h = e'.h) : s'.Kept where
  session hidle e' he' := by
    obtain ⟨e, he, hw, hh⟩ := henc e' he'
    rw [← hw, ← hh]
    exact (hk.session (hsub ▸ hidle) e he).congr hlog
  calling hcall := by
    rw [Option.eq_none_iff_forall_not_mem]
    intro e' he'
    obtain ⟨e, he, -⟩ := henc e' he'
    rw [hk.calling (hsub ▸ hcall)] at he
    cases he
  closing old died sizeChanged c hclose := by
    obtain ⟨hf, hsize, hc⟩ := hk.closing old died sizeChanged c (hsub ▸ hclose)
    exact ⟨hframe.trans hf, hsize, hc.congr hlog⟩
  spawning replaced c hspawn := by
    obtain ⟨hf, hc⟩ := hk.spawning replaced c (hsub ▸ hspawn)
    exact ⟨hframe.trans hf, fun hr => (hc hr).congr hlog⟩

private theorem Current.congr (hq : s.Current) (hlog : s'.log = s.log) (hframe : s'.frame = s.frame)
    (hsub : s'.submitter = s.submitter) : s'.Current := by
  unfold Current cached
  rw [hlog, hframe, hsub]
  exact hq

private theorem withSession_mem {f : EncoderSession → EncoderSession} (hf : ∀ e, e.w = (f e).w ∧ e.h = (f e).h)
    {e' : EncoderSession} (he' : e' ∈ (s.withSession f).enc) : ∃ e ∈ s.enc, e.w = e'.w ∧ e.h = e'.h := by
  obtain ⟨e, he, rfl⟩ := Option.map_eq_some_iff.1 he'
  exact ⟨e, he, hf e⟩

private theorem Kept.of_idle (hsub : s.submitter = .idle) (hc : ∀ e ∈ s.enc, s.CachedAt e.w e.h) : s.Kept where
  session _ := hc
  calling h := absurd hsub h
  closing _ _ _ _ h := by
    rw [hsub] at h
    cases h
  spawning _ _ h := by
    rw [hsub] at h
    cases h

private theorem current_of_closing {old : EncoderSession} {died sizeChanged : Bool} {c : StreamCall}
    (hsub : s.submitter = .closing old died sizeChanged c) (henc : s.enc = none) (hframe : s.frame = some (c.w, c.h))
    (hsize : sizeChanged = false → old.w = c.w ∧ old.h = c.h) (hc : s.CachedAt old.w old.h) : s.Current ∧ s.Kept := by
  refine ⟨fun h => ?_, ⟨fun h => ?_, fun _ => henc, ?_, ?_⟩⟩
  · rw [hsub] at h
    cases h
  · rw [hsub] at h
    cases h
  · intro old' died' sizeChanged' c' h
    rw [hsub] at h
    cases h
    exact ⟨hframe, hsize, hc⟩
  · intro replaced c' h
    rw [hsub] at h
    cases h

private theorem current_of_spawning {replaced : Bool} {c : StreamCall} (hsub : s.submitter = .spawning replaced c)
    (henc : s.enc = none) (hframe : s.frame = some (c.w, c.h)) (hc : replaced = true → s.CachedAt c.w c.h) :
    s.Current ∧ s.Kept := by
  refine ⟨fun h => ?_, ⟨fun h => ?_, fun _ => henc, ?_, ?_⟩⟩
  · rw [hsub] at h
    cases h
  · rw [hsub] at h
    cases h
  · intro old died sizeChanged c' h
    rw [hsub] at h
    cases h
  · intro replaced' c' h
    rw [hsub] at h
    cases h
    exact ⟨hframe, hc⟩

private theorem withSession_current (hk : s.Kept) (hq : s.Current) {f : EncoderSession → EncoderSession}
    (hf : ∀ e, e.w = (f e).w ∧ e.h = (f e).h) :
    ((s.withSession f).Current ↔ True) ∧ ((s.withSession f).Current → (s.withSession f).Kept) :=
  ⟨iff_true_intro (hq.congr rfl rfl rfl), fun _ => hk.threads rfl rfl rfl fun _ he => withSession_mem hf he⟩

/-- A call that looks at the encoder leaves the keyframe right: a session that is reused has its size. -/
private theorem Ensured.current {c : StreamCall} (hens : Ensured s.enc c s') (hk : s.Kept)
    (hidle : s.submitter = .idle) (hlog : s'.log = s.log) (hframe : s'.frame = some (c.w, c.h)) :
    s'.Current ∧ s'.Kept := by
  cases hens with
  | kept e henc hw hh hsub henc' =>
    have hc : s'.CachedAt e.w e.h := (hk.session hidle e henc).congr hlog
    refine ⟨(current_iff hsub hframe).2 (hw ▸ hh ▸ hc), .of_idle hsub fun e' he' => ?_⟩
    rw [henc', Option.mem_some_iff] at he'
    subst he'
    exact hc
  | torn e henc hsub henc' =>
    exact current_of_closing hsub henc' hframe (fun hsize => by simpa using hsize)
      ((hk.session hidle e henc).congr hlog)
  | absent henc hsub henc' => exact current_of_spawning hsub henc' hframe fun hr => absurd hr Bool.false_ne_true

private theorem submit_current (hk : s.Kept) (hidle : s.submitter = .idle) (bgra : List UInt8) (w h : UInt32)
    (now : Nat) :
    ((s.submitBgra bgra w h now).Current ↔ s.Fits (.submit bgra w h now)) ∧
      ((s.submitBgra bgra w h now).Current → (s.submitBgra bgra w h now).Kept) := by
  obtain ⟨hlog, hframe, ⟨hskip, henc, hsub⟩ | ⟨hskip, c, rfl, rfl, hens⟩⟩ := submitBgra_spec (s := s) bgra w h now
  · refine ⟨?_, fun _ => .of_idle (hsub.trans hidle) fun e he => ?_⟩
    · rw [current_iff (hsub.trans hidle) hframe]
      constructor
      · intro hc _ _
        exact hc.congr hlog.symm
      · intro hfit
        exact (hfit hidle hskip).congr hlog
    · rw [henc] at he
      exact (hk.session hidle e he).congr hlog
  · obtain ⟨hcur, hkept⟩ := hens.current hk hidle hlog hframe
    refine ⟨iff_of_true hcur fun _ h => ?_, fun _ => hkept⟩
    rw [hskip] at h
    cases h

/-- A session torn down for its size takes its keyframe with it; one of the right size leaves it. -/
private theorem retire_current (hk : s.Kept) {old : EncoderSession} {died sizeChanged : Bool} {c : StreamCall}
    (hclose : s.submitter = .closing old died sizeChanged c) :
    (s.retire old died sizeChanged c).Current ∧ (s.retire old died sizeChanged c).Kept := by
  obtain ⟨hframe, hsize, hc⟩ := hk.closing old died sizeChanged c hclose
  have henc : s.enc = none := hk.calling (by simp [hclose])
  have hspawning : (s.retire old died sizeChanged c).submitter = .spawning true c := rfl
  refine current_of_spawning hspawning henc hframe fun _ k hcached => ?_
  rw [retire_cached] at hcached
  cases sizeChanged with
  | true => cases hcached
  | false =>
    obtain ⟨hw, hh⟩ := hsize rfl
    exact hw ▸ hh ▸ hc k hcached

private theorem spawn_current (hk : s.Kept) {replaced : Bool} {c : StreamCall}
    (hspawn : s.submitter = .spawning replaced c) (first second : Bool) :
    ((s.spawnSession c first second).Current ↔ s.Fits (.spawn first second)) ∧
      ((s.spawnSession c first second).Current → (s.spawnSession c first second).Kept) := by
  obtain ⟨hframe, hreplaced⟩ := hk.spawning replaced c hspawn
  have hnone : s.enc = none := hk.calling (by simp [hspawn])
  obtain ⟨hlog, hframe', hsub, henc⟩ := spawnSession_spec (s := s) c first second
  have hiff : (s.spawnSession c first second).Current ↔ s.CachedAt c.w c.h := by
    rw [current_iff hsub (hframe'.trans hframe)]
    exact ⟨fun h => h.congr hlog.symm, fun h => h.congr hlog⟩
  refine ⟨hiff.trans ⟨fun hc c' hc' => ?_, fun hfit => ?_⟩, fun hcur => .of_idle hsub fun e he => ?_⟩
  · rw [hspawn] at hc'
    cases hc'
    exact hc
  · cases replaced with
    | true => exact hreplaced rfl
    | false => exact hfit c hspawn
  · rcases henc with henc | ⟨e', henc, hw, hh⟩
    · rw [henc, hnone] at he
      cases he
    · rw [henc, Option.mem_some_iff] at he
      subst he
      rw [hw, hh]
      exact (hiff.1 hcur).congr hlog

private theorem CachedAt.broadcast {e : EncoderSession} (hc : s.CachedAt e.w e.h) (au : EncodedAu) :
    (s.broadcast e au).CachedAt e.w e.h := by
  intro k hk
  rw [broadcast_cached] at hk
  cases hkey : au.keyframe with
  | true =>
    rw [hkey, if_pos rfl, Option.mem_some_iff] at hk
    subst hk
    exact ⟨rfl, rfl⟩
  | false =>
    rw [hkey, if_neg Bool.false_ne_true] at hk
    exact hc k hk

private theorem drain_current (hk : s.Kept) (hq : s.Current) (hidle : s.submitter = .idle) {e : EncoderSession}
    (henc : s.enc = some e) (hdrain : e.draining = true) (au : EncodedAu) {f : EncoderSession → EncoderSession}
    (hf : ∀ e, e.w = (f e).w ∧ e.h = (f e).h) :
    (((s.broadcast e au).withSession f).Current ↔ s.Fits (.drain au)) ∧ ((s.broadcast e au).withSession f).Kept := by
  have hc : (s.broadcast e au).CachedAt e.w e.h := (hk.session hidle e henc).broadcast au
  refine ⟨⟨fun hcur _ hkey e' he' _ => ?_, fun hfit _ k hcached => ?_⟩, .of_idle hidle fun e' he' => ?_⟩
  · rw [henc, Option.mem_some_iff] at he'
    subst he'
    have hmem : s.framed e au ∈ (s.broadcast e au).cached := by
      rw [broadcast_cached, hkey]
      rfl
    exact hcur hidle _ hmem
  · have hmem : k ∈ (s.broadcast e au).cached := hcached
    obtain ⟨hw, hh⟩ := hc k hmem
    rw [broadcast_cached] at hmem
    cases hkey : au.keyframe with
    | true =>
      rw [hw, hh]
      exact hfit hidle hkey e henc hdrain
    | false =>
      rw [hkey] at hmem
      exact hq hidle k hmem
  · obtain ⟨e₀, he₀, hw, hh⟩ := withSession_mem hf he'
    have he₀' : s.enc = some e₀ := he₀
    rw [henc, Option.some_inj] at he₀'
    subst he₀'
    rw [← hw, ← hh]
    exact hc

private theorem step_current (hk : s.Kept) (hq : s.Current) (hstep : s.step a = some s') :
    (s'.Current ↔ s.Fits a) ∧ (s'.Current → s'.Kept) := by
  cases a with
  | submit bgra w h now =>
    obtain ⟨hidle, rfl⟩ := step_submit hstep
    exact submit_current hk hidle bgra w h now
  | joined =>
    obtain ⟨old, died, sizeChanged, c, hclose, rfl⟩ := step_joined hstep
    obtain ⟨hcur, hkept⟩ := retire_current hk hclose
    exact ⟨iff_of_true hcur trivial, fun _ => hkept⟩
  | spawn first second =>
    obtain ⟨replaced, c, hspawn, rfl⟩ := step_spawn hstep
    exact spawn_current hk hspawn first second
  | requestKeyframe =>
    cases hstep
    exact ⟨iff_of_true hq trivial, fun _ => hk.threads rfl rfl rfl fun e he => ⟨e, he, rfl, rfl⟩⟩
  | feed =>
    cases hstep
    exact withSession_current hk hq fun _ => ⟨rfl, rfl⟩
  | feederDied =>
    cases hstep
    exact withSession_current hk hq fun _ => ⟨rfl, rfl⟩
  | drain au =>
    cases hsub : s.submitter with
    | idle =>
      cases henc : s.enc with
      | none => simp [step, hsub, henc] at hstep
      | some e =>
        simp only [step, hsub, henc, Option.ite_none_right_eq_some, Option.some_inj] at hstep
        obtain ⟨hiff, hkept⟩ := drain_current hk hq hsub henc hstep.1 au
          (f := fun e => { e with produced := e.produced + 1 }) fun _ => ⟨rfl, rfl⟩
        exact hstep.2 ▸ ⟨hiff, fun _ => hkept⟩
    | closing old died sizeChanged c =>
      simp only [step, hsub, Option.ite_none_right_eq_some, Option.some_inj] at hstep
      obtain ⟨-, rfl⟩ := hstep
      obtain ⟨hframe, hsize, hc⟩ := hk.closing old died sizeChanged c hsub
      refine And.imp (fun hcur => iff_of_true hcur fun h => ?_) (fun hkept _ => hkept)
        (current_of_closing rfl (hk.calling (by simp [hsub])) hframe hsize (hc.broadcast au))
      rw [hsub] at h
      cases h
    | spawning replaced c =>
      have henc : s.enc = none := hk.calling (by simp [hsub])
      simp [step, hsub, henc] at hstep
  | drainEnded =>
    cases hsub : s.submitter with
    | idle =>
      simp only [step, hsub, Option.some_inj] at hstep
      subst hstep
      exact withSession_current hk hq fun _ => ⟨rfl, rfl⟩
    | closing old died sizeChanged c =>
      simp only [step, hsub, Option.some_inj] at hstep
      subst hstep
      obtain ⟨hframe, hsize, hc⟩ := hk.closing old died sizeChanged c hsub
      exact And.imp (fun hcur => iff_of_true hcur trivial) (fun hkept _ => hkept)
        (current_of_closing rfl (hk.calling (by simp [hsub])) hframe hsize hc)
    | spawning replaced c =>
      simp only [step, hsub, Option.some_inj] at hstep
      subst hstep
      exact withSession_current hk hq fun _ => ⟨rfl, rfl⟩

end Cache

/-- In every run, the keyframe for the clients that join comes from a session of the size of the last frame after
every call exactly when every step fits: only a skipped frame and a respawn after a failed one can leave it behind. -/
theorem keyframe_current_iff (fps : UInt32) (codec : Codec) (as : List StreamAction)
    (hrun : (Lts.run step (new fps codec) as).isSome) :
    Lts.Always step Current (new fps codec) as ↔ Lts.Along step Fits (new fps codec) as := by
  obtain ⟨t, ht⟩ := Option.isSome_iff_exists.1 hrun
  refine Lts.always_iff_along_while (A := fun _ => True) (B := fun _ => True) (fun _ _ _ _ h => h) ?_ ?_
    (new_kept fps codec) (new_current fps codec) (fun _ _ => trivial) ht trivial
  · intro s a s' _ _ hk hq hq' hstep
    exact (step_current hk hq hstep).2 hq'
  · intro s a s' _ _ hk hq hstep
    exact (step_current hk hq hstep).1

/-- A hub that is fed by the streamer holds its keyframe, whatever else clients and planes do. -/
theorem hub_cached {s : Streamer} {as : List (HubAction Streamed)} {hub : Hub Streamed}
    (hrun : Lts.run Hub.step Hub.new as = some hub)
    (hlog : hub.log.filterMap HubEvent.keyframe = s.log.filterMap HubEvent.keyframe) :
    hub.lastKeyframe = s.cached := by
  rw [(Hub.run_linear hrun).keyframe, HubEvent.keyframeOf, hlog]
  rfl

/-- Two frames of one size, the second of which finds the encoder dead and no other to be had, then a frame of another
size: the keyframe of the first is still cached. -/
def failedRespawn : List StreamAction :=
  [.submit (List.replicate 32 0) 4 2 0, .spawn true true, .drain ⟨[0, 0, 0, 1, 0x65], true, 0⟩, .drainEnded,
    .submit (List.replicate 32 1) 4 2 1, .joined, .spawn false false, .submit (List.replicate 32 0) 2 4 2,
    .spawn true true]

private theorem failedRespawn_stale : ∀ t ∈ Lts.run step (new 30 .h264) failedRespawn,
    ¬ t.Current := by decide +kernel

theorem keyframe_not_always_current : ¬ ∀ (fps : UInt32) (codec : Codec) (as : List StreamAction),
    (Lts.run step (new fps codec) as).isSome → Lts.Always step Current (new fps codec) as := by
  intro h
  have hrun : (Lts.run step (new 30 .h264) failedRespawn).isSome := by decide +kernel
  obtain ⟨t, ht⟩ := Option.isSome_iff_exists.1 hrun
  exact failedRespawn_stale t ht ((h 30 .h264 failedRespawn hrun).last ht)

theorem keyframe_current_iff_respawn : ¬ Lts.Along step Fits (new 30 .h264) failedRespawn := by
  intro hfits
  have hrun : (Lts.run step (new 30 .h264) failedRespawn).isSome := by decide +kernel
  obtain ⟨t, ht⟩ := Option.isSome_iff_exists.1 hrun
  exact failedRespawn_stale t ht (((keyframe_current_iff 30 .h264 failedRespawn hrun).2 hfits).last ht)

end Streamer

end Infinigpu
