import Infinigpu.Pixel.Idle
import Infinigpu.Pixel.Viewer
import Infinigpu.Device.Present

/-!
# The size in a frame header (`infinigpu-pixel`, `spawn_session`)

The header of a frame has 16 bits for each side, the device bounds the bytes of a frame only.

* `FrameHeader.parse_message`: a client reads back the header that is sent;
* `Viewed`: the streamer, with the messages it has broadcast and the frames that the session of each was handed;
* `Viewed.headers_true_iff`: the header of a present is that of its size exactly when both sides are below `2 ^ 16`.
-/

namespace Infinigpu

namespace Proto
def headerLen : Nat := 32
end Proto

namespace FrameHeader

def parse (buf : List UInt8) : Option FrameHeader :=
  if buf.length < Proto.headerLen then
    none
  else if u32At buf 0 ≠ Proto.magic then
    none
  else
    some
      { flags := buf.getD 5 0
        codec := buf.getD 6 0
        frameSeq := u32At buf 8
        width := u16At buf 12
        height := u16At buf 14
        ptsUs := u64At buf 16
        payloadLen := u32At buf 24 }

private theorem toBytes_length (h : FrameHeader) : h.toBytes.length = Proto.headerLen := rfl

/-- What is framed is parsed back. -/
theorem parse_message (h : FrameHeader) (au : List UInt8) : parse (h.message au) = some h := by
  have hlen : ¬ (h.message au).length < Proto.headerLen := by
    rw [message, List.length_append, toBytes_length]
    omega
  have hmagic : u32At (h.message au) 0 = Proto.magic := Bytes.u32_ofValue Proto.magic
  have hseq : u32At (h.message au) 8 = h.frameSeq := Bytes.u32_ofValue h.frameSeq
  have hw : u16At (h.message au) 12 = h.width := Bytes.u16_ofValue h.width
  have hh : u16At (h.message au) 14 = h.height := Bytes.u16_ofValue h.height
  have hpts : u64At (h.message au) 16 = h.ptsUs := Bytes.u64_ofValue h.ptsUs
  have hpl : u32At (h.message au) 24 = h.payloadLen := Bytes.u32_ofValue h.payloadLen
  rw [parse, if_neg hlen, if_neg (by simp [hmagic]), hseq, hw, hh, hpts, hpl]
  rfl

end FrameHeader

/-! ### The presents -/

/-- A present of the full or of the damaged path. -/
inductive Presentation where
  | full (sp : ScanoutPresent)
  | damaged (sp : ScanoutPresentDamaged)

def Presentation.scanout : Presentation → ScanoutPresent
  | .full sp => sp
  | .damaged sp => sp.toScanoutPresent

namespace Backend

variable {env : Env} {d d' : Backend} {sp : ScanoutPresentDamaged} {seqno : UInt64} {ctx : Fin NUM_CONTEXTS}
  {f : BgraFrame}

def handlePresent (env : Env) (p : Presentation) (seqno : UInt64) (ctx : Fin NUM_CONTEXTS) (d : Backend) : Backend :=
  match p with
  | .full sp => d.presentScanout env sp seqno ctx
  | .damaged sp => d.presentScanoutDamaged env sp seqno ctx

/-- The device has handed the frame to the streamer. -/
def HandsOver (d d' : Backend) (f : BgraFrame) : Prop :=
  ∃ fs, d.frames = some fs ∧ d'.frames = some (fs ++ [(f.bgra, f.w, f.h)])

private theorem Quiet.not_handsOver (h : Quiet d d') : ¬ HandsOver d d' f := by
  rintro ⟨fs, hfs, hfs'⟩
  rw [h.frames, hfs, Option.some_inj] at hfs'
  have hlen := congrArg List.length hfs'
  rw [List.length_append, List.length_singleton] at hlen
  omega

private theorem Presented.handsOver {last : Option ScanoutBuffer} {b : ScanoutBuffer}
    (h : Presented ctx seqno last b d d') (hf : HandsOver d d' f) :
    f.size = (UInt32.ofNat b.w, UInt32.ofNat b.h) := by
  obtain ⟨fs, hfs, hfs'⟩ := hf
  rw [h.frames, hfs, Option.map_some, Option.some_inj] at hfs'
  have hlast := List.append_cancel_left hfs'
  rw [ScanoutBuffer.frame, List.cons.injEq, Prod.mk.injEq] at hlast
  exact hlast.1.2.symm

/-- The surface has the size of the present. -/
private theorem damagedSurface_size {fbBytes bytesRead : Nat} {b : ScanoutBuffer}
    (h : d.damagedSurface sp fbBytes = some (b, bytesRead)) : b.w = sp.w ∧ b.h = sp.h := by
  simp only [damagedSurface] at h
  cases hmatch : d.matchingScanout sp.w sp.h with
  | none =>
    simp only [hmatch] at h
    obtain ⟨buf, -, heq⟩ := Option.map_eq_some_iff.mp h
    rw [← (Prod.mk.inj heq).1]
    exact ⟨rfl, rfl⟩
  | some b' =>
    simp only [hmatch] at h
    have hsize : b'.w = sp.w ∧ b'.h = sp.h := by simpa using (Option.filter_eq_some_iff.mp hmatch).2
    split at h
    · obtain ⟨buf, -, heq⟩ := Option.map_eq_some_iff.mp h
      rw [← (Prod.mk.inj heq).1]
      exact ⟨rfl, rfl⟩
    · split at h
      · obtain ⟨rows, -, heq⟩ := Option.map_eq_some_iff.mp h
        rw [← (Prod.mk.inj heq).1]
        exact hsize
      · rw [← (Prod.mk.inj (Option.some.inj h)).1]
        exact hsize

/-- A frame that is handed over has the size of the present, whose geometry was accepted. -/
private theorem handlePresent_size {p : Presentation} (h : HandsOver d (d.handlePresent env p seqno ctx) f) :
    p.scanout.fbBytes.isSome ∧ f.size = (p.scanout.width, p.scanout.height) := by
  cases p with
  | full sp =>
    rcases presentScanout_cases env sp seqno ctx d with hq | ⟨total, buf, htotal, -, hp⟩
    · exact absurd h hq.not_handsOver
    · refine ⟨Option.isSome_iff_exists.mpr ⟨total, htotal⟩, (hp.handsOver h).trans ?_⟩
      rw [ScanoutPresent.fullFrame, ScanoutPresent.w, ScanoutPresent.h, UInt32.ofNat_toNat, UInt32.ofNat_toNat]
      rfl
  | damaged sp =>
    rcases presentScanoutDamaged_cases env sp seqno ctx d with hq | ⟨total, b, bytesRead, htotal, hb, hp⟩
    · exact absurd h hq.not_handsOver
    · refine ⟨Option.isSome_iff_exists.mpr ⟨total, htotal⟩, (hp.handsOver h).trans ?_⟩
      obtain ⟨hw, hh⟩ := damagedSurface_size hb
      rw [hw, hh, ScanoutPresent.w, ScanoutPresent.h, UInt32.ofNat_toNat, UInt32.ofNat_toNat]
      rfl

private theorem presentScanout_handsOver {sp : ScanoutPresent} {total : Nat} {buf : List UInt8}
    (hticket : d.ticket.isSome) (hfb : sp.fbBytes = some total) (hread : d.dmaRead sp.scanoutAddr total = some buf)
    (hpixel : d.frames.isSome) :
    HandsOver d (d.handlePresent env (.full sp) seqno ctx) ⟨(sp.fullFrame buf).bgra, sp.width, sp.height⟩ := by
  obtain ⟨fs, hfs⟩ := Option.isSome_iff_exists.mp hpixel
  have hquiet := accountScanoutVram_quiet sp.width sp.height d
  have hread' : (d.accountScanoutVram sp.width sp.height).dmaRead sp.scanoutAddr total = some buf := by
    rw [hquiet.dmaRead, hread]
  refine ⟨fs, hfs, ?_⟩
  simp only [handlePresent, presentScanout, ensureAdmitted_of_ticket hticket, Bool.not_true, Bool.false_eq_true,
    if_false, hfb, hread', streamFrame_frames]
  change (d.accountScanoutVram sp.width sp.height).frames.map _ = _
  rw [hquiet.frames, hfs]
  rfl

/-- An admitted VM with a streamer, whose guest memory is `len` bytes at 0. -/
def streamingDevice (len : UInt64) : Backend :=
  (ensureAdmitted Env.idle { withBroker .default .new (.new "vm" 1 4096) (fun _ => 0) with
    dma := DmaTable.new.map 0 len 0
    pixel := some ⟨[], []⟩ }).2

private theorem streamingDevice_handsOver (len : UInt64) (sp : ScanoutPresent) {host : Nat}
    (hfb : sp.fbBytes = some len.toNat) (hticket : (streamingDevice len).ticket.isSome)
    (hmapped : (DmaTable.new.map 0 len 0).resolve sp.scanoutAddr len.toNat = some host) :
    ∃ bgra, HandsOver (streamingDevice len) ((streamingDevice len).handlePresent Env.idle (.full sp) 1 0)
      ⟨bgra, sp.width, sp.height⟩ := by
  have hquiet := ensureAdmitted_quiet Env.idle
    { withBroker .default .new (.new "vm" 1 4096) (fun _ => 0) with
      dma := DmaTable.new.map 0 len 0
      pixel := some ⟨[], []⟩ }
  have hread : (streamingDevice len).dmaRead sp.scanoutAddr len.toNat =
      some (Memory.load (fun _ => 0) host len.toNat) := by
    rw [streamingDevice, hquiet.dmaRead, dmaRead, DmaTable.read, hmapped]
    rfl
  exact ⟨_, presentScanout_handsOver hticket hfb hread (by rw [streamingDevice, hquiet.frames]; rfl)⟩

end Backend

/-! ### The frames behind a message -/

namespace Streamer

/-- The session whose drain thread can broadcast. -/
def source (s : Streamer) : Option EncoderSession :=
  match s.submitter with
  | .closing old _ _ _ => some old
  | _ => s.enc

private theorem source_idle {s : Streamer} (h : s.submitter = .idle) : s.source = s.enc := by
  rw [source, h]

private theorem source_closing {s : Streamer} {old : EncoderSession} {died sizeChanged : Bool} {c : StreamCall}
    (h : s.submitter = .closing old died sizeChanged c) : s.source = some old := by
  rw [source, h]

private theorem source_spawning {s : Streamer} {replaced : Bool} {c : StreamCall}
    (h : s.submitter = .spawning replaced c) :
    s.source = s.enc := by
  rw [source, h]

/-- An access unit is broadcast by the session that can, and its size stays. -/
private theorem step_drain {s s' : Streamer} {au : EncodedAu} (h : s.step (.drain au) = some s') :
    ∃ e ∈ s.source, s'.log = s.log ++ [.broadcast (s.framed e au) au.keyframe] ∧
      ∀ e' ∈ s'.source, e.w = e'.w ∧ e.h = e'.h := by
  have hlive (e : EncoderSession) (hsub : ∀ old died sizeChanged c, s.submitter ≠ .closing old died sizeChanged c)
      (henc : s.enc = some e) :
      ∀ e' ∈ ((s.broadcast e au).withSession fun e => { e with produced := e.produced + 1 }).source,
        e.w = e'.w ∧ e.h = e'.h := by
    have hsource : ((s.broadcast e au).withSession fun e => { e with produced := e.produced + 1 }).source =
        some { e with produced := e.produced + 1 } := by
      unfold source withSession broadcast
      dsimp only
      rw [henc]
      split
      · next old died sizeChanged c hclosing => exact absurd hclosing (hsub old died sizeChanged c)
      · rfl
    intro e' he'
    rw [hsource, Option.mem_some_iff] at he'
    subst he'
    exact ⟨rfl, rfl⟩
  cases hsub : s.submitter with
  | closing old died sizeChanged c =>
    simp only [step, hsub, Option.ite_none_right_eq_some, Option.some_inj] at h
    obtain ⟨-, rfl⟩ := h
    refine ⟨old, source_closing hsub, rfl, fun e' he' => ?_⟩
    rw [source, Option.mem_some_iff] at he'
    subst he'
    exact ⟨rfl, rfl⟩
  | idle =>
    cases henc : s.enc with
    | none => simp [step, hsub, henc] at h
    | some e =>
      simp only [step, hsub, henc, Option.ite_none_right_eq_some, Option.some_inj] at h
      obtain ⟨-, rfl⟩ := h
      exact ⟨e, (source_idle hsub).trans henc, rfl, hlive e (by simp [hsub]) henc⟩
  | spawning replaced c =>
    cases henc : s.enc with
    | none => simp [step, hsub, henc] at h
    | some e =>
      simp only [step, hsub, henc, Option.ite_none_right_eq_some, Option.some_inj] at h
      obtain ⟨-, rfl⟩ := h
      exact ⟨e, (source_spawning hsub).trans henc, rfl, hlive e (by simp [hsub]) henc⟩

/-- What the threads of a session and the hub do to it. -/
private theorem source_withSession {s : Streamer} {g : EncoderSession → EncoderSession} {e' : EncoderSession}
    (he' : e' ∈ (s.withSession g).source) (hg : ∀ e, (g e).w = e.w ∧ (g e).h = e.h) :
    ∃ e ∈ s.source, e.w = e'.w ∧ e.h = e'.h := by
  unfold source withSession at he'
  unfold source
  dsimp only at he'
  split at he'
  · exact ⟨e', he', rfl, rfl⟩
  · obtain ⟨e, he, rfl⟩ := Option.map_eq_some_iff.mp he'
    exact ⟨e, he, (hg e).1.symm, (hg e).2.symm⟩

private theorem step_drainEnded {s s' : Streamer} (h : s.step .drainEnded = some s') :
    s'.log = s.log ∧ ∀ e' ∈ s'.source, ∃ e ∈ s.source, e.w = e'.w ∧ e.h = e'.h := by
  have hlive : ∀ e' ∈ (s.withSession fun e => { e with draining := false, alive := false }).source,
      ∃ e ∈ s.source, e.w = e'.w ∧ e.h = e'.h := fun _ he' => source_withSession he' fun _ => ⟨rfl, rfl⟩
  cases hsub : s.submitter with
  | closing old died sizeChanged c =>
    simp only [step, hsub, Option.some_inj] at h
    subst h
    refine ⟨rfl, fun e' he' => ⟨old, source_closing hsub, ?_⟩⟩
    rw [source, Option.mem_some_iff] at he'
    subst he'
    exact ⟨rfl, rfl⟩
  | idle =>
    simp only [step, hsub, Option.some_inj] at h
    subst h
    exact ⟨rfl, hlive⟩
  | spawning replaced c =>
    simp only [step, hsub, Option.some_inj] at h
    subst h
    exact ⟨rfl, hlive⟩

end Streamer

/-- A session may start with the step. -/
def StreamAction.isSpawn : StreamAction → Bool
  | .spawn _ _ => true
  | _ => false

/-- The messages that are broadcast. -/
def HubEvent.messages (log : List (HubEvent Streamed)) : List Streamed :=
  log.filterMap fun
    | .broadcast m _ => some m
    | _ => none

/-- The streamer, the frames that the session in place or about to end was handed, and the messages broadcast, each
with the frames that its session had been handed. -/
structure Viewed where
  streamer : Streamer
  fed : List BgraFrame
  shown : List (Streamed × List BgraFrame)

namespace Viewed

def new (fps : UInt32) (codec : Codec) : Viewed := ⟨.new fps codec, [], []⟩

/-- The frames of the session after a step: a session that is spawned has been handed none before. -/
def fedAfter (x : Viewed) (a : StreamAction) (s : Streamer) : List BgraFrame :=
  let before := if a.isSpawn then [] else x.fed
  if s.sent = x.streamer.sent then before else (x.streamer.calling a).toList ++ before

def step (x : Viewed) (a : StreamAction) : Option Viewed :=
  (x.streamer.step a).map fun s =>
    { streamer := s
      fed := x.fedAfter a s
      shown := x.shown ++ (HubEvent.messages (s.log.drop x.streamer.log.length)).map (·, x.fed) }

/-- A header carries the size of a session as it is narrowed, and the session was handed frames of its size only. -/
structure Framed (m : Streamed) (fs : List BgraFrame) : Prop where
  header : ∃ hdr, FrameHeader.parse m.msg = some hdr ∧ hdr.width = m.w.toUInt16 ∧ hdr.height = m.h.toUInt16
  sized : ∀ f ∈ fs, f.size = (m.w, m.h)

structure Sized (x : Viewed) : Prop where
  calling : x.streamer.submitter ≠ .idle → x.streamer.enc = none
  fed : ∀ e ∈ x.streamer.source, ∀ f ∈ x.fed, f.size = (e.w, e.h)
  shown : ∀ p ∈ x.shown, Framed p.1 p.2

private theorem new_sized (fps : UInt32) (codec : Codec) : (new fps codec).Sized where
  calling h := absurd rfl h
  fed _ he := by cases he
  shown _ hp := by cases hp

section Steps

variable {x x' : Viewed} {s : Streamer} {a : StreamAction}

private theorem fedAfter_same (hspawn : a.isSpawn = false) (hsent : s.sent = x.streamer.sent) :
    x.fedAfter a s = x.fed := by
  rw [fedAfter, if_pos hsent, hspawn, if_neg Bool.false_ne_true]

private theorem mem_fedAfter {f : BgraFrame} (h : f ∈ x.fedAfter a s) :
    s.sent ≠ x.streamer.sent ∧ x.streamer.calling a = some f ∨ a.isSpawn = false ∧ f ∈ x.fed := by
  have hbefore {fs : List BgraFrame} (hf : f ∈ if a.isSpawn = true then [] else fs) : a.isSpawn = false ∧ f ∈ fs := by
    cases hspawn : a.isSpawn with
    | true =>
      rw [hspawn, if_pos rfl] at hf
      cases hf
    | false =>
      rw [hspawn, if_neg Bool.false_ne_true] at hf
      exact ⟨rfl, hf⟩
  unfold fedAfter at h
  dsimp only at h
  by_cases hsent : s.sent = x.streamer.sent
  · rw [if_pos hsent] at h
    exact .inr (hbefore h)
  · rw [if_neg hsent, List.mem_append, Option.mem_toList] at h
    exact h.imp (fun hf => ⟨hsent, hf⟩) hbefore

/-- A step that broadcasts nothing. -/
private theorem Sized.quiet (h : x.Sized) (ev : List (HubEvent Streamed)) (hlog : s.log = x.streamer.log ++ ev)
    (hev : HubEvent.messages ev = []) (hcalling : s.submitter ≠ .idle → s.enc = none)
    (hfed : ∀ e ∈ s.source, ∀ f ∈ x.fedAfter a s, f.size = (e.w, e.h)) :
    Sized ⟨s, x.fedAfter a s, x.shown ++ (HubEvent.messages (s.log.drop x.streamer.log.length)).map (·, x.fed)⟩ where
  calling := hcalling
  fed := hfed
  shown p hp := by
    rw [hlog, List.drop_left, hev, List.map_nil, List.append_nil] at hp
    exact h.shown p hp

/-- The sessions keep their sizes, and no frame is handed on. -/
private theorem Sized.fedAfter (h : x.Sized) (hspawn : a.isSpawn = false) (hsent : s.sent = x.streamer.sent)
    (hsource : ∀ e' ∈ s.source, ∃ e ∈ x.streamer.source, e.w = e'.w ∧ e.h = e'.h) :
    ∀ e ∈ s.source, ∀ f ∈ x.fedAfter a s, f.size = (e.w, e.h) := by
  intro e' he' f hf
  rw [fedAfter_same hspawn hsent] at hf
  obtain ⟨e, he, hw, hh⟩ := hsource e' he'
  rw [h.fed e he f hf, hw, hh]

theorem Sized.submit (h : x.Sized) {bgra : List UInt8} {w hh : UInt32} {now : Nat}
    (hstep : x.step (.submit bgra w hh now) = some x') : x'.Sized := by
  obtain ⟨s, hs, rfl⟩ := Option.map_eq_some_iff.mp hstep
  obtain ⟨hidle, rfl⟩ := Streamer.step_submit hs
  obtain ⟨hlog, -, hcases⟩ := Streamer.submitBgra_spec (s := x.streamer) bgra w hh now
  have hlog' : (x.streamer.submitBgra bgra w hh now).log = x.streamer.log ++ [] := by rw [hlog, List.append_nil]
  rcases hcases with ⟨hskip, henc, hsub⟩ | ⟨hskip, c, hw, hh', hens⟩
  · -- the frame is skipped
    obtain ⟨-, heq⟩ := Streamer.submitBgra_skips hskip w hh
    refine h.quiet _ hlog' rfl (fun hne => absurd (hsub.trans hidle) hne)
      (h.fedAfter rfl (by rw [heq]) fun e he => ?_)
    rw [Streamer.source_idle (hsub.trans hidle), henc, ← Streamer.source_idle hidle] at he
    exact ⟨e, he, rfl, rfl⟩
  · cases hens with
    | kept e henc hew heh hsub henc' =>
      refine h.quiet _ hlog' rfl (fun hne => absurd hsub hne) fun e' he' f hf => ?_
      rw [Streamer.source_idle hsub, henc', Option.mem_some_iff] at he'
      subst he'
      rcases mem_fedAfter hf with ⟨-, hcall⟩ | ⟨-, hfed⟩
      · rw [Streamer.calling, Option.some_inj] at hcall
        rw [← hcall, BgraFrame.size, hew, heh, hw, hh']
      · exact h.fed e (by rw [Streamer.source_idle hidle, henc]; rfl) f hfed
    | torn e henc hsub henc' =>
      obtain ⟨t, r, heq, hsent, -, -⟩ := Streamer.submitBgra_ensures hskip w hh
      have hkept : (x.streamer.submitBgra bgra w hh now).sent = x.streamer.sent := by
        rw [heq] at hsub ⊢
        by_cases hreuse : t.Reuses w hh
        · rw [(Streamer.ensureEncoder_reuses (c := ⟨bgra, w, hh, r⟩) hreuse).submitter] at hsub
          cases hsub
        · rw [(Streamer.ensureEncoder_respawns (c := ⟨bgra, w, hh, r⟩) hreuse).sent, hsent]
      refine h.quiet _ hlog' rfl (fun _ => henc') (h.fedAfter rfl hkept fun e' he' => ?_)
      rw [Streamer.source_closing hsub, Option.mem_some_iff] at he'
      subst he'
      exact ⟨e, by rw [Streamer.source_idle hidle, henc]; rfl, rfl, rfl⟩
    | absent henc hsub henc' =>
      refine h.quiet _ hlog' rfl (fun _ => henc') fun e he => ?_
      rw [Streamer.source_spawning hsub, henc'] at he
      cases he

private theorem Sized.spawn (h : x.Sized) {first second : Bool} (hstep : x.step (.spawn first second) = some x') :
    x'.Sized := by
  obtain ⟨s, hs, rfl⟩ := Option.map_eq_some_iff.mp hstep
  obtain ⟨replaced, c, hsub, rfl⟩ := Streamer.step_spawn hs
  obtain ⟨hlog, -, hidle, -⟩ := Streamer.spawnSession_spec (s := x.streamer) c first second
  refine h.quiet [] (by rw [hlog, List.append_nil]) rfl (fun hne => absurd hidle hne) fun e he f hf => ?_
  rcases mem_fedAfter hf with ⟨hsent, hcall⟩ | ⟨hspawn, -⟩
  · have hframe : c.frame = f := by
      rw [Streamer.calling, hsub] at hcall
      exact Option.some.inj hcall
    cases hspawns : x.streamer.spawns first second with
    | true =>
      obtain ⟨e', henc, hw, hh, -⟩ := (Streamer.spawnSession_handed (c := c) hspawns).session
      rw [Streamer.source_idle hidle] at he
      rw [Option.mem_unique he henc, hw, hh, ← hframe]
      rfl
    | false => exact absurd (Streamer.spawnSession_dropped hspawns).sent hsent
  · cases hspawn

private theorem framed_framed (s : Streamer) (e : EncoderSession) (au : EncodedAu) {fs : List BgraFrame}
    (h : ∀ f ∈ fs, f.size = (e.w, e.h)) : Framed (s.framed e au) fs where
  header := ⟨_, FrameHeader.parse_message _ au.data, rfl, rfl⟩
  sized := h

theorem Sized.other (h : x.Sized) (hsubmit : a.submitted = none) (hspawn : ∀ first second, a ≠ .spawn first second)
    (hstep : x.step a = some x') : x'.Sized := by
  obtain ⟨s, hs, rfl⟩ := Option.map_eq_some_iff.mp hstep
  obtain ⟨hcall, hsent, -, -, -, -, g, henc, -⟩ := Streamer.step_unmoved hsubmit hspawn hs
  have hcalling : s.submitter ≠ .idle → s.enc = none := by
    intro hne
    have hne' : x.streamer.submitter ≠ .idle := fun hidle =>
      hne (Streamer.call_eq_none_iff.mp (hcall.trans (Streamer.call_eq_none_iff.mpr hidle)))
    rw [henc, h.calling hne', Option.map_none]
  cases a with
  | submit bgra w hh now => cases hsubmit
  | spawn first second => exact absurd rfl (hspawn first second)
  | drain au =>
    obtain ⟨e, he, hlog, hsize⟩ := Streamer.step_drain hs
    refine ⟨hcalling, h.fedAfter rfl hsent fun e' he' => ⟨e, he, hsize e' he'⟩, fun p hp => ?_⟩
    rw [hlog, List.drop_left] at hp
    rcases List.mem_append.mp hp with hold | hnew
    · exact h.shown p hold
    · obtain rfl := List.mem_singleton.mp hnew
      exact framed_framed x.streamer e au (h.fed e he)
  | joined =>
    obtain ⟨old, died, sizeChanged, c, hsub, rfl⟩ := Streamer.step_joined hs
    have hnone : (x.streamer.retire old died sizeChanged c).source = none := by
      have hspawning : (x.streamer.retire old died sizeChanged c).submitter = .spawning true c := rfl
      rw [Streamer.source_spawning hspawning]
      exact hcalling (by simp [Streamer.retire])
    refine h.quiet (if sizeChanged then [.resetKeyframe] else []) ?_ ?_ hcalling fun e he => ?_
    · cases sizeChanged with
      | true => rfl
      | false => exact (List.append_nil _).symm
    · cases sizeChanged <;> rfl
    · rw [hnone] at he
      cases he
  | requestKeyframe =>
    cases hs
    exact h.quiet [] (List.append_nil _).symm rfl hcalling (h.fedAfter rfl hsent fun e he => ⟨e, he, rfl, rfl⟩)
  | feed =>
    cases hs
    exact h.quiet [] (List.append_nil _).symm rfl hcalling
      (h.fedAfter rfl hsent fun e he => Streamer.source_withSession he fun _ => ⟨rfl, rfl⟩)
  | feederDied =>
    cases hs
    exact h.quiet [] (List.append_nil _).symm rfl hcalling
      (h.fedAfter rfl hsent fun e he => Streamer.source_withSession he fun _ => ⟨rfl, rfl⟩)
  | drainEnded =>
    obtain ⟨hlog, hsource⟩ := Streamer.step_drainEnded hs
    exact h.quiet [] (hlog.trans (List.append_nil _).symm) rfl hcalling (h.fedAfter rfl hsent hsource)

private theorem Sized.step (h : x.Sized) (hstep : x.step a = some x') : x'.Sized := by
  rcases a.cases_submit with ⟨bgra, w, hh, now, rfl⟩ | ⟨first, second, rfl⟩ | ⟨hsubmit, hspawn⟩
  · exact h.submit hstep
  · exact h.spawn hstep
  · exact h.other hsubmit hspawn hstep

/-- In every run, a message is framed for the session it comes from. -/
private theorem run_sized {fps : UInt32} {codec : Codec} {as : List StreamAction}
    (hrun : Lts.run Viewed.step (new fps codec) as = some x) : x.Sized :=
  Lts.Reachable.invariant (P := Sized) (fun _ _ _ => Sized.step) ⟨as, hrun⟩ (new_sized fps codec)

end Steps

/-- The header of a message tells the size of the present. -/
def Truthful (p : Presentation) (m : Streamed) : Prop :=
  ∃ hdr ∈ FrameHeader.parse m.msg, hdr.width.toNat = p.scanout.w ∧ hdr.height.toNat = p.scanout.h

private theorem Framed.truthful_iff {m : Streamed} {fs : List BgraFrame} (h : Framed m fs) {f : BgraFrame}
    (hfed : f ∈ fs) {p : Presentation} (hsize : f.size = (p.scanout.width, p.scanout.height)) :
    Truthful p m ↔ p.scanout.w < 2 ^ 16 ∧ p.scanout.h < 2 ^ 16 := by
  obtain ⟨⟨hdr, hparse, hwidth, hheight⟩, hsized⟩ := h
  have hdims := (hsized f hfed).symm.trans hsize
  simp only [Prod.mk.injEq] at hdims
  have hw : hdr.width.toNat = p.scanout.w % 2 ^ 16 := by
    rw [hwidth, hdims.1, UInt32.toNat_toUInt16]
    rfl
  have hh : hdr.height.toNat = p.scanout.h % 2 ^ 16 := by
    rw [hheight, hdims.2, UInt32.toNat_toUInt16]
    rfl
  constructor
  · rintro ⟨hdr', hparse', hw', hh'⟩
    obtain rfl := Option.mem_unique hparse hparse'
    omega
  · rintro ⟨hw', hh'⟩
    exact ⟨hdr, hparse, by omega, by omega⟩

/-- A frame that is submitted, and the first access unit of the session that is spawned for it. -/
private theorem shows_first (f : BgraFrame) : ∃ x m,
    Lts.run step (new 60 .h264) [.submit f.bgra f.w f.h 0, .spawn true true, .drain ⟨[0], true, 1⟩] = some x ∧
      (m, [f]) ∈ x.shown :=
  ⟨_, _, rfl, List.mem_singleton_self _⟩

def wideScanout (width height : UInt32) : ScanoutPresent where
  width := width
  height := height
  pitch := width * 4
  format := Format.b8g8r8a8
  scanoutAddr := 0

/-- A frame that the device hands over for a present has accepted geometry.  The messages of a session that was handed
it tell the size of the present in their headers exactly when both sides of it are below `2 ^ 16`. -/
theorem headers_true_iff {fps : UInt32} {codec : Codec} {as : List StreamAction} {x : Viewed}
    (hrun : Lts.run step (new fps codec) as = some x) {env : Env} {d : Backend} {p : Presentation} {seqno : UInt64}
    {ctx : Fin NUM_CONTEXTS} {f : BgraFrame} (hf : d.HandsOver (d.handlePresent env p seqno ctx) f)
    {m : Streamed} {fs : List BgraFrame} (hshown : (m, fs) ∈ x.shown) (hfed : f ∈ fs) :
    p.scanout.fbBytes.isSome ∧ (Truthful p m ↔ p.scanout.w < 2 ^ 16 ∧ p.scanout.h < 2 ^ 16) := by
  obtain ⟨haccepted, hsize⟩ := Backend.handlePresent_size hf
  exact ⟨haccepted, ((run_sized hrun).shown (m, fs) hshown).truthful_iff hfed hsize⟩

/-- A present of two pixels. -/
theorem headers_true_iff_small : ∃ as x bgra m,
    Lts.run step (new 60 .h264) as = some x ∧ (m, [⟨bgra, 2, 1⟩]) ∈ x.shown ∧
      Truthful (.full (wideScanout 2 1)) m := by
  obtain ⟨bgra, hf⟩ := Backend.streamingDevice_handsOver 8 (wideScanout 2 1) (by decide +kernel) (by decide +kernel)
    (show _ = some 0 by decide +kernel)
  obtain ⟨x, m, hrun, hshown⟩ := shows_first ⟨bgra, 2, 1⟩
  exact ⟨_, x, bgra, m, hrun, hshown,
    (headers_true_iff hrun hf hshown (List.mem_singleton_self _)).2.mpr (by decide)⟩

/-- A row of `2 ^ 16` pixels is accepted, and its header says that it is 0 pixels wide. -/
theorem headers_not_always_true : ¬ ∀ (fps : UInt32) (codec : Codec) (as : List StreamAction) (x : Viewed),
    Lts.run step (new fps codec) as = some x →
    ∀ (env : Env) (d : Backend) (p : Presentation) (seqno : UInt64) (ctx : Fin NUM_CONTEXTS) (f : BgraFrame),
    d.HandsOver (d.handlePresent env p seqno ctx) f → ∀ m fs, (m, fs) ∈ x.shown → f ∈ fs → Truthful p m := by
  intro hall
  obtain ⟨bgra, hf⟩ := Backend.streamingDevice_handsOver 262144 (wideScanout 65536 1) (by decide +kernel)
    (by decide +kernel) (show _ = some 0 by decide +kernel)
  obtain ⟨x, m, hrun, hshown⟩ := shows_first ⟨bgra, 65536, 1⟩
  have htrue := hall 60 .h264 _ x hrun Env.idle _ _ 1 0 _ hf m _ hshown (List.mem_singleton_self _)
  have hsized := ((run_sized hrun).shown _ hshown).truthful_iff (List.mem_singleton_self _)
    (Backend.handlePresent_size hf).2
  have hnarrow : ¬ ((wideScanout 65536 1).w < 2 ^ 16 ∧ (wideScanout 65536 1).h < 2 ^ 16) := by decide
  exact hnarrow (hsized.mp htrue)

end Viewed

end Infinigpu
