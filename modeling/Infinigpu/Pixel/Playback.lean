import Infinigpu.Pixel.Delivery
import Infinigpu.Pixel.Headers

/-!
# What a viewer plays (`infinigpu-viewer`, `run_stream`)

The thread of the stream feeds the access units of the video messages to its decoder, from a keyframe on and until the
decoder refuses one; then it waits for the next keyframe.  The decoder is a parameter.  `Plays` is what the thread
expects of it: a keyframe decodes by itself, a P-frame where the decoder holds its predecessor, and behind a gap it is
refused.

A viewer that joins late has a gap between the keyframe that it is primed with and the first live frame, and no other:
`Broadcasting.viewer_shows`.
-/

namespace Infinigpu

def FrameHeader.isKeyframe (h : FrameHeader) : Bool := h.flags &&& Proto.keyframe != 0

/-! ### The thread of the stream -/

section Thread

variable {S Pic : Type}

/-- The thread of the stream: its decoder, the cursor it keeps, and the frames it has handed to the window, each with
its number and whether it is a keyframe. -/
structure StreamThread (S Pic : Type) where
  decoder : S
  synced : Bool
  cursor : CursorSlot
  frames : List (Pic × UInt32 × Bool)
  /-- The access units that the decoder has refused. -/
  refused : Nat

namespace StreamThread

def new (decoder : S) : StreamThread S Pic := ⟨decoder, false, .default, [], 0⟩

/-- One binary message; `decode` is the decoder, which may refuse an access unit or have no picture yet. -/
def receive (decode : List UInt8 → S → Except Unit (Option Pic) × S) (t : StreamThread S Pic) (data : List UInt8) :
    StreamThread S Pic :=
  if 4 ≤ data.length ∧ u32At data 0 = Plane.magic then
    { t with cursor := t.cursor.receive data }
  else
    match FrameHeader.parse data with
    | none => t
    | some hdr =>
      if !t.synced && !hdr.isKeyframe then
        t
      else
        match decode (data.drop Proto.headerLen) t.decoder with
        | (.ok (some pic), decoder) =>
          { t with decoder, synced := true, frames := t.frames ++ [(pic, hdr.frameSeq, hdr.isKeyframe)] }
        | (.ok none, decoder) => { t with decoder }
        | (.error _, decoder) => { t with decoder, synced := false, refused := t.refused + 1 }

variable {decode : List UInt8 → S → Except Unit (Option Pic) × S} {t : StreamThread S Pic}

private theorem receive_plane (ph : PlaneHeader) (body : List UInt8) :
    t.receive decode (ph.message body) = { t with cursor := t.cursor.receive (ph.message body) } := by
  have hlen : 4 ≤ (ph.message body).length := by
    rw [PlaneHeader.message, List.length_append, PlaneHeader.toBytes_length, Plane.headerLen]
    omega
  rw [receive, if_pos ⟨hlen, PlaneHeader.u32At_message ph body⟩]

private theorem receive_frame (h : FrameHeader) (au : List UInt8) :
    t.receive decode (h.message au) =
      if !t.synced && !h.isKeyframe then
        t
      else
        match decode au t.decoder with
        | (.ok (some pic), decoder) =>
          { t with decoder, synced := true, frames := t.frames ++ [(pic, h.frameSeq, h.isKeyframe)] }
        | (.ok none, decoder) => { t with decoder }
        | (.error _, decoder) => { t with decoder, synced := false, refused := t.refused + 1 } := by
  have hmagic : u32At (h.message au) 0 = Proto.magic := Bytes.u32_ofValue Proto.magic
  have hdrop : (h.message au).drop Proto.headerLen = au := rfl
  rw [receive, if_neg (fun hplane => absurd (hmagic.symm.trans hplane.2) (by decide)),
    FrameHeader.parse_message, hdrop]

end StreamThread

/-- The message of a frame of the stream, and whether it is a keyframe. -/
def streamMessage (frame : FrameHeader × List UInt8) : List UInt8 × Bool :=
  (frame.1.message frame.2, frame.1.isKeyframe)

/-- The decoder plays the stream: its `n`-th frame is `picture n`, and `holds n` says of the decoder that it has
decoded the frames up to it. -/
structure Plays (decode : List UInt8 → S → Except Unit (Option Pic) × S) (stream : List (FrameHeader × List UInt8))
    (picture : Nat → Pic) (holds : Nat → S → Prop) : Prop where
  keyframe : ∀ n h au s, stream[n]? = some (h, au) → h.isKeyframe = true →
    (decode au s).1 = .ok (some (picture n)) ∧ holds n (decode au s).2
  next : ∀ n h au s, stream[n + 1]? = some (h, au) → h.isKeyframe = false → holds n s →
    (decode au s).1 = .ok (some (picture (n + 1))) ∧ holds (n + 1) (decode au s).2
  gap : ∀ m n h au s, m + 1 < n → stream[n]? = some (h, au) →
    (∀ k frame, m < k → k ≤ n → stream[k]? = some frame → frame.1.isKeyframe = false) → holds m s →
    (decode au s).1 = .error ()

end Thread

/-! ### Playing -/

section Playing

variable {S Pic : Type} {decode : List UInt8 → S → Except Unit (Option Pic) × S}
  {stream : List (FrameHeader × List UInt8)} {picture : Nat → Pic} {holds : Nat → S → Prop}

/-- What the window gets of the `n`-th frame of the stream. -/
def showing (stream : List (FrameHeader × List UInt8)) (picture : Nat → Pic) (n : Nat) :
    Option (Pic × UInt32 × Bool) :=
  stream[n]?.map fun frame => (picture n, frame.1.frameSeq, frame.1.isKeyframe)

/-- The entry is a frame of the stream, the `number e.index`-th, or a plane message. -/
def Carries (stream : List (FrameHeader × List UInt8)) (number : Nat → Nat) (e : Entry (List UInt8)) : Prop :=
  match e.lane with
  | .video keyframe => ∃ frame, stream[number e.index]? = some frame ∧ streamMessage frame = (e.msg, keyframe)
  | .control => ∃ (ph : PlaneHeader) (body : List UInt8), e.msg = ph.message body

/-- Behind the `i`-th frame that the client is offered the stream goes on without a gap, or without a keyframe up to
the next one it is offered; the latter only behind the first. -/
def Contiguous (stream : List (FrameHeader × List UInt8)) (number : Nat → Nat) : Prop :=
  ∀ i, number (i + 1) = number i + 1 ∨
    i = 0 ∧ number i + 1 < number (i + 1) ∧
      ∀ k frame, number i < k → k < number (i + 1) → stream[k]? = some frame → frame.1.isKeyframe = false

/-- What the viewer has done with the entries `es`: it has shown the frames `ns` of the stream. -/
structure Played (stream : List (FrameHeader × List UInt8)) (picture : Nat → Pic) (holds : Nat → S → Prop)
    (number : Nat → Nat) (es : List (Entry (List UInt8))) (t : StreamThread S Pic) (ns : List Nat) : Prop where
  frames : t.frames.map some = ns.map (showing stream picture)
  increasing : ns.Pairwise (· < ·)
  shown : ∀ n ∈ ns, ∃ e ∈ videos es, number e.index = n
  /-- It has shown the keyframes, and the frames whose predecessors it has shown. -/
  complete : ∀ e ∈ videos es, number e.index ∈ ns ↔ e.lane = .video true ∨ ∃ n ∈ ns, n + 1 = number e.index
  synced : t.synced = true → ∃ e, (videos es).getLast? = some e ∧ number e.index ∈ ns ∧
    holds (number e.index) t.decoder
  unsynced : t.synced = false → ∀ e, (videos es).getLast? = some e → number e.index ∉ ns
  refused : t.refused ≤ 1
  late : t.refused ≠ 0 → ∃ e ∈ videos es, e.index ≠ 0

variable {number : Nat → Nat} {es : List (Entry (List UInt8))} {e : Entry (List UInt8)} {t t' : StreamThread S Pic}
  {ns : List Nat} {keyframe : Bool}

private theorem videos_snoc (hlane : e.lane = .video keyframe) : videos (es ++ [e]) = videos es ++ [e] := by
  rw [videos_append]
  refine congrArg (videos es ++ ·) (List.filter_cons_of_pos ?_)
  rw [Entry.isVideo, hlane]
  rfl

private theorem videos_snoc_control (hlane : e.lane = .control) : videos (es ++ [e]) = videos es := by
  rw [videos_append]
  refine (congrArg (videos es ++ ·) (List.filter_cons_of_neg ?_)).trans (List.append_nil _)
  rw [Entry.isVideo, hlane]
  decide

/-- The last frame that a client gets comes after the others, and a P-frame right after its predecessor. -/
private theorem Reaches.follows {os : List (Offer (List UInt8))} (h : Reaches os (es ++ [e]))
    (hlane : e.lane = .video keyframe) :
    (∀ f ∈ videos es, f.index < e.index) ∧
      (keyframe = false → e.index = 0 ∨ ∃ f, (videos es).getLast? = some f ∧ f.index + 1 = e.index) := by
  have hincreasing := h.increasing
  have hdecodable := h.decodable
  rw [videos_snoc hlane] at hincreasing hdecodable
  rw [List.map_append, List.pairwise_append] at hincreasing
  obtain ⟨hsorted, -, hlast⟩ := hincreasing
  have hbefore : ∀ f ∈ videos es, f.index < e.index := fun f hf =>
    hlast f.index (List.mem_map_of_mem hf) e.index List.mem_cons_self
  refine ⟨hbefore, fun hk => ?_⟩
  subst hk
  refine (hdecodable (videos es) e [] rfl hlane).imp_right fun ⟨g, hg, hindex⟩ => ?_
  rcases List.eq_nil_or_concat (videos es) with hnil | ⟨front, last, hconcat⟩
  · rw [hnil] at hg
    cases hg
  · rw [List.concat_eq_append] at hconcat
    refine ⟨last, by rw [hconcat, List.getLast?_concat], ?_⟩
    have hlt := hbefore last (by rw [hconcat]; exact List.mem_append_right _ List.mem_cons_self)
    rw [hconcat] at hg hsorted
    rcases List.mem_append.1 hg with hfront | hlast'
    · rw [List.map_append, List.pairwise_append] at hsorted
      have hle := hsorted.2.2 g.index (List.mem_map_of_mem hfront) last.index List.mem_cons_self
      omega
    · rw [List.mem_singleton.1 hlast'] at hindex
      exact hindex

/-- What has been shown are frames from before the entry. -/
theorem Played.before (h : Played stream picture holds number es t ns) (hmono : StrictMono number)
    (hbefore : ∀ f ∈ videos es, f.index < e.index) : ∀ n ∈ ns, n < number e.index := by
  intro n hn
  obtain ⟨f, hf, rfl⟩ := h.shown n hn
  exact hmono (hbefore f hf)

private theorem Played.control (h : Played stream picture holds number es t ns) (hlane : e.lane = .control)
    (cursor : CursorSlot) : Played stream picture holds number (es ++ [e]) { t with cursor } ns := by
  have hvideos : videos (es ++ [e]) = videos es := videos_snoc_control hlane
  refine ⟨h.frames, h.increasing, ?_, ?_, ?_, ?_, h.refused, ?_⟩
  · rw [hvideos]
    exact h.shown
  · rw [hvideos]
    exact h.complete
  · rw [hvideos]
    exact h.synced
  · rw [hvideos]
    exact h.unsynced
  · rw [hvideos]
    exact h.late

/-- A frame that is shown. -/
private theorem Played.show (h : Played stream picture holds number es t ns) (hmono : StrictMono number)
    (hlane : e.lane = .video keyframe) (hbefore : ∀ f ∈ videos es, f.index < e.index)
    (hdue : keyframe = true ∨ ∃ n ∈ ns, n + 1 = number e.index) {d : S} {frame : Pic × UInt32 × Bool}
    (hframe : showing stream picture (number e.index) = some frame) (hholds : holds (number e.index) d) :
    Played stream picture holds number (es ++ [e])
      { t with decoder := d, synced := true, frames := t.frames ++ [frame] } (ns ++ [number e.index]) := by
  have hearlier := h.before hmono hbefore
  have hvideos : videos (es ++ [e]) = videos es ++ [e] := videos_snoc hlane
  refine ⟨?_, ?_, fun n hn => ?_, ?_, fun _ => ⟨e, ?_, List.mem_append_right _ List.mem_cons_self, hholds⟩, nofun,
    h.refused, fun hr => ?_⟩
  · rw [List.map_append, List.map_append, h.frames, List.map_singleton, List.map_singleton, hframe]
  · rw [List.pairwise_append]
    refine ⟨h.increasing, List.pairwise_singleton _ _, fun n hn n' hn' => ?_⟩
    rw [List.mem_singleton.1 hn']
    exact hearlier n hn
  · rw [hvideos]
    rcases List.mem_append.1 hn with hn | hn
    · obtain ⟨f, hf, hnumber⟩ := h.shown n hn
      exact ⟨f, List.mem_append_left _ hf, hnumber⟩
    · exact ⟨e, List.mem_append_right _ List.mem_cons_self, (List.mem_singleton.1 hn).symm⟩
  · rw [hvideos]
    intro f hf
    rcases List.mem_append.1 hf with hf | hf
    · have hlt : number f.index < number e.index := hmono (hbefore f hf)
      have hcomplete := h.complete f hf
      simp only [List.mem_append, List.mem_singleton]
      constructor
      · rintro (hn | hn)
        · exact (hcomplete.1 hn).imp_right fun ⟨n, hn, hnext⟩ => ⟨n, .inl hn, hnext⟩
        · omega
      · rintro (hk | ⟨n, hn | rfl, hnext⟩)
        · exact .inl (hcomplete.2 (.inl hk))
        · exact .inl (hcomplete.2 (.inr ⟨n, hn, hnext⟩))
        · omega
    · rw [List.mem_singleton.1 hf]
      refine iff_of_true (List.mem_append_right _ List.mem_cons_self) ?_
      rcases hdue with hk | ⟨n, hn, hnext⟩
      · rw [hlane, hk]
        exact .inl rfl
      · exact .inr ⟨n, List.mem_append_left _ hn, hnext⟩
  · rw [hvideos, List.getLast?_concat]
  · obtain ⟨f, hf, hindex⟩ := h.late hr
    rw [hvideos]
    exact ⟨f, List.mem_append_left _ hf, hindex⟩

/-- A P-frame that is not shown: what comes before it has not been shown, and the thread waits for a keyframe. -/
private theorem Played.skip (h : Played stream picture holds number es t ns) (hmono : StrictMono number)
    (hlane : e.lane = .video false) (hbefore : ∀ f ∈ videos es, f.index < e.index)
    (hgap : ∀ n ∈ ns, n + 1 ≠ number e.index) (hframes : t'.frames = t.frames) (hsynced : t'.synced = false)
    (hrefused : t'.refused = t.refused ∨ t.refused = 0 ∧ t'.refused = 1 ∧ e.index ≠ 0) :
    Played stream picture holds number (es ++ [e]) t' ns := by
  have hearlier := h.before hmono hbefore
  have hvideos : videos (es ++ [e]) = videos es ++ [e] := videos_snoc hlane
  have hnot : number e.index ∉ ns := fun hn => Nat.lt_irrefl _ (hearlier _ hn)
  refine ⟨by rw [hframes, h.frames], h.increasing,
    fun n hn => ?_, ?_, fun hs => ?_, fun _ f hf => ?_, ?_, fun hr => ?_⟩
  · rw [hvideos]
    obtain ⟨f, hf, hnumber⟩ := h.shown n hn
    exact ⟨f, List.mem_append_left _ hf, hnumber⟩
  · rw [hvideos]
    intro f hf
    rcases List.mem_append.1 hf with hf | hf
    · exact h.complete f hf
    · rw [List.mem_singleton.1 hf]
      refine iff_of_false hnot ?_
      rintro (hk | ⟨n, hn, hnext⟩)
      · rw [hlane] at hk
        cases hk
      · exact hgap n hn hnext
  · rw [hsynced] at hs
    cases hs
  · rw [hvideos, List.getLast?_concat, Option.some_inj] at hf
    rw [← hf]
    exact hnot
  · have hone := h.refused
    omega
  · rw [hvideos]
    rcases hrefused with hsame | ⟨-, -, hindex⟩
    · obtain ⟨f, hf, hindex⟩ := h.late (by rw [← hsame]; exact hr)
      exact ⟨f, List.mem_append_left _ hf, hindex⟩
    · exact ⟨e, List.mem_append_right _ List.mem_cons_self, hindex⟩

private theorem receive_shown {h : FrameHeader} {au : List UInt8} {pic : Pic}
    (hready : t.synced = true ∨ h.isKeyframe = true) (hdecode : (decode au t.decoder).1 = .ok (some pic)) :
    t.receive decode (h.message au) =
      { t with
        decoder := (decode au t.decoder).2
        synced := true
        frames := t.frames ++ [(pic, h.frameSeq, h.isKeyframe)] } := by
  rw [StreamThread.receive_frame, if_neg (by rcases hready with h | h <;> simp [h])]
  split
  · rename_i pic' d hres
    rw [hres] at hdecode ⊢
    cases hdecode
    rfl
  · rename_i d hres
    rw [hres] at hdecode
    cases hdecode
  · rename_i d hres
    rw [hres] at hdecode
    cases hdecode

private theorem receive_refused {h : FrameHeader} {au : List UInt8} (hsynced : t.synced = true)
    (hdecode : (decode au t.decoder).1 = .error ()) : t.receive decode (h.message au) =
      { t with decoder := (decode au t.decoder).2, synced := false, refused := t.refused + 1 } := by
  rw [StreamThread.receive_frame, if_neg (by simp [hsynced])]
  split
  · rename_i pic d hres
    rw [hres] at hdecode
    cases hdecode
  · rename_i d hres
    rw [hres] at hdecode
    cases hdecode
  · rename_i d hres
    rw [hres]

/-- One message. -/
theorem Played.receive {os : List (Offer (List UInt8))} (h : Played stream picture holds number es t ns)
    (hplays : Plays decode stream picture holds) (hmono : StrictMono number) (hcontiguous : Contiguous stream number)
    (hreaches : Reaches os (es ++ [e])) (hcarries : Carries stream number e) :
    ∃ ns', Played stream picture holds number (es ++ [e]) (t.receive decode e.msg) ns' := by
  unfold Carries at hcarries
  cases hlane : e.lane with
  | control =>
    rw [hlane] at hcarries
    obtain ⟨ph, body, hmsg⟩ := hcarries
    rw [hmsg, StreamThread.receive_plane]
    exact ⟨ns, h.control hlane _⟩
  | video keyframe =>
    rw [hlane] at hcarries
    obtain ⟨⟨hdr, au⟩, hframe, hmessage⟩ := hcarries
    obtain ⟨hmsg, hkey⟩ := Prod.mk.inj hmessage
    obtain ⟨hbefore, hpredecessor⟩ := hreaches.follows hlane
    have hshowing : showing stream picture (number e.index) =
        some (picture (number e.index), hdr.frameSeq, hdr.isKeyframe) := by rw [showing, hframe]; rfl
    rw [← hmsg]
    cases hk : hdr.isKeyframe with
    | true =>
      obtain ⟨hdecode, hholds⟩ := hplays.keyframe _ hdr au t.decoder hframe hk
      rw [receive_shown (.inr hk) hdecode]
      exact ⟨_, h.show hmono hlane hbefore (.inl (hkey ▸ hk)) hshowing hholds⟩
    | false =>
      have hlane' : e.lane = .video false := by rw [hlane, ← hkey]; exact congrArg Lane.video hk
      have hpredecessor := hpredecessor (hkey ▸ hk)
      cases hs : t.synced with
      | false =>
        have hignored : t.receive decode (hdr.message au) = t := by
          rw [StreamThread.receive_frame, if_pos (by simp [hs, hk])]
        rw [hignored]
        refine ⟨ns, h.skip hmono hlane' hbefore (fun n hn hnext => ?_) rfl hs (.inl rfl)⟩
        obtain ⟨f, hf, rfl⟩ := h.shown n hn
        have hfe := hbefore f hf
        -- it would be the frame right before this one, which has not been shown
        rcases hpredecessor with hzero | ⟨last, hlast, hindex⟩
        · omega
        · have hle : number f.index ≤ number last.index := hmono.monotone (by omega)
          have hlt : number last.index < number e.index := hmono (by omega)
          have hsame : number f.index = number last.index := by omega
          exact h.unsynced hs last hlast (hsame ▸ hn)
      | true =>
        obtain ⟨last, hlast, hshown, hholds⟩ := h.synced hs
        have hmem : last ∈ videos es := List.mem_of_getLast? hlast
        have hindex : last.index + 1 = e.index := by
          have hlt := hbefore last hmem
          rcases hpredecessor with hzero | ⟨f, hf, hindex⟩
          · omega
          · rwa [Option.some_inj.1 (hlast.symm.trans hf)]
        rcases hcontiguous last.index with hnext | ⟨hzero, hgap, hnone⟩
        · rw [hindex] at hnext
          rw [hnext] at hframe
          obtain ⟨hdecode, hholds'⟩ := hplays.next _ hdr au t.decoder hframe hk hholds
          rw [← hnext] at hdecode hholds'
          rw [receive_shown (.inl hs) hdecode]
          exact ⟨_, h.show hmono hlane' hbefore (.inr ⟨_, hshown, hnext.symm⟩) hshowing hholds'⟩
        · rw [hindex] at hgap hnone
          have hrefused : (decode au t.decoder).1 = .error () := by
            refine hplays.gap _ _ hdr au t.decoder hgap hframe (fun k frame hlt hle hframe' => ?_) hholds
            rcases Nat.lt_or_eq_of_le hle with hlt' | rfl
            · exact hnone k frame hlt hlt' hframe'
            · rw [← Option.some_inj.1 (hframe.symm.trans hframe')]
              exact hk
          rw [receive_refused hs hrefused]
          have hnever : t.refused = 0 := by
            by_contra hr
            obtain ⟨f, hf, hne⟩ := h.late hr
            have hlt := hbefore f hf
            omega
          refine ⟨ns, h.skip hmono hlane' hbefore (fun n hn hnext => ?_) rfl rfl
            (.inr ⟨hnever, by rw [hnever], by omega⟩)⟩
          obtain ⟨f, hf, rfl⟩ := h.shown n hn
          have hle : number f.index ≤ number last.index := hmono.monotone (by have := hbefore f hf; omega)
          omega

private theorem Reaches.front {os : List (Offer (List UInt8))} {rest : List (Entry (List UInt8))}
    (h : Reaches os (es ++ rest)) :
    Reaches os es := by
  have hvideos : videos (es ++ rest) = videos es ++ videos rest := videos_append _ _
  refine ⟨fun e he => h.frames e (List.mem_append_left _ he),
    fun e he => h.controls e (List.mem_append_left _ he), ?_, ?_⟩
  · have hincreasing := h.increasing
    rw [hvideos, List.map_append, List.pairwise_append] at hincreasing
    exact hincreasing.1
  · have hdecodable := h.decodable
    rw [hvideos] at hdecodable
    exact hdecodable.left

/-- All the messages that a viewer gets. -/
private theorem played_run {os : List (Offer (List UInt8))} (hplays : Plays decode stream picture holds)
    (hmono : StrictMono number) (hcontiguous : Contiguous stream number) (hreaches : Reaches os es)
    (hcarries : ∀ e ∈ es, Carries stream number e) (decoder : S) :
    ∃ ns, Played stream picture holds number es
      ((es.map Entry.msg).foldl (StreamThread.receive decode) (.new decoder))
      ns := by
  induction es using List.reverseRecOn with
  | nil => exact ⟨[], rfl, .nil, nofun, nofun, nofun, nofun, Nat.zero_le _, fun hr => absurd rfl hr⟩
  | append_singleton es e ih =>
    obtain ⟨ns, h⟩ := ih hreaches.front fun f hf => hcarries f (List.mem_append_left _ hf)
    rw [List.map_append, List.foldl_append]
    exact h.receive hplays hmono hcontiguous hreaches (hcarries e (List.mem_append_right _ List.mem_cons_self))

end Playing

/-! ### The frames that a client is due -/

namespace HubEvent

variable {M : Type}

def frame : HubEvent M → Option (M × Bool)
  | .broadcast msg keyframe => some (msg, keyframe)
  | _ => none

/-- The frames that have been broadcast. -/
def broadcasts (log : List (HubEvent M)) : List (M × Bool) := log.filterMap frame

private theorem frames_due (pre : List (HubEvent M)) (order : List (Σ _ : UInt32, PlaneCache M))
    (post : List (HubEvent M)) :
    frames (due pre order post) = (keyframeOf pre).toList.map (·, true) ++ broadcasts post := by
  have hpost : frames (post.filterMap offer) = broadcasts post := by
    rw [frames, broadcasts, List.filterMap_filterMap]
    refine List.filterMap_congr fun e _ => ?_
    cases e <;> rfl
  have hplanes : ∀ l : List (Σ _ : UInt32, PlaneCache M),
      frames (l.flatMap fun e => e.2.messages.map Offer.control) = [] := by
    intro l
    refine List.filterMap_eq_nil_iff.2 fun o ho => ?_
    obtain ⟨c, -, hc⟩ := List.mem_flatMap.1 ho
    obtain ⟨m, -, rfl⟩ := List.mem_map.1 hc
    rfl
  have hframes : ∀ l l' : List (Offer M), frames (l ++ l') = frames l ++ frames l' :=
    fun l l' => List.filterMap_append
  rw [due, Hub.priming, hframes, hframes, hplanes, List.append_nil, hpost]
  cases keyframeOf pre with
  | none => rfl
  | some k => rfl

/-- The cached keyframe is the last one that has been broadcast. -/
private theorem keyframeOf_last {log : List (HubEvent M)} {k : M} (h : keyframeOf log = some k) :
    ∃ i, (broadcasts log)[i]? = some (k, true) ∧
      ∀ (j : Nat) (f : M × Bool), i < j → (broadcasts log)[j]? = some f → f.2 = false := by
  induction log using List.reverseRecOn generalizing k with
  | nil => cases h
  | append_singleton log e ih =>
    rw [keyframeOf_snoc] at h
    have hsnoc : broadcasts (log ++ [e]) = broadcasts log ++ e.frame.toList := by
      rw [broadcasts, List.filterMap_append]
      cases he : e.frame with
      | none => simp [broadcasts, he]
      | some f => simp [broadcasts, he]
    rw [hsnoc]
    cases e with
    | broadcast msg keyframe =>
      cases keyframe with
      | true =>
        obtain rfl : msg = k := Option.some_inj.1 h
        refine ⟨(broadcasts log).length, ?_, fun j f hj hf => ?_⟩
        · rw [List.getElem?_append_right (Nat.le_refl _), Nat.sub_self]
          rfl
        · have hlt := (List.getElem?_eq_some_iff.1 hf).1
          rw [List.length_append] at hlt
          have hone : (frame (.broadcast msg true)).toList.length = 1 := rfl
          omega
      | false =>
        obtain ⟨i, hi, hlast⟩ := ih h
        refine ⟨i, ?_, fun j f hj hf => ?_⟩
        · rw [List.getElem?_append_left (List.getElem?_eq_some_iff.1 hi).1, hi]
        · by_cases hlt : j < (broadcasts log).length
          · rw [List.getElem?_append_left hlt] at hf
            exact hlast j f hj hf
          · rw [List.getElem?_append_right (Nat.not_lt.1 hlt)] at hf
            rcases List.mem_singleton.1 (List.mem_of_getElem? hf) with rfl
            rfl
    | control planeId op msg =>
      have hnone : (frame (.control planeId op msg)).toList = [] := rfl
      rw [hnone, List.append_nil]
      exact ih h
    | join id order =>
      have hnone : (frame (.join id order : HubEvent M)).toList = [] := rfl
      rw [hnone, List.append_nil]
      exact ih h
    | resetKeyframe => cases h
    | resetPlanes =>
      have hnone : (frame (.resetPlanes : HubEvent M)).toList = [] := rfl
      rw [hnone, List.append_nil]
      exact ih h

private theorem mem_cache {planes : Planes M} {planeId : UInt32} {op : UInt8} {msg : M} {id : UInt32}
    {c : PlaneCache M} (hc : (planes.cache planeId op msg).lookup id = some c) {m : M} (hm : m ∈ c.messages) :
    m = msg ∨ ∃ c', planes.lookup id = some c' ∧ m ∈ c'.messages := by
  unfold Planes.cache at hc
  split at hc
  · by_cases hid : id = planeId
    · rw [hid, AList.lookup_insert, Option.some_inj] at hc
      rw [← hc] at hm
      exact .inl (List.mem_singleton.1 hm)
    · rw [AList.lookup_insert_ne hid] at hc
      exact .inr ⟨c, hc, hm⟩
  · split at hc
    · by_cases hid : id = planeId
      · rw [hid, AList.lookup_insert, Option.some_inj] at hc
        rw [← hc] at hm
        rcases List.mem_append.1 hm with hdefine | hmove
        · right
          unfold Planes.entry at hdefine
          cases hold : planes.lookup planeId with
          | none =>
            rw [hold] at hdefine
            cases hdefine
          | some old =>
            rw [hold] at hdefine
            exact ⟨old, hid ▸ hold, List.mem_append_left _ hdefine⟩
        · exact .inl (List.mem_singleton.1 hmove)
      · rw [AList.lookup_insert_ne hid] at hc
        exact .inr ⟨c, hc, hm⟩
    · split at hc
      · by_cases hid : id = planeId
        · rw [hid, AList.lookup_erase] at hc
          cases hc
        · rw [AList.lookup_erase_ne hid] at hc
          exact .inr ⟨c, hc, hm⟩
      · exact .inr ⟨c, hc, hm⟩

/-- What the planes remember has been broadcast. -/
private theorem mem_messages {log : List (HubEvent M)} {id : UInt32} {c : PlaneCache M}
    (hc : (planesOf log).lookup id = some c) {m : M} (hm : m ∈ c.messages) :
    ∃ planeId op, .control planeId op m ∈ log := by
  induction log using List.reverseRecOn generalizing c with
  | nil => cases hc
  | append_singleton log e ih =>
    have hearlier : (planesOf log).lookup id = some c → ∃ planeId op, .control planeId op m ∈ log ++ [e] := by
      intro hc'
      obtain ⟨planeId, op, hlog⟩ := ih hc' hm
      exact ⟨planeId, op, List.mem_append_left _ hlog⟩
    rw [planesOf_snoc] at hc
    cases e with
    | control planeId op msg =>
      rcases mem_cache hc hm with rfl | ⟨c', hc', hm'⟩
      · exact ⟨planeId, op, List.mem_append_right _ List.mem_cons_self⟩
      · obtain ⟨planeId', op', hlog⟩ := ih hc' hm'
        exact ⟨planeId', op', List.mem_append_left _ hlog⟩
    | broadcast msg keyframe => exact hearlier hc
    | join id order => exact hearlier hc
    | resetKeyframe => exact hearlier hc
    | resetPlanes => cases hc

/-- The control messages that a client is due have been broadcast. -/
private theorem control_of_due {pre : List (HubEvent M)} {order : List (Σ _ : UInt32, PlaneCache M)}
    {post : List (HubEvent M)} (horder : order.Perm (planesOf pre).entries) (id : Nat) {m : M}
    (hm : .control m ∈ due pre order post) :
    ∃ planeId op, .control planeId op m ∈ pre ++ .join id order :: post := by
  rw [due, Hub.priming] at hm
  rcases List.mem_append.1 hm with hprime | hpost
  · rcases List.mem_append.1 hprime with hkey | hplane
    · obtain ⟨k, -, hk⟩ := Option.map_eq_some_iff.1 (Option.mem_toList.1 hkey)
      cases hk
    · obtain ⟨⟨planeId, c⟩, hentry, hc⟩ := List.mem_flatMap.1 hplane
      obtain ⟨m', hm', heq⟩ := List.mem_map.1 hc
      cases heq
      obtain ⟨planeId', op, hlog⟩ := mem_messages (AList.mem_lookup_iff.2 (horder.mem_iff.1 hentry)) hm'
      exact ⟨planeId', op, List.mem_append_left _ hlog⟩
  · obtain ⟨e, he, hoffer⟩ := List.mem_filterMap.1 hpost
    cases e with
    | control planeId op msg =>
      cases hoffer
      exact ⟨planeId, op, List.mem_append_right _ (List.mem_cons_of_mem _ he)⟩
    | broadcast msg keyframe => cases hoffer
    | join id order => cases hoffer
    | resetKeyframe => cases hoffer
    | resetPlanes => cases hoffer

end HubEvent

/-! ### The viewers of a hub -/

section Viewers

open HubEvent

variable {S Pic : Type} {decode : List UInt8 → S → Except Unit (Option Pic) × S}
  {stream : List (FrameHeader × List UInt8)} {picture : Nat → Pic} {holds : Nat → S → Prop}
  {pre post : List (HubEvent (List UInt8))} {order : List (Σ _ : UInt32, PlaneCache (List UInt8))}

/-- The first lies at `i`, the others in a row from `n` on. -/
def numbered (i n : Nat) : Nat → Nat
  | 0 => i
  | j + 1 => n + j

/-- Where the frames that a client is due lie in the stream: it may be primed with an earlier keyframe, the others
come in a row. -/
private theorem numbering (order : List (Σ _ : UInt32, PlaneCache (List UInt8)))
    (hpre : broadcasts pre ++ broadcasts post = stream.map streamMessage) :
    ∃ number, StrictMono number ∧ Contiguous stream number ∧
      ∀ (j : Nat) (f : List UInt8 × Bool), (frames (due pre order post))[j]? = some f →
        ∃ frame, stream[number j]? = some frame ∧ streamMessage frame = f := by
  have hlive : ∀ (j : Nat) (f : List UInt8 × Bool), (broadcasts post)[j]? = some f →
      ∃ frame, stream[(broadcasts pre).length + j]? = some frame ∧ streamMessage frame = f := by
    intro j f hf
    have hstream : (stream.map streamMessage)[(broadcasts pre).length + j]? = some f := by
      rw [← hpre, List.getElem?_append_right (Nat.le_add_right _ _), Nat.add_sub_cancel_left, hf]
    rwa [List.getElem?_map, Option.map_eq_some_iff] at hstream
  rw [frames_due]
  cases hkey : keyframeOf pre with
  | none =>
    refine ⟨fun j => (broadcasts pre).length + j, fun i j hij => Nat.add_lt_add_left hij _, fun i => .inl rfl, ?_⟩
    exact hlive
  | some k =>
    obtain ⟨i, hi, hlast⟩ := keyframeOf_last hkey
    have hlt : i < (broadcasts pre).length := (List.getElem?_eq_some_iff.1 hi).1
    have hearlier : ∀ (j : Nat) (f : List UInt8 × Bool), (broadcasts pre)[j]? = some f →
        ∃ frame, stream[j]? = some frame ∧ streamMessage frame = f := by
      intro j f hf
      have hstream : (stream.map streamMessage)[j]? = some f := by
        rw [← hpre, List.getElem?_append_left (List.getElem?_eq_some_iff.1 hf).1, hf]
      rwa [List.getElem?_map, Option.map_eq_some_iff] at hstream
    refine ⟨numbered i (broadcasts pre).length, strictMono_nat_of_lt_succ fun j => ?_, fun j => ?_, fun j f hf => ?_⟩
    · cases j with
      | zero => exact hlt
      | succ j => exact Nat.lt_succ_self _
    · cases j with
      | zero =>
        rcases Nat.eq_or_lt_of_le hlt with hnext | hgap
        · exact .inl hnext.symm
        · -- the client has missed the frames since the keyframe
          refine .inr ⟨rfl, hgap, fun n frame (hin : i < n) (hn : n < (broadcasts pre).length) hframe => ?_⟩
          obtain ⟨f, hf⟩ : ∃ f, (broadcasts pre)[n]? = some f := ⟨_, List.getElem?_eq_getElem hn⟩
          obtain ⟨frame', hframe', hmessage⟩ := hearlier n f hf
          obtain rfl := Option.some_inj.1 (hframe.symm.trans hframe')
          have hfalse := hlast n f hin hf
          rwa [← hmessage] at hfalse
      | succ j => exact .inl rfl
    · cases j with
      | zero =>
        obtain rfl : (k, true) = f := Option.some_inj.1 hf
        exact hearlier i _ hi
      | succ j => exact hlive j f hf

/-- Every viewer of the hub, with any part of what it has been sent: it shows frames of the stream, in order and
without repetition, each with its own picture.  Of those that reach it, the `number e.index`-th ones of the stream,
these are the keyframes and the frames whose predecessors it has shown; and at most once does its decoder refuse
one. -/
theorem Broadcasting.viewer_shows {b : Broadcasting (List UInt8)} {as : List (HubAction (List UInt8))}
    (hrun : Lts.run Broadcasting.step .new as = some b) {id : Nat} (hlog : b.hub.log = pre ++ .join id order :: post)
    (hstream : broadcasts b.hub.log = stream.map streamMessage)
    (hplanes : ∀ planeId op msg, .control planeId op msg ∈ b.hub.log →
    ∃ ph : PlaneHeader, ∃ body, msg = ph.message body)
    (hplays : Plays decode stream picture holds) {got : List (List UInt8)} (hgot : got <+: b.sent id) (decoder : S) :
    ∃ (es : List (Entry (List UInt8))) (number : Nat → Nat) (ns : List Nat),
      got = es.map Entry.msg ∧ StrictMono number ∧
      (∀ e ∈ es, Carries stream number e) ∧
      (got.foldl (StreamThread.receive decode) (.new decoder)).frames.map some = ns.map (showing stream picture) ∧
      ns.Pairwise (· < ·) ∧
      (∀ n ∈ ns, ∃ e ∈ videos es, number e.index = n) ∧
      (∀ e ∈ videos es, number e.index ∈ ns ↔ e.lane = .video true ∨ ∃ n ∈ ns, n + 1 = number e.index) ∧
      (got.foldl (StreamThread.receive decode) (.new decoder)).refused ≤ 1 := by
  have hpre : broadcasts pre ++ broadcasts post = stream.map streamMessage := by
    rw [← hstream, hlog, broadcasts, broadcasts, broadcasts, List.filterMap_append]
    rfl
  obtain ⟨number, hmono, hcontiguous, hnumber⟩ := numbering order hpre
  obtain ⟨all, hsent, hall⟩ := Broadcasting.run_sent hrun hlog
  have horder := ((Broadcasting.run_serving hrun).linear.joins pre id order post hlog).2
  have hes : got = (all.take got.length).map Entry.msg := by
    rw [List.map_take, ← hsent]
    exact List.prefix_iff_eq_take.1 hgot
  have hreaches : Reaches (due pre order post) (all.take got.length) := by
    rw [← List.take_append_drop got.length all] at hall
    exact hall.front
  have hcarries : ∀ e ∈ all.take got.length, Carries stream number e := by
    intro e he
    unfold Carries
    cases hlane : e.lane with
    | video keyframe => exact hnumber _ _ (hreaches.frames e he keyframe hlane)
    | control =>
      obtain ⟨planeId, op, hmsg⟩ := control_of_due horder id (hreaches.controls e he hlane)
      exact hplanes planeId op e.msg (hlog ▸ hmsg)
  obtain ⟨ns, h⟩ := played_run hplays hmono hcontiguous hreaches hcarries decoder
  rw [← hes] at h
  exact ⟨_, number, ns, hes, hmono, hcarries, h.frames, h.increasing, h.shown, h.complete, h.refused⟩

/-- A frame of the size two by one. -/
def numberedFrame (n : UInt8) (keyframe : Bool) : FrameHeader × List UInt8 where
  fst :=
    { flags := if keyframe then Proto.keyframe else 0
      codec := 1
      frameSeq := n.toUInt32
      width := 2
      height := 1
      ptsUs := 0
      payloadLen := 2 }
  snd := [n, if keyframe then 1 else 0]

/-- A decoder of frames that hold their number. -/
def decodeNumbered (au : List UInt8) (s : Option UInt8) : Except Unit (Option UInt8) × Option UInt8 :=
  match au with
  | [n, key] => if key = 1 ∨ s = some (n - 1) then (.ok (some n), some n) else (.error (), none)
  | _ => (.error (), none)

def shortStream : List (FrameHeader × List UInt8) :=
  [numberedFrame 0 true, numberedFrame 1 false, numberedFrame 2 false, numberedFrame 3 true, numberedFrame 4 false]

private theorem shortStream_plays : Plays decodeNumbered shortStream (fun n => UInt8.ofNat n)
    (fun n s => s = some (UInt8.ofNat n)) := by
  have hcases : ∀ n frame, shortStream[n]? = some frame → n = 0 ∨ n = 1 ∨ n = 2 ∨ n = 3 ∨ n = 4 := by
    intro n frame h
    have hlt : n < 5 := (List.getElem?_eq_some_iff.1 h).1
    omega
  refine ⟨fun n h au s hframe hkey => ?_, fun n h au s hframe hkey hs => ?_, fun m n h au s hmn hframe hnone hs => ?_⟩
  · rcases hcases n _ hframe with rfl | rfl | rfl | rfl | rfl
    all_goals cases hframe
    all_goals first | exact ⟨rfl, rfl⟩ | cases hkey
  · subst hs
    obtain rfl | rfl | rfl | rfl : n = 0 ∨ n = 1 ∨ n = 2 ∨ n = 3 := by
      have hn := hcases _ _ hframe
      omega
    all_goals cases hframe
    all_goals exact ⟨rfl, rfl⟩
  · subst hs
    have hlast := hnone n _ (by omega) (Nat.le_refl _) hframe
    rcases hcases n _ hframe with rfl | rfl | rfl | rfl | rfl
    · omega
    · omega
    · obtain rfl : m = 0 := by omega
      cases hframe
      rfl
    · cases hframe
      cases hlast
    · -- no gap reaches over the second keyframe
      cases hnone 3 _ (by omega) (by decide) rfl

def shownCursor : PlaneHeader where
  op := Plane.opMove
  planeKind := Plane.kindCursor
  flags := Plane.visible
  planeId := 0
  codecOrFormat := 0
  zOrder := 0
  width := 0
  height := 0
  hotX := 0
  hotY := 0
  posX := 0
  posY := 0
  payloadLen := 0

/-- A viewer joins behind the second frame and gets everything. -/
def lateViewer : List (HubAction (List UInt8)) :=
  let broadcast (frame : FrameHeader × List UInt8) : HubAction (List UInt8) :=
    .lock (.broadcast (streamMessage frame).1 (streamMessage frame).2)
  [broadcast (numberedFrame 0 true), .work, .work, broadcast (numberedFrame 1 false), .work, .work,
    .lock (.register (maxClientQueue none) []), .work, .work, .work, .spawn 0, .deliver 0 true,
    broadcast (numberedFrame 2 false), .work, .work, .work, .deliver 0 true,
    .lock (.broadcastControl 0 Plane.opMove (shownCursor.message [])), .work, .work, .work, .deliver 0 true,
    broadcast (numberedFrame 3 true), .work, .work, .work, .deliver 0 true,
    broadcast (numberedFrame 4 false), .work, .work, .work, .deliver 0 true]

theorem Broadcasting.viewer_shows_late : ∃ b, Lts.run Broadcasting.step .new lateViewer = some b ∧
    (b.sent 0).length = 5 ∧
    ((b.sent 0).foldl (StreamThread.receive decodeNumbered) (.new none)).frames =
      [(0, 0, true), (3, 3, true), (4, 4, false)] ∧
    ((b.sent 0).foldl (StreamThread.receive decodeNumbered) (.new none)).refused = 1 := by
  let b := (Lts.run Broadcasting.step .new lateViewer).get rfl
  let message (n : UInt8) (keyframe : Bool) : HubEvent (List UInt8) :=
    .broadcast (streamMessage (numberedFrame n keyframe)).1 keyframe
  have hrun : Lts.run Broadcasting.step .new lateViewer = some b := (Option.some_get _).symm
  have hlog : b.hub.log = [message 0 true, message 1 false] ++ .join 0 [] ::
      [message 2 false, .control 0 Plane.opMove (shownCursor.message []), message 3 true, message 4 false] := rfl
  have hplanes : ∀ planeId op msg, HubEvent.control planeId op msg ∈ b.hub.log →
      ∃ ph : PlaneHeader, ∃ body, msg = ph.message body := by
    intro planeId op msg hmem
    rw [hlog] at hmem
    have hmsg : msg = shownCursor.message [] := by
      simp only [message, List.mem_append, List.mem_cons, List.not_mem_nil, reduceCtorEq, or_false, false_or,
        HubEvent.control.injEq] at hmem
      exact hmem.2.2
    exact ⟨shownCursor, [], hmsg⟩
  have hstream : broadcasts b.hub.log = shortStream.map streamMessage := rfl
  obtain ⟨es, number, ns, -, -, -, -, -, -, -, hrefused⟩ := viewer_shows hrun hlog hstream hplanes
    shortStream_plays (List.prefix_refl _) none
  exact ⟨b, hrun, by decide +kernel, by decide +kernel, Nat.le_antisymm hrefused (by decide +kernel)⟩

end Viewers

end Infinigpu
