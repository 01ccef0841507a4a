import Infinigpu.Pixel.Queue

/-!
# The two lanes of a send queue

Control messages share the queue with the video frames: they take up room under its cap and go with a shed backlog.

* `Feed.controls_delivered_iff`: no control message is lost exactly when no overflowing push finds one queued;
* `Feed.shedding_independent_iff`: shedding ignores the control messages exactly when each overflow is of video alone.
-/

namespace Infinigpu

namespace Feed

variable {M : Type*} {s s' t : Feed M} {op : QueueOp M} {ops : List (QueueOp M)}

/-! ### The control lane -/

/-- The control messages delivered and queued. -/
def kept (s : Feed M) : List (Entry M) := controls (s.delivered ++ s.queue.items)

/-- The queue after the send thread has taken everything in it. -/
def drained (s : Feed M) : Feed M :=
  { s with queue := { s.queue with items := [] }, delivered := s.delivered ++ s.queue.items }

private theorem run_drain (s : Feed M) :
    Lts.run step s (List.replicate s.queue.items.length .pop) = some s.drained := by
  obtain ⟨⟨items, closed, dropping, cap, hcap⟩, pushed, delivered, sheds⟩ := s
  induction items generalizing delivered with
  | nil => simp [drained]
  | cons e items ih =>
    have hstep : step ⟨⟨e :: items, closed, dropping, cap, hcap⟩, pushed, delivered, sheds⟩ .pop =
        some ⟨⟨items, closed, dropping, cap, hcap⟩, pushed, delivered ++ [e], sheds⟩ := rfl
    simp only [List.length_cons, List.replicate_succ]
    rw [Lts.run_cons_of_eq hstep, ih]
    simp [drained]

/-- No overflow of this call throws away a control message. -/
def KeepsControls (s : Feed M) : QueueOp M → Prop
  | .push _ _ => s.queue.dropping = false → s.queue.cap ≤ s.queue.items.length → controls s.queue.items = []
  | _ => True

private theorem Moves.kept (h : Moves s op s') : ∃ new, controls s'.pushed = controls s.pushed ++ new ∧
    s'.kept.Sublist (s.kept ++ new) ∧ (s'.kept = s.kept ++ new ↔ s.KeepsControls op) := by
  cases h with
  | readmitted msg hd =>
    refine ⟨[], by simp [nextVideo], by simp [Feed.kept, nextVideo], ?_⟩
    simp [Feed.kept, nextVideo, KeepsControls, hd]
  | skipped msg hd =>
    refine ⟨[], by simp [nextVideo], by simp [Feed.kept], ?_⟩
    simp [Feed.kept, KeepsControls, hd]
  | shed msg keyframe hd hl =>
    refine ⟨[], by simp [nextVideo], by simp [Feed.kept], ?_⟩
    simp [Feed.kept, KeepsControls, hd, hl]
  | queued msg keyframe hd hl =>
    refine ⟨[], by simp [nextVideo], by simp [Feed.kept, nextVideo], ?_⟩
    have hfull : ¬ s.queue.cap ≤ s.queue.items.length := by omega
    simp [Feed.kept, nextVideo, KeepsControls, hfull]
  | control msg =>
    refine ⟨[s.nextControl msg], by simp [nextControl], by simp [Feed.kept, nextControl], ?_⟩
    simp [Feed.kept, nextControl, KeepsControls]
  | popped e rest hi =>
    refine ⟨[], by simp, by simp [Feed.kept, hi], ?_⟩
    simp [Feed.kept, hi, KeepsControls]

/-- Every control message is delivered, in order, exactly when no overflowing push finds one in the queue. -/
theorem controls_delivered_iff (cap : { n : Nat // 1 ≤ n }) (ops : List (QueueOp M)) (s : Feed M)
    (h : Lts.run step (start cap) ops = some s) :
    (∃ t, Lts.run step s (List.replicate s.queue.items.length .pop) = some t ∧
      controls t.delivered = controls s.pushed) ↔ Lts.Along step KeepsControls (start cap) ops := by
  have hI : ∀ (s : Feed M) op s', s.Sound ∧ s.kept.Sublist (controls s.pushed) → s.step op = some s' →
      s'.Sound ∧ s'.kept.Sublist (controls s'.pushed) := by
    intro s op s' hs hstep
    obtain ⟨new, hpushed, hsub, -⟩ := (step_moves hs.1.opened hstep).kept
    refine ⟨step_sound hs.1 hstep, ?_⟩
    rw [hpushed]
    exact hsub.trans (hs.2.append (.refl new))
  have hstep : ∀ (s : Feed M) op s', s.Sound ∧ s.kept.Sublist (controls s.pushed) → s.step op = some s' →
      (s'.kept = controls s'.pushed ↔ s.kept = controls s.pushed ∧ s.KeepsControls op) := by
    intro s op s' hs hstep
    obtain ⟨new, hpushed, hsub, hiff⟩ := (step_moves hs.1.opened hstep).kept
    rw [hpushed, ← hiff]
    constructor
    · intro hall
      -- what is lost never comes back
      have hlen := hsub.length_le
      rw [hall, List.length_append, List.length_append] at hlen
      have hkept : s.kept = controls s.pushed := hs.2.eq_of_length_le (by omega)
      exact ⟨hkept, by rw [hall, hkept]⟩
    · rintro ⟨hkept, hall⟩
      rw [hall, hkept]
  have hend := Lts.end_iff_along hI hstep ⟨start_sound cap, .refl _⟩ h
  rw [and_iff_right (show (start cap : Feed M).kept = controls (start cap : Feed M).pushed from rfl)] at hend
  rw [← hend, run_drain]
  constructor
  · rintro ⟨t, ht, hall⟩
    cases ht
    exact hall
  · intro hall
    exact ⟨s.drained, rfl, hall⟩

instance (s : Feed M) (op : QueueOp M) : Decidable (s.KeepsControls op) :=
  match op with
  | .push _ _ => inferInstanceAs (Decidable (_ → _ → controls s.queue.items = []))
  | .pushControl _ => .isTrue trivial
  | .pop => .isTrue trivial

/-- A cursor message that waits when a frame overflows is dropped with the backlog. -/
theorem control_shed : ¬ ∀ (cap : { n : Nat // 1 ≤ n }) (ops : List (QueueOp Nat)) (s : Feed Nat),
    Lts.run step (start cap) ops = some s →
      ∃ t, Lts.run step s (List.replicate s.queue.items.length .pop) = some t ∧
        controls t.delivered = controls s.pushed := by
  intro h
  obtain ⟨t, ht, hall⟩ := h ⟨1, by decide⟩ [.pushControl 7, .push 10 true]
    ⟨⟨[], false, true, 1, by decide⟩, [⟨.control, 0, 7⟩, ⟨.video true, 0, 10⟩], [], [0]⟩ rfl
  cases ht
  cases hall

theorem controls_delivered_iff_kept :
    ∃ t, Lts.run step (⟨⟨[⟨.control, 0, 7⟩], false, true, 1, by decide⟩,
        [⟨.video true, 0, 10⟩, ⟨.video false, 1, 11⟩, ⟨.control, 0, 7⟩], [], [1]⟩ : Feed Nat) [.pop] = some t ∧
      controls t.delivered = [⟨.control, 0, 7⟩] :=
  (controls_delivered_iff ⟨1, by decide⟩ [.push 10 true, .push 11 false, .pushControl 7] _ rfl).2 (by decide)

/-! ### Shedding and the control lane -/

/-- The call is a control push, or a pop that finds a control message. -/
def touchesControl (s : Feed M) : QueueOp M → Bool
  | .push _ _ => false
  | .pushControl _ => true
  | .pop => s.queue.items.head?.any Entry.isControl

/-- The calls of a run without those on control messages. -/
def withoutControl : Feed M → List (QueueOp M) → List (QueueOp M)
  | _, [] => []
  | s, op :: ops =>
    (if s.touchesControl op then [] else [op]) ++ ((s.step op).map fun s' => withoutControl s' ops).getD []

/-- An overflow of this call has a whole cap of video frames before it. -/
def ShedsVideo (s : Feed M) : QueueOp M → Prop
  | .push _ _ => s.queue.dropping = false → s.queue.cap ≤ s.queue.items.length →
      s.queue.cap ≤ (videos s.queue.items).length
  | _ => True

/-- `t` is `s` without its control messages. -/
structure VideoOf (s t : Feed M) : Prop where
  opened : s.queue.closed = false
  opened' : t.queue.closed = false
  items : t.queue.items = videos s.queue.items
  dropping : t.queue.dropping = s.queue.dropping
  cap : t.queue.cap = s.queue.cap
  pushed : (videos t.pushed).length = (videos s.pushed).length
  delivered : videos t.delivered = videos s.delivered
  sheds : t.sheds = s.sheds

/-- Whether the queue sheds at the next push. -/
def Overflows (s : Feed M) : Prop := s.queue.dropping = false ∧ s.queue.cap ≤ s.queue.items.length

private theorem step_push_sheds {msg : M} {keyframe : Bool} (hc : s.queue.closed = false)
    (h : s.step (.push msg keyframe) = some s') :
    (s.Overflows ∧ s'.sheds = s.sheds ++ [(videos s.pushed).length]) ∨ (¬ s.Overflows ∧ s'.sheds = s.sheds) := by
  cases step_moves hc h with
  | readmitted _ hd => exact .inr ⟨fun hov => by simp [Overflows, hd] at hov, rfl⟩
  | skipped _ hd => exact .inr ⟨fun hov => by simp [Overflows, hd] at hov, rfl⟩
  | shed _ _ hd hl => exact .inl ⟨⟨hd, hl⟩, rfl⟩
  | queued _ _ hd hl => exact .inr ⟨fun hov => absurd hov.2 (by omega), rfl⟩

namespace VideoOf

private theorem nextVideo (h : VideoOf s t) (msg : M) (keyframe : Bool) :
    t.nextVideo msg keyframe = s.nextVideo msg keyframe := by
  simp only [Feed.nextVideo, h.pushed]

/-- What a call on a control message does is not seen without them. -/
private theorem step_control (h : VideoOf s t) (hctl : s.touchesControl op = true) (hstep : s.step op = some s') :
    VideoOf s' t := by
  cases step_moves h.opened hstep with
  | readmitted | skipped | shed | queued => simp [touchesControl] at hctl
  | control msg =>
    refine ⟨h.opened, h.opened', ?_, h.dropping, h.cap, ?_, h.delivered, h.sheds⟩
    · simp [nextControl, h.items]
    · simp [nextControl, h.pushed]
  | popped e rest hi =>
    have he : e.lane = .control := by simpa [touchesControl, hi, Entry.isControl] using hctl
    obtain ⟨lane, n, msg⟩ := e
    cases he
    refine ⟨h.opened, h.opened', ?_, h.dropping, h.cap, h.pushed, ?_, h.sheds⟩
    · simp [h.items, hi]
    · simp [h.delivered]

/-- The calls on video frames do the same without the control messages, provided a shed is of video alone. -/
private theorem step_video (h : VideoOf s t) (hctl : s.touchesControl op = false) (hvid : s.ShedsVideo op)
    (hstep : s.step op = some s') : ∃ t', t.step op = some t' ∧ VideoOf s' t' := by
  cases step_moves h.opened hstep with
  | readmitted msg hd =>
    have hd' : t.queue.dropping = true := h.dropping.trans hd
    refine ⟨_, rfl, ?_⟩
    rw [ClientQueue.push_readmits h.opened' hd', h.nextVideo]
    refine ⟨h.opened, h.opened', ?_, rfl, h.cap, ?_, h.delivered, h.sheds⟩
    · simp [Feed.nextVideo, h.items]
    · simp [Feed.nextVideo, h.pushed]
  | skipped msg hd =>
    have hd' : t.queue.dropping = true := h.dropping.trans hd
    refine ⟨_, rfl, ?_⟩
    rw [ClientQueue.push_skips h.opened' hd', h.nextVideo]
    refine ⟨h.opened, h.opened', h.items, h.dropping, h.cap, ?_, h.delivered, h.sheds⟩
    simp [Feed.nextVideo, h.pushed]
  | shed msg keyframe hd hl =>
    have hd' : t.queue.dropping = false := h.dropping.trans hd
    have hl' : t.queue.cap ≤ t.queue.items.length := by
      rw [h.items, h.cap]
      exact hvid hd hl
    refine ⟨_, rfl, ?_⟩
    rw [ClientQueue.push_sheds h.opened' hd' hl', h.nextVideo]
    refine ⟨h.opened, h.opened', rfl, rfl, h.cap, ?_, h.delivered, ?_⟩
    · simp [Feed.nextVideo, h.pushed]
    · simp [Feed.nextVideo, h.sheds]
  | queued msg keyframe hd hl =>
    have hd' : t.queue.dropping = false := h.dropping.trans hd
    have hl' : t.queue.items.length < t.queue.cap := by
      rw [h.items, h.cap]
      exact Nat.lt_of_le_of_lt (videos_length_le _) hl
    refine ⟨_, rfl, ?_⟩
    rw [ClientQueue.push_queues h.opened' hd' hl', h.nextVideo]
    refine ⟨h.opened, h.opened', ?_, h.dropping, h.cap, ?_, h.delivered, h.sheds⟩
    · simp [Feed.nextVideo, h.items]
    · simp [Feed.nextVideo, h.pushed]
  | control msg => simp [touchesControl] at hctl
  | popped e rest hi =>
    have he : e.isControl = false := by simpa [touchesControl, hi] using hctl
    obtain ⟨lane, n, msg⟩ := e
    cases lane with
    | control => cases he
    | video keyframe =>
      have hi' : t.queue.items = ⟨.video keyframe, n, msg⟩ :: videos rest := by rw [h.items, hi]; rfl
      refine ⟨{ t with
        queue := { t.queue with items := videos rest }
        delivered := t.delivered ++ [⟨.video keyframe, n, msg⟩] }, ?_, ?_⟩
      · simp [step, ClientQueue.pop, hi']
      · refine ⟨h.opened, h.opened', rfl, h.dropping, h.cap, h.pushed, ?_, h.sheds⟩
        simp [h.delivered]

end VideoOf

/-- The sheds so far are of frames pushed so far. -/
def ShedsPushed (s : Feed M) : Prop := s.queue.closed = false ∧ ∀ n ∈ s.sheds, n < (videos s.pushed).length

/-- A call sheds at the frame it pushes, if at any. -/
private theorem step_sheds (hs : s.ShedsPushed) (h : s.step op = some s') :
    s'.ShedsPushed ∧ (videos s.pushed).length ≤ (videos s'.pushed).length ∧
      ∀ n ∈ s'.sheds, n < (videos s.pushed).length → n ∈ s.sheds := by
  obtain ⟨hc, hlt⟩ := hs
  cases step_moves hc h with
  | readmitted msg hd | skipped msg hd | queued msg keyframe hd hl =>
    refine ⟨⟨hc, fun n hn => ?_⟩, ?_, fun n hn _ => hn⟩
    · have := hlt n hn
      simp [Feed.nextVideo]
      omega
    · simp [Feed.nextVideo]
  | shed msg keyframe hd hl =>
    refine ⟨⟨hc, fun n hn => ?_⟩, ?_, fun n hn hlt' => ?_⟩
    · simp only [List.mem_append, List.mem_singleton] at hn
      simp only [Feed.nextVideo, videos_append, videos_cons_video, videos_nil, List.length_append,
        List.length_singleton]
      rcases hn with hn | rfl
      · have := hlt n hn
        omega
      · omega
    · simp [Feed.nextVideo]
    · simp only [List.mem_append, List.mem_singleton] at hn
      rcases hn with hn | rfl
      · exact hn
      · omega
  | control msg =>
    refine ⟨⟨hc, fun n hn => ?_⟩, ?_, fun n hn _ => hn⟩
    · simpa [nextControl] using hlt n hn
    · simp [nextControl]
  | popped e rest hi => exact ⟨⟨hc, hlt⟩, Nat.le_refl _, fun n hn _ => hn⟩

private theorem run_sheds (hs : s.ShedsPushed) (h : Lts.run step s ops = some s') :
    ∀ n ∈ s'.sheds, n < (videos s.pushed).length → n ∈ s.sheds := by
  induction ops generalizing s with
  | nil =>
    cases h
    exact fun n hn _ => hn
  | cons op ops ih =>
    rw [Lts.run_cons] at h
    obtain ⟨s₁, h₁, hrun⟩ := Option.bind_eq_some_iff.1 h
    obtain ⟨hs₁, hle, hback⟩ := step_sheds hs h₁
    intro n hn hlt
    exact hback n (ih hs₁ hrun n hn (by omega)) hlt

private theorem run_sheds_mono (hs : s.ShedsPushed) (h : Lts.run step s ops = some s') : s.sheds ⊆ s'.sheds := by
  induction ops generalizing s with
  | nil =>
    cases h
    exact fun n hn => hn
  | cons op ops ih =>
    rw [Lts.run_cons] at h
    obtain ⟨s₁, h₁, hrun⟩ := Option.bind_eq_some_iff.1 h
    refine List.Subset.trans ?_ (ih (step_sheds hs h₁).1 hrun)
    cases step_moves hs.1 h₁ with
    | shed => exact List.subset_append_left _ _
    | _ => exact List.Subset.refl _

private theorem withoutControl_cons (h : s.step op = some s') :
    s.withoutControl (op :: ops) = (if s.touchesControl op then [] else [op]) ++ s'.withoutControl ops := by
  simp [withoutControl, h]

/-- Where every shed is of video alone, the run without control messages goes the same way. -/
private theorem run_withoutControl (h : VideoOf s t) (hrun : Lts.run step s ops = some s')
    (halong : Lts.Along step ShedsVideo s ops) :
    ∃ t', Lts.run step t (s.withoutControl ops) = some t' ∧ VideoOf s' t' := by
  induction ops generalizing s t with
  | nil =>
    cases hrun
    exact ⟨t, rfl, h⟩
  | cons op ops ih =>
    rw [Lts.run_cons] at hrun
    obtain ⟨s₁, h₁, hrun⟩ := Option.bind_eq_some_iff.1 hrun
    rw [withoutControl_cons h₁]
    cases hctl : s.touchesControl op with
    | true => exact ih (h.step_control hctl h₁) hrun (halong.2 s₁ h₁)
    | false =>
      obtain ⟨t₁, ht₁, hvid⟩ := h.step_video hctl halong.1 h₁
      obtain ⟨t', ht', hsame⟩ := ih hvid hrun (halong.2 s₁ h₁)
      refine ⟨t', ?_, hsame⟩
      rw [if_neg (by simp), List.singleton_append, Lts.run_cons_of_eq ht₁, ht']

/-- The first shed that counts control messages is not made without them, and stays on record. -/
private theorem along_of_sheds (h : VideoOf s t) (hs : s.ShedsPushed) (ht : t.ShedsPushed)
    (hrun : Lts.run step s ops = some s') {t' : Feed M} (hrun' : Lts.run step t (s.withoutControl ops) = some t')
    (hsheds : t'.sheds = s'.sheds) : Lts.Along step ShedsVideo s ops := by
  induction ops generalizing s t with
  | nil => exact trivial
  | cons op ops ih =>
    rw [Lts.run_cons] at hrun
    obtain ⟨s₁, h₁, hrest⟩ := Option.bind_eq_some_iff.1 hrun
    rw [withoutControl_cons h₁] at hrun'
    have hs₁ := (step_sheds hs h₁).1
    cases hctl : s.touchesControl op with
    | true =>
      rw [hctl, if_pos rfl, List.nil_append] at hrun'
      refine ⟨?_, fun u hu => ?_⟩
      · cases op with
        | push => cases hctl
        | pushControl | pop => exact trivial
      · rw [h₁, Option.some_inj] at hu
        exact hu ▸ ih (h.step_control hctl h₁) hs₁ ht hrest hrun'
    | false =>
      rw [hctl, if_neg (by simp), List.singleton_append, Lts.run_cons] at hrun'
      obtain ⟨t₁, ht₁, hrest'⟩ := Option.bind_eq_some_iff.1 hrun'
      have hvid : s.ShedsVideo op := by
        cases op with
        | pushControl | pop => exact trivial
        | push msg keyframe =>
          intro hd hl
          by_contra hfew
          have hmade : (videos s.pushed).length ∈ s₁.sheds := by
            rcases step_push_sheds h.opened h₁ with ⟨-, heq⟩ | ⟨hno, -⟩
            · simp [heq]
            · exact absurd ⟨hd, hl⟩ hno
          have hnot : t₁.sheds = t.sheds := by
            rcases step_push_sheds h.opened' ht₁ with ⟨⟨-, hl'⟩, -⟩ | ⟨-, heq⟩
            · rw [h.items, h.cap] at hl'
              exact absurd hl' hfew
            · exact heq
          have hlater := run_sheds_mono hs₁ hrest hmade
          rw [← hsheds] at hlater
          have hpush : (videos s.pushed).length < (videos t₁.pushed).length := by
            have hgrow : (videos t₁.pushed).length = (videos t.pushed).length + 1 := by
              simp only [step, Option.some_inj] at ht₁
              rw [← ht₁]
              simp [Feed.nextVideo]
            have := h.pushed
            omega
          have hin := run_sheds (step_sheds ht ht₁).1 hrest' _ hlater hpush
          rw [hnot, h.sheds] at hin
          exact absurd (hs.2 _ hin) (Nat.lt_irrefl _)
      refine ⟨hvid, fun u hu => ?_⟩
      rw [h₁, Option.some_inj] at hu
      obtain ⟨t₂, ht₂, hnext⟩ := h.step_video hctl hvid h₁
      rw [ht₁, Option.some_inj] at ht₂
      exact hu ▸ ih (ht₂ ▸ hnext) hs₁ (step_sheds ht ht₁).1 hrest hrest'

private theorem start_videoOf (cap : { n : Nat // 1 ≤ n }) : VideoOf (start cap : Feed M) (start cap) :=
  ⟨rfl, rfl, rfl, rfl, rfl, rfl, rfl, rfl⟩

private theorem start_shedsPushed (cap : { n : Nat // 1 ≤ n }) : (start cap : Feed M).ShedsPushed :=
  ⟨rfl, fun n hn => by cases hn⟩

/-- The run without its control messages delivers the same frames and sheds at the same frames exactly when every
shed of the run is of a whole cap of video frames. -/
theorem shedding_independent_iff (cap : { n : Nat // 1 ≤ n }) (ops : List (QueueOp M)) (s : Feed M)
    (h : Lts.run step (start cap) ops = some s) :
    (∃ t, Lts.run step (start cap) (withoutControl (start cap) ops) = some t ∧
      videos t.delivered = videos s.delivered ∧ t.sheds = s.sheds) ↔
    Lts.Along step ShedsVideo (start cap) ops := by
  constructor
  · rintro ⟨t, ht, -, hsheds⟩
    exact along_of_sheds (start_videoOf cap) (start_shedsPushed cap) (start_shedsPushed cap) h ht hsheds
  · intro halong
    obtain ⟨t, ht, hsame⟩ := run_withoutControl (start_videoOf cap) h halong
    exact ⟨t, ht, hsame.delivered, hsame.sheds⟩

instance (s : Feed M) (op : QueueOp M) : Decidable (s.ShedsVideo op) :=
  match op with
  | .push _ _ => inferInstanceAs (Decidable (_ → _ → s.queue.cap ≤ (videos s.queue.items).length))
  | .pushControl _ => .isTrue trivial
  | .pop => .isTrue trivial

/-- One waiting cursor message makes the first frame overflow. -/
theorem control_counts : ¬ ∀ (cap : { n : Nat // 1 ≤ n }) (ops : List (QueueOp Nat)) (s : Feed Nat),
    Lts.run step (start cap) ops = some s →
      ∃ t, Lts.run step (start cap) (withoutControl (start cap) ops) = some t ∧
        videos t.delivered = videos s.delivered ∧ t.sheds = s.sheds := by
  intro h
  obtain ⟨t, ht, -, hsheds⟩ := h ⟨1, by decide⟩ [.pushControl 7, .push 10 true]
    ⟨⟨[], false, true, 1, by decide⟩, [⟨.control, 0, 7⟩, ⟨.video true, 0, 10⟩], [], [0]⟩ rfl
  cases ht
  cases hsheds

theorem shedding_independent_iff_moves :
    ∃ t, Lts.run step (start ⟨1, by decide⟩ : Feed Nat)
        (withoutControl (start ⟨1, by decide⟩) [.push 10 true, .pushControl 7, .pop, .pop, .push 11 false]) = some t ∧
      videos t.delivered = [⟨.video true, 0, 10⟩] ∧ t.sheds = [] :=
  (shedding_independent_iff ⟨1, by decide⟩ [.push 10 true, .pushControl 7, .pop, .pop, .push 11 false]
    ⟨⟨[⟨.video false, 1, 11⟩], false, false, 1, by decide⟩,
      [⟨.video true, 0, 10⟩, ⟨.control, 0, 7⟩, ⟨.video false, 1, 11⟩],
      [⟨.video true, 0, 10⟩, ⟨.control, 0, 7⟩], []⟩ rfl).2 (by decide)

end Feed

end Infinigpu
