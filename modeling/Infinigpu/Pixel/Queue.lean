import Infinigpu.Lib.Lts

/-!
# The send queue of one viewer (`infinigpu-pixel`, `ClientQueue`)

Video frames and control messages wait in one bounded queue for the send thread.  A queue longer than its cap is
dropped whole, and video is admitted again only at the next keyframe.

A `Feed` is a queue together with its history: what was pushed, what was popped and at which frames it shed.  Its
entries carry their number in push order, which the queue itself never looks at (`run_bytes`).

`Feed.delivered_decodable`: a P-frame is delivered only after its predecessor.
-/

namespace Infinigpu

/-- The cap of a new queue, `var` being the number in `INFINIPIXEL_CLIENT_QUEUE`. -/
def maxClientQueue (var : Option Nat) : { n : Nat // 1 ≤ n } :=
  match var with
  | some n => if h : 1 ≤ n then ⟨n, h⟩ else ⟨8, by decide⟩
  | none => ⟨8, by decide⟩

structure ClientQueue (M : Type*) where
  items : List M
  closed : Bool
  /-- After an overflow: skip every frame until the next keyframe. -/
  dropping : Bool
  cap : Nat
  cap_pos : 1 ≤ cap

namespace ClientQueue

variable {M N : Type*}

def new (cap : { n : Nat // 1 ≤ n }) : ClientQueue M := ⟨[], false, false, cap.1, cap.2⟩

/-- Whether the client just shed its backlog, and the queue. -/
def push (q : ClientQueue M) (msg : M) (keyframe : Bool) : Bool × ClientQueue M :=
  if q.closed then
    (false, q)
  else if q.dropping then
    if keyframe then
      (false, { q with dropping := false, items := q.items ++ [msg] })
    else
      (false, q)
  else
    let q := { q with items := q.items ++ [msg] }
    if q.items.length > q.cap then
      (true, { q with items := [], dropping := true })
    else
      (false, q)

def pushControl (q : ClientQueue M) (msg : M) : ClientQueue M :=
  if q.closed then q else { q with items := q.items ++ [msg] }

/-- On an empty queue the caller waits, or stops when the queue is closed. -/
def pop (q : ClientQueue M) : Option (M × ClientQueue M) :=
  match q.items with
  | [] => none
  | m :: rest => some (m, { q with items := rest })

def close (q : ClientQueue M) : ClientQueue M := { q with closed := true, items := [] }

/-- The queue with every message renamed. -/
def map (f : M → N) (q : ClientQueue M) : ClientQueue N := ⟨q.items.map f, q.closed, q.dropping, q.cap, q.cap_pos⟩

private theorem push_map (f : M → N) (q : ClientQueue M) (msg : M) (keyframe : Bool) :
    (q.map f).push (f msg) keyframe = ((q.push msg keyframe).1, (q.push msg keyframe).2.map f) := by
  unfold push
  by_cases hc : q.closed
  · simp [map, hc]
  · by_cases hd : q.dropping
    · by_cases hk : keyframe
      · simp [map, hc, hd, hk]
      · simp [map, hc, hd, hk]
    · by_cases hl : q.items.length + 1 > q.cap
      · simp [map, hc, hd, hl]
      · simp [map, hc, hd, hl]

private theorem pushControl_map (f : M → N) (q : ClientQueue M) (msg : M) :
    (q.map f).pushControl (f msg) = (q.pushControl msg).map f := by
  unfold pushControl
  by_cases hc : q.closed
  · simp [map, hc]
  · simp [map, hc]

private theorem pop_map (f : M → N) (q : ClientQueue M) :
    (q.map f).pop = q.pop.map fun r => (f r.1, r.2.map f) := by
  unfold pop
  cases h : q.items with
  | nil => simp [map, h]
  | cons m rest => simp [map, h]

/-! ### What a push does to an open queue -/

variable {q : ClientQueue M} {msg : M} {keyframe : Bool}

theorem push_readmits (hc : q.closed = false) (hd : q.dropping = true) :
    q.push msg true = (false, { q with dropping := false, items := q.items ++ [msg] }) := by
  simp [push, hc, hd]

theorem push_skips (hc : q.closed = false) (hd : q.dropping = true) : q.push msg false = (false, q) := by
  simp [push, hc, hd]

theorem push_sheds (hc : q.closed = false) (hd : q.dropping = false) (hl : q.cap ≤ q.items.length) :
    q.push msg keyframe = (true, { q with items := [], dropping := true }) := by
  have hlen : q.cap < q.items.length + 1 := by omega
  simp [push, hc, hd, hlen]

theorem push_queues (hc : q.closed = false) (hd : q.dropping = false) (hl : q.items.length < q.cap) :
    q.push msg keyframe = (false, { q with items := q.items ++ [msg] }) := by
  have hlen : ¬ q.cap < q.items.length + 1 := by omega
  simp [push, hc, hd, hlen]

private theorem pushControl_open (hc : q.closed = false) :
    q.pushControl msg = { q with items := q.items ++ [msg] } := by
  simp [pushControl, hc]

theorem pop_eq_some {q' : ClientQueue M} (h : q.pop = some (msg, q')) :
    q.items = msg :: q'.items ∧ q' = { q with items := q'.items } := by
  unfold pop at h
  cases hi : q.items with
  | nil =>
    rw [hi] at h
    cases h
  | cons m rest =>
    rw [hi] at h
    cases h
    exact ⟨rfl, rfl⟩

end ClientQueue

/-- The calls on an open queue. -/
inductive QueueOp (M : Type*)
  | push (msg : M) (keyframe : Bool)
  | pushControl (msg : M)
  | pop
  deriving DecidableEq

/-- One call, with the messages popped so far. -/
def ClientQueue.step {M : Type*} (s : ClientQueue M × List M) : QueueOp M → Option (ClientQueue M × List M)
  | .push msg keyframe => some ((s.1.push msg keyframe).2, s.2)
  | .pushControl msg => some (s.1.pushControl msg, s.2)
  | .pop => s.1.pop.map fun r => (r.2, s.2 ++ [r.1])

/-! ### A queue and its history -/

inductive Lane
  | video (keyframe : Bool)
  | control
  deriving DecidableEq

/-- A message with its lane and its number among the messages pushed on that lane. -/
structure Entry (M : Type*) where
  lane : Lane
  index : Nat
  msg : M
  deriving DecidableEq

namespace Entry

variable {M : Type*}

def isVideo (e : Entry M) : Bool := e.lane != .control
def isControl (e : Entry M) : Bool := e.lane == .control

end Entry

section Lanes

variable {M : Type*}

def videos (l : List (Entry M)) : List (Entry M) := l.filter Entry.isVideo
def controls (l : List (Entry M)) : List (Entry M) := l.filter Entry.isControl

@[simp] theorem videos_nil : videos ([] : List (Entry M)) = [] := rfl
@[simp] theorem controls_nil : controls ([] : List (Entry M)) = [] := rfl

@[simp] theorem videos_append (l l' : List (Entry M)) : videos (l ++ l') = videos l ++ videos l' :=
  List.filter_append ..

@[simp] theorem controls_append (l l' : List (Entry M)) : controls (l ++ l') = controls l ++ controls l' :=
  List.filter_append ..

@[simp] theorem videos_cons_video (kf : Bool) (n : Nat) (msg : M) (l : List (Entry M)) :
    videos (⟨.video kf, n, msg⟩ :: l) = ⟨.video kf, n, msg⟩ :: videos l := rfl

@[simp] theorem videos_cons_control (n : Nat) (msg : M) (l : List (Entry M)) :
    videos (⟨.control, n, msg⟩ :: l) = videos l := rfl

@[simp] theorem controls_cons_video (kf : Bool) (n : Nat) (msg : M) (l : List (Entry M)) :
    controls (⟨.video kf, n, msg⟩ :: l) = controls l := rfl

@[simp] theorem controls_cons_control (n : Nat) (msg : M) (l : List (Entry M)) :
    controls (⟨.control, n, msg⟩ :: l) = ⟨.control, n, msg⟩ :: controls l := rfl

theorem videos_length_le (l : List (Entry M)) : (videos l).length ≤ l.length := List.length_filter_le ..

end Lanes

structure Feed (M : Type*) where
  queue : ClientQueue (Entry M)
  pushed : List (Entry M)
  delivered : List (Entry M)
  /-- The numbers of the frames whose push shed the backlog. -/
  sheds : List Nat

namespace Feed

variable {M : Type*}

def start (cap : { n : Nat // 1 ≤ n }) : Feed M := ⟨.new cap, [], [], []⟩

/-- The entry of the next video frame. -/
def nextVideo (s : Feed M) (msg : M) (keyframe : Bool) : Entry M :=
  ⟨.video keyframe, (videos s.pushed).length, msg⟩

def nextControl (s : Feed M) (msg : M) : Entry M := ⟨.control, (controls s.pushed).length, msg⟩

def step (s : Feed M) : QueueOp M → Option (Feed M)
  | .push msg keyframe =>
    let e := s.nextVideo msg keyframe
    let r := s.queue.push e keyframe
    some { s with
      queue := r.2
      pushed := s.pushed ++ [e]
      sheds := if r.1 then s.sheds ++ [e.index] else s.sheds }
  | .pushControl msg =>
    let e := s.nextControl msg
    some { s with queue := s.queue.pushControl e, pushed := s.pushed ++ [e] }
  | .pop => s.queue.pop.map fun r => { s with queue := r.2, delivered := s.delivered ++ [r.1] }

/-- The queue without the numbers. -/
def bytes (s : Feed M) : ClientQueue M × List M := (s.queue.map Entry.msg, s.delivered.map Entry.msg)

theorem step_bytes (s : Feed M) (op : QueueOp M) : (s.step op).map bytes = ClientQueue.step s.bytes op := by
  cases op with
  | push msg keyframe =>
    have h := ClientQueue.push_map Entry.msg s.queue (s.nextVideo msg keyframe) keyframe
    change (s.queue.map Entry.msg).push msg keyframe = _ at h
    simp [step, ClientQueue.step, bytes, h]
  | pushControl msg =>
    have h := ClientQueue.pushControl_map Entry.msg s.queue (s.nextControl msg)
    change (s.queue.map Entry.msg).pushControl msg = _ at h
    simp [step, ClientQueue.step, bytes, h]
  | pop =>
    simp only [step, ClientQueue.step, bytes, ClientQueue.pop_map, Option.map_map]
    congr 1
    funext r
    simp [bytes]

/-- A run of the feed is a run of the queue on the bare messages, with the same messages popped. -/
theorem run_bytes (s : Feed M) (ops : List (QueueOp M)) :
    (Lts.run step s ops).map bytes = Lts.run ClientQueue.step s.bytes ops := by
  induction ops generalizing s with
  | nil => rfl
  | cons op ops ih =>
    rw [Lts.run_cons, Lts.run_cons, ← step_bytes]
    cases s.step op with
    | none => rfl
    | some s' => exact ih s'

/-! ### What one call does -/

/-- The calls on an open queue, by their effect. -/
inductive Moves (s : Feed M) : QueueOp M → Feed M → Prop
  | readmitted (msg : M) (hd : s.queue.dropping = true) :
      Moves s (.push msg true)
        { s with
          queue := { s.queue with dropping := false, items := s.queue.items ++ [s.nextVideo msg true] }
          pushed := s.pushed ++ [s.nextVideo msg true] }
  | skipped (msg : M) (hd : s.queue.dropping = true) :
      Moves s (.push msg false) { s with pushed := s.pushed ++ [s.nextVideo msg false] }
  | shed (msg : M) (keyframe : Bool) (hd : s.queue.dropping = false) (hl : s.queue.cap ≤ s.queue.items.length) :
      Moves s (.push msg keyframe)
        { s with
          queue := { s.queue with items := [], dropping := true }
          pushed := s.pushed ++ [s.nextVideo msg keyframe]
          sheds := s.sheds ++ [(videos s.pushed).length] }
  | queued (msg : M) (keyframe : Bool) (hd : s.queue.dropping = false)
      (hl : s.queue.items.length < s.queue.cap) :
      Moves s (.push msg keyframe)
        { s with
          queue := { s.queue with items := s.queue.items ++ [s.nextVideo msg keyframe] }
          pushed := s.pushed ++ [s.nextVideo msg keyframe] }
  | control (msg : M) :
      Moves s (.pushControl msg)
        { s with
          queue := { s.queue with items := s.queue.items ++ [s.nextControl msg] }
          pushed := s.pushed ++ [s.nextControl msg] }
  | popped (e : Entry M) (rest : List (Entry M)) (hi : s.queue.items = e :: rest) :
      Moves s .pop { s with queue := { s.queue with items := rest }, delivered := s.delivered ++ [e] }

variable {s s' t : Feed M} {op : QueueOp M} {ops : List (QueueOp M)}

theorem step_moves (hc : s.queue.closed = false) (h : s.step op = some s') : Moves s op s' := by
  cases op with
  | push msg keyframe =>
    simp only [step, Option.some_inj] at h
    subst h
    by_cases hd : s.queue.dropping = true
    · cases keyframe with
      | true =>
        rw [ClientQueue.push_readmits hc hd]
        exact .readmitted msg hd
      | false =>
        rw [ClientQueue.push_skips hc hd]
        exact .skipped msg hd
    · have hd : s.queue.dropping = false := by simpa using hd
      by_cases hl : s.queue.cap ≤ s.queue.items.length
      · rw [ClientQueue.push_sheds hc hd hl]
        exact .shed msg keyframe hd hl
      · have hl : s.queue.items.length < s.queue.cap := by omega
        rw [ClientQueue.push_queues hc hd hl]
        exact .queued msg keyframe hd hl
  | pushControl msg =>
    simp only [step, Option.some_inj, ClientQueue.pushControl_open hc] at h
    subst h
    exact .control msg
  | pop =>
    simp only [step, Option.map_eq_some_iff] at h
    obtain ⟨⟨e, q'⟩, hpop, rfl⟩ := h
    obtain ⟨hi, hq⟩ := ClientQueue.pop_eq_some hpop
    have := Moves.popped e q'.items hi
    rw [hq]
    exact this

/-! ### What is delivered can be decoded -/

/-- The P-frames of the list follow their predecessors, the very first frame excepted. -/
def Decodable (l : List (Entry M)) : Prop :=
  ∀ pre e post, l = pre ++ e :: post → e.lane = .video false → e.index = 0 ∨ ∃ f ∈ pre, f.index + 1 = e.index

private theorem Decodable.nil : Decodable ([] : List (Entry M)) := by
  intro pre e post h
  simp at h

theorem Decodable.left {l l' : List (Entry M)} (h : Decodable (l ++ l')) : Decodable l := by
  intro pre e post hl
  exact h pre e (post ++ l') (by rw [hl]; simp)

private theorem Decodable.snoc {l : List (Entry M)} {e : Entry M} (h : Decodable l)
    (he : e.lane = .video false → e.index = 0 ∨ ∃ f ∈ l, f.index + 1 = e.index) : Decodable (l ++ [e]) := by
  intro pre f post hl hf
  rcases List.eq_nil_or_concat post with rfl | ⟨post, g, rfl⟩
  · obtain ⟨rfl, hfe⟩ := List.append_inj' hl rfl
    cases hfe
    exact he hf
  · have hl : l ++ [e] = (pre ++ f :: post) ++ [g] := by simpa using hl
    exact h pre f post (List.append_inj' hl rfl).1 hf

/-- The video frames delivered and queued, in the order of delivery. -/
def line (s : Feed M) : List (Entry M) := videos (s.delivered ++ s.queue.items)

/-- What every call on an open queue keeps. -/
structure Sound (s : Feed M) : Prop where
  opened : s.queue.closed = false
  numbered : (videos s.pushed).map Entry.index = List.range (videos s.pushed).length
  ordered : s.line.Sublist (videos s.pushed)
  decodable : Decodable s.line
  /-- While the queue admits everything, the frame pushed last has been admitted. -/
  latest : s.queue.dropping = false → (videos s.pushed).getLast? = s.line.getLast?
  waiting : s.queue.dropping = true → videos s.queue.items = []
  bounded : (videos s.queue.items).length ≤ s.queue.cap

theorem start_sound (cap : { n : Nat // 1 ≤ n }) : Sound (start cap : Feed M) where
  opened := rfl
  numbered := rfl
  ordered := .refl _
  decodable := .nil
  latest _ := rfl
  waiting _ := rfl
  bounded := Nat.zero_le _

private theorem nextVideo_numbered (hs : s.Sound) (msg : M) (keyframe : Bool) :
    (videos (s.pushed ++ [s.nextVideo msg keyframe])).map Entry.index =
      List.range (videos (s.pushed ++ [s.nextVideo msg keyframe])).length := by
  simp [nextVideo, hs.numbered, List.range_succ]

/-- A frame that is admitted to a queue that admits everything follows its predecessor. -/
private theorem nextVideo_decodable (hs : s.Sound) (hd : s.queue.dropping = false) (msg : M) (keyframe : Bool) :
    Decodable (s.line ++ [s.nextVideo msg keyframe]) := by
  refine hs.decodable.snoc fun _ => ?_
  rcases List.eq_nil_or_concat (videos s.pushed) with hnil | ⟨before, last, hlast⟩
  · left
    simp [nextVideo, hnil]
  · right
    have hline : s.line.getLast? = some last := by
      rw [← hs.latest hd, hlast]
      simp
    refine ⟨last, List.mem_of_getLast? hline, ?_⟩
    have hnum := hs.numbered
    rw [hlast, List.concat_eq_append, List.map_append, List.length_append, List.length_singleton,
      List.range_succ] at hnum
    have hidx := (List.append_inj' hnum rfl).2
    simp only [List.map_cons, List.map_nil, List.cons.injEq, and_true] at hidx
    simp [nextVideo, hlast, hidx]

theorem Moves.sound (h : Moves s op s') (hs : s.Sound) : s'.Sound := by
  cases h with
  | readmitted msg hd =>
    have hitems := hs.waiting hd
    have hline : s.line ++ [s.nextVideo msg true] =
        videos (s.delivered ++ (s.queue.items ++ [s.nextVideo msg true])) := by
      simp [line, nextVideo]
    refine ⟨hs.opened, nextVideo_numbered hs msg true, ?_, ?_, ?_, fun h => by simp at h, ?_⟩
    · change (videos (s.delivered ++ (s.queue.items ++ [s.nextVideo msg true]))).Sublist _
      rw [← hline, videos_append]
      exact hs.ordered.append (.refl [s.nextVideo msg true])
    · simp only [line, ← hline]
      -- a keyframe needs no predecessor
      exact hs.decodable.snoc fun h => by simp [nextVideo] at h
    · intro _
      simp only [line, ← hline]
      simp [nextVideo]
    · have hcap := s.queue.cap_pos
      simp [hitems, nextVideo, hcap]
  | skipped msg hd =>
    refine ⟨hs.opened, nextVideo_numbered hs msg false, ?_, hs.decodable, ?_, hs.waiting, hs.bounded⟩
    · exact hs.ordered.trans (by simp)
    · intro h
      rw [hd] at h
      cases h
  | shed msg keyframe hd hl =>
    have hline : s.line = videos s.delivered ++ videos s.queue.items := videos_append _ _
    have hdel : (videos s.delivered).Sublist (videos s.pushed) :=
      (List.sublist_append_left _ _).trans (hline ▸ hs.ordered)
    refine ⟨hs.opened, nextVideo_numbered hs msg keyframe, ?_, ?_, fun h => by simp at h, fun _ => rfl,
      Nat.zero_le _⟩
    · simp only [line, List.append_nil, videos_append]
      exact hdel.trans (List.sublist_append_left _ _)
    · simp only [line, List.append_nil]
      exact Decodable.left (hline ▸ hs.decodable)
  | queued msg keyframe hd hl =>
    have hline : s.line ++ [s.nextVideo msg keyframe] =
        videos (s.delivered ++ (s.queue.items ++ [s.nextVideo msg keyframe])) := by
      simp [line, nextVideo]
    refine ⟨hs.opened, nextVideo_numbered hs msg keyframe, ?_, ?_, ?_, fun h => by simp [hd] at h, ?_⟩
    · change (videos (s.delivered ++ (s.queue.items ++ [s.nextVideo msg keyframe]))).Sublist _
      rw [← hline, videos_append]
      exact hs.ordered.append (.refl [s.nextVideo msg keyframe])
    · simp only [line, ← hline]
      exact nextVideo_decodable hs hd msg keyframe
    · intro _
      simp only [line, ← hline]
      simp [nextVideo]
    · have hlen := videos_length_le s.queue.items
      simp only [nextVideo, videos_append, videos_cons_video, videos_nil, List.length_append,
        List.length_singleton]
      omega
  | control msg =>
    have hline : videos (s.delivered ++ (s.queue.items ++ [s.nextControl msg])) = s.line := by
      simp [line, nextControl]
    have hpushed : videos (s.pushed ++ [s.nextControl msg]) = videos s.pushed := by simp [nextControl]
    have hitems : videos (s.queue.items ++ [s.nextControl msg]) = videos s.queue.items := by simp [nextControl]
    refine ⟨hs.opened, ?_, ?_, ?_, ?_, ?_, ?_⟩
    · rw [hpushed]
      exact hs.numbered
    · simpa only [line, hline, hpushed] using hs.ordered
    · simpa only [line, hline] using hs.decodable
    · simpa only [line, hline, hpushed] using hs.latest
    · simpa only [hitems] using hs.waiting
    · simpa only [hitems] using hs.bounded
  | popped e rest hi =>
    have hline : videos (s.delivered ++ [e] ++ rest) = s.line := by simp [line, hi]
    have hitems : videos s.queue.items = videos [e] ++ videos rest := by rw [hi, ← videos_append]; rfl
    refine ⟨hs.opened, hs.numbered, ?_, ?_, ?_, ?_, ?_⟩
    · simpa only [line, hline] using hs.ordered
    · simpa only [line, hline] using hs.decodable
    · simpa only [line, hline] using hs.latest
    · intro hd
      have hnone := hs.waiting hd
      rw [hitems] at hnone
      exact (List.append_eq_nil_iff.1 hnone).2
    · have hle := hs.bounded
      rw [hitems, List.length_append] at hle
      change (videos rest).length ≤ s.queue.cap
      omega

theorem step_sound (hs : s.Sound) (h : s.step op = some s') : s'.Sound := (step_moves hs.opened h).sound hs

private theorem run_sound (cap : { n : Nat // 1 ≤ n }) (h : Lts.run step (start cap) ops = some s) : s.Sound :=
  Lts.Reachable.invariant (P := Sound) (fun _ _ _ hs hstep => step_sound hs hstep) ⟨ops, h⟩ (start_sound cap)

/-- Frames are delivered in push order, each P-frame after its predecessor, and at most `cap` of them wait. -/
theorem delivered_decodable (cap : { n : Nat // 1 ≤ n }) (ops : List (QueueOp M)) (s : Feed M)
    (h : Lts.run step (start cap) ops = some s) :
    (videos s.pushed).map Entry.index = List.range (videos s.pushed).length ∧
    (videos (s.delivered ++ s.queue.items)).Sublist (videos s.pushed) ∧
    Decodable (videos s.delivered) ∧ Decodable (videos (s.delivered ++ s.queue.items)) ∧
    (videos s.queue.items).length ≤ s.queue.cap ∧ s.queue.cap = cap := by
  have hs := run_sound cap h
  have hcap : s.queue.cap = cap := by
    have hkeep : ∀ s : Feed M, ∀ op s', s.Sound ∧ s.queue.cap = cap → s.step op = some s' →
        s'.Sound ∧ s'.queue.cap = cap := by
      intro s op s' hs hstep
      refine ⟨step_sound hs.1 hstep, ?_⟩
      cases step_moves hs.1.opened hstep with
      | _ => exact hs.2
    exact (Lts.Reachable.invariant (P := fun s : Feed M => s.Sound ∧ s.queue.cap = cap) hkeep ⟨ops, h⟩
      ⟨start_sound cap, rfl⟩).2
  have hline : Decodable (videos s.delivered ++ videos s.queue.items) := videos_append _ _ ▸ hs.decodable
  exact ⟨hs.numbered, hs.ordered, hline.left, hs.decodable, hs.bounded, hcap⟩

/-- A slow viewer: the second P-frame overflows, the next keyframe resumes. -/
theorem delivered_decodable_overflow :
    Decodable [(⟨.video true, 0, 10⟩ : Entry Nat), ⟨.video true, 3, 13⟩] :=
  (delivered_decodable ⟨1, by decide⟩ [.push 10 true, .pop, .push 11 false, .push 12 false, .push 13 true, .pop]
    ⟨⟨[], false, false, 1, by decide⟩,
      [⟨.video true, 0, 10⟩, ⟨.video false, 1, 11⟩, ⟨.video false, 2, 12⟩, ⟨.video true, 3, 13⟩],
      [⟨.video true, 0, 10⟩, ⟨.video true, 3, 13⟩], [2]⟩ rfl).2.2.1

/-! ### Keyframes and slow viewers -/

/-- A keyframe that is pushed waits in the queue afterwards, and the queue admits the frames that follow. -/
def Readmits (s : Feed M) : QueueOp M → Prop
  | .push msg true => ∀ s', s.step (.push msg true) = some s' →
      s.nextVideo msg true ∈ s'.queue.items ∧ s'.queue.dropping = false
  | _ => True

/-- A keyframe that is pushed is waited for, or there is room for it. -/
def Welcomes (s : Feed M) : QueueOp M → Prop
  | .push _ true => s.queue.dropping = true ∨ s.queue.items.length < s.queue.cap
  | _ => True

instance (s : Feed M) (op : QueueOp M) : Decidable (s.Welcomes op) :=
  match op with
  | .push _ true => inferInstanceAs (Decidable (_ ∨ _))
  | .push _ false => .isTrue trivial
  | .pushControl _ => .isTrue trivial
  | .pop => .isTrue trivial

private theorem Moves.welcomes {msg : M} (h : Moves s (.push msg true) s') :
    s.nextVideo msg true ∈ s'.queue.items ∧ s'.queue.dropping = false ↔
      s.queue.dropping = true ∨ s.queue.items.length < s.queue.cap := by
  cases h with
  | readmitted msg hd => exact iff_of_true ⟨List.mem_append_right _ List.mem_cons_self, rfl⟩ (.inl hd)
  | shed msg keyframe hd hl =>
    -- the keyframe goes with the backlog it was to end
    refine iff_of_false (fun h => List.not_mem_nil h.1) ?_
    rw [hd]
    rintro (h | h)
    · cases h
    · omega
  | queued msg keyframe hd hl => exact iff_of_true ⟨List.mem_append_right _ List.mem_cons_self, hd⟩ (.inr hl)

private theorem step_readmits_iff (hs : s.Sound) (op : QueueOp M) : s.Readmits op ↔ s.Welcomes op := by
  cases op with
  | push msg keyframe =>
    cases keyframe with
    | true =>
      have hmoves : ∀ s', s.step (.push msg true) = some s' → _ := fun s' hs' => (step_moves hs.opened hs').welcomes
      constructor
      · intro h
        exact (hmoves _ rfl).1 (h _ rfl)
      · intro h s' hs'
        exact (hmoves s' hs').2 h
    | false => exact Iff.rfl
  | pushControl msg => exact Iff.rfl
  | pop => exact Iff.rfl

/-- In a run every keyframe re-admits its viewer exactly when none of them overflows the queue itself. -/
theorem readmits_iff (cap : { n : Nat // 1 ≤ n }) (ops : List (QueueOp M)) :
    Lts.Along step Readmits (start cap) ops ↔ Lts.Along step Welcomes (start cap) ops :=
  Lts.along_iff_along (fun _ _ _ hs hstep => step_sound hs hstep) (fun _ op hs => step_readmits_iff hs op)
    (start_sound cap)

/-- A keyframe that overflows the queue is dropped with the backlog, and the next keyframe is waited for. -/
theorem not_always_readmits : ¬ ∀ (cap : { n : Nat // 1 ≤ n }) (ops : List (QueueOp Nat)),
    Lts.Along step Readmits (start cap) ops := by
  intro h
  have hlast := (h ⟨1, by decide⟩ [.push 10 true, .push 11 true]).2 _ rfl
  exact absurd (hlast.1 _ rfl).2 (by decide)

end Feed

end Infinigpu
