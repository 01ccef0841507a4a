import Infinigpu.Pixel.Hub

/-!
# What a client is sent (`infinigpu-pixel`, `register`)

The send thread of a client takes one message after the other from its queue and sends it, until the queue is closed
or sending fails.  `Broadcasting` is the hub with what has been sent to each client.

Behind every queue there is a feed (`Serves`), whatever the order of broadcasts, joins, evictions and send threads.
So what a client has been sent are offers it was due, the frames in order and each P-frame after its predecessor
(`Broadcasting.run_sent`).
-/

namespace Infinigpu

/-- The hub, and what has been sent to each client. -/
structure Broadcasting (M : Type) where
  hub : Hub M
  sent : Nat → List M

namespace Broadcasting

variable {M : Type} [DecidableEq M]

def new : Broadcasting M := ⟨.new, fun _ => []⟩

/-- What has been sent after an action. -/
def sends (b : Broadcasting M) : HubAction M → Nat → List M
  | .deliver id true => Function.update b.sent id (b.sent id ++ (b.hub.peers id).queue.items.take 1)
  | _ => b.sent

def step (b : Broadcasting M) (a : HubAction M) : Option (Broadcasting M) :=
  (b.hub.step a).map fun hub => { hub, sent := b.sends a }

end Broadcasting

/-! ### The feed of a client -/

section Feeds

variable {M : Type}

/-- The offer that an entry of the queue was. -/
def Entry.offer (e : Entry M) : Offer M :=
  match e.lane with
  | .video keyframe => .video e.msg keyframe
  | .control => .control e.msg

/-- The call on the queue that an offer is. -/
def Offer.op : Offer M → QueueOp M
  | .video msg keyframe => .push msg keyframe
  | .control msg => .pushControl msg

/-- What is delivered or queued has been pushed. -/
def Feed.Known (f : Feed M) : Prop := f.delivered ++ f.queue.items ⊆ f.pushed

private theorem Feed.Moves.known {f f' : Feed M} {op : QueueOp M} (hm : Feed.Moves f op f') (h : f.Known) :
    f'.Known := by
  unfold Feed.Known at h ⊢
  cases hm with
  | readmitted msg hd =>
    rw [← List.append_assoc]
    exact List.append_subset.2 ⟨List.subset_append_of_subset_left _ h, List.subset_append_right _ _⟩
  | skipped msg hd => exact List.subset_append_of_subset_left _ h
  | shed msg keyframe hd hl =>
    rw [List.append_nil]
    exact List.subset_append_of_subset_left _ fun e he => h (List.mem_append_left _ he)
  | queued msg keyframe hd hl =>
    rw [← List.append_assoc]
    exact List.append_subset.2 ⟨List.subset_append_of_subset_left _ h, List.subset_append_right _ _⟩
  | control msg =>
    rw [← List.append_assoc]
    exact List.append_subset.2 ⟨List.subset_append_of_subset_left _ h, List.subset_append_right _ _⟩
  | popped e rest hi =>
    rw [hi] at h
    rwa [List.append_assoc]

/-- The feed `f` is the history of the queue of `c`, up to when it was closed. -/
structure Serves (f : Feed M) (c : Client M) (sent : List M) : Prop where
  sound : f.Sound
  known : f.Known
  offers : f.pushed.map Entry.offer <+: c.offered
  sends : sent <+: f.delivered.map Entry.msg
  queue : c.queue.closed = false → f.pushed.map Entry.offer = c.offered ∧ f.queue.map Entry.msg = c.queue
  closed : c.queue.closed = true → c.queue.items = []
  running : c.queue.closed = false → c.thread = .unborn ∨ c.thread = .running → f.delivered.map Entry.msg = sent

private theorem serves_new (cap : { n : Nat // 1 ≤ n }) : Serves (.start cap) (.new cap : Client M) [] where
  sound := Feed.start_sound cap
  known := List.nil_subset _
  offers := List.prefix_refl _
  sends := List.prefix_refl _
  queue _ := ⟨rfl, rfl⟩
  closed h := by cases h
  running _ _ := rfl

variable {f : Feed M} {c : Client M} {sent : List M}

private theorem step_offer (f : Feed M) (o : Offer M) : ∃ f', f.step o.op = some f' ∧
    f'.pushed.map Entry.offer = f.pushed.map Entry.offer ++ [o] ∧ f'.delivered = f.delivered := by
  cases o with
  | video msg keyframe => exact ⟨_, rfl, List.map_append, rfl⟩
  | control msg => exact ⟨_, rfl, List.map_append, rfl⟩

/-- An offer to an open queue is a call of the feed. -/
private theorem offer_queue (h : f.queue.map Entry.msg = c.queue) {f' : Feed M} {o : Offer M}
    (hf : f.step o.op = some f') :
    f'.queue.map Entry.msg = (c.offer o).queue := by
  have hbytes := f.step_bytes o.op
  rw [hf, Option.map_some, Feed.bytes, Feed.bytes, h] at hbytes
  cases o with
  | video msg keyframe => exact congrArg Prod.fst (Option.some_inj.1 hbytes)
  | control msg => exact congrArg Prod.fst (Option.some_inj.1 hbytes)

private theorem offer_closed (h : c.queue.closed = true) (o : Offer M) : (c.offer o).queue = c.queue := by
  cases o with
  | video msg keyframe => simp [Client.offer, ClientQueue.push, h]
  | control msg => simp [Client.offer, ClientQueue.pushControl, h]

@[simp] theorem offer_thread (c : Client M) (o : Offer M) : (c.offer o).thread = c.thread := by
  cases o <;> rfl

private theorem Serves.offer (h : Serves f c sent) (o : Offer M) : ∃ f', Serves f' (c.offer o) sent := by
  cases hclosed : c.queue.closed with
  | true =>
    have hqueue := offer_closed hclosed o
    refine ⟨f, h.sound, h.known, ?_, h.sends, ?_, ?_, ?_⟩
    · rw [Client.offer_offered]
      exact h.offers.trans (List.prefix_append _ _)
    · rw [hqueue, hclosed]
      nofun
    · rw [hqueue]
      exact h.closed
    · rw [hqueue, hclosed]
      nofun
  | false =>
    obtain ⟨hoffers, hqueue⟩ := h.queue hclosed
    obtain ⟨f', hstep, hpushed, hdelivered⟩ := step_offer f o
    have hqueue' := offer_queue hqueue hstep
    have hopen : f'.queue.closed = false := (Feed.step_sound h.sound hstep).opened
    have hoffered : f'.pushed.map Entry.offer = (c.offer o).offered := by
      rw [hpushed, hoffers, Client.offer_offered]
    have hmoves := Feed.step_moves h.sound.opened hstep
    refine ⟨f', hmoves.sound h.sound, hmoves.known h.known, ?_, ?_, fun _ => ⟨hoffered, hqueue'⟩, ?_, ?_⟩
    · rw [hoffered]
    · rw [hdelivered]
      exact h.sends
    · rw [← hqueue']
      intro hc
      rw [ClientQueue.map, hopen] at hc
      cases hc
    · intro _ hthread
      rw [offer_thread] at hthread
      rw [hdelivered]
      exact h.running hclosed hthread

theorem Serves.close (h : Serves f c sent) : Serves f c.close sent where
  sound := h.sound
  known := h.known
  offers := h.offers
  sends := h.sends
  queue hopen := by cases hopen
  closed _ := rfl
  running hopen := by cases hopen

/-- The send thread goes on to its next state, if it sends no more from there. -/
private theorem Serves.moved (h : Serves f c sent) (alive : Bool) {thread : SendThread}
    (hthread : thread = .unborn ∨ thread = .running → c.thread = .unborn ∨ c.thread = .running) :
    Serves f { c with alive, thread } sent where
  sound := h.sound
  known := h.known
  offers := h.offers
  sends := h.sends
  queue := h.queue
  closed := h.closed
  running hopen ht := h.running hopen (hthread ht)

theorem Serves.pop (h : Serves f c sent) (hthread : c.thread = .running) {m : M} {q : ClientQueue M}
    (hpop : c.queue.pop = some (m, q)) :
    (∃ f', Serves f' { c with queue := q } (sent ++ [m])) ∧
      ∃ f', Serves f' { c with queue := q, thread := .leaving } sent := by
  obtain ⟨hitems, hq⟩ := ClientQueue.pop_eq_some hpop
  have hopen : c.queue.closed = false := by
    by_contra hclosed
    rw [h.closed (Bool.not_eq_false _ ▸ hclosed)] at hitems
    cases hitems
  obtain ⟨hoffers, hqueue⟩ := h.queue hopen
  have hbytes := f.step_bytes .pop
  rw [Feed.bytes, hqueue, ClientQueue.step, hpop, Option.map_some] at hbytes
  obtain ⟨f', hstep, hf'⟩ := Option.map_eq_some_iff.1 hbytes
  have hmoves := Feed.step_moves h.sound.opened hstep
  have hsound := hmoves.sound h.sound
  have hqueue' : f'.queue.map Entry.msg = q := congrArg Prod.fst hf'
  have hdelivered : f'.delivered.map Entry.msg = sent ++ [m] := by
    rw [← h.running hopen (.inr hthread)]
    exact congrArg Prod.snd hf'
  have hpushed : f'.pushed = f.pushed := by
    obtain ⟨r, -, rfl⟩ := Option.map_eq_some_iff.1 hstep
    rfl
  have hclosed : q.closed = true → q.items = [] := by
    rw [← hqueue', ClientQueue.map, hsound.opened]
    intro h
    cases h
  have hoffered : f'.pushed.map Entry.offer = c.offered := by rw [hpushed, hoffers]
  constructor
  · refine ⟨f', hsound, hmoves.known h.known, ?_, ?_, fun _ => ⟨hoffered, hqueue'⟩, hclosed, fun _ _ => hdelivered⟩
    · rw [hoffered]
    · rw [hdelivered]
  · refine ⟨f', hsound, hmoves.known h.known, ?_, ?_, fun _ => ⟨hoffered, hqueue'⟩, hclosed, ?_⟩
    · rw [hoffered]
    · rw [hdelivered]
      exact List.prefix_append _ _
    · intro _ hleaving
      rcases hleaving with h | h <;> cases h

end Feeds

/-! ### The clients of the hub -/

namespace Hub

variable {M : Type} [DecidableEq M] {h h' : Hub M}

/-- What the holder of the lock does to one client. -/
private theorem work_peer (hwork : h.work = some h') (id : Nat) : h.joined ≤ h'.joined ∧
    (h'.peers id = h.peers id ∨ (∃ o, h'.peers id = (h.peers id).offer o) ∨ h'.peers id = (h.peers id).close ∨
      id = h.joined ∧ h.joined < h'.joined ∧ ∃ cap, h'.peers id = .new cap) := by
  have hupdate : ∀ (id' : Nat) (g : Client M → Client M), Function.update h.peers id' (g (h.peers id')) id =
      h.peers id ∨ Function.update h.peers id' (g (h.peers id')) id = g (h.peers id) := by
    intro id' g
    by_cases hid : id = id'
    · subst hid
      right
      rw [Function.update_self]
    · left
      rw [Function.update_of_ne hid]
  unfold work at hwork
  split at hwork
  · cases hwork
  · obtain rfl := Option.some_inj.1 hwork
    exact ⟨Nat.le_refl _, .inl rfl⟩
  · obtain rfl := Option.some_inj.1 hwork
    exact ⟨Nat.le_refl _, .inl rfl⟩
  · rename_i cap order hholder
    split at hwork
    · obtain rfl := Option.some_inj.1 hwork
      refine ⟨Nat.le_succ _, ?_⟩
      by_cases hid : id = h.joined
      · refine .inr (.inr (.inr ⟨hid, Nat.lt_succ_self _, cap, ?_⟩))
        show Function.update h.peers h.joined (.new cap) id = _
        rw [hid, Function.update_self]
      · left
        show Function.update h.peers h.joined (.new cap) id = _
        rw [Function.update_of_ne hid]
    · cases hwork
  · obtain rfl := Option.some_inj.1 hwork
    exact ⟨Nat.le_refl _, .inl rfl⟩
  · obtain rfl := Option.some_inj.1 hwork
    exact ⟨Nat.le_refl _, .inl rfl⟩
  · obtain rfl := Option.some_inj.1 hwork
    exact ⟨Nat.le_refl _, .inl rfl⟩
  · rename_i o id' todo kept hholder
    split at hwork
    · obtain rfl := Option.some_inj.1 hwork
      exact ⟨Nat.le_refl _, (hupdate id' (·.offer o)).imp_right fun heq => .inl ⟨o, heq⟩⟩
    · obtain rfl := Option.some_inj.1 hwork
      exact ⟨Nat.le_refl _, (hupdate id' .close).imp_right fun heq => .inr (.inl heq)⟩
  · obtain rfl := Option.some_inj.1 hwork
    exact ⟨Nat.le_refl _, .inl rfl⟩
  · rename_i id' o todo hholder
    obtain rfl := Option.some_inj.1 hwork
    exact ⟨Nat.le_refl _, (hupdate id' (·.offer o)).imp_right fun heq => .inl ⟨o, heq⟩⟩

/-- The list holds clients that have joined. -/
private theorem work_clients (hh : h.Linear) (hclients : ∀ id ∈ h.clients, id < h.joined) (hwork : h.work = some h') :
    ∀ id ∈ h'.clients, id < h'.joined := by
  have hknown := hh.known
  unfold work at hwork
  split at hwork
  · cases hwork
  · obtain rfl := Option.some_inj.1 hwork
    exact hclients
  · obtain rfl := Option.some_inj.1 hwork
    exact hclients
  · split at hwork
    · obtain rfl := Option.some_inj.1 hwork
      exact fun id hid => Nat.lt_succ_of_lt (hclients id hid)
    · cases hwork
  · obtain rfl := Option.some_inj.1 hwork
    exact hclients
  · obtain rfl := Option.some_inj.1 hwork
    exact hclients
  · rename_i o kept hholder
    obtain rfl := Option.some_inj.1 hwork
    intro id hid
    refine hknown id ?_
    rw [roll, hholder]
    exact List.mem_append_left _ hid
  · split at hwork
    · obtain rfl := Option.some_inj.1 hwork
      exact hclients
    · obtain rfl := Option.some_inj.1 hwork
      exact hclients
  · rename_i id' hholder
    obtain rfl := Option.some_inj.1 hwork
    intro id hid
    refine hknown id ?_
    rw [roll, hholder]
    exact hid
  · obtain rfl := Option.some_inj.1 hwork
    exact hclients

end Hub

namespace Broadcasting

variable {M : Type} [DecidableEq M] {b b' : Broadcasting M}

/-- Every client is served. -/
structure Serving (b : Broadcasting M) : Prop where
  linear : b.hub.Linear
  clients : ∀ id ∈ b.hub.clients, id < b.hub.joined
  unborn : ∀ id, b.hub.joined ≤ id → (b.hub.peers id).thread = .unborn ∧ b.sent id = []
  served : ∀ id, ∃ f, Serves f (b.hub.peers id) (b.sent id)

omit [DecidableEq M] in
private theorem new_serving : (new : Broadcasting M).Serving where
  linear := Hub.new_linear
  clients := nofun
  unborn _ _ := ⟨rfl, rfl⟩
  served _ := ⟨_, serves_new _⟩

omit [DecidableEq M] in
/-- A step of the send thread of a client that has joined. -/
private theorem Serving.thread (hb : b.Serving) {id : Nat} (hid : id < b.hub.joined) {c : Client M} {sent : List M}
    (hlinear : Hub.Linear (b.hub.updatePeer id fun _ => c)) (hc : ∃ f, Serves f c sent) :
    Serving { hub := b.hub.updatePeer id fun _ => c, sent := Function.update b.sent id sent } where
  linear := hlinear
  clients := hb.clients
  unborn id' hid' := by
    have hne : id' ≠ id := fun heq => absurd (heq ▸ hid') (Nat.not_le.2 hid)
    show (Function.update b.hub.peers id c id').thread = .unborn ∧ Function.update b.sent id sent id' = []
    rw [Function.update_of_ne hne, Function.update_of_ne hne]
    exact hb.unborn id' hid'
  served id' := by
    show ∃ f, Serves f (Function.update b.hub.peers id c id') (Function.update b.sent id sent id')
    by_cases heq : id' = id
    · subst heq
      rw [Function.update_self, Function.update_self]
      exact hc
    · rw [Function.update_of_ne heq, Function.update_of_ne heq]
      exact hb.served id'

omit [DecidableEq M] in
/-- A thread that has been started is that of a client that has joined. -/
private theorem Serving.joined (hb : b.Serving) {id : Nat} (h : (b.hub.peers id).thread ≠ .unborn) :
    id < b.hub.joined := by
  by_contra hid
  exact h (hb.unborn id (Nat.not_lt.1 hid)).1

private theorem Serving.work (hb : b.Serving) (hstep : b.step .work = some b') : b'.Serving := by
  obtain ⟨hub, hwork, rfl⟩ := Option.map_eq_some_iff.1 hstep
  have hlinear : hub.Linear := Hub.step_linear hb.linear hwork
  refine ⟨hlinear, Hub.work_clients hb.linear hb.clients hwork, fun id hid => ?_, fun id => ?_⟩
  · obtain ⟨hjoined, hpeer⟩ := Hub.work_peer hwork id
    obtain ⟨hthread, hsent⟩ := hb.unborn id (Nat.le_trans hjoined hid)
    refine ⟨?_, hsent⟩
    rcases hpeer with heq | ⟨o, heq⟩ | heq | ⟨-, -, cap, heq⟩
    · exact (congrArg Client.thread heq).trans hthread
    · exact (congrArg Client.thread heq).trans ((offer_thread _ o).trans hthread)
    · exact (congrArg Client.thread heq).trans hthread
    · exact congrArg Client.thread heq
  · obtain ⟨-, hpeer⟩ := Hub.work_peer hwork id
    obtain ⟨f, hf⟩ := hb.served id
    rcases hpeer with heq | ⟨o, heq⟩ | heq | ⟨hid, -, cap, heq⟩
    · exact ⟨f, heq ▸ hf⟩
    · obtain ⟨f', hf'⟩ := hf.offer o
      exact ⟨f', heq ▸ hf'⟩
    · exact ⟨f, heq ▸ hf.close⟩
    · -- a new client takes a number that nobody has had
      have hsent : b.sent id = [] := (hb.unborn id (Nat.le_of_eq hid.symm)).2
      refine ⟨.start cap, ?_⟩
      show Serves _ (hub.peers id) (b.sent id)
      rw [hsent, heq]
      exact serves_new cap

private theorem Serving.step {a : HubAction M} (hb : b.Serving) (hstep : b.step a = some b') : b'.Serving := by
  cases a with
  | work => exact hb.work hstep
  | lock call =>
    obtain ⟨hub, hhub, rfl⟩ := Option.map_eq_some_iff.1 hstep
    have hlinear : hub.Linear := Hub.step_linear hb.linear hhub
    simp only [Hub.step] at hhub
    split at hhub
    · obtain rfl := Option.some_inj.1 hhub
      exact ⟨hlinear, hb.clients, hb.unborn, hb.served⟩
    · cases hhub
  | spawn id =>
    obtain ⟨hub, hhub, rfl⟩ := Option.map_eq_some_iff.1 hstep
    have hlinear : hub.Linear := Hub.step_linear hb.linear hhub
    simp only [Hub.step, Option.ite_none_right_eq_some, Option.some_inj] at hhub
    obtain ⟨⟨hid, hthread⟩, rfl⟩ := hhub
    obtain ⟨f, hf⟩ := hb.served id
    have hmoved : ∃ f, Serves f { b.hub.peers id with thread := .running } (b.sent id) :=
      ⟨f, hf.moved _ fun _ => .inl hthread⟩
    have hnext := hb.thread (hb.clients id hid) hlinear hmoved
    rwa [Function.update_eq_self] at hnext
  | deliver id sent =>
    obtain ⟨hub, hhub, rfl⟩ := Option.map_eq_some_iff.1 hstep
    have hlinear : hub.Linear := Hub.step_linear hb.linear hhub
    simp only [Hub.step, Option.ite_none_right_eq_some, Option.map_eq_some_iff] at hhub
    obtain ⟨hthread, ⟨m, q⟩, hpop, rfl⟩ := hhub
    obtain ⟨f, hf⟩ := hb.served id
    obtain ⟨hkept, hlost⟩ := hf.pop hthread hpop
    have hid : id < b.hub.joined := hb.joined (by rw [hthread]; intro h; cases h)
    cases sent with
    | true =>
      have htake : (b.hub.peers id).queue.items.take 1 = [m] := by
        rw [(ClientQueue.pop_eq_some hpop).1]
        rfl
      have hnext := hb.thread hid (c := { b.hub.peers id with queue := q, thread := .running }) hlinear
        (by rw [← hthread]; exact hkept)
      show Serving { hub := _, sent := Function.update b.sent id (b.sent id ++ (b.hub.peers id).queue.items.take 1) }
      rw [htake]
      exact hnext
    | false =>
      have hnext := hb.thread hid (c := { b.hub.peers id with queue := q, thread := .leaving }) hlinear hlost
      rwa [Function.update_eq_self] at hnext
  | ended id =>
    obtain ⟨hub, hhub, rfl⟩ := Option.map_eq_some_iff.1 hstep
    have hlinear : hub.Linear := Hub.step_linear hb.linear hhub
    simp only [Hub.step, Option.ite_none_right_eq_some, Option.some_inj] at hhub
    obtain ⟨⟨hthread, -, -⟩, rfl⟩ := hhub
    obtain ⟨f, hf⟩ := hb.served id
    have hmoved : ∃ f, Serves f { b.hub.peers id with thread := .leaving } (b.sent id) :=
      ⟨f, hf.moved _ fun hleaving => by rcases hleaving with h | h <;> cases h⟩
    have hnext := hb.thread (hb.joined (by rw [hthread]; intro h; cases h)) hlinear hmoved
    rwa [Function.update_eq_self] at hnext
  | mark id =>
    obtain ⟨hub, hhub, rfl⟩ := Option.map_eq_some_iff.1 hstep
    have hlinear : hub.Linear := Hub.step_linear hb.linear hhub
    simp only [Hub.step, Option.ite_none_right_eq_some, Option.some_inj] at hhub
    obtain ⟨hthread, rfl⟩ := hhub
    obtain ⟨f, hf⟩ := hb.served id
    have hmoved : ∃ f, Serves f { b.hub.peers id with alive := false, thread := .marked } (b.sent id) :=
      ⟨f, hf.moved false fun hmarked => by rcases hmarked with h | h <;> cases h⟩
    have hnext := hb.thread (hb.joined (by rw [hthread]; intro h; cases h)) hlinear hmoved
    rwa [Function.update_eq_self] at hnext
  | finish id =>
    obtain ⟨hub, hhub, rfl⟩ := Option.map_eq_some_iff.1 hstep
    have hlinear : hub.Linear := Hub.step_linear hb.linear hhub
    simp only [Hub.step, Option.ite_none_right_eq_some, Option.some_inj] at hhub
    obtain ⟨hthread, rfl⟩ := hhub
    obtain ⟨f, hf⟩ := hb.served id
    have hmoved : ∃ f, Serves f { (b.hub.peers id).close with thread := .finished } (b.sent id) :=
      ⟨f, hf.close.moved _ fun hfinished => by rcases hfinished with h | h <;> cases h⟩
    have hnext := hb.thread (hb.joined (by rw [hthread]; intro h; cases h)) hlinear hmoved
    rwa [Function.update_eq_self] at hnext

theorem run_serving {as : List (HubAction M)} (hrun : Lts.run step new as = some b) : b.Serving :=
  Lts.Reachable.invariant (P := Serving) (fun _ _ _ hb hstep => hb.step hstep) ⟨as, hrun⟩ new_serving

end Broadcasting

/-! ### What a client is due -/

section Due

variable {M : Type}

/-- The frame of an offer. -/
def Offer.frame : Offer M → Option (M × Bool)
  | .video msg keyframe => some (msg, keyframe)
  | .control _ => none

/-- The frames among the offers. -/
def frames (os : List (Offer M)) : List (M × Bool) := os.filterMap Offer.frame

/-- A client that was offered `os` gets the entries `es`: frames by their number among those offered, in order, each
P-frame after its predecessor, and control messages that were offered. -/
structure Reaches (os : List (Offer M)) (es : List (Entry M)) : Prop where
  frames : ∀ e ∈ es, ∀ keyframe, e.lane = .video keyframe → (frames os)[e.index]? = some (e.msg, keyframe)
  controls : ∀ e ∈ es, e.lane = .control → .control e.msg ∈ os
  increasing : ((videos es).map Entry.index).Pairwise (· < ·)
  decodable : Feed.Decodable (videos es)

private theorem frames_offers (es : List (Entry M)) :
    frames (es.map Entry.offer) = (videos es).filterMap fun e => e.offer.frame := by
  induction es with
  | nil => rfl
  | cons e es ih =>
    obtain ⟨lane, index, msg⟩ := e
    cases lane with
    | video keyframe => exact congrArg (_ :: ·) ih
    | control => exact ih

private theorem frames_mono {os os' : List (Offer M)} (h : os <+: os') : frames os <+: frames os' := by
  obtain ⟨rest, rfl⟩ := h
  exact ⟨frames rest, (List.filterMap_append ..).symm⟩

private theorem getElem?_of_prefix {α : Type*} {l l' : List α} (h : l <+: l') {i : Nat} {a : α}
    (hi : l[i]? = some a) :
    l'[i]? = some a := by
  obtain ⟨rest, rfl⟩ := h
  rw [List.getElem?_append_left (List.getElem?_eq_some_iff.1 hi).1, hi]

/-- A frame of the numbered list is where its number says. -/
private theorem getElem?_index {l : List (Entry M)} (hnum : l.map Entry.index = List.range l.length) {e : Entry M}
    (he : e ∈ l) : l[e.index]? = some e := by
  obtain ⟨i, hi, rfl⟩ := List.getElem_of_mem he
  have hindex : (l.map Entry.index)[i]? = some i := by
    rw [hnum, List.getElem?_range hi]
  rw [List.getElem?_map, List.getElem?_eq_getElem hi, Option.map_some, Option.some_inj] at hindex
  rw [hindex, List.getElem?_eq_getElem hi]

private theorem mem_videos {es : List (Entry M)} {e : Entry M} {keyframe : Bool} (he : e ∈ es)
    (hlane : e.lane = .video keyframe) : e ∈ videos es :=
  List.mem_filter.2 ⟨he, by rw [Entry.isVideo, hlane]; rfl⟩

private theorem getElem?_filterMap_frame {l : List (Entry M)} (hl : ∀ e ∈ l, e.isVideo = true) (i : Nat) :
    (l.filterMap fun e => e.offer.frame)[i]? = (l[i]?).bind fun e => e.offer.frame := by
  induction l generalizing i with
  | nil => rfl
  | cons e l ih =>
    obtain ⟨lane, index, msg⟩ := e
    cases lane with
    | video keyframe =>
      cases i with
      | zero => rfl
      | succ i => exact ih (fun e he => hl e (List.mem_cons_of_mem _ he)) i
    | control => cases hl _ List.mem_cons_self

variable {f : Feed M} {c : Client M} {sent : List M}

private theorem Serves.reaches (h : Serves f c sent) {os : List (Offer M)} (hos : c.offered <+: os) :
    ∃ es : List (Entry M), sent = es.map Entry.msg ∧ Reaches os es := by
  refine ⟨f.delivered.take sent.length, ?_, ?_⟩
  · rw [List.map_take]
    exact List.prefix_iff_eq_take.1 h.sends
  · have htake : f.delivered.take sent.length <+: f.delivered := List.take_prefix _ _
    have hsub : videos (f.delivered.take sent.length) <+: videos f.delivered := htake.filter _
    have hline : videos f.delivered <+: f.line := by
      rw [Feed.line, videos_append]
      exact List.prefix_append _ _
    have hoffers : f.pushed.map Entry.offer <+: os := h.offers.trans hos
    refine ⟨fun e he keyframe hlane => ?_, fun e he hlane => ?_, ?_, ?_⟩
    · have hpushed : e ∈ videos f.pushed := h.sound.ordered.subset ((hsub.trans hline).subset (mem_videos he hlane))
      refine getElem?_of_prefix (frames_mono hoffers) ?_
      rw [frames_offers, getElem?_filterMap_frame (l := videos f.pushed) (fun e he => (List.mem_filter.1 he).2),
        getElem?_index h.sound.numbered hpushed, Option.bind_some, Entry.offer, hlane]
      rfl
    · have hpushed : e ∈ f.pushed := h.known (List.mem_append_left _ (htake.subset he))
      have hoffer : e.offer = .control e.msg := by rw [Entry.offer, hlane]
      exact hoffers.subset (hoffer ▸ List.mem_map_of_mem hpushed)
    · have hrange : ((videos f.pushed).map Entry.index).Pairwise (· < ·) := by
        rw [h.sound.numbered]
        exact List.pairwise_lt_range
      exact hrange.sublist ((((hsub.trans hline).sublist).trans h.sound.ordered).map _)
    · obtain ⟨rest, hrest⟩ := hsub.trans hline
      have hdecodable := h.sound.decodable
      rw [← hrest] at hdecodable
      exact hdecodable.left

end Due

namespace Broadcasting

variable {M : Type} [DecidableEq M] {b : Broadcasting M}

/-- What a client has been sent, by what it was due. -/
theorem run_sent {as : List (HubAction M)} (hrun : Lts.run step new as = some b) {pre : List (HubEvent M)} {id : Nat}
    {order : List (Σ _ : UInt32, PlaneCache M)} {post : List (HubEvent M)}
    (hlog : b.hub.log = pre ++ .join id order :: post) :
    ∃ es : List (Entry M), b.sent id = es.map Entry.msg ∧ Reaches (HubEvent.due pre order post) es := by
  have hb := run_serving hrun
  obtain ⟨f, hf⟩ := hb.served id
  refine hf.reaches ?_
  by_cases hid : id ∈ b.hub.roll
  · exact ⟨_, hb.linear.listed pre id order post hlog hid⟩
  · exact (hb.linear.evicted pre id order post hlog hid).2

end Broadcasting

end Infinigpu
