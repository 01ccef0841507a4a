import Infinigpu.Device.Cursor
import Infinigpu.Pixel.Queue
import Mathlib.Data.List.AList

/-!
# The fan-out of the stream (`infinigpu-pixel`, `Hub`)

Broadcasts, joins and resets take the hub's lock and work in small steps under it: the cache first, then one client
after the other.  The send threads run between any two of these steps.  Whatever the interleaving, the calls take
effect one after the other (`Hub.log`), and a client that joins has been offered what was cached at that moment and
every later broadcast, in order (`Hub.join_atomic`).
-/

namespace Infinigpu

namespace Plane
def opDestroy : UInt8 := 4
end Plane

/-- The last state of one plane, for clients that join later. -/
structure PlaneCache (M : Type) where
  lastDefine : Option M
  lastMove : Option M
  deriving DecidableEq

abbrev Planes (M : Type) := AList fun _ : UInt32 => PlaneCache M

section Cache

variable {M : Type}

/-- `entry(plane_id).or_default()`. -/
def Planes.entry (planes : Planes M) (planeId : UInt32) : PlaneCache M :=
  (planes.lookup planeId).getD ⟨none, none⟩

/-- What `broadcast_control` remembers of a message. -/
def Planes.cache (planes : Planes M) (planeId : UInt32) (op : UInt8) (msg : M) : Planes M :=
  if op = Plane.opDefine then
    -- a new shape makes the old position stale
    planes.insert planeId ⟨some msg, none⟩
  else if op = Plane.opMove then
    planes.insert planeId { planes.entry planeId with lastMove := some msg }
  else if op = Plane.opDestroy then
    planes.erase planeId
  else
    planes

def PlaneCache.messages (c : PlaneCache M) : List M := c.lastDefine.toList ++ c.lastMove.toList

end Cache

/-- What a client's queue is given. -/
inductive Offer (M : Type) where
  | video (msg : M) (keyframe : Bool)
  | control (msg : M)
  deriving DecidableEq

/-- Where a client's send thread is. -/
inductive SendThread where
  | unborn
  | running
  /-- Out of its loop: the queue has ended or sending has failed. -/
  | leaving
  /-- The client is marked dead. -/
  | marked
  | finished
  deriving DecidableEq

structure Client (M : Type) where
  queue : ClientQueue M
  alive : Bool
  thread : SendThread
  /-- The pushes made to the queue so far. -/
  offered : List (Offer M)

namespace Client

variable {M : Type}

def new (cap : { n : Nat // 1 ≤ n }) : Client M := ⟨.new cap, true, .unborn, []⟩

def offer (c : Client M) (o : Offer M) : Client M :=
  match o with
  | .video msg keyframe => { c with queue := (c.queue.push msg keyframe).2, offered := c.offered ++ [o] }
  | .control msg => { c with queue := c.queue.pushControl msg, offered := c.offered ++ [o] }

def close (c : Client M) : Client M := { c with queue := c.queue.close }

@[simp] theorem offer_offered (c : Client M) (o : Offer M) : (c.offer o).offered = c.offered ++ [o] := by
  cases o <;> rfl

end Client

/-- The calls that take the lock.  A join visits the cached planes in the order `order` of the hash map. -/
inductive HubCall (M : Type) where
  | broadcast (msg : M) (keyframe : Bool)
  | broadcastControl (planeId : UInt32) (op : UInt8) (msg : M)
  | register (cap : { n : Nat // 1 ≤ n }) (order : List (Σ _ : UInt32, PlaneCache M))
  | resetKeyframe
  | resetPlanes

/-- What has taken effect. -/
inductive HubEvent (M : Type) where
  | broadcast (msg : M) (keyframe : Bool)
  | control (planeId : UInt32) (op : UInt8) (msg : M)
  | join (id : Nat) (order : List (Σ _ : UInt32, PlaneCache M))
  | resetKeyframe
  | resetPlanes

/-- Who holds the lock, and what it still has to do. -/
inductive Holder (M : Type) where
  | free
  | entered (call : HubCall M)
  /-- Inside `retain`: the clients still to visit and those kept so far. -/
  | fanOut (o : Offer M) (todo kept : List Nat)
  | prime (id : Nat) (todo : List (Offer M))

structure Hub (M : Type) where
  clients : List Nat
  lastKeyframe : Option M
  planes : Planes M
  holder : Holder M
  /-- Every client that ever joined, by number. -/
  peers : Nat → Client M
  joined : Nat
  log : List (HubEvent M)

inductive HubAction (M : Type) where
  | lock (call : HubCall M)
  /-- The holder of the lock does its next step. -/
  | work
  | spawn (id : Nat)
  /-- The send thread takes a message; `sent` is the outcome of sending it. -/
  | deliver (id : Nat) (sent : Bool)
  /-- The send thread finds its queue closed and drained. -/
  | ended (id : Nat)
  | mark (id : Nat)
  | finish (id : Nat)

namespace Hub

variable {M : Type} [DecidableEq M]

def new : Hub M := ⟨[], none, ∅, .free, fun _ => .new (maxClientQueue none), 0, []⟩

omit [DecidableEq M] in
/-- What a joining client is primed with. -/
def priming (keyframe : Option M) (order : List (Σ _ : UInt32, PlaneCache M)) : List (Offer M) :=
  (keyframe.map fun k => Offer.video k true).toList ++ order.flatMap fun e => e.2.messages.map .control

def updatePeer (h : Hub M) (id : Nat) (f : Client M → Client M) : Hub M :=
  { h with peers := Function.update h.peers id (f (h.peers id)) }

/-- The next step under the lock. -/
def work (h : Hub M) : Option (Hub M) :=
  match h.holder with
  | .free => none
  | .entered (.broadcast msg keyframe) =>
    some { h with
      lastKeyframe := if keyframe then some msg else h.lastKeyframe
      holder := .fanOut (.video msg keyframe) h.clients []
      log := h.log ++ [.broadcast msg keyframe] }
  | .entered (.broadcastControl planeId op msg) =>
    some { h with
      planes := h.planes.cache planeId op msg
      holder := .fanOut (.control msg) h.clients []
      log := h.log ++ [.control planeId op msg] }
  | .entered (.register cap order) =>
    if order.Perm h.planes.entries then
      some { h with
        peers := Function.update h.peers h.joined (.new cap)
        joined := h.joined + 1
        holder := .prime h.joined (priming h.lastKeyframe order)
        log := h.log ++ [.join h.joined order] }
    else
      none
  | .entered .resetKeyframe =>
    some { h with lastKeyframe := none, holder := .free, log := h.log ++ [.resetKeyframe] }
  | .entered .resetPlanes =>
    some { h with planes := ∅, holder := .free, log := h.log ++ [.resetPlanes] }
  | .fanOut _ [] kept => some { h with clients := kept, holder := .free }
  | .fanOut o (id :: todo) kept =>
    if (h.peers id).alive then
      some { h.updatePeer id (·.offer o) with holder := .fanOut o todo (kept ++ [id]) }
    else
      some { h.updatePeer id .close with holder := .fanOut o todo kept }
  | .prime id [] => some { h with clients := h.clients ++ [id], holder := .free }
  | .prime id (o :: todo) => some { h.updatePeer id (·.offer o) with holder := .prime id todo }

def step (h : Hub M) : HubAction M → Option (Hub M)
  | .lock call =>
    match h.holder with
    | .free => some { h with holder := .entered call }
    | _ => none
  | .work => h.work
  | .spawn id =>
    if id ∈ h.clients ∧ (h.peers id).thread = .unborn then
      some (h.updatePeer id fun c => { c with thread := .running })
    else
      none
  | .deliver id sent =>
    if (h.peers id).thread = .running then
      (h.peers id).queue.pop.map fun r => h.updatePeer id fun c =>
        { c with queue := r.2, thread := if sent then .running else .leaving }
    else
      none
  | .ended id =>
    if (h.peers id).thread = .running ∧ (h.peers id).queue.items = [] ∧ (h.peers id).queue.closed then
      some (h.updatePeer id fun c => { c with thread := .leaving })
    else
      none
  | .mark id =>
    if (h.peers id).thread = .leaving then
      some (h.updatePeer id fun c => { c with alive := false, thread := .marked })
    else
      none
  | .finish id =>
    if (h.peers id).thread = .marked then
      some (h.updatePeer id fun c => { c.close with thread := .finished })
    else
      none

end Hub

/-! ### What has taken effect -/

namespace HubEvent

variable {M : Type}

/-- The keyframe to prime with after the event, where it changes it. -/
def keyframe : HubEvent M → Option (Option M)
  | .broadcast msg true => some (some msg)
  | .resetKeyframe => some none
  | _ => none

/-- The offer made to every client of the moment. -/
def offer : HubEvent M → Option (Offer M)
  | .broadcast msg keyframe => some (.video msg keyframe)
  | .control _ _ msg => some (.control msg)
  | _ => none

def cachePlanes (planes : Planes M) : HubEvent M → Planes M
  | .control planeId op msg => planes.cache planeId op msg
  | .resetPlanes => ∅
  | _ => planes

/-- The last keyframe of the log, unless the cache was reset after it. -/
def keyframeOf (log : List (HubEvent M)) : Option M := (log.filterMap keyframe).getLast?.join

/-- The planes cached after the log. -/
def planesOf (log : List (HubEvent M)) : Planes M := log.foldl cachePlanes ∅

/-- What a client that joined after `pre` and saw `post` since is due. -/
def due (pre : List (HubEvent M)) (order : List (Σ _ : UInt32, PlaneCache M)) (post : List (HubEvent M)) :
    List (Offer M) :=
  Hub.priming (keyframeOf pre) order ++ post.filterMap offer

private theorem due_snoc (pre : List (HubEvent M)) (order : List (Σ _ : UInt32, PlaneCache M))
    (post : List (HubEvent M)) (e : HubEvent M) :
    due pre order (post ++ [e]) = due pre order post ++ e.offer.toList := by
  unfold due
  cases h : e.offer with
  | none => simp [h]
  | some o => simp [h]

theorem keyframeOf_snoc (log : List (HubEvent M)) (e : HubEvent M) :
    keyframeOf (log ++ [e]) = e.keyframe.getD (keyframeOf log) := by
  unfold keyframeOf
  cases h : e.keyframe with
  | none => simp [h]
  | some k => simp [h]

theorem planesOf_snoc (log : List (HubEvent M)) (e : HubEvent M) :
    planesOf (log ++ [e]) = cachePlanes (planesOf log) e := by
  simp [planesOf]

/-- Where a join stands in a log with one more event. -/
private theorem join_snoc {log pre post : List (HubEvent M)} {e : HubEvent M} {id : Nat}
    {order : List (Σ _ : UInt32, PlaneCache M)} (h : log ++ [e] = pre ++ .join id order :: post) :
    (log = pre ∧ e = .join id order ∧ post = []) ∨
    ∃ post', post = post' ++ [e] ∧ log = pre ++ .join id order :: post' := by
  rcases List.eq_nil_or_concat post with rfl | ⟨post', f, rfl⟩
  · obtain ⟨hlog, he⟩ := List.append_inj' h rfl
    cases he
    exact .inl ⟨hlog, rfl, rfl⟩
  · have h : log ++ [e] = (pre ++ .join id order :: post') ++ [f] := by simpa using h
    obtain ⟨hlog, he⟩ := List.append_inj' h rfl
    cases he
    exact .inr ⟨post', by simp, hlog⟩

end HubEvent

namespace Hub

open HubEvent

variable {M : Type}

/-! ### The invariant -/

/-- The clients on the list, the one just joining among them. -/
def roll (h : Hub M) : List Nat :=
  match h.holder with
  | .fanOut _ todo kept => kept ++ todo
  | .prime id _ => h.clients ++ [id]
  | _ => h.clients

/-- What the holder of the lock still has to offer a client. -/
def owed (h : Hub M) (id : Nat) : List (Offer M) :=
  match h.holder with
  | .fanOut o todo _ => if id ∈ todo then [o] else []
  | .prime id' todo => if id = id' then todo else []
  | _ => []

/-- The hub at any moment, in terms of what has taken effect. -/
structure Linear (h : Hub M) : Prop where
  keyframe : h.lastKeyframe = keyframeOf h.log
  planes : h.planes = planesOf h.log
  nodup : h.roll.Nodup
  known : ∀ id ∈ h.roll, id < h.joined
  joins : ∀ pre id order post, h.log = pre ++ .join id order :: post →
    id < h.joined ∧ order.Perm (planesOf pre).entries
  listed : ∀ pre id order post, h.log = pre ++ .join id order :: post → id ∈ h.roll →
    (h.peers id).offered ++ h.owed id = due pre order post
  evicted : ∀ pre id order post, h.log = pre ++ .join id order :: post → id ∉ h.roll →
    (h.peers id).alive = false ∧ (h.peers id).offered <+: due pre order post

variable {h h' : Hub M}

theorem new_linear : (new : Hub M).Linear where
  keyframe := rfl
  planes := rfl
  nodup := List.nodup_nil
  known _ hid := by cases hid
  joins _ _ _ _ hlog := by simp [new] at hlog
  listed _ _ _ _ hlog := by simp [new] at hlog
  evicted _ _ _ _ hlog := by simp [new] at hlog

/-- What the send threads do does not matter. -/
private theorem Linear.threads (hh : h.Linear) {peers : Nat → Client M}
    (hpeers : ∀ id, (peers id).offered = (h.peers id).offered ∧
    ((peers id).alive = true → (h.peers id).alive = true)) :
    Linear { h with peers } where
  keyframe := hh.keyframe
  planes := hh.planes
  nodup := hh.nodup
  known := hh.known
  joins := hh.joins
  listed pre id order post hlog hid := by
    rw [← hh.listed pre id order post hlog hid, ← (hpeers id).1]
    rfl
  evicted pre id order post hlog hid := by
    obtain ⟨hdead, hoff⟩ := hh.evicted pre id order post hlog hid
    refine ⟨?_, ?_⟩
    · by_contra halive
      have := (hpeers id).2 (by simpa using halive)
      rw [hdead] at this
      cases this
    · rw [(hpeers id).1]
      exact hoff

private theorem Linear.thread (hh : h.Linear) (id : Nat) (f : Client M → Client M)
    (hf : (f (h.peers id)).offered = (h.peers id).offered ∧
      ((f (h.peers id)).alive = true → (h.peers id).alive = true)) : (h.updatePeer id f).Linear := by
  refine hh.threads fun id' => ?_
  by_cases hid : id' = id
  · subst hid
    simpa using hf
  · rw [Function.update_of_ne hid]
    exact ⟨rfl, fun halive => halive⟩

/-- A broadcast or a reset takes effect: everyone on the list is owed what it offers. -/
private theorem Linear.effect (hh : h.Linear) {call : HubCall M} (hent : h.holder = .entered call) (e : HubEvent M)
    (hjoin : ∀ id order, e ≠ .join id order) (hlog : h'.log = h.log ++ [e]) (hpeers : h'.peers = h.peers)
    (hjoined : h'.joined = h.joined) (hkey : h'.lastKeyframe = e.keyframe.getD h.lastKeyframe)
    (hplanes : h'.planes = cachePlanes h.planes e) (hroll : h'.roll = h.roll)
    (howed : ∀ id ∈ h.roll, h'.owed id = e.offer.toList) : h'.Linear := by
  have hsplit : ∀ pre id order post, h'.log = pre ++ .join id order :: post →
      ∃ post', post = post' ++ [e] ∧ h.log = pre ++ .join id order :: post' := by
    intro pre id order post hlog'
    rw [hlog] at hlog'
    rcases join_snoc hlog' with ⟨-, he, -⟩ | hmid
    · exact absurd he (hjoin id order)
    · exact hmid
  have hclear : ∀ id, h.owed id = [] := by
    intro id
    simp [owed, hent]
  refine ⟨?_, ?_, ?_, ?_, ?_, ?_, ?_⟩
  · rw [hlog, keyframeOf_snoc, hkey, hh.keyframe]
  · rw [hlog, planesOf_snoc, hplanes, hh.planes]
  · rw [hroll]
    exact hh.nodup
  · rw [hroll, hjoined]
    exact hh.known
  · intro pre id order post hlog'
    obtain ⟨post', -, hmid⟩ := hsplit pre id order post hlog'
    rw [hjoined]
    exact hh.joins pre id order post' hmid
  · intro pre id order post hlog' hid
    obtain ⟨post', rfl, hmid⟩ := hsplit pre id order post hlog'
    rw [hroll] at hid
    have hdue := hh.listed pre id order post' hmid hid
    rw [hclear, List.append_nil] at hdue
    rw [hpeers, howed id hid, due_snoc, hdue]
  · intro pre id order post hlog' hid
    obtain ⟨post', rfl, hmid⟩ := hsplit pre id order post hlog'
    rw [hroll] at hid
    obtain ⟨hdead, hoff⟩ := hh.evicted pre id order post' hmid hid
    rw [hpeers, due_snoc]
    exact ⟨hdead, hoff.trans (List.prefix_append _ _)⟩

/-- The next client of a fan-out is alive and takes the offer. -/
private theorem Linear.visit (hh : h.Linear) {o : Offer M} {id : Nat} {todo kept : List Nat}
    (hfan : h.holder = .fanOut o (id :: todo) kept) :
    Linear { h.updatePeer id (·.offer o) with holder := .fanOut o todo (kept ++ [id]) } := by
  have hroll : h.roll = kept ++ id :: todo := by simp [roll, hfan]
  have hroll' : ({ h.updatePeer id (·.offer o) with holder := .fanOut o todo (kept ++ [id]) } : Hub M).roll =
    h.roll := by
    simp [roll, hfan]
  have hfresh : id ∉ todo := by
    have := hh.nodup
    rw [hroll] at this
    exact (List.nodup_cons.1 (List.nodup_append.1 this).2.1).1
  refine ⟨hh.keyframe, hh.planes, ?_, ?_, hh.joins, ?_, ?_⟩
  · rw [hroll']
    exact hh.nodup
  · rw [hroll']
    exact hh.known
  · intro pre id' order post hlog hid
    rw [hroll'] at hid
    rw [← hh.listed pre id' order post hlog hid]
    by_cases heq : id' = id
    · subst heq
      simp [updatePeer, owed, hfan, hfresh]
    · simp [updatePeer, owed, hfan, heq]
  · intro pre id' order post hlog hid
    rw [hroll'] at hid
    have hne : id' ≠ id := by
      rintro rfl
      exact hid (by simp [hroll])
    obtain ⟨hdead, hoff⟩ := hh.evicted pre id' order post hlog hid
    simp only [updatePeer, Function.update_of_ne hne]
    exact ⟨hdead, hoff⟩

/-- The next client of a fan-out is dead and leaves the list. -/
private theorem Linear.evict (hh : h.Linear) {o : Offer M} {id : Nat} {todo kept : List Nat}
    (hfan : h.holder = .fanOut o (id :: todo) kept) (hdead : (h.peers id).alive = false) :
    Linear { h.updatePeer id .close with holder := .fanOut o todo kept } := by
  have hroll : h.roll = kept ++ id :: todo := by simp [roll, hfan]
  have hsub : (kept ++ todo).Sublist h.roll := by simp [hroll]
  have hfresh : id ∉ kept ++ todo := by
    have := hh.nodup
    rw [hroll, List.nodup_middle] at this
    exact (List.nodup_cons.1 this).1
  refine ⟨hh.keyframe, hh.planes, hh.nodup.sublist hsub, fun id' hid => hh.known id' (hsub.subset hid),
    hh.joins, ?_, ?_⟩
  · intro pre id' order post hlog hid
    have hid : id' ∈ kept ++ todo := hid
    have hne : id' ≠ id := by
      rintro rfl
      exact hfresh hid
    rw [← hh.listed pre id' order post hlog (hsub.subset hid)]
    simp [updatePeer, owed, hfan, hne]
  · intro pre id' order post hlog hid
    have hid : id' ∉ kept ++ todo := hid
    by_cases heq : id' = id
    · subst heq
      have hdue := hh.listed pre id' order post hlog (by simp [hroll])
      simp only [updatePeer, Function.update_self, Client.close]
      exact ⟨hdead, ⟨_, hdue⟩⟩
    · have hout : id' ∉ h.roll := by
        rw [hroll]
        simp only [List.mem_append, List.mem_cons] at hid ⊢
        tauto
      simp only [updatePeer, Function.update_of_ne heq]
      exact hh.evicted pre id' order post hlog hout

/-- The end of a fan-out. -/
private theorem Linear.retained (hh : h.Linear) {o : Offer M} {kept : List Nat}
    (hfan : h.holder = .fanOut o [] kept) :
    Linear { h with clients := kept, holder := .free } := by
  have hroll : h.roll = kept := by simp [roll, hfan]
  refine ⟨hh.keyframe, hh.planes, hroll ▸ hh.nodup, hroll ▸ hh.known, hh.joins, ?_, ?_⟩
  · intro pre id order post hlog hid
    rw [← hh.listed pre id order post hlog (hroll ▸ hid)]
    simp [owed, hfan]
  · intro pre id order post hlog hid
    exact hh.evicted pre id order post hlog (hroll ▸ hid)

/-- A client joins: it is owed what is cached. -/
private theorem Linear.admit (hh : h.Linear) {cap : { n : Nat // 1 ≤ n }} {order : List (Σ _ : UInt32, PlaneCache M)}
    (hent : h.holder = .entered (.register cap order)) (hperm : order.Perm h.planes.entries) :
    Linear { h with
      peers := Function.update h.peers h.joined (.new cap)
      joined := h.joined + 1
      holder := .prime h.joined (priming h.lastKeyframe order)
      log := h.log ++ [.join h.joined order] } := by
  have hroll : h.roll = h.clients := by simp [roll, hent]
  have hnew : h.joined ∉ h.clients := fun hmem => Nat.lt_irrefl _ (hh.known _ (hroll ▸ hmem))
  refine ⟨?_, ?_, ?_, ?_, ?_, ?_, ?_⟩
  · simp only [keyframeOf_snoc]
    exact hh.keyframe
  · simp only [planesOf_snoc]
    exact hh.planes
  · change (h.clients ++ [h.joined]).Nodup
    rw [List.nodup_append_comm]
    exact List.nodup_cons.2 ⟨hnew, hroll ▸ hh.nodup⟩
  · intro id hid
    simp only [roll, List.mem_append, List.mem_singleton] at hid
    rcases hid with hid | rfl
    · exact Nat.lt_succ_of_lt (hh.known id (hroll ▸ hid))
    · exact Nat.lt_succ_self _
  · intro pre id order' post hlog
    rcases join_snoc hlog with ⟨rfl, he, -⟩ | ⟨post', -, hmid⟩
    · cases he
      exact ⟨Nat.lt_succ_self _, hh.planes ▸ hperm⟩
    · obtain ⟨hlt, hord⟩ := hh.joins pre id order' post' hmid
      exact ⟨Nat.lt_succ_of_lt hlt, hord⟩
  · intro pre id order' post hlog hid
    rcases join_snoc hlog with ⟨rfl, he, rfl⟩ | ⟨post', rfl, hmid⟩
    · cases he
      simp [owed, due, Client.new, hh.keyframe]
    · have hne : id ≠ h.joined := Nat.ne_of_lt (hh.joins pre id order' post' hmid).1
      have hid : id ∈ h.roll := by
        simp only [roll, List.mem_append, List.mem_singleton] at hid
        exact hroll ▸ hid.resolve_right hne
      have hdue := hh.listed pre id order' post' hmid hid
      have hclear : h.owed id = [] := by simp [owed, hent]
      rw [hclear] at hdue
      simp only [owed, if_neg hne, Function.update_of_ne hne, due_snoc, hdue]
      simp [offer]
  · intro pre id order' post hlog hid
    rcases join_snoc hlog with ⟨rfl, he, rfl⟩ | ⟨post', rfl, hmid⟩
    · cases he
      exact absurd (by simp [roll]) hid
    · have hne : id ≠ h.joined := Nat.ne_of_lt (hh.joins pre id order' post' hmid).1
      have hout : id ∉ h.roll := by
        simp only [roll, List.mem_append, List.mem_singleton, not_or] at hid
        exact hroll ▸ hid.1
      simp only [Function.update_of_ne hne, due_snoc]
      obtain ⟨hdead, hoff⟩ := hh.evicted pre id order' post' hmid hout
      exact ⟨hdead, hoff.trans (List.prefix_append _ _)⟩

/-- The next message of the priming. -/
private theorem Linear.primed (hh : h.Linear) {o : Offer M} {id : Nat} {todo : List (Offer M)}
    (hprime : h.holder = .prime id (o :: todo)) :
    Linear { h.updatePeer id (·.offer o) with holder := .prime id todo } := by
  have hroll : ({ h.updatePeer id (·.offer o) with holder := .prime id todo } : Hub M).roll = h.roll := by
    simp [roll, hprime, updatePeer]
  refine ⟨hh.keyframe, hh.planes, ?_, ?_, hh.joins, ?_, ?_⟩
  · rw [hroll]
    exact hh.nodup
  · rw [hroll]
    exact hh.known
  · intro pre id' order post hlog hid
    rw [hroll] at hid
    rw [← hh.listed pre id' order post hlog hid]
    by_cases heq : id' = id
    · subst heq
      simp [updatePeer, owed, hprime]
    · simp [updatePeer, owed, hprime, heq]
  · intro pre id' order post hlog hid
    rw [hroll] at hid
    have hne : id' ≠ id := by
      rintro rfl
      exact hid (by simp [roll, hprime])
    simp only [updatePeer, Function.update_of_ne hne]
    exact hh.evicted pre id' order post hlog hid

/-- The primed client goes on the list. -/
private theorem Linear.inserted (hh : h.Linear) {id : Nat} (hprime : h.holder = .prime id []) :
    Linear { h with clients := h.clients ++ [id], holder := .free } := by
  have hroll : h.roll = h.clients ++ [id] := by simp [roll, hprime]
  refine ⟨hh.keyframe, hh.planes, hroll ▸ hh.nodup, hroll ▸ hh.known, hh.joins, ?_, ?_⟩
  · intro pre id' order post hlog hid
    rw [← hh.listed pre id' order post hlog (hroll ▸ hid)]
    simp [owed, hprime]
  · intro pre id' order post hlog hid
    exact hh.evicted pre id' order post hlog (hroll ▸ hid)

private theorem work_linear [DecidableEq M] (hh : h.Linear) (hwork : h.work = some h') : h'.Linear := by
  unfold work at hwork
  cases hholder : h.holder with
  | free =>
    rw [hholder] at hwork
    cases hwork
  | entered call =>
    have hroll : h.roll = h.clients := by simp [roll, hholder]
    rw [hholder] at hwork
    cases call with
    | broadcast msg keyframe =>
      simp only [Option.some_inj] at hwork
      subst hwork
      refine hh.effect hholder (.broadcast msg keyframe) ?_ rfl rfl rfl ?_ rfl ?_ ?_
      · intro id order he
        cases he
      · cases keyframe <;> rfl
      · simp [roll, hholder]
      · intro id hid
        simp [owed, offer, hroll ▸ hid]
    | broadcastControl planeId op msg =>
      simp only [Option.some_inj] at hwork
      subst hwork
      refine hh.effect hholder (.control planeId op msg) ?_ rfl rfl rfl rfl rfl ?_ ?_
      · intro id order he
        cases he
      · simp [roll, hholder]
      · intro id hid
        simp [owed, offer, hroll ▸ hid]
    | register cap order =>
      by_cases hperm : order.Perm h.planes.entries
      · simp only [if_pos hperm, Option.some_inj] at hwork
        subst hwork
        exact hh.admit hholder hperm
      · simp only [if_neg hperm] at hwork
        cases hwork
    | resetKeyframe =>
      simp only [Option.some_inj] at hwork
      subst hwork
      refine hh.effect hholder .resetKeyframe ?_ rfl rfl rfl rfl rfl ?_ ?_
      · intro id order he
        cases he
      · simp [roll, hholder]
      · intro id _
        simp [owed, offer]
    | resetPlanes =>
      simp only [Option.some_inj] at hwork
      subst hwork
      refine hh.effect hholder .resetPlanes ?_ rfl rfl rfl rfl rfl ?_ ?_
      · intro id order he
        cases he
      · simp [roll, hholder]
      · intro id _
        simp [owed, offer]
  | fanOut o todo kept =>
    rw [hholder] at hwork
    cases todo with
    | nil =>
      simp only [Option.some_inj] at hwork
      subst hwork
      exact hh.retained hholder
    | cons id todo =>
      by_cases halive : (h.peers id).alive = true
      · simp only [if_pos halive, Option.some_inj] at hwork
        subst hwork
        exact hh.visit hholder
      · simp only [if_neg halive, Option.some_inj] at hwork
        subst hwork
        exact hh.evict hholder (by simpa using halive)
  | prime id todo =>
    rw [hholder] at hwork
    cases todo with
    | nil =>
      simp only [Option.some_inj] at hwork
      subst hwork
      exact hh.inserted hholder
    | cons o todo =>
      simp only [Option.some_inj] at hwork
      subst hwork
      exact hh.primed hholder

/-- Taking the lock changes nothing yet. -/
private theorem Linear.locked (hh : h.Linear) (hfree : h.holder = .free) (call : HubCall M) :
    Linear { h with holder := .entered call } := by
  have hroll : h.roll = h.clients := by simp [roll, hfree]
  refine ⟨hh.keyframe, hh.planes, hroll ▸ hh.nodup, hroll ▸ hh.known, hh.joins, ?_, ?_⟩
  · intro pre id order post hlog hid
    rw [← hh.listed pre id order post hlog (hroll ▸ hid)]
    simp [owed, hfree]
  · intro pre id order post hlog hid
    exact hh.evicted pre id order post hlog (hroll ▸ hid)

theorem step_linear [DecidableEq M] {a : HubAction M} (hh : h.Linear) (hstep : h.step a = some h') :
    h'.Linear := by
  cases a with
  | lock call =>
    cases hholder : h.holder with
    | free =>
      simp only [step, hholder, Option.some_inj] at hstep
      subst hstep
      exact hh.locked hholder call
    | entered | fanOut | prime => simp [step, hholder] at hstep
  | work => exact work_linear hh hstep
  | spawn id =>
    simp only [step, Option.ite_none_right_eq_some, Option.some_inj] at hstep
    obtain ⟨-, rfl⟩ := hstep
    exact hh.thread id _ ⟨rfl, fun halive => halive⟩
  | deliver id sent =>
    simp only [step, Option.ite_none_right_eq_some, Option.map_eq_some_iff] at hstep
    obtain ⟨-, r, -, rfl⟩ := hstep
    exact hh.thread id _ ⟨rfl, fun halive => halive⟩
  | ended id =>
    simp only [step, Option.ite_none_right_eq_some, Option.some_inj] at hstep
    obtain ⟨-, rfl⟩ := hstep
    exact hh.thread id _ ⟨rfl, fun halive => halive⟩
  | mark id =>
    simp only [step, Option.ite_none_right_eq_some, Option.some_inj] at hstep
    obtain ⟨-, rfl⟩ := hstep
    exact hh.thread id _ ⟨rfl, fun halive => by cases halive⟩
  | finish id =>
    simp only [step, Option.ite_none_right_eq_some, Option.some_inj] at hstep
    obtain ⟨-, rfl⟩ := hstep
    exact hh.thread id _ ⟨rfl, fun halive => halive⟩

/-- Between two calls a live client has been offered everything it is due. -/
theorem Linear.offered (hh : h.Linear) (hfree : h.holder = .free) {pre post : List (HubEvent M)} {id : Nat}
    {order : List (Σ _ : UInt32, PlaneCache M)} (hlog : h.log = pre ++ .join id order :: post)
    (halive : (h.peers id).alive = true) : (h.peers id).offered = due pre order post := by
  have hid : id ∈ h.roll := by
    by_contra hid
    rw [(hh.evicted pre id order post hlog hid).1] at halive
    cases halive
  have hdue := hh.listed pre id order post hlog hid
  rwa [show h.owed id = [] by simp [owed, hfree], List.append_nil] at hdue

theorem run_linear [DecidableEq M] {as : List (HubAction M)} (hrun : Lts.run step new as = some h) : h.Linear :=
  Lts.Reachable.invariant (P := Linear) (fun _ _ _ hh hstep => step_linear hh hstep) ⟨as, hrun⟩ new_linear

/-- A client has been offered the keyframe and the planes cached when it joined, then every later broadcast in order;
the offers of a client that has died stop somewhere on the way. -/
theorem join_atomic [DecidableEq M] (as : List (HubAction M)) (h : Hub M) (hrun : Lts.run step new as = some h)
    (pre : List (HubEvent M)) (id : Nat) (order : List (Σ _ : UInt32, PlaneCache M)) (post : List (HubEvent M))
    (hlog : h.log = pre ++ .join id order :: post) :
    order.Perm (planesOf pre).entries ∧ (h.peers id).offered <+: due pre order post ∧
    (h.holder = .free → (h.peers id).alive = true → (h.peers id).offered = due pre order post) := by
  have hh := run_linear hrun
  refine ⟨(hh.joins pre id order post hlog).2, ?_, fun hfree halive => hh.offered hfree hlog halive⟩
  by_cases hid : id ∈ h.roll
  · exact ⟨_, hh.listed pre id order post hlog hid⟩
  · exact (hh.evicted pre id order post hlog hid).2

/-- A keyframe and a cursor shape, a join, and a frame. -/
def primedRun : List (HubAction Nat) :=
  [.lock (.broadcast 1 true), .work, .work, .lock (.broadcastControl 0 Plane.opDefine 5), .work, .work,
    .lock (.register (maxClientQueue none) [⟨0, ⟨some 5, none⟩⟩]), .work, .work, .work, .work,
    .lock (.broadcast 2 false), .work, .work, .work]

theorem join_atomic_primed : (Lts.run step new primedRun).map (fun h => (h.peers 0).offered) =
    some [.video 1 true, .control 5, .video 2 false] := by
  have hrun : Lts.run step new primedRun = some ((Lts.run step new primedRun).get rfl) := (Option.some_get _).symm
  have hjoin := join_atomic primedRun _ hrun [.broadcast 1 true, .control 0 Plane.opDefine 5] 0
    [⟨0, ⟨some 5, none⟩⟩] [.broadcast 2 false] rfl
  rw [hrun, Option.map_some, hjoin.2.2 rfl rfl]
  rfl

end Hub

end Infinigpu
