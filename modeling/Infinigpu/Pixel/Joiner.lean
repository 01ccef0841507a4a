import Infinigpu.Pixel.Viewer

/-!
# The cursor of a late joiner

A viewer folds every cursor message; the hub remembers one shape and one move for those that join later.  Priming
amounts to a fold as well (`primed_drawn`): it differs where the plane is destroyed, which the hub takes for the end
of the shape and the viewer for hiding it, and where a shape comes that the viewer ignores. `Hub.joiner_draws_iff`
says when the two cursors agree.
-/

namespace Infinigpu

namespace Proto
/-- The magic of a video frame. -/
def magic : UInt32 := 0x49504958
end Proto

/-! ### The cursor messages -/

/-- What a cursor message means to a viewer. -/
inductive CursorMsg where
  | shape (s : CursorShape) (visible : Bool)
  /-- A shape without area or with too short a body. -/
  | badShape
  | move (visible : Bool)
  | destroy
  deriving DecidableEq

namespace CursorMsg

def visible : CursorMsg → Bool
  | shape _ v => v
  | move v => v
  | _ => false

def isShape : CursorMsg → Bool
  | shape _ _ => true
  | _ => false

def isMove : CursorMsg → Bool
  | move _ => true
  | _ => false

def ofPlane (ph : PlaneHeader) (body : List UInt8) : Option CursorMsg :=
  let vis := ph.flags &&& Plane.visible != 0
  if ph.op = Plane.opDefine then
    let need := ph.width.toNat * ph.height.toNat * 4
    if ph.width > 0 ∧ ph.height > 0 ∧ need ≤ body.length then
      some (.shape
        { bgra := body.take need
          w := ph.width
          h := ph.height
          hotX := ph.hotX
          hotY := ph.hotY
          premultiplied := ph.flags &&& Plane.premultiplied != 0 } vis)
    else
      some .badShape
  else if ph.op = Plane.opMove then
    some (.move vis)
  else if ph.op = Plane.opDestroy then
    some .destroy
  else
    none

def ofBytes (data : List UInt8) : Option CursorMsg :=
  if 4 ≤ data.length ∧ u32At data 0 = Plane.magic then
    (PlaneHeader.parse data).bind fun ph =>
      if ph.planeKind = Plane.kindCursor then ofPlane ph (data.drop Plane.headerLen) else none
  else
    none

private theorem ofBytes_message {ph : PlaneHeader} (body : List UInt8) (hkind : ph.planeKind = Plane.kindCursor) :
    ofBytes (ph.message body) = ofPlane ph body := by
  have hlen : 4 ≤ (ph.message body).length := by
    rw [PlaneHeader.message, List.length_append, PlaneHeader.toBytes_length, Plane.headerLen]
    omega
  rw [ofBytes, if_pos ⟨hlen, PlaneHeader.u32At_message ph body⟩, PlaneHeader.parse_message, Option.bind_some,
    if_pos hkind, PlaneHeader.drop_message]

end CursorMsg

namespace CursorSlot

def draw (slot : CursorSlot) : CursorMsg → CursorSlot
  | .shape s visible => slot.define s visible
  | .badShape => slot
  | .move visible => slot.setVisible visible
  | .destroy => slot.setVisible false

private theorem onPlane_eq (slot : CursorSlot) (ph : PlaneHeader) (body : List UInt8) :
    slot.onPlane ph body = (CursorMsg.ofPlane ph body).elim slot slot.draw := by
  unfold onPlane CursorMsg.ofPlane
  by_cases hdef : ph.op = Plane.opDefine
  · by_cases hok : ph.width > 0 ∧ ph.height > 0 ∧ ph.width.toNat * ph.height.toNat * 4 ≤ body.length
    · simp [hdef, hok, draw]
    · simp [hdef, hok, draw]
  · by_cases hmove : ph.op = Plane.opMove
    · simp [hmove, draw, Plane.opMove, Plane.opDefine]
    · by_cases hdestroy : ph.op = Plane.opDestroy
      · simp [hdestroy, draw, Plane.opDestroy, Plane.opMove, Plane.opDefine]
      · simp [hdef, hmove, hdestroy]

private theorem receive_eq (slot : CursorSlot) (data : List UInt8) :
    slot.receive data = (CursorMsg.ofBytes data).elim slot slot.draw := by
  unfold receive CursorMsg.ofBytes
  by_cases hmagic : 4 ≤ data.length ∧ u32At data 0 = Plane.magic
  · cases hparse : PlaneHeader.parse data with
    | none => simp [hmagic]
    | some ph =>
      by_cases hkind : ph.planeKind = Plane.kindCursor
      · simp [hmagic, hkind, onPlane_eq]
      · simp [hmagic, hkind]
  · simp [hmagic]

/-- Shape and visibility. -/
def drawn (slot : CursorSlot) : Option CursorShape × Bool := (slot.shape, slot.visible)

end CursorSlot

/-! ### Two folds over the cursor messages -/

namespace CursorMsg

/-- A viewer that sees the message. -/
def drawStep (d : Option CursorShape × Bool) : CursorMsg → Option CursorShape × Bool
  | .shape s visible => (some s, visible)
  | .badShape => d
  | .move visible => (d.1, visible)
  | .destroy => (d.1, false)

/-- A viewer that joins after the message, against one that joins before it. -/
def primeStep (d : Option CursorShape × Bool) : CursorMsg → Option CursorShape × Bool
  | .shape s visible => (some s, visible)
  | .badShape => (none, false)
  | .move visible => (d.1, visible)
  | .destroy => (none, false)

private theorem drawn_draw (slot : CursorSlot) (m : CursorMsg) : (slot.draw m).drawn = drawStep slot.drawn m := by
  cases m <;> rfl

private theorem drawn_foldl (slot : CursorSlot) (ms : List CursorMsg) :
    (ms.foldl CursorSlot.draw slot).drawn = ms.foldl drawStep slot.drawn := by
  induction ms generalizing slot with
  | nil => rfl
  | cons m ms ih => rw [List.foldl_cons, List.foldl_cons, ih, drawn_draw]

def blank : Option CursorShape × Bool := (none, false)

variable {ms : List CursorMsg} {d d' : Option CursorShape × Bool}

/-- The next shape settles the shape. -/
private theorem draw_shape_iff : (ms.foldl drawStep d).1 = (ms.foldl drawStep d').1 ↔
    d.1 = d'.1 ∨ ∃ m ∈ ms, m.isShape = true := by
  induction ms generalizing d d' with
  | nil => simp
  | cons m ms ih =>
    rw [List.foldl_cons, List.foldl_cons, ih]
    cases m with
    | shape s v => simp [drawStep, isShape]
    | badShape => simp [drawStep, isShape]
    | move v => simp [drawStep, isShape]
    | destroy => simp [drawStep, isShape]

/-- The next message that is not ignored settles the visibility. -/
private theorem draw_visible_iff : (ms.foldl drawStep d).2 = (ms.foldl drawStep d').2 ↔
    d.2 = d'.2 ∨ ∃ m ∈ ms, m ≠ .badShape := by
  induction ms generalizing d d' with
  | nil => simp
  | cons m ms ih =>
    rw [List.foldl_cons, List.foldl_cons, ih]
    cases m with
    | shape s v => simp [drawStep]
    | badShape => simp [drawStep]
    | move v => simp [drawStep]
    | destroy => simp [drawStep]

private theorem drawn_shape_none : (ms.foldl drawStep blank).1 = none ↔ ∀ m ∈ ms, m.isShape = false := by
  induction ms using List.reverseRecOn with
  | nil => simp [blank]
  | append_singleton ms m ih =>
    rw [List.foldl_append, List.foldl_cons, List.foldl_nil]
    cases m with
    | shape s v => simp [drawStep, isShape]
    | badShape => simpa [drawStep, isShape, or_imp, forall_and] using ih
    | move v => simpa [drawStep, isShape, or_imp, forall_and] using ih
    | destroy => simpa [drawStep, isShape, or_imp, forall_and] using ih

/-- No shape has been shown, or the last one was followed by moves only. -/
def ShapeCurrent (ms : List CursorMsg) : Prop :=
  (∀ m ∈ ms, m.isShape = false) ∨
    ∃ before s visible after, ms = before ++ .shape s visible :: after ∧ ∀ m ∈ after, m.isMove = true

private theorem shape_iff : (ms.foldl drawStep blank).1 = (ms.foldl primeStep blank).1 ↔ ShapeCurrent ms := by
  induction ms using List.reverseRecOn with
  | nil => simp [ShapeCurrent]
  | append_singleton ms m ih =>
    rw [List.foldl_append, List.foldl_append, List.foldl_cons, List.foldl_nil, List.foldl_cons, List.foldl_nil]
    have hlost : m = .badShape ∨ m = .destroy →
        ((ms.foldl drawStep blank).1 = none ↔ ShapeCurrent (ms ++ [m])) := by
      intro hm
      rw [drawn_shape_none]
      constructor
      · intro hnone
        left
        intro m' hm'
        rcases List.mem_append.1 hm' with hm' | hm'
        · exact hnone m' hm'
        · rw [List.mem_singleton.1 hm']
          rcases hm with rfl | rfl <;> rfl
      · rintro (hnone | ⟨before, s, v, after, heq, hmoves⟩) m' hm'
        · exact hnone m' (List.mem_append_left _ hm')
        · rcases List.eq_nil_or_concat after with rfl | ⟨after, l, rfl⟩
          · have hlast := (List.append_inj' heq rfl).2
            rcases hm with rfl | rfl <;> cases hlast
          · have heq : ms ++ [m] = (before ++ .shape s v :: after) ++ [l] := by simpa using heq
            have hlast := (List.append_inj' heq rfl).2
            have hl := hmoves l (by simp)
            cases hlast
            rcases hm with rfl | rfl <;> cases hl
    cases m with
    | shape s v =>
      simp only [drawStep, primeStep, true_iff]
      exact .inr ⟨ms, s, v, [], rfl, by simp⟩
    | badShape => exact hlost (.inl rfl)
    | destroy => exact hlost (.inr rfl)
    | move v =>
      simp only [drawStep, primeStep]
      rw [ih]
      constructor
      · rintro (hnone | ⟨before, s, w, after, rfl, hmoves⟩)
        · left
          intro m hm
          rcases List.mem_append.1 hm with hm | hm
          · exact hnone m hm
          · rw [List.mem_singleton.1 hm]
            rfl
        · right
          refine ⟨before, s, w, after ++ [.move v], by simp, fun m hm => ?_⟩
          rcases List.mem_append.1 hm with hm | hm
          · exact hmoves m hm
          · rw [List.mem_singleton.1 hm]
            rfl
      · rintro (hnone | ⟨before, s, w, after, heq, hmoves⟩)
        · exact .inl fun m hm => hnone m (List.mem_append_left _ hm)
        · rcases List.eq_nil_or_concat after with rfl | ⟨after, l, rfl⟩
          · cases (List.append_inj' heq rfl).2
          · have heq : ms ++ [.move v] = (before ++ .shape s w :: after) ++ [l] := by simpa using heq
            exact .inr ⟨before, s, w, after, (List.append_inj' heq rfl).1,
              fun m hm => hmoves m (by simp [hm])⟩

/-- Whether the cursor shows after the messages: the last one that is not ignored decides. -/
def lastVisible (ms : List CursorMsg) : Bool :=
  ((ms.filter (· ≠ .badShape)).getLast?.map visible).getD false

private theorem drawn_visible : (ms.foldl drawStep blank).2 = lastVisible ms := by
  induction ms using List.reverseRecOn with
  | nil => rfl
  | append_singleton ms m ih =>
    rw [List.foldl_append, List.foldl_cons, List.foldl_nil]
    cases m with
    | shape s v => simp [drawStep, lastVisible, visible]
    | badShape => simpa [drawStep, lastVisible] using ih
    | move v => simp [drawStep, lastVisible, visible]
    | destroy => simp [drawStep, lastVisible, visible]

/-- The last message is not one that the viewer ignores, or nothing is to be seen anyway. -/
def VisibleCurrent (ms : List CursorMsg) : Prop := ms.getLast? ≠ some .badShape ∨ lastVisible ms = false

private theorem visible_iff : (ms.foldl drawStep blank).2 = (ms.foldl primeStep blank).2 ↔ VisibleCurrent ms := by
  rw [drawn_visible]
  induction ms using List.reverseRecOn with
  | nil => simp [VisibleCurrent, lastVisible, blank]
  | append_singleton ms m ih =>
    rw [List.foldl_append, List.foldl_cons, List.foldl_nil]
    cases m with
    | shape s v => simp [primeStep, lastVisible, VisibleCurrent, visible]
    | badShape => simp [primeStep, VisibleCurrent]
    | move v => simp [primeStep, lastVisible, VisibleCurrent, visible]
    | destroy => simp [primeStep, lastVisible, VisibleCurrent, visible]

end CursorMsg

/-! ### What the hub remembers -/

section Priming

open CursorMsg

/-- An event of a hub that sends video frames and messages of the cursor plane. -/
def CursorEvent : HubEvent (List UInt8) → Prop
  | .broadcast msg _ => u32At msg 0 = Proto.magic
  | .control planeId op msg => ∃ ph body, msg = PlaneHeader.message ph body ∧ planeId = ph.planeId ∧ op = ph.op ∧
      ph.planeKind = Plane.kindCursor ∧ ph.planeId = 0 ∧
      (ph.op = Plane.opDefine ∨ ph.op = Plane.opMove ∨ ph.op = Plane.opDestroy)
  | .join _ _ => True
  | .resetKeyframe => True
  | .resetPlanes => False

def cursorMsg : HubEvent (List UInt8) → Option CursorMsg
  | .control _ _ msg => CursorMsg.ofBytes msg
  | _ => none

/-- The cursor messages of a log. -/
def cursorMsgs (log : List (HubEvent (List UInt8))) : List CursorMsg := log.filterMap cursorMsg

def Offer.msg : Offer (List UInt8) → List UInt8
  | .video msg _ => msg
  | .control msg => msg

/-- The cursor of a viewer that has processed everything it was offered. -/
def viewed (offers : List (Offer (List UInt8))) : CursorSlot :=
  offers.foldl (fun slot o => slot.receive o.msg) .default

/-- A video frame leaves the cursor alone. -/
private theorem receive_video (slot : CursorSlot) {msg : List UInt8} (h : u32At msg 0 = Proto.magic) :
    slot.receive msg = slot := by
  have hne : ¬ (4 ≤ msg.length ∧ u32At msg 0 = Plane.magic) := by
    rw [h]
    rintro ⟨-, hmagic⟩
    revert hmagic
    decide
  rw [CursorSlot.receive, if_neg hne]

/-- A viewer follows the events it is offered. -/
private theorem receive_offers {log : List (HubEvent (List UInt8))} (hlog : ∀ e ∈ log, CursorEvent e)
    (slot : CursorSlot) :
    (log.filterMap HubEvent.offer).foldl (fun slot o => slot.receive o.msg) slot =
      (cursorMsgs log).foldl CursorSlot.draw slot := by
  induction log generalizing slot with
  | nil => rfl
  | cons e log ih =>
    have he := hlog e (List.mem_cons_self ..)
    have hrest := ih fun e' he' => hlog e' (List.mem_cons_of_mem _ he')
    cases e with
    | broadcast msg keyframe =>
      change (log.filterMap HubEvent.offer).foldl _ (slot.receive msg) = _
      rw [receive_video slot he, hrest]
      rfl
    | control planeId op msg =>
      change (log.filterMap HubEvent.offer).foldl _ (slot.receive msg) = _
      rw [hrest, CursorSlot.receive_eq]
      cases hm : CursorMsg.ofBytes msg with
      | none => simp [cursorMsgs, cursorMsg, hm]
      | some m => simp [cursorMsgs, cursorMsg, hm]
    | join id order => exact hrest slot
    | resetKeyframe => exact hrest slot
    | resetPlanes => exact absurd he id

/-- The planes of a hub with at most the cursor plane. -/
def cursorPlanes (c : Option (PlaneCache (List UInt8))) : Planes (List UInt8) :=
  c.elim ∅ fun c => (∅ : Planes (List UInt8)).insert 0 c

/-- What priming with the cached messages draws. -/
def recalled (c : Option (PlaneCache (List UInt8))) : CursorSlot :=
  (c.elim [] PlaneCache.messages).foldl CursorSlot.receive .default

/-- The cached messages are what they are taken for. -/
structure Kept (c : Option (PlaneCache (List UInt8))) : Prop where
  define : ∀ c' ∈ c, ∀ msg ∈ c'.lastDefine, ∃ m, CursorMsg.ofBytes msg = some m ∧ (m = .badShape ∨ m.isShape = true)
  move : ∀ c' ∈ c, ∀ msg ∈ c'.lastMove, ∃ v, CursorMsg.ofBytes msg = some (.move v)

private theorem kept_none : Kept none := ⟨fun c' hc => by simp at hc, fun c' hc => by simp at hc⟩

@[simp] theorem cursorPlanes_entry (c : Option (PlaneCache (List UInt8))) :
    (cursorPlanes c).entry 0 = c.getD ⟨none, none⟩ := by
  cases c with
  | none => rfl
  | some c => rw [cursorPlanes, Option.elim_some, Planes.entry, AList.lookup_insert]

@[simp] theorem cursorPlanes_insert (c : Option (PlaneCache (List UInt8))) (c' : PlaneCache (List UInt8)) :
    (cursorPlanes c).insert 0 c' = cursorPlanes (some c') := by
  cases c with
  | none => rfl
  | some c => simp [cursorPlanes]

@[simp] theorem cursorPlanes_erase (c : Option (PlaneCache (List UInt8))) :
    (cursorPlanes c).erase 0 = cursorPlanes none := by
  cases c with
  | none => rfl
  | some c => rfl

private theorem ofBytes_define {ph : PlaneHeader} (body : List UInt8) (hkind : ph.planeKind = Plane.kindCursor)
    (hop : ph.op = Plane.opDefine) :
    ∃ m, ofBytes (ph.message body) = some m ∧ (m = .badShape ∨ m.isShape = true) := by
  rw [ofBytes_message body hkind, ofPlane]
  by_cases hok : ph.width > 0 ∧ ph.height > 0 ∧ ph.width.toNat * ph.height.toNat * 4 ≤ body.length
  · simp [hop, hok, isShape]
  · simp [hop, hok]

private theorem ofBytes_move {ph : PlaneHeader} (body : List UInt8) (hkind : ph.planeKind = Plane.kindCursor)
    (hop : ph.op = Plane.opMove) : ∃ v, ofBytes (ph.message body) = some (.move v) := by
  rw [ofBytes_message body hkind, ofPlane]
  simp [hop, Plane.opMove, Plane.opDefine]

private theorem ofBytes_destroy {ph : PlaneHeader} (body : List UInt8) (hkind : ph.planeKind = Plane.kindCursor)
    (hop : ph.op = Plane.opDestroy) : ofBytes (ph.message body) = some .destroy := by
  rw [ofBytes_message body hkind, ofPlane]
  simp [hop, Plane.opMove, Plane.opDefine, Plane.opDestroy]

/-- The old move does not change the shape that is recalled. -/
private theorem recall_shape {c : Option (PlaneCache (List UInt8))} (hc : Kept c) :
    (recalled c).drawn.1 = (((c.bind PlaneCache.lastDefine).toList).foldl CursorSlot.receive .default).drawn.1 := by
  cases c with
  | none => rfl
  | some c =>
    obtain ⟨lastDefine, lastMove⟩ := c
    cases lastMove with
    | none => simp [recalled, PlaneCache.messages]
    | some msg =>
      obtain ⟨v, hv⟩ := hc.move ⟨lastDefine, some msg⟩ rfl msg rfl
      simp only [recalled, PlaneCache.messages, Option.elim_some, Option.toList_some, Option.bind_some,
        List.foldl_append, List.foldl_cons, List.foldl_nil]
      rw [CursorSlot.receive_eq, hv]
      rfl

/-- One more cursor message: the cache follows `primeStep`. -/
private theorem recall_cache {c : Option (PlaneCache (List UInt8))} (hc : Kept c) {planeId : UInt32} {op : UInt8}
    {msg : List UInt8} (he : CursorEvent (.control planeId op msg)) :
    ∃ c' m, (cursorPlanes c).cache planeId op msg = cursorPlanes c' ∧ Kept c' ∧ ofBytes msg = some m ∧
      (recalled c').drawn = primeStep (recalled c).drawn m := by
  obtain ⟨ph, body, rfl, rfl, rfl, hkind, hid, hop⟩ := he
  rw [hid]
  rcases hop with hop | hop | hop
  · obtain ⟨m, hm, hform⟩ := ofBytes_define body hkind hop
    refine ⟨some ⟨some (ph.message body), none⟩, m, ?_, ⟨?_, ?_⟩, hm, ?_⟩
    · simp [Planes.cache, hop]
    · rintro c' ⟨⟩ msg ⟨⟩
      exact ⟨m, hm, hform⟩
    · rintro c' ⟨⟩ msg hmsg
      cases hmsg
    · simp only [recalled, PlaneCache.messages, Option.elim_some, Option.toList_some, Option.toList_none,
        List.append_nil, List.foldl_cons, List.foldl_nil]
      rw [CursorSlot.receive_eq, hm]
      cases m with
      | shape s v => rfl
      | badShape => rfl
      | move v => simp [isShape] at hform
      | destroy => simp [isShape] at hform
  · obtain ⟨v, hv⟩ := ofBytes_move body hkind hop
    refine ⟨some { c.getD ⟨none, none⟩ with lastMove := some (ph.message body) }, .move v, ?_, ⟨?_, ?_⟩, hv, ?_⟩
    · simp [Planes.cache, hop, Plane.opMove, Plane.opDefine]
    · rintro c' ⟨⟩ msg hmsg
      cases c with
      | none => cases hmsg
      | some c => exact hc.define c rfl msg hmsg
    · rintro c' ⟨⟩ msg ⟨⟩
      exact ⟨v, hv⟩
    · rw [primeStep, recall_shape hc]
      cases c with
      | none =>
        simp only [recalled, PlaneCache.messages, Option.elim_some, Option.getD_none, Option.toList_some,
          List.foldl_append, List.foldl_cons, List.foldl_nil]
        rw [CursorSlot.receive_eq, hv]
        rfl
      | some c =>
        simp only [recalled, PlaneCache.messages, Option.elim_some, Option.getD_some, Option.toList_some,
          List.foldl_append, List.foldl_cons, List.foldl_nil]
        rw [CursorSlot.receive_eq, hv]
        rfl
  · refine ⟨none, .destroy, ?_, kept_none, ofBytes_destroy body hkind hop, rfl⟩
    simp [Planes.cache, hop, Plane.opMove, Plane.opDefine, Plane.opDestroy]

/-- What a log of cursor messages leaves in the cache, and what it draws. -/
private theorem recall_log {log : List (HubEvent (List UInt8))} (hlog : ∀ e ∈ log, CursorEvent e) :
    ∃ c, HubEvent.planesOf log = cursorPlanes c ∧ Kept c ∧
      (recalled c).drawn = (cursorMsgs log).foldl primeStep blank := by
  induction log using List.reverseRecOn with
  | nil => exact ⟨none, rfl, kept_none, rfl⟩
  | append_singleton log e ih =>
    obtain ⟨c, hplanes, hc, hdrawn⟩ := ih fun e' he' => hlog e' (List.mem_append_left _ he')
    have he := hlog e (by simp)
    rw [HubEvent.planesOf_snoc, hplanes]
    have hsame : cursorMsg e = none → HubEvent.cachePlanes (cursorPlanes c) e = cursorPlanes c →
        ∃ c', HubEvent.cachePlanes (cursorPlanes c) e = cursorPlanes c' ∧ Kept c' ∧
          (recalled c').drawn = (cursorMsgs (log ++ [e])).foldl primeStep blank := by
      intro hmsg hcache
      refine ⟨c, hcache, hc, ?_⟩
      simp only [cursorMsgs, List.filterMap_append, List.filterMap_cons, hmsg, List.filterMap_nil, List.append_nil]
      exact hdrawn
    cases e with
    | broadcast | join | resetKeyframe => exact hsame rfl rfl
    | resetPlanes => exact absurd he id
    | control planeId op msg =>
      obtain ⟨c', m, hcache, hc', hm, hstep⟩ := recall_cache hc he
      refine ⟨c', hcache, hc', ?_⟩
      rw [hstep, hdrawn]
      simp [cursorMsgs, cursorMsg, hm]

/-- What a client that joins after `pre` is primed with draws the fold of `primeStep`. -/
theorem primed_drawn {pre : List (HubEvent (List UInt8))} (hpre : ∀ e ∈ pre, CursorEvent e)
    {order : List (Σ _ : UInt32, PlaneCache (List UInt8))} (horder : order.Perm (HubEvent.planesOf pre).entries) :
    (viewed (Hub.priming (HubEvent.keyframeOf pre) order)).drawn = (cursorMsgs pre).foldl primeStep blank := by
  obtain ⟨c, hplanes, hc, hdrawn⟩ := recall_log hpre
  have hkey : ∀ k, HubEvent.keyframeOf pre = some k → u32At k 0 = Proto.magic := by
    intro k hk
    simp only [HubEvent.keyframeOf, Option.join_eq_some_iff] at hk
    obtain ⟨e, he, hek⟩ := List.mem_filterMap.1 (List.mem_of_getLast? hk)
    cases e with
    | broadcast msg keyframe =>
      cases keyframe with
      | true =>
        cases hek
        exact hpre _ he
      | false => cases hek
    | control | join | resetKeyframe | resetPlanes => cases hek
  have hmsgs : order.flatMap (fun e => e.2.messages.map Offer.control) =
      (c.elim [] PlaneCache.messages).map Offer.control := by
    rw [hplanes] at horder
    cases c with
    | none =>
      rw [show order = [] from horder.eq_nil]
      rfl
    | some c =>
      rw [show order = [⟨0, c⟩] from List.perm_singleton.1 horder]
      simp
  have hfold : viewed (Hub.priming (HubEvent.keyframeOf pre) order) = recalled c := by
    unfold viewed Hub.priming recalled
    rw [hmsgs, List.foldl_append]
    cases hk : HubEvent.keyframeOf pre with
    | none => simp [List.foldl_map, Offer.msg]
    | some k => simp [List.foldl_map, Offer.msg, receive_video _ (hkey k hk)]
  rw [hfold, hdrawn]

end Priming

namespace Hub

open CursorMsg

/-- A viewer of the whole stream. -/
private theorem viewed_first {log : List (HubEvent (List UInt8))} (hlog : ∀ e ∈ log, CursorEvent e) :
    (viewed (HubEvent.due [] [] log)).drawn = (cursorMsgs log).foldl drawStep blank := by
  unfold viewed HubEvent.due
  rw [show priming (HubEvent.keyframeOf []) [] = ([] : List (Offer (List UInt8))) from rfl, List.nil_append,
    receive_offers hlog, drawn_foldl]
  rfl

/-- A viewer that joins after `pre`. -/
private theorem viewed_joiner {pre post : List (HubEvent (List UInt8))} (hpre : ∀ e ∈ pre, CursorEvent e)
    (hpost : ∀ e ∈ post, CursorEvent e) {order : List (Σ _ : UInt32, PlaneCache (List UInt8))}
    (horder : order.Perm (HubEvent.planesOf pre).entries) :
    (viewed (HubEvent.due pre order post)).drawn =
      (cursorMsgs post).foldl drawStep ((cursorMsgs pre).foldl primeStep blank) := by
  rw [← primed_drawn hpre horder, ← drawn_foldl, ← receive_offers hpost]
  unfold viewed HubEvent.due
  rw [List.foldl_append]

/-- A client that joins late draws the same cursor as one that was there from the beginning exactly when

* a shape comes after the join, or none came before it, or the last one before it was followed by moves only, and
* a message that a viewer heeds comes after the join, or the last one before it was heeded, or no cursor was to be
  seen.
-/
theorem joiner_draws_iff (as : List (HubAction (List UInt8))) (h : Hub (List UInt8))
    (hrun : Lts.run step new as = some h) (hfree : h.holder = .free)
    (first id : Nat) (order₀ order : List (Σ _ : UInt32, PlaneCache (List UInt8)))
    (pre post : List (HubEvent (List UInt8)))
    (hlog : h.log = .join first order₀ :: (pre ++ .join id order :: post))
    (hevents : ∀ e ∈ pre ++ post, CursorEvent e)
    (hfirst : (h.peers first).alive = true) (hid : (h.peers id).alive = true) :
    (viewed (h.peers id).offered).drawn = (viewed (h.peers first).offered).drawn ↔
    ((∃ m ∈ cursorMsgs post, m.isShape = true) ∨ ShapeCurrent (cursorMsgs pre)) ∧
    ((∃ m ∈ cursorMsgs post, m ≠ .badShape) ∨ VisibleCurrent (cursorMsgs pre)) := by
  have hh := run_linear hrun
  have hpre : ∀ e ∈ pre, CursorEvent e := fun e he => hevents e (List.mem_append_left _ he)
  have hpost : ∀ e ∈ post, CursorEvent e := fun e he => hevents e (List.mem_append_right _ he)
  have hrest : ∀ e ∈ pre ++ .join id order :: post, CursorEvent e := by
    intro e he
    rcases List.mem_append.1 he with he | he
    · exact hpre e he
    · rcases List.mem_cons.1 he with rfl | he
      · exact trivial
      · exact hpost e he
  have hnil : order₀ = [] := (hh.joins [] first order₀ _ hlog).2.eq_nil
  subst hnil
  have hsplit : h.log = (.join first [] :: pre) ++ .join id order :: post := by rw [hlog, List.cons_append]
  have hmsgs₀ : cursorMsgs (.join first [] :: pre) = cursorMsgs pre := rfl
  have hmsgs : cursorMsgs (pre ++ .join id order :: post) = cursorMsgs pre ++ cursorMsgs post := by
    rw [cursorMsgs, List.filterMap_append]
    rfl
  have hpre₀ : ∀ e ∈ HubEvent.join first [] :: pre, CursorEvent e := by
    intro e he
    rcases List.mem_cons.1 he with rfl | he
    · exact trivial
    · exact hpre e he
  have hstart : h.log = [] ++ .join first [] :: (pre ++ .join id order :: post) := hlog
  rw [hh.offered hfree hstart hfirst, hh.offered hfree hsplit hid, viewed_first hrest,
    viewed_joiner hpre₀ hpost (hh.joins _ id order post hsplit).2, hmsgs₀, hmsgs, List.foldl_append,
    eq_comm, Prod.ext_iff, draw_shape_iff, draw_visible_iff, shape_iff, visible_iff]
  exact and_congr or_comm or_comm

def cursorHeader (op flags : UInt8) (width height : UInt16) : PlaneHeader :=
  ⟨op, Plane.kindCursor, flags, 0, 1, 0, width, height, 0, 0, 0, 0, 0⟩

def defineMsg : List UInt8 := (cursorHeader Plane.opDefine Plane.visible 1 1).message [1, 2, 3, 255]
def destroyMsg : List UInt8 := (cursorHeader Plane.opDestroy 0 0 0).message []

/-- One client from the beginning, a shape, and a second client. -/
def lateRun : List (HubAction (List UInt8)) :=
  [.lock (.register (maxClientQueue none) []), .work, .work,
    .lock (.broadcastControl 0 Plane.opDefine defineMsg), .work, .work, .work,
    .lock (.register (maxClientQueue none) [⟨0, ⟨some defineMsg, none⟩⟩]), .work, .work, .work]

/-- The same with the plane destroyed before the second client joins. -/
def destroyedRun : List (HubAction (List UInt8)) :=
  [.lock (.register (maxClientQueue none) []), .work, .work,
    .lock (.broadcastControl 0 Plane.opDefine defineMsg), .work, .work, .work,
    .lock (.broadcastControl 0 Plane.opDestroy destroyMsg), .work, .work, .work,
    .lock (.register (maxClientQueue none) []), .work, .work]

private theorem define_event : CursorEvent (.control 0 Plane.opDefine defineMsg) :=
  ⟨cursorHeader Plane.opDefine Plane.visible 1 1, [1, 2, 3, 255], rfl, rfl, rfl, rfl, rfl, .inl rfl⟩

private theorem destroy_event : CursorEvent (.control 0 Plane.opDestroy destroyMsg) :=
  ⟨cursorHeader Plane.opDestroy 0 0 0, [], rfl, rfl, rfl, rfl, rfl, .inr (.inr rfl)⟩

/-- The first client keeps the shape of a destroyed plane, the second never sees it. -/
theorem destroyed_shape : ¬ ∀ (as : List (HubAction (List UInt8))) (h : Hub (List UInt8)),
    Lts.run step new as = some h → h.holder = .free →
    ∀ (first id : Nat) (order₀ order : List (Σ _ : UInt32, PlaneCache (List UInt8)))
      (pre post : List (HubEvent (List UInt8))),
      h.log = .join first order₀ :: (pre ++ .join id order :: post) → (∀ e ∈ pre ++ post, CursorEvent e) →
      (h.peers first).alive = true → (h.peers id).alive = true →
      (viewed (h.peers id).offered).drawn = (viewed (h.peers first).offered).drawn := by
  intro hall
  have hrun : Lts.run step new destroyedRun = some ((Lts.run step new destroyedRun).get rfl) :=
    (Option.some_get _).symm
  have hsame := hall destroyedRun _ hrun rfl 0 1 [] []
    [.control 0 Plane.opDefine defineMsg, .control 0 Plane.opDestroy destroyMsg] [] rfl ?_ rfl rfl
  · revert hsame
    decide
  · intro e he
    simp only [List.append_nil, List.mem_cons, List.not_mem_nil, or_false] at he
    rcases he with rfl | rfl
    · exact define_event
    · exact destroy_event

theorem joiner_draws_iff_late :
    (viewed [.control defineMsg]).drawn = (some ⟨[1, 2, 3, 255], 1, 1, 0, 0, false⟩, true) := by
  have hrun : Lts.run step new lateRun = some ((Lts.run step new lateRun).get rfl) := (Option.some_get _).symm
  have hsame := (joiner_draws_iff lateRun _ hrun rfl 0 1 [] [⟨0, ⟨some defineMsg, none⟩⟩]
    [.control 0 Plane.opDefine defineMsg] [] rfl ?_ rfl rfl).2 ?_
  · exact hsame.trans rfl
  · intro e he
    rw [List.append_nil, List.mem_singleton] at he
    exact he ▸ define_event
  · exact ⟨.inr (.inr ⟨[], ⟨[1, 2, 3, 255], 1, 1, 0, 0, false⟩, true, [], rfl, by simp⟩), .inr (.inl (by decide))⟩

end Hub

end Infinigpu
