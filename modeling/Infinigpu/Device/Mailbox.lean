import Infinigpu.Lib.Lts
import Mathlib.Data.List.Nodup
import Mathlib.Data.List.Perm.Basic
import Mathlib.Logic.Function.Basic

/-!
# The latest-wins mailbox (`infinigpu-device`, `mailbox.rs`)

One slot behind a mutex.  A post replaces an item that has not been taken and returns it; once the mailbox is closed,
by a sender or because the receiver is gone, a post returns its own item.

* `Slot`: the critical sections, each of which is atomic;
* `Mailbox`: any number of posting threads and one receiver, the sleeps and wake-ups of the condition variable, and
  the history.  Items carry their number in the order of the posts, which the slot never looks at;
* `Mailbox.items_conserved`: every posted item is received, handed back or still in the slot, and only once.
-/

namespace Infinigpu

structure Slot (T : Type*) where
  item : Option T
  closed : Bool

namespace Slot

variable {T : Type*}

def empty : Slot T := ⟨none, false⟩

/-- What `post` hands back, and the slot. -/
def post (x : T) (s : Slot T) : Option T × Slot T :=
  if s.closed then (some x, s) else (s.item, { s with item := some x })

/-- `close`, and the drop of the receiver. -/
def close (s : Slot T) : Slot T := { s with closed := true }

def tryTake (s : Slot T) : Option T × Slot T := (s.item, { s with item := none })

end Slot

/-- A turn of the loop of `recv`: it returns an item, or that there will be none, or goes to sleep. -/
inductive Received (T : Type*) where
  | item (x : T)
  | ended
  | asleep

def Slot.recv {T : Type*} (s : Slot T) : Received T × Slot T :=
  match s.item with
  | some x => (.item x, { s with item := none })
  | none => if s.closed then (.ended, s) else (.asleep, s)

/-- Where a posting thread stands: a post or a close that has left the mutex has still to notify. -/
inductive SenderPc where
  | idle
  | notifying
deriving DecidableEq

inductive ReceiverPc where
  | idle
  | asleep
  /-- Woken in `recv`, and not yet past the mutex. -/
  | awake
  | dropped
deriving DecidableEq

/-- A mailbox with the threads `P` that post, and its history: the items posted, with their numbers, those received,
and those handed back, each with the number of the post that did so. -/
structure Mailbox (P T : Type*) where
  slot : Slot (Nat × T)
  senders : P → SenderPc
  receiver : ReceiverPc
  posted : List (Nat × T)
  received : List (Nat × T)
  handedBack : List ((Nat × T) × Nat)
  /-- Whether a `recv` has returned `None`. -/
  ended : Bool

namespace Mailbox

variable {P T : Type*}

def start : Mailbox P T where
  slot := .empty
  senders _ := .idle
  receiver := .idle
  posted := []
  received := []
  handedBack := []
  ended := false

inductive Action (P T : Type*) where
  | post (p : P) (x : T)
  | close (p : P)
  | notify (p : P)
  | recv
  /-- The condition variable wakes the receiver without a notification. -/
  | spurious
  | tryTake
  | dropReceiver

/-- The receiver takes from the slot, if there is something. -/
def Action.takes : Action P T → Bool
  | .recv => true
  | .tryTake => true
  | _ => false

/-- A turn of `recv` under the mutex. -/
def recvTurn (s : Mailbox P T) : Mailbox P T :=
  match s.slot.recv with
  | (.item e, slot) => { s with slot, received := s.received ++ [e], receiver := .idle }
  | (.ended, slot) => { s with slot, ended := true, receiver := .idle }
  | (.asleep, slot) => { s with slot, receiver := .asleep }

def wake (s : Mailbox P T) : Mailbox P T :=
  { s with receiver := if s.receiver = .asleep then .awake else s.receiver }

def step [DecidableEq P] (s : Mailbox P T) : Action P T → Option (Mailbox P T)
  | .post p x =>
    if s.senders p = .idle then
      let e := (s.posted.length, x)
      let r := s.slot.post e
      some { s with
        slot := r.2
        posted := s.posted ++ [e]
        handedBack := s.handedBack ++ (r.1.map fun e => (e, s.posted.length)).toList
        senders := if s.slot.closed then s.senders else Function.update s.senders p .notifying }
    else
      none
  | .close p =>
    if s.senders p = .idle then
      some { s with slot := s.slot.close, senders := Function.update s.senders p .notifying }
    else
      none
  | .notify p =>
    if s.senders p = .notifying then
      some { s.wake with senders := Function.update s.senders p .idle }
    else
      none
  | .recv => if s.receiver = .idle ∨ s.receiver = .awake then some s.recvTurn else none
  | .spurious => if s.receiver = .asleep then some s.wake else none
  | .tryTake =>
    if s.receiver = .idle then
      let r := s.slot.tryTake
      some { s with slot := r.2, received := s.received ++ r.1.toList }
    else
      none
  | .dropReceiver =>
    if s.receiver = .idle then some { s with slot := s.slot.close, receiver := .dropped } else none

/-! ### Every item has one owner -/

/-- What every step keeps. -/
structure Accounted (s : Mailbox P T) : Prop where
  /-- Each post has its number. -/
  numbered : s.posted.map Prod.fst = List.range s.posted.length
  /-- Every posted item is received, handed back or in the slot, and that once. -/
  owned : (s.received ++ s.handedBack.map Prod.fst ++ s.slot.item.toList).Perm s.posted
  /-- Items are received in the order of the posts, and what is in the slot comes next. -/
  ordered : (s.received ++ s.slot.item.toList).Sublist s.posted
  /-- An item is handed back by its own post or by the one after it. -/
  handed : ∀ h ∈ s.handedBack, h.2 = h.1.1 ∨ h.2 = h.1.1 + 1
  /-- A post hands back one item at most. -/
  single : (s.handedBack.map Prod.snd).Nodup
  made : ∀ h ∈ s.handedBack, h.2 < s.posted.length
  /-- While the mailbox is open the item in the slot is the one posted last. -/
  latest : s.slot.closed = false → ∀ e ∈ s.slot.item, e.1 + 1 = s.posted.length
  /-- `recv` has returned `None` only from a closed and empty mailbox. -/
  ended : s.ended = true → s.slot.closed = true ∧ s.slot.item = none
  /-- Where there is something to wake up for, a notification is on its way. -/
  woken : s.receiver = .asleep → s.slot.item.isSome ∨ s.slot.closed = true → ∃ p, s.senders p = .notifying

variable {s s' t : Mailbox P T}

private theorem accounted_start : Accounted (start : Mailbox P T) where
  numbered := rfl
  owned := .refl _
  ordered := .refl _
  handed _ h := absurd h List.not_mem_nil
  single := .nil
  made _ h := absurd h List.not_mem_nil
  latest _ e h := by cases h
  ended h := by cases h
  woken h := by cases h

private theorem numbered_snoc (h : s.Accounted) (x : T) :
    (s.posted ++ [(s.posted.length, x)]).map Prod.fst = List.range (s.posted ++ [(s.posted.length, x)]).length := by
  rw [List.map_append, h.numbered, List.length_append, List.length_singleton, List.range_succ]
  rfl

/-- A post to an open mailbox takes the place of what is in the slot. -/
private theorem post_open (h : s.Accounted) (hc : s.slot.closed = false) (x : T) (senders : P → SenderPc) {p : P}
    (hp : senders p = .notifying) :
    Accounted { s with
      slot := ⟨some (s.posted.length, x), false⟩
      posted := s.posted ++ [(s.posted.length, x)]
      handedBack := s.handedBack ++ (s.slot.item.map fun e => (e, s.posted.length)).toList
      senders } where
  numbered := numbered_snoc h x
  owned := by
    have hmap : ((s.slot.item.map fun e => (e, s.posted.length)).toList).map Prod.fst = s.slot.item.toList := by
      cases s.slot.item <;> rfl
    rw [List.map_append, hmap, ← List.append_assoc]
    exact h.owned.append_right _
  ordered := ((List.sublist_append_left _ _).trans h.ordered).append (.refl _)
  handed := by
    intro b hb
    rcases List.mem_append.1 hb with hb | hb
    · exact h.handed b hb
    · obtain ⟨e, he, rfl⟩ := Option.map_eq_some_iff.1 (Option.mem_toList.1 hb)
      exact .inr (h.latest hc e he).symm
  single := by
    rw [List.map_append]
    refine h.single.append ?_ ?_
    · cases s.slot.item with
      | none => exact .nil
      | some e => exact List.nodup_singleton _
    · intro n hn hn'
      obtain ⟨b, hb, rfl⟩ := List.mem_map.1 hn
      have hlt := h.made b hb
      obtain ⟨b', hb', heq⟩ := List.mem_map.1 hn'
      obtain ⟨e, -, rfl⟩ := Option.map_eq_some_iff.1 (Option.mem_toList.1 hb')
      exact absurd heq.symm (Nat.ne_of_lt hlt)
  made := by
    intro b hb
    rw [List.length_append, List.length_singleton]
    rcases List.mem_append.1 hb with hb | hb
    · exact Nat.lt_succ_of_lt (h.made b hb)
    · obtain ⟨e, -, rfl⟩ := Option.map_eq_some_iff.1 (Option.mem_toList.1 hb)
      exact Nat.lt_succ_self _
  latest := by
    intro _ e he
    cases he
    rw [List.length_append, List.length_singleton]
  ended := by
    intro hended
    rw [(h.ended hended).1] at hc
    cases hc
  woken _ _ := ⟨p, hp⟩

/-- A post to a closed mailbox is handed its own item back. -/
private theorem post_closed (h : s.Accounted) (hc : s.slot.closed = true) (x : T) :
    Accounted { s with
      posted := s.posted ++ [(s.posted.length, x)]
      handedBack := s.handedBack ++ [((s.posted.length, x), s.posted.length)] } where
  numbered := numbered_snoc h x
  owned := by
    rw [List.map_append]
    have hswap : ((s.received ++ (s.handedBack.map Prod.fst ++ [(s.posted.length, x)])) ++ s.slot.item.toList).Perm
        ((s.received ++ s.handedBack.map Prod.fst ++ s.slot.item.toList) ++ [(s.posted.length, x)]) := by
      rw [← List.append_assoc, List.append_assoc, List.append_assoc _ s.slot.item.toList]
      exact List.perm_append_comm.append_left _
    exact hswap.trans (h.owned.append_right _)
  ordered := h.ordered.trans (List.sublist_append_left _ _)
  handed := by
    intro b hb
    rcases List.mem_append.1 hb with hb | hb
    · exact h.handed b hb
    · rw [List.mem_singleton.1 hb]
      exact .inl rfl
  single := by
    rw [List.map_append]
    refine h.single.append (List.nodup_singleton _) ?_
    intro n hn hn'
    obtain ⟨b, hb, rfl⟩ := List.mem_map.1 hn
    exact absurd (List.mem_singleton.1 hn') (Nat.ne_of_lt (h.made b hb))
  made := by
    intro b hb
    rw [List.length_append, List.length_singleton]
    rcases List.mem_append.1 hb with hb | hb
    · exact Nat.lt_succ_of_lt (h.made b hb)
    · rw [List.mem_singleton.1 hb]
      exact Nat.lt_succ_self _
  latest := by
    intro hopen
    rw [hc] at hopen
    cases hopen
  ended := h.ended
  woken := h.woken

/-- What is taken from the slot is received. -/
private theorem take_accounted (h : s.Accounted) {receiver : ReceiverPc} (hr : receiver ≠ .asleep) :
    Accounted { s with
      slot := { s.slot with item := none }
      received := s.received ++ s.slot.item.toList
      receiver } where
  numbered := h.numbered
  owned := by
    have hswap : ((s.received ++ s.slot.item.toList) ++ s.handedBack.map Prod.fst ++ []).Perm
        (s.received ++ s.handedBack.map Prod.fst ++ s.slot.item.toList) := by
      rw [List.append_nil, List.append_assoc, List.append_assoc]
      exact List.perm_append_comm.append_left _
    exact hswap.trans h.owned
  ordered := by
    rw [Option.toList_none, List.append_nil]
    exact h.ordered
  handed := h.handed
  single := h.single
  made := h.made
  latest _ e he := by cases he
  ended hended := ⟨(h.ended hended).1, rfl⟩
  woken hasleep := absurd hasleep hr

private theorem recvTurn_accounted (h : s.Accounted) : s.recvTurn.Accounted := by
  unfold recvTurn Slot.recv
  cases hitem : s.slot.item with
  | some e =>
    have htake := take_accounted h (show ReceiverPc.idle ≠ .asleep by decide)
    rw [hitem] at htake
    exact htake
  | none =>
    by_cases hc : s.slot.closed = true
    · simp only [hc, if_true]
      exact { h with ended := fun _ => ⟨hc, hitem⟩, woken := fun hasleep => by cases hasleep }
    · simp only [hc]
      refine { h with woken := fun _ hsome => ?_ }
      rcases hsome with hsome | hclosed
      · have hnone : s.slot.item.isSome = true := hsome
        rw [hitem] at hnone
        cases hnone
      · exact absurd hclosed hc

private theorem close_accounted (h : s.Accounted) {receiver : ReceiverPc} {senders : P → SenderPc}
    (hwoken : receiver = .asleep → ∃ p, senders p = .notifying) :
    Accounted { s with slot := s.slot.close, receiver, senders } where
  numbered := h.numbered
  owned := h.owned
  ordered := h.ordered
  handed := h.handed
  single := h.single
  made := h.made
  latest hopen := by cases hopen
  ended hended := ⟨rfl, (h.ended hended).2⟩
  woken hasleep _ := hwoken hasleep

private theorem wake_accounted (h : s.Accounted) (senders : P → SenderPc) : Accounted { s.wake with senders } where
  numbered := h.numbered
  owned := h.owned
  ordered := h.ordered
  handed := h.handed
  single := h.single
  made := h.made
  latest := h.latest
  ended := h.ended
  woken hasleep := by
    simp only [wake] at hasleep
    split at hasleep
    · cases hasleep
    · next hr => exact absurd hasleep hr

private theorem step_accounted [DecidableEq P] (h : s.Accounted) {a : Action P T} (hs : s.step a = some s') :
    s'.Accounted := by
  cases a with
  | post p x =>
    simp only [step] at hs
    split at hs
    · cases hc : s.slot.closed with
      | true =>
        simp only [Slot.post, hc, if_true, Option.map_some, Option.toList_some] at hs
        cases hs
        exact post_closed h hc x
      | false =>
        simp only [Slot.post, hc, Bool.false_eq_true, if_false] at hs
        cases hs
        exact post_open h hc x (Function.update s.senders p .notifying) (Function.update_self p _ _)
    · cases hs
  | close p =>
    simp only [step] at hs
    split at hs
    · cases hs
      exact close_accounted h fun _ => ⟨p, Function.update_self p _ _⟩
    · cases hs
  | notify p =>
    simp only [step] at hs
    split at hs
    · cases hs
      exact wake_accounted h _
    · cases hs
  | recv =>
    simp only [step] at hs
    split at hs
    · cases hs
      exact recvTurn_accounted h
    · cases hs
  | spurious =>
    simp only [step] at hs
    split at hs
    · cases hs
      exact wake_accounted h s.senders
    · cases hs
  | tryTake =>
    simp only [step] at hs
    split at hs
    · next hr =>
      cases hs
      exact take_accounted h (by rw [hr]; decide)
    · cases hs
  | dropReceiver =>
    simp only [step] at hs
    split at hs
    · cases hs
      exact close_accounted h fun hasleep => by cases hasleep
    · cases hs

/-! ### After a close -/

/-- The slot of a closed mailbox changes only when the receiver takes from it. -/
private theorem step_closed [DecidableEq P] (hc : s.slot.closed = true) {a : Action P T} (hs : s.step a = some s') :
    s'.slot = ⟨if a.takes then none else s.slot.item, true⟩ ∧
      s'.received = s.received ++ if a.takes then s.slot.item.toList else [] := by
  have hslot : s.slot = ⟨s.slot.item, true⟩ := by rw [← hc]
  cases a with
  | post p x =>
    simp only [step, Slot.post, hc, if_true] at hs
    split at hs
    · cases hs
      exact ⟨hslot, (List.append_nil _).symm⟩
    · cases hs
  | close p =>
    simp only [step] at hs
    split at hs
    · cases hs
      exact ⟨rfl, (List.append_nil _).symm⟩
    · cases hs
  | notify p =>
    simp only [step] at hs
    split at hs
    · cases hs
      exact ⟨hslot, (List.append_nil _).symm⟩
    · cases hs
  | recv =>
    simp only [step] at hs
    split at hs
    · cases hs
      unfold recvTurn Slot.recv
      cases hitem : s.slot.item with
      | some e => exact ⟨by simp only [hc, Action.takes, if_true], rfl⟩
      | none =>
        simp only [hc, if_true]
        exact ⟨by rw [hslot, hitem]; rfl, (List.append_nil _).symm⟩
    · cases hs
  | spurious =>
    simp only [step] at hs
    split at hs
    · cases hs
      exact ⟨hslot, (List.append_nil _).symm⟩
    · cases hs
  | tryTake =>
    simp only [step] at hs
    split at hs
    · cases hs
      exact ⟨by simp only [Slot.tryTake, hc, Action.takes, if_true], rfl⟩
    · cases hs
  | dropReceiver =>
    simp only [step] at hs
    split at hs
    · cases hs
      exact ⟨rfl, (List.append_nil _).symm⟩
    · cases hs

/-- What is in the slot of a closed mailbox is what the receiver gets next, and nothing comes after it. -/
private theorem run_closed [DecidableEq P] (hc : s.slot.closed = true) {as : List (Action P T)}
    (hrun : Lts.run step s as = some t) :
    t.received = s.received ++ if as.any Action.takes then s.slot.item.toList else [] := by
  induction as generalizing s with
  | nil =>
    cases hrun
    exact (List.append_nil _).symm
  | cons a as ih =>
    rw [Lts.run_cons] at hrun
    obtain ⟨s', hs', hrest⟩ := Option.bind_eq_some_iff.1 hrun
    obtain ⟨hslot, hreceived⟩ := step_closed hc hs'
    rw [ih (by rw [hslot]) hrest, hreceived, hslot, List.any_cons]
    cases a.takes with
    | true => simp
    | false => simp

/-- Of every posted item exactly one thing becomes: it is received by one call, handed back by its own post or by the
next one, or still in the slot.  Items are received in the order of their posts, `recv` returns `None` only from a
closed and empty mailbox, and what is in the slot at the close goes to the next call that takes. -/
theorem items_conserved [DecidableEq P] (as : List (Action P T)) (h : Lts.run step start as = some s) :
    s.Accounted ∧ (s.slot.closed = true → ∀ e ∈ s.slot.item, ∀ (bs : List (Action P T)) (t : Mailbox P T),
      Lts.run step s bs = some t → bs.any Action.takes = true → t.received = s.received ++ [e]) := by
  refine ⟨Lts.Reachable.invariant (P := Accounted) (fun _ _ _ hs hstep => step_accounted hs hstep) ⟨as, h⟩
    accounted_start, ?_⟩
  intro hc e he bs t hrun htakes
  rw [run_closed hc hrun, if_pos htakes, Option.mem_def.1 he]
  rfl

/-- Two threads post while the receiver wakes up, and one of them closes the mailbox. -/
def closing : List (Action Bool Nat) :=
  [.recv, .post true 10, .post false 20, .notify true, .notify false, .close true]

/-- The first item went back with the second post, and the second is still received. -/
theorem items_conserved_closing : ∃ s t : Mailbox Bool Nat, Lts.run step start closing = some s ∧ s.Accounted ∧
    s.handedBack = [((0, 10), 1)] ∧ Lts.run step s [.recv] = some t ∧ t.received = [(1, 20)] := by
  have hconserved := items_conserved closing rfl
  exact ⟨_, _, rfl, hconserved.1, rfl, rfl, hconserved.2 rfl (1, 20) rfl [.recv] _ rfl rfl⟩

end Mailbox

end Infinigpu
