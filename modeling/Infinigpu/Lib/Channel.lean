import Infinigpu.Lib.Lts

/-!
# A bounded first-in first-out channel

The abstract channel: a queue of at most `cap` values with the history of what was sent and what was received.
Whatever is done with it, the values received, followed by the ones still queued, are the ones queued at the start
followed by the ones sent (`Reachable.conserved`); so nothing is lost, duplicated or reordered.
-/

structure Channel (α : Type*) where
  queue : List α
  sent : List α
  received : List α

namespace Channel

variable {α : Type*}

inductive Op (α : Type*) where
  | send (x : α)
  | receive

/-- `send` is enabled while there is room, `receive` while something is queued. -/
def step (cap : Nat) (c : Channel α) : Op α → Option (Channel α)
  | .send x =>
    if c.queue.length < cap then some { c with queue := c.queue ++ [x], sent := c.sent ++ [x] } else none
  | .receive =>
    match c.queue with
    | [] => none
    | x :: queue => some { c with queue, received := c.received ++ [x] }

theorem step_send {cap : Nat} {c : Channel α} (x : α) (h : c.queue.length < cap) :
    c.step cap (.send x) = some { c with queue := c.queue ++ [x], sent := c.sent ++ [x] } := by
  rw [step, if_pos h]

theorem step_receive {cap : Nat} {c : Channel α} {x : α} {queue : List α} (h : c.queue = x :: queue) :
    c.step cap .receive = some { c with queue, received := c.received ++ [x] } := by
  simp only [step, h]

/-- Conservation: the channel holds exactly what was put in and not yet taken out, in order. -/
def Conserves (pending : List α) (c : Channel α) : Prop := c.received ++ c.queue = pending ++ c.sent

theorem step_conserves {cap : Nat} {pending : List α} {c c' : Channel α} {op : Op α}
    (h : c.Conserves pending) (hs : c.step cap op = some c') : c'.Conserves pending := by
  cases op with
  | send x =>
    simp only [step] at hs
    split at hs
    · cases hs
      show c.received ++ (c.queue ++ [x]) = pending ++ (c.sent ++ [x])
      rw [← List.append_assoc, ← List.append_assoc, h]
    · cases hs
  | receive =>
    simp only [step] at hs
    split at hs
    · cases hs
    · rename_i x queue hq
      cases hs
      show c.received ++ [x] ++ queue = pending ++ c.sent
      rw [← h, hq, List.append_assoc]; rfl

theorem Reachable.conserved {cap : Nat} {pending : List α} {c c' : Channel α}
    (h : Lts.Reachable (step cap) c c') (hc : c.Conserves pending) : c'.Conserves pending :=
  h.invariant (fun _ _ _ => step_conserves) hc

end Channel
