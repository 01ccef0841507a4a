import Mathlib.Data.List.Basic

/-!
# Serving a stream of messages

A server takes what it needs from the front of a stream, over and over until the stream is empty.  If for each message
it takes exactly the message off the stream, whatever follows, then over the stream of a list of messages it handles
these messages in order (`serve_messages`).
-/

namespace Framing

/-- What one turn leaves: the state, what it has sent, and the stream behind what it took. -/
structure Turn (σ α β : Type*) where
  state : σ
  sent : List β
  rest : List α

/-- How serving ends. -/
inductive Ended (ε : Type*) where
  | closed
  | failed (e : ε)
  /-- The turns do not empty the stream. -/
  | running
deriving DecidableEq, Repr

structure Served (σ β ε : Type*) where
  state : σ
  sent : List β
  ended : Ended ε

variable {σ α β ε μ : Type*}

/-- At most `turns` turns; a turn that fails has changed the state nevertheless. -/
def serve (turn : σ → List α → Except (ε × σ) (Turn σ α β)) : Nat → σ → List α → Served σ β ε
  | _, s, [] => ⟨s, [], .closed⟩
  | 0, s, _ :: _ => ⟨s, [], .running⟩
  | turns + 1, s, a :: as =>
    match turn s (a :: as) with
    | .error (e, s) => ⟨s, [], .failed e⟩
    | .ok t =>
      let r := serve turn turns t.state t.rest
      { r with sent := t.sent ++ r.sent }

variable {turn : σ → List α → Except (ε × σ) (Turn σ α β)} {wire : μ → List α} {handle : σ → μ → σ × List β}

/-- The turns over a list of messages: the state after them, and what is sent for each. -/
def handleAll (handle : σ → μ → σ × List β) : σ → List μ → σ × List (List β)
  | s, [] => (s, [])
  | s, m :: ms =>
    let (s, sent) := handle s m
    let (s, more) := handleAll handle s ms
    (s, sent :: more)

theorem handleAll_cons (handle : σ → μ → σ × List β) (s : σ) (m : μ) (ms : List μ) :
    handleAll handle s (m :: ms) =
      ((handleAll handle (handle s m).1 ms).1, (handle s m).2 :: (handleAll handle (handle s m).1 ms).2) := rfl

theorem handleAll_length (handle : σ → μ → σ × List β) (s : σ) (ms : List μ) :
    (handleAll handle s ms).2.length = ms.length := by
  induction ms generalizing s with
  | nil => rfl
  | cons m ms ih => rw [handleAll_cons, List.length_cons, List.length_cons, ih]

/-- What holds of each message and what is sent for it. -/
theorem handleAll_forall₂ {R : μ → List β → Prop} {ms : List μ} (h : ∀ m ∈ ms, ∀ s, R m (handle s m).2) (s : σ) :
    List.Forall₂ R ms (handleAll handle s ms).2 := by
  induction ms generalizing s with
  | nil => exact .nil
  | cons m ms ih =>
    obtain ⟨hm, hrest⟩ := List.forall_mem_cons.1 h
    exact .cons (hm s) (ih hrest _)

/-- Messages that are taken off the stream one at a time are handled in order. -/
theorem serve_messages {ms : List μ} (hwire : ∀ m ∈ ms, wire m ≠ [])
    (hturn : ∀ m ∈ ms, ∀ s rest, turn s (wire m ++ rest) = .ok ⟨(handle s m).1, (handle s m).2, rest⟩) {turns : Nat}
    (hturns : ms.length ≤ turns) (s : σ) :
    serve turn turns s (ms.flatMap wire) =
      ⟨(handleAll handle s ms).1, (handleAll handle s ms).2.flatten, .closed⟩ := by
  induction ms generalizing turns s with
  | nil => cases turns <;> rfl
  | cons m ms ih =>
    obtain ⟨hm, hrest⟩ := List.forall_mem_cons.1 hturn
    rw [List.length_cons] at hturns
    obtain ⟨turns, rfl⟩ := Nat.exists_eq_add_of_le' (Nat.lt_of_lt_of_le (Nat.succ_pos _) hturns)
    cases hfront : wire m with
    | nil => exact absurd hfront (hwire m List.mem_cons_self)
    | cons a as =>
      have hserve := hm s (ms.flatMap wire)
      rw [hfront] at hserve
      have hle : ms.length ≤ turns := by omega
      have htail := ih (fun m' hm' => hwire m' (List.mem_cons_of_mem _ hm')) hrest hle (handle s m).1
      rw [List.flatMap_cons, hfront, List.cons_append, serve, ← List.cons_append, hserve]
      simp only [htail, handleAll_cons, List.flatten_cons]

/-- The messages are no more than the length of their stream. -/
theorem length_le_flatMap {ms : List μ} (hwire : ∀ m ∈ ms, wire m ≠ []) : ms.length ≤ (ms.flatMap wire).length := by
  induction ms with
  | nil => exact Nat.le_refl 0
  | cons m ms ih =>
    obtain ⟨hm, hrest⟩ := List.forall_mem_cons.1 hwire
    have hpos := List.length_pos_iff.2 hm
    have := ih hrest
    rw [List.flatMap_cons, List.length_append, List.length_cons]
    omega

end Framing
