import Mathlib.Data.UInt

/-!
# Arithmetic with overflow checks

A computation with overflow checks either ends as it does without them, or panics (`none`).  `Guarded P x o` says
when: the checked computation `o` gives `x` if `P` holds and panics if not.  There is one rule for each way to put
such computations together.
-/

variable {α β γ : Type*} {P Q : Prop} {x : α} {y : β} {o : Option α}

/-- The checked computation `o` gives `x` under the condition `P`, and panics otherwise. -/
structure Guarded (P : Prop) (x : α) (o : Option α) : Prop where
  ok : P → o = some x
  panics : ¬ P → o = none

namespace Guarded

theorem eq_some_iff (h : Guarded P x o) : o = some x ↔ P := by
  refine ⟨fun hsome => ?_, h.ok⟩
  by_contra hP
  rw [h.panics hP] at hsome
  cases hsome

theorem congr (h : Guarded P x o) (hPQ : P ↔ Q) : Guarded Q x o := ⟨h.ok ∘ hPQ.2, fun hQ => h.panics (mt hPQ.1 hQ)⟩

/-- What is not checked never panics. -/
theorem pure (x : α) (hP : P) : Guarded P x (some x) := ⟨fun _ => rfl, fun h => absurd hP h⟩

theorem bind {f : α → Option β} (h : Guarded P x o) (hf : P → Guarded Q y (f x)) : Guarded (P ∧ Q) y (o.bind f) := by
  refine ⟨fun hPQ => ?_, fun hPQ => ?_⟩
  · rw [h.ok hPQ.1, Option.bind_some]
    exact (hf hPQ.1).ok hPQ.2
  · by_cases hP : P
    · rw [h.ok hP, Option.bind_some]
      exact (hf hP).panics fun hQ => hPQ ⟨hP, hQ⟩
    · rw [h.panics hP, Option.bind_none]

theorem map (h : Guarded P x o) (f : α → β) : Guarded P (f x) (o.map f) := by
  refine ⟨fun hP => ?_, fun hP => ?_⟩
  · rw [h.ok hP, Option.map_some]
  · rw [h.panics hP, Option.map_none]

/-- Steps one after another: each of them is checked in the state that those before it leave. -/
theorem foldlM {f : α → γ → α} {g : α → γ → Option α} {P : α → γ → Prop} (h : ∀ s a, Guarded (P s a) (f s a) (g s a))
    (s : α) (as : List γ) :
    Guarded (∀ before a after, as = before ++ a :: after → P (before.foldl f s) a) (as.foldl f s)
      (as.foldlM g s) := by
  induction as generalizing s with
  | nil =>
    refine pure s fun before a after hnil => ?_
    exact absurd hnil.symm (List.append_ne_nil_of_right_ne_nil _ (List.cons_ne_nil _ _))
  | cons a as ih =>
    rw [List.foldlM_cons]
    refine ((h s a).bind fun _ => ih (f s a)).congr ⟨?_, ?_⟩
    · rintro ⟨hfirst, hrest⟩ before b after heq
      cases before with
      | nil =>
        rw [List.nil_append, List.cons.injEq] at heq
        rw [← heq.1]
        exact hfirst
      | cons c before =>
        rw [List.cons_append, List.cons.injEq] at heq
        rw [← heq.1]
        exact hrest before b after heq.2
    · intro hall
      refine ⟨hall [] a as rfl, fun before b after heq => ?_⟩
      exact hall (a :: before) b after (by rw [heq]; rfl)

end Guarded

namespace UInt64

def addChecked (a b : UInt64) : Option UInt64 := if a.toNat + b.toNat < 2 ^ 64 then some (a + b) else none

def mulChecked (a b : UInt64) : Option UInt64 := if a.toNat * b.toNat < 2 ^ 64 then some (a * b) else none

theorem addChecked_guarded (a b : UInt64) : Guarded (a.toNat + b.toNat < 2 ^ 64) (a + b) (a.addChecked b) :=
  ⟨fun h => if_pos h, fun h => if_neg h⟩

theorem mulChecked_guarded (a b : UInt64) : Guarded (a.toNat * b.toNat < 2 ^ 64) (a * b) (a.mulChecked b) :=
  ⟨fun h => if_pos h, fun h => if_neg h⟩

end UInt64
