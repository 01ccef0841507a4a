import Mathlib.Data.List.Basic

/-!
# Rising stamps

Lists of stamps that rise above a base (`Rising`) and the newest of them.
-/

namespace Stamps

variable {τ : Type*}

/-- The newest stamp, or the base if there is none. -/
def newest (base : τ) (l : List τ) : τ := l.getLastD base

theorem newest_snoc (base x : τ) (l : List τ) : newest base (l ++ [x]) = x := List.getLastD_concat

theorem newest_append (base : τ) (l : List τ) {r : List τ} (hr : r ≠ []) : newest base (l ++ r) = newest base r := by
  rcases List.eq_nil_or_concat' r with rfl | ⟨r', x, rfl⟩
  · exact absurd rfl hr
  · rw [← List.append_assoc, newest_snoc, newest_snoc]

variable [LT τ] {base x : τ} {l r : List τ}

/-- Each stamp is above the base and above those before it. -/
def Rising (base : τ) (l : List τ) : Prop := (base :: l).Pairwise (· < ·)

instance [DecidableRel (α := τ) (· < ·)] (base : τ) (l : List τ) : Decidable (Rising base l) :=
  inferInstanceAs (Decidable ((base :: l).Pairwise (· < ·)))

theorem Rising.nil (base : τ) : Rising base [] := List.pairwise_singleton _ _

theorem rising_snoc : Rising base (l ++ [x]) ↔ Rising base l ∧ ∀ y ∈ base :: l, y < x := by
  rw [Rising, ← List.cons_append, List.pairwise_append]
  constructor
  · rintro ⟨hl, -, hx⟩
    exact ⟨hl, fun y hy => hx y hy x (List.mem_singleton_self x)⟩
  · rintro ⟨hl, hx⟩
    refine ⟨hl, List.pairwise_singleton _ _, fun y hy z hz => ?_⟩
    rw [List.mem_singleton] at hz
    rw [hz]
    exact hx y hy

theorem Rising.left (h : Rising base (l ++ r)) : Rising base l := by
  rw [Rising, ← List.cons_append] at h
  exact (List.pairwise_append.1 h).1

theorem Rising.right (h : Rising base (l ++ r)) : Rising base r :=
  List.Pairwise.sublist ((List.sublist_append_right l r).cons_cons base) h

/-- A stamp is above the newest one before it. -/
theorem Rising.newest_lt (h : Rising base (l ++ x :: r)) : newest base l < x := by
  rw [Rising, ← List.cons_append] at h
  exact (List.pairwise_append.1 h).2.2 _ List.getLastD_mem_cons x List.mem_cons_self

end Stamps
