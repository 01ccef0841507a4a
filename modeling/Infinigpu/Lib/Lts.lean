import Mathlib.Data.List.Basic

/-!
# Runs of a partial step function

A labelled transition system is given by a step function `σ → α → Option σ`: `none` says that the action is not
enabled.  A run is a list of actions, so it can be evaluated; a state is reachable when some run ends in it.

* `Reachable.invariant`: what every step keeps holds of every reachable state;
* `Reachable.simulates`: a step-wise simulation (each concrete step is matched by some abstract run) carries
  reachable states to reachable states;
* `Always`, `Along`: what holds of every state, and of every step, of one run; `always_iff_along`, `end_iff_along`
  reduce a property of a run to a condition on its steps.
-/

namespace Lts

variable {σ τ α β : Type*}

/-- The state after the actions, or `none` when one of them is not enabled. -/
def run (step : σ → α → Option σ) : σ → List α → Option σ
  | s, [] => some s
  | s, a :: as => (step s a).bind fun s' => run step s' as

/-- `t` is reached from `s` by some run. -/
def Reachable (step : σ → α → Option σ) (s t : σ) : Prop := ∃ as, run step s as = some t

variable {step : σ → α → Option σ} {s t u : σ}

@[simp] theorem run_nil : run step s [] = some s := rfl

theorem run_cons (a : α) (as : List α) : run step s (a :: as) = (step s a).bind fun s' => run step s' as := rfl

theorem run_append (as bs : List α) :
    run step s (as ++ bs) = (run step s as).bind fun s' => run step s' bs := by
  induction as generalizing s with
  | nil => rfl
  | cons a as ih =>
    rw [List.cons_append, run_cons, run_cons]
    cases step s a with
    | none => rfl
    | some s' => exact ih

theorem run_append_of_eq {as bs : List α} (h : run step s as = some t) :
    run step s (as ++ bs) = run step t bs := by
  rw [run_append, h]; rfl

theorem run_cons_of_eq {a : α} {as : List α} (h : step s a = some t) :
    run step s (a :: as) = run step t as := by
  rw [run_cons, h]; rfl

/-- Where every action is always enabled, there is a run for every list of actions. -/
theorem run_isSome (htotal : ∀ s a, (step s a).isSome) (s : σ) (as : List α) : (run step s as).isSome := by
  induction as generalizing s with
  | nil => rfl
  | cons a as ih =>
    obtain ⟨s', hs'⟩ := Option.isSome_iff_exists.1 (htotal s a)
    rw [run_cons_of_eq hs']
    exact ih s'

theorem Reachable.refl (s : σ) : Reachable step s s := ⟨[], rfl⟩

theorem reachable_of_eq (h : s = t) : Reachable step s t := h ▸ .refl s

theorem Reachable.trans (h : Reachable step s t) (h' : Reachable step t u) : Reachable step s u := by
  obtain ⟨as, has⟩ := h
  obtain ⟨bs, hbs⟩ := h'
  exact ⟨as ++ bs, by rw [run_append_of_eq has, hbs]⟩

theorem Reachable.single {a : α} (h : step s a = some t) : Reachable step s t :=
  ⟨[a], by rw [run_cons_of_eq h]; rfl⟩

theorem Reachable.tail {a : α} (h : Reachable step s t) (h' : step t a = some u) : Reachable step s u :=
  h.trans (.single h')

/-- What holds initially and is kept by every step holds of every reachable state. -/
theorem Reachable.invariant {P : σ → Prop} (hstep : ∀ s a s', P s → step s a = some s' → P s')
    (h : Reachable step s t) (hs : P s) : P t := by
  obtain ⟨as, has⟩ := h
  induction as generalizing s with
  | nil =>
    cases has
    exact hs
  | cons a as ih =>
    rw [run_cons] at has
    obtain ⟨s', hs', hrun⟩ := Option.bind_eq_some_iff.1 has
    exact ih (hstep s a s' hs hs') hrun

/-- A simulation with stuttering: each concrete step is matched by a run of the abstract system. -/
theorem Reachable.simulates {step' : τ → β → Option τ} {R : σ → τ → Prop} {x : τ}
    (hstep : ∀ s x a s', R s x → step s a = some s' → ∃ y, Reachable step' x y ∧ R s' y)
    (h : Reachable step s t) (hs : R s x) : ∃ y, Reachable step' x y ∧ R t y := by
  have key : (fun s => ∃ y, Reachable step' x y ∧ R s y) t := by
    refine h.invariant (P := fun s => ∃ y, Reachable step' x y ∧ R s y) ?_ ⟨x, .refl x, hs⟩
    intro s a s' hy hs'
    obtain ⟨y, hxy, hR⟩ := hy
    obtain ⟨z, hyz, hR'⟩ := hstep s y a s' hR hs'
    exact ⟨z, hxy.trans hyz, hR'⟩
  exact key

/-! ### Along one run -/

/-- `Q` holds of every state of the run. -/
def Always (step : σ → α → Option σ) (Q : σ → Prop) : σ → List α → Prop
  | s, [] => Q s
  | s, a :: as => Q s ∧ ∀ s', step s a = some s' → Always step Q s' as

/-- `P` holds of every step of the run: of the state before it and its action. -/
def Along (step : σ → α → Option σ) (P : σ → α → Prop) : σ → List α → Prop
  | _, [] => True
  | s, a :: as => P s a ∧ ∀ s', step s a = some s' → Along step P s' as

theorem run_back {B : σ → Prop} {as : List α} (hB : ∀ s a s', step s a = some s' → B s' → B s)
    (hrun : run step s as = some t) (ht : B t) : B s := by
  induction as generalizing s with
  | nil =>
    cases hrun
    exact ht
  | cons a as ih =>
    rw [run_cons] at hrun
    obtain ⟨s', hs', hrun'⟩ := Option.bind_eq_some_iff.1 hrun
    exact hB s a s' hs' (ih hrun')

/-- Where a step keeps `Q` exactly when it meets `P`, a run keeps `Q` exactly when all its steps meet `P`.  `B` is a
bound that holds all along a run once it holds at its end, `A` is what the actions of the run are, and `I` need only
be kept as long as `Q` is. -/
theorem always_iff_along_while {A : α → Prop} {B I Q : σ → Prop} {P : σ → α → Prop} {as : List α}
    (hB : ∀ s a s', step s a = some s' → B s' → B s)
    (hI : ∀ s a s', A a → B s' → I s → Q s → Q s' → step s a = some s' → I s')
    (hstep : ∀ s a s', A a → B s' → I s → Q s → step s a = some s' → (Q s' ↔ P s a))
    (hs : I s) (hQ : Q s) (has : ∀ a ∈ as, A a) (hrun : run step s as = some t) (ht : B t) :
    Always step Q s as ↔ Along step P s as := by
  induction as generalizing s with
  | nil => exact iff_of_true hQ trivial
  | cons a as ih =>
    rw [run_cons] at hrun
    obtain ⟨s', hs', hrun'⟩ := Option.bind_eq_some_iff.1 hrun
    have ha : A a := has a List.mem_cons_self
    have has' : ∀ a ∈ as, A a := fun b hb => has b (List.mem_cons_of_mem a hb)
    have hb : B s' := run_back hB hrun' ht
    have hiff := hstep s a s' ha hb hs hQ hs'
    have hhead : ∀ as, Always step Q s' as → Q s' := by
      intro as h
      cases as with
      | nil => exact h
      | cons b bs => exact h.1
    constructor
    · rintro ⟨-, hrest⟩
      have hQ' : Q s' := hhead as (hrest s' hs')
      refine ⟨hiff.1 hQ', fun u hu => ?_⟩
      rw [hs', Option.some_inj] at hu
      subst hu
      exact (ih (hI s a s' ha hb hs hQ hQ' hs') hQ' has' hrun').1 (hrest s' hs')
    · rintro ⟨hP, hrest⟩
      have hQ' : Q s' := hiff.2 hP
      refine ⟨hQ, fun u hu => ?_⟩
      rw [hs', Option.some_inj] at hu
      subst hu
      exact (ih (hI s a s' ha hb hs hQ hQ' hs') hQ' has' hrun').2 (hrest s' hs')

/-- What follows from an invariant holds of every state of a run. -/
theorem always_of_invariant {I Q : σ → Prop} (hI : ∀ s a s', I s → step s a = some s' → I s') (hQ : ∀ s, I s → Q s)
    (hs : I s) (as : List α) : Always step Q s as := by
  induction as generalizing s with
  | nil => exact hQ s hs
  | cons a as ih => exact ⟨hQ s hs, fun s' hs' => ih (hI s a s' hs hs')⟩

theorem Always.last {Q : σ → Prop} {as : List α} (h : Always step Q s as) (hrun : run step s as = some t) : Q t := by
  induction as generalizing s with
  | nil =>
    cases hrun
    exact h
  | cons a as ih =>
    rw [run_cons] at hrun
    obtain ⟨s', hs', hrun'⟩ := Option.bind_eq_some_iff.1 hrun
    exact ih (h.2 s' hs') hrun'

/-- A run whose steps all meet `P` keeps `Q`, where a step that meets `P` does. -/
theorem Along.always {A : α → Prop} {I Q : σ → Prop} {P : σ → α → Prop} {as : List α}
    (hstep : ∀ s a s', A a → I s → P s a → step s a = some s' → I s' ∧ Q s') (hs : I s) (hQ : Q s)
    (has : ∀ a ∈ as, A a) (h : Along step P s as) : Always step Q s as := by
  induction as generalizing s with
  | nil => exact hQ
  | cons a as ih =>
    refine ⟨hQ, fun s' hs' => ?_⟩
    obtain ⟨hI', hQ'⟩ := hstep s a s' (has a List.mem_cons_self) hs h.1 hs'
    exact ih hI' hQ' (fun b hb => has b (List.mem_cons_of_mem a hb)) (h.2 s' hs')

theorem always_iff_along_within {B I Q : σ → Prop} {P : σ → α → Prop} {as : List α}
    (hB : ∀ s a s', step s a = some s' → B s' → B s)
    (hI : ∀ s a s', B s' → I s → step s a = some s' → I s')
    (hstep : ∀ s a s', B s' → I s → Q s → step s a = some s' → (Q s' ↔ P s a))
    (hs : I s) (hQ : Q s) (hrun : run step s as = some t) (ht : B t) :
    Always step Q s as ↔ Along step P s as :=
  always_iff_along_while (A := fun _ => True) hB (fun s a s' _ hb h _ _ => hI s a s' hb h)
    (fun s a s' _ => hstep s a s') hs hQ (fun _ _ => trivial) hrun ht

/-- Where a step keeps `Q` exactly when it meets `P`, a run keeps `Q` exactly when all its steps meet `P`. -/
theorem always_iff_along {I Q : σ → Prop} {P : σ → α → Prop} {as : List α}
    (hI : ∀ s a s', I s → step s a = some s' → I s')
    (hstep : ∀ s a s', I s → Q s → step s a = some s' → (Q s' ↔ P s a))
    (hs : I s) (hQ : Q s) (hrun : (run step s as).isSome) : Always step Q s as ↔ Along step P s as := by
  obtain ⟨t, ht⟩ := Option.isSome_iff_exists.1 hrun
  exact always_iff_along_within (B := fun _ => True) (fun _ _ _ _ h => h) (fun s a s' _ => hI s a s')
    (fun s a s' _ => hstep s a s') hs hQ ht trivial

/-- `always_iff_along` for a system whose actions are always enabled, with an invariant that need only be kept as long
as `Q` is; `A` is what the actions of the run are. -/
theorem always_iff_along_total {A : α → Prop} {I Q : σ → Prop} {P : σ → α → Prop} {as : List α}
    (htotal : ∀ s a, (step s a).isSome)
    (hI : ∀ s a s', A a → I s → Q s → Q s' → step s a = some s' → I s')
    (hstep : ∀ s a s', A a → I s → Q s → step s a = some s' → (Q s' ↔ P s a))
    (hs : I s) (hQ : Q s) (has : ∀ a ∈ as, A a) : Always step Q s as ↔ Along step P s as := by
  obtain ⟨t, ht⟩ := Option.isSome_iff_exists.1 (run_isSome htotal s as)
  exact always_iff_along_while (B := fun _ => True) (fun _ _ _ _ h => h) (fun s a s' ha _ => hI s a s' ha)
    (fun s a s' ha _ => hstep s a s' ha) hs hQ has ht trivial

/-- Where a step leads into `Q` exactly from `Q` and with `P`, a run from `Q` ends in `Q` exactly when all its steps
meet `P`. -/
theorem end_iff_along {I Q : σ → Prop} {P : σ → α → Prop} {as : List α}
    (hI : ∀ s a s', I s → step s a = some s' → I s')
    (hstep : ∀ s a s', I s → step s a = some s' → (Q s' ↔ Q s ∧ P s a))
    (hs : I s) (hrun : run step s as = some t) : Q t ↔ Q s ∧ Along step P s as := by
  induction as generalizing s with
  | nil =>
    cases hrun
    exact (and_iff_left trivial).symm
  | cons a as ih =>
    rw [run_cons] at hrun
    obtain ⟨s', hs', hrun'⟩ := Option.bind_eq_some_iff.1 hrun
    rw [ih (hI s a s' hs hs') hrun', hstep s a s' hs hs', and_assoc]
    refine and_congr_right fun _ => and_congr_right fun _ => ?_
    constructor
    · intro h u hu
      rw [hs', Option.some_inj] at hu
      exact hu ▸ h
    · intro h
      exact h s' hs'

instance Along.decide (P : σ → α → Prop) [∀ s a, Decidable (P s a)] : (s : σ) → (as : List α) →
    Decidable (Along step P s as)
  | _, [] => .isTrue trivial
  | s, a :: as =>
    have : ∀ s', Decidable (Along step P s' as) := fun s' => Along.decide P s' as
    inferInstanceAs (Decidable (P s a ∧ ∀ s' ∈ step s a, Along step P s' as))

/-- A condition on the actions alone, where every action is always enabled. -/
theorem along_iff_forall {P : α → Prop} (htotal : ∀ s a, (step s a).isSome) {as : List α} :
    Along step (fun _ a => P a) s as ↔ ∀ a ∈ as, P a := by
  induction as generalizing s with
  | nil => exact iff_of_true trivial fun a ha => absurd ha List.not_mem_nil
  | cons a as ih =>
    obtain ⟨s', hs'⟩ := Option.isSome_iff_exists.1 (htotal s a)
    rw [List.forall_mem_cons]
    refine and_congr_right fun _ => ⟨fun h => ih.1 (h s' hs'), fun h u _ => ih.2 h⟩

/-- Conditions that agree wherever `I` holds agree along a run that keeps `I`. -/
theorem along_iff_along {I : σ → Prop} {P P' : σ → α → Prop} {as : List α}
    (hI : ∀ s a s', I s → step s a = some s' → I s') (hstep : ∀ s a, I s → (P s a ↔ P' s a)) (hs : I s) :
    Along step P s as ↔ Along step P' s as := by
  induction as generalizing s with
  | nil => exact Iff.rfl
  | cons a as ih =>
    refine and_congr (hstep s a hs) (forall_congr' fun s' => ?_)
    exact imp_congr_right fun hs' => ih (hI s a s' hs hs')

/-- Conditions that agree on the steps of a run agree along it; what they agree under need only be kept by the steps
that meet the first one.  `A` is what the actions of the run are. -/
theorem along_iff_along_while {A : α → Prop} {I : σ → Prop} {P P' : σ → α → Prop} {as : List α}
    (hI : ∀ s a s', A a → I s → P s a → step s a = some s' → I s')
    (hstep : ∀ s a s', A a → I s → step s a = some s' → (P s a ↔ P' s a)) (hs : I s) (has : ∀ a ∈ as, A a)
    (hrun : (run step s as).isSome) : Along step P s as ↔ Along step P' s as := by
  induction as generalizing s with
  | nil => exact Iff.rfl
  | cons a as ih =>
    obtain ⟨t, ht⟩ := Option.isSome_iff_exists.1 hrun
    rw [run_cons] at ht
    obtain ⟨s', hs', hrun'⟩ := Option.bind_eq_some_iff.1 ht
    have ha : A a := has a List.mem_cons_self
    have has' : ∀ a ∈ as, A a := fun b hb => has b (List.mem_cons_of_mem a hb)
    have hiff : P s a → (Along step P s' as ↔ Along step P' s' as) := fun hP =>
      ih (hI s a s' ha hs hP hs') has' (by rw [hrun']; rfl)
    constructor
    · rintro ⟨hP, hrest⟩
      refine ⟨(hstep s a s' ha hs hs').1 hP, fun u hu => ?_⟩
      rw [hs', Option.some_inj] at hu
      subst hu
      exact (hiff hP).1 (hrest s' hs')
    · rintro ⟨hP', hrest⟩
      have hP : P s a := (hstep s a s' ha hs hs').2 hP'
      refine ⟨hP, fun u hu => ?_⟩
      rw [hs', Option.some_inj] at hu
      subst hu
      exact (hiff hP).2 (hrest s' hs')

theorem Along.left {P : σ → α → Prop} {as bs : List α} (h : Along step P s (as ++ bs)) : Along step P s as := by
  induction as generalizing s with
  | nil => exact trivial
  | cons a as ih => exact ⟨h.1, fun s' hs' => ih (h.2 s' hs')⟩

theorem Along.right {P : σ → α → Prop} {as bs : List α} (h : Along step P s (as ++ bs))
    (hrun : run step s as = some t) : Along step P t bs := by
  induction as generalizing s with
  | nil =>
    cases hrun
    exact h
  | cons a as ih =>
    rw [run_cons] at hrun
    obtain ⟨s', hs', hrun'⟩ := Option.bind_eq_some_iff.1 hrun
    exact ih (h.2 s' hs') hrun'

theorem Along.append {P : σ → α → Prop} {as bs : List α} (h : Along step P s as)
    (h' : ∀ t, run step s as = some t → Along step P t bs) : Along step P s (as ++ bs) := by
  induction as generalizing s with
  | nil => exact h' s rfl
  | cons a as ih =>
    refine ⟨h.1, fun s' hs' => ih (h.2 s' hs') fun t ht => h' t ?_⟩
    rw [run_cons, hs']
    exact ht

/-- A preorder that every step with `P` respects relates the two ends of a run of such steps. -/
theorem Along.relates {P : σ → α → Prop} {R : σ → σ → Prop} {as : List α} (hrefl : ∀ s, R s s)
    (htrans : ∀ s t u, R s t → R t u → R s u) (hstep : ∀ s a s', P s a → step s a = some s' → R s s')
    (h : Along step P s as) (hrun : run step s as = some t) : R s t := by
  induction as generalizing s with
  | nil =>
    cases hrun
    exact hrefl _
  | cons a as ih =>
    rw [run_cons] at hrun
    obtain ⟨s', hs', hrun'⟩ := Option.bind_eq_some_iff.1 hrun
    exact htrans _ _ _ (hstep s a s' h.1 hs') (ih (h.2 s' hs') hrun')

/-- What every step with `P` keeps is kept by a run of such steps. -/
theorem Along.invariant {P : σ → α → Prop} {I : σ → Prop} {as : List α}
    (hstep : ∀ s a s', P s a → I s → step s a = some s' → I s') (h : Along step P s as)
    (hrun : run step s as = some t) (hs : I s) : I t :=
  h.relates (R := fun s t => I s → I t) (fun _ => id) (fun _ _ _ hst htu => htu ∘ hst)
    (fun s a s' ha hs' hI => hstep s a s' ha hI hs') hrun hs

end Lts
