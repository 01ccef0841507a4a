import Mathlib.Data.Fintype.Basic
import Mathlib.Data.List.Pairwise
import Mathlib.Data.Set.BooleanAlgebra
import Mathlib.Data.Set.Disjoint
import Mathlib.Order.CompletePartialOrder

/-!
# Actions with a footprint

A store is looked up location by location.  An action on it reads some locations and writes some, and two actions
whose footprints do not meet can be exchanged (`Independent.comm`).  So a run of actions may be carried out in another
order as long as only independent ones are exchanged: the ones with a property first (`runAll_partition`), or in
phases (`runAll_byPhase`).
-/

namespace Footprint

variable {σ Loc Val : Type*} {get : σ → Loc → Val}

/-- An action that leaves alone what is not in `writes`, and does with a location what only depends on it and on
`reads`. -/
structure Action (get : σ → Loc → Val) where
  run : σ → σ
  reads : Set Loc
  writes : Set Loc
  frame : ∀ s l, l ∉ writes → get (run s) l = get s l
  sound : ∀ s s' l, (∀ x ∈ reads, get s x = get s' x) → get s l = get s' l → get (run s) l = get (run s') l

/-- Neither action writes what the other reads or writes. -/
structure Independent (a b : Action get) : Prop where
  writes : Disjoint a.writes b.writes
  left : Disjoint a.writes b.reads
  right : Disjoint b.writes a.reads

theorem Independent.symm {a b : Action get} (h : Independent a b) : Independent b a :=
  ⟨h.writes.symm, h.right, h.left⟩

/-- Where an independent action does not write, the other one does not notice it. -/
theorem Independent.get_run {a b : Action get} (h : Independent a b) (s : σ) {l : Loc} (hl : l ∉ b.writes) :
    get (a.run (b.run s)) l = get (a.run s) l := by
  refine a.sound _ _ l (fun x hx => b.frame s x ?_) (b.frame s l hl)
  intro hxb
  exact Set.disjoint_left.1 h.right hxb hx

theorem Independent.comm (hget : Function.Injective get) {a b : Action get} (h : Independent a b) (s : σ) :
    a.run (b.run s) = b.run (a.run s) := by
  apply hget
  funext l
  by_cases hb : l ∈ b.writes
  · -- then `a` leaves it alone, before or after
    have ha : l ∉ a.writes := fun ha => Set.disjoint_left.1 h.writes ha hb
    rw [a.frame _ l ha, h.symm.get_run s ha]
  · rw [h.get_run s hb, b.frame _ l hb]

/-! ### Moves -/

/-- Between two stores each destination has got what its source held, and no other location has changed. -/
structure Moved (get : σ → Loc → Val) (moves : Loc → Loc → Prop) (s s' : σ) : Prop where
  moved : ∀ d x, moves d x → get s' d = get s x
  kept : ∀ l, (∀ x, ¬ moves l x) → get s' l = get s l

theorem Moved.congr {moves moves' : Loc → Loc → Prop} {s s' : σ} (h : Moved get moves s s')
    (hmoves : ∀ d x, moves d x ↔ moves' d x) : Moved get moves' s s' where
  moved d x hd := h.moved d x ((hmoves d x).2 hd)
  kept l hl := h.kept l fun x hx => hl x ((hmoves l x).1 hx)

/-- Some moves have been made one after another. -/
def MovedAll (get : σ → Loc → Val) : List (Loc → Loc → Prop) → σ → σ → Prop
  | [], s, s' => s' = s
  | moves :: rest, s, s' => ∃ t, Moved get moves s t ∧ MovedAll get rest t s'

theorem movedAll_foldl {α : Type*} {f : σ → α → σ} {moves : α → Loc → Loc → Prop} {l : List α}
    (h : ∀ a ∈ l, ∀ s, Moved get (moves a) s (f s a)) (s : σ) : MovedAll get (l.map moves) s (l.foldl f s) := by
  induction l generalizing s with
  | nil => rfl
  | cons a l ih =>
    obtain ⟨ha, hl⟩ := List.forall_mem_cons.1 h
    exact ⟨f s a, ha s, ih hl (f s a)⟩

/-! ### Runs -/

section Runs

variable {α : Type*} (act : α → Action get)

/-- The actions of some items, one after another. -/
def runAll (items : List α) (s : σ) : σ := items.foldl (fun s a => (act a).run s) s

@[simp] theorem runAll_nil (s : σ) : runAll act [] s = s := rfl

@[simp] theorem runAll_cons (a : α) (l : List α) (s : σ) : runAll act (a :: l) s = runAll act l ((act a).run s) := rfl

theorem runAll_append (l l' : List α) (s : σ) : runAll act (l ++ l') s = runAll act l' (runAll act l s) :=
  List.foldl_append

/-- What no action writes stays. -/
theorem runAll_frame {l : List α} {x : Loc} (h : ∀ a ∈ l, x ∉ (act a).writes) (s : σ) :
    get (runAll act l s) x = get s x := by
  induction l generalizing s with
  | nil => rfl
  | cons a l ih =>
    obtain ⟨ha, hl⟩ := List.forall_mem_cons.1 h
    rw [runAll_cons, ih hl, (act a).frame s x ha]

variable {act}

/-- Of independent actions each has its own effect on what it writes. -/
theorem runAll_written {l : List α} (h : l.Pairwise fun a b => Independent (act a) (act b)) {a : α}
    (ha : a ∈ l) {x : Loc} (hx : x ∈ (act a).writes) (s : σ) : get (runAll act l s) x = get ((act a).run s) x := by
  induction l generalizing s with
  | nil => cases ha
  | cons b l ih =>
    obtain ⟨hb, hl⟩ := List.pairwise_cons.1 h
    rw [runAll_cons]
    rcases List.mem_cons.1 ha with rfl | hmem
    · exact runAll_frame act (fun c hc hxc => Set.disjoint_left.1 (hb c hc).writes hx hxc) _
    · rw [ih hl hmem]
      exact (hb a hmem).symm.get_run s fun hxb => Set.disjoint_left.1 (hb a hmem).writes hxb hx

/-- An action is put off until after independent ones. -/
theorem runAll_move (hget : Function.Injective get) {a : α} {l l' : List α}
    (h : ∀ b ∈ l, Independent (act a) (act b)) (s : σ) :
    runAll act (l ++ a :: l') s = runAll act (a :: (l ++ l')) s := by
  induction l generalizing s with
  | nil => rfl
  | cons b l ih =>
    obtain ⟨hb, hl⟩ := List.forall_mem_cons.1 h
    rw [List.cons_append, runAll_cons, ih hl]
    simp [hb.comm hget]

/-- The items with a property can go first. -/
theorem runAll_partition (hget : Function.Injective get) {p : α → Bool} {l : List α}
    (h : l.Pairwise fun a b => p a = false → p b = true → Independent (act a) (act b)) (s : σ) :
    runAll act (l.filter p ++ l.filter fun a => !p a) s = runAll act l s := by
  induction l generalizing s with
  | nil => rfl
  | cons a l ih =>
    obtain ⟨ha, hl⟩ := List.pairwise_cons.1 h
    cases hp : p a with
    | true => simp [hp, ih hl]
    | false =>
      have hmove : ∀ b ∈ l.filter p, Independent (act a) (act b) := by
        intro b hb
        obtain ⟨hmem, hpb⟩ := List.mem_filter.1 hb
        exact ha b hmem hp hpb
      have hhead : (a :: l).filter p = l.filter p := by simp [hp]
      have htail : ((a :: l).filter fun a => !p a) = a :: l.filter fun a => !p a := by simp [hp]
      rw [hhead, htail, runAll_move hget hmove, runAll_cons, ih hl, runAll_cons]

/-- The items of the phases below `n`, phase by phase. -/
def byPhase (phase : α → Nat) (l : List α) (n : Nat) : List α :=
  (List.range n).flatMap fun k => l.filter (phase · == k)

theorem byPhase_succ (phase : α → Nat) (l : List α) (n : Nat) :
    byPhase phase l (n + 1) = byPhase phase l n ++ l.filter (phase · == n) := by
  rw [byPhase, List.range_succ, List.flatMap_append, List.flatMap_singleton, byPhase]

/-- Items can be carried out phase by phase if those that change their order are independent. -/
theorem runAll_byPhase (hget : Function.Injective get) {phase : α → Nat} {l : List α}
    (h : l.Pairwise fun a b => phase b < phase a → Independent (act a) (act b)) {n : Nat} (hn : ∀ a ∈ l, phase a < n)
    (s : σ) : runAll act (byPhase phase l n) s = runAll act l s := by
  -- up to any phase, with the later ones behind in their order
  have hrest : ∀ k s, runAll act (byPhase phase l k ++ l.filter fun a => decide (k ≤ phase a)) s =
    runAll act l s := by
    intro k
    induction k with
    | zero =>
      intro s
      have hall : (l.filter fun a => decide (0 ≤ phase a)) = l := by simp
      rw [hall]
      rfl
    | succ k ih =>
      intro s
      have hthis : l.filter (phase · == k) = (l.filter fun a => decide (k ≤ phase a)).filter (phase · == k) := by
        rw [List.filter_filter]
        refine List.filter_congr fun a _ => ?_
        by_cases hk : phase a = k
        · simp [hk]
        · simp [hk]
      have hlater : (l.filter fun a => decide (k + 1 ≤ phase a)) =
          (l.filter fun a => decide (k ≤ phase a)).filter fun a => !(phase a == k) := by
        rw [List.filter_filter]
        refine List.filter_congr fun a _ => ?_
        by_cases hk : phase a = k
        · simp [hk]
        · have hle : k + 1 ≤ phase a ↔ k ≤ phase a := by omega
          simp [hk, hle]
      have hpairs : (l.filter fun a => decide (k ≤ phase a)).Pairwise fun a b =>
          (phase a == k) = false → (phase b == k) = true → Independent (act a) (act b) := by
        refine (h.filter _).imp_of_mem fun {a b} ha _ hab hak hbk => hab ?_
        have hle : k ≤ phase a := of_decide_eq_true (List.mem_filter.1 ha).2
        have hne : phase a ≠ k := fun heq => Bool.false_ne_true (hak.symm.trans (beq_iff_eq.2 heq))
        have heq : phase b = k := beq_iff_eq.1 hbk
        omega
      rw [byPhase_succ, List.append_assoc, runAll_append, hthis, hlater, runAll_partition hget hpairs,
        ← runAll_append, ih]
  have hnone : (l.filter fun a => decide (n ≤ phase a)) = [] := by
    rw [List.filter_eq_nil_iff]
    intro a ha
    have hlt := hn a ha
    simp
    omega
  have hall := hrest n s
  rw [hnone, List.append_nil] at hall
  exact hall

end Runs

end Footprint
