import Infinigpu.Lib.Arena
import Mathlib.Data.List.Perm.Basic
import Mathlib.Logic.Function.Basic

/-!
# Bodies under a scope guard

A body makes objects one after another and puts their handles into the slots of a guard; any step of it may fail.
When the body ends, in whatever way, the guard destroys what its slots hold.  `Handles` has a flag that is cleared by
a destruction or a use of a handle that does not name a live object of the right kind.

* `Meets`: what a body ensures when it ends and when it fails, with its rules;
* `Holds`: every live object is in a slot, loose (made and in no slot yet), or of others;
* `Holds.close`: what is left when the guard is dropped: the loose objects and those of others.
-/

namespace Guard

variable {K S τ E α β : Type}

/-! ### Handles -/

structure Handles (K : Type) where
  objects : Arena K
  /-- Every handle that was used or destroyed named a live object of its kind. -/
  sound : Bool

namespace Handles

def new : Handles K := ⟨.new, true⟩

def create (k : K) (s : Handles K) : Handles K := { s with objects := s.objects.alloc k }

variable [DecidableEq K]

def names (s : Handles K) (u : Nat × K) : Bool := s.objects.live u.1 = some u.2

def use (us : List (Nat × K)) (s : Handles K) : Handles K := { s with sound := s.sound && us.all s.names }

def destroy (s : Handles K) (u : Nat × K) : Handles K where
  objects := s.objects.free u.1
  sound := s.sound && s.names u

def destroyAll (us : List (Nat × K)) (s : Handles K) : Handles K := us.foldl destroy s

omit [DecidableEq K] in
/-- The live objects are those in the list, each once, and no handle was misused. -/
structure Owned (l : List (Nat × K)) (s : Handles K) : Prop where
  sound : s.sound = true
  owners : s.objects.Owners (l.map Prod.fst)
  live : ∀ u ∈ l, s.objects.live u.1 = some u.2

variable {l l' us : List (Nat × K)} {s : Handles K} {u : Nat × K}

omit [DecidableEq K] in
theorem owned_new : Owned [] (new : Handles K) := ⟨rfl, Arena.owners_new, fun _ h => nomatch h⟩

omit [DecidableEq K] in
theorem Owned.perm (h : Owned l s) (hperm : l.Perm l') : Owned l' s where
  sound := h.sound
  owners := h.owners.perm (hperm.map Prod.fst)
  live u hu := h.live u (hperm.mem_iff.2 hu)

omit [DecidableEq K] in
theorem Owned.create (h : Owned l s) (k : K) : Owned ((s.objects.made, k) :: l) (s.create k) where
  sound := h.sound
  owners := h.owners.alloc k
  live u hu := by
    rcases List.mem_cons.1 hu with rfl | hu
    · exact Arena.live_alloc k s.objects
    · exact Arena.live_alloc_of_live (h.live u hu) k

theorem Owned.names (h : Owned l s) (hu : u ∈ l) : s.names u = true := decide_eq_true (h.live u hu)

theorem Owned.use (h : Owned l s) (hus : us ⊆ l) : s.use us = s := by
  have hall : us.all s.names = true := List.all_eq_true.2 fun u hu => h.names (hus hu)
  unfold Handles.use
  rw [hall, Bool.and_true]

theorem Owned.destroy (h : Owned (u :: l) s) : Owned l (s.destroy u) where
  sound := by
    show (s.sound && s.names u) = true
    rw [h.sound, h.names List.mem_cons_self]
    rfl
  owners := h.owners.free
  live v hv := by
    have hne : v.1 ≠ u.1 := by
      intro heq
      have hnodup := (List.nodup_cons.1 h.owners.nodup).1
      exact hnodup (heq ▸ List.mem_map_of_mem hv)
    exact (Arena.live_free_of_ne hne).trans (h.live v (List.mem_cons_of_mem u hv))

theorem Owned.destroyAll (h : Owned (us ++ l) s) : Owned l (s.destroyAll us) := by
  induction us generalizing s with
  | nil => exact h
  | cons u us ih => exact ih h.destroy

end Handles

/-! ### Bodies -/

/-- The state of a body; `rest` is what it works on besides. -/
structure Scope (S K τ : Type) where
  handles : Handles K
  held : S → Option Nat
  rest : τ

abbrev Body (S K τ E α : Type) := EStateM E (Scope S K τ) α

section Steps

variable [DecidableEq K] [DecidableEq S]

/-- A call of the driver that is given these objects. -/
def call (ok : E → Bool) (e : E) (us : List (Nat × K)) : Body S K τ E Unit := fun s =>
  let s := { s with handles := s.handles.use us }
  if ok e then .ok () s else .error e s

/-- A call of the driver that makes an object. -/
def create (ok : E → Bool) (e : E) (k : K) (us : List (Nat × K)) : Body S K τ E Nat := fun s =>
  let s := { s with handles := s.handles.use us }
  if ok e then .ok s.handles.objects.made { s with handles := s.handles.create k } else .error e s

/-- A call of the driver that is given these objects and cannot fail. -/
def touch (us : List (Nat × K)) : Body S K τ E Unit := fun s => .ok () { s with handles := s.handles.use us }

def destroy (u : Nat × K) : Body S K τ E Unit := fun s => .ok () { s with handles := s.handles.destroy u }

def destroyAll (us : List (Nat × K)) : Body S K τ E Unit := fun s =>
  .ok () { s with handles := s.handles.destroyAll us }

/-- Puts a handle into a slot. -/
def register (slot : S) (h : Nat) : Body S K τ E Unit := fun s =>
  .ok () { s with held := Function.update s.held slot (some h) }

/-- Makes an object and puts it into a slot at once. -/
def acquire (kindOf : S → K) (ok : E → Bool) (e : E) (slot : S) (us : List (Nat × K)) : Body S K τ E Nat := do
  let h ← create ok e (kindOf slot) us
  register slot h
  return h

/-- Empties the slots: what they held is someone else's now. -/
def disarm : Body S K τ E Unit := fun s => .ok () { s with held := fun _ => none }

/-- What is done where the body fails. -/
def onFailure (m : Body S K τ E α) (cleanup : Body S K τ E Unit) : Body S K τ E α := fun s =>
  match m s with
  | .ok a s => .ok a s
  | .error e s =>
    match cleanup s with
    | .ok _ s => .error e s
    | .error e s => .error e s

/-- Looks at what the body works on besides. -/
def inspect (f : τ → β) : Body S K τ E β := fun s => .ok (f s.rest) s

/-- A step on what the body works on besides. -/
def onRest (f : τ → τ) : Body S K τ E Unit := fun s => .ok () { s with rest := f s.rest }

/-- Destroys objects that the body works on besides. -/
def drain (us : τ → List (Nat × K)) (f : τ → τ) : Body S K τ E Unit := fun s =>
  .ok () { s with handles := s.handles.destroyAll (us s.rest), rest := f s.rest }

/-- `drain` where the body works on something full. -/
def drainWhen (full : τ → Bool) (us : τ → List (Nat × K)) (f : τ → τ) : Body S K τ E Unit := fun s =>
  if full s.rest then drain us f s else .ok () s

/-- The guard is dropped: what its slots hold is destroyed in this order. -/
def close (kindOf : S → K) (order : List S) (s : Scope S K τ) : Handles K :=
  s.handles.destroyAll (order.filterMap fun slot => (s.held slot).map fun h => (h, kindOf slot))

/-- Runs a body under a guard. -/
def guarded (kindOf : S → K) (order : List S) (body : Body S K τ E α) (handles : Handles K) (rest : τ) :
    Except E α × Handles K × τ :=
  match body { handles, held := fun _ => none, rest } with
  | .ok a s => (.ok a, close kindOf order s, s.rest)
  | .error e s => (.error e, close kindOf order s, s.rest)

/-- A body with a guard of its own. -/
def nested {S' : Type} [DecidableEq S'] (kindOf : S' → K) (order : List S') (body : Body S' K τ E α) :
    Body S K τ E α := fun s =>
  match guarded kindOf order body s.handles s.rest with
  | (.ok a, handles, rest) => .ok a { s with handles, rest }
  | (.error e, handles, rest) => .error e { s with handles, rest }

end Steps

/-! ### Rules -/

/-- From a state with `P` the body ends in one with `Q` of its result, or fails in one with `R` of the error. -/
def Meets {σ : Type} (P : σ → Prop) (m : EStateM E σ α) (Q : α → σ → Prop) (R : E → σ → Prop) : Prop :=
  ∀ s, P s →
    match m s with
    | .ok a s' => Q a s'
    | .error e s' => R e s'

section

variable {σ : Type} {P P' : σ → Prop} {m : EStateM E σ α} {f : α → EStateM E σ β} {Q Q' : α → σ → Prop}
  {U : β → σ → Prop} {R : E → σ → Prop}

theorem Meets.pure {a : α} (h : ∀ s, P s → Q a s) : Meets P (pure a : EStateM E σ α) Q R := h

theorem Meets.bind (h : Meets P m Q R) (hf : ∀ a, Meets (Q a) (f a) U R) : Meets P (m >>= f) U R := by
  intro s hs
  have hm := h s hs
  show match EStateM.bind m f s with
    | .ok b s' => U b s'
    | .error e s' => R e s'
  unfold EStateM.bind
  split
  · rename_i b s' hb
    split at hb
    · rename_i a s₁ ha
      rw [ha] at hm
      have hfa := hf a s₁ hm
      rw [hb] at hfa
      exact hfa
    · cases hb
  · rename_i e s' he
    split at he
    · rename_i a s₁ ha
      rw [ha] at hm
      have hfa := hf a s₁ hm
      rw [he] at hfa
      exact hfa
    · rename_i e' s₁ he'
      rw [he'] at hm
      cases he
      exact hm

/-- What is known of the state before, whatever the witness. -/
theorem Meets.exists {ι : Type} {P : ι → σ → Prop} (h : ∀ i, Meets (P i) m Q R) :
    Meets (fun s => ∃ i, P i s) m Q R := by
  rintro s ⟨i, hi⟩
  exact h i s hi

theorem Meets.and {p : Prop} (h : p → Meets P m Q R) : Meets (fun s => p ∧ P s) m Q R := by
  rintro s ⟨hp, hs⟩
  exact h hp s hs

/-- What the state before tells. -/
theorem Meets.given {p : Prop} (hp : ∀ s, P s → p) (h : p → Meets P m Q R) : Meets P m Q R :=
  fun s hs => h (hp s hs) s hs

theorem Meets.pre (h : Meets P m Q R) (hP : ∀ s, P' s → P s) : Meets P' m Q R := fun s hs => h s (hP s hs)

theorem Meets.post (h : Meets P m Q R) (hQ : ∀ a s, Q a s → Q' a s) : Meets P m Q' R := by
  intro s hs
  have hm := h s hs
  split
  · rename_i a s' ha
    rw [ha] at hm
    exact hQ a s' hm
  · rename_i e s' he
    rw [he] at hm
    exact hm

theorem Meets.failed {R' : E → σ → Prop} (h : Meets P m Q R) (hR : ∀ e s, R e s → R' e s) : Meets P m Q R' := by
  intro s hs
  have hm := h s hs
  split
  · rename_i a s' ha
    rw [ha] at hm
    exact hm
  · rename_i e s' he
    rw [he] at hm
    exact hR e s' hm

end

/-! ### What a guard holds -/

section Holding

variable [DecidableEq S]

/-- The slots with these handles in them. -/
def holding : List (S × Nat) → S → Option Nat
  | [], _ => none
  | (slot, h) :: reg, s => if s = slot then some h else holding reg s

theorem update_holding (reg : List (S × Nat)) (slot : S) (h : Nat) :
    Function.update (holding reg) slot (some h) = holding ((slot, h) :: reg) := by
  funext s
  rw [Function.update_apply]
  rfl

/-- The objects in the slots. -/
def objects (kindOf : S → K) (reg : List (S × Nat)) : List (Nat × K) := reg.map fun r => (r.2, kindOf r.1)

omit [DecidableEq S] in
theorem objects_append (kindOf : S → K) (reg reg' : List (S × Nat)) :
    objects kindOf (reg ++ reg') = objects kindOf reg ++ objects kindOf reg' := List.map_append

/-- What the guard finds in its slots is what was put in. -/
theorem filterMap_holding (kindOf : S → K) {order : List S} {reg : List (S × Nat)} (horder : order.Nodup)
    (hreg : (reg.map Prod.fst).Nodup) (hsub : reg.map Prod.fst ⊆ order) :
    (order.filterMap fun slot => (holding reg slot).map fun h => (h, kindOf slot)).Perm (objects kindOf reg) := by
  induction reg generalizing order with
  | nil =>
    have hnone : (order.filterMap fun slot => (holding [] slot).map fun h => (h, kindOf slot)) = [] :=
      List.filterMap_eq_nil_iff.2 fun _ _ => rfl
    rw [hnone]
    exact List.Perm.refl _
  | cons r reg ih =>
    obtain ⟨slot, h⟩ := r
    rw [List.map_cons, List.nodup_cons] at hreg
    have hmem : slot ∈ order := hsub List.mem_cons_self
    have htail : (order.erase slot).filterMap (fun s => (holding ((slot, h) :: reg) s).map fun h => (h, kindOf s)) =
        (order.erase slot).filterMap fun s => (holding reg s).map fun h => (h, kindOf s) := by
      refine List.filterMap_congr fun s hs => ?_
      have hne : s ≠ slot := fun heq => horder.not_mem_erase (heq ▸ hs)
      rw [holding, if_neg hne]
    have hrest := ih (horder.erase slot) hreg.2 fun s hs => by
      have hne : s ≠ slot := fun heq => hreg.1 (heq ▸ hs)
      exact (List.mem_erase_of_ne hne).2 (hsub (List.mem_cons_of_mem _ hs))
    refine ((List.perm_cons_erase hmem).filterMap _).trans ?_
    have hhead : (holding ((slot, h) :: reg) slot).map (fun h => (h, kindOf slot)) = some (h, kindOf slot) := by
      rw [holding, if_pos rfl]
      rfl
    rw [List.filterMap_cons, hhead, htail]
    exact hrest.cons _

/-- Every live object is loose, in a slot, or one of the others. -/
structure Holds (kindOf : S → K) (I : τ → Prop) (l : τ → List (Nat × K)) (loose : List (Nat × K))
    (reg : List (S × Nat)) (s : Scope S K τ) : Prop where
  owned : s.handles.Owned (loose ++ objects kindOf reg ++ l s.rest)
  held : s.held = holding reg
  distinct : (reg.map Prod.fst).Nodup
  rest : I s.rest

variable {kindOf : S → K} {I I' : τ → Prop} {l : τ → List (Nat × K)} {loose : List (Nat × K)} {reg : List (S × Nat)}
  {s : Scope S K τ}

theorem Holds.perm {loose' : List (Nat × K)} (h : Holds kindOf I l loose reg s) (hperm : loose.Perm loose') :
    Holds kindOf I l loose' reg s :=
  { h with owned := h.owned.perm ((hperm.append_right _).append_right _) }

theorem Holds.swap {u v : Nat × K} (h : Holds kindOf I l (u :: v :: loose) reg s) :
    Holds kindOf I l (v :: u :: loose) reg s :=
  h.perm (List.Perm.swap v u loose)

theorem Holds.mono (h : Holds kindOf I l loose reg s) (hI : ∀ r, I r → I' r) : Holds kindOf I' l loose reg s :=
  { h with rest := hI _ h.rest }

variable [DecidableEq K]

/-- What is left when the guard is dropped. -/
theorem Holds.close {order : List S} (h : Holds kindOf I l loose reg s) (horder : order.Nodup)
    (hsub : reg.map Prod.fst ⊆ order) : (close kindOf order s).Owned (loose ++ l s.rest) := by
  have hperm := filterMap_holding kindOf horder h.distinct hsub
  unfold Guard.close
  rw [h.held]
  refine Handles.Owned.destroyAll (h.owned.perm ?_)
  rw [← List.append_assoc]
  exact (List.perm_append_comm.trans (hperm.symm.append_right loose)).append_right (l s.rest)

end Holding

/-! ### Steps of a body -/

section StepRules

variable [DecidableEq S] [DecidableEq K] {kindOf : S → K} {I I' : τ → Prop} {l : τ → List (Nat × K)}
  {loose : List (Nat × K)} {reg : List (S × Nat)} {ok : E → Bool} {e : E} {us : List (Nat × K)}
  {R : E → Scope S K τ → Prop}

omit [DecidableEq S] [DecidableEq K] in
/-- What the body made may be used. -/
theorem usable (hus : us ⊆ loose ++ objects kindOf reg) (r : τ) (_ : I r) : us ⊆ loose ++ objects kindOf reg ++ l r :=
  fun _ hu => List.mem_append_left _ (hus hu)

theorem call_meets (hus : ∀ r, I r → us ⊆ loose ++ objects kindOf reg ++ l r)
    (hR : ∀ s, Holds kindOf I l loose reg s → R e s) :
    Meets (Holds kindOf I l loose reg) (call ok e us) (fun _ => Holds kindOf I l loose reg) R := by
  intro s hs
  unfold call
  simp only
  rw [hs.owned.use (hus _ hs.rest)]
  cases ok e with
  | true => exact hs
  | false => exact hR s hs

theorem create_meets {k : K} (hus : ∀ r, I r → us ⊆ loose ++ objects kindOf reg ++ l r)
    (hR : ∀ s, Holds kindOf I l loose reg s → R e s) :
    Meets (Holds kindOf I l loose reg) (create ok e k us) (fun h => Holds kindOf I l ((h, k) :: loose) reg) R := by
  intro s hs
  unfold create
  simp only
  rw [hs.owned.use (hus _ hs.rest)]
  cases ok e with
  | true => exact ⟨hs.owned.create k, hs.held, hs.distinct, hs.rest⟩
  | false => exact hR s hs

theorem touch_meets (hus : ∀ r, I r → us ⊆ loose ++ objects kindOf reg ++ l r) :
    Meets (Holds kindOf I l loose reg) (touch us) (fun _ => Holds kindOf I l loose reg) R := by
  intro s hs
  unfold touch
  simp only
  rw [hs.owned.use (hus _ hs.rest)]
  exact hs

theorem destroy_meets {u : Nat × K} :
    Meets (Holds kindOf I l (u :: loose) reg) (destroy u) (fun _ => Holds kindOf I l loose reg) R :=
  fun _ hs => ⟨hs.owned.destroy, hs.held, hs.distinct, hs.rest⟩

theorem destroyAll_meets :
    Meets (Holds kindOf I l (us ++ loose) reg) (destroyAll us) (fun _ => Holds kindOf I l loose reg) R := by
  intro s hs
  refine ⟨Handles.Owned.destroyAll (hs.owned.perm ?_), hs.held, hs.distinct, hs.rest⟩
  rw [List.append_assoc us, List.append_assoc us]

variable (kindOf) in
omit [DecidableEq K] in
theorem register_meets (slot : S) {h : Nat} (hslot : slot ∉ reg.map Prod.fst) :
    Meets (Holds kindOf I l ((h, kindOf slot) :: loose) reg) (register slot h)
      (fun _ => Holds kindOf I l loose ((slot, h) :: reg)) R := by
  intro s hs
  refine ⟨hs.owned.perm ?_, ?_, ?_, hs.rest⟩
  · exact (List.perm_middle.symm).append_right (l s.rest)
  · show Function.update s.held slot (some h) = _
    rw [hs.held, update_holding]
  · exact List.nodup_cons.2 ⟨hslot, hs.distinct⟩

theorem acquire_meets {slot : S} (hus : ∀ r, I r → us ⊆ loose ++ objects kindOf reg ++ l r)
    (hslot : slot ∉ reg.map Prod.fst) (hR : ∀ s, Holds kindOf I l loose reg s → R e s) :
    Meets (Holds kindOf I l loose reg) (acquire kindOf ok e slot us)
      (fun h => Holds kindOf I l loose ((slot, h) :: reg)) R :=
  (create_meets hus hR).bind fun _ => (register_meets kindOf slot hslot).bind fun _ => .pure fun _ hs => hs

omit [DecidableEq K] in
theorem disarm_meets :
    Meets (Holds kindOf I l loose reg) disarm (fun _ => Holds kindOf I l (loose ++ objects kindOf reg) []) R := by
  intro s hs
  refine ⟨?_, rfl, List.nodup_nil, hs.rest⟩
  show s.handles.Owned (loose ++ objects kindOf reg ++ [] ++ l s.rest)
  rw [List.append_nil]
  exact hs.owned

omit [DecidableEq K] in
theorem throw_meets {Q : α → Scope S K τ → Prop} (hR : ∀ s, Holds kindOf I l loose reg s → R e s) :
    Meets (Holds kindOf I l loose reg) (throw e) Q R := hR

omit [DecidableEq S] [DecidableEq K] in
/-- A cleanup that cannot fail. -/
theorem onFailure_meets {P : Scope S K τ → Prop} {m : Body S K τ E α} {cleanup : Body S K τ E Unit}
    {Q : α → Scope S K τ → Prop} {F : E → Scope S K τ → Prop} (hm : Meets P m Q F)
    (hcleanup : ∀ e, Meets (F e) cleanup (fun _ => R e) fun _ _ => False) : Meets P (onFailure m cleanup) Q R := by
  intro s hs
  have hs' := hm s hs
  unfold onFailure
  cases hres : m s with
  | ok a s₁ =>
    rw [hres] at hs'
    exact hs'
  | error e s₁ =>
    rw [hres] at hs'
    have hclean := hcleanup e s₁ hs'
    cases hres' : cleanup s₁ with
    | ok a s₂ =>
      rw [hres'] at hclean
      simp only [hres']
      exact hclean
    | error e' s₂ =>
      rw [hres'] at hclean
      exact hclean.elim

omit [DecidableEq K] in
theorem inspect_meets {f : τ → β} :
    Meets (Holds kindOf I l loose reg) (inspect f) (fun b => Holds kindOf (fun r => I r ∧ f r = b) l loose reg) R :=
  fun _ hs => { hs with rest := ⟨hs.rest, rfl⟩ }

omit [DecidableEq K] in
/-- Loose objects are handed over, and others become loose. -/
theorem onRest_trades (I' : τ → Prop) {f : τ → τ} (given taken : List (Nat × K))
    (hf : ∀ r, I r → I' (f r) ∧ (given ++ l r).Perm (taken ++ l (f r))) :
    Meets (Holds kindOf I l (given ++ loose) reg) (onRest f) (fun _ => Holds kindOf I' l (taken ++ loose) reg) R := by
  intro s hs
  obtain ⟨hI', hperm⟩ := hf s.rest hs.rest
  refine ⟨hs.owned.perm ?_, hs.held, hs.distinct, hI'⟩
  calc
    (given ++ loose ++ objects kindOf reg ++ l s.rest).Perm
        (loose ++ objects kindOf reg ++ (given ++ l s.rest)) := by
      rw [List.append_assoc given, List.append_assoc given]
      exact List.perm_append_comm_assoc _ _ _
    List.Perm _ (loose ++ objects kindOf reg ++ (taken ++ l (f s.rest))) := hperm.append_left _
    List.Perm _ (taken ++ loose ++ objects kindOf reg ++ l (f s.rest)) := by
      rw [List.append_assoc taken, List.append_assoc taken]
      exact List.perm_append_comm_assoc _ _ _

omit [DecidableEq K] in
theorem onRest_gives {f : τ → τ} (given : List (Nat × K))
    (hf : ∀ r, I r → I' (f r) ∧ (given ++ l r).Perm (l (f r))) :
    Meets (Holds kindOf I l (given ++ loose) reg) (onRest f) (fun _ => Holds kindOf I' l loose reg) R :=
  onRest_trades I' given [] hf

omit [DecidableEq K] in
/-- A step that no object takes part in. -/
theorem onRest_keeps (I' : τ → Prop) {f : τ → τ} (hf : ∀ r, I r → I' (f r) ∧ (l r).Perm (l (f r))) :
    Meets (Holds kindOf I l loose reg) (onRest f) (fun _ => Holds kindOf I' l loose reg) R :=
  onRest_trades I' [] [] hf

theorem drain_meets {us : τ → List (Nat × K)} {f : τ → τ}
    (hf : ∀ r, I r → I' (f r) ∧ (us r ++ l (f r)).Perm (l r)) :
    Meets (Holds kindOf I l loose reg) (drain us f) (fun _ => Holds kindOf I' l loose reg) R := by
  intro s hs
  obtain ⟨hI', hperm⟩ := hf s.rest hs.rest
  refine ⟨Handles.Owned.destroyAll (hs.owned.perm ?_), hs.held, hs.distinct, hI'⟩
  calc (loose ++ objects kindOf reg ++ l s.rest).Perm _ := hperm.symm.append_left _
    _ = (loose ++ objects kindOf reg ++ us s.rest) ++ l (f s.rest) := (List.append_assoc _ _ _).symm
    List.Perm _ _ := List.perm_append_comm.append_right _
    _ = us s.rest ++ (loose ++ objects kindOf reg ++ l (f s.rest)) := List.append_assoc _ _ _

theorem drainWhen_meets (I' : τ → Prop) {full : τ → Bool} {us : τ → List (Nat × K)} {f : τ → τ}
    (hf : ∀ r, I r → full r = true → I' (f r) ∧ (us r ++ l (f r)).Perm (l r))
    (hkeep : ∀ r, I r → full r = false → I' r) :
    Meets (Holds kindOf I l loose reg) (drainWhen full us f) (fun _ => Holds kindOf I' l loose reg) R := by
  intro s hs
  unfold drainWhen
  cases hfull : full s.rest with
  | true =>
    rw [if_pos rfl]
    exact drain_meets (I := fun r => I r ∧ full r = true) (R := R) (fun r hr => hf r hr.1 hr.2) s
      { hs with rest := ⟨hs.rest, hfull⟩ }
  | false =>
    rw [if_neg Bool.false_ne_true]
    exact { hs with rest := hkeep _ hs.rest hfull }

end StepRules

/-! ### The end of a body -/

/-- The loose objects are such. -/
def Ends [DecidableEq S] (kindOf : S → K) (I : τ → Prop) (l : τ → List (Nat × K))
    (Q : List (Nat × K) → τ → Prop) (s : Scope S K τ) : Prop :=
  ∃ loose reg, Holds kindOf I l loose reg s ∧ Q loose s.rest

/-- A body under a guard leaves its loose objects. -/
theorem guarded_meets [DecidableEq S] [DecidableEq K] {kindOf : S → K} {order : List S} {I J J' : τ → Prop}
    {l : τ → List (Nat × K)} {body : Body S K τ E α} {handles : Handles K} {rest : τ}
    {Q : α → List (Nat × K) → τ → Prop} {R : E → List (Nat × K) → τ → Prop} (horder : order.Nodup)
    (hall : ∀ slot, slot ∈ order) (hown : handles.Owned (l rest)) (hI : I rest)
    (hbody : Meets (Holds kindOf I l [] []) body (fun a => Ends kindOf J l (Q a)) fun e => Ends kindOf J' l (R e)) :
    match guarded kindOf order body handles rest with
    | (.ok a, handles', rest') => ∃ loose, Q a loose rest' ∧ handles'.Owned (loose ++ l rest') ∧ J rest'
    | (.error e, handles', rest') => ∃ loose, R e loose rest' ∧ handles'.Owned (loose ++ l rest') ∧ J' rest' := by
  have hstart := hbody { handles, held := fun _ => none, rest } ⟨hown, rfl, List.nodup_nil, hI⟩
  unfold guarded
  generalize body { handles, held := fun _ => none, rest } = r at hstart
  cases r with
  | ok a s =>
    obtain ⟨loose, reg, hs, hQ⟩ := hstart
    exact ⟨loose, hQ, hs.close horder fun slot _ => hall slot, hs.rest⟩
  | error e s =>
    obtain ⟨loose, reg, hs, hR⟩ := hstart
    exact ⟨loose, hR, hs.close horder fun slot _ => hall slot, hs.rest⟩

/-- A body with a guard of its own takes the objects of the outer one for those of others. -/
theorem nested_meets {S' : Type} [DecidableEq S] [DecidableEq S'] [DecidableEq K] {kindOf : S → K} {kindOf' : S' → K}
    {order : List S'} {I J J' : τ → Prop} {l : τ → List (Nat × K)} {loose : List (Nat × K)} {reg : List (S × Nat)}
    {body : Body S' K τ E α} {Q : α → List (Nat × K) → τ → Prop} {F : E → Prop} {R : E → Scope S K τ → Prop}
    (horder : order.Nodup) (hall : ∀ slot, slot ∈ order)
    (hbody : Meets (Holds kindOf' I (fun r => loose ++ objects kindOf reg ++ l r) [] []) body
      (fun a => Ends kindOf' J (fun r => loose ++ objects kindOf reg ++ l r) (Q a)) fun e =>
        Ends kindOf' J' (fun r => loose ++ objects kindOf reg ++ l r) fun made _ => made = [] ∧ F e)
    (hR : ∀ e s, F e → Holds kindOf J' l loose reg s → R e s) :
    Meets (Holds kindOf I l loose reg) (nested kindOf' order body)
      (fun a s => ∃ made, Q a made s.rest ∧ Holds kindOf J l (made ++ loose) reg s) R := by
  intro s hs
  have hguarded := guarded_meets (l := fun r => loose ++ objects kindOf reg ++ l r) horder hall hs.owned hs.rest hbody
  unfold nested
  generalize guarded kindOf' order body s.handles s.rest = r at hguarded
  obtain ⟨a | a, handles, rest⟩ := r
  · obtain ⟨made, ⟨rfl, hF⟩, hown, hJ⟩ := hguarded
    exact hR a _ hF ⟨hown, hs.held, hs.distinct, hJ⟩
  · obtain ⟨made, hQ, hown, hJ⟩ := hguarded
    refine ⟨made, hQ, ⟨?_, hs.held, hs.distinct, hJ⟩⟩
    rw [List.append_assoc made]
    rw [← List.append_assoc made] at hown
    rw [← List.append_assoc]
    rw [← List.append_assoc] at hown
    exact hown

end Guard
