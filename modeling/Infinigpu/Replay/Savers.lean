import Infinigpu.Lib.Lts
import Mathlib.Data.Finset.Basic

/-!
# Saving the pipeline cache (`infinigpu-replay`, `save_pipeline_cache`)

Every process reads the cache file, merges its own cache into what it read, writes the union to a temporary file of
its own and renames that onto the cache file.  What it writes is a superset of what it read, not of what it replaces:
with the file of another process renamed in between, the entries of that process are gone.  Nothing is lost exactly if
no rename replaces a file with entries that the saver neither read nor has itself (`saved_iff`), as when no other
process renames between the read and the rename of a saver (`kept_of_apart`).

A blob of the driver stands for the set of its entries, and merging is their union; the calls of the driver succeed.
-/

namespace Infinigpu

/-- How far a process is with its save: with the union in memory, and with it in its temporary file. -/
inductive SavePhase (α : Type*) where
  | idle
  | merged (data : Finset α)
  | written (data : Finset α)
  | finished

/-- The cache file, if there is one, and the processes that save to it. -/
structure SharedCache (ι α : Type*) where
  file : Option (Finset α)
  phase : ι → SavePhase α

/-- A step of process `i`, and whether the file operation succeeds. -/
inductive SaveStep (ι : Type*) where
  | read (i : ι) (ok : Bool)
  | write (i : ι) (ok : Bool)
  | rename (i : ι) (ok : Bool)

namespace SharedCache

variable {ι α : Type*} [DecidableEq ι] {cache : ι → Finset α} {s s' : SharedCache ι α} {a : SaveStep ι}

def start (file : Option (Finset α)) : SharedCache ι α where
  file := file
  phase _ := .idle

/-- What is read from the file, where a missing file is an empty one. -/
def disk (s : SharedCache ι α) : Finset α := s.file.getD ∅

def setPhase (i : ι) (p : SavePhase α) (s : SharedCache ι α) : SharedCache ι α :=
  { s with phase := Function.update s.phase i p }

/-- `save_pipeline_cache` of processes with the given caches. -/
def step [DecidableEq α] (cache : ι → Finset α) (s : SharedCache ι α) : SaveStep ι → Option (SharedCache ι α)
  | .read i ok =>
    match s.phase i with
    | .idle =>
      -- `unwrap_or_default`
      let disk := if ok then s.disk else ∅
      some (s.setPhase i (.merged (disk ∪ cache i)))
    | _ => none
  | .write i ok =>
    match s.phase i with
    | .merged data => some (s.setPhase i (if ok then .written data else .finished))
    | _ => none
  | .rename i ok =>
    match s.phase i with
    | .written data => some { s.setPhase i .finished with file := if ok then some data else s.file }
    | _ => none

/-- The file has all that was in it first, and the caches of all processes that have finished. -/
def Kept (initial : Finset α) (cache : ι → Finset α) (s : SharedCache ι α) : Prop :=
  initial ⊆ s.disk ∧ ∀ i, s.phase i = .finished → cache i ⊆ s.disk

/-- A rename replaces a file that has no entries but those renamed onto it, and a process whose save fails has no
entries but those in the file. -/
def Fits (cache : ι → Finset α) (s : SharedCache ι α) : SaveStep ι → Prop
  | .read _ _ => True
  | .write _ true => True
  | .rename i true => ∀ data, s.phase i = .written data → s.disk ⊆ data
  | .write i false => cache i ⊆ s.disk
  | .rename i false => cache i ⊆ s.disk

/-! ### Steps -/

private theorem setPhase_self (i : ι) (p : SavePhase α) (s : SharedCache ι α) : (s.setPhase i p).phase i = p := by
  simp only [setPhase, Function.update_self]

private theorem setPhase_ne {i j : ι} (hij : j ≠ i) (p : SavePhase α) (s : SharedCache ι α) :
    (s.setPhase i p).phase j = s.phase j := by
  simp only [setPhase, Function.update_of_ne hij]

/-- What a step does. -/
private theorem step_cases [DecidableEq α] (h : step cache s a = some s') :
    (∃ i ok, a = .read i ok ∧ s.phase i = .idle ∧
      s' = s.setPhase i (.merged ((if ok then s.disk else ∅) ∪ cache i))) ∨
    (∃ i data, a = .write i true ∧ s.phase i = .merged data ∧ s' = s.setPhase i (.written data)) ∨
    (∃ i data, a = .rename i true ∧ s.phase i = .written data ∧
      s' = { s.setPhase i .finished with file := some data }) ∨
    ∃ i, (a = .write i false ∨ a = .rename i false) ∧ s' = s.setPhase i .finished := by
  cases a with
  | read i ok =>
    cases hp : s.phase i with
    | idle =>
      simp only [step, hp, Option.some_inj] at h
      exact .inl ⟨i, ok, rfl, hp, h.symm⟩
    | _ =>
      simp only [step, hp] at h
      cases h
  | write i ok =>
    cases hp : s.phase i with
    | merged data =>
      simp only [step, hp, Option.some_inj] at h
      cases ok with
      | true => exact .inr (.inl ⟨i, data, rfl, hp, h.symm⟩)
      | false => exact .inr (.inr (.inr ⟨i, .inl rfl, h.symm⟩))
    | _ =>
      simp only [step, hp] at h
      cases h
  | rename i ok =>
    cases hp : s.phase i with
    | written data =>
      simp only [step, hp, Option.some_inj] at h
      cases ok with
      | true => exact .inr (.inr (.inl ⟨i, data, rfl, hp, h.symm⟩))
      | false => exact .inr (.inr (.inr ⟨i, .inr rfl, h.symm⟩))
    | _ =>
      simp only [step, hp] at h
      cases h

/-! ### Runs -/

variable {initial : Finset α}

/-- The entry was in the file first, or is one of a process that has finished. -/
def Known (initial : Finset α) (cache : ι → Finset α) (s : SharedCache ι α) (e : α) : Prop :=
  e ∈ initial ∨ ∃ j, s.phase j = .finished ∧ e ∈ cache j

/-- What is in the file and what is going to be written has been read or is the process's own. -/
structure Good (initial : Finset α) (cache : ι → Finset α) (s : SharedCache ι α) : Prop where
  disk : ∀ e ∈ s.disk, Known initial cache s e
  own : ∀ i data, s.phase i = .merged data ∨ s.phase i = .written data → cache i ⊆ data
  data : ∀ i data, s.phase i = .merged data ∨ s.phase i = .written data →
    ∀ e ∈ data, e ∈ cache i ∨ Known initial cache s e

omit [DecidableEq ι] in
private theorem good_start (file : Option (Finset α)) :
    (start file : SharedCache ι α).Good (file.getD ∅) cache where
  disk _ he := .inl he
  own _ _ h := by rcases h with h | h <;> cases h
  data _ _ h := by rcases h with h | h <;> cases h

private theorem Known.setPhase {i : ι} {p : SavePhase α} {e : α} (hi : s.phase i = .finished → p = .finished)
    (h : Known initial cache s e) : Known initial cache (s.setPhase i p) e := by
  rcases h with h | ⟨j, hj, he⟩
  · exact .inl h
  · by_cases hij : j = i
    · subst hij
      exact .inr ⟨j, by rw [setPhase_self, hi hj], he⟩
    · exact .inr ⟨j, by rw [setPhase_ne hij, hj], he⟩

private theorem Good.setPhase {i : ι} {p : SavePhase α} (h : s.Good initial cache)
    (hi : s.phase i = .finished → p = .finished) (hown : ∀ data, p = .merged data ∨ p = .written data →
      cache i ⊆ data ∧ ∀ e ∈ data, e ∈ cache i ∨ Known initial cache s e) :
    (s.setPhase i p).Good initial cache where
  disk e he := (h.disk e he).setPhase hi
  own j data hj := by
    by_cases hij : j = i
    · subst hij
      rw [setPhase_self] at hj
      exact (hown data hj).1
    · rw [setPhase_ne hij] at hj
      exact h.own j data hj
  data j data hj e he := by
    by_cases hij : j = i
    · subst hij
      rw [setPhase_self] at hj
      exact ((hown data hj).2 e he).imp_right fun hk => hk.setPhase hi
    · rw [setPhase_ne hij] at hj
      exact (h.data j data hj e he).imp_right fun hk => hk.setPhase hi

private theorem Good.step [DecidableEq α] (h : s.Good initial cache) (hs : step cache s a = some s') :
    s'.Good initial cache := by
  have hfinish : ∀ i, (s.setPhase i .finished).Good initial cache := fun i =>
    h.setPhase (fun _ => rfl) fun data hdata => by rcases hdata with hdata | hdata <;> cases hdata
  rcases step_cases hs with ⟨i, ok, -, hp, rfl⟩ | ⟨i, data, -, hp, rfl⟩ | ⟨i, data, -, hp, rfl⟩ | ⟨i, -, rfl⟩
  · refine h.setPhase (fun hf => by rw [hp] at hf; cases hf) fun data hdata => ?_
    rcases hdata with hdata | hdata
    · cases hdata
      refine ⟨Finset.subset_union_right, fun e he => ?_⟩
      rcases Finset.mem_union.1 he with he | he
      · cases ok with
        | true => exact .inr (h.disk e he)
        | false => exact absurd he (Finset.notMem_empty e)
      · exact .inl he
    · cases hdata
  · refine h.setPhase (fun hf => by rw [hp] at hf; cases hf) fun data' hdata => ?_
    rcases hdata with hdata | hdata
    · cases hdata
    · cases hdata
      exact ⟨h.own i data (.inl hp), h.data i data (.inl hp)⟩
  · refine { hfinish i with disk := fun e he => ?_ }
    -- what is renamed onto the file is known, now that its process has finished
    rcases h.data i data (.inr hp) e he with he | he
    · exact .inr ⟨i, setPhase_self i _ s, he⟩
    · exact he.setPhase fun _ => rfl
  · exact hfinish i

private theorem kept_setPhase {i : ι} {p : SavePhase α} (hi : s.phase i ≠ .finished) (hp : p ≠ .finished) :
    (s.setPhase i p).Kept initial cache ↔ s.Kept initial cache := by
  refine and_congr_right fun _ => forall_congr' fun j => ?_
  by_cases hij : j = i
  · subst hij
    rw [setPhase_self]
    exact iff_of_true (fun h => absurd h hp) fun h => absurd h hi
  · rw [setPhase_ne hij]
    rfl

private theorem kept_finish {i : ι} :
    (s.setPhase i .finished).Kept initial cache ↔ s.Kept initial cache ∧ cache i ⊆ s.disk := by
  constructor
  · rintro ⟨hinitial, hcaches⟩
    refine ⟨⟨hinitial, fun j hj => hcaches j ?_⟩, hcaches i (setPhase_self i _ s)⟩
    by_cases hij : j = i
    · rw [hij, setPhase_self]
    · rw [setPhase_ne hij, hj]
  · rintro ⟨⟨hinitial, hcaches⟩, hi⟩
    refine ⟨hinitial, fun j hj => ?_⟩
    by_cases hij : j = i
    · rw [hij]
      exact hi
    · rw [setPhase_ne hij] at hj
      exact hcaches j hj

/-- A step keeps everything in the file exactly if it fits. -/
private theorem Good.step_kept_iff [DecidableEq α] (h : s.Good initial cache) (hkept : s.Kept initial cache)
    (hs : SharedCache.step cache s a = some s') : s'.Kept initial cache ↔ s.Fits cache a := by
  rcases step_cases hs with ⟨i, ok, rfl, hp, rfl⟩ | ⟨i, data, rfl, hp, rfl⟩ | ⟨i, data, rfl, hp, rfl⟩ | ⟨i, ha, rfl⟩
  · refine (kept_setPhase (fun hf => by rw [hp] at hf; cases hf) fun hf => by cases hf).trans ?_
    exact iff_of_true hkept trivial
  · refine (kept_setPhase (fun hf => by rw [hp] at hf; cases hf) fun hf => by cases hf).trans ?_
    exact iff_of_true hkept trivial
  · have hfits : s.Fits cache (.rename i true) ↔ s.disk ⊆ data := by
      refine ⟨fun h => h data hp, fun h data' hdata => ?_⟩
      rw [hp] at hdata
      cases hdata
      exact h
    rw [hfits]
    constructor
    · rintro ⟨hinitial, hcaches⟩ e he
      rcases h.disk e he with he | ⟨j, hj, he⟩
      · exact hinitial he
      · refine hcaches j ?_ he
        have hij : j ≠ i := fun hij => by rw [hij, hp] at hj; cases hj
        exact (setPhase_ne hij _ s).trans hj
    · intro hsub
      refine ⟨hkept.1.trans hsub, fun j hj => ?_⟩
      by_cases hij : j = i
      · rw [hij]
        exact h.own i data (.inr hp)
      · exact (hkept.2 j ((setPhase_ne hij _ s).symm.trans hj)).trans hsub
  · have hfits : s.Fits cache a ↔ cache i ⊆ s.disk := by
      rcases ha with rfl | rfl <;> rfl
    rw [kept_finish, hfits]
    exact and_iff_right hkept

/-- All along an interleaving everything is in the file exactly when every rename replaces a file that has no entries
but those renamed onto it, and no process fails with entries that the file has not. -/
theorem saved_iff [DecidableEq α] (cache : ι → Finset α) (file : Option (Finset α)) {steps : List (SaveStep ι)}
    (hrun : (Lts.run (step cache) (start file) steps).isSome) :
    Lts.Always (step cache) (Kept (file.getD ∅) cache) (start file) steps ↔
      Lts.Along (step cache) (Fits cache) (start file) steps :=
  Lts.always_iff_along (I := Good (file.getD ∅) cache) (fun _ _ _ h hs => h.step hs)
    (fun _ _ _ h hkept hs => h.step_kept_iff hkept hs) (good_start file)
    ⟨Finset.Subset.refl _, fun i hi => by cases hi⟩ hrun

/-! ### Saves that do not overlap -/

/-- No file operation fails, and no process renames between the read and the rename of another one; `fresh` are the
processes that have read since the last rename. -/
def Apart : Finset ι → List (SaveStep ι) → Prop
  | _, [] => True
  | fresh, .read i ok :: steps => ok = true ∧ Apart (insert i fresh) steps
  | fresh, .write _ ok :: steps => ok = true ∧ Apart fresh steps
  | fresh, .rename i ok :: steps => ok = true ∧ i ∈ fresh ∧ Apart ∅ steps

/-- What the processes have read and not yet renamed is what is in the file. -/
def Fresh (fresh : Finset ι) (s : SharedCache ι α) : Prop :=
  ∀ i ∈ fresh, ∀ data, s.phase i = .merged data ∨ s.phase i = .written data → s.disk ⊆ data

private theorem Fresh.setPhase {fresh fresh' : Finset ι} {i : ι} {p : SavePhase α} (h : s.Fresh fresh)
    (hsub : fresh' ⊆ insert i fresh)
    (hp : i ∈ fresh' → ∀ data, p = .merged data ∨ p = .written data → s.disk ⊆ data) :
    (s.setPhase i p).Fresh fresh' := by
  intro j hj data hdata
  by_cases hij : j = i
  · subst hij
    rw [setPhase_self] at hdata
    exact hp hj data hdata
  · rw [setPhase_ne hij] at hdata
    exact h j (Finset.mem_of_mem_insert_of_ne (hsub hj) hij) data hdata

private theorem Apart.along [DecidableEq α] {fresh : Finset ι} {steps : List (SaveStep ι)} (h : Apart fresh steps)
    (hfresh : s.Fresh fresh) : Lts.Along (step cache) (Fits cache) s steps := by
  induction steps generalizing fresh s with
  | nil => exact trivial
  | cons a steps ih =>
    cases a with
    | read i ok =>
      obtain ⟨rfl, hsteps⟩ := h
      refine ⟨trivial, fun s' hs => ih hsteps ?_⟩
      rcases step_cases hs with ⟨j, ok, ha, -, rfl⟩ | ⟨j, data, ha, -⟩ | ⟨j, data, ha, -⟩ | ⟨j, ha | ha, -⟩ <;>
        cases ha
      refine hfresh.setPhase (Finset.Subset.refl _) fun _ data hdata => ?_
      rcases hdata with hdata | hdata <;> cases hdata
      exact Finset.subset_union_left
    | write i ok =>
      obtain ⟨rfl, hsteps⟩ := h
      refine ⟨trivial, fun s' hs => ih hsteps ?_⟩
      rcases step_cases hs with ⟨j, ok, ha, -⟩ | ⟨j, data, ha, hp, rfl⟩ | ⟨j, data, ha, -⟩ | ⟨j, ha | ha, -⟩ <;>
        cases ha
      refine hfresh.setPhase (Finset.subset_insert _ _) fun hi data' hdata => ?_
      rcases hdata with hdata | hdata <;> cases hdata
      exact hfresh i hi data (.inl hp)
    | rename i ok =>
      obtain ⟨rfl, hi, hsteps⟩ := h
      exact ⟨fun data hdata => hfresh i hi data (.inr hdata), fun s' hs => ih hsteps fun j hj =>
        absurd hj (Finset.notMem_empty j)⟩

/-- Saves that do not overlap lose nothing. -/
theorem kept_of_apart [DecidableEq α] (cache : ι → Finset α) (file : Option (Finset α)) {steps : List (SaveStep ι)}
    (h : Apart ∅ steps) :
    Lts.Always (step cache) (Kept (file.getD ∅) cache) (start file) steps := by
  have hstart : (start file : SharedCache ι α).Kept (file.getD ∅) cache :=
    ⟨Finset.Subset.refl _, fun i hi => by cases hi⟩
  refine (h.along fun i hi => absurd hi (Finset.notMem_empty i)).always (A := fun _ => True)
    (I := fun s => s.Good (file.getD ∅) cache ∧ s.Kept (file.getD ∅) cache) ?_ ⟨good_start file, hstart⟩ hstart
    fun _ _ => trivial
  rintro s a s' - ⟨hgood, hkept⟩ hfits hs
  have hkept' := (hgood.step_kept_iff hkept hs).2 hfits
  exact ⟨⟨hgood.step hs, hkept'⟩, hkept'⟩

/-! ### Two processes -/

/-- The entries of two processes, with one of their own each. -/
def twoCaches (i : Bool) : Finset Nat := {i.toNat}

def saveOf (i : Bool) : List (SaveStep Bool) := [.read i true, .write i true, .rename i true]

theorem kept_in_turn : Lts.Always (step twoCaches) (Kept ∅ twoCaches) (start none) (saveOf false ++ saveOf true) :=
  (saved_iff twoCaches none rfl).2 (Apart.along
    ⟨rfl, rfl, rfl, Finset.mem_insert_self _ _, rfl, rfl, rfl, Finset.mem_insert_self _ _, trivial⟩
    fun i hi => absurd hi (Finset.notMem_empty i))

/-- Both processes read before either renames. -/
def crossing : List (SaveStep Bool) :=
  [.read false true, .read true true, .write false true, .rename false true, .write true true, .rename true true]

/-- The second rename drops what the first one saved. -/
theorem not_always_saved : ¬ ∀ (cache : Bool → Finset Nat) (file : Option (Finset Nat)) steps t,
    Lts.run (step cache) (start file) steps = some t → (∀ i, t.phase i = .finished) →
      file.getD ∅ ⊆ t.disk ∧ ∀ i, cache i ⊆ t.disk := by
  intro h
  have hlost := (h twoCaches none crossing _ rfl fun i => by cases i <;> rfl).2 false
  revert hlost
  decide

end SharedCache

end Infinigpu
