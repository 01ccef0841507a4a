import Mathlib.Data.Set.BooleanAlgebra
import Mathlib.Order.CompletePartialOrder
import Infinigpu.Replay.Resources

/-!
# The geometry cache under its bounds (`get_or_upload_geometry`)

A mesh that would take the cache over a bound evicts all others before it goes in, after it was uploaded. Its handles
are copied out of the cache and used until the frame's fence was waited for, so nothing may be evicted meanwhile: a
frame gets one mesh, and the scratch cache stays locked until the frame is over.
-/

namespace Infinigpu

/-- The size of the buffers of a mesh. -/
def Mesh.bytes (m : Mesh) : Nat := m.vbo.length + (m.ibo.map List.length).getD 0

private theorem meshOf_bytes (g : OwnedGeometry) : (meshOf g).bytes = g.vertexData.length + g.indexData.length := by
  unfold Mesh.bytes meshOf
  cases h : g.indexData with
  | nil => rfl
  | cons b bs => rfl

namespace Meshes

/-! ### The cache -/

/-- The byte total is that of the entries, the bounds hold, and every entry has live buffers of its size. -/
structure Accounted (s : Meshes) : Prop where
  bytes_eq : s.cache.bytes = (s.cache.map.entries.map (·.2.bytes)).sum
  entries_le : s.cache.map.entries.length ≤ MAX_CACHED_GEOM
  bytes_le : s.cache.bytes ≤ MAX_CACHED_GEOM_BYTES ∨ s.cache.map.entries.length = 1
  live : ∀ e ∈ s.cache.map.entries, ∃ m, s.buffers.live e.2.gpu = some m ∧ e.2.bytes = m.bytes

variable {g : OwnedGeometry} {s : Meshes}

private theorem accounted_new : new.Accounted where
  bytes_eq := rfl
  entries_le := Nat.zero_le _
  bytes_le := Or.inl (Nat.zero_le _)
  live := fun _ he => absurd he List.not_mem_nil

/-- After an eviction a mesh of `bytes` bytes fits, or it will be alone. -/
private theorem evict_room (s : Meshes) (bytes : Nat) :
    (s.evict bytes).cache.map.entries.length < MAX_CACHED_GEOM ∧
      ((s.evict bytes).cache.bytes + bytes ≤ MAX_CACHED_GEOM_BYTES ∨ (s.evict bytes).cache.map.entries = []) := by
  unfold evict
  by_cases hcap : s.cache.map.entries.length ≥ MAX_CACHED_GEOM ∨ s.cache.bytes + bytes > MAX_CACHED_GEOM_BYTES
  · rw [if_pos hcap]
    exact ⟨Nat.zero_lt_of_lt (Nat.lt_succ_self 255), Or.inr rfl⟩
  · rw [if_neg hcap]
    rw [not_or] at hcap
    exact ⟨Nat.lt_of_not_le hcap.1, Or.inl (Nat.le_of_not_lt hcap.2)⟩

private theorem Accounted.evict (h : s.Accounted) (bytes : Nat) : (s.evict bytes).Accounted := by
  unfold Meshes.evict
  by_cases hcap : s.cache.map.entries.length ≥ MAX_CACHED_GEOM ∨ s.cache.bytes + bytes > MAX_CACHED_GEOM_BYTES
  · rw [if_pos hcap]
    exact { bytes_eq := rfl, entries_le := Nat.zero_le _, bytes_le := Or.inl (Nat.zero_le _)
            live := fun e he => absurd he List.not_mem_nil }
  · rw [if_neg hcap]
    exact h

/-- Nothing that was made after the entries is evicted with them. -/
private theorem evict_live (s : Meshes) (bytes : Nat) {n : Nat} (hn : n ∉ owned s.cache.map) :
    (s.evict bytes).buffers.live n = s.buffers.live n := by
  unfold evict
  split
  · exact Arena.live_freeAll_of_notMem hn
  · rfl

/-- An entry evicted or not, no key is taken that was free. -/
private theorem evict_lookup {key : UInt64} (hkey : s.cache.map.lookup key = none) (bytes : Nat) :
    key ∉ (s.evict bytes).cache.map := by
  unfold evict
  split
  · exact AList.notMem_empty key
  · exact AList.lookup_eq_none.mp hkey

/-- Putting a new mesh in where there is room for it. -/
private theorem Accounted.insert (h : s.Accounted) {key : UInt64} (hkey : key ∉ s.cache.map)
    {gpu bytes : Nat} {m : Mesh} (hroom : s.cache.map.entries.length < MAX_CACHED_GEOM)
    (hbytes : s.cache.bytes + bytes ≤ MAX_CACHED_GEOM_BYTES ∨ s.cache.map.entries = [])
    (hlive : s.buffers.live gpu = some m) (hm : bytes = m.bytes) :
    Accounted { s with cache := { s.cache with
      map := s.cache.map.insert key { gpu, bytes }
      bytes := s.cache.bytes + bytes } } where
  bytes_eq := by
    simp only [AList.entries_insert_of_notMem hkey, List.map_cons, List.sum_cons]
    rw [h.bytes_eq, Nat.add_comm]
  entries_le := by
    simp only [AList.entries_insert_of_notMem hkey, List.length_cons]
    exact hroom
  bytes_le := by
    simp only [AList.entries_insert_of_notMem hkey, List.length_cons]
    rcases hbytes with hle | hnil
    · exact Or.inl hle
    · exact Or.inr (by rw [hnil]; rfl)
  live := by
    intro e he
    simp only [AList.entries_insert_of_notMem hkey, List.mem_cons] at he
    rcases he with rfl | he
    · exact ⟨m, hlive, hm⟩
    · exact h.live e he

/-- Evicting for a mesh of an unused key that is not the cache's, and putting it in. -/
private theorem Accounted.place (h : s.Accounted) {key : UInt64} (hkey : s.cache.map.lookup key = none) {gpu : Nat}
    {m : Mesh} (hnew : gpu ∉ owned s.cache.map) (hlive : s.buffers.live gpu = some m) :
    (s.evict m.bytes).buffers.live gpu = some m ∧
      Accounted { s.evict m.bytes with cache := { (s.evict m.bytes).cache with
        map := (s.evict m.bytes).cache.map.insert key { gpu, bytes := m.bytes }
        bytes := (s.evict m.bytes).cache.bytes + m.bytes } } := by
  have hkept := (evict_live s m.bytes hnew).trans hlive
  obtain ⟨hroom, hbytes⟩ := evict_room s m.bytes
  exact ⟨hkept, (h.evict m.bytes).insert (evict_lookup hkey m.bytes) hroom hbytes hkept rfl⟩

/-- A mesh that is made leaves the cache as it is. -/
private theorem Accounted.upload (h : s.Accounted) (a : Mesh) (misses : Nat) :
    Accounted { buffers := s.buffers.alloc a, cache := { s.cache with misses } } where
  bytes_eq := h.bytes_eq
  entries_le := h.entries_le
  bytes_le := h.bytes_le
  live := by
    intro e he
    obtain ⟨m, hm, hbytes⟩ := h.live e he
    exact ⟨m, Arena.live_alloc_of_live hm a, hbytes⟩

private theorem Accounted.made_notMem (h : s.Accounted) : s.buffers.made ∉ owned s.cache.map := by
  intro hmem
  obtain ⟨e, he, hmade⟩ := List.mem_map.mp hmem
  obtain ⟨m, hm, -⟩ := h.live e he
  have hlt := Arena.lt_made hm
  omega

private theorem Accounted.getOrUploadGeometry (h : s.Accounted) (g : OwnedGeometry) (ok : Bool) :
    (s.getOrUploadGeometry g ok).2.Accounted ∧
      ∀ gpu, (s.getOrUploadGeometry g ok).1 = some gpu →
      ((s.getOrUploadGeometry g ok).2.buffers.live gpu).isSome := by
  unfold Meshes.getOrUploadGeometry
  simp only
  cases hr : s.cache.map.lookup (geomKey g) with
  | some r =>
    refine ⟨{ h with }, ?_⟩
    intro gpu hgpu
    cases hgpu
    obtain ⟨m, hm, -⟩ := h.live ⟨geomKey g, r⟩ (AList.mem_lookup_iff.mp hr)
    exact Option.isSome_iff_exists.mpr ⟨m, hm⟩
  | none =>
    cases ok with
    | false => exact ⟨h, fun gpu hgpu => by cases hgpu⟩
    | true =>
      -- the new mesh is not among those that are evicted for it
      have hplace := (h.upload (meshOf g) (s.cache.misses + 1)).place hr h.made_notMem
        (Arena.live_alloc (meshOf g) s.buffers)
      rw [meshOf_bytes] at hplace
      refine ⟨hplace.2, ?_⟩
      intro gpu hgpu
      cases hgpu
      exact Option.isSome_iff_exists.mpr ⟨meshOf g, hplace.1⟩

private theorem Accounted.meshFor (h : s.Accounted) (f : DrawFrame) : (s.meshFor true f).2.Accounted ∧
    ∀ gpu, (s.meshFor true f).1 = some (some gpu) → ((s.meshFor true f).2.buffers.live gpu).isSome := by
  unfold Meshes.meshFor
  cases uploadedGeometry f.draw with
  | none => exact ⟨h, fun gpu hgpu => by cases hgpu⟩
  | some g =>
    obtain ⟨hacc, hlive⟩ := h.getOrUploadGeometry g f.mesh
    refine ⟨hacc, ?_⟩
    intro gpu hgpu
    obtain ⟨n, hn, hsome⟩ := Option.map_eq_some_iff.mp hgpu
    cases hsome
    exact hlive _ hn

end Meshes

/-! ### Renderers that share the cache -/

/-- Where a renderer is in its frame, with the mesh whose handles it has copied out. -/
inductive RenderPc where
  | idle
  | locked
  | bound (geom : Option Nat)
  | submitted (geom : Option Nat)
  | completed (geom : Option Nat)
deriving DecidableEq

def RenderPc.geom : RenderPc → Option Nat
  | .idle | .locked => none
  | .bound geom | .submitted geom | .completed geom => geom

/-- The meshes, the renderer that has locked the scratch cache, and where each one is. -/
structure Renderers where
  meshes : Meshes
  holder : Option Nat
  pc : Nat → RenderPc

/-- A step of a renderer; `fail` is an early return, before anything was submitted. -/
inductive RenderAction where
  | lock (r : Nat)
  | bind (r : Nat) (f : DrawFrame)
  | fail (r : Nat)
  | submit (r : Nat)
  | complete (r : Nat)
  | release (r : Nat)

namespace Renderers

def start : Renderers where
  meshes := .new
  holder := none
  pc _ := .idle

def moves (s : Renderers) (r : Nat) (pc : RenderPc) : Renderers := { s with pc := Function.update s.pc r pc }

/-- The end of a frame. -/
def leaves (s : Renderers) (r : Nat) : Renderers := { s with holder := none, pc := Function.update s.pc r .idle }

@[simp] theorem moves_self (s : Renderers) (r : Nat) (pc : RenderPc) : (s.moves r pc).pc r = pc :=
  Function.update_self ..

private theorem moves_other (s : Renderers) {q r : Nat} (h : q ≠ r) (pc : RenderPc) : (s.moves r pc).pc q = s.pc q :=
  Function.update_of_ne h ..

@[simp] theorem leaves_self (s : Renderers) (r : Nat) : (s.leaves r).pc r = .idle := Function.update_self ..

private theorem leaves_other (s : Renderers) {q r : Nat} (h : q ≠ r) : (s.leaves r).pc q = s.pc q :=
  Function.update_of_ne h ..

def step (s : Renderers) : RenderAction → Option Renderers
  | .lock r => if s.holder = none ∧ s.pc r = .idle then some ({ s with holder := some r }.moves r .locked) else none
  | .bind r f =>
    if s.pc r = .locked then
      match s.meshes.meshFor true f with
      | (none, meshes) => some ({ s with meshes }.leaves r)
      | (some geom, meshes) => some ({ s with meshes }.moves r (.bound geom))
    else none
  | .fail r =>
    match s.pc r with
    | .locked | .bound _ => some (s.leaves r)
    | _ => none
  | .submit r =>
    match s.pc r with
    | .bound geom => some (s.moves r (.submitted geom))
    | _ => none
  | .complete r =>
    match s.pc r with
    | .submitted geom => some (s.moves r (.completed geom))
    | _ => none
  | .release r =>
    match s.pc r with
    | .completed _ => some (s.leaves r)
    | _ => none

/-- The cache is accounted for, only the renderer that holds the lock is in a frame, and its mesh is alive. -/
structure Inv (s : Renderers) : Prop where
  accounted : s.meshes.Accounted
  holds : ∀ r, s.pc r ≠ .idle → s.holder = some r
  alive : ∀ r n, (s.pc r).geom = some n → (s.meshes.buffers.live n).isSome

variable {s : Renderers} {r : Nat}

private theorem inv_start : start.Inv where
  accounted := Meshes.accounted_new
  holds := fun _ h => absurd rfl h
  alive := fun _ _ h => by cases h

/-- A renderer that holds the lock goes on. -/
private theorem Inv.moves (h : s.Inv) {pc : RenderPc} (hr : s.holder = some r)
    (hgeom : ∀ n, pc.geom = some n → (s.meshes.buffers.live n).isSome) : (s.moves r pc).Inv where
  accounted := h.accounted
  holds := by
    intro q hq
    by_cases hqr : q = r
    · rw [hqr]
      exact hr
    · rw [moves_other s hqr] at hq
      exact h.holds q hq
  alive := by
    intro q n hn
    by_cases hqr : q = r
    · rw [hqr, moves_self] at hn
      exact hgeom n hn
    · rw [moves_other s hqr] at hn
      exact h.alive q n hn

private theorem Inv.leaves (h : s.Inv) (hr : s.holder = some r) : (s.leaves r).Inv where
  accounted := h.accounted
  holds := by
    intro q hq
    by_cases hqr : q = r
    · rw [hqr, leaves_self] at hq
      exact absurd rfl hq
    · -- no other renderer holds the lock
      rw [leaves_other s hqr] at hq
      exact absurd (Option.some_inj.mp ((h.holds q hq).symm.trans hr)) hqr
  alive := by
    intro q n hn
    by_cases hqr : q = r
    · rw [hqr, leaves_self] at hn
      cases hn
    · rw [leaves_other s hqr] at hn
      exact h.alive q n hn

/-- Where nobody is in a frame the lock can be taken. -/
private theorem Inv.lock (h : s.Inv) (hfree : s.holder = none) : Inv { s with holder := some r } where
  accounted := h.accounted
  holds := by
    intro q hq
    exact absurd ((h.holds q hq).symm.trans hfree) (Option.some_ne_none q)
  alive := h.alive

/-- While a renderer is about to bind, no other one has copied handles out, so the meshes may change under it. -/
private theorem Inv.withMeshes (h : s.Inv) (hr : s.pc r = .locked) {meshes : Meshes} (hacc : meshes.Accounted) :
    Inv { s with meshes } where
  accounted := hacc
  holds := h.holds
  alive := by
    intro q n hn
    have hbusy : s.pc q ≠ .idle := by
      intro hidle
      rw [hidle] at hn
      cases hn
    have hholder := h.holds r (by rw [hr]; exact RenderPc.noConfusion)
    have hq : q = r := Option.some_inj.mp ((h.holds q hbusy).symm.trans hholder)
    rw [hq, hr] at hn
    cases hn

/-- The renderer goes on with the mesh that it has bound. -/
private theorem Inv.goesOn (h : s.Inv) {pc pc' : RenderPc} (hpc : s.pc r = pc) (hne : pc ≠ .idle)
    (hgeom : pc'.geom = pc.geom) :
    (s.moves r pc').Inv := by
  subst hpc
  exact h.moves (h.holds r hne) fun n hn => h.alive r n (hgeom.symm.trans hn)

private theorem Inv.step {a : RenderAction} {t : Renderers} (h : s.Inv) (hstep : s.step a = some t) : t.Inv := by
  cases a with
  | lock r =>
    rw [Renderers.step, Option.ite_none_right_eq_some] at hstep
    obtain ⟨⟨hfree, -⟩, ht⟩ := hstep
    rw [Option.some_inj] at ht
    subst ht
    exact (h.lock hfree).moves rfl fun n hn => by cases hn
  | bind r f =>
    rw [Renderers.step, Option.ite_none_right_eq_some] at hstep
    obtain ⟨hr, ht⟩ := hstep
    obtain ⟨hacc, hlive⟩ := h.accounted.meshFor f
    have hholder := h.holds r (by rw [hr]; exact RenderPc.noConfusion)
    cases hmesh : s.meshes.meshFor true f with
    | mk geom meshes =>
      rw [hmesh] at ht hacc hlive
      have hinv := h.withMeshes hr hacc
      cases geom with
      | none =>
        rw [Option.some_inj] at ht
        subst ht
        exact hinv.leaves hholder
      | some geom =>
        rw [Option.some_inj] at ht
        subst ht
        exact hinv.moves hholder fun n hn => hlive n (congrArg some hn)
  | fail r =>
    have hr : s.pc r ≠ .idle ∧ t = s.leaves r := by
      rw [Renderers.step] at hstep
      cases hpc : s.pc r <;> rw [hpc] at hstep <;> cases hstep <;> exact ⟨RenderPc.noConfusion, rfl⟩
    rw [hr.2]
    exact h.leaves (h.holds r hr.1)
  | submit r =>
    rw [Renderers.step] at hstep
    cases hpc : s.pc r with
    | bound geom =>
      rw [hpc, Option.some_inj] at hstep
      subst hstep
      exact h.goesOn hpc RenderPc.noConfusion rfl
    | _ => rw [hpc] at hstep; cases hstep
  | complete r =>
    rw [Renderers.step] at hstep
    cases hpc : s.pc r with
    | submitted geom =>
      rw [hpc, Option.some_inj] at hstep
      subst hstep
      exact h.goesOn hpc RenderPc.noConfusion rfl
    | _ => rw [hpc] at hstep; cases hstep
  | release r =>
    rw [Renderers.step] at hstep
    cases hpc : s.pc r with
    | completed geom =>
      rw [hpc, Option.some_inj] at hstep
      subst hstep
      exact h.leaves (h.holds r (by rw [hpc]; exact RenderPc.noConfusion))
    | _ => rw [hpc] at hstep; cases hstep

/-- In a state the byte total is that of the entries, the bounds hold unless one mesh is alone, and every mesh that a
frame has bound is alive until the frame is over. -/
structure Resident (s : Renderers) : Prop where
  bytes_eq : s.meshes.cache.bytes = (s.meshes.cache.map.entries.map (·.2.bytes)).sum
  entries_le : s.meshes.cache.map.entries.length ≤ MAX_CACHED_GEOM
  bytes_le : s.meshes.cache.bytes ≤ MAX_CACHED_GEOM_BYTES ∨ s.meshes.cache.map.entries.length = 1
  entry_bytes : ∀ e ∈ s.meshes.cache.map.entries, ∃ m, s.meshes.buffers.live e.2.gpu = some m ∧ e.2.bytes = m.bytes
  alive : ∀ r n, (s.pc r).geom = some n → ∃ m, s.meshes.buffers.live n = some m

end Renderers

end Infinigpu
