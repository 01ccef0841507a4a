import Infinigpu.Lib.Arena
import Infinigpu.Lib.Keyed
import Infinigpu.Lib.Lts
import Infinigpu.Replay.Descriptors
import Infinigpu.Replay.Keys

/-!
# The texture cache (`infinigpu-replay`, `trim_tex_cache` and `resolve_frame_textures`)

Textures are uploaded once and kept by a key of their content.  A frame takes those that are resident from the map and
uploads all others together, which go into the map only then: two of them with one key are both uploaded, and the
second pushes the first out of the map without destroying it.  This is the only way in which the cache loses an image
or counts bytes that it does not hold (`sound_iff`).

An image stands for the image, its memory, its view and its sampler, which are made and destroyed together; it holds
the pixels and the sampler mode of the texture it was made from.  Staging buffers are left out.
-/

namespace Infinigpu

def MAX_CACHED_TEX : Nat := 512
def MAX_CACHED_TEX_BYTES : Nat := 512 * 1024 * 1024

structure ResidentTexture where
  image : Nat
  bytes : Nat
deriving DecidableEq, Repr

structure TexCache where
  map : AList fun _ : UInt64 => ResidentTexture
  bytes : Nat
  hits : Nat
  misses : Nat

structure PendingTexUpload where
  binding : UInt32
  key : UInt64
  image : Nat
  bytes : Nat
deriving DecidableEq, Repr

/-- The images, the cache of them, and what the last frame was submitted with: the bindings of its images, or `none`
if it failed before. -/
structure Textures where
  images : Arena OwnedTexture
  cache : TexCache
  set : Option (List (UInt32 × Nat))

/-- A frame: its textures, whether all that comes before them succeeds, the memory that the `i`-th one takes if it can
be allocated, and whether the upload succeeds. -/
structure TexFrame where
  textures : List OwnedTexture
  texBase : UInt32
  reached : Bool
  alloc : Nat → Option Nat
  upload : Bool

namespace Textures

def new : Textures where
  images := .new
  cache := { map := ∅, bytes := 0, hits := 0, misses := 0 }
  set := none

/-- The images that the entries of the cache own. -/
def owned (map : AList fun _ : UInt64 => ResidentTexture) : List Nat := map.entries.map (·.2.image)

/-- `trim_tex_cache`, at the start of a frame. -/
def trim (s : Textures) : Textures :=
  if s.cache.map.entries.length ≥ MAX_CACHED_TEX ∨ s.cache.bytes ≥ MAX_CACHED_TEX_BYTES then
    { s with images := s.images.freeAll (owned s.cache.map), cache := { s.cache with map := ∅, bytes := 0 } }
  else s

/-- The state of the loop over the textures of a frame. -/
structure Resolving where
  images : Arena OwnedTexture
  hits : Nat
  pending : List PendingTexUpload
  set : List (UInt32 × Nat)

/-- The loop from the `i`-th texture on, and whether it gets to its end. -/
def resolveAll (map : AList fun _ : UInt64 => ResidentTexture) (alloc : Nat → Option Nat) (texBase : UInt32) :
    Nat → List OwnedTexture → Resolving → Bool × Resolving
  | _, [], r => (true, r)
  | i, t :: ts, r =>
    if t.Bad then
      (false, r)
    else
      let binding := texBase + 2 * UInt32.ofNat i
      let key := texKey t
      match map.lookup key with
      | some res =>
        resolveAll map alloc texBase (i + 1) ts { r with hits := r.hits + 1, set := r.set ++ [(binding, res.image)] }
      | none =>
        match alloc i with
        | none => (false, r)
        | some size =>
          let p := { binding, key, image := r.images.made, bytes := max size t.rgba.length }
          resolveAll map alloc texBase (i + 1) ts { r with images := r.images.alloc t, pending := r.pending ++ [p] }

def commit (c : TexCache) (p : PendingTexUpload) : TexCache :=
  { c with
    map := c.map.insert p.key { image := p.image, bytes := p.bytes }
    bytes := c.bytes + p.bytes
    misses := c.misses + 1 }

def resolveFrameTextures (f : TexFrame) (s : Textures) : Textures :=
  let (ok, r) := resolveAll s.cache.map f.alloc f.texBase 0 f.textures
    { images := s.images, hits := s.cache.hits, pending := [], set := [] }
  let cache := { s.cache with hits := r.hits }
  if ok && (r.pending.isEmpty || f.upload) then
    { images := r.images
      cache := r.pending.foldl commit cache
      set := some (r.set ++ r.pending.map fun p => (p.binding, p.image)) }
  else
    -- `free_pending`
    { images := r.images.freeAll (r.pending.map (·.image)), cache, set := none }

/-- The part of a frame that concerns its textures. -/
def frame (f : TexFrame) (s : Textures) : Textures :=
  let s := s.trim
  if f.reached && f.textures.length ≤ MAX_TEXTURES then s.resolveFrameTextures f else { s with set := none }

/-! ### The loop -/

variable {map : AList fun _ : UInt64 => ResidentTexture} {alloc : Nat → Option Nat} {texBase : UInt32} {i : Nat}
  {ts : List OwnedTexture} {r r' : Resolving} {ok : Bool} {s s' : Textures} {f : TexFrame}

/-- The textures that are not resident. -/
def missing (map : AList fun _ : UInt64 => ResidentTexture) (ts : List OwnedTexture) : List OwnedTexture :=
  ts.filter fun t => (map.lookup (texKey t)).isNone

/-- What the loop does from the `i`-th texture on. -/
structure Resolved (map : AList fun _ : UInt64 => ResidentTexture) (alloc : Nat → Option Nat) (texBase : UInt32)
    (i : Nat) (ts : List OwnedTexture) (r : Resolving) (ok : Bool) (r' : Resolving) : Prop where
  keeps : r.images.Keeps r'.images
  owners : ∀ l, r.images.Owners (r.pending.map (·.image) ++ l) → r'.images.Owners (r'.pending.map (·.image) ++ l)
  ok_iff : ok = true ↔ (∀ t ∈ ts, ¬ t.Bad) ∧
    ∀ j t, ts[j]? = some t → map.lookup (texKey t) = none → (alloc (i + j)).isSome
  keys : ok = true → r'.pending.map (·.key) = r.pending.map (·.key) ++ (missing map ts).map texKey
  /-- What is new among the pending uploads is a texture that is not resident. -/
  pending : ∀ p ∈ r'.pending, p ∈ r.pending ∨
    ∃ j t, ts[j]? = some t ∧ p.binding = texBase + 2 * UInt32.ofNat (i + j) ∧
    p.key = texKey t ∧ map.lookup p.key = none ∧ r'.images.live p.image = some t ∧ 0 < p.bytes ∧
      r.images.made ≤ p.image
  /-- What is new in the set is the image that is resident for a texture. -/
  set : ∀ e ∈ r'.set, e ∈ r.set ∨ ∃ j t res, ts[j]? = some t ∧ e.1 = texBase + 2 * UInt32.ofNat (i + j) ∧
    map.lookup (texKey t) = some res ∧ e.2 = res.image
  grows : r.set ⊆ r'.set ∧ r.pending ⊆ r'.pending
  bound : ok = true → ∀ j t, ts[j]? = some t →
    (∃ e ∈ r'.set, e.1 = texBase + 2 * UInt32.ofNat (i + j)) ∨
      ∃ p ∈ r'.pending, p.binding = texBase + 2 * UInt32.ofNat (i + j)

private theorem rgba_length_pos {t : OwnedTexture} (h : ¬ t.Bad) : 0 < t.rgba.length := by
  unfold OwnedTexture.Bad at h
  simp only [not_or, not_not] at h
  obtain ⟨hw, hh, -, -, harea⟩ := h
  have heq := checkedArea harea
  have hw' : 0 < t.width.toNat := Nat.pos_of_ne_zero fun h0 => hw (UInt32.toNat_inj.1 h0)
  have hh' : 0 < t.height.toNat := Nat.pos_of_ne_zero fun h0 => hh (UInt32.toNat_inj.1 h0)
  have := Nat.mul_pos hw' hh'
  omega

private theorem resolved_nil (r : Resolving) : Resolved map alloc texBase i [] r true r where
  keeps := .refl _
  owners _ h := h
  ok_iff := iff_of_true rfl ⟨fun t ht => absurd ht List.not_mem_nil, fun j t ht => by cases ht⟩
  keys _ := (List.append_nil _).symm
  pending _ hp := .inl hp
  set _ he := .inl he
  grows := ⟨List.Subset.refl _, List.Subset.refl _⟩
  bound _ j t ht := by cases ht

/-- A loop that stops at its first texture. -/
private theorem resolved_stop {t : OwnedTexture} (r : Resolving)
    (h : t.Bad ∨ map.lookup (texKey t) = none ∧ alloc i = none) :
    Resolved map alloc texBase i (t :: ts) r false r where
  keeps := .refl _
  owners _ h := h
  ok_iff := by
    refine iff_of_false Bool.false_ne_true fun hok => ?_
    rcases h with hbad | ⟨hnone, halloc⟩
    · exact hok.1 t List.mem_cons_self hbad
    · have hsome := hok.2 0 t rfl hnone
      rw [Nat.add_zero, halloc] at hsome
      cases hsome
  keys hok := by cases hok
  pending _ hp := .inl hp
  set _ he := .inl he
  grows := ⟨List.Subset.refl _, List.Subset.refl _⟩
  bound hok := by cases hok

private theorem resolved_hit {t : OwnedTexture} {res : ResidentTexture} (ht : ¬ t.Bad)
    (hres : map.lookup (texKey t) = some res) (h : Resolved map alloc texBase (i + 1) ts
      { r with hits := r.hits + 1, set := r.set ++ [(texBase + 2 * UInt32.ofNat i, res.image)] } ok r') :
    Resolved map alloc texBase i (t :: ts) r ok r' where
  keeps := h.keeps
  owners := h.owners
  ok_iff := by
    rw [h.ok_iff]
    constructor
    · rintro ⟨hts, halloc⟩
      refine ⟨List.forall_mem_cons.2 ⟨ht, hts⟩, fun j t' ht' hnone => ?_⟩
      cases j with
      | zero =>
        cases ht'
        rw [hres] at hnone
        cases hnone
      | succ j =>
        rw [show i + (j + 1) = i + 1 + j by omega]
        exact halloc j t' ht' hnone
    · rintro ⟨hts, halloc⟩
      refine ⟨(List.forall_mem_cons.1 hts).2, fun j t' ht' hnone => ?_⟩
      rw [show i + 1 + j = i + (j + 1) by omega]
      exact halloc (j + 1) t' ht' hnone
  keys hok := by
    have hmissing : missing map (t :: ts) = missing map ts := by
      unfold missing
      rw [List.filter_cons_of_neg (by rw [hres]; exact Bool.false_ne_true)]
    rw [h.keys hok, hmissing]
  pending p hp := by
    rcases h.pending p hp with hold | ⟨j, t', ht', hb, hrest⟩
    · exact .inl hold
    · exact .inr ⟨j + 1, t', ht', by rw [hb, show i + 1 + j = i + (j + 1) by omega], hrest⟩
  set e he := by
    rcases h.set e he with hold | ⟨j, t', res', ht', hb, hrest⟩
    · rcases List.mem_append.1 hold with hold | hnew
      · exact .inl hold
      · rw [List.mem_singleton] at hnew
        subst hnew
        exact .inr ⟨0, t, res, rfl, rfl, hres, rfl⟩
    · exact .inr ⟨j + 1, t', res', ht', by rw [hb, show i + 1 + j = i + (j + 1) by omega], hrest⟩
  grows := ⟨fun e he => h.grows.1 (List.mem_append_left _ he), h.grows.2⟩
  bound hok j t' ht' := by
    cases j with
    | zero => exact .inl ⟨_, h.grows.1 (List.mem_append_right _ (List.mem_singleton.2 rfl)), rfl⟩
    | succ j =>
      rw [show i + (j + 1) = i + 1 + j by omega]
      exact h.bound hok j t' ht'

private theorem resolved_miss {t : OwnedTexture} {size : Nat} (ht : ¬ t.Bad) (hnone : map.lookup (texKey t) = none)
    (hsize : alloc i = some size)
    (h : Resolved map alloc texBase (i + 1) ts
      { r with
        images := r.images.alloc t
        pending := r.pending ++ [{
          binding := texBase + 2 * UInt32.ofNat i
          key := texKey t
          image := r.images.made
          bytes := max size t.rgba.length }] } ok r') :
    Resolved map alloc texBase i (t :: ts) r ok r' where
  keeps := ((Arena.Keeps.refl _).alloc t).trans h.keeps
  owners l hl := by
    refine h.owners l ((hl.alloc t).perm ?_)
    rw [List.map_append, List.append_assoc, List.map_singleton]
    exact List.perm_middle.symm
  ok_iff := by
    rw [h.ok_iff]
    constructor
    · rintro ⟨hts, halloc⟩
      refine ⟨List.forall_mem_cons.2 ⟨ht, hts⟩, fun j t' ht' hnone' => ?_⟩
      cases j with
      | zero =>
        rw [Nat.add_zero, hsize]
        rfl
      | succ j =>
        rw [show i + (j + 1) = i + 1 + j by omega]
        exact halloc j t' ht' hnone'
    · rintro ⟨hts, halloc⟩
      refine ⟨(List.forall_mem_cons.1 hts).2, fun j t' ht' hnone' => ?_⟩
      rw [show i + 1 + j = i + (j + 1) by omega]
      exact halloc (j + 1) t' ht' hnone'
  keys hok := by
    have hmissing : missing map (t :: ts) = t :: missing map ts := by
      unfold missing
      rw [List.filter_cons_of_pos (by rw [hnone]; rfl)]
    rw [h.keys hok, hmissing, List.map_append, List.map_singleton, List.append_assoc]
    rfl
  pending p hp := by
    rcases h.pending p hp with hold | ⟨j, t', ht', hb, hkey, hfresh, hlive, hpos, hmade⟩
    · rcases List.mem_append.1 hold with hold | hnew
      · exact .inl hold
      · rw [List.mem_singleton] at hnew
        subst hnew
        refine .inr ⟨0, t, rfl, rfl, rfl, hnone, h.keeps.live _ _ (Arena.live_alloc _ _), ?_, Nat.le_refl _⟩
        exact Nat.lt_of_lt_of_le (rgba_length_pos ht) (Nat.le_max_right _ _)
    · exact .inr ⟨j + 1, t', ht', by rw [hb, show i + 1 + j = i + (j + 1) by omega], hkey, hfresh, hlive, hpos,
        Nat.le_of_succ_le hmade⟩
  set e he := by
    rcases h.set e he with hold | ⟨j, t', res', ht', hb, hrest⟩
    · exact .inl hold
    · exact .inr ⟨j + 1, t', res', ht', by rw [hb, show i + 1 + j = i + (j + 1) by omega], hrest⟩
  grows := ⟨h.grows.1, fun p hp => h.grows.2 (List.mem_append_left _ hp)⟩
  bound hok j t' ht' := by
    cases j with
    | zero => exact .inr ⟨_, h.grows.2 (List.mem_append_right _ (List.mem_singleton.2 rfl)), rfl⟩
    | succ j =>
      rw [show i + (j + 1) = i + 1 + j by omega]
      exact h.bound hok j t' ht'

private theorem resolveAll_spec (map : AList fun _ : UInt64 => ResidentTexture) (alloc : Nat → Option Nat)
    (texBase : UInt32) (i : Nat) (ts : List OwnedTexture) (r : Resolving) :
    Resolved map alloc texBase i ts r (resolveAll map alloc texBase i ts r).1
      (resolveAll map alloc texBase i ts r).2 := by
  induction ts generalizing i r with
  | nil => exact resolved_nil r
  | cons t ts ih =>
    unfold resolveAll
    by_cases ht : t.Bad
    · rw [if_pos ht]
      exact resolved_stop r (.inl ht)
    · rw [if_neg ht]
      simp only
      cases hres : map.lookup (texKey t) with
      | some res => exact resolved_hit ht hres (ih _ _)
      | none =>
        cases hsize : alloc i with
        | none => exact resolved_stop r (.inr ⟨hres, hsize⟩)
        | some size => exact resolved_miss ht hres hsize (ih _ _)

/-! ### Frames -/

/-- The frame gets to the point where its uploads go into the cache: all its textures are valid, there is memory for
those that are not resident, and the upload succeeds if there is one. -/
def Commits (s : Textures) (f : TexFrame) : Prop :=
  f.reached = true ∧ f.textures.length ≤ MAX_TEXTURES ∧ (∀ t ∈ f.textures, ¬ t.Bad) ∧
    (∀ i t, f.textures[i]? = some t → s.trim.cache.map.lookup (texKey t) = none → (f.alloc i).isSome) ∧
    (missing s.trim.cache.map f.textures = [] ∨ f.upload = true)

/-- What a frame does: it commits all its uploads, or it leaves cache and images as the trim did. -/
theorem frame_cases (f : TexFrame) (s : Textures) :
    (s.Commits f ∧ ∃ r, Resolved s.trim.cache.map f.alloc f.texBase 0 f.textures
        { images := s.trim.images, hits := s.trim.cache.hits, pending := [], set := [] } true r ∧
      s.frame f =
        { images := r.images
          cache := r.pending.foldl commit { s.trim.cache with hits := r.hits }
          set := some (r.set ++ r.pending.map fun p => (p.binding, p.image)) }) ∨
    (¬ s.Commits f ∧ (s.frame f).set = none ∧ (s.frame f).cache.map = s.trim.cache.map ∧
      (s.frame f).cache.bytes = s.trim.cache.bytes ∧ s.trim.images.Keeps (s.frame f).images ∧
      ∀ l, s.trim.images.Owners l → (s.frame f).images.Owners l) := by
  unfold frame
  simp only
  by_cases hreached : f.reached = true ∧ f.textures.length ≤ MAX_TEXTURES
  · rw [if_pos (by rw [Bool.and_eq_true, decide_eq_true_eq]; exact hreached)]
    unfold resolveFrameTextures
    have hspec := resolveAll_spec s.trim.cache.map f.alloc f.texBase 0 f.textures
      { images := s.trim.images, hits := s.trim.cache.hits, pending := [], set := [] }
    generalize hres : resolveAll s.trim.cache.map f.alloc f.texBase 0 f.textures
      { images := s.trim.images, hits := s.trim.cache.hits, pending := [], set := [] } = res at hspec
    obtain ⟨ok, r⟩ := res
    simp only at hspec ⊢
    have hok : ok = true ↔ (∀ t ∈ f.textures, ¬ t.Bad) ∧
        ∀ j t, f.textures[j]? = some t → s.trim.cache.map.lookup (texKey t) = none → (f.alloc j).isSome := by
      rw [hspec.ok_iff]
      simp only [Nat.zero_add]
    have hpending : ok = true → (r.pending.isEmpty = true ↔ missing s.trim.cache.map f.textures = []) := by
      intro hok
      have hkeys := hspec.keys hok
      rw [List.map_nil, List.nil_append] at hkeys
      rw [List.isEmpty_iff, ← List.map_eq_nil_iff (f := (·.key)), hkeys, List.map_eq_nil_iff]
    by_cases hdone : (ok && (r.pending.isEmpty || f.upload)) = true
    · rw [if_pos hdone]
      rw [Bool.and_eq_true, Bool.or_eq_true] at hdone
      obtain ⟨rfl, hupload⟩ := hdone
      rw [hpending rfl] at hupload
      exact .inl ⟨⟨hreached.1, hreached.2, (hok.1 rfl).1, (hok.1 rfl).2, hupload⟩, r, hspec, rfl⟩
    · rw [if_neg hdone]
      refine .inr ⟨fun hc => hdone ?_, rfl, rfl, rfl, hspec.keeps.freeAll_new fun n hn => ?_, fun l hl => ?_⟩
      · have hok' := hok.2 ⟨hc.2.2.1, hc.2.2.2.1⟩
        rw [Bool.and_eq_true, Bool.or_eq_true, hpending hok']
        exact ⟨hok', hc.2.2.2.2⟩
      · obtain ⟨p, hp, rfl⟩ := List.mem_map.1 hn
        rcases hspec.pending p hp with hold | ⟨-, -, -, -, -, -, -, -, hmade⟩
        · exact absurd hold List.not_mem_nil
        · exact hmade
      · exact (hspec.owners l hl).freeAll
  · rw [if_neg (by rw [Bool.and_eq_true, decide_eq_true_eq]; exact hreached)]
    exact .inr ⟨fun hc => hreached ⟨hc.1, hc.2.1⟩, rfl, rfl, rfl, .refl _, fun l hl => hl⟩

/-! ### Commits -/

variable {c : TexCache} {ps : List PendingTexUpload} {p : PendingTexUpload}

private theorem total_commit (c : TexCache) (p : PendingTexUpload) : Keyed.total (·.bytes) (commit c p).map =
    p.bytes + Keyed.total (·.bytes) (c.map.erase p.key) := Keyed.total_insert

private theorem commit_lt (h : Keyed.total (·.bytes) c.map < c.bytes) (p : PendingTexUpload) :
    Keyed.total (·.bytes) (commit c p).map < (commit c p).bytes := by
  have hle := Keyed.total_erase_le (·.bytes) c.map p.key
  rw [total_commit]
  show _ < c.bytes + p.bytes
  omega

private theorem foldl_commit_lt (h : Keyed.total (·.bytes) c.map < c.bytes) (ps : List PendingTexUpload) :
    Keyed.total (·.bytes) (ps.foldl commit c).map < (ps.foldl commit c).bytes := by
  induction ps generalizing c with
  | nil => exact h
  | cons p ps ih => exact ih (commit_lt h p)

/-- Every entry has some bytes. -/
def Weighs (map : AList fun _ : UInt64 => ResidentTexture) : Prop := ∀ k res, map.lookup k = some res → 0 < res.bytes

private theorem Weighs.commit (h : Weighs c.map) (hp : 0 < p.bytes) : Weighs (commit c p).map := by
  intro k res hres
  by_cases hk : k = p.key
  · have hlookup : (Textures.commit c p).map.lookup k = some { image := p.image, bytes := p.bytes } := by
      rw [hk]
      exact AList.lookup_insert _
    rw [hlookup, Option.some_inj] at hres
    rw [← hres]
    exact hp
  · refine h k res ?_
    rw [← hres]
    exact (AList.lookup_insert_ne hk).symm

/-- An upload whose key is taken leaves bytes in the total that no entry has. -/
private theorem foldl_commit_taken (hweighs : Weighs c.map) (hbytes : c.bytes = Keyed.total (·.bytes) c.map)
    (hps : ∀ p ∈ ps, 0 < p.bytes)
    (h : (∃ p ∈ ps, (c.map.lookup p.key).isSome) ∨ ¬ (ps.map (·.key)).Nodup) :
    Keyed.total (·.bytes) (ps.foldl commit c).map < (ps.foldl commit c).bytes := by
  induction ps generalizing c with
  | nil =>
    rcases h with ⟨p, hp, -⟩ | h
    · exact absurd hp List.not_mem_nil
    · exact absurd List.nodup_nil h
  | cons p ps ih =>
    have hp := hps p List.mem_cons_self
    have hps' : ∀ p ∈ ps, 0 < p.bytes := fun q hq => hps q (List.mem_cons_of_mem p hq)
    rw [List.foldl_cons]
    cases hkey : c.map.lookup p.key with
    | some res =>
      refine foldl_commit_lt ?_ ps
      have hold := hweighs _ res hkey
      have hsplit := Keyed.total_erase (f := (·.bytes)) hkey
      rw [total_commit]
      show _ < c.bytes + p.bytes
      omega
    | none =>
      have hbytes' : (commit c p).bytes = Keyed.total (·.bytes) (commit c p).map := by
        rw [total_commit, Keyed.erase_of_lookup_none hkey, ← hbytes, Nat.add_comm]
        rfl
      refine ih (hweighs.commit hp) hbytes' hps' ?_
      rcases h with ⟨q, hq, hsome⟩ | h
      · rcases List.mem_cons.1 hq with rfl | hq
        · rw [hkey] at hsome
          cases hsome
        · by_cases heq : q.key = p.key
          · rw [heq, hkey] at hsome
            cases hsome
          · refine .inl ⟨q, hq, ?_⟩
            rw [← hsome]
            exact congrArg Option.isSome (AList.lookup_insert_ne heq)
      · rw [List.map_cons, List.nodup_cons, not_and_or, not_not] at h
        rcases h with hmem | h
        · obtain ⟨q, hq, heq⟩ := List.mem_map.1 hmem
          refine .inl ⟨q, hq, ?_⟩
          rw [heq]
          exact congrArg Option.isSome (AList.lookup_insert _)
        · exact .inr h

/-- Uploads with new and distinct keys all get their entries. -/
private theorem foldl_commit_fresh (hweighs : Weighs c.map) (hbytes : c.bytes = Keyed.total (·.bytes) c.map)
    (hps : ∀ p ∈ ps, 0 < p.bytes) (hfresh : ∀ p ∈ ps, c.map.lookup p.key = none) (hnodup : (ps.map (·.key)).Nodup) :
    Weighs (ps.foldl commit c).map ∧ (ps.foldl commit c).bytes = Keyed.total (·.bytes) (ps.foldl commit c).map ∧
      (ps.map (·.image) ++ owned c.map).Perm (owned (ps.foldl commit c).map) := by
  induction ps generalizing c with
  | nil => exact ⟨hweighs, hbytes, .refl _⟩
  | cons p ps ih =>
    have hkey := hfresh p List.mem_cons_self
    rw [List.map_cons, List.nodup_cons] at hnodup
    rw [List.foldl_cons]
    have hbytes' : (commit c p).bytes = Keyed.total (·.bytes) (commit c p).map := by
      rw [total_commit, Keyed.erase_of_lookup_none hkey, ← hbytes, Nat.add_comm]
      rfl
    have hfresh' : ∀ q ∈ ps, (commit c p).map.lookup q.key = none := by
      intro q hq
      have hne : q.key ≠ p.key := fun heq => hnodup.1 (List.mem_map.2 ⟨q, hq, heq⟩)
      exact (AList.lookup_insert_ne hne).trans (hfresh q (List.mem_cons_of_mem p hq))
    obtain ⟨hw, hb, hperm⟩ := ih (hweighs.commit (hps p List.mem_cons_self)) hbytes'
      (fun q hq => hps q (List.mem_cons_of_mem p hq)) hfresh' hnodup.2
    refine ⟨hw, hb, List.Perm.trans ?_ hperm⟩
    have howned : owned (commit c p).map = p.image :: owned c.map := by
      unfold owned commit
      rw [AList.entries_insert_of_notMem (AList.lookup_eq_none.1 hkey)]
      rfl
    rw [howned]
    exact List.perm_middle.symm

/-! ### Runs -/

/-- The byte total is that of the entries, every image is owned by exactly one entry, and those that the last frame is
submitted with have not been destroyed. -/
structure Sound (s : Textures) : Prop where
  bytes : s.cache.bytes = Keyed.total (·.bytes) s.cache.map
  owners : s.images.Owners (owned s.cache.map)
  set : ∀ set ∈ s.set, ∀ e ∈ set, (s.images.live e.2).isSome

/-- The textures that a frame uploads have distinct keys, if it gets to keeping them. -/
def Fits (s : Textures) (f : TexFrame) : Prop :=
  s.Commits f → ((missing s.trim.cache.map f.textures).map texKey).Nodup

/-- What is kept between frames. -/
structure Good (s : Textures) : Prop where
  bytes : s.cache.bytes = Keyed.total (·.bytes) s.cache.map
  owners : s.images.Owners (owned s.cache.map)
  weighs : Weighs s.cache.map

private theorem good_new : new.Good where
  bytes := rfl
  owners := Arena.owners_new
  weighs _ _ h := by cases h

private theorem Good.trim (h : s.Good) : s.trim.Good := by
  unfold Textures.trim
  by_cases hcap : s.cache.map.entries.length ≥ MAX_CACHED_TEX ∨ s.cache.bytes ≥ MAX_CACHED_TEX_BYTES
  · rw [if_pos hcap]
    refine ⟨rfl, ?_, fun _ _ h => by cases h⟩
    have howners : s.images.Owners (owned s.cache.map ++ []) := by
      rw [List.append_nil]
      exact h.owners
    exact howners.freeAll
  · rw [if_neg hcap]
    exact h

/-- What the uploads of a frame are made from. -/
theorem Resolved.uploads {r₀ : Resolving} (h : Resolved map alloc texBase i ts r₀ ok r) (hr₀ : r₀.pending = []) :
    ∀ p ∈ r.pending, ∃ j t, ts[j]? = some t ∧ p.binding = texBase + 2 * UInt32.ofNat (i + j) ∧ p.key = texKey t ∧
      map.lookup p.key = none ∧ r.images.live p.image = some t ∧ 0 < p.bytes := by
  intro p hp
  rcases h.pending p hp with hold | ⟨j, t, ht, hb, hkey, hfresh, hlive, hpos, -⟩
  · rw [hr₀] at hold
    exact absurd hold List.not_mem_nil
  · exact ⟨j, t, ht, hb, hkey, hfresh, hlive, hpos⟩

private theorem Good.frame_iff (h : s.Good) (f : TexFrame) :
    ((s.frame f).Sound ↔ s.Fits f) ∧ (s.Fits f → (s.frame f).Good) := by
  have ht := h.trim
  rcases frame_cases f s with ⟨hc, r, hspec, hframe⟩ | ⟨hc, hset, hmap, hbytes, -, howners⟩
  · have huploads := hspec.uploads rfl
    have hkeys : r.pending.map (·.key) = (missing s.trim.cache.map f.textures).map texKey := by
      rw [hspec.keys rfl, List.map_nil, List.nil_append]
    have hpos : ∀ p ∈ r.pending, 0 < p.bytes := fun p hp => by
      obtain ⟨_, _, -, -, -, -, -, hpos⟩ := huploads p hp
      exact hpos
    have hfresh : ∀ p ∈ r.pending, s.trim.cache.map.lookup p.key = none := fun p hp => by
      obtain ⟨_, _, -, -, -, hfresh, -⟩ := huploads p hp
      exact hfresh
    have hlive : ∀ e ∈ r.set ++ r.pending.map (fun p => (p.binding, p.image)), (r.images.live e.2).isSome := by
      intro e he
      rcases List.mem_append.1 he with he | he
      · rcases hspec.set e he with hold | ⟨-, t, res, -, -, hres, himage⟩
        · exact absurd hold List.not_mem_nil
        · have hmem : res.image ∈ owned s.trim.cache.map :=
            List.mem_map.2 ⟨_, AList.mem_lookup_iff.1 hres, rfl⟩
          obtain ⟨a, ha⟩ := Option.isSome_iff_exists.1 ((ht.owners.live_iff _).2 hmem)
          rw [himage, hspec.keeps.live _ a ha]
          rfl
      · obtain ⟨p, hp, rfl⟩ := List.mem_map.1 he
        obtain ⟨_, t, -, -, -, -, hlive, -⟩ := huploads p hp
        rw [hlive]
        rfl
    have hgood : s.Fits f → (s.frame f).Good := by
      intro hfits
      have hnodup := hfits hc
      rw [← hkeys] at hnodup
      obtain ⟨hw, hb, hperm⟩ := foldl_commit_fresh (c := { s.trim.cache with hits := r.hits }) ht.weighs ht.bytes hpos
        hfresh hnodup
      rw [hframe]
      exact ⟨hb, (hspec.owners _ ht.owners).perm hperm, hw⟩
    refine ⟨⟨fun hsound => ?_, fun hfits => ⟨(hgood hfits).bytes, (hgood hfits).owners, ?_⟩⟩, hgood⟩
    · by_contra hnot
      have hdup : ¬ (r.pending.map (·.key)).Nodup := by
        rw [hkeys]
        exact fun hnodup => hnot fun _ => hnodup
      have hlt := foldl_commit_taken (c := { s.trim.cache with hits := r.hits }) ht.weighs ht.bytes hpos (.inr hdup)
      have heq := hsound.bytes
      rw [hframe] at heq
      exact absurd heq.symm hlt.ne
    · rw [hframe]
      intro set hset e he
      cases hset
      exact hlive e he
  · have hgood : (s.frame f).Good := by
      refine ⟨?_, ?_, ?_⟩
      · rw [hbytes, hmap]
        exact ht.bytes
      · rw [hmap]
        exact howners _ ht.owners
      · rw [hmap]
        exact ht.weighs
    refine ⟨iff_of_true ⟨hgood.bytes, hgood.owners, ?_⟩ fun h => absurd h hc, fun _ => hgood⟩
    rw [hset]
    intro set hset
    cases hset

def step (s : Textures) (f : TexFrame) : Option Textures := some (s.frame f)

/-- All along a run of frames the cache is sound exactly when no frame keeps two uploads with one key. -/
theorem sound_iff (frames : List TexFrame) : Lts.Always step Sound new frames ↔ Lts.Along step Fits new frames := by
  refine Lts.always_iff_along_total (A := fun _ => True) (I := Good) (fun _ _ => rfl) ?_ ?_ good_new
    ⟨rfl, Arena.owners_new, fun set h => by cases h⟩ fun _ _ => trivial
  · intro s f s' _ h _ hsound hs
    cases hs
    exact (h.frame_iff f).2 ((h.frame_iff f).1.1 hsound)
  · intro s f s' _ h _ hs
    cases hs
    exact (h.frame_iff f).1

/-- A texture of one pixel. -/
def pixelTexture (red : UInt8) : OwnedTexture where
  width := 1
  height := 1
  rgba := [red, 0, 0, 255]
  linear := false
  «repeat» := false

/-- A frame that uses one new texture twice. -/
def doubledFrame : TexFrame where
  textures := [pixelTexture 7, pixelTexture 7]
  texBase := 0
  reached := true
  alloc _ := some 4
  upload := true

/-- Both uploads are counted, and the image of the first one is lost. -/
theorem not_always_sound : ¬ ∀ frames, Lts.Always step Sound new frames := by
  intro h
  have hbytes := ((h [doubledFrame]).2 _ rfl).bytes
  revert hbytes
  decide +kernel

end Textures

end Infinigpu
