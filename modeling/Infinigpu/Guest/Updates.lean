import Infinigpu.Guest.Slots

/-!
# Descriptor updates (`UpdateDescriptorSets`, `UpdateDescriptorSetWithTemplate`)

Both entry points capture a descriptor with `infinigpu_apply_descriptor`, which has one effect on a set at most. They
differ in the elements of a write that they look at: the plain update takes the first one, the template all of them,
so that the last one wins.
-/

namespace Infinigpu.Icd

/-! ### The effect of a descriptor -/

inductive Effect where
  | texture (binding : UInt32) (image : Option ImageView) (sampler : Option Sampler)
  | uniform (binding : UInt32) (u : DescUbo)
  | storage (binding : UInt32) (u : DescUbo)
deriving DecidableEq

def effectOf (type : DescriptorType) (dstBinding : UInt32) (img : Option DescriptorImageInfo)
    (buf : Option DescriptorBufferInfo) : Option Effect :=
  match type, img, buf with
  | .combinedImageSampler, some img, _ => some (.texture dstBinding img.imageView img.sampler)
  | .sampledImage, some { imageView := some view, .. }, _ => some (.texture dstBinding (some view) none)
  | .sampler, some { sampler := some sampler, .. }, _ =>
    if dstBinding = 0 then none else some (.texture (dstBinding - 1) none (some sampler))
  | .uniformBuffer, _, some { buffer := some buffer, offset, range } =>
    some (.uniform dstBinding { buffer := some buffer, offset, range })
  | .storageBuffer, _, some { buffer := some buffer, offset, range } =>
    some (.storage dstBinding { buffer := some buffer, offset, range })
  | _, _, _ => none

def Effect.apply (set : DescriptorSet) : Effect → DescriptorSet
  | .texture binding image sampler =>
    texSlot set binding fun t => { image := image.or t.image, sampler := sampler.or t.sampler }
  | .uniform binding u => uboSlot set binding fun _ => u
  | .storage binding u =>
    { set with ssboBuffer := u.buffer, ssboOffset := u.offset, ssboRange := u.range, ssboBinding := binding }

private theorem applyDescriptor_eq (set : DescriptorSet) (type : DescriptorType) (dstBinding : UInt32)
    (img : Option DescriptorImageInfo) (buf : Option DescriptorBufferInfo) :
    applyDescriptor set type dstBinding img buf = (effectOf type dstBinding img buf).elim set (Effect.apply set) := by
  cases type with
  | combinedImageSampler =>
    cases img with
    | none => rfl
    | some img => rfl
  | sampledImage =>
    cases img with
    | none => rfl
    | some img =>
      obtain ⟨sampler, view⟩ := img
      cases view with
      | none => rfl
      | some view => rfl
  | sampler =>
    cases img with
    | none => rfl
    | some img =>
      obtain ⟨sampler, view⟩ := img
      cases sampler with
      | none => rfl
      | some sampler =>
        simp only [applyDescriptor, effectOf]
        split
        · rfl
        · rfl
  | uniformBuffer =>
    cases buf with
    | none => cases img <;> rfl
    | some buf =>
      obtain ⟨buffer, offset, range⟩ := buf
      cases buffer with
      | none => cases img <;> rfl
      | some buffer => cases img <;> rfl
  | storageBuffer =>
    cases buf with
    | none => cases img <;> rfl
    | some buf =>
      obtain ⟨buffer, offset, range⟩ := buf
      cases buffer with
      | none => cases img <;> rfl
      | some buffer => cases img <;> rfl
  | other => cases img <;> cases buf <;> rfl

/-! ### The effects of an update -/

def WriteDescriptorSet.effectsOn (set : Nat) (wr : WriteDescriptorSet) : List Effect :=
  if wr.dstSet = some set ∧ wr.descriptorCount ≠ 0 then
    (effectOf wr.descriptorType wr.dstBinding wr.imageInfo wr.bufferInfo).toList
  else []

def TemplateEntry.effects (e : TemplateEntry) : List Effect :=
  e.elements.filterMap fun p => effectOf e.type e.binding (some p.1) (some p.2)

theorem updateDescriptorSets_at (sets : Sets) (set : Nat) (writes : List WriteDescriptorSet) :
    updateDescriptorSets sets writes set = (writes.flatMap (·.effectsOn set)).foldl Effect.apply (sets set) := by
  induction writes generalizing sets with
  | nil => rfl
  | cons wr writes ih =>
    have hone : updateDescriptorSets sets [wr] set = (wr.effectsOn set).foldl Effect.apply (sets set) := by
      unfold WriteDescriptorSet.effectsOn
      cases hdst : wr.dstSet with
      | none => simp [updateDescriptorSets, hdst]
      | some s =>
        by_cases hcount : wr.descriptorCount = 0
        · simp [updateDescriptorSets, hdst, hcount]
        · by_cases hs : s = set
          · subst hs
            simp only [updateDescriptorSets, List.foldl_cons, List.foldl_nil, hdst, hcount, if_false,
              Function.update_self, applyDescriptor_eq, ne_eq, not_false_eq_true, and_self, if_true]
            cases effectOf wr.descriptorType wr.dstBinding wr.imageInfo wr.bufferInfo with
            | none => rfl
            | some e => rfl
          · simp [updateDescriptorSets, hdst, hcount, hs, Function.update_of_ne (Ne.symm hs)]
    have hsplit : updateDescriptorSets sets (wr :: writes) =
      updateDescriptorSets (updateDescriptorSets sets [wr]) writes :=
      rfl
    rw [hsplit, ih, hone, List.flatMap_cons, List.foldl_append]

theorem updateWithTemplate_at (sets : Sets) (set : Nat) (s : Option Nat) (entries : List TemplateEntry) :
    updateDescriptorSetWithTemplate sets s entries set =
      (if s = some set then entries.flatMap (·.effects) else []).foldl Effect.apply (sets set) := by
  have hentry : ∀ (ds : DescriptorSet) (e : TemplateEntry), e.elements.foldl (fun ds p =>
      applyDescriptor ds e.type e.binding (some p.1) (some p.2)) ds = e.effects.foldl Effect.apply ds := by
    intro ds e
    rw [TemplateEntry.effects, List.foldl_filterMap]
    refine List.foldl_ext _ _ ds fun ds p _ => ?_
    rw [applyDescriptor_eq]
    cases effectOf e.type e.binding (some p.1) (some p.2) with
    | none => rfl
    | some e => rfl
  cases s with
  | none => rfl
  | some s =>
    by_cases hs : s = set
    · subst hs
      rw [if_pos rfl, List.foldl_flatMap]
      refine (Function.update_self ..).trans ?_
      exact List.foldl_ext _ _ _ fun ds e _ => hentry ds e
    · rw [if_neg (fun h => hs (Option.some_inj.mp h))]
      exact Function.update_of_ne (Ne.symm hs) ..

/-! ### What a set holds after its effects -/

def Effect.textureUp : Effect → Option (UInt32 × (DescTexture → DescTexture))
  | .texture binding image sampler =>
    some (binding, fun t => { image := image.or t.image, sampler := sampler.or t.sampler })
  | _ => none

def Effect.uniformUp : Effect → Option (UInt32 × (DescUbo → DescUbo))
  | .uniform binding u => some (binding, fun _ => u)
  | _ => none

def Effect.storageUp : Effect → Option (UInt32 × DescUbo)
  | .storage binding u => some (binding, u)
  | _ => none

/-- The bindings whose slots are written, in order. -/
def textureBindings (es : List Effect) : List UInt32 := (es.filterMap Effect.textureUp).map Prod.fst

def uniformBindings (es : List Effect) : List UInt32 := (es.filterMap Effect.uniformUp).map Prod.fst

/-- The views, the samplers and the buffers that are written to a binding, in order, and the storage buffers. -/
def viewsAt (k : UInt32) (es : List Effect) : List ImageView :=
  es.filterMap fun e =>
    match e with
    | .texture binding image _ => if binding = k then image else none
    | _ => none

def samplersAt (k : UInt32) (es : List Effect) : List Sampler :=
  es.filterMap fun e =>
    match e with
    | .texture binding _ sampler => if binding = k then sampler else none
    | _ => none

def uniformsAt (k : UInt32) (es : List Effect) : List DescUbo :=
  es.filterMap fun e =>
    match e with
    | .uniform binding u => if binding = k then some u else none
    | _ => none

def storages (es : List Effect) : List (UInt32 × DescUbo) := es.filterMap Effect.storageUp

/-- The last of what is written, and what was there before if nothing is. -/
private theorem getLast?_filterMap_cons {β : Type} (f : Effect → Option β) (e : Effect) (es : List Effect)
    (v : Option β) :
    ((e :: es).filterMap f).getLast?.or v = (es.filterMap f).getLast?.or ((f e).or v) := by
  rw [List.filterMap_cons]
  cases f e with
  | none => rfl
  | some b =>
    simp only [List.getLast?_cons]
    cases (es.filterMap f).getLast? with
    | none => rfl
    | some c => rfl

private theorem applied_textures (set : DescriptorSet) (es : List Effect) : (es.foldl Effect.apply set).textures =
    set.textures.writeAll { image := none, sampler := none } (es.filterMap Effect.textureUp) := by
  induction es generalizing set with
  | nil => rfl
  | cons e es ih =>
    rw [List.foldl_cons, ih]
    cases e with
    | texture binding image sampler => rfl
    | uniform binding u => rfl
    | storage binding u => rfl

private theorem applied_ubos (set : DescriptorSet) (es : List Effect) : (es.foldl Effect.apply set).ubos =
    set.ubos.writeAll { buffer := none, offset := 0, range := 0 } (es.filterMap Effect.uniformUp) := by
  induction es generalizing set with
  | nil => rfl
  | cons e es ih =>
    rw [List.foldl_cons, ih]
    cases e with
    | texture binding image sampler => rfl
    | uniform binding u => rfl
    | storage binding u => rfl

/-- The storage buffer of a set with its binding. -/
def DescriptorSet.storage (set : DescriptorSet) : UInt32 × DescUbo :=
  (set.ssboBinding, { buffer := set.ssboBuffer, offset := set.ssboOffset, range := set.ssboRange })

private theorem applied_storage (set : DescriptorSet) (es : List Effect) :
    some (es.foldl Effect.apply set).storage = (storages es).getLast?.or (some set.storage) := by
  induction es generalizing set with
  | nil => rfl
  | cons e es ih =>
    rw [List.foldl_cons, ih, storages, storages, getLast?_filterMap_cons]
    cases e with
    | texture binding image sampler => rfl
    | uniform binding u => rfl
    | storage binding u => rfl

private theorem writtenAt_textures (k : UInt32) (es : List Effect) (t : DescTexture) :
    Slots.writtenAt k (es.filterMap Effect.textureUp) t =
      { image := (viewsAt k es).getLast?.or t.image, sampler := (samplersAt k es).getLast?.or t.sampler } := by
  induction es generalizing t with
  | nil => rfl
  | cons e es ih =>
    rw [viewsAt, getLast?_filterMap_cons, samplersAt, getLast?_filterMap_cons]
    cases e with
    | texture binding image sampler =>
      refine (ih (if binding = k then { image := image.or t.image, sampler := sampler.or t.sampler } else t)).trans ?_
      by_cases hk : binding = k
      · simp only [hk, if_true]
        rfl
      · simp only [hk, if_false]
        rfl
    | uniform binding u => exact ih t
    | storage binding u => exact ih t

private theorem writtenAt_ubos (k : UInt32) (es : List Effect) (u : DescUbo) :
    some (Slots.writtenAt k (es.filterMap Effect.uniformUp) u) = (uniformsAt k es).getLast?.or (some u) := by
  induction es generalizing u with
  | nil => rfl
  | cons e es ih =>
    rw [uniformsAt, getLast?_filterMap_cons]
    cases e with
    | texture binding image sampler => exact ih u
    | uniform binding v =>
      refine (ih (if binding = k then v else u)).trans ?_
      by_cases hk : binding = k
      · simp only [hk, if_true]
        rfl
      · simp only [hk, if_false]
        rfl
    | storage binding v => exact ih u

/-- What a slot holds before it is written. -/
def DescriptorSet.textureAt (set : DescriptorSet) (k : UInt32) : DescTexture :=
  (set.textures.get k).getD { image := none, sampler := none }

def DescriptorSet.uboAt (set : DescriptorSet) (k : UInt32) : DescUbo :=
  (set.ubos.get k).getD { buffer := none, offset := 0, range := 0 }

/-- The bindings that have a texture slot, and a uniform slot, after the effects. -/
def textureSlots (set : DescriptorSet) (es : List Effect) : List UInt32 :=
  Slots.taken MAX_SET_TEXTURES set.textures.keys (textureBindings es)

def uboSlots (set : DescriptorSet) (es : List Effect) : List UInt32 :=
  Slots.taken MAX_SET_UBOS set.ubos.keys (uniformBindings es)

/-- A texture slot has the last view and the last sampler that were written to it. -/
theorem applied_texture (set : DescriptorSet) (es : List Effect) (k : UInt32) :
    (es.foldl Effect.apply set).textures.get k =
      if k ∈ textureSlots set es then
        some { image := (viewsAt k es).getLast?.or (set.textureAt k).image
               sampler := (samplersAt k es).getLast?.or (set.textureAt k).sampler }
      else none := by
  rw [applied_textures, Slots.get_writeAll, writtenAt_textures]
  rfl

/-- A uniform slot has the last buffer that was written to it. -/
private theorem applied_ubo (set : DescriptorSet) (es : List Effect) (k : UInt32) :
    (es.foldl Effect.apply set).ubos.get k =
      if k ∈ uboSlots set es then (uniformsAt k es).getLast?.or (some (set.uboAt k)) else none := by
  rw [applied_ubos, Slots.get_writeAll, writtenAt_ubos]
  rfl

/-! ### Plain updates against templates -/

/-- A write of an array of descriptors, each read as both kinds of record. -/
structure DescriptorWrite where
  type : DescriptorType
  binding : UInt32
  elements : Counted (DescriptorImageInfo × DescriptorBufferInfo)

namespace DescriptorWrite

/-- The write as it is given to `UpdateDescriptorSets`, with pointers to its first element. -/
def plain (set : Nat) (w : DescriptorWrite) : WriteDescriptorSet where
  dstSet := some set
  dstBinding := w.binding
  descriptorCount := w.elements.count
  descriptorType := w.type
  imageInfo := w.elements.items.head?.map Prod.fst
  bufferInfo := w.elements.items.head?.map Prod.snd

/-- The entry of the template with the same descriptors. -/
def entry (w : DescriptorWrite) : TemplateEntry where
  type := w.type
  binding := w.binding
  elements := w.elements.items

/-- The effects of all elements, and that of the first one. -/
def effects (w : DescriptorWrite) : List Effect := w.entry.effects

def firstEffect (w : DescriptorWrite) : List Effect :=
  (w.elements.items.head?.bind fun p => effectOf w.type w.binding (some p.1) (some p.2)).toList

private theorem plain_effectsOn (set : Nat) (w : DescriptorWrite) : (w.plain set).effectsOn set = w.firstEffect := by
  unfold WriteDescriptorSet.effectsOn firstEffect
  cases hitems : w.elements.items with
  | nil =>
    have hzero : (w.plain set).descriptorCount = 0 := w.elements.count_eq_zero.mpr hitems
    rw [if_neg (fun h => h.2 hzero)]
    rfl
  | cons p ps =>
    have hcount : (w.plain set).descriptorCount ≠ 0 := by
      intro h
      rw [w.elements.count_eq_zero.mp h] at hitems
      cases hitems
    rw [if_pos ⟨rfl, hcount⟩]
    simp [plain, hitems]

end DescriptorWrite

private theorem plain_at (sets : Sets) (set : Nat) (ws : List DescriptorWrite) :
    updateDescriptorSets sets (ws.map (·.plain set)) set =
      (ws.flatMap (·.firstEffect)).foldl Effect.apply (sets set) := by
  rw [updateDescriptorSets_at, List.flatMap_map]
  simp only [DescriptorWrite.plain_effectsOn]

private theorem template_at (sets : Sets) (set : Nat) (ws : List DescriptorWrite) :
    updateDescriptorSetWithTemplate sets (some set) (ws.map (·.entry)) set =
      (ws.flatMap (·.effects)).foldl Effect.apply (sets set) := by
  rw [updateWithTemplate_at, if_pos rfl, List.flatMap_map]
  rfl

/-- Two sets have captured the same textures with their samplers, uniform buffers and storage buffer. -/
structure SameCaptures (s t : DescriptorSet) : Prop where
  textures : ∀ k, s.textures.get k = t.textures.get k
  ubos : ∀ k, s.ubos.get k = t.ubos.get k
  storage : s.storage = t.storage

/-- The same bindings get a slot with `es` as with `fs`, and what `es` write last to each is what `fs` write last. -/
structure SameLast (set : DescriptorSet) (es fs : List Effect) : Prop where
  textures : ∀ k, k ∈ textureSlots set es ↔ k ∈ textureSlots set fs
  views : ∀ k ∈ textureSlots set fs, (viewsAt k es).getLast?.or (set.textureAt k).image =
    (viewsAt k fs).getLast?.or (set.textureAt k).image
  samplers : ∀ k ∈ textureSlots set fs, (samplersAt k es).getLast?.or (set.textureAt k).sampler =
    (samplersAt k fs).getLast?.or (set.textureAt k).sampler
  ubos : ∀ k, k ∈ uboSlots set es ↔ k ∈ uboSlots set fs
  uniforms : ∀ k ∈ uboSlots set fs, (uniformsAt k es).getLast?.or (some (set.uboAt k)) =
    (uniformsAt k fs).getLast?.or (some (set.uboAt k))
  storage : (storages es).getLast?.or (some set.storage) = (storages fs).getLast?.or (some set.storage)

/-- Optional values that are there under one condition each. -/
private theorem ite_some_eq_iff {α : Type} {P Q : Prop} [Decidable P] [Decidable Q] (a b : α) :
    ((if P then some a else none) = if Q then some b else none) ↔ (P ↔ Q) ∧ (Q → a = b) := by
  by_cases hP : P
  · by_cases hQ : Q
    · simp [hP, hQ]
    · simp [hP, hQ]
  · by_cases hQ : Q
    · simp [hP, hQ]
    · simp [hP, hQ]

private theorem or_some_eq {α : Type} (o : Option α) (a : α) : o.or (some a) = some (o.getD a) := by
  cases o with
  | none => rfl
  | some b => rfl

private theorem sameCaptures_iff (set : DescriptorSet) (es fs : List Effect) :
    SameCaptures (es.foldl Effect.apply set) (fs.foldl Effect.apply set) ↔ SameLast set es fs := by
  have htex : (∀ k, (es.foldl Effect.apply set).textures.get k = (fs.foldl Effect.apply set).textures.get k) ↔
      (∀ k, k ∈ textureSlots set es ↔ k ∈ textureSlots set fs) ∧
        (∀ k ∈ textureSlots set fs, (viewsAt k es).getLast?.or (set.textureAt k).image =
          (viewsAt k fs).getLast?.or (set.textureAt k).image) ∧
        ∀ k ∈ textureSlots set fs, (samplersAt k es).getLast?.or (set.textureAt k).sampler =
          (samplersAt k fs).getLast?.or (set.textureAt k).sampler := by
    simp only [applied_texture, ite_some_eq_iff, DescTexture.mk.injEq, forall_and]
  have hubo : (∀ k, (es.foldl Effect.apply set).ubos.get k = (fs.foldl Effect.apply set).ubos.get k) ↔
      (∀ k, k ∈ uboSlots set es ↔ k ∈ uboSlots set fs) ∧
        ∀ k ∈ uboSlots set fs, (uniformsAt k es).getLast?.or (some (set.uboAt k)) =
          (uniformsAt k fs).getLast?.or (some (set.uboAt k)) := by
    simp only [applied_ubo, or_some_eq, ite_some_eq_iff, forall_and, Option.some_inj]
  have hstorage : (es.foldl Effect.apply set).storage = (fs.foldl Effect.apply set).storage ↔
      (storages es).getLast?.or (some set.storage) = (storages fs).getLast?.or (some set.storage) := by
    rw [← applied_storage, ← applied_storage, Option.some_inj]
  constructor
  · intro h
    obtain ⟨hslots, hviews, hsamplers⟩ := htex.mp h.textures
    obtain ⟨hubos, huniforms⟩ := hubo.mp h.ubos
    exact ⟨hslots, hviews, hsamplers, hubos, huniforms, hstorage.mp h.storage⟩
  · intro h
    exact ⟨htex.mpr ⟨h.textures, h.views, h.samplers⟩, hubo.mpr ⟨h.ubos, h.uniforms⟩, hstorage.mpr h.storage⟩

/-- A plain update and a template agree on a list of writes exactly if the first elements take the slots that all
elements take, and what they write last to each is what all elements write last. -/
theorem updates_agree_iff (sets : Sets) (set : Nat) (ws : List DescriptorWrite) :
    SameCaptures (updateDescriptorSets sets (ws.map (·.plain set)) set)
        (updateDescriptorSetWithTemplate sets (some set) (ws.map (·.entry)) set) ↔
      SameLast (sets set) (ws.flatMap (·.firstEffect)) (ws.flatMap (·.effects)) := by
  rw [plain_at, template_at]
  exact sameCaptures_iff (sets set) _ _

/-- Writes of one descriptor at most are applied alike. -/
theorem updates_agree_single (sets : Sets) (set : Nat) (ws : List DescriptorWrite)
    (h : ∀ w ∈ ws, w.elements.items.length ≤ 1) :
    updateDescriptorSets sets (ws.map (·.plain set)) set =
      updateDescriptorSetWithTemplate sets (some set) (ws.map (·.entry)) set := by
  have hsame : ws.flatMap (·.firstEffect) = ws.flatMap (·.effects) := by
    refine List.flatMap_congr fun w hw => ?_
    have hlen := h w hw
    rw [DescriptorWrite.firstEffect, DescriptorWrite.effects, TemplateEntry.effects, DescriptorWrite.entry]
    cases hitems : w.elements.items with
    | nil => rfl
    | cons p ps =>
      rw [hitems, List.length_cons] at hlen
      have hnil : ps = [] := List.length_eq_zero_iff.mp (by omega)
      rw [hnil, List.head?_cons, Option.bind_some]
      cases hp : effectOf w.type w.binding (some p.1) (some p.2) with
      | none => simp [hp]
      | some e => simp [hp]
  rw [plain_at, template_at, hsame]

/-- An array of two samplers at binding 1. -/
def samplerArray : DescriptorWrite where
  type := .sampler
  binding := 1
  elements :=
    { items :=
        [({ sampler := some { linear := false, «repeat» := false }, imageView := none },
            { buffer := none, offset := 0, range := 0 }),
          ({ sampler := some { linear := true, «repeat» := false }, imageView := none },
            { buffer := none, offset := 0, range := 0 })]
      lt := by decide }

/-- The plain update keeps the first sampler, the template the last one. -/
theorem updates_not_always_agree : ¬ ∀ (sets : Sets) (set : Nat) (ws : List DescriptorWrite),
    SameCaptures (updateDescriptorSets sets (ws.map (·.plain set)) set)
      (updateDescriptorSetWithTemplate sets (some set) (ws.map (·.entry)) set) := by
  intro h
  have htex := (h (fun _ => .empty) 0 [samplerArray]).textures 0
  exact absurd htex (by decide +kernel)

end Infinigpu.Icd
