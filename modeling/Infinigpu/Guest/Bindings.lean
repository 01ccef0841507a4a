import Infinigpu.Guest.Indexed
import Infinigpu.Guest.Updates

/-!
# Textures from the descriptor writes to the host's bindings

The host gives the `i`-th texture of a list the binding `base + 2 * i`, so the list must have the textures of all
slots, in the order of their bindings and without gaps; otherwise none is forwarded. Slots are made in the order of
the writes, by images and by samplers, which are written one binding higher. The pixels of all textures travel in one
section, which the host carves up again.
-/

namespace Infinigpu.Icd

/-! ### The writes to a set -/

/-- The effects on a set after a call, `es` being those before it; an allocation makes a new set of it. -/
def Call.effectsOn (set : Nat) (es : List Effect) : Call → List Effect
  | .allocateDescriptorSet s => if s = set then [] else es
  | .updateDescriptorSets writes => es ++ writes.flatMap (·.effectsOn set)
  | .updateDescriptorSetWithTemplate s entries => if s = some set then es ++ entries.flatMap (·.effects) else es
  | _ => es

/-- What was written to a set since it was allocated. -/
def written (set : Nat) (calls : List Call) : List Effect := calls.foldl (Call.effectsOn set) []

/-- A set is what was written to it. -/
private theorem sets_run (set : Nat) (calls : List Call) :
    (State.start.run calls).sets set = (written set calls).foldl Effect.apply .empty := by
  have hrun : ∀ (st : State) (es : List Effect), st.sets set = es.foldl Effect.apply .empty →
      (st.run calls).sets set = (calls.foldl (Call.effectsOn set) es).foldl Effect.apply .empty := by
    induction calls with
    | nil => exact fun st es h => h
    | cons c calls ih =>
      intro st es h
      refine ih (st.call c) (c.effectsOn set es) ?_
      cases c with
      | beginCommandBuffer => exact h
      | cmd c => exact h
      | allocateDescriptorSet s =>
        change Function.update st.sets s .empty set = (if s = set then [] else es).foldl Effect.apply .empty
        by_cases hs : s = set
        · rw [if_pos hs, hs]
          exact Function.update_self ..
        · rw [if_neg hs, ← h]
          exact Function.update_of_ne (Ne.symm hs) ..
      | updateDescriptorSets writes =>
        refine (updateDescriptorSets_at st.sets set writes).trans ?_
        rw [h, ← List.foldl_append]
        rfl
      | updateDescriptorSetWithTemplate s entries =>
        refine (updateWithTemplate_at st.sets set s entries).trans ?_
        change _ = (if s = some set then es ++ entries.flatMap (·.effects) else es).foldl Effect.apply .empty
        by_cases hs : s = some set
        · rw [if_pos hs, if_pos hs, List.foldl_append, ← h]
        · rw [if_neg hs, if_neg hs, ← h]
          rfl
      | hostWrite p bs => exact h
  exact hrun State.start [] rfl

/-! ### The textures that are forwarded -/

/-- The binding of the `i`-th texture. -/
def texAt (base : UInt32) (i : Nat) : UInt32 := base + 2 * UInt32.ofNat i

private theorem texAt_zero (base : UInt32) : texAt base 0 = base := by
  unfold texAt
  simp

private theorem texAt_succ (base : UInt32) (i : Nat) : texAt (base + 2) i = texAt base (i + 1) := by
  unfold texAt
  rw [UInt32.ofNat_add, UInt32.mul_add, UInt32.add_assoc, UInt32.add_comm (2 * UInt32.ofNat i)]
  rfl

private theorem denseFrom_getElem? {expected : UInt32} {slots : List (UInt32 × DescTexture)}
    {imgs : List (Image × Option Sampler)} (h : denseFrom expected slots = some imgs) (i : Nat) {img : Image}
    {smp : Option Sampler} (hi : imgs[i]? = some (img, smp)) :
    ∃ view, slots[i]? = some (texAt expected i, { image := some view, sampler := smp }) ∧ view.image = some img := by
  induction slots generalizing expected imgs i with
  | nil =>
    cases h
    cases hi
  | cons slot rest ih =>
    obtain ⟨binding, view, sampler⟩ := slot
    cases hview : view.bind (·.image) with
    | none => simp [denseFrom, hview] at h
    | some img' =>
      by_cases hbinding : binding = expected
      · simp only [denseFrom, hview, hbinding, if_true, Option.map_eq_some_iff] at h
        obtain ⟨imgs', himgs', rfl⟩ := h
        cases i with
        | zero =>
          obtain ⟨v, rfl, hv⟩ := Option.bind_eq_some_iff.mp hview
          rw [List.getElem?_cons_zero, Option.some_inj, Prod.mk.injEq] at hi
          obtain ⟨rfl, rfl⟩ := hi
          exact ⟨v, by rw [texAt_zero, List.getElem?_cons_zero, hbinding], hv⟩
        | succ i =>
          rw [List.getElem?_cons_succ] at hi
          rw [List.getElem?_cons_succ, ← texAt_succ]
          exact ih himgs' i hi
      · simp [denseFrom, hview, hbinding] at h

/-- The bindings of the slots have no gaps. -/
private theorem denseFrom_keys {expected : UInt32} {slots : List (UInt32 × DescTexture)}
    {imgs : List (Image × Option Sampler)} (h : denseFrom expected slots = some imgs) (k : UInt32) :
    k ∈ slots.map Prod.fst ↔ ∃ i < imgs.length, k = texAt expected i := by
  have hlen := denseFrom_length h
  rw [List.mem_map]
  constructor
  · rintro ⟨slot, hslot, rfl⟩
    obtain ⟨i, hi, hget⟩ := List.mem_iff_getElem.mp hslot
    have hi' : i < imgs.length := by omega
    have himg : imgs[i]? = some imgs[i] := List.getElem?_eq_getElem hi'
    obtain ⟨view, hview, -⟩ := denseFrom_getElem? h i himg
    rw [List.getElem?_eq_getElem hi, Option.some_inj, hget] at hview
    exact ⟨i, by omega, by rw [hview]⟩
  · rintro ⟨i, hi, rfl⟩
    obtain ⟨view, hview, -⟩ := denseFrom_getElem? h i (List.getElem?_eq_getElem hi)
    exact ⟨_, List.mem_of_getElem? hview, rfl⟩

/-- The slots are at consecutive even offsets from a first one. -/
def DescriptorSet.EvenlySpaced (ds : DescriptorSet) : Prop :=
  ∃ base, ∀ k, k ∈ ds.textures.keys ↔ ∃ i < ds.textures.keys.length, k = texAt base i

/-- The textures of all slots are forwarded in the order of their bindings, each with the view and the sampler that
`es` wrote last to its slot. -/
structure Lands (ds : DescriptorSet) (es : List Effect) (base : UInt32) (imgs : List (Image × Option Sampler)) :
    Prop where
  all : imgs.length = ds.textures.keys.length
  slots : ∀ k, k ∈ ds.textures.keys ↔ ∃ i < imgs.length, k = texAt base i
  written : ∀ i img smp, imgs[i]? = some (img, smp) →
    (∃ view, (viewsAt (texAt base i) es).getLast? = some view ∧ view.image = some img) ∧
      (samplersAt (texAt base i) es).getLast? = smp

private theorem mem_sortedTextures {ds : DescriptorSet} {e : UInt32 × DescTexture} :
    e ∈ ds.sortedTextures ↔ e ∈ ds.textures.entries := (List.perm_insertionSort _ _).mem_iff

private theorem lands {es : List Effect} {base : UInt32} {imgs : List (Image × Option Sampler)}
    (h : (es.foldl Effect.apply .empty).forwardedTextures = some (base, imgs)) :
    Lands (es.foldl Effect.apply .empty) es base imgs := by
  have hget := fun k => applied_texture .empty es k
  generalize es.foldl Effect.apply .empty = ds at h hget
  have hdense : denseFrom base ds.sortedTextures = some imgs := by
    unfold DescriptorSet.forwardedTextures at h
    cases hsorted : ds.sortedTextures with
    | nil =>
      rw [hsorted] at h
      cases h
    | cons slot rest =>
      rw [hsorted] at h
      obtain ⟨imgs', himgs', heq⟩ := Option.map_eq_some_iff.mp h
      rw [Prod.mk.injEq] at heq
      obtain ⟨rfl, rfl⟩ := heq
      exact himgs'
  have hkeys : ∀ k, k ∈ ds.textures.keys ↔ k ∈ ds.sortedTextures.map Prod.fst := by
    intro k
    rw [Slots.keys, List.mem_map, List.mem_map]
    exact exists_congr fun e => and_congr_left' mem_sortedTextures.symm
  refine ⟨?_, fun k => (hkeys k).trans (denseFrom_keys hdense k), ?_⟩
  · rw [denseFrom_length hdense, Slots.keys_length]
    exact List.length_insertionSort _ _
  · intro i img smp hi
    obtain ⟨view, hview, himg⟩ := denseFrom_getElem? hdense i hi
    -- the slot holds what was written to its binding
    have hslot := hget (texAt base i)
    rw [Slots.mem_entries_iff.mp (mem_sortedTextures.mp (List.mem_of_getElem? hview))] at hslot
    by_cases hk : texAt base i ∈ textureSlots .empty es
    · rw [if_pos hk, Option.some_inj, DescTexture.mk.injEq] at hslot
      exact ⟨⟨view, (hslot.1.trans Option.or_none).symm, himg⟩, (hslot.2.trans Option.or_none).symm⟩
    · rw [if_neg hk] at hslot
      cases hslot

/-- A set whose slots are not evenly spaced forwards no texture. -/
private theorem forwardedTextures_eq_none {es : List Effect} (h : ¬ (es.foldl Effect.apply .empty).EvenlySpaced) :
    (es.foldl Effect.apply .empty).forwardedTextures = none := by
  cases hfwd : (es.foldl Effect.apply .empty).forwardedTextures with
  | none => rfl
  | some r =>
    have hlands : Lands (es.foldl Effect.apply .empty) es r.1 r.2 := lands hfwd
    refine absurd ⟨r.1, fun k => ?_⟩ h
    rw [hlands.slots k, hlands.all]

/-! ### The textures that the host carves out -/

/-- A forwarded image as the host should sample it; one that cannot be forwarded is a white texel. -/
def Image.sampled (maps : Maps) (img : Image) (sampler : Option Sampler) : OwnedTexture where
  width := if img.pixels.isSome then img.width else 1
  height := if img.pixels.isSome then img.height else 1
  rgba := img.texturePixels maps
  linear := sampler.any (·.linear)
  «repeat» := sampler.any (·.repeat)

private theorem textureDesc_pixels (maps : Maps) (img : Image) (sampler : Option Sampler) :
    (img.textureDesc sampler).dataLen.toNat = (img.texturePixels maps).length := by
  unfold Image.textureDesc Image.texturePixels
  cases img.pixels with
  | none => rfl
  | some p =>
    simp only [Option.isSome_some, if_true]
    exact (Ptr.load_length maps p _).symm

private theorem sampled_linear (sampler : Option Sampler) :
    (samplerFlags sampler &&& SamplerFlags.linear != 0) = sampler.any (·.linear) := by
  cases sampler with
  | none => rfl
  | some s =>
    obtain ⟨linear, rep⟩ := s
    cases linear <;> cases rep <;> decide

private theorem sampled_repeat (sampler : Option Sampler) :
    (samplerFlags sampler &&& SamplerFlags.repeat != 0) = sampler.any (·.repeat) := by
  cases sampler with
  | none => rfl
  | some s =>
    obtain ⟨linear, rep⟩ := s
    cases linear <;> cases rep <;> decide

/-- Every texture gets its own pixels, if there are enough for all. -/
private theorem ownedTextures_sampled (maps : Maps) (imgs : List (Image × Option Sampler)) (n : Nat)
    (h : ((imgs.map fun t => t.1.textureDesc t.2).map (·.dataLen.toNat)).sum ≤ n) :
    ownedTextures (imgs.map fun t => t.1.textureDesc t.2) ((imgs.flatMap fun t => t.1.texturePixels maps).take n) =
      imgs.map fun t => t.1.sampled maps t.2 := by
  induction imgs generalizing n with
  | nil => rfl
  | cons t imgs ih =>
    obtain ⟨img, sampler⟩ := t
    have hlen := textureDesc_pixels maps img sampler
    rw [List.map_cons, List.map_cons, List.sum_cons, hlen] at h
    have htake : (img.texturePixels maps ++ imgs.flatMap fun t => t.1.texturePixels maps).take n =
        img.texturePixels maps ++
          (imgs.flatMap fun t => t.1.texturePixels maps).take (n - (img.texturePixels maps).length) := by
      rw [List.take_append, List.take_of_length_le (by omega)]
    have hflags : (img.textureDesc sampler).samplerFlags = samplerFlags sampler := by
      unfold Image.textureDesc
      split
      · rfl
      · rfl
    have hone : ({ width := (img.textureDesc sampler).width
                   height := (img.textureDesc sampler).height
                   rgba := img.texturePixels maps
                   linear := samplerFlags sampler &&& SamplerFlags.linear != 0
                   «repeat» := samplerFlags sampler &&& SamplerFlags.repeat != 0 } : OwnedTexture) =
        img.sampled maps sampler := by
      rw [sampled_linear, sampled_repeat]
      unfold Image.sampled Image.textureDesc
      cases img.pixels with
      | none => rfl
      | some p => rfl
    rw [List.map_cons, List.map_cons, List.flatMap_cons, htake, ownedTextures, hlen, List.take_left, List.drop_left,
      ih _ (by omega), hflags, hone]

/-- The textures that the host decodes of a staged command list. -/
private theorem staged_textures {st : State} {idev : Kmd.IgpuDevice} {boHandle : UInt32} {staged : List UInt8}
    {p : Pipeline} {draw : OwnedForwardedDraw} {maxBytes : Nat} (hstaged : st.staged idev boHandle = some staged)
    (hp : st.cmd.boundPipeline = some p) (hcmdlist : st.takesCmdlist p)
    (h : decodeForwardedCmdlist (staged.drop SubmitCmd.size) maxBytes = some draw) :
    ∃ g, draw.geometry = some g ∧ g.texBinding = st.boundSet.texBinding ∧
      g.textures = st.boundSet.textureImages.map fun t => t.1.sampled st.maps t.2 := by
  obtain ⟨vs, fs, img, vdata, idata, j, -, hacc, rfl⟩ := staged_cut hstaged hp hcmdlist h
  refine ⟨_, rfl, rfl, ?_⟩
  have hsum := hacc.texpix
  simp only [CmdlistArgs.cutPixels, cmdlistArgs, texturePixels, List.take_take] at hsum ⊢
  exact ownedTextures_sampled st.maps st.boundSet.textureImages _ (hsum.trans (List.length_take_le ..))

/-! ### The bindings of the host -/

private theorem describedTextures_eq {draw : OwnedForwardedDraw} {g : OwnedGeometry} (hg : draw.geometry = some g)
    (hne : g.textures ≠ []) (hlt : g.textures.length < 2 ^ 32) :
    describedTextures draw = (g.texBinding, g.textures) := by
  have hcount : UInt32.ofNat g.textures.length > 0 := by
    rw [gt_iff_lt, UInt32.lt_iff_toNat_lt, UInt32.toNat_ofNat_of_lt' hlt]
    exact List.length_pos_iff.mpr hne
  have hsig : (descSigOf draw).isSome := by
    unfold descSigOf
    simp only [hg, hcount, if_true]
    rw [if_neg (fun h => Option.some_ne_none _ h.2.1)]
    rfl
  obtain ⟨sig, hsig⟩ := Option.isSome_iff_exists.mp hsig
  simp only [describedTextures, hsig, hg]

/-- What a frame binds for the textures of a list, each at the binding of its position: the texture, or with the
caches enabled what is resident under its key. -/
private theorem bound_at {cached : Bool} {frames : List DrawFrame} {f : DrawFrame}
    {draw : OwnedForwardedDraw} {b : Bound} {g : OwnedGeometry}
    (hbound : ((Resources.rendered cached frames).render cached f).bound = some (draw, b))
    (hg : f.draw.geometry = some g) (hlt : g.textures.length < 2 ^ 32) :
    (∀ e ∈ b.textures, ∃ i < g.textures.length, e.1 = texAt g.texBinding i) ∧
      ∀ i t, g.textures[i]? = some t →
        (texAt g.texBinding i,
          some (if cached then ((Resources.rendered cached frames).textures.resident t).getD t else t)) ∈
          b.textures := by
  have htextures := Resources.render_textures hbound
  by_cases hne : g.textures = []
  · have hnone : (describedTextures f.draw).2 = [] := by
      unfold describedTextures
      rw [hg]
      cases descSigOf f.draw with
      | none => rfl
      | some sig => exact hne
    rw [htextures, hnone, hne]
    refine ⟨fun e he => absurd he List.not_mem_nil, fun i t ht => ?_⟩
    cases ht
  · rw [htextures, describedTextures_eq hg hne hlt]
    constructor
    · intro e he
      obtain ⟨j, t, ht, rfl⟩ := mem_bindings.mp he
      obtain ⟨hj, -⟩ := List.getElem?_eq_some_iff.mp ht
      rw [List.length_map] at hj
      exact ⟨j, hj, by rw [Nat.zero_add]; rfl⟩
    · intro i t ht
      refine mem_bindings.mpr ⟨i, _, ?_, by rw [Nat.zero_add]; rfl⟩
      rw [List.getElem?_map, ht, Option.map_some]

/-- **Textures land on the bindings they were written at.** Unless its slots are evenly spaced a set forwards nothing;
if it forwards a texture it forwards those of all slots, in the order of the bindings, with the view and the sampler
that were written last. The host decodes each of them with its own pixels, and binds it at the binding it was written
at; with its cache enabled it binds there what is resident under the key of the texture, which is the texture itself
unless other pixels have its key. -/
theorem textures_land (calls : List Call) (set : Nat) :
    let st := State.start.run calls
    (¬ (st.sets set).EvenlySpaced → (st.sets set).forwardedTextures = none) ∧
    (∀ base imgs, (st.sets set).forwardedTextures = some (base, imgs) →
      Lands (st.sets set) (written set calls) base imgs) ∧
    ∀ idev boHandle staged p maxBytes cached frames (f : DrawFrame), st.cmd.boundDescSet = some set →
      st.staged idev boHandle = some staged → st.cmd.boundPipeline = some p → st.takesCmdlist p →
      decodeForwardedCmdlist (staged.drop SubmitCmd.size) maxBytes = some f.draw →
        ∃ g, f.draw.geometry = some g ∧ g.texBinding = (st.sets set).texBinding ∧
          g.textures = ((st.sets set).textureImages.map fun t => t.1.sampled st.maps t.2) ∧
          ∀ draw b, ((Resources.rendered cached frames).render cached f).bound = some (draw, b) →
            (∀ e ∈ b.textures, ∃ i < g.textures.length, e.1 = texAt (st.sets set).texBinding i) ∧
            ∀ i t, g.textures[i]? = some t →
              (texAt (st.sets set).texBinding i,
                some (if cached then ((Resources.rendered cached frames).textures.resident t).getD t else t)) ∈
                  b.textures ∧
              ((cached = true → ∀ t' ∈ (Resources.rendered cached frames).textures.resident t, t' = t) →
                (texAt (st.sets set).texBinding i, some t) ∈ b.textures) := by
  intro st
  have hset : st.sets set = (written set calls).foldl Effect.apply .empty := sets_run set calls
  refine ⟨?_, ?_, ?_⟩
  · rw [hset]
    exact forwardedTextures_eq_none
  · intro base imgs h
    rw [hset] at h ⊢
    exact lands h
  · intro idev boHandle staged p maxBytes cached frames f hds hstaged hp hcmdlist h
    obtain ⟨g, hg, hbase, htextures⟩ := staged_textures hstaged hp hcmdlist h
    have hbound : st.boundSet = st.sets set := by
      unfold State.boundSet
      rw [hds]
      rfl
    rw [hbound] at hbase htextures
    refine ⟨g, hg, hbase, htextures, ?_⟩
    intro draw b hb
    have hlen : g.textures.length < 2 ^ 32 := by
      rw [htextures, List.length_map]
      exact Nat.lt_of_le_of_lt (st.sets set).textureImages_length_le (by decide)
    rw [← hbase]
    obtain ⟨hat, hbinds⟩ := bound_at hb hg hlen
    refine ⟨hat, fun i t ht => ⟨hbinds i t ht, fun hown => ?_⟩⟩
    have hsame : (if cached then ((Resources.rendered cached frames).textures.resident t).getD t else t) = t := by
      cases cached with
      | false => rfl
      | true => exact Resources.getD_eq_iff.mpr (hown rfl)
    rw [← hsame]
    exact hbinds i t ht

/-! ### A mesh with one texture -/

/-- An image at binding 2 and a linear sampler at binding 3. -/
def texturedCalls : List Call :=
  [.updateDescriptorSets
      [{ dstSet := some 0
         dstBinding := 3
         descriptorCount := 1
         descriptorType := .sampler
         imageInfo := some { sampler := some { linear := true, «repeat» := false }, imageView := none }
         bufferInfo := none },
        { dstSet := some 0
          dstBinding := 2
          descriptorCount := 1
          descriptorType := .sampledImage
          imageInfo := some { sampler := none, imageView := some { image := some (pixelImage 1) } }
          bufferInfo := none }],
    .cmd (.bindDescriptorSets true [some 0])] ++ drawMesh [false]

def texturedFrame (draw : OwnedForwardedDraw) : DrawFrame where
  draw
  mesh := true
  descriptors := true
  alloc _ := some 4
  upload := true

def texel : OwnedTexture := { width := 1, height := 1, rgba := [0, 0, 0, 0], linear := true, «repeat» := false }

/-- The texel of the image is bound at binding 2, with the linear sampler. -/
theorem textures_land_texel : ∃ staged draw b, (State.start.run texturedCalls).staged oneObject 1 = some staged ∧
    decodeForwardedCmdlist (staged.drop SubmitCmd.size) MAX_CMD_BYTES.toNat = some draw ∧
      ((Resources.rendered false []).render false (texturedFrame draw)).bound = some (draw, b) ∧
      (2, some texel) ∈ b.textures := by
  have hall : (((State.start.run texturedCalls).staged oneObject 1).bind fun staged =>
      (decodeForwardedCmdlist (staged.drop SubmitCmd.size) MAX_CMD_BYTES.toNat).bind fun draw =>
        draw.geometry.map fun g => (g.texBinding, g.textures,
          ((Resources.rendered false []).render false (texturedFrame draw)).bound.isSome)) =
      some (2, [texel], true) := by
    decide +kernel
  obtain ⟨staged, hstaged, hdecoded⟩ := Option.bind_eq_some_iff.mp hall
  obtain ⟨draw, hdraw, hmap⟩ := Option.bind_eq_some_iff.mp hdecoded
  obtain ⟨g, hg, heq⟩ := Option.map_eq_some_iff.mp hmap
  rw [Prod.mk.injEq, Prod.mk.injEq] at heq
  obtain ⟨hbase, htextures, hsome⟩ := heq
  obtain ⟨⟨draw', b⟩, hbound⟩ := Option.isSome_iff_exists.mp hsome
  have hsame : draw' = draw := (Resources.render_bound hbound).1
  subst draw'
  obtain ⟨g', hg', hbase', -, hlands⟩ := (textures_land texturedCalls 0).2.2 oneObject 1 staged meshPipeline
    MAX_CMD_BYTES.toNat false [] (texturedFrame draw) rfl hstaged rfl (by decide) hdraw
  cases hg.symm.trans hg'
  refine ⟨staged, draw, b, hstaged, hdraw, hbound, ?_⟩
  have hzero := ((hlands _ b hbound).2 0 texel (by rw [htextures]; rfl)).2 fun h => by cases h
  rw [← hbase', texAt_zero, hbase] at hzero
  exact hzero

end Infinigpu.Icd
