import Mathlib.Data.Nat.Bitwise
import Infinigpu.Guest.Replay

/-!
# Resolving dynamic state

Seven components share the three words of a `ForwardedState`. Resolving takes a component from the dynamic values
where the pipeline declares it dynamic and the command buffer has set it, and from the pipeline everywhere else.
Two things could go wrong: a component is lost when its word is rebuilt from the others, or the compare operation
of a pipeline without a depth test is dropped before a dynamic test needs it.
-/

namespace Infinigpu.Icd

/-! ### The components of the words -/

namespace ForwardedState

variable (s : ForwardedState)

def cull : UInt32 := s.raster &&& RasterFlags.cullMask
def frontCw : Bool := s.raster &&& RasterFlags.frontFaceCw != 0
def blend : Bool := s.raster &&& RasterFlags.blend != 0
def depthTest : Bool := s.depth &&& DepthFlags.test != 0
def depthWrite : Bool := s.depth &&& DepthFlags.write != 0
def depthCompare : UInt32 := (s.depth >>> DepthFlags.compareShift) &&& 7

end ForwardedState

/-- A component is in both masks. -/
def Chosen (dynamicMask setMask bit : UInt32) : Prop := dynamicMask &&& bit ≠ 0 ∧ setMask &&& bit ≠ 0

instance (dynamicMask setMask bit : UInt32) : Decidable (Chosen dynamicMask setMask bit) := by
  unfold Chosen; infer_instance

/-- Two sets of dynamic values agree on the components in both masks, as far as these are read. -/
structure DynamicValues.AgreeOn (dynamicMask setMask : UInt32) (dyn dyn' : DynamicValues) : Prop where
  cull : Chosen dynamicMask setMask Dyn.cullMode →
    dyn.cull &&& RasterFlags.cullMask = dyn'.cull &&& RasterFlags.cullMask
  frontCw : Chosen dynamicMask setMask Dyn.frontFace → (dyn.frontCw ≠ 0 ↔ dyn'.frontCw ≠ 0)
  depthTest : Chosen dynamicMask setMask Dyn.depthTest → (dyn.depthTest ≠ 0 ↔ dyn'.depthTest ≠ 0)
  depthWrite : Chosen dynamicMask setMask Dyn.depthWrite → (dyn.depthWrite ≠ 0 ↔ dyn'.depthWrite ≠ 0)
  depthCompare : Chosen dynamicMask setMask Dyn.depthCompare → dyn.depthCompare &&& 7 = dyn'.depthCompare &&& 7
  topo : Chosen dynamicMask setMask Dyn.topology → dyn.topo = dyn'.topo

/-! ### Words of flags -/

/-- A bit is in the intersection of two words if it is in both. -/
private theorem and_bit_iff (a b bit : UInt32) {k : Nat} (hbit : bit.toNat = 2 ^ k) :
    a &&& b &&& bit ≠ 0 ↔ a &&& bit ≠ 0 ∧ b &&& bit ≠ 0 := by
  have hzero : ∀ x : UInt32, x &&& bit ≠ 0 ↔ x.toNat.testBit k = true := by
    intro x
    rw [Ne, ← UInt32.toNat_inj, UInt32.toNat_and, hbit, Nat.and_two_pow]
    cases x.toNat.testBit k
    · simp
    · simp
  rw [hzero, hzero, hzero, UInt32.toNat_and, Nat.testBit_and, Bool.and_eq_true]

private theorem and_or_ne_zero (x a b : UInt32) : x &&& (a ||| b) ≠ 0 ↔ x &&& a ≠ 0 ∨ x &&& b ≠ 0 := by
  simp only [Ne, ← UInt32.toNat_inj, UInt32.toNat_and, UInt32.toNat_or, Nat.and_or_distrib_left]
  rw [show (0 : UInt32).toNat = 0 from rfl, Nat.or_eq_zero_iff, Classical.not_and_iff_not_or_not]

/-- The low bits of a word are one of finitely many values. -/
private theorem low_bits (x m : UInt32) {n : Nat} (hn : n ≤ 32) (hm : m.toNat = 2 ^ n - 1) :
    ∃ k : Fin (2 ^ n), x &&& m = UInt32.ofNat k := by
  refine ⟨⟨x.toNat % 2 ^ n, Nat.mod_lt _ (Nat.two_pow_pos n)⟩, ?_⟩
  have hle : 2 ^ n ≤ 2 ^ 32 := Nat.pow_le_pow_right (by decide) hn
  have hlt : x.toNat % 2 ^ n < 2 ^ 32 := Nat.lt_of_lt_of_le (Nat.mod_lt _ (Nat.two_pow_pos n)) hle
  rw [← UInt32.toNat_inj, UInt32.toNat_and, hm, Nat.and_two_pow_sub_one_eq_mod, UInt32.toNat_ofNat',
    Nat.mod_eq_of_lt hlt]

/-- A raster word is read back as it is built. -/
private theorem raster_fields (x : UInt32) (f b : Bool) :
    let w := (x &&& RasterFlags.cullMask) ||| flagIf RasterFlags.frontFaceCw f ||| flagIf RasterFlags.blend b
    w &&& RasterFlags.cullMask = x &&& RasterFlags.cullMask ∧ (w &&& RasterFlags.frontFaceCw != 0) = f ∧
      (w &&& RasterFlags.blend != 0) = b := by
  obtain ⟨k, hk⟩ := low_bits x RasterFlags.cullMask (n := 2) (by decide) (by decide)
  have hall : ∀ k : Fin (2 ^ 2), ∀ f b : Bool,
      let w := UInt32.ofNat k ||| flagIf RasterFlags.frontFaceCw f ||| flagIf RasterFlags.blend b
      w &&& RasterFlags.cullMask = UInt32.ofNat k ∧ (w &&& RasterFlags.frontFaceCw != 0) = f ∧
        (w &&& RasterFlags.blend != 0) = b := by decide
  rw [hk]
  exact hall k f b

/-- A depth word is read back as it is built. -/
private theorem depth_fields (x : UInt32) (t w : Bool) :
    let d := flagIf DepthFlags.test t ||| flagIf DepthFlags.write w ||| ((x &&& 7) <<< DepthFlags.compareShift)
    (d &&& DepthFlags.test != 0) = t ∧ (d &&& DepthFlags.write != 0) = w ∧
      (d >>> DepthFlags.compareShift) &&& 7 = x &&& 7 := by
  obtain ⟨k, hk⟩ := low_bits x 7 (n := 3) (by decide) (by decide)
  have hall : ∀ k : Fin (2 ^ 3), ∀ t w : Bool,
      let d := flagIf DepthFlags.test t ||| flagIf DepthFlags.write w ||| (UInt32.ofNat k <<< DepthFlags.compareShift)
      (d &&& DepthFlags.test != 0) = t ∧ (d &&& DepthFlags.write != 0) = w ∧
        (d >>> DepthFlags.compareShift) &&& 7 = UInt32.ofNat k := by decide
  rw [hk]
  exact hall k t w

/-! ### Resolving a component -/

section Resolved

variable (static : ForwardedState) (dynamicMask setMask : UInt32) (dyn : DynamicValues)

/-- The test of one bit in the resolver. -/
private theorem picks_eq (bit : UInt32) (k : Nat) (hbit : bit.toNat = 2 ^ k) :
    (dynamicMask &&& setMask &&& bit != 0) = decide (Chosen dynamicMask setMask bit) := by
  rw [Bool.eq_iff_iff, bne_iff_ne, decide_eq_true_iff]
  exact and_bit_iff dynamicMask setMask bit hbit

private theorem picks_or (a b : UInt32) :
    (dynamicMask &&& setMask &&& (a ||| b) != 0) =
      ((dynamicMask &&& setMask &&& a != 0) || (dynamicMask &&& setMask &&& b != 0)) := by
  rw [Bool.eq_iff_iff, Bool.or_eq_true, bne_iff_ne, bne_iff_ne, bne_iff_ne]
  exact and_or_ne_zero _ a b

/-- The raster word is rebuilt from its components if one of them is chosen. -/
private theorem resolved_raster :
    (resolveForwardedState static dynamicMask setMask dyn).raster =
      if Chosen dynamicMask setMask Dyn.cullMode ∨ Chosen dynamicMask setMask Dyn.frontFace then
        ((if Chosen dynamicMask setMask Dyn.cullMode then dyn.cull else static.raster) &&& RasterFlags.cullMask) |||
          flagIf RasterFlags.frontFaceCw
            (if Chosen dynamicMask setMask Dyn.frontFace then dyn.frontCw != 0 else static.frontCw) |||
          flagIf RasterFlags.blend static.blend
      else static.raster := by
  have hcull := picks_eq dynamicMask setMask Dyn.cullMode 0 (by decide)
  have hfront := picks_eq dynamicMask setMask Dyn.frontFace 1 (by decide)
  simp only [resolveForwardedState, picks_or, hcull, hfront, Bool.or_eq_true, decide_eq_true_eq]
  by_cases hc : Chosen dynamicMask setMask Dyn.cullMode
  · simp only [hc, true_or, if_true, ForwardedState.frontCw, ForwardedState.blend]
  · simp only [hc, false_or, if_false, ForwardedState.frontCw, ForwardedState.blend]

/-- The depth word before it is dropped for want of a test and a write. -/
def depthWord : UInt32 :=
  if Chosen dynamicMask setMask Dyn.depthTest ∨ Chosen dynamicMask setMask Dyn.depthWrite ∨
      Chosen dynamicMask setMask Dyn.depthCompare then
    flagIf DepthFlags.test (if Chosen dynamicMask setMask Dyn.depthTest then dyn.depthTest != 0
      else static.depthTest) |||
      flagIf DepthFlags.write
        (if Chosen dynamicMask setMask Dyn.depthWrite then dyn.depthWrite != 0 else static.depthWrite) |||
      (((if Chosen dynamicMask setMask Dyn.depthCompare then dyn.depthCompare
        else static.depth >>> DepthFlags.compareShift)
        &&& 7) <<< DepthFlags.compareShift)
  else static.depth

private theorem resolved_depth :
    (resolveForwardedState static dynamicMask setMask dyn).depth =
      if depthWord static dynamicMask setMask dyn &&& (DepthFlags.test ||| DepthFlags.write) = 0 then 0
      else depthWord static dynamicMask setMask dyn := by
  have htest := picks_eq dynamicMask setMask Dyn.depthTest 2 (by decide)
  have hwrite := picks_eq dynamicMask setMask Dyn.depthWrite 3 (by decide)
  have hcompare := picks_eq dynamicMask setMask Dyn.depthCompare 4 (by decide)
  simp only [resolveForwardedState, depthWord, picks_or, htest, hwrite, hcompare, Bool.or_eq_true, decide_eq_true_eq,
    or_assoc, ForwardedState.depthTest, ForwardedState.depthWrite]
  by_cases hc : Chosen dynamicMask setMask Dyn.depthCompare
  · simp only [hc, if_true]
  · simp only [hc, if_false]

private theorem resolved_topo :
    (resolveForwardedState static dynamicMask setMask dyn).topo =
      if Chosen dynamicMask setMask Dyn.topology then dyn.topo else static.topo := by
  have htopo := picks_eq dynamicMask setMask Dyn.topology 5 (by decide)
  simp only [resolveForwardedState, htopo, decide_eq_true_eq]

/-- The fields of the depth word. -/
private theorem depthWord_fields :
    (depthWord static dynamicMask setMask dyn &&& DepthFlags.test != 0) =
        (if Chosen dynamicMask setMask Dyn.depthTest then dyn.depthTest != 0 else static.depthTest) ∧
      (depthWord static dynamicMask setMask dyn &&& DepthFlags.write != 0) =
        (if Chosen dynamicMask setMask Dyn.depthWrite then dyn.depthWrite != 0 else static.depthWrite) ∧
      (depthWord static dynamicMask setMask dyn >>> DepthFlags.compareShift) &&& 7 =
        (if Chosen dynamicMask setMask Dyn.depthCompare then dyn.depthCompare &&& 7 else static.depthCompare) := by
  unfold depthWord
  split
  next =>
    have hfields := depth_fields
      (if Chosen dynamicMask setMask Dyn.depthCompare then dyn.depthCompare
        else static.depth >>> DepthFlags.compareShift)
      (if Chosen dynamicMask setMask Dyn.depthTest then dyn.depthTest != 0 else static.depthTest)
      (if Chosen dynamicMask setMask Dyn.depthWrite then dyn.depthWrite != 0 else static.depthWrite)
    refine ⟨hfields.1, hfields.2.1, hfields.2.2.trans ?_⟩
    split
    · rfl
    · rfl
  next hnone =>
    have htest : ¬ Chosen dynamicMask setMask Dyn.depthTest := fun h => hnone (Or.inl h)
    have hwrite : ¬ Chosen dynamicMask setMask Dyn.depthWrite := fun h => hnone (Or.inr (Or.inl h))
    have hcompare : ¬ Chosen dynamicMask setMask Dyn.depthCompare := fun h => hnone (Or.inr (Or.inr h))
    rw [if_neg htest, if_neg hwrite, if_neg hcompare]
    exact ⟨rfl, rfl, rfl⟩

private theorem picked_mask {P : Prop} [Decidable P] (a b m : UInt32) :
    (if P then a else b) &&& m = if P then a &&& m else b &&& m := by
  split
  · rfl
  · rfl

/-- The fields of the raster word. -/
private theorem resolved_rasterFields :
    (resolveForwardedState static dynamicMask setMask dyn).cull =
        (if Chosen dynamicMask setMask Dyn.cullMode then dyn.cull &&& RasterFlags.cullMask else static.cull) ∧
      (resolveForwardedState static dynamicMask setMask dyn).frontCw =
        (if Chosen dynamicMask setMask Dyn.frontFace then dyn.frontCw != 0 else static.frontCw) ∧
      (resolveForwardedState static dynamicMask setMask dyn).blend = static.blend := by
  unfold ForwardedState.cull ForwardedState.frontCw ForwardedState.blend
  rw [resolved_raster]
  split
  next =>
    have hfields := raster_fields (if Chosen dynamicMask setMask Dyn.cullMode then dyn.cull else static.raster)
      (if Chosen dynamicMask setMask Dyn.frontFace then dyn.frontCw != 0 else static.frontCw) static.blend
    exact ⟨hfields.1.trans (picked_mask _ _ _), hfields.2.1, hfields.2.2⟩
  next hnone =>
    have hcull : ¬ Chosen dynamicMask setMask Dyn.cullMode := fun h => hnone (Or.inl h)
    have hfront : ¬ Chosen dynamicMask setMask Dyn.frontFace := fun h => hnone (Or.inr h)
    rw [if_neg hcull, if_neg hfront]
    exact ⟨rfl, rfl, rfl⟩

/-- A word has neither of two flags. -/
private theorem lacks_iff (w : UInt32) :
    w &&& (DepthFlags.test ||| DepthFlags.write) = 0 ↔
      (w &&& DepthFlags.test != 0) = false ∧ (w &&& DepthFlags.write != 0) = false := by
  have hor := and_or_ne_zero w DepthFlags.test DepthFlags.write
  rw [bne_eq_false_iff_eq, bne_eq_false_iff_eq]
  constructor
  · intro h
    rw [← not_iff_not, not_or, not_not, not_not, not_not] at hor
    exact hor.mp h
  · intro h
    rw [← not_iff_not, not_or, not_not, not_not, not_not] at hor
    exact hor.mpr h

/-- Without a test and a write the depth word is dropped, and only then. -/
private theorem resolved_depthFields :
    (resolveForwardedState static dynamicMask setMask dyn).depthTest =
        (if Chosen dynamicMask setMask Dyn.depthTest then dyn.depthTest != 0 else static.depthTest) ∧
      (resolveForwardedState static dynamicMask setMask dyn).depthWrite =
        (if Chosen dynamicMask setMask Dyn.depthWrite then dyn.depthWrite != 0 else static.depthWrite) ∧
      (resolveForwardedState static dynamicMask setMask dyn).depth =
        if (resolveForwardedState static dynamicMask setMask dyn).depthTest ||
            (resolveForwardedState static dynamicMask setMask dyn).depthWrite then
          depthWord static dynamicMask setMask dyn
        else 0 := by
  obtain ⟨htest, hwrite, -⟩ := depthWord_fields static dynamicMask setMask dyn
  have hlacks := lacks_iff (depthWord static dynamicMask setMask dyn)
  have hdepth := resolved_depth static dynamicMask setMask dyn
  unfold ForwardedState.depthTest ForwardedState.depthWrite
  by_cases hzero : depthWord static dynamicMask setMask dyn &&& (DepthFlags.test ||| DepthFlags.write) = 0
  · rw [if_pos hzero] at hdepth
    obtain ⟨ht, hw⟩ := hlacks.mp hzero
    rw [hdepth]
    exact ⟨ht.symm.trans htest, hw.symm.trans hwrite, rfl⟩
  · rw [if_neg hzero] at hdepth
    rw [hdepth]
    refine ⟨htest, hwrite, ?_⟩
    rw [if_pos]
    by_contra hnone
    rw [Bool.or_eq_true, not_or, Bool.not_eq_true, Bool.not_eq_true] at hnone
    exact hzero (hlacks.mpr hnone)

/-- With a test or a write the compare operation is the chosen one. -/
private theorem resolved_depthCompare
    (hon : (resolveForwardedState static dynamicMask setMask dyn).depthTest = true ∨
      (resolveForwardedState static dynamicMask setMask dyn).depthWrite = true) :
    (resolveForwardedState static dynamicMask setMask dyn).depthCompare =
      if Chosen dynamicMask setMask Dyn.depthCompare then dyn.depthCompare &&& 7 else static.depthCompare := by
  have hdepth := (resolved_depthFields static dynamicMask setMask dyn).2.2
  rw [if_pos (Bool.or_eq_true _ _ ▸ hon)] at hdepth
  rw [← (depthWord_fields static dynamicMask setMask dyn).2.2, ForwardedState.depthCompare, hdepth]

end Resolved

/-! ### Resolving twice, and other dynamic values -/

/-- Picking once more from the same source changes nothing. -/
private theorem picked_twice {α : Type} {P : Prop} [Decidable P] (a b : α) :
    (if P then a else if P then a else b) = if P then a else b := by
  split
  · rfl
  · rfl

private theorem raster_twice (static : ForwardedState) (dynamicMask setMask : UInt32) (dyn : DynamicValues) :
    (resolveForwardedState (resolveForwardedState static dynamicMask setMask dyn) dynamicMask setMask dyn).raster =
      (resolveForwardedState static dynamicMask setMask dyn).raster := by
  obtain ⟨hcull, hfront, hblend⟩ := resolved_rasterFields static dynamicMask setMask dyn
  rw [resolved_raster, hfront, hblend, picked_twice, picked_mask]
  split
  next hany =>
    have hmask : (resolveForwardedState static dynamicMask setMask dyn).raster &&& RasterFlags.cullMask = _ := hcull
    rw [hmask, picked_twice, resolved_raster, if_pos hany, picked_mask]
    rfl
  next => rfl

private theorem depth_twice (static : ForwardedState) (dynamicMask setMask : UInt32) (dyn : DynamicValues) :
    (resolveForwardedState (resolveForwardedState static dynamicMask setMask dyn) dynamicMask setMask dyn).depth =
      (resolveForwardedState static dynamicMask setMask dyn).depth := by
  obtain ⟨htest, hwrite, hdepth⟩ := resolved_depthFields static dynamicMask setMask dyn
  obtain ⟨htest', hwrite', hdepth'⟩ :=
    resolved_depthFields (resolveForwardedState static dynamicMask setMask dyn) dynamicMask setMask dyn
  rw [htest, picked_twice, ← htest] at htest'
  rw [hwrite, picked_twice, ← hwrite] at hwrite'
  rw [hdepth', htest', hwrite']
  split
  next hon =>
    rw [if_pos hon] at hdepth
    have hcompare := resolved_depthCompare static dynamicMask setMask dyn (Bool.or_eq_true _ _ ▸ hon)
    -- the word is rebuilt from the same fields, or kept
    rw [depthWord, htest, hwrite, picked_twice, picked_twice, picked_mask]
    split
    next hany =>
      have hfield : (resolveForwardedState static dynamicMask setMask dyn).depth >>>
        DepthFlags.compareShift &&& 7 = _ :=
        hcompare
      rw [hfield, picked_twice, hdepth, depthWord, if_pos hany, picked_mask]
      rfl
    next => rfl
  next hoff =>
    rw [if_neg hoff] at hdepth
    exact hdepth.symm

/-- Dynamic values outside the masks are not read. -/
private theorem resolve_congr (static : ForwardedState) {dynamicMask setMask : UInt32} {dyn dyn' : DynamicValues}
    (h : dyn.AgreeOn dynamicMask setMask dyn') :
    resolveForwardedState static dynamicMask setMask dyn' = resolveForwardedState static dynamicMask setMask dyn := by
  have hbne : ∀ {a b : UInt32}, (a ≠ 0 ↔ b ≠ 0) → (b != 0) = (a != 0) := by
    intro a b hab
    rw [Bool.eq_iff_iff, bne_iff_ne, bne_iff_ne]
    exact hab.symm
  have hpick : ∀ {α : Type} {P : Prop} [Decidable P] {a b : α} (c : α), (P → a = b) →
      (if P then b else c) = if P then a else c := by
    intro α P _ a b c hab
    by_cases hP : P
    · rw [if_pos hP, if_pos hP, hab hP]
    · rw [if_neg hP, if_neg hP]
  have hraster : (resolveForwardedState static dynamicMask setMask dyn').raster =
      (resolveForwardedState static dynamicMask setMask dyn).raster := by
    rw [resolved_raster, resolved_raster, picked_mask, picked_mask, hpick _ h.cull,
      hpick _ fun hp => (hbne (h.frontCw hp)).symm]
  have hword : depthWord static dynamicMask setMask dyn' = depthWord static dynamicMask setMask dyn := by
    rw [depthWord, depthWord, picked_mask, picked_mask, hpick _ h.depthCompare,
      hpick _ fun hp => (hbne (h.depthTest hp)).symm, hpick _ fun hp => (hbne (h.depthWrite hp)).symm]
  have hdepth : (resolveForwardedState static dynamicMask setMask dyn').depth =
      (resolveForwardedState static dynamicMask setMask dyn).depth := by
    rw [resolved_depth, resolved_depth, hword]
  have htopo : (resolveForwardedState static dynamicMask setMask dyn').topo =
      (resolveForwardedState static dynamicMask setMask dyn).topo := by
    rw [resolved_topo, resolved_topo, hpick _ h.topo]
  rw [ForwardedState.mk.injEq]
  exact ⟨hraster, hdepth, htopo⟩

/-- Every component is the dynamic one if it is in both masks and the static one otherwise, without a test and a
write there is no depth word, resolving again changes nothing, and no other dynamic value is read. -/
theorem resolved_exact (static : ForwardedState) (dynamicMask setMask : UInt32) (dyn : DynamicValues) :
    let r := resolveForwardedState static dynamicMask setMask dyn
    (r.cull = if Chosen dynamicMask setMask Dyn.cullMode then dyn.cull &&& RasterFlags.cullMask else static.cull) ∧
      (r.frontCw = if Chosen dynamicMask setMask Dyn.frontFace then dyn.frontCw != 0 else static.frontCw) ∧
      r.blend = static.blend ∧
      (r.depthTest = if Chosen dynamicMask setMask Dyn.depthTest then dyn.depthTest != 0 else static.depthTest) ∧
      (r.depthWrite = if Chosen dynamicMask setMask Dyn.depthWrite then dyn.depthWrite != 0 else static.depthWrite) ∧
      (r.depthTest = true ∨ r.depthWrite = true → r.depthCompare =
        if Chosen dynamicMask setMask Dyn.depthCompare then dyn.depthCompare &&& 7 else static.depthCompare) ∧
      (r.depthTest = false → r.depthWrite = false → r.depth = 0) ∧
      (r.topo = if Chosen dynamicMask setMask Dyn.topology then dyn.topo else static.topo) ∧
      resolveForwardedState r dynamicMask setMask dyn = r ∧
      ∀ dyn' : DynamicValues, dyn.AgreeOn dynamicMask setMask dyn' →
        resolveForwardedState static dynamicMask setMask dyn' = r := by
  intro r
  obtain ⟨hcull, hfront, hblend⟩ := resolved_rasterFields static dynamicMask setMask dyn
  obtain ⟨htest, hwrite, hdepth⟩ := resolved_depthFields static dynamicMask setMask dyn
  refine ⟨hcull, hfront, hblend, htest, hwrite, resolved_depthCompare static dynamicMask setMask dyn, ?_,
    resolved_topo static dynamicMask setMask dyn, ?_, fun dyn' h => resolve_congr static h⟩
  · intro ht hw
    have hoff : (resolveForwardedState static dynamicMask setMask dyn).depth = _ := hdepth
    rw [if_neg] at hoff
    · exact hoff
    · intro hon
      rw [Bool.or_eq_true] at hon
      rcases hon with h | h
      · exact Bool.false_ne_true (ht.symm.trans h)
      · exact Bool.false_ne_true (hw.symm.trans h)
  · have htopo : (resolveForwardedState r dynamicMask setMask dyn).topo = r.topo := by
      rw [resolved_topo]
      exact (congrArg (fun t => if Chosen dynamicMask setMask Dyn.topology then dyn.topo else t)
        (resolved_topo static dynamicMask setMask dyn)).trans ((picked_twice _ _).trans
          (resolved_topo static dynamicMask setMask dyn).symm)
    rw [ForwardedState.mk.injEq]
    exact ⟨raster_twice static dynamicMask setMask dyn, depth_twice static dynamicMask setMask dyn, htopo⟩

/-! ### The state captured at creation -/

structure DepthStencilState where
  depthTestEnable : Bool
  depthWriteEnable : Bool
  depthCompareOp : UInt32

structure RasterizationState where
  cullMode : UInt32
  frontFace : FrontFace

inductive VkDynamicState where
  | cullMode
  | frontFace
  | depthTestEnable
  | depthWriteEnable
  | depthCompareOp
  | primitiveTopology
  | other

def VkDynamicState.bit : VkDynamicState → UInt32
  | .cullMode => Dyn.cullMode
  | .frontFace => Dyn.frontFace
  | .depthTestEnable => Dyn.depthTest
  | .depthWriteEnable => Dyn.depthWrite
  | .depthCompareOp => Dyn.depthCompare
  | .primitiveTopology => Dyn.topology
  | .other => 0

/-- The fixed-function state a graphics pipeline is created with; `blendEnable` is that of its attachments. -/
structure FixedState where
  depthStencil : Option DepthStencilState
  rasterization : Option RasterizationState
  blendEnable : Option (List Bool)
  dynamicStates : List VkDynamicState

namespace FixedState

/-- The compare operation is kept also without a test: a dynamic test may need it. -/
def depthFlags (ci : FixedState) : UInt32 :=
  match ci.depthStencil with
  | none => 0
  | some ds =>
    flagIf DepthFlags.test ds.depthTestEnable ||| flagIf DepthFlags.write ds.depthWriteEnable |||
      ((ds.depthCompareOp &&& 7) <<< DepthFlags.compareShift)

def rasterFlags (ci : FixedState) : UInt32 :=
  (match ci.rasterization with
    | none => 0
    | some rs =>
      (rs.cullMode &&& RasterFlags.cullMask) ||| flagIf RasterFlags.frontFaceCw (rs.frontFace = .clockwise)) |||
    flagIf RasterFlags.blend ((ci.blendEnable.bind List.head?).getD false)

def dynamicMask (ci : FixedState) : UInt32 :=
  ci.dynamicStates.foldl (fun mask d => mask ||| d.bit) 0

end FixedState

/-- A depth test that is switched on dynamically compares as the pipeline was created to, unless the operation is
dynamic as well. -/
theorem captured_compare_kept (ci : FixedState) (ds : DepthStencilState) (hds : ci.depthStencil = some ds)
    (raster topo setMask : UInt32) (dyn : DynamicValues) (htest : Chosen ci.dynamicMask setMask Dyn.depthTest)
    (hon : dyn.depthTest ≠ 0) (hstatic : ¬ Chosen ci.dynamicMask setMask Dyn.depthCompare) :
    (resolveForwardedState { raster, depth := ci.depthFlags, topo } ci.dynamicMask setMask dyn).depthCompare =
      ds.depthCompareOp &&& 7 := by
  have hfields := depth_fields ds.depthCompareOp ds.depthTestEnable ds.depthWriteEnable
  rw [resolved_depthCompare, if_neg hstatic]
  · simp only [ForwardedState.depthCompare, FixedState.depthFlags, hds]
    exact hfields.2.2
  · left
    rw [(resolved_depthFields _ _ _ _).1, if_pos htest, bne_iff_ne]
    exact hon

end Infinigpu.Icd
