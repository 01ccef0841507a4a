import Infinigpu.Device.Registers
import Infinigpu.Lib.Parts

/-!
# Accesses of a part of a register (`read_bar0`, `write_bar0`)

* `Device.byteAt`: the registers as bytes; `gather_eq`: a read returns them, whatever its offset and length;
* `Device.IsPlain`: the registers that only keep what is written to them; `Device.Active`: those that act on it;
* `Device.writeBar0_byteAt`: a write replaces the bytes of the plain registers it covers;
* `Device.subword_consistent`: writes in pieces of any sizes and alignments leave what one aligned write leaves.
-/

namespace Infinigpu

/-! ### The words that bytes are in -/

/-- The address of the word that a byte is in. -/
def wordOf (a : UInt64) : UInt64 := a &&& ~~~(3 : UInt64)

/-- The place of a byte in its word. -/
def lane (a : UInt64) : Nat := (a - wordOf a).toNat

/-- A mask of the high bits takes the low ones off. -/
private theorem and_highMask {x k : Nat} (hx : x < 2 ^ 64) (hk : k ≤ 64) :
    x &&& (2 ^ 64 - (2 ^ k - 1 + 1)) = x / 2 ^ k * 2 ^ k := by
  have hmask : 2 ^ k - 1 < 2 ^ 64 := by
    have hpow : 2 ^ k ≤ 2 ^ 64 := Nat.pow_le_pow_right (by decide) hk
    omega
  refine Nat.eq_of_testBit_eq fun i => ?_
  rw [Nat.testBit_and, Nat.testBit_two_pow_sub_succ hmask, Nat.testBit_two_pow_sub_one, Nat.testBit_mul_two_pow,
    Nat.testBit_div_two_pow]
  by_cases hi : i < k
  · simp [hi]
  · have hback : i - k + k = i := by omega
    rw [hback]
    by_cases hhigh : i < 64
    · simp [hi, hhigh, Nat.le_of_not_lt hi]
    · have hzero : x.testBit i = false :=
        Nat.testBit_lt_two_pow (Nat.lt_of_lt_of_le hx (Nat.pow_le_pow_right (by decide) (by omega)))
      simp [hzero]

private theorem wordOf_toNat (a : UInt64) : (wordOf a).toNat = a.toNat / 4 * 4 := by
  rw [wordOf, UInt64.toNat_and]
  exact and_highMask a.toNat_lt (k := 2) (by decide)

private theorem lane_eq (a : UInt64) : lane a = a.toNat % 4 := by
  have hle : (wordOf a).toNat ≤ a.toNat := by
    rw [wordOf_toNat]
    omega
  rw [lane, UInt64.toNat_sub_of_le _ _ (UInt64.le_iff_toNat_le.mpr hle), wordOf_toNat]
  omega

private theorem lane_lt (a : UInt64) : lane a < 4 := by
  rw [lane_eq]
  omega

/-- A byte of registers that are read by words. -/
def byteOf (word : UInt64 → UInt32) (a : UInt64) : UInt8 := (Bytes.ofValue 4 (word (wordOf a)).toNat).getD (lane a) 0

private theorem byteOf_eq {word : UInt64 → UInt32} (a : UInt64) :
    (Bytes.ofValue 4 (word (wordOf a)).toNat)[lane a]? = some (byteOf word a) := by
  have hlt : lane a < (Bytes.ofValue 4 (word (wordOf a)).toNat).length := by
    rw [Bytes.ofValue_length]
    exact lane_lt a
  rw [byteOf, List.getD_eq_getElem?_getD, List.getElem?_eq_getElem hlt, Option.getD_some]

/-- No address wraps around inside a word. -/
private theorem toNat_add_lane (a : UInt64) {k : Nat} (hk : k < 4 - lane a) :
    (a + UInt64.ofNat k).toNat = a.toNat + k := by
  have hlt : a.toNat < 2 ^ 64 := a.toNat_lt
  rw [lane_eq] at hk
  rw [UInt64.toNat_add, UInt64.toNat_ofNat']
  omega

private theorem sub_lt_iff {a c : UInt64} {n : Nat} (hn : n ≤ 4 - lane c) :
    (a - c).toNat < n ↔ wordOf a = wordOf c ∧ lane c ≤ lane a ∧ lane a < lane c + n := by
  have ha := a.toNat_lt
  have hc := c.toNat_lt
  rw [lane_eq] at hn
  rw [← UInt64.toNat_inj, wordOf_toNat, wordOf_toNat, lane_eq, lane_eq, UInt64.toNat_sub]
  omega

private theorem sub_of_lane {a c : UInt64} (h : wordOf a = wordOf c) (hle : lane c ≤ lane a) :
    (a - c).toNat = lane a - lane c := by
  have ha := a.toNat_lt
  have hc := c.toNat_lt
  have hword := congrArg UInt64.toNat h
  rw [wordOf_toNat, wordOf_toNat] at hword
  rw [lane_eq, lane_eq] at hle ⊢
  rw [UInt64.toNat_sub]
  omega

/-- A place from the start of an access, and from a byte `d` of it. -/
private theorem toNat_sub_piece (a offset : UInt64) {d : Nat} (hd : d < 2 ^ 64) :
    (a - (offset + UInt64.ofNat d)).toNat = (2 ^ 64 - d + (a - offset).toNat) % 2 ^ 64 := by
  have hsub : a - (offset + UInt64.ofNat d) = a - offset - UInt64.ofNat d := by grind
  rw [hsub, UInt64.toNat_sub, UInt64.toNat_ofNat', Nat.mod_eq_of_lt hd]

/-- The bytes of the part of an access that starts at its byte `done`. -/
private theorem part_byte (offset : UInt64) (done : Nat) {k : Nat}
    (hk : k < 4 - lane (offset + UInt64.ofNat done)) :
    wordOf (offset + UInt64.ofNat (done + k)) = wordOf (offset + UInt64.ofNat done) ∧
      lane (offset + UInt64.ofNat (done + k)) = lane (offset + UInt64.ofNat done) + k := by
  rw [UInt64.ofNat_add, ← UInt64.add_assoc]
  generalize offset + UInt64.ofNat done = a at hk
  have hsum := toNat_add_lane a hk
  rw [lane_eq] at hk
  constructor
  · rw [← UInt64.toNat_inj, wordOf_toNat, wordOf_toNat, hsum]
    omega
  · rw [lane_eq, lane_eq, hsum]
    omega

private theorem wordParts_of_lt {offset : UInt64} {total left done n : Nat} (h : done < total)
    (hn : min (4 - lane (offset + UInt64.ofNat done)) (total - done) = n) :
    wordParts offset total (left + 1) done =
      ⟨wordOf (offset + UInt64.ofNat done), lane (offset + UInt64.ofNat done), done, n⟩ ::
        wordParts offset total left (done + n) := by
  rw [← hn, wordParts, if_pos h]
  rfl

private theorem wordParts_of_ge {offset : UInt64} {total left done : Nat} (h : total ≤ done) :
    wordParts offset total left done = [] := by
  cases left with
  | zero => rfl
  | succ left => rw [wordParts, if_neg (Nat.not_lt.mpr h)]

private theorem gather_from {word : UInt64 → UInt32} {offset : UInt64} {total : Nat} (left done : Nat)
    (hleft : total - done ≤ left) :
    ((wordParts offset total left done).flatMap fun p =>
        Bytes.slice (Bytes.ofValue 4 (word p.aligned).toNat) p.within p.n) =
      (List.range' done (total - done)).map fun i => byteOf word (offset + UInt64.ofNat i) := by
  induction left generalizing done with
  | zero =>
    have hnone : total - done = 0 := by omega
    rw [hnone]
    rfl
  | succ left ih =>
    by_cases hdone : done < total
    · have hlane := lane_lt (offset + UInt64.ofNat done)
      generalize hn : min (4 - lane (offset + UInt64.ofNat done)) (total - done) = n
      have hsplit : total - done = n + (total - (done + n)) := by omega
      have hfirst : Bytes.slice (Bytes.ofValue 4 (word (wordOf (offset + UInt64.ofNat done))).toNat)
          (lane (offset + UInt64.ofNat done)) n =
            (List.range' done n).map fun i => byteOf word (offset + UInt64.ofNat i) := by
        refine List.ext_getElem? fun k => ?_
        rw [Bytes.getElem?_slice, List.getElem?_map]
        by_cases hk : k < n
        · obtain ⟨hword, hlane⟩ := part_byte offset done (k := k) (by omega)
          rw [if_pos hk, List.getElem?_range' hk, ← hlane, ← hword, byteOf_eq, Nat.one_mul]
          rfl
        · have hlen : (List.range' done n).length ≤ k := by
            rw [List.length_range']
            omega
          rw [if_neg hk, List.getElem?_eq_none hlen]
          rfl
      rw [wordParts_of_lt hdone hn, List.flatMap_cons, hfirst, ih (done + n) (by omega), ← List.map_append,
        List.range'_append_1, ← hsplit]
    · have hnone : total - done = 0 := by omega
      rw [wordParts_of_ge (by omega), hnone]
      rfl

/-- A read returns the bytes of the registers, however it is split into words. -/
theorem gather_eq (word : UInt64 → UInt32) (offset : UInt64) (len : Nat) :
    Device.gather word offset len = (List.range len).map fun i => byteOf word (offset + UInt64.ofNat i) := by
  rw [Device.gather, gather_from len 0 (by omega), List.range_eq_range']
  rfl

/-! ### The halves of a register -/

private theorem lowHalf_toNat (x : UInt64) : (lowHalf x).toNat = x.toNat % 2 ^ 32 := by
  have hmask : (0xffffffff : UInt64).toNat = 2 ^ 32 - 1 := rfl
  rw [lowHalf, UInt64.toNat_toUInt32, UInt64.toNat_and, hmask, Nat.and_two_pow_sub_one_eq_mod, Nat.mod_mod]

private theorem highHalf_toNat (x : UInt64) : (highHalf x).toNat = x.toNat / 2 ^ 32 := by
  have hlt := x.toNat_lt
  have hshift : (32 : UInt64).toNat % 64 = 32 := rfl
  rw [highHalf, UInt64.toNat_toUInt32, UInt64.toNat_shiftRight, hshift, Nat.shiftRight_eq_div_pow]
  omega

private theorem setLow_toNat (x : UInt64) (val : UInt32) :
    (setLow x val).toNat = x.toNat / 2 ^ 32 * 2 ^ 32 + val.toNat := by
  have hhigh : (x &&& ~~~(0xffffffff : UInt64)).toNat = x.toNat / 2 ^ 32 * 2 ^ 32 := by
    rw [UInt64.toNat_and]
    exact and_highMask x.toNat_lt (k := 32) (by decide)
  rw [setLow, UInt64.toNat_or, hhigh, UInt32.toNat_toUInt64, ← Nat.shiftLeft_eq,
    Nat.shiftLeft_add_eq_or_of_lt val.toNat_lt]

private theorem setHigh_toNat (x : UInt64) (val : UInt32) :
    (setHigh x val).toNat = val.toNat * 2 ^ 32 + x.toNat % 2 ^ 32 := by
  have hval := val.toNat_lt
  have hmask : (0xffffffff : UInt64).toNat = 2 ^ 32 - 1 := rfl
  have hshift : (32 : UInt64).toNat % 64 = 32 := rfl
  have hfits : val.toNat <<< 32 % 2 ^ 64 = val.toNat <<< 32 := by
    rw [Nat.shiftLeft_eq]
    omega
  rw [setHigh, UInt64.toNat_or, UInt64.toNat_and, hmask, Nat.and_two_pow_sub_one_eq_mod, UInt64.toNat_shiftLeft,
    hshift, UInt32.toNat_toUInt64, hfits, Nat.or_comm, ← Nat.shiftLeft_add_eq_or_of_lt (Nat.mod_lt _ (by decide)),
    Nat.shiftLeft_eq]

@[simp] theorem lowHalf_setLow (x : UInt64) (val : UInt32) : lowHalf (setLow x val) = val := by
  have hval := val.toNat_lt
  rw [← UInt32.toNat_inj, lowHalf_toNat, setLow_toNat]
  omega

@[simp] theorem highHalf_setLow (x : UInt64) (val : UInt32) : highHalf (setLow x val) = highHalf x := by
  have hval := val.toNat_lt
  rw [← UInt32.toNat_inj, highHalf_toNat, highHalf_toNat, setLow_toNat]
  omega

@[simp] theorem lowHalf_setHigh (x : UInt64) (val : UInt32) : lowHalf (setHigh x val) = lowHalf x := by
  rw [← UInt32.toNat_inj, lowHalf_toNat, lowHalf_toNat, setHigh_toNat]
  omega

@[simp] theorem highHalf_setHigh (x : UInt64) (val : UInt32) : highHalf (setHigh x val) = val := by
  rw [← UInt32.toNat_inj, highHalf_toNat, setHigh_toNat]
  omega

theorem eq_of_halves {x y : UInt64} (hlow : lowHalf x = lowHalf y) (hhigh : highHalf x = highHalf y) : x = y := by
  rw [← UInt32.toNat_inj, lowHalf_toNat, lowHalf_toNat] at hlow
  rw [← UInt32.toNat_inj, highHalf_toNat, highHalf_toNat] at hhigh
  rw [← UInt64.toNat_inj]
  omega

/-! ### The words of the configuration blocks -/

/-- Where the field of a context is. -/
private theorem ctxBlock_place {off : UInt64} {p : Fin NUM_CONTEXTS × UInt64} (h : ctxBlock off = some p) :
    off.toNat = 256 + (p.1.val * 64 + p.2.toNat) := by
  simp only [ctxBlock] at h
  split at h
  · next hin =>
    obtain ⟨hlow, hhigh⟩ := hin
    rw [UInt64.le_iff_toNat_le] at hlow
    rw [UInt64.lt_iff_toNat_lt] at hhigh
    have hbase : Ctrl.cmdRingCfg.toNat = 256 := rfl
    have hend : (Ctrl.cmdRingCfg + UInt64.ofNat NUM_CONTEXTS * Ctrl.cmdRingStride).toNat = 256 + 8 * 64 := rfl
    have hstride : Ctrl.cmdRingStride.toNat = 64 := rfl
    have hrel : (off - Ctrl.cmdRingCfg).toNat = off.toNat - 256 := by
      rw [UInt64.toNat_sub_of_le _ _ (UInt64.le_iff_toNat_le.mpr hlow), hbase]
    injection h with h
    rw [← h]
    simp only [Fin.ofNat, UInt64.toNat_div, UInt64.toNat_mod, hrel, hstride, NUM_CONTEXTS]
    omega
  · cases h

private theorem ctxBlock_inj {off off' : UInt64} {p : Fin NUM_CONTEXTS × UInt64} (h : ctxBlock off = some p)
    (h' : ctxBlock off' = some p) : off = off' := by
  rw [← UInt64.toNat_inj, ctxBlock_place h, ctxBlock_place h']

namespace Device

/-- The fields of a configuration block that keep what is written to them. -/
def plainFields : List UInt64 :=
  [RingField.baseLo, RingField.baseHi, RingField.size, RingField.indexLo, RingField.indexHi]

/-- The words of the plain registers: base, size and index of every ring, and the interrupt mask. -/
def IsPlain (off : UInt64) : Prop := off = Ctrl.irqMask ∨ (ctxBlock off).any (fun p => p.2 ∈ plainFields) = true

instance : DecidablePred IsPlain := fun off => inferInstanceAs (Decidable (off = Ctrl.irqMask ∨ _ = true))

/-- The words that act on a write, or keep a part of what cannot be read back. -/
def Active (off : UInt64) : Prop :=
  (Doorbell.page ≤ off ∧ off < Doorbell.page + 0x1000) ∨
    off ∈ [Ctrl.globalCtrl, Ctrl.deviceReset, Dbg.dmaAddrLo, Dbg.dmaAddrHi, Dbg.dmaData]

instance : DecidablePred Active := fun _ => inferInstanceAs (Decidable (_ ∨ _))

/-- A device but for its plain registers. -/
def others (s : Device) : Device :=
  { s with
    dev := { s.dev with ringBase := fun _ => 0, ringCap := fun _ => 0, ringIndex := fun _ => 0 }
    irqMask := 0 }

/-- What a configuration block shows. -/
def ringWord (s : Device) (ctx : Fin NUM_CONTEXTS) (field : UInt64) : UInt32 :=
  if field = RingField.baseLo then lowHalf (s.dev.ringBase ctx)
  else if field = RingField.baseHi then highHalf (s.dev.ringBase ctx)
  else if field = RingField.size then s.dev.ringCap ctx
  else if field = RingField.retiredLo then lowHalf (s.dev.ringRetired ctx)
  else if field = RingField.retiredHi then highHalf (s.dev.ringRetired ctx)
  else if field = RingField.indexLo then lowHalf (s.dev.ringIndex ctx)
  else if field = RingField.indexHi then highHalf (s.dev.ringIndex ctx)
  else 0

variable {env : Env} {s : Device} {off : UInt64} {ctx : Fin NUM_CONTEXTS} {field : UInt64}

private theorem bar0ReadU32_ring (h : ctxBlock off = some (ctx, field)) :
    s.bar0ReadU32 off = s.ringWord ctx field := by
  simp only [bar0ReadU32, h]
  rfl

/-- A ring field holds no more than the ring. -/
private theorem configureRing_keeps (s : Device) (ctx : Fin NUM_CONTEXTS) (field : UInt64) (val : UInt32) :
    ∃ base cap index, s.configureRing ctx field val =
      { s with dev := { s.dev with ringBase := base, ringCap := cap, ringIndex := index } } := by
  simp only [configureRing]
  split
  · exact ⟨_, _, _, rfl⟩
  · split
    · exact ⟨_, _, _, rfl⟩
    · split
      · exact ⟨_, _, _, rfl⟩
      · split
        · exact ⟨_, _, _, rfl⟩
        · split
          · exact ⟨_, _, _, rfl⟩
          · exact ⟨s.dev.ringBase, s.dev.ringCap, s.dev.ringIndex, rfl⟩

private theorem configureRing_others (val : UInt32) : (s.configureRing ctx field val).others = s.others := by
  obtain ⟨base, cap, index, heq⟩ := configureRing_keeps s ctx field val
  rw [heq]
  rfl

/-- The fields that are written to are told apart, also from the retired counter. -/
private theorem fields_distinct :
    (RingField.baseHi ≠ RingField.baseLo ∧ RingField.size ≠ RingField.baseLo ∧ RingField.size ≠ RingField.baseHi) ∧
    (RingField.indexLo ≠ RingField.baseLo ∧ RingField.indexLo ≠ RingField.baseHi ∧
      RingField.indexLo ≠ RingField.size ∧ RingField.indexLo ≠ RingField.retiredLo ∧
      RingField.indexLo ≠ RingField.retiredHi) ∧
    RingField.indexHi ≠ RingField.baseLo ∧ RingField.indexHi ≠ RingField.baseHi ∧
      RingField.indexHi ≠ RingField.size ∧ RingField.indexHi ≠ RingField.retiredLo ∧
      RingField.indexHi ≠ RingField.retiredHi ∧ RingField.indexHi ≠ RingField.indexLo := by
  decide

private theorem configureRing_irqMask (val : UInt32) : (s.configureRing ctx field val).irqMask = s.irqMask := by
  obtain ⟨base, cap, index, heq⟩ := configureRing_keeps s ctx field val
  rw [heq]

/-- A write to a field of a configuration block is seen there and nowhere else. -/
private theorem ringWord_configureRing (ctx' : Fin NUM_CONTEXTS) (field' : UInt64) (val : UInt32) :
    (s.configureRing ctx field val).ringWord ctx' field' =
      if (ctx' = ctx ∧ field' = field) ∧ field ∈ plainFields then val else s.ringWord ctx' field' := by
  by_cases hplain : field ∈ plainFields
  · have hcases := hplain
    simp only [plainFields, List.mem_cons, List.not_mem_nil, or_false] at hcases
    by_cases hctx : ctx' = ctx
    · subst hctx
      by_cases hfield : field' = field
      · rw [if_pos ⟨⟨rfl, hfield⟩, hplain⟩, hfield]
        rcases hcases with rfl | rfl | rfl | rfl | rfl <;> simp [ringWord, configureRing, fields_distinct]
      · rw [if_neg fun h => hfield h.1.2]
        rcases hcases with rfl | rfl | rfl | rfl | rfl <;>
          simp [ringWord, configureRing, hfield, fields_distinct]
    · rw [if_neg fun h => hctx h.1.1]
      rcases hcases with rfl | rfl | rfl | rfl | rfl <;>
        simp [ringWord, configureRing, Function.update_of_ne hctx, fields_distinct]
  · have hkept : s.configureRing ctx field val = s := by
      simp only [plainFields, List.mem_cons, List.not_mem_nil, or_false, not_or] at hplain
      simp only [configureRing, hplain, if_false]
    rw [hkept, if_neg fun h => hplain h.2]

private theorem bar0WriteU32_ring (hblock : ctxBlock off = some (ctx, field)) (hquiet : ¬Active off) (val : UInt32) :
    s.bar0WriteU32 env off val = s.configureRing ctx field val := by
  simp only [Active, not_or] at hquiet
  rw [bar0WriteU32, if_neg hquiet.1]
  simp only [hblock]

private theorem bar0WriteU32_control (hblock : ctxBlock off = none) (hquiet : ¬Active off) (val : UInt32) :
    s.bar0WriteU32 env off val = if off = Ctrl.irqMask then { s with irqMask := val } else s := by
  simp only [Active, not_or, List.mem_cons, List.not_mem_nil, or_false] at hquiet
  obtain ⟨hpage, hctrl, hreset, hlow, hhigh, hdata⟩ := hquiet
  rw [bar0WriteU32, if_neg hpage]
  simp only [hblock, hctrl, hreset, hlow, hhigh, hdata, if_false]

private theorem bar0WriteU32_others (hquiet : ¬Active off) (val : UInt32) :
    (s.bar0WriteU32 env off val).others = s.others := by
  cases hblock : ctxBlock off with
  | some p => rw [bar0WriteU32_ring hblock hquiet, configureRing_others]
  | none =>
    rw [bar0WriteU32_control hblock hquiet]
    split <;> rfl

private theorem isPlain_ring (hblock : ctxBlock off = some (ctx, field)) : IsPlain off ↔ field ∈ plainFields := by
  have hirq : off ≠ Ctrl.irqMask := by
    rintro rfl
    exact Option.some_ne_none _ (hblock.symm.trans (by decide))
  simp [IsPlain, hblock, hirq]

private theorem isPlain_control (hblock : ctxBlock off = none) : IsPlain off ↔ off = Ctrl.irqMask := by
  simp [IsPlain, hblock]

private theorem bar0ReadU32_irqMask (s : Device) : s.bar0ReadU32 Ctrl.irqMask = s.irqMask := rfl

/-- The words beside the plain registers do not depend on these. -/
private theorem bar0ReadU32_of_others {s s' : Device} (h : s'.others = s.others) (hblock : ctxBlock off = none)
    (hirq : off ≠ Ctrl.irqMask) : s'.bar0ReadU32 off = s.bar0ReadU32 off := by
  have hsame (d : Device) : d.bar0ReadU32 off = d.others.bar0ReadU32 off := by
    simp only [bar0ReadU32, hblock, hirq, if_false]
    rfl
  rw [hsame s', hsame s, h]

/-- A write of a word is seen there, if the register keeps it, and nowhere else. -/
private theorem bar0ReadU32_bar0WriteU32 (hquiet : ¬Active off) (val : UInt32) (off' : UInt64) :
    (s.bar0WriteU32 env off val).bar0ReadU32 off' = if off' = off ∧ IsPlain off then val else s.bar0ReadU32 off' := by
  cases hblock : ctxBlock off with
  | some p =>
    obtain ⟨ctx, field⟩ := p
    rw [bar0WriteU32_ring hblock hquiet]
    simp only [isPlain_ring hblock]
    cases hblock' : ctxBlock off' with
    | some p' =>
      obtain ⟨ctx', field'⟩ := p'
      have hsame : off' = off ↔ ctx' = ctx ∧ field' = field := by
        constructor
        · rintro rfl
          exact Prod.mk.inj (Option.some.inj (hblock'.symm.trans hblock))
        · rintro ⟨rfl, rfl⟩
          exact ctxBlock_inj hblock' hblock
      simp only [bar0ReadU32_ring hblock', ringWord_configureRing, hsame]
    | none =>
      have hother : off' ≠ off := by
        rintro rfl
        exact Option.some_ne_none _ (hblock.symm.trans hblock')
      rw [if_neg fun h => hother h.1]
      by_cases hirq : off' = Ctrl.irqMask
      · rw [hirq, bar0ReadU32_irqMask, bar0ReadU32_irqMask, configureRing_irqMask]
      · exact bar0ReadU32_of_others (configureRing_others val) hblock' hirq
  | none =>
    rw [bar0WriteU32_control hblock hquiet]
    simp only [isPlain_control hblock]
    by_cases hirq : off = Ctrl.irqMask
    · subst hirq
      rw [if_pos rfl]
      by_cases hsame : off' = Ctrl.irqMask
      · rw [if_pos ⟨hsame, rfl⟩, hsame, bar0ReadU32_irqMask]
      · rw [if_neg fun h => hsame h.1]
        cases hblock' : ctxBlock off' with
        | some p' =>
          rw [bar0ReadU32_ring hblock', bar0ReadU32_ring hblock']
          rfl
        | none => exact bar0ReadU32_of_others rfl hblock' hsame
    · rw [if_neg hirq, if_neg fun h => hirq h.2]

private theorem ring_plain (ctx : Fin NUM_CONTEXTS) {field : UInt64} (hfield : field ∈ plainFields) :
    ∃ off, ctxBlock off = some (ctx, field) := by
  refine ⟨Ctrl.cmdRingCfg + (UInt64.ofNat ctx.val * Ctrl.cmdRingStride + field), ?_⟩
  simp only [plainFields, List.mem_cons, List.not_mem_nil, or_false] at hfield
  rcases hfield with rfl | rfl | rfl | rfl | rfl <;> revert ctx <;> decide

/-- The plain registers and the rest make up the device. -/
private theorem eq_of_plain {s s' : Device} (hothers : s'.others = s.others)
    (hplain : ∀ off, IsPlain off → s'.bar0ReadU32 off = s.bar0ReadU32 off) : s' = s := by
  have hring (ctx : Fin NUM_CONTEXTS) (field : UInt64) (hfield : field ∈ plainFields) :
      s'.ringWord ctx field = s.ringWord ctx field := by
    obtain ⟨off, hblock⟩ := ring_plain ctx hfield
    rw [← bar0ReadU32_ring hblock, ← bar0ReadU32_ring hblock]
    exact hplain off ((isPlain_ring hblock).mpr hfield)
  have hbase : s'.dev.ringBase = s.dev.ringBase := funext fun ctx =>
    eq_of_halves (hring ctx RingField.baseLo (by decide)) (hring ctx RingField.baseHi (by decide))
  have hcap : s'.dev.ringCap = s.dev.ringCap := funext fun ctx => hring ctx RingField.size (by decide)
  have hindex : s'.dev.ringIndex = s.dev.ringIndex := funext fun ctx =>
    eq_of_halves (hring ctx RingField.indexLo (by decide))
      (hring ctx RingField.indexHi (by decide))
  have hirq : s'.irqMask = s.irqMask := hplain Ctrl.irqMask (.inl rfl)
  have hback (d : Device) : d = { d.others with
      dev := { d.others.dev with ringBase := d.dev.ringBase, ringCap := d.dev.ringCap, ringIndex := d.dev.ringIndex }
      irqMask := d.irqMask } := rfl
  rw [hback s', hback s, hothers, hbase, hcap, hindex, hirq]

/-! ### Writes of bytes -/

/-- A byte of the registers, as a read of it returns it. -/
def byteAt (s : Device) (a : UInt64) : UInt8 := byteOf s.bar0ReadU32 a

private theorem IsPlain.aligned (h : IsPlain off) : off.toNat % 4 = 0 := by
  cases hblock : ctxBlock off with
  | some p =>
    obtain ⟨ctx, field⟩ := p
    have hfield : field.toNat % 4 = 0 := by
      have hmem := (isPlain_ring hblock).mp h
      simp only [plainFields, List.mem_cons, List.not_mem_nil, or_false] at hmem
      rcases hmem with rfl | rfl | rfl | rfl | rfl <;> rfl
    have hplace := ctxBlock_place hblock
    simp only at hplace
    omega
  | none =>
    rw [(isPlain_control hblock).mp h]
    rfl

private theorem eq_of_bytes {s s' : Device} (hothers : s'.others = s.others)
    (hbytes : ∀ a, IsPlain (wordOf a) → s'.byteAt a = s.byteAt a) : s' = s := by
  refine eq_of_plain hothers fun off hplain => ?_
  have haligned := hplain.aligned
  have hlt := off.toNat_lt
  rw [← Bytes.u32_ofValue (s'.bar0ReadU32 off), ← Bytes.u32_ofValue (s.bar0ReadU32 off)]
  refine congrArg Bytes.u32 (List.ext_getElem? fun k => ?_)
  by_cases hk : k < 4
  · have hsum : (off + UInt64.ofNat k).toNat = off.toNat + k :=
      toNat_add_lane off (by rw [lane_eq, haligned]; exact hk)
    have hword : wordOf (off + UInt64.ofNat k) = off := by
      rw [← UInt64.toNat_inj, wordOf_toNat, hsum]
      omega
    have hlane : lane (off + UInt64.ofNat k) = k := by
      rw [lane_eq, hsum]
      omega
    have hread (d : Device) :
        (Bytes.ofValue 4 (d.bar0ReadU32 off).toNat)[k]? = some (d.byteAt (off + UInt64.ofNat k)) := by
      rw [byteAt, ← byteOf_eq, hword, hlane]
    rw [hread, hread, hbytes _ (hword.symm ▸ hplain)]
  · rw [List.getElem?_eq_none, List.getElem?_eq_none] <;> rw [Bytes.ofValue_length] <;> omega

/-- What a write of one word does to the bytes of the registers, `n` of its bytes being taken from the data. -/
private theorem writePart_byteAt {offset : UInt64} {data : List UInt8} {done n : Nat} (hlen : data.length ≤ 2 ^ 64)
    (hdone : done < data.length)
    (hn : min (4 - lane (offset + UInt64.ofNat done)) (data.length - done) = n)
    (hquiet : ¬Active (wordOf (offset + UInt64.ofNat done))) (a : UInt64) :
    (s.writePart env data
        ⟨wordOf (offset + UInt64.ofNat done), lane (offset + UInt64.ofNat done), done, n⟩).byteAt a =
      if (done ≤ (a - offset).toNat ∧ (a - offset).toNat < done + n) ∧ IsPlain (wordOf a) then
        data.getD (a - offset).toNat 0
      else s.byteAt a := by
  have hlane := lane_lt (offset + UInt64.ofNat done)
  have hpiece := toNat_sub_piece a offset (d := done) (by omega)
  have hplace := (a - offset).toNat_lt
  generalize hcur : offset + UInt64.ofNat done = cur at *
  -- the bytes of the word that are replaced are those of the piece
  have hrange : (done ≤ (a - offset).toNat ∧ (a - offset).toNat < done + n) ↔
      wordOf a = wordOf cur ∧ lane cur ≤ lane a ∧ lane a < lane cur + n := by
    rw [← sub_lt_iff (by omega : n ≤ 4 - lane cur), hpiece]
    omega
  generalize hword : Bytes.ofValue 4 (s.bar0ReadU32 (wordOf cur)).toNat = word
  have hwordLength : word.length = 4 := by rw [← hword, Bytes.ofValue_length]
  have hnew : (Bytes.slice data done n).length = n := Bytes.slice_length (by omega)
  have hfits : lane cur + (Bytes.slice data done n).length ≤ word.length := by omega
  simp only [byteAt, byteOf, writePart, hword, bar0ReadU32_bar0WriteU32 hquiet]
  by_cases hin : wordOf a = wordOf cur ∧ IsPlain (wordOf cur)
  · have hindex (h : lane cur ≤ lane a ∧ lane a < lane cur + n) :
      done + (lane a - lane cur) = (a - offset).toNat := by
      have hin' := hrange.mpr ⟨hin.1, h⟩
      rw [← sub_of_lane hin.1 h.1, hpiece]
      omega
    rw [if_pos hin, Bytes.ofValue_u32 (by rw [Bytes.splice_length hfits, hwordLength]), List.getD_eq_getElem?_getD,
      Bytes.getElem?_splice hfits, hnew, hin.1, hword]
    by_cases hlanes : lane cur ≤ lane a ∧ lane a < lane cur + n
    · rw [if_pos hlanes, if_pos ⟨hrange.mpr ⟨hin.1, hlanes⟩, hin.2⟩, Bytes.getElem?_slice, if_pos (by omega),
        hindex hlanes, List.getD_eq_getElem?_getD]
    · rw [if_neg hlanes, if_neg fun h => hlanes (hrange.mp h.1).2, List.getD_eq_getElem?_getD]
  · have hout : ¬((done ≤ (a - offset).toNat ∧ (a - offset).toNat < done + n) ∧ IsPlain (wordOf a)) := by
      rintro ⟨hpiece, hplain⟩
      have hsame := (hrange.mp hpiece).1
      exact hin ⟨hsame, hsame ▸ hplain⟩
    rw [if_neg hin, if_neg hout]

private theorem writePart_others {data : List UInt8} {p : WordPart} (hquiet : ¬Active p.aligned) :
    (s.writePart env data p).others = s.others := bar0WriteU32_others hquiet _

private theorem foldl_writePart {offset : UInt64} {data : List UInt8} (hlen : data.length ≤ 2 ^ 64)
    (hquiet : ∀ i < data.length, ¬Active (wordOf (offset + UInt64.ofNat i))) (left done : Nat)
    (hleft : data.length - done ≤ left) :
    ((wordParts offset data.length left done).foldl (writePart env data) s).others = s.others ∧
      ∀ a, ((wordParts offset data.length left done).foldl (writePart env data) s).byteAt a =
        if (done ≤ (a - offset).toNat ∧ (a - offset).toNat < data.length) ∧ IsPlain (wordOf a) then
          data.getD (a - offset).toNat 0
        else s.byteAt a := by
  induction left generalizing done s with
  | zero => exact ⟨rfl, fun a => (if_neg (by omega)).symm⟩
  | succ left ih =>
    by_cases hdone : done < data.length
    · have hlane := lane_lt (offset + UInt64.ofNat done)
      generalize hn : min (4 - lane (offset + UInt64.ofNat done)) (data.length - done) = n
      rw [wordParts_of_lt hdone hn, List.foldl_cons]
      obtain ⟨hothers, hbytes⟩ := ih (s := s.writePart env data
        ⟨wordOf (offset + UInt64.ofNat done), lane (offset + UInt64.ofNat done), done, n⟩) (done + n) (by omega)
      refine ⟨hothers.trans (writePart_others (hquiet done hdone)), fun a => ?_⟩
      rw [hbytes, writePart_byteAt hlen hdone hn (hquiet done hdone)]
      by_cases hplain : IsPlain (wordOf a)
      · simp only [hplain, and_true]
        split
        · rw [if_pos (by omega)]
        · split
          · rw [if_pos (by omega)]
          · rw [if_neg (by omega)]
      · rw [if_neg fun h => hplain h.2, if_neg fun h => hplain h.2, if_neg fun h => hplain h.2]
    · rw [wordParts_of_ge (by omega)]
      exact ⟨rfl, fun a => (if_neg (by omega)).symm⟩

/-- None of the bytes of a write is in a word that acts on it. -/
def Inert (w : UInt64 × List UInt8) : Prop := ∀ i < w.2.length, ¬Active (wordOf (w.1 + UInt64.ofNat i))

instance : DecidablePred Inert := fun w =>
  inferInstanceAs (Decidable (∀ i < w.2.length, ¬Active (wordOf (w.1 + UInt64.ofNat i))))

/-- Such a write does not go round the address space. -/
private theorem Inert.length_le {w : UInt64 × List UInt8} (h : Inert w) : w.2.length ≤ 2 ^ 64 := by
  by_contra hlong
  have hlt := (Doorbell.page - w.1).toNat_lt
  refine h (Doorbell.page - w.1).toNat (by omega) ?_
  rw [UInt64.ofNat_toNat, UInt64.add_comm, UInt64.sub_add_cancel]
  decide

private theorem writeBar0_others {w : UInt64 × List UInt8} (h : Inert w) :
    (s.writeBar0 env w.1 w.2).others = s.others :=
  (foldl_writePart h.length_le h _ 0 (by omega)).1

/-- A write replaces the bytes of the plain registers that it covers. -/
theorem writeBar0_byteAt {w : UInt64 × List UInt8} (h : Inert w) (a : UInt64) :
    (s.writeBar0 env w.1 w.2).byteAt a =
      if IsPlain (wordOf a) then (w.2[(a - w.1).toNat]?).getD (s.byteAt a) else s.byteAt a := by
  refine ((foldl_writePart h.length_le h _ 0 (by omega)).2 a).trans ?_
  by_cases hplain : IsPlain (wordOf a)
  · rw [if_pos hplain]
    by_cases hin : (a - w.1).toNat < w.2.length
    · rw [if_pos ⟨⟨Nat.zero_le _, hin⟩, hplain⟩, List.getD_eq_getElem?_getD, List.getElem?_eq_getElem hin]
      rfl
    · rw [if_neg fun h => hin h.1.2, List.getElem?_eq_none (Nat.le_of_not_lt hin)]
      rfl
  · rw [if_neg fun h => hplain h.2, if_neg hplain]

/-! ### Writes in pieces -/

/-- The byte that was last written at an address. -/
def lastWritten : List (UInt64 × List UInt8) → UInt64 → Option UInt8
  | [], _ => none
  | w :: ws, a => (lastWritten ws a).or w.2[(a - w.1).toNat]?

/-- The writes are applied one after the other. -/
def writes (env : Env) (s : Device) (ws : List (UInt64 × List UInt8)) : Device :=
  ws.foldl (fun s w => s.writeBar0 env w.1 w.2) s

private theorem writes_others {ws : List (UInt64 × List UInt8)} (h : ∀ w ∈ ws, Inert w) :
    (s.writes env ws).others = s.others := by
  induction ws generalizing s with
  | nil => rfl
  | cons w ws ih =>
    obtain ⟨hw, hws⟩ := List.forall_mem_cons.mp h
    exact (ih hws).trans (writeBar0_others hw)

private theorem writes_byteAt {ws : List (UInt64 × List UInt8)} (h : ∀ w ∈ ws, Inert w) (a : UInt64) :
    (s.writes env ws).byteAt a =
      if IsPlain (wordOf a) then (lastWritten ws a).getD (s.byteAt a) else s.byteAt a := by
  induction ws generalizing s with
  | nil => exact (ite_self _).symm
  | cons w ws ih =>
    obtain ⟨hw, hws⟩ := List.forall_mem_cons.mp h
    refine (ih hws).trans ?_
    rw [writeBar0_byteAt hw, lastWritten]
    by_cases hplain : IsPlain (wordOf a)
    · rw [if_pos hplain, if_pos hplain, if_pos hplain, Option.getD_or]
    · rw [if_neg hplain, if_neg hplain, if_neg hplain]

/-- Only the bytes that writes leave in the plain registers matter. -/
private theorem writes_eq {ws ws' : List (UInt64 × List UInt8)} (h : ∀ w ∈ ws, Inert w) (h' : ∀ w ∈ ws', Inert w)
    (hsame : ∀ a, IsPlain (wordOf a) →
      (lastWritten ws' a).getD (s.byteAt a) = (lastWritten ws a).getD (s.byteAt a)) :
    s.writes env ws = s.writes env ws' := by
  refine eq_of_bytes ((writes_others h).trans (writes_others h').symm) fun a hplain => ?_
  rw [writes_byteAt h, writes_byteAt h', if_pos hplain, if_pos hplain, hsame a hplain]

/-- A write split into pieces that follow each other. -/
def pieces : UInt64 → List (List UInt8) → List (UInt64 × List UInt8)
  | _, [] => []
  | offset, d :: ds => (offset, d) :: pieces (offset + UInt64.ofNat d.length) ds

private theorem inert_flatten {offset : UInt64} {ds : List (List UInt8)} (h : ∀ w ∈ pieces offset ds, Inert w) :
    Inert (offset, ds.flatten) := by
  induction ds generalizing offset with
  | nil => exact fun i hi => absurd hi (Nat.not_lt_zero i)
  | cons d ds ih =>
    obtain ⟨hd, hds⟩ := List.forall_mem_cons.mp h
    intro i hi
    rw [List.flatten_cons, List.length_append] at hi
    by_cases hin : i < d.length
    · exact hd i hin
    · have hrest := ih hds (i - d.length) (by simp only; omega)
      have hplace : offset + UInt64.ofNat d.length + UInt64.ofNat (i - d.length) = offset + UInt64.ofNat i := by
        rw [UInt64.add_assoc, ← UInt64.ofNat_add, Nat.add_sub_cancel' (Nat.le_of_not_lt hin)]
      exact hplace ▸ hrest

private theorem lastWritten_pieces {offset : UInt64} {ds : List (List UInt8)} (hlen : ds.flatten.length ≤ 2 ^ 64)
    (a : UInt64) :
    lastWritten (pieces offset ds) a = ds.flatten[(a - offset).toNat]? := by
  induction ds generalizing offset with
  | nil => rfl
  | cons d ds ih =>
    rw [List.flatten_cons, List.length_append] at hlen
    have ha := a.toNat_lt
    have hoffset := offset.toNat_lt
    have hrest : (a - (offset + UInt64.ofNat d.length)).toNat =
        (2 ^ 64 - (offset.toNat + d.length) % 2 ^ 64 + a.toNat) % 2 ^ 64 := by
      rw [UInt64.toNat_sub, UInt64.toNat_add, UInt64.toNat_ofNat', Nat.add_mod_mod]
    have hfirst : (a - offset).toNat = (2 ^ 64 - offset.toNat + a.toNat) % 2 ^ 64 := UInt64.toNat_sub a offset
    rw [pieces, lastWritten, ih (by omega), List.flatten_cons, List.getElem?_append]
    split
    · next hin =>
      rw [List.getElem?_eq_none (by omega), Option.none_or]
    · next hin =>
      have hback : (a - (offset + UInt64.ofNat d.length)).toNat = (a - offset).toNat - d.length := by omega
      have hout : d[(a - offset).toNat]? = none := List.getElem?_eq_none (by omega)
      rw [hback, hout, Option.or_none]

/-- Words written whole, one after the other. -/
def writeWords (env : Env) : Device → UInt64 → List UInt32 → Device
  | s, _, [] => s
  | s, off, w :: ws => writeWords env (s.bar0WriteU32 env off w) (off + 4) ws

def wordBytes (words : List UInt32) : List UInt8 := words.flatMap fun w => Bytes.ofValue 4 w.toNat

private theorem foldl_words {base : UInt64} (hbase : lane base = 0) {data : List UInt8} (words : List UInt32)
    (left done : Nat) (hleft : (wordBytes words).length ≤ left) (hdone : done % 4 = 0)
    (hdata : data.drop done = wordBytes words) :
    (wordParts base data.length left done).foldl (writePart env data) s =
      s.writeWords env (base + UInt64.ofNat done) words := by
  induction words generalizing s left done with
  | nil =>
    have hall : data.length ≤ done := List.drop_eq_nil_iff.mp hdata
    rw [wordParts_of_ge hall]
    rfl
  | cons w words ih =>
    have hcons : wordBytes (w :: words) = Bytes.ofValue 4 w.toNat ++ wordBytes words := rfl
    rw [hcons] at hleft hdata
    rw [List.length_append, Bytes.ofValue_length] at hleft
    have hlength := congrArg List.length hdata
    rw [List.length_drop, List.length_append, Bytes.ofValue_length] at hlength
    obtain ⟨left, rfl⟩ : ∃ left', left = left' + 1 := ⟨left - 1, by omega⟩
    have hlane : lane (base + UInt64.ofNat done) = 0 := by
      rw [lane_eq] at hbase ⊢
      rw [UInt64.toNat_add, UInt64.toNat_ofNat']
      omega
    have hword : wordOf (base + UInt64.ofNat done) = base + UInt64.ofNat done := by
      rw [lane_eq] at hlane
      rw [← UInt64.toNat_inj, wordOf_toNat]
      omega
    have hnext : base + UInt64.ofNat (done + 4) = base + UInt64.ofNat done + 4 := by
      rw [UInt64.ofNat_add, UInt64.add_assoc]
      rfl
    have hdrop : data.drop (done + 4) = wordBytes words := by
      rw [← List.drop_drop, hdata, List.drop_left' (Bytes.ofValue_length 4 w.toNat)]
    have hpart : s.writePart env data ⟨base + UInt64.ofNat done, 0, done, 4⟩ =
        s.bar0WriteU32 env (base + UInt64.ofNat done) w := by
      have hslice : Bytes.slice data done 4 = Bytes.ofValue 4 w.toNat := by
        rw [Bytes.slice, hdata, List.take_left' (Bytes.ofValue_length 4 w.toNat)]
      simp only [writePart, hslice, Bytes.splice, Bytes.ofValue_length, List.take_zero, List.nil_append]
      rw [List.drop_of_length_le (by rw [Bytes.ofValue_length]), List.append_nil, Bytes.u32_ofValue]
    rw [wordParts_of_lt (n := 4) (by omega) (by omega), List.foldl_cons, hword, hlane, hpart,
      ih left (done + 4) (by omega) (by omega) hdrop, hnext]
    rfl

/-- An aligned access writes its words whole. -/
theorem writeBar0_words {base : UInt64} (hbase : lane base = 0) (words : List UInt32) :
    s.writeBar0 env base (wordBytes words) = s.writeWords env base words := by
  have hrun : (wordParts base (wordBytes words).length (wordBytes words).length 0).foldl
      (writePart env (wordBytes words)) s = s.writeWords env (base + UInt64.ofNat 0) words :=
    foldl_words hbase words _ 0 (Nat.le_refl _) rfl rfl
  have hzero : base + UInt64.ofNat 0 = base := UInt64.add_zero base
  rwa [hzero] at hrun

/-- Writes of any sizes, at any places where no register acts on them, change plain registers only, and every read
returns the bytes last written to these.  Where the writes are the pieces of one, they leave what it leaves, and what
the words written whole leave that have the bytes last written and, beside these, the present ones. -/
theorem subword_consistent (env : Env) (s : Device) (ws : List (UInt64 × List UInt8)) (h : ∀ w ∈ ws, Inert w) :
    (s.writes env ws).others = s.others ∧
    (∀ offset len, (s.writes env ws).readBar0 offset len = (List.range len).map fun i =>
      if IsPlain (wordOf (offset + UInt64.ofNat i)) then
        (lastWritten ws (offset + UInt64.ofNat i)).getD (s.byteAt (offset + UInt64.ofNat i))
      else s.byteAt (offset + UInt64.ofNat i)) ∧
    (∀ offset ds, ws = pieces offset ds → s.writes env ws = s.writeBar0 env offset ds.flatten) ∧
    ∀ base words, lane base = 0 → Inert (base, wordBytes words) →
      (∀ a, IsPlain (wordOf a) → (lastWritten [(base, wordBytes words)] a).getD (s.byteAt a) =
        (lastWritten ws a).getD (s.byteAt a)) →
      s.writes env ws = s.writeWords env base words := by
  refine ⟨writes_others h, fun offset len => ?_, fun offset ds hpieces => ?_, fun base words hbase hinert hsame => ?_⟩
  · rw [readBar0, gather_eq]
    exact List.map_congr_left fun i _ => writes_byteAt h _
  · have hwhole : Inert (offset, ds.flatten) := inert_flatten (hpieces ▸ h)
    have hone : ∀ w ∈ [(offset, ds.flatten)], Inert w := List.forall_mem_singleton.mpr hwhole
    refine writes_eq h hone fun a _ => ?_
    rw [hpieces, lastWritten_pieces hwhole.length_le]
    rfl
  · rw [← writeBar0_words hbase]
    exact writes_eq h (List.forall_mem_singleton.mpr hinert) hsame

/-- Seven bytes in two pieces, over the upper half of the index of ring 0, the half before it and the word behind
it. -/
theorem subword_consistent_index :
    let s := create ⟨.default, .new "vm" 1 4096, false, false, false, false⟩ .new fun _ => 0
    let ws := [(0x11e, [1, 2, 3]), (0x121, [4, 5, 6, 7])]
    (s.writes .idle ws).readBar0 0x11c 12 = [0, 0, 1, 2, 3, 4, 5, 6, 0, 0, 0, 0] ∧
      (s.writes .idle ws).others = s.others ∧
      s.writes .idle ws = s.writeBar0 .idle 0x11e [1, 2, 3, 4, 5, 6, 7] := by
  intro s ws
  obtain ⟨hothers, hread, hsplit, -⟩ := subword_consistent .idle s ws (by decide)
  refine ⟨(hread 0x11c 12).trans ?_, hothers, hsplit 0x11e [[1, 2, 3], [4, 5, 6, 7]] rfl⟩
  decide

end Device

end Infinigpu
