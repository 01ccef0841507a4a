import Infinigpu.Sched.Polling

/-!
# Throttle waits (`infinigpu-sched`, `GpuBroker::begin` and `run_timed`)

`begin` answers a VM without budget with the time after which its bucket will have climbed back to a quantum of one
millisecond.  The time is rounded down, and so is what the refill after it brings in; the quantum is the margin for
both.

* `Ledger.WaitSuffices`: the next `begin` at the end of the wait, or later, says `Ready`;
* `Ledger.PolledWaitSuffices`: so does one after any calls of `begin` in between;
* `Ledger.LoopProgresses`: every turn of the loop of `run_timed`, which sleeps at most 50 ms, raises the balance.
-/

namespace Infinigpu

/-- The longest sleep of a turn of `run_timed`. -/
def maxSleepUs : Nat := 50000

namespace VmState

/-- What the balance is short of a quantum. -/
def deficit (vm : VmState) : Nat := (1000 - vm.tokensUs.toInt).toNat

/-- By how much the last refill is ahead of a clock reading. -/
def lag (vm : VmState) (now : UInt64) : Nat := vm.lastRefillUs.toNat - now.toNat

/-- The burst, the deficit, the wait and all that comes in until the clock ends stay in 64 bits. -/
structure InRange (cfg : BrokerConfig) (vm : VmState) : Prop where
  burst : cfg.bucketBurstUs.toNat < 2 ^ 63
  deficit : vm.deficit < 2 ^ 63
  wait : vm.deficit * 1000000 / (cfg.refillRate vm.cfg).toNat < 2 ^ 64
  horizon : vm.tokensUs.toInt +
    ((cfg.refillRate vm.cfg).toNat * (2 ^ 64 - 1 - vm.lastRefillUs.toNat) / 1000000 : Nat) < 2 ^ 63

end VmState

namespace Ledger

variable (cfg : BrokerConfig) (v : String) (st : Ledger) (t w : UInt64)

/-- After `begin` at `t`, the next `begin` at any time from `t + w` on says `Ready`. -/
def WaitSuffices : Prop :=
  ∀ t' : UInt64, t.toNat + w.toNat ≤ t'.toNat → ((st.begin cfg v t).2.begin cfg v t').1 = .ok .ready

/-- The same when `begin` is also called at some readings before `t'`, with nothing recorded. -/
def PolledWaitSuffices : Prop :=
  ∀ (t' : UInt64) (readings : List UInt64), t.toNat + w.toNat ≤ t'.toNat → (∀ x ∈ readings, x ≤ t') →
    (((st.begin cfg v t).2.polled cfg v readings).begin cfg v t').1 = .ok .ready

/-- After the sleep of a turn of the loop the balance has risen. -/
def LoopProgresses : Prop :=
  ∀ t' : UInt64, t.toNat + min w.toNat maxSleepUs ≤ t'.toNat →
    ∃ x ∈ (st.begin cfg v t).2.balance v, ∃ y ∈ ((st.begin cfg v t).2.begin cfg v t').2.balance v, x < y

end Ledger

/-! ### Refills of an empty bucket -/

/-- Where a sum of 64-bit amounts has not gone round, it is positive when the 64-bit sum is. -/
private theorem bmod_pos_iff {x : Int} (hlow : -2 ^ 63 ≤ x) (hhigh : x < 2 ^ 64) :
    0 < x.bmod (2 ^ 64) ↔ 0 < x ∧ x < 2 ^ 63 := by
  unfold Int.bmod
  simp only
  split <;> omega

private theorem toInt64_pos_iff {x : UInt64} (h : 1 ≤ x.toNat) : 0 < x.toInt64.toInt ↔ x.toNat < 2 ^ 63 := by
  have hx : x.toInt64.toInt = x.toBitVec.toInt := rfl
  have hlt := x.toNat_lt
  have hnat : x.toBitVec.toNat = x.toNat := rfl
  rw [hx, BitVec.toInt_eq_toNat_cond, hnat]
  split <;> omega

namespace VmState

variable {cfg : BrokerConfig} {vm : VmState}

/-- What a refill brings in. -/
def income (cfg : BrokerConfig) (vm : VmState) (now : UInt64) : Nat :=
  (cfg.refillRate vm.cfg).toNat * (now.toNat - vm.lastRefillUs.toNat) / 1000000

private theorem refill_pos_iff (hempty : vm.tokensUs.toInt ≤ 0) (hburst : 1 ≤ cfg.bucketBurstUs.toNat)
    (now : UInt64) :
    0 < (vm.refill now cfg).tokensUs.toInt ↔
      cfg.bucketBurstUs.toNat < 2 ^ 63 ∧ 0 < (vm.tokensUs.toInt + vm.income cfg now).bmod (2 ^ 64) := by
  have hdt : (saturatingSub now vm.lastRefillUs).toNat = now.toNat - vm.lastRefillUs.toNat := saturatingSub_toNat _ _
  have hlow := vm.tokensUs.le_toInt
  by_cases hzero : saturatingSub now vm.lastRefillUs = 0
  · have hnone : vm.income cfg now = 0 := by rw [income, ← hdt, hzero, UInt64.toNat_zero, Nat.mul_zero, Nat.zero_div]
    have hsame : vm.refill now cfg = vm := by
      unfold refill
      simp only [if_pos hzero]
    rw [hsame, hnone]
    refine iff_of_false (by omega) fun h => ?_
    have hpos := (bmod_pos_iff (by omega) (by omega)).1 h.2
    omega
  · have htokens : (vm.refill now cfg).tokensUs =
      min (vm.tokensUs + Int64.ofNat (vm.income cfg now)) cfg.bucketBurstUs.toInt64 := by
      unfold refill
      simp only [if_neg hzero, hdt]
      rfl
    rw [htokens, toInt_min, toInt_add_ofNat_wrap, ← toInt64_pos_iff hburst]
    omega

private theorem le_refill_lastRefillUs (now : UInt64) : now.toNat ≤ (vm.refill now cfg).lastRefillUs.toNat := by
  have hdt : (saturatingSub now vm.lastRefillUs).toNat = now.toNat - vm.lastRefillUs.toNat := saturatingSub_toNat _ _
  unfold refill
  simp only
  split
  · next hzero =>
    rw [hzero, UInt64.toNat_zero] at hdt
    omega
  · exact Nat.le_refl _

end VmState

namespace Ledger

variable {cfg : BrokerConfig} {v : String} {st : Ledger} {t w : UInt64} {vm : VmState}

/-! ### A throttled call -/

/-- The call is throttled over an empty bucket, with the wait for the entry it leaves. -/
private theorem begin_throttled (hw : (st.begin cfg v t).1 = .ok (.throttled w))
    (hvm : (st.begin cfg v t).2.vms.lookup v = some vm) :
    cfg.throttleEnabled = true ∧ vm.tokensUs.toInt ≤ 0 ∧ t.toNat ≤ vm.lastRefillUs.toNat ∧ w = waitUs cfg vm := by
  unfold begin at hw hvm
  cases hlookup : st.vms.lookup v with
  | none =>
    simp only [hlookup] at hw
    cases hw
  | some vm₀ =>
    simp only [hlookup] at hw hvm
    split at hw
    · cases hw
    · next hready =>
      rw [if_neg hready] at hvm
      simp only [AList.lookup_insert, Option.some_inj] at hvm
      simp only [Bool.or_eq_true, Bool.not_eq_true', decide_eq_true_eq, not_or, Bool.not_eq_false] at hready
      subst hvm
      have hempty := mt Int64.lt_iff_toInt_lt.2 hready.2
      rw [Int64.toInt_zero] at hempty
      cases hw
      exact ⟨hready.1, Int.not_lt.1 hempty, VmState.le_refill_lastRefillUs t, rfl⟩

private theorem begin_ready_iff (hthrottle : cfg.throttleEnabled = true) (hvm : st.vms.lookup v = some vm)
    (now : UInt64) :
    (st.begin cfg v now).1 = .ok .ready ↔ 0 < (vm.refill now cfg).tokensUs.toInt := by
  have hpos : (vm.refill now cfg).tokensUs > 0 ↔ 0 < (vm.refill now cfg).tokensUs.toInt := Int64.lt_iff_toInt_lt
  unfold begin
  simp only [hvm, hthrottle, Bool.not_true, Bool.false_or, decide_eq_true_eq]
  rw [← hpos]
  split
  · next h => exact iff_of_true rfl h
  · next h =>
    refine iff_of_false (fun heq => ?_) h
    cases heq

private theorem toInt_max (a b : Int64) : (max a b).toInt = max a.toInt b.toInt := by
  have hmax : max a b = if a ≤ b then b else a := rfl
  rw [hmax]
  split
  · rename_i hle
    rw [Int64.le_iff_toInt_le] at hle
    omega
  · rename_i hlt
    rw [Int64.le_iff_toInt_le] at hlt
    omega

private theorem toNat_max (a b : UInt64) : (max a b).toNat = max a.toNat b.toNat := by
  have hmax : max a b = if a ≤ b then b else a := rfl
  rw [hmax]
  split
  · rename_i hle
    rw [UInt64.le_iff_toNat_le] at hle
    omega
  · rename_i hlt
    rw [UInt64.le_iff_toNat_le] at hlt
    omega

/-- The deficit as `begin` computes it: one, when it does not fit. -/
private theorem deficit_toInt (hempty : vm.tokensUs.toInt ≤ 0) :
    (max (1000 - vm.tokensUs) 1).toInt.toNat = if vm.deficit < 2 ^ 63 then vm.deficit else 1 := by
  have hlow := vm.tokensUs.le_toInt
  have hsub : (1000 - vm.tokensUs).toInt = (1000 - vm.tokensUs.toInt).bmod (2 ^ 64) := Int64.toInt_sub _ _
  have hone : (1 : Int64).toInt = 1 := rfl
  rw [toInt_max, hsub, hone, VmState.deficit]
  unfold Int.bmod
  simp only
  split <;> split <;> omega

private theorem waitUs_toNat (hempty : vm.tokensUs.toInt ≤ 0) (hrate : 1 ≤ (cfg.refillRate vm.cfg).toNat) :
    (waitUs cfg vm).toNat =
      max ((if vm.deficit < 2 ^ 63 then vm.deficit else 1) * 1000000 / (cfg.refillRate vm.cfg).toNat % 2 ^ 64) 1 := by
  have hone : (1 : UInt64).toNat = 1 := rfl
  have hmax : (max (cfg.refillRate vm.cfg) 1).toNat = (cfg.refillRate vm.cfg).toNat := by
    rw [toNat_max, hone]
    omega
  unfold waitUs
  simp only
  rw [toNat_max, UInt64.toNat_ofNat', deficit_toInt hempty, hmax, hone]

/-- A wait of `w` in which no more than `n` comes in. -/
private theorem income_le {r w n : Nat} (h : r * w ≤ n * 1000000) : r * w / 1000000 ≤ n :=
  (Nat.div_le_div_right h).trans_eq (Nat.mul_div_cancel _ (by omega))

private theorem waitUs_eq (hempty : vm.tokensUs.toInt ≤ 0) (hrate : 1 ≤ (cfg.refillRate vm.cfg).toNat)
    (hfast : (cfg.refillRate vm.cfg).toNat ≤ 10 ^ 9) (hfits : vm.deficit < 2 ^ 63)
    (hlong : vm.deficit * 1000000 / (cfg.refillRate vm.cfg).toNat < 2 ^ 64) :
    (waitUs cfg vm).toNat = vm.deficit * 1000000 / (cfg.refillRate vm.cfg).toNat := by
  have hquantum : 1000 ≤ vm.deficit := by
    unfold VmState.deficit
    omega
  have hpos : 1 ≤ vm.deficit * 1000000 / (cfg.refillRate vm.cfg).toNat :=
    (Nat.le_div_iff_mul_le hrate).2 (by omega)
  rw [waitUs_toNat hempty hrate, if_pos hfits, Nat.mod_eq_of_lt hlong, Nat.max_eq_left hpos]

/-- A wait that does not fit is cut to one over which too little comes in. -/
private theorem waitUs_short (hempty : vm.tokensUs.toInt ≤ 0) (hrate : 1 ≤ (cfg.refillRate vm.cfg).toNat)
    (hfast : (cfg.refillRate vm.cfg).toNat ≤ 10 ^ 9)
    (h : vm.deficit < 2 ^ 63 → 2 ^ 64 ≤ vm.deficit * 1000000 / (cfg.refillRate vm.cfg).toNat) :
    vm.tokensUs.toInt + ((cfg.refillRate vm.cfg).toNat * (waitUs cfg vm).toNat / 1000000 : Nat) ≤ 0 := by
  have hwait := waitUs_toNat hempty hrate
  have hdeficit : vm.tokensUs.toInt = 1000 - vm.deficit := by
    unfold VmState.deficit
    omega
  generalize (cfg.refillRate vm.cfg).toNat = r at *
  generalize vm.deficit = D at *
  by_cases hfits : D < 2 ^ 63
  · have hlong := h hfits
    rw [if_pos hfits] at hwait
    have hdiv := Nat.mul_div_le (D * 1000000) r
    generalize D * 1000000 / r = q at *
    have hcut : r * (q % 2 ^ 64) + r * 2 ^ 64 ≤ r * q := by
      rw [← Nat.mul_add]
      exact Nat.mul_le_mul_left r (by omega)
    have hone : r * max (q % 2 ^ 64) 1 ≤ max (r * (q % 2 ^ 64)) r := by
      rcases Nat.le_total (q % 2 ^ 64) 1 with hle | hle
      · rw [Nat.max_eq_right hle]
        omega
      · rw [Nat.max_eq_left hle]
        omega
    have hincome : r * (waitUs cfg vm).toNat / 1000000 ≤ D - 1000 := income_le (by rw [hwait]; omega)
    omega
  · rw [if_neg hfits, Nat.one_mul] at hwait
    have hdiv := Nat.mul_div_le 1000000 r
    have hlt : 1000000 / r ≤ 1000000 := Nat.div_le_self _ _
    have hsmall : r * max (1000000 / r % 2 ^ 64) 1 ≤ 10 ^ 9 := by
      rw [Nat.mod_eq_of_lt (by omega)]
      rcases Nat.le_total (1000000 / r) 1 with hle | hle
      · rw [Nat.max_eq_right hle]
        omega
      · rw [Nat.max_eq_left hle]
        omega
    have hincome : r * (waitUs cfg vm).toNat / 1000000 ≤ 1000 := income_le (by rw [hwait]; omega)
    omega

end Ledger

namespace VmState

variable {cfg : BrokerConfig} {vm : VmState} {t w : UInt64}

/-! ### The next call -/

private theorem tokensUs_eq (hempty : vm.tokensUs.toInt ≤ 0) : vm.tokensUs.toInt = 1000 - vm.deficit := by
  unfold deficit
  omega

private theorem income_mono {now now' : UInt64} (h : now.toNat ≤ now'.toNat) :
    vm.income cfg now ≤ vm.income cfg now' :=
  Nat.div_le_div_right (Nat.mul_le_mul_left _ (by omega))

private theorem income_horizon (cfg : BrokerConfig) (now : UInt64) :
    vm.income cfg now ≤ (cfg.refillRate vm.cfg).toNat * (2 ^ 64 - 1 - vm.lastRefillUs.toNat) / 1000000 := by
  have hnow := now.toNat_lt
  exact Nat.div_le_div_right (Nat.mul_le_mul_left _ (by omega))

/-- What comes in up to the end of the wait. -/
private theorem income_wait (cfg : BrokerConfig) {t' : UInt64} (ht : t.toNat ≤ vm.lastRefillUs.toNat)
    (ht' : t'.toNat = t.toNat + w.toNat) :
    vm.income cfg t' = (cfg.refillRate vm.cfg).toNat * (w.toNat - vm.lag t) / 1000000 := by
  unfold income lag
  rw [ht']
  congr 2
  omega

/-- A rate of at most `10 ^ 9` steps over no stretch of `2 ^ 63` amounts that are negative in 64 bits. -/
private theorem exists_overflow (hfast : (cfg.refillRate vm.cfg).toNat ≤ 10 ^ 9) (hempty : vm.tokensUs.toInt ≤ 0)
    (h : 2 ^ 63 ≤ vm.tokensUs.toInt +
      ((cfg.refillRate vm.cfg).toNat * (2 ^ 64 - 1 - vm.lastRefillUs.toNat) / 1000000 : Nat)) :
    ∃ now : UInt64, 2 ^ 63 ≤ vm.tokensUs.toInt + vm.income cfg now ∧
      vm.tokensUs.toInt + vm.income cfg now < 2 ^ 64 := by
  have hlast := vm.lastRefillUs.toNat_lt
  let Over (d : Nat) : Prop := 2 ^ 63 ≤ vm.tokensUs.toInt + ((cfg.refillRate vm.cfg).toNat * d / 1000000 : Nat)
  have hex : ∃ d, Over d := ⟨_, h⟩
  have hfirst := Nat.find_spec hex
  have hbefore := fun d hd => Nat.find_min (m := d) hex hd
  have hle : Nat.find hex ≤ 2 ^ 64 - 1 - vm.lastRefillUs.toNat := Nat.find_min' hex h
  generalize Nat.find hex = d at *
  cases d with
  | zero =>
    simp only [Over, Nat.mul_zero, Nat.zero_div] at hfirst
    omega
  | succ d =>
    have hstep : (cfg.refillRate vm.cfg).toNat * (d + 1) / 1000000 ≤
      (cfg.refillRate vm.cfg).toNat * d / 1000000 + 1000 := by
      rw [Nat.mul_succ]
      omega
    have hlow := hbefore d (Nat.lt_succ_self d)
    have hincome : vm.income cfg (UInt64.ofNat (vm.lastRefillUs.toNat + (d + 1))) =
        (cfg.refillRate vm.cfg).toNat * (d + 1) / 1000000 := by
      rw [income, UInt64.toNat_ofNat_of_lt' (by show _ < 2 ^ 64; omega), Nat.add_sub_cancel_left]
    refine ⟨UInt64.ofNat (vm.lastRefillUs.toNat + (d + 1)), ?_, ?_⟩
    · rw [hincome]
      exact hfirst
    · rw [hincome]
      simp only [Over, not_le] at hlow
      omega

/-- The bucket is above zero from the end of the wait on exactly if everything stays in 64 bits and the two roundings,
with the time by which the last refill is ahead, take less than the quantum. -/
private theorem refills_iff (hempty : vm.tokensUs.toInt ≤ 0) (hburst : 1 ≤ cfg.bucketBurstUs.toNat)
    (hrate : 1 ≤ (cfg.refillRate vm.cfg).toNat) (hfast : (cfg.refillRate vm.cfg).toNat ≤ 10 ^ 9)
    (ht : t.toNat ≤ vm.lastRefillUs.toNat) (hw : w = Ledger.waitUs cfg vm) (hlater : t.toNat + w.toNat < 2 ^ 64) :
    (∀ t' : UInt64, t.toNat + w.toNat ≤ t'.toNat → 0 < (vm.refill t' cfg).tokensUs.toInt) ↔
      vm.InRange cfg ∧ vm.deficit * 1000000 % (cfg.refillRate vm.cfg).toNat +
        (cfg.refillRate vm.cfg).toNat * vm.lag t ≤ 999 * 1000000 := by
  have htokens := tokensUs_eq hempty
  have hlow := vm.tokensUs.le_toInt
  have hquantum : 1000 ≤ vm.deficit := by
    unfold deficit
    omega
  have hcovers := Bucket.wait_covers_iff (vm.lag t) hrate (show 0 < 1000000 by omega)
    (show 0 < 1000 by omega) hquantum
  have hend : (UInt64.ofNat (t.toNat + w.toNat)).toNat = t.toNat + w.toNat := UInt64.toNat_ofNat_of_lt' hlater
  have hincome := income_wait cfg ht hend
  constructor
  · intro h
    obtain ⟨hfits, hpos⟩ := (refill_pos_iff hempty hburst _).1 (h _ hend.ge)
    have hless : vm.income cfg (UInt64.ofNat (t.toNat + w.toNat)) ≤
      (cfg.refillRate vm.cfg).toNat * w.toNat / 1000000 := by
      rw [hincome]
      exact Nat.div_le_div_right (Nat.mul_le_mul_left _ (Nat.sub_le _ _))
    by_cases hfit : vm.deficit < 2 ^ 63 ∧ vm.deficit * 1000000 / (cfg.refillRate vm.cfg).toNat < 2 ^ 64
    · have heq := Ledger.waitUs_eq hempty hrate hfast hfit.1 hfit.2
      rw [← hw] at heq
      have hmost : (cfg.refillRate vm.cfg).toNat * w.toNat / 1000000 ≤ vm.deficit := by
        rw [heq]
        exact (Nat.div_le_div_right (Nat.mul_div_le _ _)).trans_eq (Nat.mul_div_cancel _ (by omega))
      have hsum := (bmod_pos_iff (by omega) (by omega)).1 hpos
      refine ⟨⟨hfits, hfit.1, hfit.2, ?_⟩, hcovers.1 (by rw [← heq, ← hincome]; omega)⟩
      by_contra hover
      obtain ⟨now, hbig, hsmall⟩ := exists_overflow hfast hempty (Int.not_lt.1 hover)
      have hbehind : t.toNat + w.toNat ≤ now.toNat := by
        by_contra hbefore
        have hmono : vm.income cfg now ≤ vm.income cfg (UInt64.ofNat (t.toNat + w.toNat)) :=
          income_mono (by rw [hend]; omega)
        omega
      have hready := (bmod_pos_iff (by omega) hsmall).1 ((refill_pos_iff hempty hburst now).1 (h now hbehind)).2
      omega
    · have hshort := Ledger.waitUs_short hempty hrate hfast fun hd => Nat.not_lt.1 fun hq => hfit ⟨hd, hq⟩
      rw [← hw] at hshort
      have hsum := (bmod_pos_iff (by omega) (by omega)).1 hpos
      omega
  · rintro ⟨hrange, hround⟩ t' ht'
    have heq := Ledger.waitUs_eq hempty hrate hfast hrange.deficit hrange.wait
    have hcover := hcovers.2 hround
    rw [← hw] at heq
    rw [← heq, ← hincome] at hcover
    have hmono : vm.income cfg (UInt64.ofNat (t.toNat + w.toNat)) ≤ vm.income cfg t' :=
      income_mono (by rw [hend]; exact ht')
    have hhorizon := hrange.horizon
    have hmost := vm.income_horizon cfg t'
    exact (refill_pos_iff hempty hburst t').2
      ⟨hrange.burst, (bmod_pos_iff (by omega) (by omega)).2 ⟨by omega, by omega⟩⟩

private theorem refill_income {now : UInt64} (hnow : vm.lastRefillUs < now)
    (hburst : cfg.bucketBurstUs.toNat < 2 ^ 63) (hadd : vm.tokensUs.toInt + vm.income cfg now < 2 ^ 63) :
    (vm.refill now cfg).lastRefillUs = now ∧
      (vm.refill now cfg).tokensUs.toInt = min (vm.tokensUs.toInt + vm.income cfg now) cfg.bucketBurstUs.toNat :=
  vm.refill_exact hnow hburst hadd

/-! ### The turns of the loop -/

/-- A refill of an empty bucket raises the balance when anything comes in. -/
private theorem refill_rises_iff (hempty : vm.tokensUs.toInt ≤ 0) (hburst : 1 ≤ cfg.bucketBurstUs.toNat)
    (hrange : vm.InRange cfg) (now : UInt64) :
    vm.tokensUs.toInt < (vm.refill now cfg).tokensUs.toInt ↔ 1 ≤ vm.income cfg now := by
  by_cases hnow : vm.lastRefillUs < now
  · have hhorizon := hrange.horizon
    have hmost := vm.income_horizon cfg now
    rw [(refill_income hnow hrange.burst (by omega)).2]
    omega
  · have hle := UInt64.not_lt.1 hnow
    have hnone : vm.income cfg now = 0 := by
      rw [UInt64.le_iff_toNat_le] at hle
      rw [income, Nat.sub_eq_zero_of_le hle, Nat.mul_zero, Nat.zero_div]
    rw [vm.refill_of_le cfg hle, hnone]
    omega

/-- Every sleep of the loop raises the balance exactly if the longest does. -/
private theorem rises_iff (hempty : vm.tokensUs.toInt ≤ 0) (hburst : 1 ≤ cfg.bucketBurstUs.toNat)
    (hrate : 1 ≤ (cfg.refillRate vm.cfg).toNat) (hfast : (cfg.refillRate vm.cfg).toNat ≤ 10 ^ 9)
    (ht : t.toNat ≤ vm.lastRefillUs.toNat) (hw : w = Ledger.waitUs cfg vm) (hlater : t.toNat + w.toNat < 2 ^ 64)
    (hrange : vm.InRange cfg) (hround : vm.deficit * 1000000 % (cfg.refillRate vm.cfg).toNat +
      (cfg.refillRate vm.cfg).toNat * vm.lag t ≤ 999 * 1000000) :
    (∀ t' : UInt64, t.toNat + min w.toNat maxSleepUs ≤ t'.toNat →
        vm.tokensUs.toInt < (vm.refill t' cfg).tokensUs.toInt) ↔
      1000000 ≤ (cfg.refillRate vm.cfg).toNat * (maxSleepUs - vm.lag t) := by
  have hend : (UInt64.ofNat (t.toNat + min w.toNat maxSleepUs)).toNat = t.toNat + min w.toNat maxSleepUs :=
    UInt64.toNat_ofNat_of_lt' (by show _ < 2 ^ 64; omega)
  have hslept : (UInt64.ofNat (min w.toNat maxSleepUs)).toNat = min w.toNat maxSleepUs :=
    UInt64.toNat_ofNat_of_lt' (by show _ < 2 ^ 64; omega)
  have hincome := income_wait cfg ht (hend.trans (by rw [hslept]))
  rw [hslept] at hincome
  have hunit : 0 < 1000000 := by omega
  constructor
  · intro h
    have hrise := (refill_rises_iff hempty hburst hrange _).1 (h _ hend.ge)
    rw [hincome, Nat.le_div_iff_mul_le hunit, Nat.one_mul] at hrise
    exact Nat.le_trans hrise (Nat.mul_le_mul_left _ (by omega))
  · intro h t' ht'
    have hmono : vm.income cfg (UInt64.ofNat (t.toNat + min w.toNat maxSleepUs)) ≤ vm.income cfg t' :=
      income_mono (by rw [hend]; exact ht')
    refine (refill_rises_iff hempty hburst hrange t').2 (Nat.le_trans ?_ hmono)
    rw [hincome, Nat.le_div_iff_mul_le hunit, Nat.one_mul]
    rcases Nat.le_total maxSleepUs w.toNat with hlong | hshort
    · rw [Nat.min_eq_right hlong]
      exact h
    · -- a short wait brings in what is missing to a quantum
      have hquantum : 1000 ≤ vm.deficit := by
        unfold deficit
        omega
      have hcover := (Bucket.wait_covers_iff (vm.lag t) hrate hunit (show 0 < 1000 by omega) hquantum).2 hround
      rw [← Ledger.waitUs_eq hempty hrate hfast hrange.deficit hrange.wait, ← hw] at hcover
      have hsome : 1 ≤ (cfg.refillRate vm.cfg).toNat * (w.toNat - vm.lag t) / 1000000 := by omega
      rw [Nat.min_eq_left hshort]
      exact (Nat.le_div_iff_mul_le hunit).1 hsome

/-! ### Polls in between -/

/-- What any refills up to the last one leave of an empty bucket. -/
structure Climbs (cfg : BrokerConfig) (vm₀ vm : VmState) : Prop where
  lease : vm.cfg = vm₀.cfg
  last : vm₀.lastRefillUs.toNat ≤ vm.lastRefillUs.toNat
  low : min (vm₀.tokensUs.toInt +
    ((cfg.refillRate vm₀.cfg).toNat / 1000000 * (vm.lastRefillUs.toNat - vm₀.lastRefillUs.toNat) : Nat))
    cfg.bucketBurstUs.toNat ≤ vm.tokensUs.toInt
  high : vm.tokensUs.toInt ≤ vm₀.tokensUs.toInt + vm₀.income cfg vm.lastRefillUs

variable {vm₀ : VmState}

private theorem climbs_self (cfg : BrokerConfig) (vm : VmState) : Climbs cfg vm vm where
  lease := rfl
  last := Nat.le_refl _
  low := by
    rw [Nat.sub_self, Nat.mul_zero]
    omega
  high := by omega

private theorem Climbs.refill (h : Climbs cfg vm₀ vm) (hrange : vm₀.InRange cfg) (now : UInt64) :
    Climbs cfg vm₀ (vm.refill now cfg) := by
  by_cases hnow : vm.lastRefillUs < now
  · have hlt := UInt64.lt_iff_toNat_lt.1 hnow
    have hlast := h.last
    have hhorizon := hrange.horizon
    have hmost := vm₀.income_horizon cfg now
    have hrate : cfg.refillRate vm.cfg = cfg.refillRate vm₀.cfg := by rw [h.lease]
    -- two refills bring in at most what one at the end does, and at least what their ticks do
    have hboth : vm₀.income cfg vm.lastRefillUs + vm.income cfg now ≤ vm₀.income cfg now := by
      unfold income
      rw [hrate]
      refine Nat.le_trans Nat.div_add_div_le_add_div (Nat.div_le_div_right ?_)
      rw [← Nat.mul_add]
      exact Nat.mul_le_mul_left _ (by omega)
    have hticks : (cfg.refillRate vm₀.cfg).toNat / 1000000 * (now.toNat - vm.lastRefillUs.toNat) ≤
      vm.income cfg now := by
      rw [income, hrate, Bucket.mul_div_eq_ticks_add _ (by omega)]
      exact Nat.le_add_right _ _
    have hsplit : (cfg.refillRate vm₀.cfg).toNat / 1000000 * (now.toNat - vm₀.lastRefillUs.toNat) =
        (cfg.refillRate vm₀.cfg).toNat / 1000000 * (vm.lastRefillUs.toNat - vm₀.lastRefillUs.toNat) +
          (cfg.refillRate vm₀.cfg).toNat / 1000000 * (now.toNat - vm.lastRefillUs.toNat) := by
      rw [← Nat.mul_add]
      congr 1
      omega
    have hlow := h.low
    have hhigh := h.high
    obtain ⟨hend, hexact⟩ := refill_income hnow hrange.burst (by omega)
    refine ⟨(vm.refill_sameLease now cfg).cfg.trans h.lease, ?_, ?_, ?_⟩
    · rw [hend]
      omega
    · rw [hend, hexact, hsplit]
      omega
    · rw [hend, hexact]
      omega
  · rw [vm.refill_of_le cfg (UInt64.not_lt.1 hnow)]
    exact h

private theorem Climbs.congr (h : Climbs cfg vm₀ vm) {vm' : VmState} (hcfg : vm'.cfg = vm.cfg)
    (htokens : vm'.tokensUs = vm.tokensUs) (hlast : vm'.lastRefillUs = vm.lastRefillUs) : Climbs cfg vm₀ vm' where
  lease := hcfg.trans h.lease
  last := by rw [hlast]; exact h.last
  low := by rw [hlast, htokens]; exact h.low
  high := by rw [hlast, htokens]; exact h.high

private theorem refill_lastRefillUs_le {now t' : UInt64} (hnow : now ≤ t') (hlast : vm.lastRefillUs ≤ t') :
    (vm.refill now cfg).lastRefillUs ≤ t' := by
  unfold refill
  simp only
  split
  · exact hlast
  · exact hnow

end VmState

namespace Ledger

variable {cfg : BrokerConfig} {v : String} {t w : UInt64} {vm vm₀ : VmState}

private theorem polled_climbs (hrange : vm₀.InRange cfg) {t' : UInt64} (readings : List UInt64)
    (hread : ∀ x ∈ readings, x ≤ t')
    {st : Ledger} (hvm : st.vms.lookup v = some vm) (hclimbs : VmState.Climbs cfg vm₀ vm)
    (hlast : vm.lastRefillUs ≤ t') :
    ∃ vm', (st.polled cfg v readings).vms.lookup v = some vm' ∧ VmState.Climbs cfg vm₀ vm' ∧
      vm'.lastRefillUs ≤ t' := by
  induction readings generalizing st vm with
  | nil => exact ⟨vm, hvm, hclimbs, hlast⟩
  | cons now readings ih =>
    obtain ⟨hnow, hrest⟩ := List.forall_mem_cons.1 hread
    obtain ⟨vm', hvm', hcfg, htokens, hend, -⟩ := begin_live cfg hvm now
    refine ih hrest hvm' ((hclimbs.refill hrange now).congr hcfg htokens hend) ?_
    rw [hend]
    exact VmState.refill_lastRefillUs_le hnow hlast

/-- A poll no later than a microsecond after the last refill. -/
private theorem begin_tick {a : UInt64} {st : Ledger} (hvm : st.vms.lookup v = some vm)
    (hburst : vm.tokensUs.toInt ≤ cfg.bucketBurstUs.toNat) (hlast : vm.lastRefillUs ≤ a)
    (ha : a.toNat ≤ vm.lastRefillUs.toNat + 1) :
    ∃ vm', (st.begin cfg v a).2.vms.lookup v = some vm' ∧ vm'.cfg = vm.cfg ∧ vm'.lastRefillUs = a ∧
      vm'.tokensUs.toInt ≤ cfg.bucketBurstUs.toNat ∧ vm'.tokensUs.toInt ≤ vm.tokensUs.toInt +
        ((cfg.refillRate vm.cfg).toNat / 1000000 * (a.toNat - vm.lastRefillUs.toNat) : Nat) := by
  obtain ⟨vm', hvm', hcfg, htokens, hend, -⟩ := begin_live cfg hvm a
  obtain ⟨hnow, hcap, hincome⟩ := vm.refill_spec cfg hlast hburst
  have hone : (cfg.refillRate vm.cfg).toNat * (a.toNat - vm.lastRefillUs.toNat) / 1000000 ≤
      (cfg.refillRate vm.cfg).toNat / 1000000 * (a.toNat - vm.lastRefillUs.toNat) := by
    rcases Nat.le_one_iff_eq_zero_or_eq_one.1 (show a.toNat - vm.lastRefillUs.toNat ≤ 1 by omega) with h | h
    · rw [h, Nat.mul_zero, Nat.zero_div]
      exact Nat.zero_le _
    · rw [h, Nat.mul_one, Nat.mul_one]
  rw [← htokens] at hcap hincome
  exact ⟨vm', hvm', hcfg.trans (vm.refill_sameLease a cfg).cfg, hend.trans hnow, hcap, by omega⟩

/-- Polls at every microsecond bring in no more than the whole microseconds of the rate. -/
private theorem polled_ticks (cfg : BrokerConfig) (n : Nat) {a : UInt64} {st : Ledger}
    (hvm : st.vms.lookup v = some vm) (hburst : vm.tokensUs.toInt ≤ cfg.bucketBurstUs.toNat)
    (hlast : vm.lastRefillUs ≤ a) (ha : a.toNat ≤ vm.lastRefillUs.toNat + 1) (hn : a.toNat + n < 2 ^ 64) :
    ∃ vm', (st.polled cfg v (ticks a n)).vms.lookup v = some vm' ∧ vm'.lastRefillUs.toNat = a.toNat + n ∧
      vm'.tokensUs.toInt ≤ vm.tokensUs.toInt +
        ((cfg.refillRate vm.cfg).toNat / 1000000 * (a.toNat + n - vm.lastRefillUs.toNat) : Nat) := by
  induction n generalizing a st vm with
  | zero =>
    obtain ⟨vm', hvm', -, hend, -, hincome⟩ := begin_tick hvm hburst hlast ha
    exact ⟨vm', hvm', by rw [hend, Nat.add_zero], hincome⟩
  | succ n ih =>
    obtain ⟨vm', hvm', hcfg, hend, hcap, hincome⟩ := begin_tick hvm hburst hlast ha
    have hsucc : (a + 1).toNat = a.toNat + 1 := by
      rw [UInt64.toNat_add, UInt64.toNat_one]
      omega
    obtain ⟨vm'', hvm'', hend'', hincome''⟩ := ih (a := a + 1) hvm' hcap
      (by rw [hend, UInt64.le_iff_toNat_le]; omega) (by rw [hend, hsucc]) (by omega)
    have hle := UInt64.le_iff_toNat_le.1 hlast
    have hsplit : (cfg.refillRate vm.cfg).toNat / 1000000 * (a.toNat + (n + 1) - vm.lastRefillUs.toNat) =
        (cfg.refillRate vm.cfg).toNat / 1000000 * (a.toNat - vm.lastRefillUs.toNat) +
          (cfg.refillRate vm.cfg).toNat / 1000000 * ((a + 1).toNat + n - a.toNat) := by
      rw [← Nat.mul_add]
      congr 1
      omega
    rw [hcfg, hend] at hincome''
    exact ⟨vm'', hvm'', by rw [hend'', hsucc]; omega, by rw [hsplit]; omega⟩

/-! ### When waits suffice -/

private theorem mem_ticks_le {n : Nat} {a x : UInt64} (hn : a.toNat + n < 2 ^ 64) (hx : x ∈ ticks a n) :
    x.toNat ≤ a.toNat + n := by
  induction n generalizing a with
  | zero =>
    rw [List.mem_singleton.1 hx]
    exact Nat.le_refl _
  | succ n ih =>
    have hsucc : (a + 1).toNat = a.toNat + 1 := by
      rw [UInt64.toNat_add, UInt64.toNat_one]
      omega
    rcases List.mem_cons.1 hx with rfl | hrest
    · exact Nat.le_add_right _ _
    · have hle := ih (a := a + 1) (by omega) hrest
      omega

/-- Whatever is polled meanwhile, the whole microseconds of the rate have come in. -/
private theorem polled_ready {st : Ledger} (hthrottle : cfg.throttleEnabled = true) (hvm : st.vms.lookup v = some vm)
    (hempty : vm.tokensUs.toInt ≤ 0) (hburst : 1 ≤ cfg.bucketBurstUs.toNat) (ht : t.toNat ≤ vm.lastRefillUs.toNat)
    (hrange : vm.InRange cfg)
    (hcover : vm.deficit < 1000 + (cfg.refillRate vm.cfg).toNat / 1000000 * (w.toNat - vm.lag t)) {t' : UInt64}
    (ht' : t.toNat + w.toNat ≤ t'.toNat) {readings : List UInt64} (hread : ∀ x ∈ readings, x ≤ t') :
    ((st.polled cfg v readings).begin cfg v t').1 = .ok .ready := by
  have htokens := VmState.tokensUs_eq hempty
  have hspan : w.toNat - vm.lag t ≠ 0 := by
    intro hzero
    rw [hzero, Nat.mul_zero] at hcover
    omega
  have hpast : w.toNat - vm.lag t ≤ t'.toNat - vm.lastRefillUs.toNat := by
    unfold VmState.lag
    omega
  obtain ⟨vm', hvm', hclimbs, hlast⟩ := polled_climbs hrange readings hread hvm (VmState.climbs_self cfg vm)
    (by rw [UInt64.le_iff_toNat_le]; omega)
  refine (begin_ready_iff hthrottle hvm' t').2 ?_
  have hlow := (hclimbs.refill hrange t').low
  have hend : (vm'.refill t' cfg).lastRefillUs = t' := UInt64.le_antisymm
    (VmState.refill_lastRefillUs_le (UInt64.le_refl t') hlast)
      (UInt64.le_iff_toNat_le.2 (VmState.le_refill_lastRefillUs t'))
  rw [hend] at hlow
  have hmono := Nat.mul_le_mul_left ((cfg.refillRate vm.cfg).toNat / 1000000) hpast
  omega

/-- A VM that is polled at every microsecond of its wait gets no more than the whole microseconds of the rate. -/
private theorem covers_of_polled {st : Ledger} (hthrottle : cfg.throttleEnabled = true)
    (hvm : st.vms.lookup v = some vm) (hempty : vm.tokensUs.toInt ≤ 0) (ht : t.toNat ≤ vm.lastRefillUs.toNat)
    (hlater : t.toNat + w.toNat < 2 ^ 64)
    (h : ∀ (t' : UInt64) (readings : List UInt64), t.toNat + w.toNat ≤ t'.toNat → (∀ x ∈ readings, x ≤ t') →
      ((st.polled cfg v readings).begin cfg v t').1 = .ok .ready) :
    vm.deficit < 1000 + (cfg.refillRate vm.cfg).toNat / 1000000 * (w.toNat - vm.lag t) := by
  have htokens := VmState.tokensUs_eq hempty
  have hend : (UInt64.ofNat (t.toNat + w.toNat)).toNat = t.toNat + w.toNat := UInt64.toNat_ofNat_of_lt' hlater
  by_cases hpast : vm.lastRefillUs.toNat ≤ t.toNat + w.toNat
  · obtain ⟨vm', hvm', hlast, hticks⟩ := polled_ticks cfg (t.toNat + w.toNat - vm.lastRefillUs.toNat) hvm
      (by omega) (UInt64.le_refl _) (Nat.le_succ _) (by omega)
    have hready := h (UInt64.ofNat (t.toNat + w.toNat))
      (ticks vm.lastRefillUs (t.toNat + w.toNat - vm.lastRefillUs.toNat)) hend.ge (by
        intro x hx
        have hle := mem_ticks_le (by omega) hx
        rw [UInt64.le_iff_toNat_le, hend]
        omega)
    have hpos := (begin_ready_iff hthrottle hvm' _).1 hready
    rw [vm'.refill_of_le cfg (by rw [UInt64.le_iff_toNat_le, hend, hlast]; omega)] at hpos
    have hspan : vm.lastRefillUs.toNat + (t.toNat + w.toNat - vm.lastRefillUs.toNat) - vm.lastRefillUs.toNat =
        w.toNat - vm.lag t := by
      unfold VmState.lag
      omega
    rw [hspan] at hticks
    omega
  · -- the last refill is later than the end of the wait
    have hready := (begin_ready_iff hthrottle hvm _).1
      (h (UInt64.ofNat (t.toNat + w.toNat)) [] hend.ge fun x hx => absurd hx List.not_mem_nil)
    rw [vm.refill_of_le cfg (by rw [UInt64.le_iff_toNat_le, hend]; omega)] at hready
    omega

/-- A throttled VM finds its budget after the wait it was told, and meanwhile gains with every turn of the loop,
exactly if all amounts stay in 64 bits, the roundings take no more than the quantum allows, and a sleep of 50 ms
brings in a microsecond; and it does so however often it is polled meanwhile exactly if the whole microseconds of the
rate suffice. -/
theorem waits_iff {st : Ledger} (hw : (st.begin cfg v t).1 = .ok (.throttled w))
    (hvm : (st.begin cfg v t).2.vms.lookup v = some vm) (hburst : 1 ≤ cfg.bucketBurstUs.toNat)
    (hrate : 1 ≤ (cfg.refillRate vm.cfg).toNat) (hfast : (cfg.refillRate vm.cfg).toNat ≤ 10 ^ 9)
    (hlater : t.toNat + w.toNat < 2 ^ 64) :
    (WaitSuffices cfg v st t w ∧ LoopProgresses cfg v st t w ↔
      vm.InRange cfg ∧
      vm.deficit * 1000000 % (cfg.refillRate vm.cfg).toNat + (cfg.refillRate vm.cfg).toNat * vm.lag t ≤
      999 * 1000000 ∧
      1000000 ≤ (cfg.refillRate vm.cfg).toNat * (maxSleepUs - vm.lag t)) ∧
    (PolledWaitSuffices cfg v st t w ↔
      vm.InRange cfg ∧ vm.deficit < 1000 + (cfg.refillRate vm.cfg).toNat / 1000000 *
        (vm.deficit * 1000000 / (cfg.refillRate vm.cfg).toNat - vm.lag t)) := by
  obtain ⟨hthrottle, hempty, ht, hwait⟩ := begin_throttled hw hvm
  have hready : ∀ t', ((st.begin cfg v t).2.begin cfg v t').1 = .ok .ready ↔ 0 < (vm.refill t' cfg).tokensUs.toInt :=
    begin_ready_iff hthrottle hvm
  have hrefills := VmState.refills_iff hempty hburst hrate hfast ht hwait hlater
  have hsuffices : WaitSuffices cfg v st t w ↔
      ∀ t' : UInt64, t.toNat + w.toNat ≤ t'.toNat → 0 < (vm.refill t' cfg).tokensUs.toInt :=
    forall_congr' fun t' => imp_congr_right fun _ => hready t'
  have hloop : LoopProgresses cfg v st t w ↔ ∀ t' : UInt64, t.toNat + min w.toNat maxSleepUs ≤ t'.toNat →
      vm.tokensUs.toInt < (vm.refill t' cfg).tokensUs.toInt := by
    refine forall_congr' fun t' => imp_congr_right fun _ => ?_
    obtain ⟨vm', hvm', -, htokens, -⟩ := begin_live cfg hvm t'
    simp only [balance, hvm, hvm', htokens, Option.map_some, Option.mem_def, Option.some.injEq, exists_eq_left']
  constructor
  · rw [hsuffices, hloop, hrefills]
    constructor
    · rintro ⟨⟨hrange, hround⟩, hrises⟩
      exact ⟨hrange, hround, (VmState.rises_iff hempty hburst hrate hfast ht hwait hlater hrange hround).1 hrises⟩
    · rintro ⟨hrange, hround, hsleep⟩
      exact ⟨⟨hrange, hround⟩, (VmState.rises_iff hempty hburst hrate hfast ht hwait hlater hrange hround).2 hsleep⟩
  · have htokens := VmState.tokensUs_eq hempty
    constructor
    · intro h
      have hnext : ∀ t' : UInt64, t.toNat + w.toNat ≤ t'.toNat → 0 < (vm.refill t' cfg).tokensUs.toInt :=
        fun t' ht' =>
        (hready t').1 (h t' [] ht' fun x hx => absurd hx List.not_mem_nil)
      obtain ⟨hrange, -⟩ := hrefills.1 hnext
      refine ⟨hrange, ?_⟩
      rw [← waitUs_eq hempty hrate hfast hrange.deficit hrange.wait, ← hwait]
      exact covers_of_polled hthrottle hvm hempty ht hlater h
    · rintro ⟨hrange, hcover⟩ t' readings ht' hread
      rw [← waitUs_eq hempty hrate hfast hrange.deficit hrange.wait, ← hwait] at hcover
      exact polled_ready hthrottle hvm hempty hburst ht hrange hcover ht' hread

/-- A VM of the default policy that is 10 ms overdrawn may run after the 55 ms it is told to wait. -/
theorem waits_overdrawn : WaitSuffices .default "a" (overdrawn 1) 0 55000 ∧
    LoopProgresses .default "a" (overdrawn 1) 0 55000 := by
  have hvm : ∃ vm, ((overdrawn 1).begin .default "a" 0).2.vms.lookup "a" = some vm ∧ vm.lastRefillUs = 0 ∧
      vm.tokensUs = -10000 ∧ BrokerConfig.default.refillRate vm.cfg = 200000 :=
        ⟨_, rfl, by decide, by decide, by decide⟩
  obtain ⟨vm, hvm, hlast, htokens, hrate⟩ := hvm
  have hdeficit : vm.deficit = 11000 := by
    rw [VmState.deficit, htokens]
    decide
  have hlag : vm.lag 0 = 0 := by
    rw [VmState.lag, hlast]
    decide
  have hiff := (waits_iff (w := 55000) (by decide) hvm (by decide) (by rw [hrate]; decide) (by rw [hrate]; decide)
    (by decide)).1
  rw [hdeficit, hlag, hrate] at hiff
  refine hiff.2 ⟨⟨by decide, by rw [hdeficit]; decide, by rw [hdeficit, hrate]; decide, ?_⟩, by decide, by decide⟩
  rw [htokens, hrate, hlast]
  decide

/-- A policy whose base rate is just below `10 ^ 9`. -/
def fastPolicy : BrokerConfig := { BrokerConfig.default with refillUsPerSPerWeight := 999999999 }

/-- A VM of that policy with a balance of -999 microseconds. -/
def fastVm : Ledger := ((new.admitVm fastPolicy (.new "a" 1 4096) (.vram 64) 0).2.record fastPolicy "a" 50999).2

/-- It is told to wait for one microsecond, after which its balance is zero. -/
theorem waits_not_always : ¬ ∀ (cfg : BrokerConfig) (v : String) (st : Ledger) (t w : UInt64) (vm : VmState),
    (st.begin cfg v t).1 = .ok (.throttled w) → (st.begin cfg v t).2.vms.lookup v = some vm →
      1 ≤ cfg.bucketBurstUs.toNat → 1 ≤ (cfg.refillRate vm.cfg).toNat → (cfg.refillRate vm.cfg).toNat ≤ 10 ^ 9 →
        WaitSuffices cfg v st t w ∧ LoopProgresses cfg v st t w := by
  intro h
  have hvm : ∃ vm, (fastVm.begin fastPolicy "a" 0).2.vms.lookup "a" = some vm ∧
      fastPolicy.refillRate vm.cfg = 999999999 := ⟨_, rfl, by decide⟩
  obtain ⟨vm, hvm, hrate⟩ := hvm
  have hsuffices := (h fastPolicy "a" fastVm 0 1 vm (by decide) hvm (by decide) (by rw [hrate]; decide)
    (by rw [hrate]; decide)).1
  exact absurd (hsuffices 1 (by decide)) (by decide)

end Ledger

end Infinigpu
