import Infinigpu.Sched.Throttle

/-!
# Polling loses credit (`infinigpu-sched`, `VmState::refill`)

Each `begin` brings the bucket of its VM up to date and drops the fraction of a microsecond that it rounds off, so
between two clock readings the balance depends on the polls in between.  It is the same for all of them, up to one
microsecond, exactly if the fractions of all single microseconds add up to less than two or the bucket fills up anyway
(`pollsAgree_iff`); a VM whose rate is below one microsecond a microsecond can be polled forever and never be credited
(`starved`).
-/

namespace Infinigpu

/-! ### A refill in exact arithmetic -/

theorem toInt_add_ofNat_wrap (a : Int64) (n : Nat) : (a + Int64.ofNat n).toInt = (a.toInt + n).bmod (2 ^ 64) := by
  have hsize : Int64.size = 2 ^ 64 := rfl
  rw [Int64.toInt_add, Int64.toInt_ofNat', hsize, Int.add_bmod_bmod]

private theorem toInt_add_ofNat {a : Int64} {n : Nat} (h : a.toInt + n < 2 ^ 63) :
    (a + Int64.ofNat n).toInt = a.toInt + n := by
  have ha := a.le_toInt
  rw [toInt_add_ofNat_wrap]
  exact Int.bmod_eq_of_le (by omega) (by omega)

theorem toInt_min (a b : Int64) : (min a b).toInt = min a.toInt b.toInt := by
  have hmin : min a b = if a ≤ b then a else b := rfl
  rw [hmin]
  split
  · rename_i hle
    rw [Int64.le_iff_toInt_le] at hle
    omega
  · rename_i hlt
    rw [Int64.le_iff_toInt_le] at hlt
    omega

/-- A refill adds what the rate brings in and cuts the balance off at the burst, as long as nothing leaves 64 bits. -/
theorem VmState.refill_exact (vm : VmState) {now : UInt64} {cfg : BrokerConfig} (hnow : vm.lastRefillUs < now)
    (hburst : cfg.bucketBurstUs.toNat < 2 ^ 63)
    (hadd : vm.tokensUs.toInt + ((cfg.refillRate vm.cfg).toNat * (now.toNat - vm.lastRefillUs.toNat) /
    1000000 : Nat) <
      2 ^ 63) :
    (vm.refill now cfg).lastRefillUs = now ∧
      (vm.refill now cfg).tokensUs.toInt = min (vm.tokensUs.toInt +
        ((cfg.refillRate vm.cfg).toNat * (now.toNat - vm.lastRefillUs.toNat) / 1000000 : Nat))
        cfg.bucketBurstUs.toNat := by
  have hdt : (saturatingSub now vm.lastRefillUs).toNat = now.toNat - vm.lastRefillUs.toNat := saturatingSub_toNat _ _
  have hlt := UInt64.lt_iff_toNat_lt.1 hnow
  have hne : saturatingSub now vm.lastRefillUs ≠ 0 := by
    intro hzero
    rw [hzero, UInt64.toNat_zero] at hdt
    omega
  unfold VmState.refill
  simp only [if_neg hne, hdt]
  exact ⟨trivial, by rw [toInt_min, toInt_add_ofNat hadd, toInt64_toInt hburst]⟩

theorem VmState.refill_of_le {vm : VmState} {now : UInt64} (cfg : BrokerConfig) (hnow : now ≤ vm.lastRefillUs) :
    vm.refill now cfg = vm := by
  have hle := UInt64.le_iff_toNat_le.1 hnow
  have hzero : saturatingSub now vm.lastRefillUs = 0 := by
    rw [← UInt64.toNat_inj, saturatingSub_toNat, UInt64.toNat_zero]
    omega
  unfold VmState.refill
  simp only [if_pos hzero]

/-! ### Polls -/

/-- The intervals between clock readings. -/
def intervals : List UInt64 → List Nat
  | a :: b :: readings => (b.toNat - a.toNat) :: intervals (b :: readings)
  | _ => []

/-- The clock readings of the `begin` calls from one reading to another; the clock is monotonic. -/
structure Polls (first last : UInt64) (readings : List UInt64) : Prop where
  head : readings.head? = some first
  final : readings.getLast? = some last
  monotonic : readings.Pairwise (· ≤ ·)

private theorem Polls.cons {a b c : UInt64} {readings : List UInt64} (h : Polls a c (a :: b :: readings)) :
    Polls b c (b :: readings) ∧ a ≤ b :=
  ⟨⟨rfl, by rw [← h.final, List.getLast?_cons_cons], (List.pairwise_cons.1 h.monotonic).2⟩,
    (List.pairwise_cons.1 h.monotonic).1 b List.mem_cons_self⟩

private theorem Polls.eq_cons {a b : UInt64} {readings : List UInt64} (h : Polls a b readings) :
    ∃ rest, readings = a :: rest := by
  cases readings with
  | nil => cases h.head
  | cons x rest => exact ⟨rest, by rw [Option.some_inj.1 h.head]⟩

private theorem Polls.first_le {a b : UInt64} {readings : List UInt64} (h : Polls a b readings) : a ≤ b := by
  have hmem := List.mem_of_getLast? h.final
  obtain ⟨rest, rfl⟩ := h.eq_cons
  rcases List.mem_cons.1 hmem with rfl | hmem
  · exact UInt64.le_refl _
  · exact (List.pairwise_cons.1 h.monotonic).1 b hmem

private theorem Polls.twice {a b : UInt64} {readings : List UInt64} (h : Polls a b readings) :
    Polls a b (a :: readings) := by
  obtain ⟨rest, rfl⟩ := h.eq_cons
  refine ⟨rfl, ?_, List.pairwise_cons.2 ⟨fun x hx => ?_, h.monotonic⟩⟩
  · rw [List.getLast?_cons_cons]
    exact h.final
  · rcases List.mem_cons.1 hx with rfl | hx
    · exact UInt64.le_refl _
    · exact (List.pairwise_cons.1 h.monotonic).1 x hx

private theorem Polls.sum_intervals {a b : UInt64} {readings : List UInt64} (h : Polls a b readings) :
    (intervals readings).sum = b.toNat - a.toNat := by
  induction readings generalizing a with
  | nil => cases h.head
  | cons x readings ih =>
    have hx : x = a := Option.some_inj.1 h.head
    subst hx
    cases readings with
    | nil =>
      have hb : x = b := Option.some_inj.1 h.final
      rw [hb, intervals, List.sum_nil, Nat.sub_self]
      nofun
    | cons y readings =>
      obtain ⟨hrest, hle⟩ := h.cons
      have hyb := UInt64.le_iff_toNat_le.1 hrest.first_le
      rw [UInt64.le_iff_toNat_le] at hle
      rw [intervals, List.sum_cons, ih hrest]
      omega

/-- Two polls, one at each end. -/
private theorem polls_ends {a b : UInt64} (h : a ≤ b) : Polls a b [a, b] where
  head := rfl
  final := rfl
  monotonic := List.pairwise_pair.2 h

private theorem intervals_ends (a b : UInt64) : intervals [a, b] = [b.toNat - a.toNat] := rfl

/-- A poll at every microsecond. -/
def ticks (a : UInt64) : Nat → List UInt64
  | 0 => [a]
  | n + 1 => a :: ticks (a + 1) n

private theorem polls_ticks {a b : UInt64} {n : Nat} (h : a.toNat + n = b.toNat) : Polls a b (ticks a n) := by
  induction n generalizing a with
  | zero =>
    have hab : a = b := UInt64.toNat_inj.1 h
    rw [hab]
    exact ⟨rfl, rfl, List.pairwise_singleton _ _⟩
  | succ n ih =>
    have hb := b.toNat_lt
    have hsucc : (a + 1).toNat = a.toNat + 1 := by
      rw [UInt64.toNat_add, UInt64.toNat_one]
      omega
    have hrest : Polls (a + 1) b (ticks (a + 1) n) := ih (by omega)
    obtain ⟨rest, hcons⟩ := hrest.eq_cons
    rw [ticks, hcons]
    rw [hcons] at hrest
    have hle : a ≤ a + 1 := UInt64.le_iff_toNat_le.2 (by omega)
    refine ⟨rfl, ?_, List.pairwise_cons.2 ⟨fun x hx => ?_, hrest.monotonic⟩⟩
    · rw [List.getLast?_cons_cons]
      exact hrest.final
    · rcases List.mem_cons.1 hx with rfl | hx
      · exact hle
      · exact UInt64.le_trans hle ((List.pairwise_cons.1 hrest.monotonic).1 x hx)

private theorem intervals_ticks {a b : UInt64} {n : Nat} (h : a.toNat + n = b.toNat) :
    intervals (ticks a n) = List.replicate n 1 := by
  induction n generalizing a with
  | zero => rfl
  | succ n ih =>
    have hb := b.toNat_lt
    have hsucc : (a + 1).toNat = a.toNat + 1 := by
      rw [UInt64.toNat_add, UInt64.toNat_one]
      omega
    have hrest := ih (a := a + 1) (by omega)
    obtain ⟨rest, hcons⟩ := (polls_ticks (a := a + 1) (b := b) (n := n) (by omega)).eq_cons
    rw [ticks, hcons, intervals, ← hcons, hrest, hsucc, List.replicate_succ]
    congr 1
    omega

namespace Ledger

variable (cfg : BrokerConfig) (v : String)

/-- A VM is polled at some clock readings, with nothing in between. -/
def polled (readings : List UInt64) (st : Ledger) : Ledger :=
  readings.foldl (fun st now => (st.begin cfg v now).2) st

/-- The balance of a VM. -/
def balance (st : Ledger) : Option Int := (st.vms.lookup v).map fun vm => vm.tokensUs.toInt

variable {cfg v}

/-- What one poll leaves of the balance. -/
private theorem begin_settles {st : Ledger} {vm : VmState} (hvm : st.vms.lookup v = some vm) {now : UInt64}
    (hnow : vm.lastRefillUs ≤ now) (hburst : cfg.bucketBurstUs.toNat < 2 ^ 63)
    (hadd : vm.tokensUs.toInt + ((cfg.refillRate vm.cfg).toNat * (now.toNat - vm.lastRefillUs.toNat) /
    1000000 : Nat) <
      2 ^ 63) :
    ∃ vm', (st.begin cfg v now).2.vms.lookup v = some vm' ∧ vm'.cfg = vm.cfg ∧ vm'.lastRefillUs = now ∧
      vm'.tokensUs.toInt = if now.toNat - vm.lastRefillUs.toNat = 0 then vm.tokensUs.toInt else
        min (vm.tokensUs.toInt +
          ((cfg.refillRate vm.cfg).toNat * (now.toNat - vm.lastRefillUs.toNat) / 1000000 : Nat))
          cfg.bucketBurstUs.toNat := by
  obtain ⟨vm', hvm', hcfg, htokens, hlast, -⟩ := begin_live cfg hvm now
  have hsame := (vm.refill_sameLease now cfg).cfg
  have hle := UInt64.le_iff_toNat_le.1 hnow
  refine ⟨vm', hvm', hcfg.trans hsame, ?_⟩
  rw [hlast, htokens]
  by_cases heq : now = vm.lastRefillUs
  · rw [vm.refill_of_le cfg (UInt64.le_of_eq heq), if_pos (by rw [heq, Nat.sub_self])]
    exact ⟨heq.symm, rfl⟩
  · have hne := mt UInt64.toNat_inj.1 heq
    rw [if_neg (by omega)]
    exact vm.refill_exact (UInt64.lt_iff_toNat_lt.2 (by omega)) hburst hadd

/-- The balance after any row of polls, as long as a full bucket and what the whole time brings in stay in 64 bits. -/
private theorem polled_settles (hburst : cfg.bucketBurstUs.toNat < 2 ^ 63) (readings : List UInt64) {last : UInt64}
    {st : Ledger} {vm : VmState} (hvm : st.vms.lookup v = some vm)
    (hpolls : Polls vm.lastRefillUs last (vm.lastRefillUs :: readings))
    (hrange : max vm.tokensUs.toInt cfg.bucketBurstUs.toNat +
      ((cfg.refillRate vm.cfg).toNat * (last.toNat - vm.lastRefillUs.toNat) / 1000000 : Nat) < 2 ^ 63) :
    (st.polled cfg v readings).balance v = some (Bucket.settled (cfg.refillRate vm.cfg).toNat 1000000
      cfg.bucketBurstUs.toNat vm.tokensUs.toInt (intervals (vm.lastRefillUs :: readings))) := by
  induction readings generalizing st vm with
  | nil =>
    rw [polled, List.foldl_nil, balance, hvm]
    rfl
  | cons now readings ih =>
    obtain ⟨hrest, hnow⟩ := hpolls.cons
    have hle := UInt64.le_iff_toNat_le.1 hnow
    have hlast := UInt64.le_iff_toNat_le.1 hrest.first_le
    have hsplit : ∀ t : Nat, t ≤ last.toNat - vm.lastRefillUs.toNat →
        (cfg.refillRate vm.cfg).toNat * t / 1000000 ≤
          (cfg.refillRate vm.cfg).toNat * (last.toNat - vm.lastRefillUs.toNat) / 1000000 := fun t ht =>
      Nat.div_le_div_right (Nat.mul_le_mul_left _ ht)
    have hfirst := hsplit (now.toNat - vm.lastRefillUs.toNat) (by omega)
    have hthen := hsplit (last.toNat - now.toNat) (by omega)
    obtain ⟨vm', hvm', hcfg, hnow', htokens⟩ := begin_settles hvm hnow hburst (by omega)
    rw [polled, List.foldl_cons]
    have hcapped : vm'.tokensUs.toInt ≤ max vm.tokensUs.toInt cfg.bucketBurstUs.toNat := by
      rw [htokens]
      split
      · omega
      · omega
    have hsettled := ih hvm' (by rw [hnow']; exact hrest) (by rw [hcfg, hnow']; omega)
    rw [hcfg, hnow', htokens, Bucket.settled_cons] at hsettled
    exact hsettled

/-! ### Any two rows of polls -/

/-- Whatever the polls from the last refill to a later clock reading, the balances differ by at most one
microsecond. -/
def PollsAgree (cfg : BrokerConfig) (v : String) (st : Ledger) (first last : UInt64) : Prop :=
  ∀ readings readings', Polls first last readings → Polls first last readings' →
    ∀ x ∈ (st.polled cfg v readings).balance v, ∀ y ∈ (st.polled cfg v readings').balance v, x - y ≤ 1 ∧ y - x ≤ 1

/-- A poll at the last refill changes nothing that the balance depends on. -/
private theorem polled_settles_polls (hburst : cfg.bucketBurstUs.toNat < 2 ^ 63) {readings : List UInt64}
    {last : UInt64} {st : Ledger} {vm : VmState} (hvm : st.vms.lookup v = some vm)
    (hpolls : Polls vm.lastRefillUs last readings) (hrange : max vm.tokensUs.toInt cfg.bucketBurstUs.toNat +
      ((cfg.refillRate vm.cfg).toNat * (last.toNat - vm.lastRefillUs.toNat) / 1000000 : Nat) < 2 ^ 63) :
    (st.polled cfg v readings).balance v = some (Bucket.settled (cfg.refillRate vm.cfg).toNat 1000000
      cfg.bucketBurstUs.toNat vm.tokensUs.toInt (intervals readings)) := by
  rw [polled_settles hburst readings hvm hpolls.twice hrange]
  obtain ⟨rest, rfl⟩ := hpolls.eq_cons
  rw [intervals, Nat.sub_self, ← Bucket.settled_cons, if_pos rfl]

/-- Between the last refill and a later clock reading all rows of polls agree exactly if the fractions of single
microseconds add up to less than two, or the bucket gets full up to one microsecond even when they are all lost. -/
theorem pollsAgree_iff (hburst : cfg.bucketBurstUs.toNat < 2 ^ 63) {last : UInt64} {st : Ledger} {vm : VmState}
    (hvm : st.vms.lookup v = some vm)
    (hrange : max vm.tokensUs.toInt cfg.bucketBurstUs.toNat +
      ((cfg.refillRate vm.cfg).toNat * (last.toNat - vm.lastRefillUs.toNat) / 1000000 : Nat) < 2 ^ 63) :
    PollsAgree cfg v st vm.lastRefillUs last ↔
      (cfg.refillRate vm.cfg).toNat % 1000000 * (last.toNat - vm.lastRefillUs.toNat) < 2 * 1000000 ∨
        cfg.bucketBurstUs.toNat ≤
          vm.tokensUs.toInt + ((cfg.refillRate vm.cfg).toNat / 1000000 * (last.toNat - vm.lastRefillUs.toNat) : Nat) +
          1 := by
  have hunit : 0 < 1000000 := by omega
  have hticks := Bucket.mul_div_eq_ticks_add (cfg.refillRate vm.cfg).toNat hunit
    (last.toNat - vm.lastRefillUs.toNat)
  constructor
  · intro hagree
    by_cases hpast : last.toNat - vm.lastRefillUs.toNat = 0
    · rw [hpast]
      omega
    · -- one poll at the end against a poll at every microsecond
      have hlast : vm.lastRefillUs.toNat + (last.toNat - vm.lastRefillUs.toNat) = last.toNat := by omega
      have hends : Polls vm.lastRefillUs last [vm.lastRefillUs, last] :=
        polls_ends (UInt64.le_iff_toNat_le.2 (by omega))
      have hcoarse := polled_settles_polls hburst hvm hends hrange
      have hfine := polled_settles_polls hburst hvm (polls_ticks hlast) hrange
      have hdiff := (hagree _ _ hends (polls_ticks hlast) _ hcoarse _ hfine).1
      rw [intervals_ends, intervals_ticks hlast, Bucket.settled_once _ _ _ _ hpast,
        Bucket.settled_ticks _ _ _ _ hpast] at hdiff
      omega
  · intro hsmall readings readings' hpolls hpolls' x hx y hy
    rw [polled_settles_polls hburst hvm hpolls hrange, Option.mem_some] at hx
    rw [polled_settles_polls hburst hvm hpolls' hrange, Option.mem_some] at hy
    subst hx hy
    have hsum := hpolls.sum_intervals
    have hsum' := hpolls'.sum_intervals
    by_cases hpast : last.toNat - vm.lastRefillUs.toNat = 0
    · rw [Bucket.settled, if_pos (hsum.trans hpast), Bucket.settled, if_pos (hsum'.trans hpast)]
      omega
    · have hbetween := Bucket.settled_between (cfg.refillRate vm.cfg).toNat hunit cfg.bucketBurstUs.toNat
        vm.tokensUs.toInt (hsum.trans_ne hpast)
      have hbetween' := Bucket.settled_between (cfg.refillRate vm.cfg).toNat hunit cfg.bucketBurstUs.toNat
        vm.tokensUs.toInt (hsum'.trans_ne hpast)
      rw [hsum] at hbetween
      rw [hsum'] at hbetween'
      omega

/-- The VM `a` of some weight on the default policy, after a job of 60 ms that overdraws its bucket. -/
def overdrawn (weight : UInt32) : Ledger :=
  ((new.admitVm .default (.new "a" weight 4096) (.vram 64) 0).2.record .default "a" 60000).2

/-- At five times the base rate, one microsecond a microsecond, nothing is rounded off. -/
theorem pollsAgree_at_full_rate : PollsAgree .default "a" (overdrawn 5) 0 10000000 := by
  have hvm : ∃ vm, (overdrawn 5).vms.lookup "a" = some vm ∧ vm.lastRefillUs = 0 ∧ vm.tokensUs = -10000 ∧
      BrokerConfig.default.refillRate vm.cfg = 1000000 := ⟨_, rfl, by decide, by decide, by decide⟩
  obtain ⟨vm, hvm, hlast, htokens, hrate⟩ := hvm
  have hiff : PollsAgree .default "a" (overdrawn 5) vm.lastRefillUs 10000000 ↔ _ :=
    pollsAgree_iff (by decide) hvm (by rw [hlast, htokens, hrate]; decide)
  rw [hlast, htokens, hrate] at hiff
  exact hiff.2 (.inl (by decide))

/-- A VM whose rate is below one microsecond a microsecond is never credited when it is polled at every one. -/
theorem starved (hburst : cfg.bucketBurstUs.toNat < 2 ^ 63) {st : Ledger} {vm : VmState}
    (hvm : st.vms.lookup v = some vm) (hslow : (cfg.refillRate vm.cfg).toNat < 1000000)
    (hfull : vm.tokensUs.toInt ≤ cfg.bucketBurstUs.toNat) {n : Nat} (hn : vm.lastRefillUs.toNat + n < 2 ^ 64)
    (hrange : cfg.bucketBurstUs.toNat + (cfg.refillRate vm.cfg).toNat * n / 1000000 < 2 ^ 63) :
    (st.polled cfg v (ticks vm.lastRefillUs n)).balance v = some vm.tokensUs.toInt := by
  have hlast : vm.lastRefillUs.toNat + n = (UInt64.ofNat (vm.lastRefillUs.toNat + n)).toNat := by
    rw [UInt64.toNat_ofNat_of_lt' hn]
  rw [polled_settles_polls hburst hvm (polls_ticks hlast) (by rw [← hlast, Nat.add_sub_cancel_left]; omega),
    intervals_ticks hlast, Option.some_inj]
  by_cases hpast : n = 0
  · rw [hpast]
    rfl
  · rw [Bucket.settled_ticks _ _ _ _ hpast, Nat.div_eq_of_lt hslow, Nat.zero_mul]
    omega

/-- At the base rate, twenty polls in twenty microseconds lose the four microseconds that one poll brings in, and a
poll at every microsecond leaves the VM overdrawn for as long as the clock runs. -/
theorem polls_disagree : ¬ PollsAgree .default "a" (overdrawn 1) 0 20 ∧
    ∀ n < 2 ^ 64, ((overdrawn 1).polled .default "a" (ticks 0 n)).balance "a" = some (-10000) := by
  have hvm : ∃ vm, (overdrawn 1).vms.lookup "a" = some vm ∧ vm.lastRefillUs = 0 ∧ vm.tokensUs = -10000 ∧
      BrokerConfig.default.refillRate vm.cfg = 200000 := ⟨_, rfl, by decide, by decide, by decide⟩
  obtain ⟨vm, hvm, hlast, htokens, hrate⟩ := hvm
  have hburst : BrokerConfig.default.bucketBurstUs.toNat = 50000 := by decide
  constructor
  · intro hagree
    have hends : ((overdrawn 1).polled .default "a" [0, 20]).balance "a" = some (-9996) := by decide
    have hevery : ((overdrawn 1).polled .default "a" (ticks 0 20)).balance "a" = some (-10000) := by decide
    have hdiff := (hagree _ _ (polls_ends (by decide)) (polls_ticks (by decide)) _ hends _ hevery).1
    exact absurd hdiff (by decide)
  · intro n hn
    have hrange : BrokerConfig.default.bucketBurstUs.toNat +
        (BrokerConfig.default.refillRate vm.cfg).toNat * n / 1000000 < 2 ^ 63 := by
      rw [hburst, hrate]
      show 50000 + 200000 * n / 1000000 < 2 ^ 63
      omega
    have hsame := starved (by decide) hvm (by rw [hrate]; decide) (by rw [htokens]; decide)
      (by rw [hlast, UInt64.toNat_zero]; omega) hrange
    rw [hlast, htokens] at hsame
    exact hsame

end Ledger

end Infinigpu
