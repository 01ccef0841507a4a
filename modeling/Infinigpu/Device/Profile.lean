import Mathlib.Algebra.Order.BigOperators.Group.List
import Mathlib.Algebra.Order.Ring.Nat
import Mathlib.Data.List.GetD
import Mathlib.Data.List.Induction

/-!
# The latencies of a VM's submits (`infinigpu-device`, `profile`)

The profiler sorts the durations of each hop of a submit into buckets, and after every `flushEvery` submits, and when
it is dropped, it writes a line for each hop.

* `Histogram.record` and `Histogram.pct`, and what they amount to for the samples recorded (`of_counted`, `pct_of`);
* `target`, the rank of a quantile as it is computed with an `f64`, which is none above the number of samples;
* `SubmitProfiler.record` and `flush`, and the reports of a run (`recordAll_reports`, `SubmitProfiler.reports_due`).

The counters and the sum are numbers here, so a run is one of fewer than 2^64 submits.
-/

namespace Infinigpu.Profile

/-- The upper bounds of the buckets, in microseconds. -/
def BOUNDS_US : List UInt64 :=
  [25, 50, 100, 200, 350, 500, 750, 1000, 1500, 2000, 3000, 4000, 6000, 8000, 11000, 16667, 22000, 33333, 50000,
    75000, 100000, 200000, 350000, 500000, 1000000, 2000000]

private theorem bounds_sorted : BOUNDS_US.Pairwise (· < ·) := by decide

/-! ### Histograms -/

structure Histogram where
  /-- One counter for each bound, and one for what is above the last. -/
  buckets : List Nat
  count : Nat
  sumUs : Nat
  maxUs : UInt64

/-- The first bound that is not below the sample. -/
def bucketOf (us : UInt64) : Nat := BOUNDS_US.findIdx fun b => us ≤ b

namespace Histogram

def new : Histogram := ⟨List.replicate (BOUNDS_US.length + 1) 0, 0, 0, 0⟩

def record (h : Histogram) (us : UInt64) : Histogram where
  buckets := h.buckets.modify (bucketOf us) (· + 1)
  count := h.count + 1
  sumUs := h.sumUs + us.toNat
  maxUs := if us > h.maxUs then us else h.maxUs

/-- The loop of `pct` from the bucket `i` on. -/
def pctFrom (target : Nat) (maxUs : UInt64) : Nat → Nat → List Nat → UInt64
  | _, _, [] => maxUs
  | i, acc, b :: buckets =>
    if target ≤ acc + b then BOUNDS_US.getD i maxUs else pctFrom target maxUs (i + 1) (acc + b) buckets

/-- `rank n` is the rank of the quantile among `n` samples (`target`). -/
def pct (rank : Nat → Nat) (h : Histogram) : UInt64 :=
  if h.count = 0 then 0 else pctFrom (rank h.count) h.maxUs 0 0 h.buckets

def meanUs (h : Histogram) : UInt64 := if h.count = 0 then 0 else UInt64.ofNat (h.sumUs / h.count)

/-- The histogram of these samples. -/
def of (samples : List UInt64) : Histogram := samples.foldl record new

private theorem of_concat (samples : List UInt64) (us : UInt64) : of (samples ++ [us]) = (of samples).record us := by
  rw [of, of, List.foldl_append]
  rfl

end Histogram

/-- The samples in the bucket `i`. -/
def inBucket (samples : List UInt64) (i : Nat) : Nat := samples.countP fun us => bucketOf us = i

/-- The samples in the buckets before `i`. -/
def below (samples : List UInt64) (i : Nat) : Nat := samples.countP fun us => bucketOf us < i

/-- The samples up to `b`. -/
def upTo (samples : List UInt64) (b : UInt64) : Nat := samples.countP fun us => us ≤ b

private theorem bucketOf_lt {i : Nat} (hi : i < BOUNDS_US.length) (us : UInt64) :
    bucketOf us < i + 1 ↔ us ≤ BOUNDS_US[i] := by
  constructor
  · intro h
    have hlt : bucketOf us < BOUNDS_US.length := by omega
    have hle : us ≤ BOUNDS_US[bucketOf us] := of_decide_eq_true (List.findIdx_getElem (w := hlt))
    rcases Nat.lt_or_ge (bucketOf us) i with hbefore | hge
    · exact UInt64.le_trans hle (UInt64.le_of_lt (List.pairwise_iff_getElem.1 bounds_sorted _ _ hlt hi hbefore))
    · have heq : bucketOf us = i := by omega
      simpa only [heq] using hle
  · intro h
    by_contra hlate
    have hbefore : i < BOUNDS_US.findIdx fun b => us ≤ b := by
      change i < bucketOf us
      omega
    have hnot := List.not_of_lt_findIdx hbefore
    simp [h] at hnot

private theorem upTo_bound {i : Nat} (hi : i < BOUNDS_US.length) (samples : List UInt64) :
    upTo samples BOUNDS_US[i] = below samples (i + 1) := by
  unfold upTo below
  congr 1
  funext us
  exact decide_eq_decide.2 (bucketOf_lt hi us).symm

private theorem below_succ (samples : List UInt64) (i : Nat) :
    below samples (i + 1) = below samples i + inBucket samples i := by
  induction samples with
  | nil => rfl
  | cons us samples ih =>
    simp only [below, inBucket, List.countP_cons] at ih ⊢
    rw [ih]
    rcases Nat.lt_trichotomy (bucketOf us) i with hlt | heq | hgt
    · simp [hlt, Nat.ne_of_lt hlt, Nat.lt_succ_of_lt hlt]
      omega
    · simp [heq]
      omega
    · have h1 : ¬ bucketOf us < i + 1 := by omega
      have h2 : ¬ bucketOf us < i := by omega
      have h3 : ¬ bucketOf us = i := by omega
      simp [h1, h2, h3]

/-- What a histogram says of its samples. -/
structure Counted (h : Histogram) (samples : List UInt64) : Prop where
  buckets : h.buckets = (List.range (BOUNDS_US.length + 1)).map (inBucket samples)
  count : h.count = samples.length
  sumUs : h.sumUs = (samples.map UInt64.toNat).sum
  le_maxUs : ∀ us ∈ samples, us ≤ h.maxUs
  maxUs_mem : h.maxUs ∈ samples ∨ samples = [] ∧ h.maxUs = 0

private theorem counted_new : Counted .new [] where
  buckets := rfl
  count := rfl
  sumUs := rfl
  le_maxUs us hus := by cases hus
  maxUs_mem := .inr ⟨rfl, rfl⟩

theorem Counted.record {h : Histogram} {samples : List UInt64} (hc : Counted h samples) (us : UInt64) :
    Counted (h.record us) (samples ++ [us]) where
  buckets := by
    rw [Histogram.record, hc.buckets]
    refine List.ext_getElem (by simp) fun i hi hi' => ?_
    rw [List.getElem_modify]
    simp only [List.getElem_map, List.getElem_range, inBucket, List.countP_append, List.countP_singleton]
    by_cases hb : bucketOf us = i <;> simp [hb]
  count := by simp [Histogram.record, hc.count]
  sumUs := by simp [Histogram.record, hc.sumUs]
  le_maxUs us' hus' := by
    rw [List.mem_append, List.mem_singleton] at hus'
    show us' ≤ if us > h.maxUs then us else h.maxUs
    rcases hus' with hold | rfl
    · have hle := hc.le_maxUs us' hold
      split
      · rename_i hgt
        exact UInt64.le_trans hle (UInt64.le_of_lt hgt)
      · exact hle
    · split
      · exact UInt64.le_refl _
      · rename_i hle
        exact UInt64.not_lt.1 hle
  maxUs_mem := by
    show (if us > h.maxUs then us else h.maxUs) ∈ samples ++ [us] ∨ _
    left
    rw [List.mem_append, List.mem_singleton]
    split
    · exact .inr rfl
    · rename_i hle
      rcases hc.maxUs_mem with hmem | ⟨-, hzero⟩
      · exact .inl hmem
      · rw [hzero] at hle ⊢
        exact .inr (UInt64.le_antisymm UInt64.zero_le (UInt64.not_lt.1 hle))

theorem of_counted (samples : List UInt64) : Counted (.of samples) samples := by
  induction samples using List.reverseRecOn with
  | nil => exact counted_new
  | append_singleton samples us ih =>
    rw [Histogram.of_concat]
    exact ih.record us

/-! ### Quantiles -/

/-- The first bound that `target` samples do not exceed, and the largest sample where there is none. -/
def upperBound (samples : List UInt64) (target : Nat) (maxUs : UInt64) : UInt64 :=
  (BOUNDS_US.find? fun b => target ≤ upTo samples b).getD maxUs

private theorem pctFrom_eq (samples : List UInt64) (target : Nat) (maxUs : UInt64) {i k : Nat}
    (hi : i + k = BOUNDS_US.length) :
    Histogram.pctFrom target maxUs i (below samples i) ((List.range' i (k + 1)).map (inBucket samples)) =
      ((BOUNDS_US.drop i).find? fun b => target ≤ upTo samples b).getD maxUs := by
  induction k generalizing i with
  | zero =>
    have hdrop : BOUNDS_US.drop i = [] := List.drop_eq_nil_of_le (by omega)
    have hget : BOUNDS_US.getD i maxUs = maxUs := List.getD_eq_default _ _ (by omega)
    rw [List.range'_one, List.map_singleton, Histogram.pctFrom, Histogram.pctFrom, hget, hdrop, ite_self]
    rfl
  | succ k ih =>
    have hlt : i < BOUNDS_US.length := by omega
    rw [List.range'_succ, List.map_cons, Histogram.pctFrom, ← below_succ, List.drop_eq_getElem_cons hlt,
      List.find?_cons, upTo_bound hlt]
    by_cases hreached : target ≤ below samples (i + 1)
    · rw [if_pos hreached, List.getD_eq_getElem _ _ hlt]
      simp [hreached]
    · rw [if_neg hreached, ih (by omega)]
      simp [hreached]

/-- The quantile of a histogram is read off its samples. -/
theorem pct_of {samples : List UInt64} (hsamples : samples ≠ []) (rank : Nat → Nat) :
    (Histogram.of samples).pct rank = upperBound samples (rank samples.length) (Histogram.of samples).maxUs := by
  have hc := of_counted samples
  have hcount : (Histogram.of samples).count ≠ 0 := by
    rw [hc.count]
    exact fun h => hsamples (List.length_eq_zero_iff.1 h)
  have hbelow : below samples 0 = 0 := by simp [below]
  have hloop := pctFrom_eq samples (rank samples.length) (Histogram.of samples).maxUs (Nat.zero_add BOUNDS_US.length)
  rw [hbelow, ← List.range_eq_range', List.drop_zero] at hloop
  rw [Histogram.pct, if_neg hcount, hc.buckets, hc.count]
  exact hloop

/-- `us` is an upper bound of the sample of this rank, and the lowest one among the bounds of the buckets. -/
structure Estimates (us : UInt64) (samples : List UInt64) (rank : Nat) : Prop where
  enough : rank ≤ upTo samples us
  lowest : ∀ b ∈ BOUNDS_US, b < us → upTo samples b < rank
  known : us ∈ BOUNDS_US ∨ us ∈ samples

private theorem pct_estimates {samples : List UInt64} (hsamples : samples ≠ []) {rank : Nat → Nat}
    (hrank : rank samples.length ≤ samples.length) :
    Estimates ((Histogram.of samples).pct rank) samples (rank samples.length) := by
  have hc := of_counted samples
  rw [pct_of hsamples, upperBound]
  cases hfind : BOUNDS_US.find? fun b => rank samples.length ≤ upTo samples b with
  | none =>
    rw [List.find?_eq_none] at hfind
    refine ⟨?_, fun b hb _ => ?_, .inr (hc.maxUs_mem.resolve_right fun h => hsamples h.1)⟩
    · have hall : upTo samples (Histogram.of samples).maxUs = samples.length :=
        List.countP_eq_length.2 fun us hus => decide_eq_true (hc.le_maxUs us hus)
      rw [Option.getD_none, hall]
      exact hrank
    · have hless := hfind b hb
      rw [decide_eq_true_eq, Nat.not_le] at hless
      exact hless
  | some bound =>
    obtain ⟨henough, before, after, hsplit, hbefore⟩ := List.find?_eq_some_iff_append.1 hfind
    refine ⟨of_decide_eq_true henough, fun b hb hlt => ?_, .inl (List.mem_of_find?_eq_some hfind)⟩
    rw [Option.getD_some] at hlt
    rw [hsplit, List.mem_append, List.mem_cons] at hb
    rcases hb with hb | rfl | hb
    · have hless := hbefore b hb
      rw [Bool.not_eq_true', decide_eq_false_iff_not, Nat.not_le] at hless
      exact hless
    · exact absurd hlt (UInt64.lt_irrefl _)
    · have hsorted := bounds_sorted
      rw [hsplit, List.pairwise_append] at hsorted
      have hgt := (List.pairwise_cons.1 hsorted.2.1).1 b hb
      exact absurd hlt (UInt64.not_lt.2 (UInt64.le_of_lt hgt))

private theorem meanUs_of {samples : List UInt64} (hsamples : samples ≠ []) :
    (Histogram.of samples).meanUs.toNat = (samples.map UInt64.toNat).sum / samples.length := by
  have hc := of_counted samples
  have hlen : 0 < samples.length := List.length_pos_iff.2 hsamples
  have hcount : (Histogram.of samples).count ≠ 0 := by
    rw [hc.count]
    omega
  -- the mean is at most the largest sample
  have hsum : (samples.map UInt64.toNat).sum ≤ samples.length * (Histogram.of samples).maxUs.toNat := by
    have hle := List.sum_le_card_nsmul (samples.map UInt64.toNat) (Histogram.of samples).maxUs.toNat (by
      intro n hn
      obtain ⟨us, hus, rfl⟩ := List.mem_map.1 hn
      exact UInt64.le_iff_toNat_le.1 (hc.le_maxUs us hus))
    simpa using hle
  have hmean : (samples.map UInt64.toNat).sum / samples.length ≤ (Histogram.of samples).maxUs.toNat :=
    Nat.div_le_of_le_mul hsum
  rw [Histogram.meanUs, if_neg hcount, hc.sumUs, hc.count]
  exact Nat.mod_eq_of_lt (Nat.lt_of_le_of_lt hmean (Histogram.of samples).maxUs.toNat_lt)

/-! ### Ranks -/

/-- `n` to 53 significant bits, as `f64` rounds it: to the nearest, and half way to the even one. -/
def round53 (n : Nat) : Nat :=
  let unit := 2 ^ (n.log2 - 52)
  if 2 * (n % unit) < unit ∨ 2 * (n % unit) = unit ∧ n / unit % 2 = 0 then n / unit * unit else (n / unit + 1) * unit

/-- The relative error is at most 2^-53. -/
private theorem round53_le (n : Nat) : round53 n * 2 ^ 53 ≤ n * (2 ^ 53 + 1) := by
  have hdiv := Nat.div_add_mod' n (2 ^ (n.log2 - 52))
  simp only [round53]
  split
  · have hle : n / 2 ^ (n.log2 - 52) * 2 ^ (n.log2 - 52) ≤ n := Nat.div_mul_le_self _ _
    calc n / 2 ^ (n.log2 - 52) * 2 ^ (n.log2 - 52) * 2 ^ 53 ≤ n * 2 ^ 53 := Nat.mul_le_mul_right _ hle
      _ ≤ n * (2 ^ 53 + 1) := Nat.mul_le_mul_left _ (Nat.le_succ _)
  · rename_i hup
    have hhalf : 2 ^ (n.log2 - 52) ≤ 2 * (n % 2 ^ (n.log2 - 52)) := by omega
    rcases Nat.lt_or_ge 52 n.log2 with hlarge | hsmall
    · -- it is rounded up by half a unit at most, and `n` has more than 2^52 units
      have hn : n ≠ 0 := by
        rintro rfl
        simp at hlarge
      have hunits : 2 ^ 52 * 2 ^ (n.log2 - 52) ≤ n := by
        rw [← Nat.pow_add, Nat.add_sub_cancel' (Nat.le_of_lt hlarge)]
        exact Nat.log2_self_le hn
      rw [Nat.add_mul, Nat.one_mul]
      omega
    · rw [Nat.sub_eq_zero_of_le hsmall, Nat.pow_zero, Nat.mod_one] at hhalf
      exact absurd hhalf (by decide)

/-- The quantiles of a line. -/
inductive Quantile where
  | p50
  | p99
  | p999

/-- The `f64` of a quantile, in units of 2^-53. -/
def Quantile.p : Quantile → Nat
  | p50 => 4503599627370496
  | p99 => 8917127262193582
  | p999 => 8998192055486251

/-- These are nearest to 0.50, 0.99 and 0.999. -/
example : 2 * Quantile.p .p50 = 2 ^ 53 ∧ 2 * (Quantile.p .p99 * 100 - 99 * 2 ^ 53) < 100 ∧
    2 * (999 * 2 ^ 53 - Quantile.p .p999 * 1000) < 1000 := by decide

/-- `((self.count as f64) * p).ceil() as u64` -/
def target (q : Quantile) (count : Nat) : Nat := (round53 (round53 count * q.p) + (2 ^ 53 - 1)) / 2 ^ 53

/-- A quantile is so far below one that rounding twice does not lead above the number of the samples. -/
theorem target_le (q : Quantile) (count : Nat) : target q count ≤ count := by
  have hcount := round53_le count
  have hproduct := round53_le (round53 count * q.p)
  have hp : q.p ≤ 8998192055486251 := by cases q <;> decide
  have hbelow : round53 count * q.p * 2 ^ 53 ≤ count * (8998192055486251 * (2 ^ 53 + 1)) := by
    calc round53 count * q.p * 2 ^ 53 = round53 count * 2 ^ 53 * q.p := Nat.mul_right_comm _ _ _
      _ ≤ count * (2 ^ 53 + 1) * 8998192055486251 := Nat.mul_le_mul hcount hp
      _ = count * (8998192055486251 * (2 ^ 53 + 1)) := by rw [Nat.mul_assoc, Nat.mul_comm (2 ^ 53 + 1)]
  have hrounded : round53 (round53 count * q.p) ≤ count * 2 ^ 53 := by omega
  rw [target]
  omega

/-! ### The profiler -/

/-- The durations of one submit. -/
structure HopSample where
  decodeUs : UInt64
  waitUs : UInt64
  renderUs : UInt64
  dmaUs : UInt64
  totalUs : UInt64

/-- `name p50=… p99=… p999=… max=… mean=… (p99=…% frame)` -/
structure Line where
  name : String
  p50 : UInt64
  p99 : UInt64
  p999 : UInt64
  max : UInt64
  mean : UInt64
  share : Float

structure Report where
  vmId : String
  n : Nat
  lines : List Line

structure SubmitProfiler where
  vmId : String
  frameBudgetUs : UInt64
  flushEvery : Nat
  sinceFlush : Nat
  decode : Histogram
  wait : Histogram
  render : Histogram
  dma : Histogram
  total : Histogram

namespace SubmitProfiler

/-- `profile` says whether the variable is set; the other two are the numbers in their variables, where there are. -/
def fromEnv (vmId : String) (profile : Bool) (every : Option Nat) (budget : Option UInt64) : Option SubmitProfiler :=
  if profile then
    some
      { vmId
        frameBudgetUs := (budget.filter (· > 0)).getD 16667
        flushEvery := (every.filter (· > 0)).getD 300
        sinceFlush := 0
        decode := .new
        wait := .new
        render := .new
        dma := .new
        total := .new }
  else
    none

section

variable (rank : Quantile → Nat → Nat)

def line (p : SubmitProfiler) (name : String) (h : Histogram) : Line :=
  let p99 := h.pct (rank .p99)
  { name
    p50 := h.pct (rank .p50)
    p99
    p999 := h.pct (rank .p999)
    max := h.maxUs
    mean := h.meanUs
    share := p99.toFloat / p.frameBudgetUs.toFloat * 100 }

def report (p : SubmitProfiler) : Report where
  vmId := p.vmId
  n := p.total.count
  lines := [p.line rank "total" p.total, p.line rank "decode" p.decode, p.line rank "runlock_wait" p.wait,
    p.line rank "render" p.render, p.line rank "dma_write" p.dma]

def flush (p : SubmitProfiler) : SubmitProfiler × Option Report :=
  ({ p with sinceFlush := 0 }, if p.total.count = 0 then none else some (p.report rank))

def record (p : SubmitProfiler) (s : HopSample) : SubmitProfiler × Option Report :=
  let p :=
    { p with
      decode := p.decode.record s.decodeUs
      wait := p.wait.record s.waitUs
      render := p.render.record s.renderUs
      dma := p.dma.record s.dmaUs
      total := p.total.record s.totalUs
      sinceFlush := p.sinceFlush + 1 }
  if p.sinceFlush ≥ p.flushEvery then p.flush rank else (p, none)

/-- The submits one after another, with what is written. -/
def recordAll (p : SubmitProfiler) (ss : List HopSample) : SubmitProfiler × List Report :=
  ss.foldl (fun r s => ((r.1.record rank s).1, r.2 ++ (r.1.record rank s).2.toList)) (p, [])

end

/-- The profiler `p` after these submits. -/
def seen (p : SubmitProfiler) (ss : List HopSample) : SubmitProfiler :=
  { p with
    sinceFlush := ss.length % p.flushEvery
    decode := .of (ss.map HopSample.decodeUs)
    wait := .of (ss.map HopSample.waitUs)
    render := .of (ss.map HopSample.renderUs)
    dma := .of (ss.map HopSample.dmaUs)
    total := .of (ss.map HopSample.totalUs) }

section

variable (rank : Quantile → Nat → Nat) (p : SubmitProfiler) (ss : List HopSample)

private theorem recordAll_concat (s : HopSample) : p.recordAll rank (ss ++ [s]) =
    (((p.recordAll rank ss).1.record rank s).1,
      (p.recordAll rank ss).2 ++ ((p.recordAll rank ss).1.record rank s).2.toList) := by
  rw [recordAll, recordAll, List.foldl_append]
  rfl

/-- A report is due after every `flushEvery` submits. -/
private theorem record_seen (hevery : 0 < p.flushEvery) (s : HopSample) : (p.seen ss).record rank s =
    (p.seen (ss ++ [s]),
      if p.flushEvery ∣ ss.length + 1 then some ((p.seen (ss ++ [s])).report rank) else none) := by
  have hmod := Nat.mod_lt ss.length hevery
  have hcount : (Histogram.of (ss.map HopSample.totalUs ++ [s.totalUs])).count ≠ 0 := by
    rw [(of_counted _).count]
    simp
  by_cases hdue : p.flushEvery ∣ ss.length + 1
  · have hlast : (ss.length + 1) % p.flushEvery = 0 := Nat.mod_eq_zero_of_dvd hdue
    have hge : ss.length % p.flushEvery + 1 ≥ p.flushEvery := by
      by_contra hless
      rw [Nat.add_mod, Nat.mod_eq_of_lt (b := p.flushEvery) (a := 1) (by omega), Nat.mod_eq_of_lt (by omega)] at hlast
      omega
    simp only [record, seen, if_pos hge, flush, if_pos hdue, List.map_append, List.map_cons, List.map_nil,
      List.length_append, List.length_singleton, hlast, ← Histogram.of_concat, if_neg hcount]
    rfl
  · have hless : ¬ ss.length % p.flushEvery + 1 ≥ p.flushEvery := by
      intro hge
      refine hdue (Nat.dvd_of_mod_eq_zero ?_)
      have heq : ss.length % p.flushEvery + 1 = p.flushEvery := by omega
      rw [← Nat.mod_add_mod, heq, Nat.mod_self]
    have hnext : (ss.length + 1) % p.flushEvery = ss.length % p.flushEvery + 1 := by
      rw [← Nat.mod_add_mod, Nat.mod_eq_of_lt (by omega)]
    simp only [record, seen, if_neg hless, if_neg hdue, List.map_append, List.map_cons, List.map_nil,
      List.length_append, List.length_singleton, hnext, ← Histogram.of_concat]

/-- What a run of submits leaves, and what it writes. -/
theorem recordAll_reports (hevery : 0 < p.flushEvery) (hfresh : p.seen [] = p) : p.recordAll rank ss =
    (p.seen ss,
      (List.range (ss.length / p.flushEvery)).map
      fun k => (p.seen (ss.take ((k + 1) * p.flushEvery))).report rank) := by
  induction ss using List.reverseRecOn with
  | nil => rw [hfresh]; simp [recordAll]
  | append_singleton ss s ih =>
    have hold : (List.range (ss.length / p.flushEvery)).map
          (fun k => (p.seen ((ss ++ [s]).take ((k + 1) * p.flushEvery))).report rank) =
        (List.range (ss.length / p.flushEvery)).map
          fun k => (p.seen (ss.take ((k + 1) * p.flushEvery))).report rank := by
      refine List.map_congr_left fun k hk => ?_
      have hle : (k + 1) * p.flushEvery ≤ ss.length :=
        (Nat.le_div_iff_mul_le hevery).1 (List.mem_range.1 hk)
      rw [List.take_append_of_le_length hle]
    rw [recordAll_concat, ih, record_seen rank p ss hevery, List.length_append, List.length_singleton, Nat.succ_div]
    by_cases hdue : p.flushEvery ∣ ss.length + 1
    · have hall : (ss.length / p.flushEvery + 1) * p.flushEvery = ss.length + 1 := by
        have hdiv := Nat.div_mul_cancel hdue
        rwa [Nat.succ_div, if_pos hdue] at hdiv
      rw [if_pos hdue, if_pos hdue, List.range_succ, List.map_append, hold, List.map_singleton, hall,
        List.take_of_length_le (by simp)]
      rfl
    · rw [if_neg hdue, if_neg hdue, Nat.add_zero, hold, Option.toList_none, List.append_nil]

end

end SubmitProfiler

/-- The line tells of these samples. -/
structure Line.Tells (rank : Quantile → Nat → Nat) (l : Line) (samples : List UInt64) : Prop where
  p50 : Estimates l.p50 samples (rank .p50 samples.length)
  p99 : Estimates l.p99 samples (rank .p99 samples.length)
  p999 : Estimates l.p999 samples (rank .p999 samples.length)
  max : l.max ∈ samples ∧ ∀ us ∈ samples, us ≤ l.max
  mean : l.mean.toNat = (samples.map UInt64.toNat).sum / samples.length

/-- The hops in the order of their lines. -/
def hops : List (String × (HopSample → UInt64)) := [("total", HopSample.totalUs), ("decode", HopSample.decodeUs),
  ("runlock_wait", HopSample.waitUs), ("render", HopSample.renderUs), ("dma_write", HopSample.dmaUs)]

/-- The report tells of these submits. -/
structure Report.Tells (rank : Quantile → Nat → Nat) (r : Report) (vmId : String) (ss : List HopSample) : Prop where
  vmId : r.vmId = vmId
  n : r.n = ss.length
  lines : List.Forall₂ (fun hop (l : Line) => l.name = hop.1 ∧ l.Tells rank (ss.map hop.2)) hops r.lines

namespace SubmitProfiler

variable {rank : Quantile → Nat → Nat} {p : SubmitProfiler}

private theorem line_tells (hrank : ∀ q n, rank q n ≤ n) (name : String) {samples : List UInt64}
    (hsamples : samples ≠ []) :
    (p.line rank name (.of samples)).Tells rank samples where
  p50 := pct_estimates hsamples (hrank .p50 _)
  p99 := pct_estimates hsamples (hrank .p99 _)
  p999 := pct_estimates hsamples (hrank .p999 _)
  max := ⟨(of_counted samples).maxUs_mem.resolve_right fun h => hsamples h.1, (of_counted samples).le_maxUs⟩
  mean := meanUs_of hsamples

private theorem report_tells (hrank : ∀ q n, rank q n ≤ n) {ss : List HopSample} (hss : ss ≠ []) :
    ((p.seen ss).report rank).Tells rank p.vmId ss where
  vmId := rfl
  n := by
    show (Histogram.of (ss.map HopSample.totalUs)).count = ss.length
    rw [(of_counted _).count, List.length_map]
  lines := by
    have hline : ∀ name (hop : HopSample → UInt64),
        ((p.seen ss).line rank name (.of (ss.map hop))).name = name ∧
          ((p.seen ss).line rank name (.of (ss.map hop))).Tells rank (ss.map hop) := fun name hop =>
      ⟨rfl, line_tells hrank name fun h => hss (List.map_eq_nil_iff.1 h)⟩
    exact .cons (hline _ _) (.cons (hline _ _) (.cons (hline _ _) (.cons (hline _ _) (.cons (hline _ _) .nil))))

/-- A profiler that is on writes a report after every `flushEvery` submits, about all the submits so far, and one
about the whole run when it is dropped, unless there were none.  The ranks may be any that are not above the number of
the samples, as those of the quantiles 0.50, 0.99 and 0.999 are (`target_le`). -/
theorem reports_due (hrank : ∀ q n, rank q n ≤ n) {vmId : String} {every : Option Nat} {budget : Option UInt64}
    (hp : fromEnv vmId true every budget = some p) (ss : List HopSample) :
    (p.recordAll rank ss).2.length = ss.length / p.flushEvery ∧
      (∀ (k : Nat) (r : Report), (p.recordAll rank ss).2[k]? = some r →
        r.Tells rank vmId (ss.take ((k + 1) * p.flushEvery))) ∧
      ((p.recordAll rank ss).1.flush rank).2.isSome = !ss.isEmpty ∧
      ∀ r : Report, ((p.recordAll rank ss).1.flush rank).2 = some r → r.Tells rank vmId ss := by
  have hevery : 0 < p.flushEvery := by
    cases hp
    cases every with
    | none => exact Nat.succ_pos 299
    | some n =>
      show 0 < ((some n).filter (fun n => decide (n > 0))).getD 300
      by_cases hn : n > 0 <;> simp [Option.filter, hn]
  have hfresh : p.seen [] = p ∧ p.vmId = vmId := by
    cases hp
    simp [seen, Histogram.of]
  rw [recordAll_reports rank p ss hevery hfresh.1]
  refine ⟨by simp, fun k r hr => ?_, ?_, fun r hr => ?_⟩
  · simp only [List.getElem?_map, Option.map_eq_some_iff] at hr
    obtain ⟨k', hk, rfl⟩ := hr
    obtain ⟨hlt, rfl⟩ := List.getElem?_eq_some_iff.1 hk
    rw [List.length_range] at hlt
    rw [List.getElem_range, ← hfresh.2]
    refine report_tells hrank ?_
    have hle : (k + 1) * p.flushEvery ≤ ss.length := (Nat.le_div_iff_mul_le hevery).1 hlt
    have hpos : 0 < (k + 1) * p.flushEvery := Nat.mul_pos (Nat.succ_pos k) hevery
    rw [← List.length_pos_iff, List.length_take]
    omega
  · show (if (Histogram.of (ss.map HopSample.totalUs)).count = 0 then none else _).isSome = _
    rw [(of_counted _).count, List.length_map]
    cases ss <;> simp
  · have hr' : (if (Histogram.of (ss.map HopSample.totalUs)).count = 0 then none
        else some ((p.seen ss).report rank)) = some r := hr
    rw [(of_counted _).count, List.length_map] at hr'
    split at hr'
    · cases hr'
    · rename_i hlen
      cases hr'
      rw [← hfresh.2]
      exact report_tells hrank fun h => hlen (by rw [h]; rfl)

/-- Three submits with a report after the second one, at the ranks of the three quantiles. -/
theorem reports_due_three : ∃ p, fromEnv "vm" true (some 2) none = some p ∧
    let ss := [⟨5, 10, 900, 40, 1000⟩, ⟨6, 0, 20000, 40, 20100⟩, ⟨5, 2, 880, 41, 950⟩]
    (p.recordAll target ss).2.length = 1 ∧
      ∀ r : Report, (p.recordAll target ss).2[0]? = some r → r.Tells target "vm" (ss.take 2) :=
  ⟨_, rfl, (reports_due target_le rfl _).1, (reports_due target_le rfl _).2.1 0⟩

end SubmitProfiler

end Infinigpu.Profile
