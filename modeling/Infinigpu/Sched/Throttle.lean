import Infinigpu.Lib.Bucket
import Infinigpu.Sched.Fleet

/-!
# The throttle is a token bucket

One VM of a fleet issues its jobs one at a time: it polls `begin` until the answer is `Ready`, then `record` charges
the job; all other calls, by any VM, come in between as they like (`Metered`).  Its entry behaves as a token bucket
with the broker's refill rate and burst, in the 64-bit arithmetic of the source (`Metered.Inv`), as long as no job
takes `2^63` microseconds, so that over every window the conformance bound of the bucket holds
(`Metered.gpuTime_le`).
-/

namespace Infinigpu

/-! ### The balance in 64 bits -/

private theorem bmod_le {x : Int} (h : -2 ^ 63 ≤ x) : x.bmod (2 ^ 64) ≤ x := by
  unfold Int.bmod
  simp only
  split <;> omega

private theorem toInt64_toInt_le (x : UInt64) : x.toInt64.toInt ≤ x.toNat := by
  have hx : x.toInt64.toInt = x.toBitVec.toInt := rfl
  rw [hx, BitVec.toInt_eq_toNat_cond]
  split
  · exact Int.le_refl _
  · show (x.toNat : Int) - 2 ^ 64 ≤ x.toNat
    omega

theorem toInt64_toInt {x : UInt64} (h : x.toNat < 2 ^ 63) : x.toInt64.toInt = x.toNat := by
  have hx : x.toInt64.toInt = x.toBitVec.toInt := rfl
  rw [hx, BitVec.toInt_eq_toNat_cond, if_pos (by show 2 * x.toNat < 2 ^ 64; omega)]; rfl

/-- A wrapping addition of a truncated amount never gives more than the amount. -/
private theorem toInt_add_ofNat_le (a : Int64) (n : Nat) : (a + Int64.ofNat n).toInt ≤ a.toInt + n := by
  have ha := a.le_toInt
  have hsize : Int64.size = 2 ^ 64 := rfl
  rw [Int64.toInt_add, Int64.toInt_ofNat', hsize, Int.add_bmod_bmod]
  exact bmod_le (by omega)

/-- A charge below `2^63` against a positive balance is exact. -/
private theorem toInt_sub_toInt64 {a : Int64} (ha : 0 < a.toInt) {x : UInt64} (hx : x.toNat < 2 ^ 63) :
    (a - x.toInt64).toInt = a.toInt - x.toNat := by
  have := a.toInt_lt
  rw [Int64.toInt_sub, toInt64_toInt hx]
  exact Int.bmod_eq_of_le (by omega) (by omega)

private theorem toInt_min_le (a b : Int64) : (min a b).toInt ≤ a.toInt ∧ (min a b).toInt ≤ b.toInt := by
  have hmin : min a b = if a ≤ b then a else b := rfl
  rw [hmin]
  split
  · rename_i h
    exact ⟨Int.le_refl _, Int64.le_iff_toInt_le.1 h⟩
  · rename_i h
    rw [Int64.le_iff_toInt_le] at h
    exact ⟨by omega, Int.le_refl _⟩

/-! ### What the calls do to one entry -/

/-- A refill brings the entry up to date; it adds at most what the rate brings in, up to the burst. -/
theorem VmState.refill_spec (vm : VmState) {now : UInt64} (cfg : BrokerConfig) (hnow : vm.lastRefillUs ≤ now)
    (hburst : vm.tokensUs.toInt ≤ cfg.bucketBurstUs.toNat) :
    (vm.refill now cfg).lastRefillUs = now ∧ (vm.refill now cfg).tokensUs.toInt ≤ cfg.bucketBurstUs.toNat ∧
      (vm.refill now cfg).tokensUs.toInt ≤ vm.tokensUs.toInt +
        ((cfg.refillRate vm.cfg).toNat * (now.toNat - vm.lastRefillUs.toNat) / 1000000 : Nat) := by
  have hdt : (saturatingSub now vm.lastRefillUs).toNat = now.toNat - vm.lastRefillUs.toNat := saturatingSub_toNat _ _
  rw [UInt64.le_iff_toNat_le] at hnow
  unfold VmState.refill
  simp only
  split
  · rename_i hzero
    rw [hzero, UInt64.toNat_zero] at hdt
    refine ⟨UInt64.toNat_inj.1 (by omega), hburst, ?_⟩
    omega
  · have hmin := toInt_min_le (vm.tokensUs + Int64.ofNat ((cfg.refillRate vm.cfg).toNat *
      (saturatingSub now vm.lastRefillUs).toNat / 1000000)) cfg.bucketBurstUs.toInt64
    have hadd := toInt_add_ofNat_le vm.tokensUs ((cfg.refillRate vm.cfg).toNat *
      (saturatingSub now vm.lastRefillUs).toNat / 1000000)
    have hcap := toInt64_toInt_le cfg.bucketBurstUs
    rw [hdt] at hmin hadd
    simp only [hdt]
    exact ⟨trivial, Int.le_trans hmin.2 hcap, Int.le_trans hmin.1 hadd⟩

namespace Ledger

variable (cfg : BrokerConfig) {st : Ledger} {v : String} {vm : VmState}

/-- `begin` refills the entry of its VM, and with the throttle on says `Ready` only over a positive balance. -/
theorem begin_live (hvm : st.vms.lookup v = some vm) (now : UInt64) :
    ∃ vm', (st.begin cfg v now).2.vms.lookup v = some vm' ∧ vm'.cfg = (vm.refill now cfg).cfg ∧
      vm'.tokensUs = (vm.refill now cfg).tokensUs ∧ vm'.lastRefillUs = (vm.refill now cfg).lastRefillUs ∧
      ((st.begin cfg v now).1 = .ok .ready → cfg.throttleEnabled = true → 0 < vm'.tokensUs) := by
  unfold begin
  rw [hvm]
  simp only
  split
  · rename_i hready
    refine ⟨vm.refill now cfg, AList.lookup_insert _, rfl, rfl, rfl, fun _ hthrottle => ?_⟩
    simpa only [hthrottle, Bool.not_true, Bool.false_or, decide_eq_true_eq] using hready
  · exact ⟨_, AList.lookup_insert _, rfl, rfl, rfl, nofun⟩

/-- `record` debits the duration, also where it then panics. -/
private theorem record_live (hvm : st.vms.lookup v = some vm) (gpuUs : UInt64) :
    ∃ vm', (st.record cfg v gpuUs).2.vms.lookup v = some vm' ∧ vm'.cfg = vm.cfg ∧
      vm'.tokensUs = vm.tokensUs - gpuUs.toInt64 ∧ vm'.lastRefillUs = vm.lastRefillUs := by
  unfold record
  rw [hvm]
  simp only
  split
  · exact ⟨_, AList.lookup_insert _, rfl, rfl, rfl⟩
  · exact ⟨_, AList.lookup_insert _, rfl, rfl, rfl⟩

end Ledger

/-! ### One VM's jobs among the calls of a fleet -/

/-- The window over which a VM's GPU time is counted: when it opened and the durations charged in it, newest
first. -/
structure Window where
  opened : UInt64
  charged : List UInt64

/-- A fleet with one VM watched: the clock reading of its last `begin`, whether that said `Ready` and the job has not
been recorded yet, every duration charged to it since its admission, and the open window. -/
structure Metered where
  fleet : Fleet
  clock : UInt64
  ready : Bool
  durations : List UInt64
  window : Option Window

namespace Metered

def admitted (fleet : Fleet) (now : UInt64) : Metered where
  fleet
  clock := now
  ready := false
  durations := []
  window := none

/-- Calls that leave the jobs and the live ticket of the watched VM to it. -/
def spares (v : String) (s : Fleet) : Fleet.Op → Bool
  | .begin vmId _ => vmId ≠ v
  | .record vmId _ => vmId ≠ v
  | .drop i => s.tickets[i]?.all fun t => t.vmId ≠ v || t.released
  | _ => true

inductive Action where
  | begin (now : UInt64) (opens : Bool)
  | record (gpuUs : UInt64)
  | other (op : Fleet.Op)

/-- The watched VM's jobs come one at a time and its clock does not go back. -/
def step (cfg : BrokerConfig) (v : String) (s : Metered) : Action → Option Metered
  | .begin now opens =>
    if s.ready = false ∧ s.clock ≤ now then
      let (reply, fleet) := s.fleet.apply cfg (.begin v now)
      some { s with
        fleet
        clock := now
        ready := match reply with
          | .begin (.ok .ready) => true
          | _ => false
        window := if opens then some { opened := now, charged := [] } else s.window }
    else
      none
  | .record gpuUs =>
    if s.ready then
      some { s with
        fleet := (s.fleet.apply cfg (.record v gpuUs)).2
        ready := false
        durations := gpuUs :: s.durations
        window := s.window.map fun w => { w with charged := gpuUs :: w.charged } }
    else
      none
  | .other op => if spares v s.fleet op then some { s with fleet := (s.fleet.apply cfg op).2 } else none

/-- A window as the bucket sees it. -/
def bucket (s : Metered) (vm : VmState) (w : Window) : Bucket where
  balance := vm.tokensUs.toInt
  opened := w.opened.toNat
  clock := s.clock.toNat
  charges := w.charged.map UInt64.toNat

/-- The entry of the watched VM is up to date with its clock and conforms in the open window. -/
structure Inv (cfg : BrokerConfig) (vmCfg : VmConfig) (s : Metered) (vm : VmState) : Prop where
  live : s.fleet.ledger.vms.lookup vmCfg.vmId = some vm
  policy : vm.cfg = vmCfg
  clock : vm.lastRefillUs = s.clock
  burst : vm.tokensUs.toInt ≤ cfg.bucketBurstUs.toNat
  ready : s.ready = true → 0 < vm.tokensUs
  conforms : ∀ w, s.window = some w →
    Bucket.Conforms (cfg.refillRate vmCfg).toNat 1000000 cfg.bucketBurstUs.toNat (s.bucket vm w)

variable {cfg : BrokerConfig} {vmCfg : VmConfig} {s : Metered} {vm : VmState}

/-- The entry of the watched VM keeps its balance through a call that spares it. -/
private theorem spared (cfg : BrokerConfig) {fleet : Fleet} {op : Fleet.Op} {v : String}
    (hop : spares v fleet op = true) (hvm : fleet.ledger.vms.lookup v = some vm) :
    ∃ vm', (fleet.apply cfg op).2.ledger.vms.lookup v = some vm' ∧ vm'.cfg = vm.cfg ∧
      vm'.tokensUs = vm.tokensUs ∧ vm'.lastRefillUs = vm.lastRefillUs := by
  have hkept : ∀ {id : String} {vm₁ vm₂ : VmState} {st : Ledger}, v ≠ id →
      Ledger.Kept id vm₁ vm₂ fleet.ledger st → st.vms.lookup v = some vm := by
    intro id vm₁ vm₂ st hne hk
    rw [hk.eq, AList.lookup_insert_ne hne]
    exact hvm
  cases op with
  | admitVm vmCfg req now =>
    rcases hr : fleet.ledger.admitVm cfg vmCfg req now with ⟨r, ledger⟩
    rcases Ledger.admitVm_cases hr with ⟨e, rfl, rfl⟩ | ⟨rfl, vm₁, ha⟩
    · simp only [Fleet.apply, hr]
      exact ⟨vm, hvm, rfl, rfl, rfl⟩
    · have hne : v ≠ vmCfg.vmId := by
        intro he
        have habsent := ha.absent
        rw [← he, hvm] at habsent
        cases habsent
      simp only [Fleet.apply, hr, ha.vms, AList.lookup_insert_ne hne]
      exact ⟨vm, hvm, rfl, rfl, rfl⟩
  | adjustVram vmId newMb =>
    rcases hr : fleet.ledger.adjustVram cfg vmId newMb with ⟨r, ledger⟩
    rcases Ledger.adjustVram_cases hr with ⟨e, rfl, rfl, -⟩ | ⟨rfl, vm₁, ha⟩
    · simp only [Fleet.apply, hr]
      exact ⟨vm, hvm, rfl, rfl, rfl⟩
    · simp only [Fleet.apply, hr, ha.vms]
      by_cases hid : v = vmId
      · subst hid
        have hlive := ha.live
        rw [hvm, Option.some_inj] at hlive
        subst hlive
        exact ⟨_, AList.lookup_insert _, rfl, rfl, rfl⟩
      · rw [AList.lookup_insert_ne hid]
        exact ⟨vm, hvm, rfl, rfl, rfl⟩
  | begin vmId now =>
    have hne : v ≠ vmId := fun he => (of_decide_eq_true hop) he.symm
    rcases hr : fleet.ledger.begin cfg vmId now with ⟨r, ledger⟩
    simp only [Fleet.apply, hr]
    rcases Ledger.begin_cases hr with ⟨e, rfl, rfl⟩ | ⟨b, vm₁, vm₂, rfl, hk⟩
    · exact ⟨vm, hvm, rfl, rfl, rfl⟩
    · exact ⟨vm, hkept hne hk, rfl, rfl, rfl⟩
  | record vmId gpuUs =>
    have hne : v ≠ vmId := fun he => (of_decide_eq_true hop) he.symm
    rcases hr : fleet.ledger.record cfg vmId gpuUs with ⟨r, ledger⟩
    simp only [Fleet.apply, hr]
    rcases Ledger.record_cases hr with rfl | ⟨vm₁, vm₂, hk⟩
    · exact ⟨vm, hvm, rfl, rfl, rfl⟩
    · exact ⟨vm, hkept hne hk, rfl, rfl, rfl⟩
  | drop i =>
    cases ht : fleet.tickets[i]? with
    | none =>
      simp only [Fleet.apply, ht]
      exact ⟨vm, hvm, rfl, rfl, rfl⟩
    | some t =>
      simp only [Fleet.apply, ht, VmTicket.drop]
      simp only [spares, ht, Option.all_some, Bool.or_eq_true, decide_eq_true_eq] at hop
      split
      · exact ⟨vm, hvm, rfl, rfl, rfl⟩
      · rename_i hlive
        have hne : v ≠ t.vmId := by
          rcases hop with hne | hreleased
          · exact fun he => hne he.symm
          · exact absurd hreleased hlive
        refine ⟨vm, ?_, rfl, rfl, rfl⟩
        show (fleet.ledger.release t.vmId).vms.lookup v = some vm
        cases ht' : fleet.ledger.vms.lookup t.vmId with
        | none =>
          unfold Ledger.release
          rw [ht']
          exact hvm
        | some vm₁ =>
          rw [(Ledger.release_of_lookup ht').2.2, AList.lookup_erase_ne hne]
          exact hvm

private theorem Inv.begin (h : Inv cfg vmCfg s vm) (hthrottle : cfg.throttleEnabled = true) {now : UInt64}
    (hnow : s.clock ≤ now) {opens : Bool} {s' : Metered} (hs : s.step cfg vmCfg.vmId (.begin now opens) = some s') :
    ∃ vm', Inv cfg vmCfg s' vm' := by
  obtain ⟨vm', hvm', hcfg, htokens, hlast, hready⟩ := Ledger.begin_live cfg h.live now
  obtain ⟨hclock, hburst, hadded⟩ := vm.refill_spec cfg (by rw [h.clock]; exact hnow) h.burst
  have hsame := (vm.refill_sameLease now cfg).cfg
  simp only [step] at hs
  split at hs
  · cases hs
    refine ⟨vm', ⟨hvm', by rw [hcfg, hsame, h.policy], by rw [hlast, hclock], by rw [htokens]; exact hburst, ?_, ?_⟩⟩
    · intro hr
      simp only [Fleet.apply] at hr
      split at hr
      · rename_i heq
        injection heq with heq
        exact hready heq hthrottle
      · cases hr
    · intro w hw
      cases opens with
      | true =>
        simp only [if_true, Option.some_inj] at hw
        subst hw
        exact Bucket.Conforms.open (by rw [htokens]; exact hburst) now.toNat
      | false =>
        have hconforms := h.conforms w hw
        rw [← h.policy] at hconforms ⊢
        refine hconforms.refill (UInt64.le_iff_toNat_le.1 hnow) (by rw [htokens]; exact hburst) ?_ (Nat.le_refl _)
        rw [htokens]
        show _ ≤ vm.tokensUs.toInt + ((cfg.refillRate vm.cfg).toNat * (now.toNat - s.clock.toNat) / 1000000 : Nat)
        rw [← h.clock]
        exact hadded
  · cases hs

private theorem Inv.record (h : Inv cfg vmCfg s vm) {gpuUs : UInt64} (hd : gpuUs.toNat < 2 ^ 63) {s' : Metered}
    (hs : s.step cfg vmCfg.vmId (.record gpuUs) = some s') : ∃ vm', Inv cfg vmCfg s' vm' := by
  obtain ⟨vm', hvm', hcfg, htokens, hlast⟩ := Ledger.record_live cfg h.live gpuUs
  simp only [step] at hs
  split at hs
  · rename_i hready
    cases hs
    have hpos : 0 < vm.tokensUs.toInt := Int64.lt_iff_toInt_lt.1 (h.ready hready)
    have hsub : vm'.tokensUs.toInt = vm.tokensUs.toInt - gpuUs.toNat := by rw [htokens, toInt_sub_toInt64 hpos hd]
    have hburst := h.burst
    refine ⟨vm', ⟨hvm', by rw [hcfg, h.policy], by rw [hlast, h.clock], by omega, nofun, ?_⟩⟩
    intro w hw
    obtain ⟨w₀, hw₀, rfl⟩ := Option.map_eq_some_iff.1 hw
    have hcharge := (h.conforms w₀ hw₀).charge hpos gpuUs.toNat
    have heq : bucket { s with ready := false } vm' { w₀ with charged := gpuUs :: w₀.charged } =
        { s.bucket vm w₀ with
          balance := (s.bucket vm w₀).balance - gpuUs.toNat
          charges := gpuUs.toNat :: (s.bucket vm w₀).charges } := by
      simp only [bucket, hsub, List.map_cons]
    rw [← heq] at hcharge
    exact hcharge
  · cases hs

private theorem Inv.other (h : Inv cfg vmCfg s vm) {op : Fleet.Op} {s' : Metered}
    (hs : s.step cfg vmCfg.vmId (.other op) = some s') : ∃ vm', Inv cfg vmCfg s' vm' := by
  simp only [step] at hs
  split at hs
  · rename_i hop
    cases hs
    obtain ⟨vm', hvm', hcfg, htokens, hlast⟩ := spared cfg hop h.live
    refine ⟨vm', ⟨hvm', by rw [hcfg, h.policy], by rw [hlast, h.clock], by rw [htokens]; exact h.burst, ?_, ?_⟩⟩
    · intro hr
      rw [htokens]
      exact h.ready hr
    · intro w hw
      have hconforms := h.conforms w hw
      have heq : bucket { s with fleet := (s.fleet.apply cfg op).2 } vm' w = s.bucket vm w := by
        simp only [bucket, htokens]
      rw [heq]
      exact hconforms
  · cases hs

/-- Durations are only ever added. -/
private theorem step_durations {v : String} {a : Action} {s' : Metered} (hs : s.step cfg v a = some s') :
    ∀ d ∈ s.durations, d ∈ s'.durations := by
  intro d hd
  cases a with
  | begin now opens =>
    simp only [step] at hs
    split at hs <;> cases hs
    exact hd
  | record gpuUs =>
    simp only [step] at hs
    split at hs <;> cases hs
    exact List.mem_cons_of_mem _ hd
  | other op =>
    simp only [step] at hs
    split at hs <;> cases hs
    exact hd

private theorem step_inv (hthrottle : cfg.throttleEnabled = true) {a : Action} {s' : Metered}
    (h : (∀ d ∈ s.durations, d.toNat < 2 ^ 63) → ∃ vm, Inv cfg vmCfg s vm)
    (hs : s.step cfg vmCfg.vmId a = some s') (hd : ∀ d ∈ s'.durations, d.toNat < 2 ^ 63) :
    ∃ vm, Inv cfg vmCfg s' vm := by
  obtain ⟨vm, hinv⟩ := h fun d hmem => hd d (step_durations hs d hmem)
  cases a with
  | begin now opens =>
    have hguard : s.clock ≤ now := by
      simp only [step] at hs
      split at hs
      · rename_i hguard
        exact hguard.2
      · cases hs
    exact hinv.begin hthrottle hguard hs
  | record gpuUs =>
    have hmem : gpuUs ∈ s'.durations := by
      simp only [step] at hs
      split at hs <;> cases hs
      exact List.mem_cons_self
    exact hinv.record (hd gpuUs hmem) hs
  | other op => exact hinv.other hs

/-- Over every window that opens at a `begin` call, the GPU time charged to a VM is at most a full bucket, what its
rate brings in until its last `begin` call, and the duration of the last job, provided no job takes `2^63`
microseconds. -/
theorem gpuTime_le (cfg : BrokerConfig) (hthrottle : cfg.throttleEnabled = true) {vmCfg : VmConfig}
    {req : AdmitRequest} {now : UInt64} {t : VmTicket} {fleet₀ fleet : Fleet}
    (hok : fleet₀.apply cfg (.admitVm vmCfg req now) = (.admitVm (.ok t), fleet)) {s : Metered}
    (hr : Lts.Reachable (step cfg vmCfg.vmId) (admitted fleet now) s)
    (hd : ∀ d ∈ s.durations, d.toNat < 2 ^ 63) {w : Window} (hw : s.window = some w) :
    (w.charged.map UInt64.toNat).sum ≤ cfg.bucketBurstUs.toNat +
      (cfg.refillRate vmCfg).toNat * (s.clock.toNat - w.opened.toNat) / 1000000 +
      (w.charged.map UInt64.toNat).headD 0 := by
  have hinv : (∀ d ∈ s.durations, d.toNat < 2 ^ 63) → ∃ vm, Inv cfg vmCfg s vm := by
    refine hr.invariant (P := fun s => (∀ d ∈ s.durations, d.toNat < 2 ^ 63) → ∃ vm, Inv cfg vmCfg s vm)
      (fun _ _ _ => step_inv hthrottle) fun _ => ?_
    rcases hl : fleet₀.ledger.admitVm cfg vmCfg req now with ⟨r, ledger⟩
    rcases Ledger.admitVm_cases hl with ⟨e, rfl, rfl⟩ | ⟨rfl, vm, ha⟩
    · simp only [Fleet.apply, hl] at hok
      cases hok
    · simp only [Fleet.apply, hl] at hok
      cases hok
      refine ⟨vm, ⟨?_, ha.vm_cfg, ha.vm_lastRefill, ?_, fun hready => (by cases hready), fun w hw => (by cases hw)⟩⟩
      · simp only [admitted, ha.vms, AList.lookup_insert]
      · rw [ha.vm_tokens]
        exact toInt64_toInt_le _
  obtain ⟨vm, hinv⟩ := hinv hd
  exact (hinv.conforms w hw).charged_le

/-- A fleet of one VM on the default policy. -/
def oneVm : Fleet := (Fleet.new.apply .default (.admitVm (.new "a" 1 4096) (.vram 64) 0)).2

/-- A job that overruns the bucket, a poll that is told to wait, and a second job. -/
theorem gpuTime_le_after_overrun : ∃ s w,
    Lts.run (step .default "a") (admitted oneVm 0)
      [.begin 0 true, .record 60000, .begin 10000 false, .begin 60000 false, .record 5] = some s ∧
    s.window = some w ∧ w.charged = [5, 60000] ∧
    (w.charged.map UInt64.toNat).sum ≤ 50000 + 200000 * (60000 - 0) / 1000000 + 5 := by
  have hok : Fleet.new.apply .default (.admitVm (.new "a" 1 4096) (.vram 64) 0) =
      (.admitVm (.ok { vmId := "a", released := false }), oneVm) := rfl
  have hsome : (Lts.run (step .default "a") (admitted oneVm 0)
      [.begin 0 true, .record 60000, .begin 10000 false, .begin 60000 false, .record 5]).isSome := by decide
  obtain ⟨s, hs⟩ := Option.isSome_iff_exists.1 hsome
  have hfields : (Lts.run (step .default "a") (admitted oneVm 0)
      [.begin 0 true, .record 60000, .begin 10000 false, .begin 60000 false, .record 5]).map
        (fun s => (s.durations, s.clock, s.window.map fun w => (w.opened, w.charged))) =
      some ([5, 60000], 60000, some (0, [5, 60000])) := by decide
  rw [hs, Option.map_some, Option.some_inj, Prod.mk.injEq, Prod.mk.injEq] at hfields
  obtain ⟨hdurations, hclock, hwindow⟩ := hfields
  obtain ⟨w, hw, hcharged⟩ := Option.map_eq_some_iff.1 hwindow
  rw [Prod.mk.injEq] at hcharged
  have hshort : ∀ d ∈ s.durations, d.toNat < 2 ^ 63 := by
    intro d hd
    rw [hdurations] at hd
    simp only [List.mem_cons, List.not_mem_nil, or_false] at hd
    rcases hd with rfl | rfl
    · decide
    · decide
  have hle := gpuTime_le .default rfl hok ⟨_, hs⟩ hshort hw
  rw [hclock, hcharged.1, hcharged.2] at hle
  refine ⟨s, w, hs, hw, hcharged.2, ?_⟩
  rw [hcharged.2]
  exact hle

/-- A job of `2^64 - 1000` microseconds is debited as a credit of 1000, so that the next job runs at once. -/
theorem gpuTime_unbounded_by_long_job : ∃ s w,
    Lts.run (step .default "a") (admitted oneVm 0)
      [.begin 0 true, .record 0xfffffffffffffc18, .begin 0xfffffffffffffc18 false, .record 5] = some s ∧
    s.window = some w ∧
    ¬ (w.charged.map UInt64.toNat).sum ≤ (BrokerConfig.default.bucketBurstUs).toNat +
      (BrokerConfig.default.refillRate (.new "a" 1 4096)).toNat * (s.clock.toNat - w.opened.toNat) / 1000000 +
      (w.charged.map UInt64.toNat).headD 0 := by
  refine ⟨_, _, rfl, rfl, ?_⟩
  decide

end Metered

end Infinigpu
