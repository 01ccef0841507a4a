import Infinigpu.Lib.Keyed
import Infinigpu.Sched.Broker

/-!
# The ledger balances

What each broker operation does to the ledger, said once (`Admitted`, `Adjusted`, `Kept`, `release_of_lookup`), and
from it the accounting invariant `Ledger.Balanced`: the two counters are the totals over the entries and stay within
the policy.
-/

namespace Infinigpu

/-- The two states of a VM hold the same capacity under the same policy. -/
structure VmState.SameLease (vm vm' : VmState) : Prop where
  cfg : vm'.cfg = vm.cfg
  vramReservedMb : vm'.vramReservedMb = vm.vramReservedMb
  holdsEncoder : vm'.holdsEncoder = vm.holdsEncoder

theorem VmState.refill_sameLease (vm : VmState) (now : UInt64) (cfg : BrokerConfig) :
    vm.SameLease (vm.refill now cfg) := by
  unfold VmState.refill
  simp only
  split
  · exact ⟨rfl, rfl, rfl⟩
  · exact ⟨rfl, rfl, rfl⟩

namespace Ledger

variable {cfg : BrokerConfig} {st st' : Ledger}

/-! ### What the operations do -/

/-- A successful admission: every gate passed, and a new entry with a full bucket. -/
structure Admitted (cfg : BrokerConfig) (vmCfg : VmConfig) (req : AdmitRequest) (now : UInt64) (vm : VmState)
    (st st' : Ledger) : Prop where
  absent : st.vms.lookup vmCfg.vmId = none
  room : st.vmCount < cfg.maxConcurrentGpuVms
  cap : req.vramMb ≤ vmCfg.vramCapMb
  encoder : req.needsEncoder = true → ∀ cap, cfg.maxEncSessions = some cap → st.encSessionsUsed < cap
  fits : req.vramMb ≤ st.available cfg
  vramUsedMb : st'.vramUsedMb = st.vramUsedMb + req.vramMb
  encSessionsUsed : st'.encSessionsUsed = if req.needsEncoder then st.encSessionsUsed + 1 else st.encSessionsUsed
  vms : st'.vms = st.vms.insert vmCfg.vmId vm
  vm_cfg : vm.cfg = vmCfg
  vm_vram : vm.vramReservedMb = req.vramMb
  vm_encoder : vm.holdsEncoder = req.needsEncoder
  vm_tokens : vm.tokensUs = cfg.bucketBurstUs.toInt64
  vm_lastRefill : vm.lastRefillUs = now

theorem admitVm_cases {vmCfg : VmConfig} {req : AdmitRequest} {now : UInt64} {r : Except AdmitError VmTicket}
    (h : admitVm cfg vmCfg req now st = (r, st')) :
    (∃ e, r = .error e ∧ st' = st) ∨
    (r = .ok { vmId := vmCfg.vmId, released := false } ∧ ∃ vm, Admitted cfg vmCfg req now vm st st') := by
  unfold admitVm at h
  split at h
  · cases h
    exact .inl ⟨_, rfl, rfl⟩
  rename_i habsent
  split at h
  · cases h
    exact .inl ⟨_, rfl, rfl⟩
  rename_i hroom
  split at h
  · cases h
    exact .inl ⟨_, rfl, rfl⟩
  rename_i hcap
  split at h
  · cases h
    exact .inl ⟨_, rfl, rfl⟩
  rename_i hencoder
  split at h
  · cases h
    exact .inl ⟨_, rfl, rfl⟩
  rename_i hfits
  cases h
  refine .inr ⟨rfl, _, ⟨?_, UInt32.not_le.1 hroom, UInt64.not_lt.1 hcap, ?_, UInt64.not_lt.1 hfits, rfl, rfl, rfl,
    rfl, rfl, rfl, rfl, rfl⟩⟩
  · simpa only [Option.not_isSome_iff_eq_none] using habsent
  · intro hneeds cap hsome
    rw [if_pos hneeds] at hencoder
    simp only [encodersExhausted, hsome, Option.filter_some] at hencoder
    split at hencoder
    · cases hencoder
    · rename_i hlt
      simpa only [decide_eq_true_eq, ge_iff_le, UInt32.not_le] using hlt

/-- A successful revision of a reservation. -/
structure Adjusted (cfg : BrokerConfig) (vmId : String) (newMb : UInt64) (vm : VmState) (st st' : Ledger) : Prop where
  live : st.vms.lookup vmId = some vm
  fits : newMb ≤ vm.vramReservedMb ∨ newMb - vm.vramReservedMb ≤ st.available cfg
  vramUsedMb : st'.vramUsedMb = if newMb > vm.vramReservedMb then st.vramUsedMb + (newMb - vm.vramReservedMb)
    else saturatingSub st.vramUsedMb (vm.vramReservedMb - newMb)
  encSessionsUsed : st'.encSessionsUsed = st.encSessionsUsed
  vms : st'.vms = st.vms.insert vmId { vm with vramReservedMb := newMb }

theorem adjustVram_cases {vmId : String} {newMb : UInt64} {r : Except AdmitError UInt64}
    (h : adjustVram cfg vmId newMb st = (r, st')) :
    (∃ e, r = .error e ∧ st' = st ∧ ∀ vm, st.vms.lookup vmId = some vm →
      ¬ (newMb ≤ vm.vramReservedMb ∨ newMb - vm.vramReservedMb ≤ st.available cfg)) ∨
    (r = .ok newMb ∧ ∃ vm, Adjusted cfg vmId newMb vm st st') := by
  unfold adjustVram at h
  split at h
  · rename_i hnone
    cases h
    exact .inl ⟨_, rfl, rfl, fun vm hvm => nomatch hnone.symm.trans hvm⟩
  · rename_i vm hvm
    by_cases hgrow : newMb > vm.vramReservedMb
    · simp only [if_pos hgrow] at h
      split at h
      · rename_i hfull
        cases h
        refine .inl ⟨_, rfl, rfl, fun vm' hvm' => ?_⟩
        rw [hvm, Option.some_inj] at hvm'
        subst hvm'
        rintro (hle | hfits)
        · exact UInt64.not_le.2 hgrow hle
        · exact UInt64.not_le.2 hfull hfits
      · rename_i hfits
        cases h
        exact .inr ⟨rfl, vm, hvm, .inr (UInt64.not_lt.1 hfits), by rw [if_pos hgrow], rfl, rfl⟩
    · simp only [if_neg hgrow] at h
      cases h
      exact .inr ⟨rfl, vm, hvm, .inl (UInt64.not_lt.1 hgrow), by rw [if_neg hgrow], rfl, rfl⟩

/-- The ledger is as it was but for the bookkeeping of one live VM. -/
structure Kept (vmId : String) (vm vm' : VmState) (st st' : Ledger) : Prop where
  live : st.vms.lookup vmId = some vm
  same : vm.SameLease vm'
  eq : st' = { st with vms := st.vms.insert vmId vm' }

theorem begin_cases {vmId : String} {now : UInt64} {r : Except NotAdmitted Begin}
    (h : begin cfg vmId now st = (r, st')) :
    (∃ e, r = .error e ∧ st' = st) ∨ ∃ b vm vm', r = .ok b ∧ Kept vmId vm vm' st st' := by
  unfold begin at h
  split at h
  · cases h
    exact .inl ⟨_, rfl, rfl⟩
  · rename_i vm hvm
    have hsame := vm.refill_sameLease now cfg
    simp only at h
    split at h
    · cases h
      exact .inr ⟨_, vm, _, rfl, hvm, hsame, rfl⟩
    · cases h
      refine .inr ⟨_, vm, _, rfl, hvm, ?_, rfl⟩
      exact ⟨hsame.cfg, hsame.vramReservedMb, hsame.holdsEncoder⟩

theorem record_cases {vmId : String} {gpuUs : UInt64} {r : Except DivideByZero Unit}
    (h : record cfg vmId gpuUs st = (r, st')) : st' = st ∨ ∃ vm vm', Kept vmId vm vm' st st' := by
  unfold record at h
  split at h
  · cases h
    exact .inl rfl
  · rename_i vm hvm
    simp only at h
    split at h
    · cases h
      refine .inr ⟨vm, _, hvm, ?_, rfl⟩
      exact ⟨rfl, rfl, rfl⟩
    · cases h
      refine .inr ⟨vm, _, hvm, ?_, rfl⟩
      exact ⟨rfl, rfl, rfl⟩

theorem release_of_lookup {vmId : String} {vm : VmState} (h : st.vms.lookup vmId = some vm) :
    (st.release vmId).vramUsedMb = saturatingSub st.vramUsedMb vm.vramReservedMb ∧
    (st.release vmId).encSessionsUsed.toNat = st.encSessionsUsed.toNat - vm.holdsEncoder.toNat ∧
    (st.release vmId).vms = st.vms.erase vmId := by
  unfold release
  rw [h]
  refine ⟨rfl, ?_, rfl⟩
  simp only
  cases vm.holdsEncoder with
  | false => rfl
  | true =>
    simp only [if_true, Bool.toNat_true]
    split
    · rename_i hzero
      rw [hzero]; rfl
    · rename_i hne
      have hpos : (1 : UInt32) ≤ st.encSessionsUsed := by
        rw [UInt32.le_iff_toNat_le, UInt32.toNat_one]
        have := mt UInt32.toNat_inj.1 hne
        rw [UInt32.toNat_zero] at this
        omega
      rw [UInt32.toNat_sub_of_le _ _ hpos, UInt32.toNat_one]

/-! ### The accounting invariant -/

/-- The VRAM reserved by the entries. -/
def reservedMb (st : Ledger) : Nat := Keyed.total (fun vm => vm.vramReservedMb.toNat) st.vms

/-- The entries that hold an encode session. -/
def encoders (st : Ledger) : Nat := Keyed.total (fun vm => vm.holdsEncoder.toNat) st.vms

/-- The counters are the totals over the entries, and each is within the policy. -/
structure Balanced (cfg : BrokerConfig) (st : Ledger) : Prop where
  vram : st.vramUsedMb.toNat = st.reservedMb
  vram_le : st.vramUsedMb.toNat ≤ cfg.totalVramMb.toNat - cfg.vramReserveMb.toNat
  enc : st.encSessionsUsed.toNat = st.encoders
  enc_le : ∀ cap, cfg.maxEncSessions = some cap → st.encSessionsUsed ≤ cap
  vms_le : st.vms.entries.length ≤ cfg.maxConcurrentGpuVms.toNat

theorem balanced_new (cfg : BrokerConfig) : Balanced cfg new where
  vram := rfl
  vram_le := Nat.zero_le _
  enc := rfl
  enc_le _ _ := UInt32.zero_le
  vms_le := Nat.zero_le _

private theorem budget_toNat (cfg : BrokerConfig) :
    cfg.budget.toNat = cfg.totalVramMb.toNat - cfg.vramReserveMb.toNat :=
  saturatingSub_toNat _ _

theorem available_toNat (cfg : BrokerConfig) (st : Ledger) :
    (st.available cfg).toNat = cfg.totalVramMb.toNat - cfg.vramReserveMb.toNat - st.vramUsedMb.toNat := by
  rw [available, saturatingSub_toNat, budget_toNat]

/-- No more sessions are held than there are entries. -/
private theorem encoders_le_length (st : Ledger) : st.encoders ≤ st.vms.entries.length := by
  rw [Keyed.length_eq_total]
  exact Keyed.total_le_total fun vm => Bool.toNat_le _

/-- What is added fits the free budget, so that the 64-bit counter does not wrap. -/
private theorem vramUsed_add (h : Balanced cfg st) {mb : UInt64} (hfits : mb ≤ st.available cfg) :
    (st.vramUsedMb + mb).toNat = st.vramUsedMb.toNat + mb.toNat ∧
      st.vramUsedMb.toNat + mb.toNat ≤ cfg.totalVramMb.toNat - cfg.vramReserveMb.toNat := by
  have hle := h.vram_le
  have htotal := cfg.totalVramMb.toNat_lt
  rw [UInt64.le_iff_toNat_le, available_toNat] at hfits
  rw [UInt64.toNat_add]
  omega

theorem Admitted.balanced {vmCfg : VmConfig} {req : AdmitRequest} {now : UInt64} {vm : VmState}
    (ha : Admitted cfg vmCfg req now vm st st') (h : Balanced cfg st) : Balanced cfg st' := by
  have hencLen := encoders_le_length st
  have hmax := cfg.maxConcurrentGpuVms.toNat_lt
  have hroom : st.vms.entries.length < cfg.maxConcurrentGpuVms.toNat := by
    have hlt := UInt32.lt_iff_toNat_lt.1 ha.room
    have hle := h.vms_le
    rw [vmCount, UInt32.toNat_ofNat', Nat.mod_eq_of_lt (by omega)] at hlt
    exact hlt
  have hvram := vramUsed_add h ha.fits
  have henc : st'.encSessionsUsed.toNat = st.encSessionsUsed.toNat + req.needsEncoder.toNat := by
    rw [ha.encSessionsUsed]
    have := h.enc
    cases req.needsEncoder with
    | false => rfl
    | true =>
      rw [if_pos rfl, UInt32.toNat_add, UInt32.toNat_one, Bool.toNat_true]
      omega
  refine ⟨?_, ?_, ?_, ?_, ?_⟩
  · rw [ha.vramUsedMb, reservedMb, ha.vms, Keyed.total_insert_new ha.absent, ha.vm_vram, hvram.1, h.vram, reservedMb]
    omega
  · rw [ha.vramUsedMb, hvram.1]
    exact hvram.2
  · rw [henc, encoders, ha.vms, Keyed.total_insert_new ha.absent, ha.vm_encoder, h.enc, encoders]
    omega
  · intro cap hcap
    rw [UInt32.le_iff_toNat_le, henc]
    have hle := UInt32.le_iff_toNat_le.1 (h.enc_le cap hcap)
    cases hneeds : req.needsEncoder with
    | false => exact hle
    | true =>
      have hlt := UInt32.lt_iff_toNat_lt.1 (ha.encoder hneeds cap hcap)
      rw [Bool.toNat_true]
      omega
  · rw [ha.vms, Keyed.length_insert_new ha.absent]
    omega

theorem Adjusted.balanced {vmId : String} {newMb : UInt64} {vm : VmState} (ha : Adjusted cfg vmId newMb vm st st')
    (h : Balanced cfg st) : Balanced cfg st' := by
  have hold := Keyed.le_total (fun vm => vm.vramReservedMb.toNat) ha.live
  have hreserved : st'.reservedMb + vm.vramReservedMb.toNat = newMb.toNat + st.reservedMb := by
    rw [reservedMb, ha.vms]
    exact Keyed.total_update (fun vm => vm.vramReservedMb.toNat) { vm with vramReservedMb := newMb } ha.live
  have hvram := h.vram
  have hle := h.vram_le
  have hused : st'.vramUsedMb.toNat = st'.reservedMb ∧
      st'.vramUsedMb.toNat ≤ cfg.totalVramMb.toNat - cfg.vramReserveMb.toNat := by
    rw [ha.vramUsedMb]
    by_cases hgrow : newMb > vm.vramReservedMb
    · have hlt := UInt64.lt_iff_toNat_lt.1 hgrow
      have hdelta : (newMb - vm.vramReservedMb).toNat = newMb.toNat - vm.vramReservedMb.toNat :=
        UInt64.toNat_sub_of_le _ _ (UInt64.le_of_lt hgrow)
      rcases ha.fits with hshrink | hfits
      · exact absurd hgrow (UInt64.not_lt.2 hshrink)
      · have hadd := vramUsed_add h hfits
        rw [if_pos hgrow, hadd.1, hdelta]
        omega
    · have hge := UInt64.le_iff_toNat_le.1 (UInt64.not_lt.1 hgrow)
      rw [if_neg hgrow, saturatingSub_toNat, UInt64.toNat_sub_of_le _ _ (UInt64.not_lt.1 hgrow)]
      change vm.vramReservedMb.toNat ≤ st.reservedMb at hold
      omega
  refine ⟨hused.1, hused.2, ?_, ?_, ?_⟩
  · rw [ha.encSessionsUsed, h.enc, encoders, encoders, ha.vms]
    exact (Keyed.total_update_same ha.live rfl).symm
  · rw [ha.encSessionsUsed]
    exact h.enc_le
  · rw [ha.vms, Keyed.length_update ha.live]
    exact h.vms_le

theorem Kept.balanced {vmId : String} {vm vm' : VmState} (hk : Kept vmId vm vm' st st') (h : Balanced cfg st) :
    Balanced cfg st' := by
  rw [hk.eq]
  refine ⟨?_, h.vram_le, ?_, h.enc_le, ?_⟩
  · rw [reservedMb, Keyed.total_update_same hk.live (by rw [hk.same.vramReservedMb])]
    exact h.vram
  · rw [encoders, Keyed.total_update_same hk.live (by rw [hk.same.holdsEncoder])]
    exact h.enc
  · rw [Keyed.length_update hk.live]
    exact h.vms_le

theorem release_balanced (vmId : String) (h : Balanced cfg st) : Balanced cfg (st.release vmId) := by
  cases hvm : st.vms.lookup vmId with
  | none =>
    unfold release
    rw [hvm]
    exact h
  | some vm =>
    obtain ⟨hused, henc, hvms⟩ := release_of_lookup hvm
    have hvram := h.vram
    have hencs := h.enc
    have hle := h.vram_le
    have hreserved : st.reservedMb = vm.vramReservedMb.toNat + (st.release vmId).reservedMb := by
      rw [reservedMb, reservedMb, hvms]
      exact Keyed.total_erase hvm
    have hencoders : st.encoders = vm.holdsEncoder.toNat + (st.release vmId).encoders := by
      rw [encoders, encoders, hvms]
      exact Keyed.total_erase hvm
    refine ⟨?_, ?_, ?_, ?_, ?_⟩
    · rw [hused, saturatingSub_toNat]
      omega
    · rw [hused, saturatingSub_toNat]
      omega
    · rw [henc]
      omega
    · intro cap hcap
      have := UInt32.le_iff_toNat_le.1 (h.enc_le cap hcap)
      rw [UInt32.le_iff_toNat_le, henc]
      omega
    · have hlen := Keyed.length_erase hvm
      have hmax := h.vms_le
      rw [hvms]
      omega

end Ledger

end Infinigpu
