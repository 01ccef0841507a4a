import Infinigpu.Sched.Ledger

/-!
# Ledgers with the same leases

Which admissions, revisions and runs the broker grants depends on what each VM holds, not on when it was served or
for how long: ledgers that hold the same leases answer alike and still hold the same leases afterwards
(`SameLeases.admitVm`, `SameLeases.adjustVram`, `SameLeases.release`), and runs leave the leases as they are
(`sameLeases_begin`, `sameLeases_record`).
-/

namespace Infinigpu

namespace Ledger

/-- The capacity that a VM holds. -/
def lease (st : Ledger) (vmId : String) : Option (UInt64 × Bool) :=
  (st.vms.lookup vmId).map fun vm => (vm.vramReservedMb, vm.holdsEncoder)

structure SameLeases (st st' : Ledger) : Prop where
  vramUsedMb : st.vramUsedMb = st'.vramUsedMb
  encSessionsUsed : st.encSessionsUsed = st'.encSessionsUsed
  count : st.vms.entries.length = st'.vms.entries.length
  lease : ∀ vmId, st.lease vmId = st'.lease vmId

variable {cfg : BrokerConfig} {st st' : Ledger}

namespace SameLeases

theorem refl (st : Ledger) : SameLeases st st := ⟨rfl, rfl, rfl, fun _ => rfl⟩

theorem symm (h : SameLeases st st') : SameLeases st' st :=
  ⟨h.vramUsedMb.symm, h.encSessionsUsed.symm, h.count.symm, fun vmId => (h.lease vmId).symm⟩

theorem trans {st'' : Ledger} (h : SameLeases st st') (h' : SameLeases st' st'') : SameLeases st st'' :=
  ⟨h.vramUsedMb.trans h'.vramUsedMb, h.encSessionsUsed.trans h'.encSessionsUsed, h.count.trans h'.count,
    fun vmId => (h.lease vmId).trans (h'.lease vmId)⟩

theorem isSome (h : SameLeases st st') (vmId : String) :
    (st.vms.lookup vmId).isSome = (st'.vms.lookup vmId).isSome := by
  have hlease := congrArg Option.isSome (h.lease vmId)
  rwa [Ledger.lease, Ledger.lease, Option.isSome_map, Option.isSome_map] at hlease

/-- What the other ledger has for a VM of the one. -/
private theorem lookup (h : SameLeases st st') {vmId : String} {vm : VmState} (hvm : st.vms.lookup vmId = some vm) :
    ∃ vm', st'.vms.lookup vmId = some vm' ∧ vm'.vramReservedMb = vm.vramReservedMb ∧
      vm'.holdsEncoder = vm.holdsEncoder := by
  have hlease := h.lease vmId
  rw [Ledger.lease, Ledger.lease, hvm, Option.map_some] at hlease
  obtain ⟨vm', hvm', heq⟩ := Option.map_eq_some_iff.1 hlease.symm
  exact ⟨vm', hvm', congrArg Prod.fst heq, congrArg Prod.snd heq⟩

private theorem lookup_none (h : SameLeases st st') {vmId : String} (hvm : st.vms.lookup vmId = none) :
    st'.vms.lookup vmId = none := by
  have hsome := h.isSome vmId
  rw [hvm] at hsome
  exact Option.not_isSome_iff_eq_none.1 (by rw [← hsome]; exact Bool.false_ne_true)

end SameLeases

private theorem lease_insert (st : Ledger) (vmId : String) (vm : VmState) (other : String) :
    lease { st with vms := st.vms.insert vmId vm } other =
      if other = vmId then some (vm.vramReservedMb, vm.holdsEncoder) else st.lease other := by
  unfold lease
  by_cases hother : other = vmId
  · subst hother
    rw [if_pos rfl, AList.lookup_insert, Option.map_some]
  · rw [if_neg hother, AList.lookup_insert_ne hother]

/-- A run changes nothing of what the VMs hold. -/
private theorem Kept.sameLeases {vmId : String} {vm vm' : VmState} (h : Kept vmId vm vm' st st') :
    SameLeases st st' := by
  rw [h.eq]
  refine ⟨rfl, rfl, (Keyed.length_update h.live).symm, fun other => ?_⟩
  rw [lease_insert]
  by_cases hother : other = vmId
  · subst hother
    rw [if_pos rfl, lease, h.live, Option.map_some, h.same.vramReservedMb, h.same.holdsEncoder]
  · rw [if_neg hother]

theorem sameLeases_begin (cfg : BrokerConfig) (vmId : String) (now : UInt64) (st : Ledger) :
    SameLeases st (st.begin cfg vmId now).2 := by
  cases hbegin : st.begin cfg vmId now with
  | mk r st' =>
    rcases begin_cases hbegin with ⟨e, -, rfl⟩ | ⟨b, vm, vm', -, hkept⟩
    · exact .refl st'
    · exact hkept.sameLeases

theorem sameLeases_begins (cfg : BrokerConfig) (vmId : String) (readings : List UInt64) (st : Ledger) :
    SameLeases st (readings.foldl (fun st now => (st.begin cfg vmId now).2) st) := by
  induction readings generalizing st with
  | nil => exact .refl st
  | cons now readings ih => exact (sameLeases_begin cfg vmId now st).trans (ih _)

theorem sameLeases_record (cfg : BrokerConfig) (vmId : String) (gpuUs : UInt64) (st : Ledger) :
    SameLeases st (st.record cfg vmId gpuUs).2 := by
  cases hrecord : st.record cfg vmId gpuUs with
  | mk r st' =>
    rcases record_cases hrecord with rfl | ⟨vm, vm', hkept⟩
    · exact .refl st'
    · exact hkept.sameLeases

/-- Entries with the same lease put in for the same VM. -/
private theorem SameLeases.insert (h : SameLeases st st') {vmId : String} {vm vm' : VmState}
    (hvram : vm.vramReservedMb = vm'.vramReservedMb) (henc : vm.holdsEncoder = vm'.holdsEncoder) (used : UInt64)
    (sessions : UInt32) :
    SameLeases ⟨used, sessions, st.vms.insert vmId vm⟩ ⟨used, sessions, st'.vms.insert vmId vm'⟩ := by
  refine ⟨rfl, rfl, ?_, fun other => ?_⟩
  · show (st.vms.insert vmId vm).entries.length = (st'.vms.insert vmId vm').entries.length
    cases hlookup : st.vms.lookup vmId with
    | none =>
      rw [Keyed.length_insert_new hlookup, Keyed.length_insert_new (h.lookup_none hlookup), h.count]
    | some old =>
      obtain ⟨old', hold', -⟩ := h.lookup hlookup
      rw [Keyed.length_update hlookup, Keyed.length_update hold', h.count]
  · show Ledger.lease { st with vms := st.vms.insert vmId vm } other =
      Ledger.lease { st' with vms := st'.vms.insert vmId vm' } other
    rw [lease_insert, lease_insert, hvram, henc, h.lease]

theorem SameLeases.admitVm (h : SameLeases st st') (cfg : BrokerConfig) (vmCfg : VmConfig) (req : AdmitRequest)
    (now now' : UInt64) :
    (st.admitVm cfg vmCfg req now).1 = (st'.admitVm cfg vmCfg req now').1 ∧
      SameLeases (st.admitVm cfg vmCfg req now).2 (st'.admitVm cfg vmCfg req now').2 := by
  have hcount : st.vmCount = st'.vmCount := congrArg UInt32.ofNat h.count
  have havailable : st.available cfg = st'.available cfg := congrArg (saturatingSub cfg.budget) h.vramUsedMb
  have hencoders : st.encodersExhausted cfg = st'.encodersExhausted cfg := by
    rw [encodersExhausted, encodersExhausted, h.encSessionsUsed]
  simp only [Ledger.admitVm, ← h.isSome, ← hcount, ← hencoders, ← havailable]
  split
  · exact ⟨rfl, h⟩
  · split
    · exact ⟨rfl, h⟩
    · split
      · exact ⟨rfl, h⟩
      · split
        · exact ⟨rfl, h⟩
        · split
          · exact ⟨rfl, h⟩
          · refine ⟨rfl, ?_⟩
            rw [← h.vramUsedMb, ← h.encSessionsUsed]
            refine h.insert ?_ ?_ _ _
            · rfl
            · rfl

theorem SameLeases.adjustVram (h : SameLeases st st') (cfg : BrokerConfig) (vmId : String) (newMb : UInt64) :
    SameLeases (st.adjustVram cfg vmId newMb).2 (st'.adjustVram cfg vmId newMb).2 := by
  have havailable : st.available cfg = st'.available cfg := congrArg (saturatingSub cfg.budget) h.vramUsedMb
  cases hvm : st.vms.lookup vmId with
  | none => simpa only [Ledger.adjustVram, hvm, h.lookup_none hvm] using h
  | some vm =>
    obtain ⟨vm', hvm', hvram, henc⟩ := h.lookup hvm
    have hset : ∀ used : UInt64, SameLeases
        { st with vramUsedMb := used, vms := st.vms.insert vmId { vm with vramReservedMb := newMb } }
        ⟨used, st.encSessionsUsed, st'.vms.insert vmId { vm' with vramReservedMb := newMb }⟩ :=
      fun used => h.insert (by rfl) (by exact henc.symm) used st.encSessionsUsed
    simp only [Ledger.adjustVram, hvm, hvm', hvram, ← havailable, ← h.vramUsedMb, ← h.encSessionsUsed]
    split
    · split
      · exact h
      · exact hset _
    · exact hset _

private theorem lease_erase (st : Ledger) (vmId other : String) :
    lease { st with vms := st.vms.erase vmId } other = if other = vmId then none else st.lease other := by
  unfold lease
  by_cases hother : other = vmId
  · subst hother
    rw [if_pos rfl, AList.lookup_erase, Option.map_none]
  · rw [if_neg hother, AList.lookup_erase_ne hother]

theorem SameLeases.release (h : SameLeases st st') (vmId : String) :
    SameLeases (st.release vmId) (st'.release vmId) := by
  cases hvm : st.vms.lookup vmId with
  | none => simpa only [Ledger.release, hvm, h.lookup_none hvm] using h
  | some vm =>
    obtain ⟨vm', hvm', hvram, henc⟩ := h.lookup hvm
    simp only [Ledger.release, hvm, hvm', hvram, henc, ← h.vramUsedMb, ← h.encSessionsUsed]
    refine ⟨rfl, rfl, ?_, fun other => ?_⟩
    · have hcount := h.count
      have hlen := Keyed.length_erase hvm
      have hlen' := Keyed.length_erase hvm'
      show (st.vms.erase vmId).entries.length = (st'.vms.erase vmId).entries.length
      omega
    · show Ledger.lease { st with vms := st.vms.erase vmId } other =
        Ledger.lease { st' with vms := st'.vms.erase vmId } other
      rw [lease_erase, lease_erase, h.lease]

end Ledger

end Infinigpu
