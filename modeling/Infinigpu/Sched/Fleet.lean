import Infinigpu.Lib.Lts
import Infinigpu.Sched.Ledger

/-!
# A fleet of VMs on one broker

Any number of VMs call the broker in any order; each call is one step under the ledger's lock.  `Fleet` keeps the
ledger, every ticket handed out so far in the order of the admissions, and for each ledger entry the number of the
ticket whose admission put it there.

* `Fleet.Reachable.sound`: the ledger balances and live tickets and entries correspond, in every state;
* `Fleet.ceilings_iff`: the per-VM ceilings hold along a run exactly when no accepted revision exceeds its own.
-/

namespace Infinigpu

structure Fleet where
  ledger : Ledger
  tickets : List VmTicket
  owner : AList fun _ : String => Nat

namespace Fleet

def new : Fleet where
  ledger := .new
  tickets := []
  owner := ∅

inductive Op where
  | admitVm (vmCfg : VmConfig) (req : AdmitRequest) (now : UInt64)
  | adjustVram (vmId : String) (newMb : UInt64)
  | begin (vmId : String) (now : UInt64)
  | record (vmId : String) (gpuUs : UInt64)
  | drop (ticket : Nat)

inductive Reply where
  | admitVm (r : Except AdmitError VmTicket)
  | adjustVram (r : Except AdmitError UInt64)
  | begin (r : Except NotAdmitted Begin)
  | record (r : Except DivideByZero Unit)
  | drop

/-- The operation returned an error.  A division that panics does not return. -/
def Reply.isError : Reply → Bool
  | .admitVm (.error _) => true
  | .adjustVram (.error _) => true
  | .begin (.error _) => true
  | _ => false

def apply (cfg : BrokerConfig) (s : Fleet) : Op → Reply × Fleet
  | .admitVm vmCfg req now =>
    match s.ledger.admitVm cfg vmCfg req now with
    | (.ok t, ledger) =>
      (.admitVm (.ok t),
        { ledger, tickets := s.tickets ++ [t], owner := s.owner.insert t.vmId s.tickets.length })
    | (.error e, ledger) => (.admitVm (.error e), { s with ledger })
  | .adjustVram vmId newMb =>
    let (r, ledger) := s.ledger.adjustVram cfg vmId newMb
    (.adjustVram r, { s with ledger })
  | .begin vmId now =>
    let (r, ledger) := s.ledger.begin cfg vmId now
    (.begin r, { s with ledger })
  | .record vmId gpuUs =>
    let (r, ledger) := s.ledger.record cfg vmId gpuUs
    (.record r, { s with ledger })
  | .drop i =>
    match s.tickets[i]? with
    | none => (.drop, s)
    | some t =>
      let (t', ledger) := t.drop s.ledger
      let owner := if t.released then s.owner else s.owner.erase t.vmId
      (.drop, { ledger, tickets := s.tickets.set i t', owner })

def step (cfg : BrokerConfig) (s : Fleet) (op : Op) : Option Fleet := some (s.apply cfg op).2

/-! ### The invariant -/

/-- The ledger balances, its entries are the owned ones, and a ticket owns an entry exactly while it is live. -/
structure Sound (cfg : BrokerConfig) (s : Fleet) : Prop where
  balanced : s.ledger.Balanced cfg
  entries : ∀ id, (s.ledger.vms.lookup id).isSome ↔ (s.owner.lookup id).isSome
  owner : ∀ id i, s.owner.lookup id = some i ↔ s.tickets[i]? = some { vmId := id, released := false }

theorem sound_new (cfg : BrokerConfig) : Sound cfg new where
  balanced := Ledger.balanced_new cfg
  entries _ := by rw [new, AList.lookup_empty, Ledger.new, AList.lookup_empty]; exact Iff.rfl
  owner _ _ := by
    rw [new, AList.lookup_empty, List.getElem?_nil]
    exact iff_of_false nofun nofun

variable {cfg : BrokerConfig} {s : Fleet}

/-- An update of a live entry keeps which VMs have one. -/
private theorem isSome_lookup_insert {vms : AList fun _ : String => VmState} {a id : String} {vm vm' : VmState}
    (h : vms.lookup a = some vm) : ((vms.insert a vm').lookup id).isSome ↔ (vms.lookup id).isSome := by
  by_cases hid : id = a
  · subst hid
    rw [AList.lookup_insert, h]
    exact Iff.rfl
  · rw [AList.lookup_insert_ne hid]

private theorem Sound.kept {vmId : String} {vm vm' : VmState} {ledger : Ledger} (h : Sound cfg s)
    (hk : Ledger.Kept vmId vm vm' s.ledger ledger) : Sound cfg { s with ledger } where
  balanced := hk.balanced h.balanced
  entries id := by
    simp only [hk.eq]
    rw [isSome_lookup_insert hk.live]
    exact h.entries id
  owner := h.owner

private theorem Sound.adjusted {vmId : String} {newMb : UInt64} {vm : VmState} {ledger : Ledger} (h : Sound cfg s)
    (ha : Ledger.Adjusted cfg vmId newMb vm s.ledger ledger) : Sound cfg { s with ledger } where
  balanced := ha.balanced h.balanced
  entries id := by
    simp only [ha.vms]
    rw [isSome_lookup_insert ha.live]
    exact h.entries id
  owner := h.owner

private theorem Sound.admitted {vmCfg : VmConfig} {req : AdmitRequest} {now : UInt64} {vm : VmState} {ledger : Ledger}
    (h : Sound cfg s) (ha : Ledger.Admitted cfg vmCfg req now vm s.ledger ledger) :
    Sound cfg { ledger, tickets := s.tickets ++ [{ vmId := vmCfg.vmId, released := false }],
                owner := s.owner.insert vmCfg.vmId s.tickets.length } where
  balanced := ha.balanced h.balanced
  entries id := by
    simp only [ha.vms]
    by_cases hid : id = vmCfg.vmId
    · subst hid
      rw [AList.lookup_insert, AList.lookup_insert]
      exact Iff.rfl
    · rw [AList.lookup_insert_ne hid, AList.lookup_insert_ne hid]
      exact h.entries id
  owner id i := by
    have habsent : s.owner.lookup vmCfg.vmId = none := by
      have hentries := h.entries vmCfg.vmId
      rw [ha.absent] at hentries
      rw [← Option.not_isSome_iff_eq_none, ← hentries]
      exact Bool.false_ne_true
    have howner := h.owner id i
    simp only [List.getElem?_append, List.getElem?_singleton]
    by_cases hi : i < s.tickets.length
    · rw [if_pos hi]
      by_cases hid : id = vmCfg.vmId
      · subst hid
        rw [habsent] at howner
        rw [AList.lookup_insert, Option.some_inj]
        exact iff_of_false (by omega) (fun ht => nomatch howner.2 ht)
      · rw [AList.lookup_insert_ne hid]
        exact howner
    · rw [if_neg hi]
      have hnone : s.tickets[i]? = none := List.getElem?_eq_none (Nat.le_of_not_lt hi)
      rw [hnone] at howner
      by_cases hid : id = vmCfg.vmId
      · subst hid
        rw [AList.lookup_insert, Option.some_inj]
        by_cases hlen : i = s.tickets.length
        · rw [if_pos (by omega)]
          exact iff_of_true hlen.symm rfl
        · rw [if_neg (by omega)]
          exact iff_of_false (fun e => hlen e.symm) nofun
      · rw [AList.lookup_insert_ne hid]
        refine iff_of_false (fun e => nomatch howner.1 e) ?_
        split
        · rw [Option.some_inj, VmTicket.mk.injEq]
          exact fun e => hid e.1.symm
        · nofun

/-- A live ticket owns its entry. -/
private theorem Sound.live {t : VmTicket} {i : Nat} (h : Sound cfg s) (ht : s.tickets[i]? = some t)
    (hlive : t.released = false) :
    s.owner.lookup t.vmId = some i ∧ ∃ vm, s.ledger.vms.lookup t.vmId = some vm := by
  have howner : s.owner.lookup t.vmId = some i := (h.owner t.vmId i).2 (by rw [ht, ← hlive])
  refine ⟨howner, Option.isSome_iff_exists.1 ((h.entries t.vmId).2 ?_)⟩
  rw [howner]; rfl

private theorem Sound.dropped {t : VmTicket} {i : Nat} (h : Sound cfg s) (ht : s.tickets[i]? = some t)
    (hlive : t.released = false) :
    Sound cfg { ledger := s.ledger.release t.vmId, tickets := s.tickets.set i { t with released := true },
                owner := s.owner.erase t.vmId } := by
  obtain ⟨howner, vm, hvm⟩ := h.live ht hlive
  have hi : i < s.tickets.length := (List.getElem?_eq_some_iff.1 ht).1
  refine ⟨Ledger.release_balanced t.vmId h.balanced, fun id => ?_, fun id j => ?_⟩
  · simp only [(Ledger.release_of_lookup hvm).2.2]
    by_cases hid : id = t.vmId
    · subst hid
      rw [AList.lookup_erase, AList.lookup_erase]
      exact Iff.rfl
    · rw [AList.lookup_erase_ne hid, AList.lookup_erase_ne hid]
      exact h.entries id
  · simp only [List.getElem?_set]
    by_cases hij : i = j
    · subst hij
      rw [if_pos rfl, if_pos hi, Option.some_inj, VmTicket.mk.injEq]
      refine iff_of_false (fun e => ?_) (fun e => nomatch e.2)
      by_cases hid : id = t.vmId
      · subst hid
        rw [AList.lookup_erase] at e
        cases e
      · rw [AList.lookup_erase_ne hid, h.owner, ht, Option.some_inj] at e
        exact hid (congrArg VmTicket.vmId e).symm
    · rw [if_neg hij]
      by_cases hid : id = t.vmId
      · subst hid
        rw [AList.lookup_erase, ← h.owner, howner, Option.some_inj]
        exact iff_of_false nofun hij
      · rw [AList.lookup_erase_ne hid]
        exact h.owner id j

/-! ### Steps -/

private theorem drop_released {t : VmTicket} {i : Nat} (ht : s.tickets[i]? = some t) (hreleased : t.released = true) :
    (s.apply cfg (.drop i)).2 = s := by
  obtain ⟨hi, rfl⟩ := List.getElem?_eq_some_iff.1 ht
  simp only [apply, ht, VmTicket.drop, hreleased, if_true, List.set_getElem_self]

private theorem drop_live {t : VmTicket} {i : Nat} (ht : s.tickets[i]? = some t) (hlive : t.released = false) :
    (s.apply cfg (.drop i)).2 =
      { ledger := s.ledger.release t.vmId
        tickets := s.tickets.set i { t with released := true }
        owner := s.owner.erase t.vmId } := by
  simp only [apply, ht, VmTicket.drop, hlive, Bool.false_eq_true, if_false]

theorem apply_sound (op : Op) (h : Sound cfg s) : Sound cfg (s.apply cfg op).2 := by
  cases op with
  | admitVm vmCfg req now =>
    rcases hr : s.ledger.admitVm cfg vmCfg req now with ⟨r, ledger⟩
    rcases Ledger.admitVm_cases hr with ⟨e, rfl, rfl⟩ | ⟨rfl, vm, ha⟩
    · simp only [apply, hr]
      exact h
    · simp only [apply, hr]
      exact h.admitted ha
  | adjustVram vmId newMb =>
    rcases hr : s.ledger.adjustVram cfg vmId newMb with ⟨r, ledger⟩
    rcases Ledger.adjustVram_cases hr with ⟨e, rfl, rfl, -⟩ | ⟨rfl, vm, ha⟩
    · simp only [apply, hr]
      exact h
    · simp only [apply, hr]
      exact h.adjusted ha
  | begin vmId now =>
    rcases hr : s.ledger.begin cfg vmId now with ⟨r, ledger⟩
    rcases Ledger.begin_cases hr with ⟨e, rfl, rfl⟩ | ⟨b, vm, vm', rfl, hk⟩
    · simp only [apply, hr]
      exact h
    · simp only [apply, hr]
      exact h.kept hk
  | record vmId gpuUs =>
    rcases hr : s.ledger.record cfg vmId gpuUs with ⟨r, ledger⟩
    rcases Ledger.record_cases hr with rfl | ⟨vm, vm', hk⟩
    · simp only [apply, hr]
      exact h
    · simp only [apply, hr]
      exact h.kept hk
  | drop i =>
    cases ht : s.tickets[i]? with
    | none =>
      simp only [apply, ht]
      exact h
    | some t =>
      cases hreleased : t.released with
      | true =>
        rw [drop_released ht hreleased]
        exact h
      | false =>
        rw [drop_live ht hreleased]
        exact h.dropped ht hreleased

theorem Reachable.sound {s : Fleet} (hr : Lts.Reachable (step cfg) new s) : Sound cfg s := by
  refine hr.invariant ?_ (sound_new cfg)
  intro s op s' h hs
  cases hs
  exact apply_sound op h

/-- An operation that returns an error changes nothing. -/
theorem apply_error (s : Fleet) (op : Op) (herr : (s.apply cfg op).1.isError = true) : (s.apply cfg op).2 = s := by
  cases op with
  | admitVm vmCfg req now =>
    rcases hr : s.ledger.admitVm cfg vmCfg req now with ⟨r, ledger⟩
    rcases Ledger.admitVm_cases hr with ⟨e, rfl, rfl⟩ | ⟨rfl, -⟩
    · simp only [apply, hr]
    · simp only [apply, hr] at herr
      cases herr
  | adjustVram vmId newMb =>
    rcases hr : s.ledger.adjustVram cfg vmId newMb with ⟨r, ledger⟩
    rcases Ledger.adjustVram_cases hr with ⟨e, rfl, rfl, -⟩ | ⟨rfl, -⟩
    · simp only [apply, hr]
    · simp only [apply, hr] at herr
      cases herr
  | begin vmId now =>
    rcases hr : s.ledger.begin cfg vmId now with ⟨r, ledger⟩
    rcases Ledger.begin_cases hr with ⟨e, rfl, rfl⟩ | ⟨b, vm, vm', rfl, -⟩
    · simp only [apply, hr]
    · simp only [apply, hr] at herr
      cases herr
  | record vmId gpuUs => cases herr
  | drop i =>
    unfold apply at herr
    simp only at herr
    split at herr <;> cases herr

/-- In every state the broker reaches: the ledger balances within the policy, live tickets and entries correspond
one to one, an operation that returns an error changes nothing, and the drop of a ticket frees the entry of its own
admission, if the ticket is live, and nothing else. -/
theorem ledger_invariant (cfg : BrokerConfig) {s : Fleet} (hr : Lts.Reachable (step cfg) new s) :
    (s.ledger.vramUsedMb.toNat = s.ledger.reservedMb ∧
      s.ledger.vramUsedMb.toNat ≤ cfg.totalVramMb.toNat - cfg.vramReserveMb.toNat ∧
      s.ledger.encSessionsUsed.toNat = s.ledger.encoders ∧
      (∀ cap, cfg.maxEncSessions = some cap → s.ledger.encSessionsUsed ≤ cap) ∧
      s.ledger.vms.entries.length ≤ cfg.maxConcurrentGpuVms.toNat) ∧
    ((∀ id, (s.ledger.vms.lookup id).isSome ↔ (s.owner.lookup id).isSome) ∧
      ∀ id i, s.owner.lookup id = some i ↔ s.tickets[i]? = some { vmId := id, released := false }) ∧
    (∀ op, (s.apply cfg op).1.isError = true → (s.apply cfg op).2 = s) ∧
    ∀ (i : Nat) (t : VmTicket), s.tickets[i]? = some t →
      if t.released then (s.apply cfg (.drop i)).2 = s
      else s.owner.lookup t.vmId = some i ∧
        (s.apply cfg (.drop i)).2.ledger.vms = s.ledger.vms.erase t.vmId ∧
        (s.apply cfg (.drop i)).2.tickets = s.tickets.set i { t with released := true } := by
  have h := Reachable.sound hr
  have hb := h.balanced
  refine ⟨⟨hb.vram, hb.vram_le, hb.enc, hb.enc_le, hb.vms_le⟩, ⟨h.entries, h.owner⟩, apply_error s, ?_⟩
  intro i t ht
  split
  · rename_i hreleased
    exact drop_released ht hreleased
  · rename_i hlive
    rw [Bool.not_eq_true] at hlive
    obtain ⟨howner, vm, hvm⟩ := h.live ht hlive
    rw [drop_live ht hlive]
    exact ⟨howner, (Ledger.release_of_lookup hvm).2.2, rfl⟩

/-- Two VMs come, one grows, goes and comes again; its first ticket is dropped a second time. -/
def readmission : List Op :=
  [.admitVm (.new "a" 1 8000) (.streaming 4000) 0, .admitVm (.new "b" 2 8000) (.vram 2000) 5, .adjustVram "a" 5000,
    .drop 0, .admitVm (.new "a" 1 8000) (.vram 1000) 9, .drop 0]

theorem ledger_invariant_readmission : ∃ s, Lts.run (step .default) new readmission = some s ∧
    s.ledger.vramUsedMb = 3000 ∧ s.ledger.vramUsedMb.toNat = s.ledger.reservedMb := by
  refine ⟨_, rfl, by decide, ?_⟩
  exact (ledger_invariant .default ⟨readmission, rfl⟩).1.1

/-! ### Per-VM ceilings -/

/-- Every live VM holds at most its own ceiling. -/
def WithinCeilings (s : Fleet) : Prop :=
  ∀ id vm, s.ledger.vms.lookup id = some vm → vm.vramReservedMb ≤ vm.cfg.vramCapMb

/-- A revision that the free budget admits stays within the ceiling of its VM. -/
def RespectsCeiling (cfg : BrokerConfig) (s : Fleet) : Op → Prop
  | .adjustVram vmId newMb => ∀ vm, s.ledger.vms.lookup vmId = some vm →
      newMb ≤ vm.vramReservedMb ∨ newMb - vm.vramReservedMb ≤ s.ledger.available cfg → newMb ≤ vm.cfg.vramCapMb
  | _ => True

/-- Putting one entry in keeps the ceilings exactly when the entry is within its own. -/
private theorem withinCeilings_insert {vms : AList fun _ : String => VmState} {a : String} {vm : VmState}
    (h : ∀ id vm, vms.lookup id = some vm → vm.vramReservedMb ≤ vm.cfg.vramCapMb) :
    (∀ id vm', (vms.insert a vm).lookup id = some vm' → vm'.vramReservedMb ≤ vm'.cfg.vramCapMb) ↔
      vm.vramReservedMb ≤ vm.cfg.vramCapMb := by
  refine ⟨fun hall => hall a vm (AList.lookup_insert _), fun hvm id vm' hlookup => ?_⟩
  by_cases hid : id = a
  · subst hid
    rw [AList.lookup_insert, Option.some_inj] at hlookup
    rw [← hlookup]
    exact hvm
  · rw [AList.lookup_insert_ne hid] at hlookup
    exact h id vm' hlookup

private theorem withinCeilings_kept {vmId : String} {vm vm' : VmState} {st : Ledger}
    (hk : Ledger.Kept vmId vm vm' s.ledger st) (h : s.WithinCeilings) : WithinCeilings { s with ledger := st } := by
  unfold WithinCeilings
  rw [hk.eq]
  refine (withinCeilings_insert h).2 ?_
  rw [hk.same.vramReservedMb, hk.same.cfg]
  exact h vmId vm hk.live

private theorem withinCeilings_release (vmId : String) (h : s.WithinCeilings) (id : String) (vm : VmState)
    (hlookup : (s.ledger.release vmId).vms.lookup id = some vm) : vm.vramReservedMb ≤ vm.cfg.vramCapMb := by
  cases hvm : s.ledger.vms.lookup vmId with
  | none =>
    unfold Ledger.release at hlookup
    rw [hvm] at hlookup
    exact h id vm hlookup
  | some vm' =>
    rw [(Ledger.release_of_lookup hvm).2.2] at hlookup
    by_cases hid : id = vmId
    · subst hid
      rw [AList.lookup_erase] at hlookup
      cases hlookup
    · rw [AList.lookup_erase_ne hid] at hlookup
      exact h id vm hlookup

/-- One step keeps the ceilings exactly when it respects them: admission checks its own, and only revisions do not. -/
private theorem withinCeilings_apply (op : Op) (h : s.WithinCeilings) :
    (s.apply cfg op).2.WithinCeilings ↔ s.RespectsCeiling cfg op := by
  cases op with
  | admitVm vmCfg req now =>
    refine iff_of_true ?_ trivial
    rcases hr : s.ledger.admitVm cfg vmCfg req now with ⟨r, ledger⟩
    rcases Ledger.admitVm_cases hr with ⟨e, rfl, rfl⟩ | ⟨rfl, vm, ha⟩
    · simp only [apply, hr]
      exact h
    · simp only [apply, hr, WithinCeilings, ha.vms]
      refine (withinCeilings_insert h).2 ?_
      rw [ha.vm_vram, ha.vm_cfg]
      exact ha.cap
  | adjustVram vmId newMb =>
    rcases hr : s.ledger.adjustVram cfg vmId newMb with ⟨r, ledger⟩
    rcases Ledger.adjustVram_cases hr with ⟨e, rfl, rfl, hreject⟩ | ⟨rfl, vm, ha⟩
    · simp only [apply, hr]
      exact iff_of_true h fun vm hvm hfits => absurd hfits (hreject vm hvm)
    · simp only [apply, hr, WithinCeilings, ha.vms]
      rw [withinCeilings_insert h]
      constructor
      · intro hle vm' hvm' _
        rw [ha.live, Option.some_inj] at hvm'
        rw [← hvm']
        exact hle
      · intro hrespects
        exact hrespects vm ha.live ha.fits
  | begin vmId now =>
    refine iff_of_true ?_ trivial
    rcases hr : s.ledger.begin cfg vmId now with ⟨r, ledger⟩
    rcases Ledger.begin_cases hr with ⟨e, rfl, rfl⟩ | ⟨b, vm, vm', rfl, hk⟩
    · simp only [apply, hr]
      exact h
    · simp only [apply, hr]
      exact withinCeilings_kept hk h
  | record vmId gpuUs =>
    refine iff_of_true ?_ trivial
    rcases hr : s.ledger.record cfg vmId gpuUs with ⟨r, ledger⟩
    rcases Ledger.record_cases hr with rfl | ⟨vm, vm', hk⟩
    · simp only [apply, hr]
      exact h
    · simp only [apply, hr]
      exact withinCeilings_kept hk h
  | drop i =>
    refine iff_of_true ?_ trivial
    cases ht : s.tickets[i]? with
    | none =>
      simp only [apply, ht]
      exact h
    | some t =>
      cases hreleased : t.released with
      | true =>
        rw [drop_released ht hreleased]
        exact h
      | false =>
        rw [drop_live ht hreleased]
        exact withinCeilings_release t.vmId h

/-- Along every run of the broker the ceilings hold in every state exactly when every revision that the free budget
admits stays within the ceiling of its VM. -/
theorem ceilings_iff (cfg : BrokerConfig) (ops : List Op) :
    Lts.Always (step cfg) WithinCeilings new ops ↔ Lts.Along (step cfg) (RespectsCeiling cfg) new ops := by
  refine Lts.always_iff_along (I := fun _ => True) (fun _ _ _ _ _ => trivial) ?_ trivial ?_
    (Lts.run_isSome (fun _ _ => rfl) new ops)
  · intro s op s' _ h hs
    cases hs
    exact withinCeilings_apply op h
  · intro id vm hlookup
    rw [new, Ledger.new, AList.lookup_empty] at hlookup
    cases hlookup

/-- A VM with a ceiling of 256 MB is admitted with all of it and then grows to 1000 MB. -/
theorem ceiling_exceeded_by_growth :
    ¬ Lts.Always (step .default) WithinCeilings new
      [.admitVm (.new "a" 1 256) (.vram 256) 0, .adjustVram "a" 1000] := by
  rintro ⟨-, h⟩
  have h' := ((h _ rfl).2 _ rfl) "a" _ rfl
  revert h'
  decide

end Fleet

end Infinigpu
