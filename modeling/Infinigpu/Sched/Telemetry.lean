import Infinigpu.Sched.Fleet
import Mathlib.Data.List.Sort
import Mathlib.Data.String.Basic

/-!
# What the fleet view tells

`GpuBroker::fleet_view` reads the ledger into a row for each VM, sorted by VM id.  A VM's row is its own doing: a run
of the fleet restricts to the calls of one VM that were granted (`Observed.served`), and a broker that gets these
calls alone answers each of them as the shared one did and shows the same row.

* `Ledger.begin_congr`, `Ledger.record_congr`, `Ledger.adjust_alone`, `Ledger.admit_alone`: what a call is answered
  does not depend on the other entries, where it is granted;
* `Observed.mirrors`: the invariant of the shared run and the restricted one;
* `Observed.shown`: the view in every state of every run.
-/

namespace Infinigpu

/-- The row of one VM. -/
structure VmStat where
  vmId : String
  weight : UInt32
  priority : PriorityTier
  vramReservedMb : UInt64
  tokensUs : Int64
  gpuTimeUsedUs : UInt64
  vruntimeUs : UInt64
  submissions : UInt64
  throttleEvents : UInt64
  watchdogTrips : UInt64
deriving DecidableEq

def VmState.stat (v : VmState) : VmStat where
  vmId := v.cfg.vmId
  weight := v.cfg.weight
  priority := v.cfg.priority
  vramReservedMb := v.vramReservedMb
  tokensUs := v.tokensUs
  gpuTimeUsedUs := v.gpuTimeUsedUs
  vruntimeUs := v.vruntimeUs
  submissions := v.submissions
  throttleEvents := v.throttleEvents
  watchdogTrips := v.watchdogTrips

/-- Nothing has been counted yet. -/
structure VmState.Uncounted (vm : VmState) : Prop where
  gpuTime : vm.gpuTimeUsedUs = 0
  vruntime : vm.vruntimeUs = 0
  submissions : vm.submissions = 0
  throttles : vm.throttleEvents = 0
  trips : vm.watchdogTrips = 0

structure FleetView where
  totalVramMb : UInt64
  vramUsedMb : UInt64
  vramFreeMb : UInt64
  admittedVms : UInt32
  maxConcurrentGpuVms : UInt32
  encSessionsUsed : UInt32
  maxEncSessions : Option UInt32
  vms : List VmStat
deriving DecidableEq

namespace Ledger

/-- A live capacity snapshot.  The hash map hands out its entries in some order, which the sort undoes. -/
def fleetView (cfg : BrokerConfig) (st : Ledger) : FleetView where
  totalVramMb := cfg.totalVramMb
  vramUsedMb := st.vramUsedMb
  vramFreeMb := st.available cfg
  admittedVms := st.vmCount
  maxConcurrentGpuVms := cfg.maxConcurrentGpuVms
  encSessionsUsed := st.encSessionsUsed
  maxEncSessions := cfg.maxEncSessions
  vms := (st.vms.entries.map fun e => e.2.stat).insertionSort fun a b => a.vmId ≤ b.vmId

variable {cfg : BrokerConfig} {st st' other : Ledger} {id : String} {vm : VmState}

/-- Every entry is filed under its own VM. -/
def Named (st : Ledger) : Prop := ∀ id vm, st.vms.lookup id = some vm → vm.cfg.vmId = id

private theorem Named.insert (h : Named st) (hvm : vm.cfg.vmId = id) (hvms : st'.vms = st.vms.insert id vm) :
    Named st' := by
  intro id' vm' hlookup
  rw [hvms] at hlookup
  by_cases hid : id' = id
  · rw [hid, AList.lookup_insert, Option.some_inj] at hlookup
    rw [← hlookup, hvm, hid]
  · rw [AList.lookup_insert_ne hid] at hlookup
    exact h id' vm' hlookup

private theorem Named.release (h : Named st) (vmId : String) : Named (st.release vmId) := by
  intro id vm hlookup
  cases hvm : st.vms.lookup vmId with
  | none =>
    unfold Ledger.release at hlookup
    rw [hvm] at hlookup
    exact h id vm hlookup
  | some vm' =>
    rw [(release_of_lookup hvm).2.2] at hlookup
    by_cases hid : id = vmId
    · rw [hid, AList.lookup_erase] at hlookup
      cases hlookup
    · rw [AList.lookup_erase_ne hid] at hlookup
      exact h id vm hlookup

/-! ### The rows -/

private theorem mem_rows (h : Named st) (row : VmStat) :
    row ∈ (st.fleetView cfg).vms ↔ ∃ vm, st.vms.lookup row.vmId = some vm ∧ vm.stat = row := by
  unfold fleetView
  rw [List.mem_insertionSort, List.mem_map]
  constructor
  · rintro ⟨⟨id, vm⟩, hmem, rfl⟩
    have hlookup : st.vms.lookup id = some vm := AList.mem_lookup_iff.2 hmem
    refine ⟨vm, ?_, rfl⟩
    show st.vms.lookup vm.cfg.vmId = some vm
    rw [h id vm hlookup, hlookup]
  · rintro ⟨vm, hlookup, hrow⟩
    exact ⟨⟨row.vmId, vm⟩, AList.mem_lookup_iff.1 hlookup, hrow⟩

private theorem ids_eq_keys (h : Named st) :
    (st.vms.entries.map fun e => e.2.stat).map VmStat.vmId = st.vms.keys := by
  unfold AList.keys List.keys
  rw [List.map_map]
  refine List.map_congr_left fun e he => ?_
  obtain ⟨id, vm⟩ := e
  exact h id vm (AList.mem_lookup_iff.2 he)

/-- The rows come in the order of the VM ids, no id twice. -/
private theorem rows_ascending (h : Named st) : (st.fleetView cfg).vms.Pairwise fun a b => a.vmId < b.vmId := by
  have hsorted := List.pairwise_insertionSort (fun a b : VmStat => a.vmId ≤ b.vmId)
    (st.vms.entries.map fun e => e.2.stat)
  have hdistinct : ((st.fleetView cfg).vms.map VmStat.vmId).Nodup := by
    refine ((List.perm_insertionSort _ _).map VmStat.vmId).nodup_iff.2 ?_
    rw [ids_eq_keys h]
    exact st.vms.keys_nodup
  have hne := List.pairwise_map.1 hdistinct
  exact (hsorted.and hne).imp fun h => lt_of_le_of_ne h.1 h.2

/-- A sum over the entries is the sum over the rows. -/
private theorem sum_rows (f : VmStat → Nat) :
    ((st.fleetView cfg).vms.map f).sum = Keyed.total (fun vm => f vm.stat) st.vms := by
  unfold Keyed.total fleetView
  rw [((List.perm_insertionSort _ _).map f).sum_nat, List.map_map]
  rfl

private theorem length_rows : (st.fleetView cfg).vms.length = st.vms.entries.length := by
  unfold fleetView
  rw [List.length_insertionSort, List.length_map]

/-! ### One VM alone -/

/-- The ledger holds this VM and no other. -/
structure Only (id : String) (vm : VmState) (st : Ledger) : Prop where
  here : st.vms.lookup id = some vm
  others : ∀ id', id' ≠ id → st.vms.lookup id' = none

private theorem Only.entries (h : Only id vm st) : st.vms.entries = [⟨id, vm⟩] := by
  have hnodup : st.vms.entries.Nodup := st.vms.nodupKeys.nodup
  have hmem : ∀ e, e ∈ st.vms.entries ↔ e ∈ [(⟨id, vm⟩ : Sigma fun _ : String => VmState)] := by
    rintro ⟨id', vm'⟩
    rw [← AList.mem_lookup_iff, List.mem_singleton]
    by_cases hid : id' = id
    · subst hid
      rw [h.here]
      constructor
      · intro he
        cases he
        rfl
      · intro he
        cases he
        rfl
    · rw [h.others id' hid]
      refine iff_of_false nofun fun he => ?_
      cases he
      exact hid rfl
  exact List.perm_singleton.1 ((List.perm_ext_iff_of_nodup hnodup (List.nodup_singleton _)).2 hmem)

private theorem Only.rows (h : Only id vm st) : (st.fleetView cfg).vms = [vm.stat] := by
  unfold fleetView
  rw [h.entries]
  rfl

theorem Only.used (h : Only id vm st) (hb : Balanced cfg st) : st.vramUsedMb.toNat = vm.vramReservedMb.toNat := by
  rw [hb.vram, reservedMb, Keyed.total, h.entries]
  exact Nat.add_zero _

private theorem Only.insert {vm' : VmState} (h : Only id vm st) (hvms : st'.vms = st.vms.insert id vm') :
    Only id vm' st' where
  here := by rw [hvms, AList.lookup_insert]
  others id' hid := by rw [hvms, AList.lookup_insert_ne hid, h.others id' hid]

/-! ### Calls on a shared ledger and on one of their own

`st` is the shared ledger, `other` one where the VM has the same entry. -/

theorem begin_congr (cfg : BrokerConfig) (now : UInt64) (h : st.vms.lookup id = some vm)
    (h' : other.vms.lookup id = some vm) :
    ∃ r vm', st.begin cfg id now = (.ok r, { st with vms := st.vms.insert id vm' }) ∧
      other.begin cfg id now = (.ok r, { other with vms := other.vms.insert id vm' }) := by
  unfold begin
  rw [h, h']
  simp only
  split
  · exact ⟨_, _, rfl, rfl⟩
  · exact ⟨_, _, rfl, rfl⟩

theorem record_congr (cfg : BrokerConfig) (gpuUs : UInt64) (h : st.vms.lookup id = some vm)
    (h' : other.vms.lookup id = some vm) :
    ∃ r vm', st.record cfg id gpuUs = (r, { st with vms := st.vms.insert id vm' }) ∧
      other.record cfg id gpuUs = (r, { other with vms := other.vms.insert id vm' }) := by
  unfold record
  rw [h, h']
  simp only
  split
  · exact ⟨_, _, rfl, rfl⟩
  · exact ⟨_, _, rfl, rfl⟩

/-- The ledger where less is in use has more available. -/
private theorem available_mono (cfg : BrokerConfig) (h : other.vramUsedMb.toNat ≤ st.vramUsedMb.toNat) :
    st.available cfg ≤ other.available cfg := by
  rw [UInt64.le_iff_toNat_le, available_toNat, available_toNat]
  omega

/-- A revision that the shared ledger grants is granted where less is in use. -/
theorem adjust_alone {newMb r : UInt64} (h : st.vms.lookup id = some vm) (h' : other.vms.lookup id = some vm)
    (hused : other.vramUsedMb.toNat ≤ st.vramUsedMb.toNat) (hr : st.adjustVram cfg id newMb = (.ok r, st')) :
    ∃ other', other.adjustVram cfg id newMb = (.ok r, other') ∧
      st'.vms = st.vms.insert id { vm with vramReservedMb := newMb } ∧
      other'.vms = other.vms.insert id { vm with vramReservedMb := newMb } := by
  have hle := available_mono cfg hused
  rcases adjustVram_cases hr with ⟨e, herr, -⟩ | ⟨hok, vm₁, ha⟩
  · cases herr
  rw [Except.ok.injEq] at hok
  rw [ha.live, Option.some_inj] at h
  subst h hok
  rcases hr' : other.adjustVram cfg id r with ⟨r', other'⟩
  rcases adjustVram_cases hr' with ⟨e, -, -, hreject⟩ | ⟨rfl, vm₂, ha'⟩
  · refine absurd ?_ (hreject vm₁ h')
    rcases ha.fits with hshrink | hfits
    · exact .inl hshrink
    · exact .inr (UInt64.le_trans hfits hle)
  · have hvm := ha'.live
    rw [h', Option.some_inj] at hvm
    subst hvm
    exact ⟨other', rfl, ha.vms, ha'.vms⟩

/-- An admission that the shared ledger grants is granted by an empty one, with the same entry. -/
theorem admit_alone {vmCfg : VmConfig} {req : AdmitRequest} {now : UInt64} {t : VmTicket}
    (hr : st.admitVm cfg vmCfg req now = (.ok t, st')) :
    ∃ vm other', new.admitVm cfg vmCfg req now = (.ok t, other') ∧ vm.Uncounted ∧
      st'.vms = st.vms.insert vmCfg.vmId vm ∧ other'.vms = new.vms.insert vmCfg.vmId vm := by
  have hfree : st.available cfg ≤ new.available cfg := available_mono cfg (Nat.zero_le _)
  unfold admitVm at hr ⊢
  split at hr
  · cases hr
  split at hr
  · cases hr
  rename_i hroom
  split at hr
  · cases hr
  rename_i hcap
  split at hr
  · cases hr
  rename_i hencoder
  split at hr
  · cases hr
  rename_i hfits
  cases hr
  -- the same gates, with nothing admitted, held or reserved
  have habsent : ¬ ((new.vms.lookup vmCfg.vmId).isSome = true) := by
    rw [new, AList.lookup_empty]
    exact Bool.false_ne_true
  have hroom' : ¬ new.vmCount ≥ cfg.maxConcurrentGpuVms := by
    intro hfull
    have hzero : (new.vmCount).toNat = 0 := rfl
    rw [ge_iff_le, UInt32.le_iff_toNat_le] at hfull hroom
    omega
  have hencoder' : (if req.needsEncoder = true then new.encodersExhausted cfg else none) = none := by
    cases hneeds : req.needsEncoder with
    | false => rfl
    | true =>
      rw [hneeds, if_pos rfl] at hencoder
      rw [if_pos rfl]
      unfold encodersExhausted at hencoder ⊢
      cases hmax : cfg.maxEncSessions with
      | none => rfl
      | some cap =>
        rw [hmax, Option.filter_some] at hencoder
        rw [Option.filter_some, if_neg]
        intro hzero
        rw [if_pos] at hencoder
        · cases hencoder
        · rw [decide_eq_true_eq, ge_iff_le, UInt32.le_iff_toNat_le] at hzero ⊢
          have hnone : new.encSessionsUsed.toNat = 0 := rfl
          omega
  have hfits' : ¬ req.vramMb > new.available cfg :=
    UInt64.not_lt.2 (UInt64.le_trans (UInt64.not_lt.1 hfits) hfree)
  rw [if_neg habsent, if_neg hroom', if_neg hcap, hencoder']
  simp only
  rw [if_neg hfits']
  exact ⟨_, _, rfl, ⟨rfl, rfl, rfl, rfl, rfl⟩, rfl, rfl⟩

end Ledger

namespace Fleet

variable {cfg : BrokerConfig} {s : Fleet}

/-- The VM a call names.  The drop of a ticket names none. -/
def Op.target : Op → Option String
  | .admitVm vmCfg _ _ => some vmCfg.vmId
  | .adjustVram vmId _ => some vmId
  | .begin vmId _ => some vmId
  | .record vmId _ => some vmId
  | .drop _ => none

/-- The calls one after the other, with their answers. -/
def replies (cfg : BrokerConfig) (s : Fleet) : List Op → List Reply × Fleet
  | [] => ([], s)
  | op :: ops =>
    let (reply, s') := s.apply cfg op
    let (rest, t) := replies cfg s' ops
    (reply :: rest, t)

private theorem replies_cons (op : Op) (ops : List Op) :
    replies cfg s (op :: ops) =
      ((s.apply cfg op).1 :: (replies cfg (s.apply cfg op).2 ops).1, (replies cfg (s.apply cfg op).2 ops).2) := rfl

private theorem replies_concat (ops : List Op) (op : Op) :
    replies cfg s (ops ++ [op]) =
      ((replies cfg s ops).1 ++ [((replies cfg s ops).2.apply cfg op).1],
      ((replies cfg s ops).2.apply cfg op).2) := by
  induction ops generalizing s with
  | nil => rfl
  | cons o ops ih =>
    rw [List.cons_append, replies_cons, replies_cons, ih]
    rfl

private theorem reachable_replies (ops : List Op) (h : Lts.Reachable (step cfg) new s) :
    Lts.Reachable (step cfg) new (replies cfg s ops).2 := by
  induction ops generalizing s with
  | nil => exact h
  | cons op ops ih => exact ih (h.tail (a := op) rfl)

/-- A call leaves the entries of the VMs it does not name, but for a drop, which may reap one. -/
private theorem apply_others (cfg : BrokerConfig) (s : Fleet) (op : Op) {id : String} (h : op.target ≠ some id) :
    (s.apply cfg op).2.ledger.vms.lookup id = none ∨
      (s.apply cfg op).2.ledger.vms.lookup id = s.ledger.vms.lookup id := by
  cases op with
  | admitVm vmCfg req now =>
    have hid : id ≠ vmCfg.vmId := fun e => h (congrArg some e.symm)
    rcases hr : s.ledger.admitVm cfg vmCfg req now with ⟨r, ledger⟩
    rcases Ledger.admitVm_cases hr with ⟨e, rfl, rfl⟩ | ⟨rfl, vm, ha⟩
    · simp only [apply, hr]
      exact .inr trivial
    · simp only [apply, hr, ha.vms]
      exact .inr (AList.lookup_insert_ne hid)
  | adjustVram vmId newMb =>
    have hid : id ≠ vmId := fun e => h (congrArg some e.symm)
    rcases hr : s.ledger.adjustVram cfg vmId newMb with ⟨r, ledger⟩
    rcases Ledger.adjustVram_cases hr with ⟨e, rfl, rfl, -⟩ | ⟨rfl, vm, ha⟩
    · simp only [apply, hr]
      exact .inr trivial
    · simp only [apply, hr, ha.vms]
      exact .inr (AList.lookup_insert_ne hid)
  | begin vmId now =>
    have hid : id ≠ vmId := fun e => h (congrArg some e.symm)
    rcases hr : s.ledger.begin cfg vmId now with ⟨r, ledger⟩
    rcases Ledger.begin_cases hr with ⟨e, rfl, rfl⟩ | ⟨b, vm, vm', rfl, hk⟩
    · simp only [apply, hr]
      exact .inr trivial
    · simp only [apply, hr, hk.eq]
      exact .inr (AList.lookup_insert_ne hid)
  | record vmId gpuUs =>
    have hid : id ≠ vmId := fun e => h (congrArg some e.symm)
    rcases hr : s.ledger.record cfg vmId gpuUs with ⟨r, ledger⟩
    rcases Ledger.record_cases hr with rfl | ⟨vm, vm', hk⟩
    · simp only [apply, hr]
      exact .inr trivial
    · simp only [apply, hr, hk.eq]
      exact .inr (AList.lookup_insert_ne hid)
  | drop i =>
    unfold apply
    simp only
    split
    · exact .inr rfl
    · rename_i t _
      unfold VmTicket.drop
      split
      · exact .inr rfl
      · simp only
        cases hvm : s.ledger.vms.lookup t.vmId with
        | none =>
          unfold Ledger.release
          rw [hvm]
          exact .inr rfl
        | some vm =>
          rw [(Ledger.release_of_lookup hvm).2.2]
          by_cases hid : id = t.vmId
          · rw [hid]
            exact .inl (AList.lookup_erase _ _)
          · exact .inr (AList.lookup_erase_ne hid)

private theorem apply_named (op : Op) (h : s.ledger.Named) : (s.apply cfg op).2.ledger.Named := by
  cases op with
  | admitVm vmCfg req now =>
    rcases hr : s.ledger.admitVm cfg vmCfg req now with ⟨r, ledger⟩
    rcases Ledger.admitVm_cases hr with ⟨e, rfl, rfl⟩ | ⟨rfl, vm, ha⟩
    · simp only [apply, hr]
      exact h
    · simp only [apply, hr]
      exact h.insert (by rw [ha.vm_cfg]) ha.vms
  | adjustVram vmId newMb =>
    rcases hr : s.ledger.adjustVram cfg vmId newMb with ⟨r, ledger⟩
    rcases Ledger.adjustVram_cases hr with ⟨e, rfl, rfl, -⟩ | ⟨rfl, vm, ha⟩
    · simp only [apply, hr]
      exact h
    · simp only [apply, hr]
      refine h.insert ?_ ha.vms
      exact h vmId vm ha.live
  | begin vmId now =>
    rcases hr : s.ledger.begin cfg vmId now with ⟨r, ledger⟩
    rcases Ledger.begin_cases hr with ⟨e, rfl, rfl⟩ | ⟨b, vm, vm', rfl, hk⟩
    · simp only [apply, hr]
      exact h
    · simp only [apply, hr, hk.eq]
      exact h.insert (by rw [hk.same.cfg, h vmId vm hk.live]) rfl
  | record vmId gpuUs =>
    rcases hr : s.ledger.record cfg vmId gpuUs with ⟨r, ledger⟩
    rcases Ledger.record_cases hr with rfl | ⟨vm, vm', hk⟩
    · simp only [apply, hr]
      exact h
    · simp only [apply, hr, hk.eq]
      exact h.insert (by rw [hk.same.cfg, h vmId vm hk.live]) rfl
  | drop i =>
    unfold apply
    simp only
    split
    · exact h
    · rename_i t _
      unfold VmTicket.drop
      split
      · exact h
      · exact h.release t.vmId

end Fleet

/-- The fleet with, for each VM, the calls that named it and were granted since its admission, and their answers. -/
structure Observed where
  fleet : Fleet
  served : String → List (Fleet.Op × Fleet.Reply)

namespace Observed

def new : Observed where
  fleet := .new
  served _ := []

def step (cfg : BrokerConfig) (o : Observed) (op : Fleet.Op) : Option Observed :=
  let (reply, fleet) := o.fleet.apply cfg op
  some { fleet
         served := fun id =>
          if (fleet.ledger.vms.lookup id).isNone then []
          else if op.target = some id ∧ reply.isError = false then o.served id ++ [(op, reply)]
          else o.served id }

/-- A broker of its own for one VM: only the calls it was granted. -/
def alone (cfg : BrokerConfig) (o : Observed) (id : String) : List Fleet.Reply × Fleet :=
  Fleet.replies cfg .new ((o.served id).map Prod.fst)

/-- A VM that is not in the ledger has been served nothing; one that is has its entry in a broker of its own too. -/
structure Mirrored (cfg : BrokerConfig) (o : Observed) (id : String) : Prop where
  absent : o.fleet.ledger.vms.lookup id = none → o.served id = []
  answers : (o.alone cfg id).1 = (o.served id).map Prod.snd
  only : ∀ vm, o.fleet.ledger.vms.lookup id = some vm → (o.alone cfg id).2.ledger.Only id vm

variable {cfg : BrokerConfig} {o o' : Observed} {op : Fleet.Op} {id : String}

private theorem alone_sound (cfg : BrokerConfig) (o : Observed) (id : String) : Fleet.Sound cfg (o.alone cfg id).2 :=
  Fleet.Reachable.sound (Fleet.reachable_replies _ (.refl _))

/-- A granted call, answered alike by the broker of its own. -/
private theorem Mirrored.granted {vm' : VmState} {reply : Fleet.Reply} (hm : Mirrored cfg o id)
    (hserved : o'.served id = o.served id ++ [(op, reply)]) (hlookup : o'.fleet.ledger.vms.lookup id = some vm')
    (hreply : ((o.alone cfg id).2.apply cfg op).1 = reply)
    (honly : ((o.alone cfg id).2.apply cfg op).2.ledger.Only id vm') : Mirrored cfg o' id := by
  have halone : o'.alone cfg id = ((o.alone cfg id).1 ++ [reply], ((o.alone cfg id).2.apply cfg op).2) := by
    unfold Observed.alone at hreply ⊢
    rw [hserved, List.map_append, List.map_singleton, Fleet.replies_concat, hreply]
  refine ⟨fun hnone => ?_, ?_, fun vm hvm => ?_⟩
  · rw [hlookup] at hnone
    cases hnone
  · rw [halone, hserved, List.map_append, ← hm.answers]
    rfl
  · rw [hlookup, Option.some_inj] at hvm
    subst hvm
    rw [halone]
    exact honly

/-- A granted call of a VM that is in the ledger afterwards. -/
private theorem mirrored_target (hm : Mirrored cfg o id) (hb : o.fleet.ledger.Balanced cfg)
    (hserved : o'.served id = o.served id ++ [(op, (o.fleet.apply cfg op).1)])
    (hfleet : o'.fleet = (o.fleet.apply cfg op).2) (htarget : op.target = some id)
    (hgranted : (o.fleet.apply cfg op).1.isError = false) (hlive : (o'.fleet.ledger.vms.lookup id).isSome) :
    Mirrored cfg o' id := by
  have hbAlone := (alone_sound cfg o id).balanced
  cases op with
  | admitVm vmCfg req now =>
    obtain rfl : vmCfg.vmId = id := Option.some_inj.1 htarget
    rcases hr : o.fleet.ledger.admitVm cfg vmCfg req now with ⟨r, ledger⟩
    rcases Ledger.admitVm_cases hr with ⟨e, rfl, rfl⟩ | ⟨rfl, vm, ha⟩
    · simp only [Fleet.apply, hr] at hgranted
      cases hgranted
    · obtain ⟨vm', other', hother, -, hvms, hvms'⟩ := Ledger.admit_alone hr
      -- nothing has been served before, so that the broker of its own is a new one
      have hnew : (o.alone cfg vmCfg.vmId).2 = .new := by
        unfold Observed.alone
        rw [hm.absent ha.absent]
        rfl
      simp only [Fleet.apply, hr] at hserved hfleet
      have hlookup : o'.fleet.ledger.vms.lookup vmCfg.vmId = some vm' := by
        rw [hfleet, hvms, AList.lookup_insert]
      refine hm.granted hserved hlookup ?_ ?_
      · rw [hnew]
        simp only [Fleet.apply, Fleet.new, hother]
      · rw [hnew]
        simp only [Fleet.apply, Fleet.new, hother]
        refine ⟨?_, fun id' hid => ?_⟩
        · rw [hvms', AList.lookup_insert]
        · rw [hvms', AList.lookup_insert_ne hid, Ledger.new, AList.lookup_empty]
  | adjustVram vmId newMb =>
    obtain rfl : vmId = id := Option.some_inj.1 htarget
    rcases hr : o.fleet.ledger.adjustVram cfg vmId newMb with ⟨r, ledger⟩
    rcases Ledger.adjustVram_cases hr with ⟨e, rfl, rfl, -⟩ | ⟨rfl, vm, ha⟩
    · simp only [Fleet.apply, hr] at hgranted
      cases hgranted
    · have honly := hm.only vm ha.live
      have hused : (o.alone cfg vmId).2.ledger.vramUsedMb.toNat ≤ o.fleet.ledger.vramUsedMb.toNat := by
        rw [honly.used hbAlone, hb.vram]
        exact Keyed.le_total (fun vm => vm.vramReservedMb.toNat) ha.live
      obtain ⟨other', hother, hvms, hvms'⟩ := Ledger.adjust_alone ha.live honly.here hused hr
      simp only [Fleet.apply, hr] at hserved hfleet
      have hlookup : o'.fleet.ledger.vms.lookup vmId = some { vm with vramReservedMb := newMb } := by
        rw [hfleet, hvms, AList.lookup_insert]
      refine hm.granted hserved hlookup ?_ ?_
      · simp only [Fleet.apply, hother]
      · simp only [Fleet.apply, hother]
        exact honly.insert hvms'
  | begin vmId now =>
    obtain rfl : vmId = id := Option.some_inj.1 htarget
    cases hlookup : o.fleet.ledger.vms.lookup vmId with
    | none =>
      simp only [Fleet.apply, Ledger.begin, hlookup] at hgranted
      cases hgranted
    | some vm =>
      have honly := hm.only vm hlookup
      obtain ⟨r, vm', hr, hother⟩ := Ledger.begin_congr cfg now hlookup honly.here
      simp only [Fleet.apply, hr] at hserved hfleet
      have hlookup' : o'.fleet.ledger.vms.lookup vmId = some vm' := by
        rw [hfleet, AList.lookup_insert]
      refine hm.granted hserved hlookup' ?_ ?_
      · simp only [Fleet.apply, hother]
      · simp only [Fleet.apply, hother]
        exact honly.insert rfl
  | record vmId gpuUs =>
    obtain rfl : vmId = id := Option.some_inj.1 htarget
    cases hlookup : o.fleet.ledger.vms.lookup vmId with
    | none =>
      simp only [Fleet.apply, Ledger.record, hlookup] at hfleet
      rw [hfleet, hlookup] at hlive
      cases hlive
    | some vm =>
      have honly := hm.only vm hlookup
      obtain ⟨r, vm', hr, hother⟩ := Ledger.record_congr cfg gpuUs hlookup honly.here
      simp only [Fleet.apply, hr] at hserved hfleet
      have hlookup' : o'.fleet.ledger.vms.lookup vmId = some vm' := by
        rw [hfleet, AList.lookup_insert]
      refine hm.granted hserved hlookup' ?_ ?_
      · simp only [Fleet.apply, hother]
      · simp only [Fleet.apply, hother]
        exact honly.insert rfl
  | drop i => cases htarget

/-- Nothing of this VM happened. -/
private theorem Mirrored.quiet (hm : Mirrored cfg o id) (hserved : o'.served id = o.served id)
    (hlookup : o'.fleet.ledger.vms.lookup id = o.fleet.ledger.vms.lookup id) : Mirrored cfg o' id := by
  have halone : o'.alone cfg id = o.alone cfg id := by
    unfold Observed.alone
    rw [hserved]
  refine ⟨?_, ?_, ?_⟩
  · rw [hlookup, hserved]
    exact hm.absent
  · rw [halone, hserved]
    exact hm.answers
  · rw [hlookup, halone]
    exact hm.only

/-- The VM is not in the ledger. -/
private theorem Mirrored.gone (hserved : o.served id = []) (hlookup : o.fleet.ledger.vms.lookup id = none) :
    Mirrored cfg o id := by
  refine ⟨fun _ => hserved, ?_, fun vm hvm => ?_⟩
  · unfold Observed.alone
    rw [hserved]
    rfl
  · rw [hlookup] at hvm
    cases hvm

/-! ### The counters of a row -/

/-- The GPU time that a call debits. -/
def gpuTime : Fleet.Op × Fleet.Reply → Nat
  | (.record _ gpuUs, _) => gpuUs.toNat
  | _ => 0

/-- What a completed submission adds, by the GPU time it took. -/
def submitted (f : UInt64 → Nat) : Fleet.Op × Fleet.Reply → Nat
  | (.record _ gpuUs, .record (.ok _)) => f gpuUs
  | _ => 0

/-- The VM was told to wait. -/
def throttled : Fleet.Op × Fleet.Reply → Nat
  | (_, .begin (.ok (.throttled _))) => 1
  | _ => 0

/-- The sum over the calls, in the width of the counters. -/
def tally (f : Fleet.Op × Fleet.Reply → Nat) (calls : List (Fleet.Op × Fleet.Reply)) : UInt64 :=
  UInt64.ofNat (calls.map f).sum

private theorem tally_concat (f : Fleet.Op × Fleet.Reply → Nat) (calls : List (Fleet.Op × Fleet.Reply))
    (call : Fleet.Op × Fleet.Reply) : tally f (calls ++ [call]) = tally f calls + UInt64.ofNat (f call) := by
  unfold tally
  rw [List.map_append, List.map_singleton, List.sum_append, List.sum_singleton, UInt64.ofNat_add]

/-- The counters of a VM are the tallies of its calls. -/
structure Counted (cfg : BrokerConfig) (vm : VmState) (calls : List (Fleet.Op × Fleet.Reply)) : Prop where
  gpuTime : vm.gpuTimeUsedUs = tally gpuTime calls
  vruntime : vm.vruntimeUs = tally (submitted fun gpuUs => gpuUs.toNat * 256 / vm.cfg.effectiveWeightNum.toNat) calls
  submissions : vm.submissions = tally (submitted fun _ => 1) calls
  throttles : vm.throttleEvents = tally throttled calls
  trips : vm.watchdogTrips = tally (submitted fun gpuUs => if gpuUs > cfg.watchdogUs then 1 else 0) calls

/-- A call that adds these amounts to the counters. -/
private theorem Counted.concat {vm vm' : VmState} {calls : List (Fleet.Op × Fleet.Reply)}
    {call : Fleet.Op × Fleet.Reply} (h : Counted cfg vm calls) (hcfg : vm'.cfg = vm.cfg)
    (hgpu : vm'.gpuTimeUsedUs = vm.gpuTimeUsedUs + UInt64.ofNat (Observed.gpuTime call))
    (hvruntime : vm'.vruntimeUs = vm.vruntimeUs +
      UInt64.ofNat (submitted (fun gpuUs => gpuUs.toNat * 256 / vm.cfg.effectiveWeightNum.toNat) call))
    (hsubmissions : vm'.submissions = vm.submissions + UInt64.ofNat (submitted (fun _ => 1) call))
    (hthrottles : vm'.throttleEvents = vm.throttleEvents + UInt64.ofNat (throttled call))
    (htrips : vm'.watchdogTrips = vm.watchdogTrips +
      UInt64.ofNat (submitted (fun gpuUs => if gpuUs > cfg.watchdogUs then 1 else 0) call)) :
    Counted cfg vm' (calls ++ [call]) where
  gpuTime := by rw [tally_concat, hgpu, h.gpuTime]
  vruntime := by rw [tally_concat, hvruntime, h.vruntime, hcfg]
  submissions := by rw [tally_concat, hsubmissions, h.submissions]
  throttles := by rw [tally_concat, hthrottles, h.throttles]
  trips := by rw [tally_concat, htrips, h.trips]

/-- A refill leaves the counters. -/
private theorem refill_counters (cfg : BrokerConfig) (vm : VmState) (now : UInt64) :
    (vm.refill now cfg).gpuTimeUsedUs = vm.gpuTimeUsedUs ∧ (vm.refill now cfg).vruntimeUs = vm.vruntimeUs ∧
      (vm.refill now cfg).submissions = vm.submissions ∧ (vm.refill now cfg).throttleEvents = vm.throttleEvents ∧
      (vm.refill now cfg).watchdogTrips = vm.watchdogTrips := by
  unfold VmState.refill
  simp only
  split
  · exact ⟨rfl, rfl, rfl, rfl, rfl⟩
  · exact ⟨rfl, rfl, rfl, rfl, rfl⟩

/-- What a granted call adds to the counters of its VM. -/
private theorem counted_target {vm' : VmState} (habsent : o.fleet.ledger.vms.lookup id = none → o.served id = [])
    (hc : ∀ vm, o.fleet.ledger.vms.lookup id = some vm → Counted cfg vm (o.served id)) (htarget : op.target = some id)
    (hgranted : (o.fleet.apply cfg op).1.isError = false)
    (hlookup : (o.fleet.apply cfg op).2.ledger.vms.lookup id = some vm') :
    Counted cfg vm' (o.served id ++ [(op, (o.fleet.apply cfg op).1)]) := by
  cases op with
  | admitVm vmCfg req now =>
    obtain rfl : vmCfg.vmId = id := Option.some_inj.1 htarget
    rcases hr : o.fleet.ledger.admitVm cfg vmCfg req now with ⟨r, ledger⟩
    rcases Ledger.admitVm_cases hr with ⟨e, rfl, rfl⟩ | ⟨rfl, vm, ha⟩
    · simp only [Fleet.apply, hr] at hgranted
      cases hgranted
    · obtain ⟨vm', other', -, hzero, hvms, -⟩ := Ledger.admit_alone hr
      simp only [Fleet.apply, hr, hvms, AList.lookup_insert, Option.some_inj] at hlookup ⊢
      subst hlookup
      rw [habsent ha.absent]
      exact ⟨hzero.gpuTime, hzero.vruntime, hzero.submissions, hzero.throttles, hzero.trips⟩
  | adjustVram vmId newMb =>
    obtain rfl : vmId = id := Option.some_inj.1 htarget
    rcases hr : o.fleet.ledger.adjustVram cfg vmId newMb with ⟨r, ledger⟩
    rcases Ledger.adjustVram_cases hr with ⟨e, rfl, rfl, -⟩ | ⟨rfl, vm, ha⟩
    · simp only [Fleet.apply, hr] at hgranted
      cases hgranted
    · simp only [Fleet.apply, hr, ha.vms, AList.lookup_insert, Option.some_inj] at hlookup ⊢
      subst hlookup
      exact (hc vm ha.live).concat rfl (UInt64.add_zero _).symm (UInt64.add_zero _).symm (UInt64.add_zero _).symm
        (UInt64.add_zero _).symm (UInt64.add_zero _).symm
  | begin vmId now =>
    obtain rfl : vmId = id := Option.some_inj.1 htarget
    cases hlive : o.fleet.ledger.vms.lookup vmId with
    | none =>
      simp only [Fleet.apply, Ledger.begin, hlive] at hgranted
      cases hgranted
    | some vm =>
      have hsame := vm.refill_sameLease now cfg
      obtain ⟨hgpu, hvruntime, hsubmissions, hthrottles, htrips⟩ := refill_counters cfg vm now
      simp only [Fleet.apply, Ledger.begin, hlive] at hlookup ⊢
      split at hlookup
      · rename_i hready
        simp only [hready, if_true, AList.lookup_insert, Option.some_inj] at hlookup ⊢
        subst hlookup
        exact (hc vm hlive).concat hsame.cfg (hgpu.trans (UInt64.add_zero _).symm)
          (hvruntime.trans (UInt64.add_zero _).symm) (hsubmissions.trans (UInt64.add_zero _).symm)
          (hthrottles.trans (UInt64.add_zero _).symm) (htrips.trans (UInt64.add_zero _).symm)
      · rename_i hwait
        simp only [hwait, AList.lookup_insert, Option.some_inj] at hlookup ⊢
        subst hlookup
        exact (hc vm hlive).concat hsame.cfg (hgpu.trans (UInt64.add_zero _).symm)
          (hvruntime.trans (UInt64.add_zero _).symm) (hsubmissions.trans (UInt64.add_zero _).symm)
          (congrArg (· + 1) hthrottles) (htrips.trans (UInt64.add_zero _).symm)
  | record vmId gpuUs =>
    obtain rfl : vmId = id := Option.some_inj.1 htarget
    cases hlive : o.fleet.ledger.vms.lookup vmId with
    | none =>
      simp only [Fleet.apply, Ledger.record, hlive] at hlookup
      cases hlookup
    | some vm =>
      have hgpu : vm.gpuTimeUsedUs + gpuUs = vm.gpuTimeUsedUs + UInt64.ofNat gpuUs.toNat := by
        rw [UInt64.ofNat_toNat]
      simp only [Fleet.apply, Ledger.record, hlive] at hlookup ⊢
      split at hlookup
      · -- the division panics before the other counters
        rename_i hweight
        simp only [hweight, if_true, AList.lookup_insert, Option.some_inj] at hlookup ⊢
        subst hlookup
        exact (hc vm hlive).concat rfl hgpu (UInt64.add_zero _).symm
          (UInt64.add_zero _).symm (UInt64.add_zero _).symm (UInt64.add_zero _).symm
      · rename_i hweight
        simp only [hweight, if_false, AList.lookup_insert, Option.some_inj] at hlookup ⊢
        subst hlookup
        refine (hc vm hlive).concat rfl hgpu rfl rfl (UInt64.add_zero _).symm ?_
        unfold submitted
        simp only
        split
        · rfl
        · exact (UInt64.add_zero _).symm
  | drop i => cases htarget

/-- The invariant of a run. -/
structure Mirrors (cfg : BrokerConfig) (o : Observed) : Prop where
  sound : Fleet.Sound cfg o.fleet
  named : o.fleet.ledger.Named
  mirrored : ∀ id, Mirrored cfg o id
  counted : ∀ id vm, o.fleet.ledger.vms.lookup id = some vm → Counted cfg vm (o.served id)

private theorem lookup_new : Observed.new.fleet.ledger.vms.lookup id = none := AList.lookup_empty _

private theorem mirrors_new : Mirrors cfg new where
  sound := Fleet.sound_new cfg
  named id vm hlookup := by
    rw [lookup_new] at hlookup
    cases hlookup
  mirrored _ := .gone rfl lookup_new
  counted id vm hlookup := by
    rw [lookup_new] at hlookup
    cases hlookup

/-- A VM that is in the ledger after a step was served the call, or nothing of it changed. -/
private theorem step_served (hs : step cfg o op = some o') (hlive : (o'.fleet.ledger.vms.lookup id).isSome) :
    (op.target = some id ∧ (o.fleet.apply cfg op).1.isError = false ∧
      o'.served id = o.served id ++ [(op, (o.fleet.apply cfg op).1)]) ∨
    (o'.served id = o.served id ∧ o'.fleet.ledger.vms.lookup id = o.fleet.ledger.vms.lookup id) := by
  have hfleet : o'.fleet = (o.fleet.apply cfg op).2 := by
    cases hs
    rfl
  have hserved : o'.served id =
      if (o'.fleet.ledger.vms.lookup id).isNone then []
      else if op.target = some id ∧ (o.fleet.apply cfg op).1.isError = false then
        o.served id ++ [(op, (o.fleet.apply cfg op).1)]
      else o.served id := by
    cases hs
    rfl
  rw [if_neg (by rw [Option.isNone_iff_eq_none, ← Option.not_isSome_iff_eq_none, not_not]; exact hlive)] at hserved
  by_cases hcall : op.target = some id ∧ (o.fleet.apply cfg op).1.isError = false
  · rw [if_pos hcall] at hserved
    exact .inl ⟨hcall.1, hcall.2, hserved⟩
  · rw [if_neg hcall] at hserved
    refine .inr ⟨hserved, ?_⟩
    by_cases htarget : op.target = some id
    · -- refused, and a refusal changes nothing
      have herr : (o.fleet.apply cfg op).1.isError = true := by
        rw [← Bool.not_eq_false]
        exact fun hok => hcall ⟨htarget, hok⟩
      rw [hfleet, Fleet.apply_error _ _ herr]
    · rcases Fleet.apply_others cfg o.fleet op htarget with hgone | hkept
      · rw [hfleet, hgone] at hlive
        cases hlive
      · rw [hfleet, hkept]

private theorem Mirrors.step (h : Mirrors cfg o) (hs : step cfg o op = some o') : Mirrors cfg o' := by
  have hfleet : o'.fleet = (o.fleet.apply cfg op).2 := by
    cases hs
    rfl
  refine ⟨?_, ?_, fun id => ?_, fun id vm hlookup => ?_⟩
  · rw [hfleet]
    exact Fleet.apply_sound op h.sound
  · rw [hfleet]
    exact Fleet.apply_named op h.named
  · cases hlookup : o'.fleet.ledger.vms.lookup id with
    | none =>
      refine .gone ?_ hlookup
      cases hs
      show (if _ then _ else _) = _
      rw [hlookup, Option.isNone_none, if_pos rfl]
    | some vm =>
      have hlive : (o'.fleet.ledger.vms.lookup id).isSome := by
        rw [hlookup]
        rfl
      rcases step_served hs hlive with ⟨htarget, hgranted, hserved⟩ | ⟨hserved, hsame⟩
      · exact mirrored_target (h.mirrored id) h.sound.balanced hserved hfleet htarget hgranted hlive
      · exact (h.mirrored id).quiet hserved hsame
  · have hlive : (o'.fleet.ledger.vms.lookup id).isSome := by
      rw [hlookup]
      rfl
    rcases step_served hs hlive with ⟨htarget, hgranted, hserved⟩ | ⟨hserved, hsame⟩
    · rw [hserved]
      rw [hfleet] at hlookup
      exact counted_target (h.mirrored id).absent (h.counted id) htarget hgranted hlookup
    · rw [hserved]
      exact h.counted id vm (hsame ▸ hlookup)

theorem mirrors (h : Lts.Reachable (step cfg) new o) : Mirrors cfg o :=
  h.invariant (fun _ _ _ hm hs => hm.step hs) mirrors_new

/-- The observation does not disturb the run. -/
theorem run_fleet (ops : List Fleet.Op) :
    (Lts.run (step cfg) o ops).map Observed.fleet = Lts.run (Fleet.step cfg) o.fleet ops := by
  induction ops generalizing o with
  | nil => rfl
  | cons op ops ih =>
    rw [Lts.run_cons, Lts.run_cons]
    exact ih

def view (cfg : BrokerConfig) (o : Observed) : FleetView := o.fleet.ledger.fleetView cfg

/-- In every state of every run of the shared broker.  Each VM's granted calls get the same answers from a broker that
gets only these calls.  The rows come in the order of the VM ids; a row stands in the view exactly when that broker's
view consists of this row, and its counters are the tallies of the calls.  The VRAM in use is the sum over the rows
and what is free is the rest of the budget, and the rows and the encode sessions are within the policy. -/
theorem shown (h : Lts.Reachable (step cfg) new o) :
    (∀ id, (o.alone cfg id).1 = (o.served id).map Prod.snd) ∧
    ((o.view cfg).vms.Pairwise fun a b => a.vmId < b.vmId) ∧
    (∀ row, row ∈ (o.view cfg).vms ↔ ((o.alone cfg row.vmId).2.ledger.fleetView cfg).vms = [row]) ∧
    (∀ row ∈ (o.view cfg).vms,
      row.gpuTimeUsedUs = tally gpuTime (o.served row.vmId) ∧
      row.submissions = tally (submitted fun _ => 1) (o.served row.vmId) ∧
      row.throttleEvents = tally throttled (o.served row.vmId) ∧
      row.watchdogTrips = tally (submitted fun gpuUs => if gpuUs > cfg.watchdogUs then 1 else 0)
      (o.served row.vmId)) ∧
    (o.view cfg).vramUsedMb.toNat = ((o.view cfg).vms.map fun row => row.vramReservedMb.toNat).sum ∧
    (o.view cfg).vramUsedMb.toNat + (o.view cfg).vramFreeMb.toNat = cfg.totalVramMb.toNat - cfg.vramReserveMb.toNat ∧
    (o.view cfg).admittedVms.toNat = (o.view cfg).vms.length ∧
    (o.view cfg).vms.length ≤ cfg.maxConcurrentGpuVms.toNat ∧
    ∀ cap, cfg.maxEncSessions = some cap → (o.view cfg).encSessionsUsed ≤ cap := by
  have hm := mirrors h
  have hb := hm.sound.balanced
  refine ⟨fun id => (hm.mirrored id).answers, Ledger.rows_ascending hm.named,
    fun row => ?_, fun row hrow => ?_, ?_, ?_, ?_, ?_, hb.enc_le⟩
  · unfold view
    rw [Ledger.mem_rows hm.named]
    cases hlookup : o.fleet.ledger.vms.lookup row.vmId with
    | none =>
      have hempty : ((o.alone cfg row.vmId).2.ledger.fleetView cfg).vms = [] := by
        unfold Observed.alone
        rw [(hm.mirrored row.vmId).absent hlookup]
        rfl
      rw [hempty]
      refine iff_of_false ?_ (List.cons_ne_nil _ _).symm
      rintro ⟨vm, hvm, -⟩
      cases hvm
    | some vm =>
      rw [((hm.mirrored row.vmId).only vm hlookup).rows, List.cons.injEq]
      constructor
      · rintro ⟨vm', hvm, hrow⟩
        cases hvm
        exact ⟨hrow, rfl⟩
      · rintro ⟨hrow, -⟩
        exact ⟨vm, rfl, hrow⟩
  · obtain ⟨vm, hlookup, rfl⟩ := (Ledger.mem_rows hm.named row).1 hrow
    have hc := hm.counted _ vm hlookup
    exact ⟨hc.gpuTime, hc.submissions, hc.throttles, hc.trips⟩
  · exact hb.vram.trans (Ledger.sum_rows (fun row => row.vramReservedMb.toNat)).symm
  · have hle := hb.vram_le
    show o.fleet.ledger.vramUsedMb.toNat + (o.fleet.ledger.available cfg).toNat = _
    rw [Ledger.available_toNat]
    omega
  · have hle := hb.vms_le
    have hmax := cfg.maxConcurrentGpuVms.toNat_lt
    unfold view
    rw [Ledger.length_rows]
    show (UInt32.ofNat _).toNat = _
    rw [UInt32.toNat_ofNat', Nat.mod_eq_of_lt (by omega)]
  · unfold view
    rw [Ledger.length_rows]
    exact hb.vms_le

/-- "b" and "a" share the broker; "a" asks for more than is left, "b" is throttled and goes, "c" comes. -/
def shared : List Fleet.Op :=
  [.admitVm (.new "b" 1 20000) (.streaming 20000) 0, .admitVm (.new "a" 2 8000) (.vram 2000) 5, .adjustVram "a" 5000,
    .record "b" 60000, .record "a" 700, .begin "b" 10, .adjustVram "a" 1000, .drop 0,
    .admitVm (.new "c" 1 8000) (.vram 500) 20, .begin "a" 30]

theorem shown_shared : ∃ o, Lts.run (step .default) new shared = some o ∧
    (o.view .default).vms.map VmStat.vmId = ["a", "c"] ∧ (o.served "a").length = 4 ∧
    (o.alone .default "a").1 = (o.served "a").map Prod.snd := by
  refine ⟨_, rfl, by decide +kernel, by decide +kernel, ?_⟩
  exact (shown ⟨shared, rfl⟩).1 "a"

end Observed

end Infinigpu
