import Mathlib.Data.List.AList

/-!
# The cooperative GPU broker (`infinigpu-sched`)

The policy records, the ledger and the operations on it, with the widths and the wrapping of the source: `u64` and
`u32` counters, `i64` token balances, `u128` products truncated where the source casts them.  The ledger's hash map
is an association list keyed by VM id, which has at most one entry for a key.

Every operation takes the ledger and returns it together with its result, the clock reading being an argument.
-/

namespace Infinigpu

/-- `u64::saturating_sub`. -/
def saturatingSub (a b : UInt64) : UInt64 := if b ≤ a then a - b else 0

theorem saturatingSub_toNat (a b : UInt64) : (saturatingSub a b).toNat = a.toNat - b.toNat := by
  unfold saturatingSub
  split
  · rename_i h
    exact UInt64.toNat_sub_of_le _ _ h
  · rename_i h
    rw [UInt64.le_iff_toNat_le] at h
    rw [UInt64.toNat_zero]
    omega

/-! ### Policy -/

inductive PriorityTier where
  | interactive
  | normal
  | batch
deriving DecidableEq, Repr

/-- Refill multiplier (numerator/256) applied on top of the weight. -/
def PriorityTier.boostNum : PriorityTier → UInt64
  | .interactive => 384
  | .normal => 256
  | .batch => 256

structure VmConfig where
  vmId : String
  weight : UInt32
  vramCapMb : UInt64
  priority : PriorityTier
deriving DecidableEq, Repr

namespace VmConfig

def new (vmId : String) (weight : UInt32) (vramCapMb : UInt64) : VmConfig where
  vmId
  weight := max weight 1
  vramCapMb
  priority := .normal

/-- Weight times priority boost, in /256 fixed point. -/
def effectiveWeightNum (cfg : VmConfig) : UInt64 := cfg.weight.toUInt64 * cfg.priority.boostNum

end VmConfig

structure BrokerConfig where
  totalVramMb : UInt64
  vramReserveMb : UInt64
  maxConcurrentGpuVms : UInt32
  refillUsPerSPerWeight : UInt64
  bucketBurstUs : UInt64
  minRefillUsPerS : UInt64
  watchdogUs : UInt64
  maxEncSessions : Option UInt32
  throttleEnabled : Bool
deriving DecidableEq, Repr

namespace BrokerConfig

protected def default : BrokerConfig where
  totalVramMb := 24 * 1024
  vramReserveMb := 1024
  maxConcurrentGpuVms := 16
  refillUsPerSPerWeight := 200000
  bucketBurstUs := 50000
  minRefillUsPerS := 20000
  watchdogUs := 2000000
  maxEncSessions := none
  throttleEnabled := true

/-- The VRAM that may be admitted. -/
def budget (cfg : BrokerConfig) : UInt64 := saturatingSub cfg.totalVramMb cfg.vramReserveMb

/-- Microseconds of GPU time a VM is granted for every second of wall time. -/
def refillRate (cfg : BrokerConfig) (vm : VmConfig) : UInt64 :=
  max (vm.effectiveWeightNum * cfg.refillUsPerSPerWeight / 256) cfg.minRefillUsPerS

end BrokerConfig

/-! ### Requests and results -/

structure AdmitRequest where
  vramMb : UInt64
  needsEncoder : Bool
deriving DecidableEq, Repr

def AdmitRequest.vram (vramMb : UInt64) : AdmitRequest := { vramMb, needsEncoder := false }

def AdmitRequest.streaming (vramMb : UInt64) : AdmitRequest := { vramMb, needsEncoder := true }

inductive AdmitError where
  | atConcurrencyCap (cap : UInt32)
  | insufficientVram (requestedMb availableMb : UInt64)
  | exceedsVmCap (requestedMb capMb : UInt64)
  | alreadyAdmitted
  | noEncoderSession (cap : UInt32)
deriving DecidableEq, Repr

structure NotAdmitted where
deriving DecidableEq, Repr

inductive Begin where
  | ready
  | throttled (waitUs : UInt64)
deriving DecidableEq, Repr

/-- A division by a zero weight, which the source does not exclude by a type. -/
structure DivideByZero where
deriving DecidableEq, Repr

/-- The admission ticket of a VM. -/
structure VmTicket where
  vmId : String
  released : Bool
deriving DecidableEq, Repr

/-! ### The ledger -/

structure VmState where
  cfg : VmConfig
  tokensUs : Int64
  lastRefillUs : UInt64
  holdsEncoder : Bool
  vramReservedMb : UInt64
  gpuTimeUsedUs : UInt64
  vruntimeUs : UInt64
  submissions : UInt64
  throttleEvents : UInt64
  watchdogTrips : UInt64
deriving DecidableEq

/-- Refill the bucket for the wall time elapsed since the last refill. -/
def VmState.refill (vm : VmState) (now : UInt64) (cfg : BrokerConfig) : VmState :=
  let dt := saturatingSub now vm.lastRefillUs
  if dt = 0 then
    vm
  else
    let rate := cfg.refillRate vm.cfg
    let add := Int64.ofNat (rate.toNat * dt.toNat / 1000000)
    { vm with
      lastRefillUs := now
      tokensUs := min (vm.tokensUs + add) cfg.bucketBurstUs.toInt64 }

structure Ledger where
  vramUsedMb : UInt64
  encSessionsUsed : UInt32
  vms : AList fun _ : String => VmState

namespace Ledger

def new : Ledger where
  vramUsedMb := 0
  encSessionsUsed := 0
  vms := ∅

/-- The number of entries, as the source casts it. -/
def vmCount (st : Ledger) : UInt32 := UInt32.ofNat st.vms.entries.length

/-- The VRAM still free. -/
def available (cfg : BrokerConfig) (st : Ledger) : UInt64 := saturatingSub cfg.budget st.vramUsedMb

/-- All encode sessions are in use. -/
def encodersExhausted (cfg : BrokerConfig) (st : Ledger) : Option UInt32 :=
  cfg.maxEncSessions.filter fun cap => st.encSessionsUsed ≥ cap

def admitVm (cfg : BrokerConfig) (vmCfg : VmConfig) (req : AdmitRequest) (now : UInt64) (st : Ledger) :
    Except AdmitError VmTicket × Ledger :=
  if (st.vms.lookup vmCfg.vmId).isSome then
    (.error .alreadyAdmitted, st)
  else if st.vmCount ≥ cfg.maxConcurrentGpuVms then
    (.error (.atConcurrencyCap cfg.maxConcurrentGpuVms), st)
  else if req.vramMb > vmCfg.vramCapMb then
    (.error (.exceedsVmCap req.vramMb vmCfg.vramCapMb), st)
  else
    -- checked before the ledger is touched, so that a denial leaves it as it was
    match if req.needsEncoder then st.encodersExhausted cfg else none with
    | some cap => (.error (.noEncoderSession cap), st)
    | none =>
      if req.vramMb > st.available cfg then
        (.error (.insufficientVram req.vramMb (st.available cfg)), st)
      else
        (.ok { vmId := vmCfg.vmId, released := false },
          { vramUsedMb := st.vramUsedMb + req.vramMb
            encSessionsUsed := if req.needsEncoder then st.encSessionsUsed + 1 else st.encSessionsUsed
            vms := st.vms.insert vmCfg.vmId
              { cfg := vmCfg
                tokensUs := cfg.bucketBurstUs.toInt64
                lastRefillUs := now
                holdsEncoder := req.needsEncoder
                vramReservedMb := req.vramMb
                gpuTimeUsedUs := 0
                vruntimeUs := 0
                submissions := 0
                throttleEvents := 0
                watchdogTrips := 0 } })

/-- Revises a reservation: a grow that does not fit the free budget is rejected, a shrink always succeeds. -/
def adjustVram (cfg : BrokerConfig) (vmId : String) (newMb : UInt64) (st : Ledger) :
    Except AdmitError UInt64 × Ledger :=
  match st.vms.lookup vmId with
  | none => (.error .alreadyAdmitted, st)
  | some vm =>
    let old := vm.vramReservedMb
    if newMb > old then
      let delta := newMb - old
      if delta > st.available cfg then
        (.error (.insufficientVram delta (st.available cfg)), st)
      else
        (.ok newMb,
          { st with
            vramUsedMb := st.vramUsedMb + delta
            vms := st.vms.insert vmId { vm with vramReservedMb := newMb } })
    else
      (.ok newMb,
        { st with
          vramUsedMb := saturatingSub st.vramUsedMb (old - newMb)
          vms := st.vms.insert vmId { vm with vramReservedMb := newMb } })

/-- Wall time until the bucket climbs back to a 1 ms quantum. -/
def waitUs (cfg : BrokerConfig) (vm : VmState) : UInt64 :=
  let deficit := (max (1000 - vm.tokensUs) 1).toInt.toNat
  let rate := (max (cfg.refillRate vm.cfg) 1).toNat
  max (UInt64.ofNat (deficit * 1000000 / rate)) 1

/-- Refill, then say whether the VM may run now. -/
def begin (cfg : BrokerConfig) (vmId : String) (now : UInt64) (st : Ledger) : Except NotAdmitted Begin × Ledger :=
  match st.vms.lookup vmId with
  | none => (.error {}, st)
  | some vm =>
    let vm := vm.refill now cfg
    if !cfg.throttleEnabled || vm.tokensUs > 0 then
      (.ok .ready, { st with vms := st.vms.insert vmId vm })
    else
      (.ok (.throttled (waitUs cfg vm)),
        { st with vms := st.vms.insert vmId { vm with throttleEvents := vm.throttleEvents + 1 } })

/-- Debits the GPU time of a completed render.  A panicking division leaves the debits made before it. -/
def record (cfg : BrokerConfig) (vmId : String) (gpuUs : UInt64) (st : Ledger) : Except DivideByZero Unit × Ledger :=
  match st.vms.lookup vmId with
  | none => (.ok (), st)
  | some vm =>
    let vm := { vm with
      tokensUs := vm.tokensUs - gpuUs.toInt64
      gpuTimeUsedUs := vm.gpuTimeUsedUs + gpuUs }
    let weight := vm.cfg.effectiveWeightNum
    if weight = 0 then
      (.error {}, { st with vms := st.vms.insert vmId vm })
    else
      let vm := { vm with
        vruntimeUs := vm.vruntimeUs + UInt64.ofNat (gpuUs.toNat * 256 / weight.toNat)
        submissions := vm.submissions + 1
        watchdogTrips := if gpuUs > cfg.watchdogUs then vm.watchdogTrips + 1 else vm.watchdogTrips }
      (.ok (), { st with vms := st.vms.insert vmId vm })

/-- The reap: frees the entry of a VM. -/
def release (vmId : String) (st : Ledger) : Ledger :=
  match st.vms.lookup vmId with
  | none => st
  | some vm =>
    { vramUsedMb := saturatingSub st.vramUsedMb vm.vramReservedMb
      encSessionsUsed :=
        if vm.holdsEncoder then (if st.encSessionsUsed = 0 then 0 else st.encSessionsUsed - 1) else st.encSessionsUsed
      vms := st.vms.erase vmId }

end Ledger

/-- `Drop for VmTicket`: the first drop reaps the VM, another one does nothing. -/
def VmTicket.drop (t : VmTicket) (st : Ledger) : VmTicket × Ledger :=
  if t.released then (t, st) else ({ t with released := true }, st.release t.vmId)

end Infinigpu
