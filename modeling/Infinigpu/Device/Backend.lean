import Infinigpu.Device.Forwarded
import Infinigpu.Device.Resource
import Infinigpu.Sched.Broker
import Mathlib.Data.Fintype.Basic

/-!
# The device state (`infinigpu-device`, `InfinigpuBackend`)

The state of one VM's device with what it shares: guest memory, the broker's ledger, and what it has handed to the
streamer.  What the device asks of code outside this crate (the GPU, the clocks, the number of viewers) is answered
by an `Env`, call by call, so that nothing is assumed about the answers.

`Keeps` and `Quiet` say what the parts of a handler leave alone: the ring configuration and the mappings always, and
for the bookkeeping also guest memory, the retired registers and the retained image.
-/

namespace Infinigpu

def VRAM_ESTIMATE_MB : UInt64 := 256
def NUM_CONTEXTS : Nat := 8

instance : NeZero NUM_CONTEXTS := ⟨by decide⟩

namespace GlobalStatus
def ready : UInt32 := 1
def fatal : UInt32 := 2
def needsReset : UInt32 := 4
end GlobalStatus

/-! ### What is asked of the outside -/

/-- How a render ends: the closure panics, the GPU reports a failure, or it leaves pixels. -/
inductive Rendered where
  | panicked
  | failed
  | pixels (px : List UInt8)

/-- How a render into imported guest memory ends; whatever the result is, `written` has been stored. -/
structure Imported where
  result : Option Bool
  written : List UInt8

/-- The answers of the outside to the `n`-th call out of the device. -/
structure Env where
  clock : Nat → UInt64
  /-- The clock at the calls of `begin`, up to the one that finds the VM ready. -/
  begins : Nat → List UInt64
  gpuUs : Nat → UInt64
  /-- `Instant::now`, in nanoseconds. -/
  instant : Nat → Nat
  clientCount : Nat → Nat
  supportsZerocopy : Nat → Bool
  renderClear : Nat → UInt32 → UInt32 → Rgba → Rendered
  renderTriangle : Nat → UInt32 → UInt32 → Rgba → Rendered
  renderForwardedPresent : Nat → UInt32 → UInt32 → Rgba → OwnedForwardedDraw → Rendered
  renderForwardedZerocopy : Nat → UInt32 → UInt32 → Rgba → OwnedForwardedDraw → Imported

/-! ### State -/

/-- The retained BGRA surface, `w * h * 4` bytes. -/
structure ScanoutBuffer where
  w : Nat
  h : Nat
  bgra : List UInt8
deriving DecidableEq, Repr

structure CursorState where
  lastShape : Option (UInt64 × UInt16 × UInt16 × UInt32)
  lastPos : Option (Int32 × Int32)
  lastVisible : Bool
  lastShapeRead : Option Nat
  lastMoveSent : Option Nat
deriving DecidableEq

protected def CursorState.default : CursorState where
  lastShape := none
  lastPos := none
  lastVisible := false
  lastShapeRead := none
  lastMoveSent := none

/-- The header of a message on the plane sideband. -/
structure PlaneHeader where
  op : UInt8
  planeKind : UInt8
  flags : UInt8
  planeId : UInt32
  codecOrFormat : UInt8
  zOrder : UInt8
  width : UInt16
  height : UInt16
  hotX : UInt16
  hotY : UInt16
  posX : Int32
  posY : Int32
  payloadLen : UInt32
deriving DecidableEq

/-- What is sent down the sideband. -/
inductive PlaneEvent where
  | send (hdr : PlaneHeader) (body : List UInt8)
  | reset
deriving DecidableEq

/-- What the streamer has been handed: the frames with their sizes and the sideband messages, in order. -/
structure PixelStreamer where
  frames : List (List UInt8 × UInt32 × UInt32)
  sideband : List PlaneEvent
deriving DecidableEq

structure Backend where
  /-- Guest memory. -/
  mem : Memory
  dma : DmaTable
  globalCtrl : UInt32
  globalStatus : UInt32
  ringBase : Fin NUM_CONTEXTS → UInt64
  ringRetired : Fin NUM_CONTEXTS → UInt64
  ringIndex : Fin NUM_CONTEXTS → UInt64
  ringCap : Fin NUM_CONTEXTS → UInt32
  resources : ResourceTable
  brokerConfig : BrokerConfig
  broker : Ledger
  vmConfig : VmConfig
  ticket : Option VmTicket
  admissionDenied : Bool
  presentCount : UInt64
  pixel : Option PixelStreamer
  lastScanout : Option ScanoutBuffer
  bytesReadLast : Nat
  cursor : CursorState
  cursorNeedsResolicit : Bool
  vulkanSubmits : UInt64
  scanoutVramDims : Option (UInt32 × UInt32)
  zerocopyScanout : Bool
  elideUnchanged : Bool
  lastForwardedHash : AList fun _ : UInt64 => UInt64
  framesElided : UInt64
  cursorUpdates : UInt64
  /-- How many calls out of the device have been answered. -/
  calls : Nat

/-- An outside where no time passes, nobody watches and no render succeeds. -/
def Env.idle : Env where
  clock _ := 0
  begins _ := []
  gpuUs _ := 0
  instant _ := 0
  clientCount _ := 0
  supportsZerocopy _ := false
  renderClear _ _ _ _ := .failed
  renderTriangle _ _ _ _ := .failed
  renderForwardedPresent _ _ _ _ _ := .failed
  renderForwardedZerocopy _ _ _ _ _ := { result := some false, written := [] }

/-- An outside where no time passes, nobody watches and only clears succeed, to white. -/
def Env.white : Env :=
  { Env.idle with
    renderClear := fun _ width height _ => .pixels (List.replicate (width.toNat * height.toNat * 4) 0xff) }

/-- `scanout_vram_estimate_mb`, with saturating products. -/
def scanoutVramEstimateMb (width height factor : UInt32) : UInt64 :=
  let saturatingMul (a b : Nat) : Nat := min (a * b) (2 ^ 64 - 1)
  let raw := saturatingMul (saturatingMul (saturatingMul width.toNat height.toNat) 4) (max factor 1).toNat
  UInt64.ofNat ((raw + (1024 * 1024 - 1)) / (1024 * 1024))

inductive RunError where
  | notAdmitted
  | panicked
deriving DecidableEq, Repr

namespace Backend

variable (env : Env)

/-- A new backend, where the process environment configures no streamer and no option. -/
def withBroker (brokerConfig : BrokerConfig) (broker : Ledger) (vmConfig : VmConfig) (mem : Memory) : Backend where
  mem
  dma := .new
  globalCtrl := 0
  globalStatus := GlobalStatus.ready
  ringBase _ := 0
  ringRetired _ := 0
  ringIndex _ := 0
  ringCap _ := 0
  resources := .new
  brokerConfig
  broker
  vmConfig
  ticket := none
  admissionDenied := false
  presentCount := 0
  pixel := none
  lastScanout := none
  bytesReadLast := 0
  cursor := .default
  cursorNeedsResolicit := false
  vulkanSubmits := 0
  scanoutVramDims := none
  zerocopyScanout := false
  elideUnchanged := false
  lastForwardedHash := ∅
  framesElided := 0
  cursorUpdates := 0
  calls := 0

/-- Asks for admission once; a ticket or a denial is remembered. -/
def ensureAdmitted (d : Backend) : Bool × Backend :=
  if d.ticket.isSome then
    (true, d)
  else if d.admissionDenied then
    (false, d)
  else
    let req := if d.pixel.isSome then AdmitRequest.streaming VRAM_ESTIMATE_MB else .vram VRAM_ESTIMATE_MB
    match d.broker.admitVm d.brokerConfig d.vmConfig req (env.clock d.calls) with
    | (.ok t, broker) => (true, { d with broker, ticket := some t, calls := d.calls + 1 })
    | (.error _, broker) =>
      (false, { d with
        broker
        globalStatus := d.globalStatus ||| GlobalStatus.fatal
        admissionDenied := true
        calls := d.calls + 1 })

/-- Revises the VRAM reservation, once for each new size; a refused growth keeps the old one. -/
def accountScanoutVram (w h : UInt32) (d : Backend) : Backend :=
  if d.scanoutVramDims = some (w, h) then
    d
  else
    let d := { d with scanoutVramDims := some (w, h) }
    let want := VRAM_ESTIMATE_MB + scanoutVramEstimateMb w h 3
    match d.ticket with
    | none => d
    | some t => { d with broker := (d.broker.adjustVram d.brokerConfig t.vmId want).2 }

/-- `run_timed` of the ticket, `out` being how its closure ends. -/
def runTimed {α : Type*} (out : Option α) (d : Backend) : Except RunError α × Backend :=
  match d.ticket with
  | none => (.error .notAdmitted, d)
  | some t =>
    if (d.broker.vms.lookup t.vmId).isNone then
      (.error .notAdmitted, d)
    else
      let broker := (env.begins d.calls).foldl (fun st now => (st.begin d.brokerConfig t.vmId now).2) d.broker
      let broker := (broker.record d.brokerConfig t.vmId (env.gpuUs d.calls)).2
      let d := { d with broker, calls := d.calls + 1 }
      match out with
      | none => (.error .panicked, d)
      | some r => (.ok r, d)

/-- Sets the retired register of a context. -/
def retire (ctx : Fin NUM_CONTEXTS) (seqno : UInt64) (d : Backend) : Backend :=
  { d with ringRetired := Function.update d.ringRetired ctx seqno }

/-- Forgets which forwarded frame each scanout buffer holds. -/
def invalidateElision (d : Backend) : Backend := { d with lastForwardedHash := ∅ }

/-- Hands a frame to the streamer, if there is one. -/
def streamFrame (bgra : List UInt8) (w h : UInt32) (d : Backend) : Backend :=
  { d with pixel := d.pixel.map fun p => { p with frames := p.frames ++ [(bgra, w, h)] } }

/-- Sends a plane message, if there is a streamer. -/
def sendPlane (hdr : PlaneHeader) (body : List UInt8) (d : Backend) : Backend :=
  { d with pixel := d.pixel.map fun p => { p with sideband := p.sideband ++ [.send hdr body] } }

/-- `DmaTable::write` into this device's guest memory. -/
def dmaWrite (addr : UInt64) (buf : List UInt8) (d : Backend) : Bool × Backend :=
  let (ok, mem) := d.dma.write addr buf d.mem
  (ok, { d with mem })

/-- `DmaTable::read` of this device's guest memory. -/
def dmaRead (addr : UInt64) (len : Nat) (d : Backend) : Option (List UInt8) := d.dma.read addr len d.mem

def resetState (d : Backend) : Backend :=
  { d with
    globalCtrl := 0
    globalStatus := GlobalStatus.needsReset
    broker := (d.ticket.map fun t => (t.drop d.broker).2).getD d.broker
    ticket := none
    admissionDenied := false
    ringBase := fun _ => 0
    ringRetired := fun _ => 0
    ringIndex := fun _ => 0
    ringCap := fun _ => 0
    resources := .new
    lastScanout := none
    cursor := .default
    cursorNeedsResolicit := true
    vulkanSubmits := 0
    lastForwardedHash := ∅
    framesElided := 0
    cursorUpdates := 0
    scanoutVramDims := none
    pixel := d.pixel.map fun p => { p with sideband := p.sideband ++ [.reset] } }

/-! ### What is left alone -/

/-- The ring configuration, the mappings and a ticket once held stay. -/
structure Keeps (d d' : Backend) : Prop where
  dma : d'.dma = d.dma
  ringBase : d'.ringBase = d.ringBase
  ringIndex : d'.ringIndex = d.ringIndex
  ringCap : d'.ringCap = d.ringCap
  ticket : d.ticket.isSome → d'.ticket.isSome

/-- The frames handed to the streamer, if there is one. -/
def frames (d : Backend) : Option (List (List UInt8 × UInt32 × UInt32)) := d.pixel.map PixelStreamer.frames

/-- Only bookkeeping is done: guest memory, the retired registers, the retained image, the frames and the number of
presents stay as well. -/
structure Quiet (d d' : Backend) : Prop extends Keeps d d' where
  mem : d'.mem = d.mem
  ringRetired : d'.ringRetired = d.ringRetired
  lastScanout : d'.lastScanout = d.lastScanout
  presentCount : d'.presentCount = d.presentCount
  frames : d'.frames = d.frames

theorem Keeps.refl (d : Backend) : Keeps d d := ⟨rfl, rfl, rfl, rfl, id⟩

theorem Keeps.trans {d d' d'' : Backend} (h : Keeps d d') (h' : Keeps d' d'') : Keeps d d'' where
  dma := h'.dma.trans h.dma
  ringBase := h'.ringBase.trans h.ringBase
  ringIndex := h'.ringIndex.trans h.ringIndex
  ringCap := h'.ringCap.trans h.ringCap
  ticket ht := h'.ticket (h.ticket ht)

theorem Quiet.refl (d : Backend) : Quiet d d := ⟨.refl d, rfl, rfl, rfl, rfl, rfl⟩

theorem Quiet.trans {d d' d'' : Backend} (h : Quiet d d') (h' : Quiet d' d'') : Quiet d d'' where
  toKeeps := h.toKeeps.trans h'.toKeeps
  mem := h'.mem.trans h.mem
  ringRetired := h'.ringRetired.trans h.ringRetired
  lastScanout := h'.lastScanout.trans h.lastScanout
  presentCount := h'.presentCount.trans h.presentCount
  frames := h'.frames.trans h.frames

variable {env}

theorem ensureAdmitted_of_ticket {d : Backend} (h : d.ticket.isSome) : d.ensureAdmitted env = (true, d) := if_pos h

theorem ensureAdmitted_quiet (env : Env) (d : Backend) : Quiet d (d.ensureAdmitted env).2 := by
  unfold ensureAdmitted
  split
  · exact .refl d
  · rename_i hticket
    split
    · exact .refl d
    · simp only
      split
      · exact ⟨⟨rfl, rfl, rfl, rfl, fun _ => rfl⟩, rfl, rfl, rfl, rfl, rfl⟩
      · exact ⟨⟨rfl, rfl, rfl, rfl, fun h => absurd h hticket⟩, rfl, rfl, rfl, rfl, rfl⟩

/-- An admitted VM holds a ticket. -/
theorem ensureAdmitted_ticket {d : Backend} (h : (d.ensureAdmitted env).1 = true) :
    (d.ensureAdmitted env).2.ticket.isSome := by
  unfold ensureAdmitted at h ⊢
  split
  · rename_i hticket
    exact hticket
  · rename_i hticket
    rw [if_neg hticket] at h
    split
    · rename_i hdenied
      rw [if_pos hdenied] at h
      cases h
    · rename_i hdenied
      rw [if_neg hdenied] at h
      simp only at h ⊢
      split
      · rfl
      · rename_i hres
        rw [hres] at h
        cases h

theorem accountScanoutVram_quiet (w h : UInt32) (d : Backend) : Quiet d (d.accountScanoutVram w h) := by
  unfold accountScanoutVram
  split
  · exact .refl d
  · simp only
    split
    · exact ⟨⟨rfl, rfl, rfl, rfl, id⟩, rfl, rfl, rfl, rfl, rfl⟩
    · exact ⟨⟨rfl, rfl, rfl, rfl, id⟩, rfl, rfl, rfl, rfl, rfl⟩

theorem runTimed_quiet {α : Type*} (env : Env) (out : Option α) (d : Backend) :
    Quiet d (d.runTimed env out).2 := by
  unfold runTimed
  split
  · exact .refl d
  · split
    · exact .refl d
    · simp only
      split
      · exact ⟨⟨rfl, rfl, rfl, rfl, id⟩, rfl, rfl, rfl, rfl, rfl⟩
      · exact ⟨⟨rfl, rfl, rfl, rfl, id⟩, rfl, rfl, rfl, rfl, rfl⟩

/-- A run that ends well has the result of its closure. -/
theorem runTimed_ok {α : Type*} {out : Option α} {r : α} {d d' : Backend} (h : d.runTimed env out = (.ok r, d')) :
    out = some r := by
  unfold runTimed at h
  cases hticket : d.ticket with
  | none => simp [hticket] at h
  | some t =>
    simp only [hticket] at h
    by_cases hvm : (d.broker.vms.lookup t.vmId).isNone
    · rw [if_pos hvm] at h
      cases h
    · rw [if_neg hvm] at h
      cases out with
      | none => cases h
      | some r' =>
        cases h
        rfl

theorem invalidateElision_quiet (d : Backend) : Quiet d d.invalidateElision :=
  ⟨⟨rfl, rfl, rfl, rfl, id⟩, rfl, rfl, rfl, rfl, rfl⟩

theorem streamFrame_frames (bgra : List UInt8) (w h : UInt32) (d : Backend) :
    (d.streamFrame bgra w h).frames = d.frames.map (· ++ [(bgra, w, h)]) := by
  rw [frames, frames, streamFrame, Option.map_map, Option.map_map]
  rfl

theorem sendPlane_quiet (hdr : PlaneHeader) (body : List UInt8) (d : Backend) : Quiet d (d.sendPlane hdr body) := by
  have hframes : (d.sendPlane hdr body).frames = d.frames := by
    rw [frames, frames, sendPlane, Option.map_map]
    rfl
  exact ⟨⟨rfl, rfl, rfl, rfl, id⟩, rfl, rfl, rfl, rfl, hframes⟩

theorem dmaWrite_keeps (addr : UInt64) (buf : List UInt8) (d : Backend) : Keeps d (d.dmaWrite addr buf).2 :=
  ⟨rfl, rfl, rfl, rfl, id⟩

theorem retire_keeps (ctx : Fin NUM_CONTEXTS) (seqno : UInt64) (d : Backend) : Keeps d (d.retire ctx seqno) :=
  ⟨rfl, rfl, rfl, rfl, id⟩

@[simp] theorem retire_self (ctx : Fin NUM_CONTEXTS) (seqno : UInt64) (d : Backend) :
    (d.retire ctx seqno).ringRetired ctx = seqno := Function.update_self _ _ _

@[simp] theorem retire_mem (ctx : Fin NUM_CONTEXTS) (seqno : UInt64) (d : Backend) :
    (d.retire ctx seqno).mem = d.mem := rfl

@[simp] theorem retire_lastScanout (ctx : Fin NUM_CONTEXTS) (seqno : UInt64) (d : Backend) :
    (d.retire ctx seqno).lastScanout = d.lastScanout := rfl

/-- What is read does not change while only bookkeeping is done. -/
theorem Quiet.dmaRead {d d' : Backend} (h : Quiet d d') (addr : UInt64) (len : Nat) :
    d'.dmaRead addr len = d.dmaRead addr len := by
  rw [Backend.dmaRead, Backend.dmaRead, h.dma, h.mem]

end Backend

end Infinigpu
