import Infinigpu.Device.Handlers
import Infinigpu.Device.Wear

/-!
# The registers (`infinigpu-device`, BAR0) and what a reset makes of the device

* `Device`: the backend with the registers that only the guest's accesses touch, and the interrupt vectors raised;
* `Device.readBar0`, `Device.writeBar0`: accesses of any width, word by word, a partial word being read first;
* `Device.reset_renews`: a device that is reset cannot be told from a new one, whatever is done with either later, but
  for the status register, the interrupt mask and the debug address.
-/

namespace Infinigpu

namespace Ctrl
def devMagic : UInt64 := 0x0000
def abiVersion : UInt64 := 0x0004
def devCaps : UInt64 := 0x0008
def numContexts : UInt64 := 0x000c
def maxRingEntries : UInt64 := 0x0010
def bar2ApertureMb : UInt64 := 0x0014
def globalCtrl : UInt64 := 0x0020
def globalStatus : UInt64 := 0x0024
def deviceReset : UInt64 := 0x0028
def irqMask : UInt64 := 0x0034
def cmdRing0RetiredLo : UInt64 := 0x0050
def cmdRing0RetiredHi : UInt64 := 0x0054
/-- The configuration block of context `i` is at `cmdRingCfg + i * cmdRingStride`. -/
def cmdRingCfg : UInt64 := 0x0100
def cmdRingStride : UInt64 := 0x40
end Ctrl

namespace RingField
/-- The fields of a context's configuration block, from here on. -/
def baseLo : UInt64 := 0x00
def baseHi : UInt64 := 0x04
def size : UInt64 := 0x08
def retiredLo : UInt64 := 0x14
def retiredHi : UInt64 := 0x18
def indexLo : UInt64 := 0x1c
def indexHi : UInt64 := 0x20
end RingField

namespace Doorbell
def page : UInt64 := 0x3000
def ctrl : UInt64 := 0x3000
/-- The doorbell of context `i` is at `cmdBase + i * 4`. -/
def cmdBase : UInt64 := 0x3004
end Doorbell

namespace Dbg
def dmaAddrLo : UInt64 := 0x0f00
def dmaAddrHi : UInt64 := 0x0f04
def dmaData : UInt64 := 0x0f08
end Dbg

def DEV_MAGIC : UInt32 := 0x49475055
def ABI_VERSION : UInt32 := 0x0000000d
/-- Polled submission, 64-bit seqnos, several rings, the damage path. -/
def PHASE1_DEV_CAPS : UInt32 := 0x3c
/-- The cursor plane as well. -/
def PHASE2_DEV_CAPS : UInt32 := 0x7c
def DEVICE_ENABLE : UInt32 := 1

/-- The halves of a 64-bit register. -/
def lowHalf (x : UInt64) : UInt32 := (x &&& 0xffffffff).toUInt32
def highHalf (x : UInt64) : UInt32 := (x >>> 32).toUInt32
def setLow (x : UInt64) (val : UInt32) : UInt64 := x &&& ~~~(0xffffffff : UInt64) ||| val.toUInt64
def setHigh (x : UInt64) (val : UInt32) : UInt64 := x &&& (0xffffffff : UInt64) ||| val.toUInt64 <<< (32 : UInt64)

/-- The context and the field that an offset in the configuration blocks stands for. -/
def ctxBlock (off : UInt64) : Option (Fin NUM_CONTEXTS × UInt64) :=
  let span := UInt64.ofNat NUM_CONTEXTS * Ctrl.cmdRingStride
  if Ctrl.cmdRingCfg ≤ off ∧ off < Ctrl.cmdRingCfg + span then
    let rel := off - Ctrl.cmdRingCfg
    some (Fin.ofNat NUM_CONTEXTS (rel / Ctrl.cmdRingStride).toNat, rel % Ctrl.cmdRingStride)
  else
    none

/-- The part of an access that falls into one word: its address, where the part starts in the word and in the data,
and its length. -/
structure WordPart where
  aligned : UInt64
  within : Nat
  done : Nat
  n : Nat

/-- The parts of an access of `total` bytes, from its byte `done` on; `left` bounds their number. -/
def wordParts (offset : UInt64) (total : Nat) : Nat → Nat → List WordPart
  | 0, _ => []
  | left + 1, done =>
    if done < total then
      let cur := offset + UInt64.ofNat done
      let aligned := cur &&& ~~~(3 : UInt64)
      let within := (cur - aligned).toNat
      let n := min (4 - within) (total - done)
      ⟨aligned, within, done, n⟩ :: wordParts offset total left (done + n)
    else
      []

/-- A device with the vectors it has raised. -/
structure Device where
  dev : Backend
  irqMask : UInt32
  dbgDmaAddr : UInt64
  cursorPlaneEnabled : Bool
  raised : List Nat

namespace Device

variable (env : Env)

def bar0ReadU32 (s : Device) (off : UInt64) : UInt32 :=
  match ctxBlock off with
  | some (ctx, field) =>
    if field = RingField.baseLo then lowHalf (s.dev.ringBase ctx)
    else if field = RingField.baseHi then highHalf (s.dev.ringBase ctx)
    else if field = RingField.size then s.dev.ringCap ctx
    else if field = RingField.retiredLo then lowHalf (s.dev.ringRetired ctx)
    else if field = RingField.retiredHi then highHalf (s.dev.ringRetired ctx)
    else if field = RingField.indexLo then lowHalf (s.dev.ringIndex ctx)
    else if field = RingField.indexHi then highHalf (s.dev.ringIndex ctx)
    else 0
  | none =>
    if off = Ctrl.devMagic then DEV_MAGIC
    else if off = Ctrl.abiVersion then ABI_VERSION
    else if off = Ctrl.devCaps then if s.cursorPlaneEnabled then PHASE2_DEV_CAPS else PHASE1_DEV_CAPS
    else if off = Ctrl.numContexts then UInt32.ofNat NUM_CONTEXTS
    else if off = Ctrl.maxRingEntries then 256
    else if off = Ctrl.bar2ApertureMb then 0
    else if off = Ctrl.globalCtrl then s.dev.globalCtrl
    else if off = Ctrl.globalStatus then s.dev.globalStatus
    else if off = Ctrl.irqMask then s.irqMask
    else if off = Ctrl.cmdRing0RetiredLo then lowHalf (s.dev.ringRetired 0)
    else if off = Ctrl.cmdRing0RetiredHi then highHalf (s.dev.ringRetired 0)
    else if off = Dbg.dmaData then ((s.dev.dmaRead s.dbgDmaAddr 4).map Bytes.u32).getD 0xffffffff
    else 0

def raise (s : Device) (vector : Nat) : Device := { s with raised := s.raised ++ [vector] }

def resetState (s : Device) : Device := { s with dev := s.dev.resetState }

/-- A write to the doorbell page. -/
def doorbell (s : Device) (off : UInt64) : Device :=
  if off = Doorbell.ctrl then
    s.raise 0
  else if off ≥ Doorbell.cmdBase then
    let i := ((off - Doorbell.cmdBase) / 4).toNat
    if i < NUM_CONTEXTS then
      let ctx := Fin.ofNat NUM_CONTEXTS i
      { s with dev := s.dev.processRing env ctx }.raise (i + 1)
    else
      s
  else
    s

/-- A write to the configuration block of a context. -/
def configureRing (s : Device) (ctx : Fin NUM_CONTEXTS) (field : UInt64) (val : UInt32) : Device :=
  let d := s.dev
  if field = RingField.baseLo then
    { s with dev := { d with ringBase := Function.update d.ringBase ctx (setLow (d.ringBase ctx) val) } }
  else if field = RingField.baseHi then
    { s with dev := { d with ringBase := Function.update d.ringBase ctx (setHigh (d.ringBase ctx) val) } }
  else if field = RingField.size then
    { s with dev := { d with ringCap := Function.update d.ringCap ctx val } }
  else if field = RingField.indexLo then
    { s with dev := { d with ringIndex := Function.update d.ringIndex ctx (setLow (d.ringIndex ctx) val) } }
  else if field = RingField.indexHi then
    { s with dev := { d with ringIndex := Function.update d.ringIndex ctx (setHigh (d.ringIndex ctx) val) } }
  else
    s

def bar0WriteU32 (s : Device) (off : UInt64) (val : UInt32) : Device :=
  if Doorbell.page ≤ off ∧ off < Doorbell.page + 0x1000 then
    s.doorbell env off
  else
    match ctxBlock off with
    | some (ctx, field) => s.configureRing ctx field val
    | none =>
      if off = Ctrl.globalCtrl then
        let s := { s with dev := { s.dev with globalCtrl := val } }
        -- enabling the device is what asks for admission
        if val &&& DEVICE_ENABLE ≠ 0 then { s with dev := (s.dev.ensureAdmitted env).2 } else s
      else if off = Ctrl.deviceReset then
        if val &&& 1 ≠ 0 then s.resetState else s
      else if off = Ctrl.irqMask then { s with irqMask := val }
      else if off = Dbg.dmaAddrLo then { s with dbgDmaAddr := setLow s.dbgDmaAddr val }
      else if off = Dbg.dmaAddrHi then { s with dbgDmaAddr := setHigh s.dbgDmaAddr val }
      else if off = Dbg.dmaData then { s with dev := s.dev.debugDmaWrite s.dbgDmaAddr val }
      else s

/-- The bytes of a read of `len` bytes, the words being read by `word`. -/
def gather (word : UInt64 → UInt32) (offset : UInt64) (len : Nat) : List UInt8 :=
  (wordParts offset len len 0).flatMap fun p => Bytes.slice (Bytes.ofValue 4 (word p.aligned).toNat) p.within p.n

def readBar0 (s : Device) (offset : UInt64) (len : Nat) : List UInt8 := gather s.bar0ReadU32 offset len

/-- One word of a write: it is read, changed and written back. -/
def writePart (data : List UInt8) (s : Device) (p : WordPart) : Device :=
  let word := Bytes.ofValue 4 (s.bar0ReadU32 p.aligned).toNat
  s.bar0WriteU32 env p.aligned (Bytes.u32 (Bytes.splice word p.within (Bytes.slice data p.done p.n)))

def writeBar0 (s : Device) (offset : UInt64) (data : List UInt8) : Device :=
  (wordParts offset data.length data.length 0).foldl (writePart env data) s

variable {env}

/-! ### Accesses -/

/-- What is done to a device from outside. -/
inductive Access where
  | read (offset : UInt64) (len : Nat)
  | write (env : Env) (offset : UInt64) (data : List UInt8)
  /-- A reset over the device interface. -/
  | reset
  | map (iova size : UInt64) (host : Option Nat)
  | unmap (iova : UInt64)
  | unmapAll
  /-- The guest's own stores. -/
  | stores (f : Memory → Memory)

def access (s : Device) : Access → Device
  | .read _ _ => s
  | .write env offset data => s.writeBar0 env offset data
  | .reset => s.resetState
  | .map iova size host => { s with dev := s.dev.dmaMap iova size host }
  | .unmap iova => { s with dev := s.dev.dmaUnmap iova }
  | .unmapAll => { s with dev := s.dev.dmaUnmapAll }
  | .stores f => { s with dev := { s.dev with mem := f s.dev.mem } }

def run (s : Device) (as : List Access) : Device := as.foldl access s

/-- A register without the bits that say whether the device is ready or asks for a reset. -/
def visible (off : UInt64) (word : UInt32) : UInt32 :=
  if off = Ctrl.globalStatus then word &&& GlobalStatus.fatal else word

/-- What the reads among the accesses return, but for these bits. -/
def answers (s : Device) : List Access → List (List UInt8)
  | [] => []
  | .read offset len :: as => gather (fun off => visible off (s.bar0ReadU32 off)) offset len :: s.answers as
  | a :: as => (s.access a).answers as

/-! ### What a device is made with -/

/-- What a device is configured with when it is made. -/
structure Config where
  brokerConfig : BrokerConfig
  vmConfig : VmConfig
  streaming : Bool
  zerocopy : Bool
  elide : Bool
  cursorPlane : Bool

/-- A new device over a broker and guest memory. -/
def create (cfg : Config) (broker : Ledger) (mem : Memory) : Device where
  dev := { Backend.withBroker cfg.brokerConfig broker cfg.vmConfig mem with
    pixel := if cfg.streaming then some ⟨[], []⟩ else none
    zerocopyScanout := cfg.zerocopy
    elideUnchanged := cfg.elide }
  irqMask := 0
  dbgDmaAddr := 0
  cursorPlaneEnabled := cfg.cursorPlane
  raised := []

/-- A new device over the broker, the guest memory and the mappings of another one. -/
def renewed (cfg : Config) (s : Device) : Device :=
  let f := create cfg s.dev.broker s.dev.mem
  { f with dev := { f.dev with dma := s.dev.dma, calls := s.dev.calls } }

/-- The configuration is that of `cfg`, unless the zero-copy path has been switched off. -/
structure Configured (cfg : Config) (s : Device) : Prop where
  brokerConfig : s.dev.brokerConfig = cfg.brokerConfig
  vmConfig : s.dev.vmConfig = cfg.vmConfig
  streaming : s.dev.pixel.isSome = cfg.streaming
  zerocopy : s.dev.zerocopyScanout = true → cfg.zerocopy = true
  elide : s.dev.elideUnchanged = cfg.elide
  cursorPlane : s.cursorPlaneEnabled = cfg.cursorPlane

private theorem create_configured (cfg : Config) (broker : Ledger) (mem : Memory) :
    Configured cfg (create cfg broker mem) where
  brokerConfig := rfl
  vmConfig := rfl
  streaming := by cases h : cfg.streaming <;> simp [create, h]
  zerocopy := id
  elide := rfl
  cursorPlane := rfl

end Device

namespace Backend

/-- What a device is made with stays, the zero-copy path being switched off at most. -/
structure Fixed (d d' : Backend) : Prop where
  brokerConfig : d'.brokerConfig = d.brokerConfig
  vmConfig : d'.vmConfig = d.vmConfig
  streaming : d'.pixel.isSome = d.pixel.isSome
  zerocopy : d'.zerocopyScanout = true → d.zerocopyScanout = true
  elide : d'.elideUnchanged = d.elideUnchanged

private theorem fixed_contained : Contained Fixed where
  refl _ := ⟨rfl, rfl, rfl, id, rfl⟩
  trans h h' := ⟨h'.brokerConfig.trans h.brokerConfig, h'.vmConfig.trans h.vmConfig, h'.streaming.trans h.streaming,
    h.zerocopy ∘ h'.zerocopy, h'.elide.trans h.elide⟩
  ensureAdmitted env d := by
    unfold Backend.ensureAdmitted
    split
    · exact ⟨rfl, rfl, rfl, id, rfl⟩
    · split
      · exact ⟨rfl, rfl, rfl, id, rfl⟩
      · simp only
        split <;> exact ⟨rfl, rfl, rfl, id, rfl⟩
  accountScanoutVram width height d := by
    unfold Backend.accountScanoutVram
    split
    · exact ⟨rfl, rfl, rfl, id, rfl⟩
    · simp only
      split <;> exact ⟨rfl, rfl, rfl, id, rfl⟩
  runTimed env out d := by
    unfold Backend.runTimed
    split
    · exact ⟨rfl, rfl, rfl, id, rfl⟩
    · split
      · exact ⟨rfl, rfl, rfl, id, rfl⟩
      · cases out <;> exact ⟨rfl, rfl, rfl, id, rfl⟩
  assign hpixel := ⟨rfl, rfl, hpixel.symm, id, rfl⟩
  zerocopyOff _ := ⟨rfl, rfl, rfl, fun h => (by cases h), rfl⟩

end Backend

namespace Device

variable {cfg : Config} {s f : Device}

private theorem Configured.fixed (h : Configured cfg s) {dev : Backend} (hdev : s.dev.Fixed dev) :
    Configured cfg { s with dev } where
  brokerConfig := hdev.brokerConfig.trans h.brokerConfig
  vmConfig := hdev.vmConfig.trans h.vmConfig
  streaming := hdev.streaming.trans h.streaming
  zerocopy := h.zerocopy ∘ hdev.zerocopy
  elide := hdev.elide.trans h.elide
  cursorPlane := h.cursorPlane

private theorem Configured.resetState (h : Configured cfg s) : Configured cfg s.resetState :=
  h.fixed ⟨rfl, rfl, Option.isSome_map, id, rfl⟩

private theorem Configured.doorbell (h : Configured cfg s) (env : Env) (off : UInt64) :
    Configured cfg (s.doorbell env off) := by
  simp only [Device.doorbell]
  split
  · exact { h with }
  · split
    · split
      · have hring := h.fixed (Backend.fixed_contained.processRing env
          (Fin.ofNat NUM_CONTEXTS ((off - Doorbell.cmdBase) / 4).toNat) s.dev)
        exact { hring with }
      · exact h
    · exact h

private theorem Configured.configureRing (h : Configured cfg s) (ctx : Fin NUM_CONTEXTS) (field : UInt64)
    (val : UInt32) :
    Configured cfg (s.configureRing ctx field val) := by
  simp only [Device.configureRing]
  split
  · exact { h with }
  · split
    · exact { h with }
    · split
      · exact { h with }
      · split
        · exact { h with }
        · split
          · exact { h with }
          · exact h

private theorem Configured.bar0WriteU32 (h : Configured cfg s) (env : Env) (off : UInt64) (val : UInt32) :
    Configured cfg (s.bar0WriteU32 env off val) := by
  simp only [Device.bar0WriteU32]
  split
  · exact h.doorbell env off
  · split
    · exact h.configureRing _ _ _
    · split
      · have hctrl : Configured cfg { s with dev := { s.dev with globalCtrl := val } } := { h with }
        split
        · exact hctrl.fixed (Backend.fixed_contained.ensureAdmitted env _)
        · exact hctrl
      · split
        · split
          · exact h.resetState
          · exact h
        · split
          · exact { h with }
          · split
            · exact { h with }
            · split
              · exact { h with }
              · split
                · exact { h with }
                · exact h

theorem Configured.writeBar0 (h : Configured cfg s) (env : Env) (offset : UInt64) (data : List UInt8) :
    Configured cfg (s.writeBar0 env offset data) := by
  unfold Device.writeBar0
  generalize wordParts offset data.length data.length 0 = parts
  induction parts generalizing s with
  | nil => exact h
  | cons p parts ih => exact ih (h.bar0WriteU32 env _ _)

private theorem Configured.access (h : Configured cfg s) (a : Access) : Configured cfg (s.access a) := by
  cases a with
  | read offset len => exact h
  | write env offset data => exact h.writeBar0 env offset data
  | reset => exact h.resetState
  | map iova size host =>
    cases host with
    | none => exact { h with }
    | some host => exact { h with }
  | unmap iova => exact { h with }
  | unmapAll => exact { h with }
  | stores f => exact { h with }

theorem Configured.run (h : Configured cfg s) (as : List Access) : Configured cfg (s.run as) := by
  induction as generalizing s with
  | nil => exact h
  | cons a as ih => exact ih (h.access a)

/-! ### A device that is reset -/

/-- The device is the other one, worn: its streamer was handed `p` before and it has raised `past`. -/
structure WornAs (p : PixelStreamer) (past : List Nat) (s f : Device) : Prop where
  dev : Backend.WornAs p s.dev f.dev
  irqMask : s.irqMask = f.irqMask
  dbgDmaAddr : s.dbgDmaAddr = f.dbgDmaAddr
  cursorPlane : s.cursorPlaneEnabled = f.cursorPlaneEnabled
  raised : s.raised = past ++ f.raised

variable {p : PixelStreamer} {past : List Nat}

private theorem WornAs.dev_map (h : WornAs p past s f) {g : Backend → Backend}
    (hg : ∀ {d' d : Backend}, Backend.WornAs p d' d → Backend.WornAs p (g d') (g d)) :
    WornAs p past { s with dev := g s.dev } { f with dev := g f.dev } :=
  { h with dev := hg h.dev }

private theorem WornAs.dev_comm (h : WornAs p past s f) {g : Backend → Backend}
    (hg : ∀ (w : Wear) (d : Backend), g (d.worn w) = (g d).worn w) :
    WornAs p past { s with dev := g s.dev } { f with dev := g f.dev } :=
  h.dev_map fun ⟨w, hw, hd⟩ => ⟨w, hw, by rw [hd, hg]⟩

private theorem WornAs.raise (h : WornAs p past s f) (vector : Nat) :
    WornAs p past (s.raise vector) (f.raise vector) :=
  { h with raised := by rw [Device.raise, Device.raise, h.raised, List.append_assoc] }

private theorem WornAs.resetState (h : WornAs p past s f) : WornAs p past s.resetState f.resetState :=
  h.dev_comm (g := Backend.resetState) Backend.resetState_worn

private theorem WornAs.bar0ReadU32 (h : WornAs p past s f) {off : UInt64} (hoff : off ≠ Ctrl.globalStatus) :
    s.bar0ReadU32 off = f.bar0ReadU32 off := by
  obtain ⟨w, -, hdev⟩ := h.dev
  simp only [Device.bar0ReadU32, hdev, h.irqMask, h.dbgDmaAddr, h.cursorPlane, if_neg hoff, Backend.worn_ringBase,
    Backend.worn_ringCap, Backend.worn_ringRetired, Backend.worn_ringIndex, Backend.dmaRead_worn]
  rfl

private theorem globalStatus_read (s : Device) : s.bar0ReadU32 Ctrl.globalStatus = s.dev.globalStatus := rfl

/-- A write to the status register, also of a part of it, does nothing. -/
private theorem globalStatus_write (env : Env) (s : Device) (val : UInt32) :
    s.bar0WriteU32 env Ctrl.globalStatus val = s := rfl

private theorem WornAs.visible (h : WornAs p past s f) (off : UInt64) :
    visible off (s.bar0ReadU32 off) = visible off (f.bar0ReadU32 off) := by
  by_cases hoff : off = Ctrl.globalStatus
  · obtain ⟨w, -, hdev⟩ := h.dev
    rw [hoff, globalStatus_read, globalStatus_read, Device.visible, Device.visible, if_pos rfl, if_pos rfl, hdev]
    exact Backend.worn_fatal
  · rw [h.bar0ReadU32 hoff]

private theorem WornAs.doorbell (h : WornAs p past s f) (env : Env) (off : UInt64) :
    WornAs p past (s.doorbell env off) (f.doorbell env off) := by
  simp only [Device.doorbell]
  split
  · exact h.raise 0
  · split
    · split
      · refine WornAs.raise ?_ _
        exact h.dev_map (g := fun d => d.processRing env _) fun hd => Backend.processRing_worn hd env _
      · exact h
    · exact h

private theorem WornAs.configureRing (h : WornAs p past s f) (ctx : Fin NUM_CONTEXTS) (field : UInt64)
    (val : UInt32) :
    WornAs p past (s.configureRing ctx field val) (f.configureRing ctx field val) := by
  simp only [Device.configureRing]
  split
  · exact h.dev_comm (g := fun d =>
      { d with ringBase := Function.update d.ringBase ctx (setLow (d.ringBase ctx) val) }) fun _ _ => rfl
  · split
    · exact h.dev_comm (g := fun d =>
        { d with ringBase := Function.update d.ringBase ctx (setHigh (d.ringBase ctx) val) }) fun _ _ => rfl
    · split
      · exact h.dev_comm (g := fun d => { d with ringCap := Function.update d.ringCap ctx val }) fun _ _ => rfl
      · split
        · exact h.dev_comm (g := fun d =>
            { d with ringIndex := Function.update d.ringIndex ctx (setLow (d.ringIndex ctx) val) }) fun _ _ => rfl
        · split
          · exact h.dev_comm (g := fun d =>
              { d with ringIndex := Function.update d.ringIndex ctx (setHigh (d.ringIndex ctx) val) }) fun _ _ => rfl
          · exact h

private theorem WornAs.bar0WriteU32 (h : WornAs p past s f) (env : Env) (off : UInt64) (val : UInt32) :
    WornAs p past (s.bar0WriteU32 env off val) (f.bar0WriteU32 env off val) := by
  simp only [Device.bar0WriteU32]
  split
  · exact h.doorbell env off
  · split
    · exact h.configureRing _ _ _
    · split
      · have hctrl := h.dev_comm (g := fun d => { d with globalCtrl := val }) fun _ _ => rfl
        split
        · exact hctrl.dev_comm (g := fun d => (d.ensureAdmitted env).2) fun w d => by
            rw [Backend.ensureAdmitted_worn]
        · exact hctrl
      · split
        · split
          · exact h.resetState
          · exact h
        · split
          · exact { h with irqMask := rfl }
          · split
            · exact { h with dbgDmaAddr := by rw [h.dbgDmaAddr] }
            · split
              · exact { h with dbgDmaAddr := by rw [h.dbgDmaAddr] }
              · split
                · refine { h with dev := ?_ }
                  rw [h.dbgDmaAddr]
                  exact (h.dev_comm (g := fun d => d.debugDmaWrite f.dbgDmaAddr val) fun _ _ => rfl).dev
                · exact h

private theorem WornAs.writePart (h : WornAs p past s f) (env : Env) (data : List UInt8) (part : WordPart) :
    WornAs p past (s.writePart env data part) (f.writePart env data part) := by
  simp only [Device.writePart]
  by_cases hoff : part.aligned = Ctrl.globalStatus
  · rw [hoff, globalStatus_write, globalStatus_write]
    exact h
  · rw [h.bar0ReadU32 hoff]
    exact h.bar0WriteU32 env _ _

theorem WornAs.writeBar0 (h : WornAs p past s f) (env : Env) (offset : UInt64) (data : List UInt8) :
    WornAs p past (s.writeBar0 env offset data) (f.writeBar0 env offset data) := by
  unfold Device.writeBar0
  generalize wordParts offset data.length data.length 0 = parts
  induction parts generalizing s f with
  | nil => exact h
  | cons part parts ih => exact ih (h.writePart env data part)

private theorem WornAs.access (h : WornAs p past s f) (a : Access) : WornAs p past (s.access a) (f.access a) := by
  cases a with
  | read offset len => exact h
  | write env offset data => exact h.writeBar0 env offset data
  | reset => exact h.resetState
  | map iova size host =>
    refine h.dev_comm (g := fun d => d.dmaMap iova size host) fun _ _ => ?_
    cases host <;> rfl
  | unmap iova => exact h.dev_comm (g := fun d => d.dmaUnmap iova) fun _ _ => rfl
  | unmapAll => exact h.dev_comm (g := fun d => d.dmaUnmapAll) fun _ _ => rfl
  | stores m => exact h.dev_comm (g := fun d => { d with mem := m d.mem }) fun _ _ => rfl

theorem WornAs.run (h : WornAs p past s f) (as : List Access) : WornAs p past (s.run as) (f.run as) := by
  induction as generalizing s f with
  | nil => exact h
  | cons a as ih => exact ih (h.access a)

theorem WornAs.answers (h : WornAs p past s f) (as : List Access) : s.answers as = f.answers as := by
  induction as generalizing s f with
  | nil => rfl
  | cons a as ih =>
    have hrest := ih (h.access a)
    cases a with
    | read offset len =>
      have hword : (fun off => Device.visible off (s.bar0ReadU32 off)) =
          fun off => Device.visible off (f.bar0ReadU32 off) := funext h.visible
      rw [Device.answers, Device.answers, hword]
      exact congrArg _ hrest
    | write => exact hrest
    | reset => exact hrest
    | map => exact hrest
    | unmap => exact hrest
    | unmapAll => exact hrest
    | stores => exact hrest

/-- The registers read the same but for the status register, and whatever is done with the two devices from now on,
the reads return the same (`answers`), guest memory is the same, and the same vectors are raised and the same frames
and messages handed over. -/
structure Indistinguishable (s f : Device) : Prop where
  registers : ∀ off, off ≠ Ctrl.globalStatus → s.bar0ReadU32 off = f.bar0ReadU32 off
  answers : ∀ as, s.answers as = f.answers as
  mem : ∀ as, (s.run as).dev.mem = (f.run as).dev.mem
  raised : ∀ as, (s.run as).raised = s.raised ++ (f.run as).raised
  streamed : ∀ as, (s.run as).dev.pixel = (f.run as).dev.pixel.map (s.dev.pixel.getD ⟨[], []⟩).after

private theorem WornAs.indistinguishable (h : WornAs (s.dev.pixel.getD ⟨[], []⟩) s.raised s f) :
    Indistinguishable s f where
  registers _ hoff := h.bar0ReadU32 hoff
  answers := h.answers
  mem as := by
    obtain ⟨w, -, hdev⟩ := (h.run as).dev
    rw [hdev]
    rfl
  raised as := (h.run as).raised
  streamed as := by
    obtain ⟨w, hw, hdev⟩ := (h.run as).dev
    rw [hdev, ← hw]
    rfl

/-- A reset device is a new one, worn. -/
private theorem resetState_worn (h : Configured cfg s) :
    WornAs (s.resetState.dev.pixel.getD ⟨[], []⟩) s.resetState.raised s.resetState
      { renewed { cfg with zerocopy := s.dev.zerocopyScanout } s.resetState with
        irqMask := s.irqMask, dbgDmaAddr := s.dbgDmaAddr } := by
  refine ⟨⟨⟨s.dev.presentCount, some s.dev.bytesReadLast, _⟩, rfl, ?_⟩, rfl, rfl, h.cursorPlane, ?_⟩
  · have hstreaming := h.streaming
    simp only [Device.resetState, Backend.resetState, renewed, create, Backend.withBroker, Backend.worn,
      h.brokerConfig, h.vmConfig, h.elide, Option.getD_some, UInt64.zero_add, ← hstreaming]
    cases s.dev.pixel with
    | none => rfl
    | some p =>
      have hstatus : GlobalStatus.ready &&& GlobalStatus.fatal ||| GlobalStatus.needsReset =
        GlobalStatus.needsReset := by
        decide
      simp [PixelStreamer.after, hstatus]
  · exact (List.append_nil _).symm

/-- A reset device reads as asking for a reset.  Otherwise it is a new one over the same broker, guest memory and
mappings, its zero-copy path switched off at most; nothing is said about the interrupt mask and the debug address. -/
theorem reset_renews (cfg : Config) (broker : Ledger) (mem : Memory) (hist : List Access) :
    ((create cfg broker mem).run hist).resetState.bar0ReadU32 Ctrl.globalStatus = GlobalStatus.needsReset ∧
    ∃ irqMask dbgDmaAddr zerocopy, (zerocopy = true → cfg.zerocopy = true) ∧
      Indistinguishable ((create cfg broker mem).run hist).resetState
        { renewed { cfg with zerocopy } ((create cfg broker mem).run hist).resetState with irqMask, dbgDmaAddr } := by
  have hcfg := (create_configured cfg broker mem).run hist
  exact ⟨rfl, _, _, _, hcfg.zerocopy, (resetState_worn hcfg).indistinguishable⟩

theorem reset_not_new : ¬ ∀ (cfg : Config) (broker : Ledger) (mem : Memory) (hist : List Access) (off : UInt64),
    ((create cfg broker mem).run hist).resetState.bar0ReadU32 off =
      (renewed cfg ((create cfg broker mem).run hist).resetState).bar0ReadU32 off := by
  intro h
  have hstatus := h ⟨.default, .new "vm" 1 4096, false, false, false, false⟩ .new (fun _ => 0) [] Ctrl.globalStatus
  rw [globalStatus_read, globalStatus_read] at hstatus
  cases hstatus

end Device

end Infinigpu
