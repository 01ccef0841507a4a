import Infinigpu.Device.Cursor
import Infinigpu.Device.Submit

/-!
# The doorbell (`infinigpu-device`, `process_ring` and `drain_ctx`)

Both transports: the single descriptor at the ring base, and the shared descriptor ring, which is drained in three
phases (pop a bounded batch, execute it, retire its highest seqno).

Handlers keep the ring configuration and the mappings (`executeDescriptor_keeps`), so after the batch the retired
word is stored where it was before; descriptors that neither submit nor flush are quiet (`executeDescriptor_quiet`).
-/

namespace Infinigpu

def MAX_PAYLOAD : Nat := 64 * 1024 * 1024

/-! ### Popping a batch -/

structure Drained where
  descriptors : List Descriptor
  highestSeqno : UInt64
deriving DecidableEq, Repr

namespace Drained

def empty : Drained where
  descriptors := []
  highestSeqno := 0

/-- One more descriptor; the maximum is taken, whatever the order of the seqnos. -/
def push (out : Drained) (d : Descriptor) : Drained where
  descriptors := out.descriptors ++ [d]
  highestSeqno := if d.seqno > out.highestSeqno then d.seqno else out.highestSeqno

end Drained

/-- The loop of `pop_batch`, with `n` descriptors still allowed. -/
def popLoop {g : Geometry} {M : Type*} (S : Store g descriptorSize UInt8 M) : Nat → Drained → M → Drained × M
  | 0, out, m => (out, m)
  | n + 1, out, m =>
    match S.pop m with
    | (some slot, m) => popLoop S n (out.push (.ofSlot slot)) m
    | (none, m) => (out, m)

/-- How many descriptors one batch may hold. -/
def batchBound (g : Geometry) (max : Nat) : Nat := min max g.capacity.toNat

def popBatch {g : Geometry} {M : Type*} (S : Store g descriptorSize UInt8 M) (max : Nat) (m : M) : Drained × M :=
  popLoop S (batchBound g max) .empty m

/-- The shared ring of a context in host memory. -/
structure RingMemory where
  indexPtr : Nat
  descPtr : Nat
  cap : Nat
deriving DecidableEq, Repr

namespace Backend

variable (env : Env)

/-! ### Commands -/

def dispatchSubmit (sc : SubmitCmd) (encPayload : List UInt8) (ctx : Fin NUM_CONTEXTS) (d : Backend) : Backend :=
  if sc.encoding = Encoding.displayClear then
    match readFromPrefix ClearPresent.size ClearPresent.decode encPayload with
    | some (cp, _) => d.renderClearPresent env cp sc.seqno ctx
    | none => d
  else if sc.encoding = Encoding.displayScanout then
    match readFromPrefix ScanoutPresent.size ScanoutPresent.decode encPayload with
    | some (sp, _) => d.presentScanout env sp sc.seqno ctx
    | none => d
  else if sc.encoding = Encoding.displayScanoutDamage then
    -- what is not carried reads as zero
    let pb := encPayload.take (claimed sc.payloadLen ScanoutPresentDamaged.size)
    let sp := ScanoutPresentDamaged.decode (zeroFilled ScanoutPresentDamaged.size pb)
    d.presentScanoutDamaged env sp sc.seqno ctx
  else if sc.encoding = Encoding.vulkanVenuslike then
    d.submitVulkan env sc encPayload ctx
  else
    d

/-- Where a descriptor's payload lies in guest memory. -/
def payloadAddr (ctx : Fin NUM_CONTEXTS) (desc : Descriptor) (d : Backend) : UInt64 :=
  if desc.flags &&& DescFlags.payloadAbs != 0 then
    desc.payloadAddr
  else
    d.ringBase ctx + desc.dataOffset.toUInt64

/-- Reads a cursor update, as much of it as the descriptor says, and forwards it. -/
def readCursorUpdate (addr : UInt64) (len : UInt32) (d : Backend) : Backend :=
  match d.dmaRead addr (claimed len CursorUpdate.size) with
  | some cb => d.handleCursorUpdate env (.decode (zeroFilled CursorUpdate.size cb))
  | none => d

def executeDescriptor (ctx : Fin NUM_CONTEXTS) (desc : Descriptor) (d : Backend) : Backend :=
  let len := desc.len.toNat
  if len > MAX_PAYLOAD then
    d
  else
    let addr := d.payloadAddr ctx desc
    if desc.msgType = MsgType.cursorUpdate then
      d.readCursorUpdate env addr desc.len
    else
      match if len > 0 then d.dmaRead addr len else some [] with
      | none => d
      | some payload =>
        if desc.msgType = MsgType.submitCmd then
          match readFromPrefix SubmitCmd.size SubmitCmd.decode payload with
          | some (sc, encPayload) => d.dispatchSubmit env sc encPayload ctx
          | none => d
        else
          let (out, resources) := executeResource desc payload d.resources
          let d := { d with resources }
          match out with
          | .flush resId rect => d.presentResourceFlush env resId rect desc.seqno ctx
          | _ => d

/-! ### The shared ring -/

/-- The ring of a context, if its geometry is accepted and all of it is mapped. -/
def ringMemory (ctx : Fin NUM_CONTEXTS) (d : Backend) : Option RingMemory :=
  let cap := (d.ringCap ctx).toNat
  if d.ringBase ctx = 0 ∨ cap = 0 ∨ ¬ cap.isPowerOfTwo then
    none
  else
    match d.dma.resolve (d.ringIndex ctx) indicesSize, d.dma.resolve (d.ringBase ctx) (cap * descriptorSize) with
    | some indexPtr, some descPtr => some { indexPtr, descPtr, cap }
    | _, _ => none

/-- Phase 2: the batch is executed in order. -/
def executeBatch (ctx : Fin NUM_CONTEXTS) (batch : List Descriptor) (d : Backend) : Backend :=
  batch.foldl (fun d desc => d.executeDescriptor env ctx desc) d

/-- Phase 3: the highest seqno is published on the page and in the register. -/
def retireBatch {g : Geometry} (S : Store g descriptorSize UInt8 Memory) (ctx : Fin NUM_CONTEXTS)
    (highestSeqno : UInt64) (d : Backend) : Backend :=
  if highestSeqno > 0 then { d with mem := S.retire highestSeqno d.mem }.retire ctx highestSeqno else d

/-- The three phases over a ring view. -/
def serveRing (g : Geometry) (r : RingMemory) (ctx : Fin NUM_CONTEXTS) (d : Backend) : Backend :=
  let S := sharedRing g r.indexPtr r.descPtr
  let (drained, mem) := popBatch S r.cap d.mem
  let d := { d with mem }.executeBatch env ctx drained.descriptors
  d.retireBatch S ctx drained.highestSeqno

def drainCtx (ctx : Fin NUM_CONTEXTS) (d : Backend) : Backend :=
  match d.ringMemory ctx with
  | none => d
  | some r =>
    let (admitted, d) := d.ensureAdmitted env
    if !admitted then
      d
    else
      match Geometry.fromParts r.cap with
      | .error _ => d
      | .ok g => d.serveRing env g r ctx

/-! ### The single-descriptor transport -/

/-- The command after the descriptor at the ring base, its payload being at `addr`. -/
def processSubmit (sc : SubmitCmd) (addr : UInt64) (ctx : Fin NUM_CONTEXTS) (d : Backend) : Backend :=
  if sc.encoding = Encoding.displayClear then
    match d.dmaRead addr ClearPresent.size with
    | some pb => d.renderClearPresent env (.decode pb) sc.seqno ctx
    | none => d
  else if sc.encoding = Encoding.displayScanout then
    match d.dmaRead addr ScanoutPresent.size with
    | some pb => d.presentScanout env (.decode pb) sc.seqno ctx
    | none => d
  else if sc.encoding = Encoding.displayScanoutDamage then
    match d.dmaRead addr (claimed sc.payloadLen ScanoutPresentDamaged.size) with
    | some pb =>
      d.presentScanoutDamaged env (.decode (zeroFilled ScanoutPresentDamaged.size pb)) sc.seqno ctx
    | none => d
  else if sc.encoding = Encoding.vulkanVenuslike then
    match d.dmaRead addr (claimed sc.payloadLen VulkanWorkload.size) with
    | some pb => d.submitVulkan env sc (zeroFilled VulkanWorkload.size pb) ctx
    | none => d
  else
    d

def processRing (ctx : Fin NUM_CONTEXTS) (d : Backend) : Backend :=
  if d.ringIndex ctx ≠ 0 then
    d.drainCtx env ctx
  else
    let base := d.ringBase ctx
    if base = 0 then
      d
    else
      match d.dmaRead base descriptorSize with
      | none => d
      | some db =>
        let desc := Descriptor.decode db
        let addr := base + desc.dataOffset.toUInt64
        if desc.msgType = MsgType.cursorUpdate then
          (d.readCursorUpdate env addr desc.len).retire ctx desc.seqno
        else if desc.msgType ≠ MsgType.submitCmd then
          d
        else
          match d.dmaRead (base + UInt64.ofNat descriptorSize) SubmitCmd.size with
          | none => d
          | some sb => d.processSubmit env (.decode sb) addr ctx

/-- The geometry of `twoSlotRing`, and where it lies. -/
def twoSlots : Geometry where
  slots := 2
  pow2 := Geometry.two_pow2
  le_max := Geometry.two_le_max

def twoSlotArea : RingMemory where
  indexPtr := 0
  descPtr := 64
  cap := 2

/-- A new backend where every context has a ring of two slots in the mapped page at guest address `0x1000`: the index
page at the host address 0 and the descriptor array behind it. -/
def twoSlotRing (mem : Memory) : Backend :=
  { withBroker .default .new (.new "vm" 1 4096) mem with
    dma := DmaTable.new.map 0x1000 0x1000 0
    ringBase := fun _ => 0x1040
    ringIndex := fun _ => 0x1000
    ringCap := fun _ => 2 }

variable {env}

/-! ### What a descriptor does -/

theorem readCursorUpdate_quiet (addr : UInt64) (len : UInt32) (d : Backend) :
    Quiet d (d.readCursorUpdate env addr len) := by
  unfold readCursorUpdate
  split
  · exact handleCursorUpdate_quiet _ _
  · exact .refl d

private theorem dispatchSubmit_keeps (sc : SubmitCmd) (encPayload : List UInt8) (ctx : Fin NUM_CONTEXTS)
    (d : Backend) :
    Keeps d (d.dispatchSubmit env sc encPayload ctx) := by
  simp only [dispatchSubmit]
  split
  · split
    · exact renderClearPresent_keeps _ _ _ _
    · exact .refl d
  · split
    · split
      · exact presentScanout_keeps _ _ _ _
      · exact .refl d
    · split
      · exact presentScanoutDamaged_keeps _ _ _ _
      · split
        · exact submitVulkan_keeps _ _ _ _
        · exact .refl d

theorem resources_quiet (resources : ResourceTable) (d : Backend) : Quiet d { d with resources } :=
  ⟨⟨rfl, rfl, rfl, rfl, id⟩, rfl, rfl, rfl, rfl, rfl⟩

/-- Whatever a descriptor asks for, the ring configuration, the mappings and the ticket stay. -/
theorem executeDescriptor_keeps (ctx : Fin NUM_CONTEXTS) (desc : Descriptor) (d : Backend) :
    Keeps d (d.executeDescriptor env ctx desc) := by
  simp only [executeDescriptor]
  split
  · exact .refl d
  · split
    · exact (readCursorUpdate_quiet _ _ _).toKeeps
    · split
      · exact .refl d
      · split
        · split
          · exact dispatchSubmit_keeps _ _ _ _
          · exact .refl d
        · split
          · exact (resources_quiet _ d).toKeeps.trans (presentResourceFlush_keeps _ _ _ _ _)
          · exact (resources_quiet _ d).toKeeps

/-- A descriptor that neither submits nor flushes acknowledges nothing and writes nothing. -/
theorem executeDescriptor_quiet {ctx : Fin NUM_CONTEXTS} {desc : Descriptor}
    (hsubmit : desc.msgType ≠ MsgType.submitCmd) (hflush : desc.msgType ≠ MsgType.resourceFlush) (d : Backend) :
    Quiet d (d.executeDescriptor env ctx desc) := by
  simp only [executeDescriptor]
  split
  · exact .refl d
  · split
    · exact readCursorUpdate_quiet _ _ _
    · split
      · exact .refl d
      · split
        · rename_i resId rect hout
          exact absurd (executeResource_flush hout) hflush
        · exact resources_quiet _ d

theorem executeBatch_cons (ctx : Fin NUM_CONTEXTS) (desc : Descriptor) (batch : List Descriptor) (d : Backend) :
    d.executeBatch env ctx (desc :: batch) = (d.executeDescriptor env ctx desc).executeBatch env ctx batch := rfl

theorem executeBatch_keeps (env : Env) (ctx : Fin NUM_CONTEXTS) (batch : List Descriptor) (d : Backend) :
    Keeps d (d.executeBatch env ctx batch) := by
  induction batch generalizing d with
  | nil => exact .refl d
  | cons desc batch ih => exact (executeDescriptor_keeps ctx desc d).trans (ih _)

theorem executeBatch_quiet (env : Env) (ctx : Fin NUM_CONTEXTS) {batch : List Descriptor}
    (h : ∀ desc ∈ batch, desc.msgType ≠ MsgType.submitCmd ∧ desc.msgType ≠ MsgType.resourceFlush) (d : Backend) :
    Quiet d (d.executeBatch env ctx batch) := by
  induction batch generalizing d with
  | nil => exact .refl d
  | cons desc batch ih =>
    obtain ⟨hsubmit, hflush⟩ := h desc List.mem_cons_self
    exact (executeDescriptor_quiet hsubmit hflush d).trans (ih (fun e he => h e (List.mem_cons_of_mem _ he)) _)

/-! ### What a command does -/

/-- The descriptor and the command that the single-descriptor transport finds at the ring base. -/
structure CommandAt (ctx : Fin NUM_CONTEXTS) (d : Backend) (desc : Descriptor) (sc : SubmitCmd) : Prop where
  ringIndex : d.ringIndex ctx = 0
  ringBase : d.ringBase ctx ≠ 0
  descriptor : (d.dmaRead (d.ringBase ctx) descriptorSize).map .decode = some desc
  command : (d.dmaRead (d.ringBase ctx + UInt64.ofNat descriptorSize) SubmitCmd.size).map .decode = some sc
  msgType : desc.msgType = MsgType.submitCmd

theorem processRing_command {ctx : Fin NUM_CONTEXTS} {d : Backend} {desc : Descriptor} {sc : SubmitCmd}
    (h : CommandAt ctx d desc sc) :
    d.processRing env ctx = d.processSubmit env sc (d.ringBase ctx + desc.dataOffset.toUInt64) ctx := by
  obtain ⟨db, hdb, rfl⟩ := Option.map_eq_some_iff.1 h.descriptor
  obtain ⟨sb, hsb, rfl⟩ := Option.map_eq_some_iff.1 h.command
  have hcursor : (Descriptor.decode db).msgType ≠ MsgType.cursorUpdate := by rw [h.msgType]; decide
  simp only [processRing, hdb, hsb]
  rw [if_neg (not_not.2 h.ringIndex), if_neg h.ringBase, if_neg hcursor, if_neg (not_not.2 h.msgType)]

/-! ### What a drain does -/

theorem Keeps.ringMemory {d d' : Backend} (h : Keeps d d') (ctx : Fin NUM_CONTEXTS) :
    d'.ringMemory ctx = d.ringMemory ctx := by
  rw [Backend.ringMemory, Backend.ringMemory, h.ringBase, h.ringCap, h.ringIndex, h.dma]

/-- The retired word on the index page of a context. -/
def sharedRetired (ctx : Fin NUM_CONTEXTS) (d : Backend) : Option UInt64 :=
  (d.ringMemory ctx).map fun r => (Indices.fromPtr d.mem r.indexPtr).seqnoRetired

theorem sharedRetired_of_ringMemory {ctx : Fin NUM_CONTEXTS} {d : Backend} {r : RingMemory}
    (h : d.ringMemory ctx = some r) :
    d.sharedRetired ctx = some (Indices.fromPtr d.mem r.indexPtr).seqnoRetired := by
  rw [sharedRetired, h, Option.map_some]

theorem Quiet.sharedRetired {d d' : Backend} (h : Quiet d d') (ctx : Fin NUM_CONTEXTS) :
    d'.sharedRetired ctx = d.sharedRetired ctx := by
  rw [Backend.sharedRetired, Backend.sharedRetired, h.ringMemory, h.mem]

/-- A ring that is served has a capacity `from_parts` accepts. -/
theorem fromParts_of_ringMemory {ctx : Fin NUM_CONTEXTS} {d : Backend} {r : RingMemory}
    (h : d.ringMemory ctx = some r) : ∃ g, Geometry.fromParts r.cap = .ok g ∧ g.slots = r.cap := by
  simp only [Backend.ringMemory] at h
  split at h
  · cases h
  · rename_i hgeom
    rw [not_or, not_or, not_not] at hgeom
    split at h
    · cases h
      refine Geometry.fromParts_eq_ok hgeom.2.2 ?_
      have := (d.ringCap ctx).toNat_lt
      show (d.ringCap ctx).toNat ≤ 2 ^ 32 - 1
      omega
    · cases h

/-- Nothing is served, and only admission was tried; or the three phases run. -/
theorem drainCtx_cases (env : Env) (ctx : Fin NUM_CONTEXTS) (d : Backend) :
    ((d.ringMemory ctx = none ∨ (d.ensureAdmitted env).1 = false) ∧ Quiet d (d.drainCtx env ctx)) ∨
      ∃ r g, d.ringMemory ctx = some r ∧ Geometry.fromParts r.cap = .ok g ∧ g.slots = r.cap ∧
        (d.ensureAdmitted env).1 = true ∧
        d.drainCtx env ctx = (d.ensureAdmitted env).2.serveRing env g r ctx := by
  unfold drainCtx
  split
  · rename_i hnone
    exact .inl ⟨.inl hnone, .refl d⟩
  · rename_i r hr
    obtain ⟨g, hg, hslots⟩ := fromParts_of_ringMemory hr
    simp only [hg]
    by_cases hadm : (d.ensureAdmitted env).1 = true
    · right
      refine ⟨r, g, hr, hg, hslots, hadm, ?_⟩
      rw [if_neg (by rw [hadm]; decide)]
    · left
      rw [Bool.not_eq_true] at hadm
      rw [if_pos (by rw [hadm]; decide)]
      exact ⟨.inr hadm, ensureAdmitted_quiet env d⟩

/-- A ring that is there is served if and only if the VM is admitted. -/
theorem drainCtx_of_ringMemory (env : Env) {ctx : Fin NUM_CONTEXTS} {d : Backend} {r : RingMemory} {g : Geometry}
    (hr : d.ringMemory ctx = some r) (hg : Geometry.fromParts r.cap = .ok g) :
    ((d.ensureAdmitted env).1 = true ∧ g.slots = r.cap ∧
        d.drainCtx env ctx = (d.ensureAdmitted env).2.serveRing env g r ctx) ∨
      ((d.ensureAdmitted env).1 = false ∧ Quiet d (d.drainCtx env ctx)) := by
  rcases drainCtx_cases env ctx d with ⟨hnone | hadm, hquiet⟩ | ⟨r', g', hr', hg', hslots, hadm, heq⟩
  · rw [hr] at hnone
    cases hnone
  · exact .inr ⟨hadm, hquiet⟩
  · rw [hr, Option.some_inj] at hr'
    subst hr'
    rw [hg, Except.ok.injEq] at hg'
    subst hg'
    exact .inl ⟨hadm, hslots, heq⟩

end Backend

end Infinigpu
