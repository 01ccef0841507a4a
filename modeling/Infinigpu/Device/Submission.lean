import Infinigpu.Device.Drain

/-!
# Whether a 3D submission is reported (`infinigpu-device`, `process_ring` and `drain_ctx`)

`submit_vulkan` acknowledges every submission that reaches it, but not every submission does.  The single-descriptor
transport drops one whose workload header is not mapped, and a drain serves nothing for a VM that is not admitted
(`reported_iff`).
-/

namespace Infinigpu

namespace Backend

variable {env : Env} {ctx : Fin NUM_CONTEXTS}

/-- A submission published on the shared ring of a context, whatever its payload. -/
structure PendingOn (ctx : Fin NUM_CONTEXTS) (d : Backend) (r : RingMemory) (g : Geometry) (desc : Descriptor) :
    Prop where
  ringIndex : d.ringIndex ctx ≠ 0
  ringMemory : d.ringMemory ctx = some r
  geometry : Geometry.fromParts r.cap = .ok g
  apart : Apart g r.indexPtr r.descPtr
  pending : desc ∈ ((sharedRing g r.indexPtr r.descPtr).view d.mem).pending.map .ofSlot
  msgType : desc.msgType = MsgType.submitCmd

/-- A 3D submission that the guest has published before it rings the doorbell. -/
inductive Submission (ctx : Fin NUM_CONTEXTS) (d : Backend) where
  | command (desc : Descriptor) (sc : SubmitCmd) (published : CommandAt ctx d desc sc)
    (encoding : sc.encoding = Encoding.vulkanVenuslike)
  | descriptor (r : RingMemory) (g : Geometry) (desc : Descriptor) (published : PendingOn ctx d r g desc)

namespace Submission

variable {d : Backend}

/-- The seqno of the submission has retired where its transport reports it: in the register or on the index page. -/
def Reported (s : Submission ctx d) (d' : Backend) : Prop :=
  match s with
  | .command _ sc _ _ => sc.seqno ≤ d'.ringRetired ctx
  | .descriptor _ _ desc _ => ∃ word, d'.sharedRetired ctx = some word ∧ desc.seqno ≤ word

/-- The workload header of the submission is mapped, on the single-descriptor transport; the VM is admitted, on the
shared ring. -/
def Served (env : Env) : Submission ctx d → Prop
  | .command desc sc _ _ =>
    (d.dmaRead (d.ringBase ctx + desc.dataOffset.toUInt64) (claimed sc.payloadLen VulkanWorkload.size)).isSome
  | .descriptor _ _ _ _ => (d.ensureAdmitted env).1 = true

end Submission

/-- The command reaches `submit_vulkan` when its workload header is mapped, and is dropped when it is not. -/
private theorem processSubmit_vulkan {sc : SubmitCmd} (h : sc.encoding = Encoding.vulkanVenuslike) (addr : UInt64)
    (d : Backend) :
    d.processSubmit env sc addr ctx =
      match d.dmaRead addr (claimed sc.payloadLen VulkanWorkload.size) with
      | some pb => d.submitVulkan env sc (zeroFilled VulkanWorkload.size pb) ctx
      | none => d := by
  have hclear : sc.encoding ≠ Encoding.displayClear := by rw [h]; decide
  have hscanout : sc.encoding ≠ Encoding.displayScanout := by rw [h]; decide
  have hdamage : sc.encoding ≠ Encoding.displayScanoutDamage := by rw [h]; decide
  cases hpb : d.dmaRead addr (claimed sc.payloadLen VulkanWorkload.size) with
  | none => simp only [processSubmit, if_neg hclear, if_neg hscanout, if_neg hdamage, if_pos h, hpb]
  | some pb => simp only [processSubmit, if_neg hclear, if_neg hscanout, if_neg hdamage, if_pos h, hpb]

/-- A drain of an admitted VM reports every submission on the ring; of any other VM it changes nothing. -/
private theorem processRing_descriptor (env : Env) {d : Backend} {r : RingMemory} {g : Geometry} {desc : Descriptor}
    (h : PendingOn ctx d r g desc) :
    ((d.ensureAdmitted env).1 = true ∧
        ∃ word, (d.processRing env ctx).sharedRetired ctx = some word ∧ desc.seqno ≤ word) ∨
      ((d.ensureAdmitted env).1 = false ∧ (d.processRing env ctx).sharedRetired ctx = d.sharedRetired ctx) := by
  rw [processRing, if_pos h.ringIndex]
  rcases drainCtx_of_ringMemory env h.ringMemory h.geometry with ⟨hadm, hslots, -⟩ | ⟨hadm, hquiet⟩
  · refine .inl ⟨hadm, drainCtx_reports h.ringMemory h.geometry hadm ?_⟩
    rw [batch, ← hslots]
    exact mem_popBatch_lawful (sharedRing_lawful h.apart) h.pending
  · exact .inr ⟨hadm, hquiet.sharedRetired ctx⟩

/-- After the doorbell a submission is reported exactly if it was before or is served. -/
theorem reported_iff (env : Env) {d : Backend} (s : Submission ctx d) :
    s.Reported (d.processRing env ctx) ↔ s.Reported d ∨ s.Served env := by
  cases s with
  | command desc sc h henc =>
    simp only [Submission.Reported, Submission.Served, processRing_command h, processSubmit_vulkan henc]
    cases d.dmaRead (d.ringBase ctx + desc.dataOffset.toUInt64) (claimed sc.payloadLen VulkanWorkload.size) with
    | none => exact ⟨.inl, fun hor => hor.elim id nofun⟩
    | some pb =>
      rw [submitVulkan_self]
      exact iff_of_true (UInt64.le_refl _) (.inr rfl)
  | descriptor r g desc h =>
    simp only [Submission.Reported, Submission.Served]
    rcases processRing_descriptor env h with ⟨hadm, hword⟩ | ⟨hadm, hsame⟩
    · exact iff_of_true hword (.inr hadm)
    · rw [hsame, hadm]
      exact ⟨.inl, fun hor => hor.elim id nofun⟩

/-- A ring with one submission on it, for a VM whose VRAM cap is below what admission asks for. -/
def deniedRing : Backend :=
  { twoSlotRing (.ofWords ([1, 0, 0, 0, 0, 0, 0, 0] ++ List.replicate 8 0 ++ [0x30, 0, 80, 64, 7, 0, 0, 0] ++
      List.replicate 8 0 ++ [0, 1, 40, 0, 7, 0, 0, 0, 0, 0] ++ [0, 4, 4])) with
    vmConfig := .new "vm" 1 128 }

/-- A submission at the ring base whose workload header lies just behind the mapped area. -/
def unmappedHeader : Backend :=
  { withBroker .default .new (.new "vm" 1 4096)
      (.ofWords ([0x30, 0, 40, 72, 7, 0, 0, 0] ++ [0, 1, 40, 0, 7, 0, 0, 0, 0, 0])) with
    dma := DmaTable.new.map 0x1000 72 0
    ringBase := fun _ => 0x1000 }

theorem submissions_unreported :
    (∃ s : Submission 0 deniedRing, ¬ s.Reported (deniedRing.processRing .idle 0)) ∧
      ∃ s : Submission 0 unmappedHeader, ¬ s.Reported (unmappedHeader.processRing .idle 0) := by
  constructor
  · let desc : Descriptor :=
      { msgType := 0x30
        flags := 0
        len := 80
        dataOffset := 64
        seqno := 7
        payloadAddr := 0 }
    have hpublished : PendingOn 0 deniedRing { indexPtr := 0, descPtr := 64, cap := 2 }
        { slots := 2, pow2 := Geometry.two_pow2, le_max := Geometry.two_le_max } desc :=
      ⟨by decide, by decide, rfl, .inl (by decide), by decide, rfl⟩
    refine ⟨.descriptor _ _ desc hpublished, ?_⟩
    rintro ⟨word, hword, hle⟩
    have hzero : (deniedRing.processRing .idle 0).sharedRetired 0 = some 0 := by decide
    rw [hzero, Option.some_inj] at hword
    rw [← hword] at hle
    exact absurd hle (by decide)
  · have hpublished : CommandAt 0 unmappedHeader
        (.decode (unmappedHeader.mem.load 0 descriptorSize)) (.decode (unmappedHeader.mem.load 32 SubmitCmd.size)) :=
      ⟨rfl, by decide, by decide, by decide, by decide⟩
    refine ⟨.command _ _ hpublished (by decide), ?_⟩
    intro hle
    have hseqno : (SubmitCmd.decode (unmappedHeader.mem.load 32 SubmitCmd.size)).seqno = 7 := by decide
    have hzero : (unmappedHeader.processRing .idle 0).ringRetired 0 = 0 := by decide
    simp only [Submission.Reported, hseqno, hzero] at hle
    exact absurd hle (by decide)

end Backend

end Infinigpu
