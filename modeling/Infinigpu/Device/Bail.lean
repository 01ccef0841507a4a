import Infinigpu.Device.Drain

/-!
# Damaged presents that bail (`infinigpu-device`, `present_scanout_damaged`)

A damaged present that cannot read the framebuffer leaves the retained image alone and acknowledges nothing.  On the
single-descriptor transport this is what the guest sees; a drain retires the whole batch, with the present that bailed
in it (`unacknowledged_iff`).
-/

namespace Infinigpu

namespace Backend

variable {env : Env} {ctx : Fin NUM_CONTEXTS}

/-- The damaged present that a descriptor of the ring asks for: a submission with its encoding, or a flush of a bound
resource. -/
def damagedPresent (ctx : Fin NUM_CONTEXTS) (desc : Descriptor) (d : Backend) : Option ScanoutPresentDamaged :=
  let len := desc.len.toNat
  if len > MAX_PAYLOAD then
    none
  else
    match if len > 0 then d.dmaRead (d.payloadAddr ctx desc) len else some [] with
    | none => none
    | some payload =>
      if desc.msgType = MsgType.submitCmd then
        match readFromPrefix SubmitCmd.size SubmitCmd.decode payload with
        | none => none
        | some (sc, encPayload) =>
          if sc.encoding = Encoding.displayScanoutDamage then
            let pb := encPayload.take (claimed sc.payloadLen ScanoutPresentDamaged.size)
            some (.decode (zeroFilled ScanoutPresentDamaged.size pb))
          else
            none
      else if desc.msgType = MsgType.resourceFlush then
        match executeResource desc payload d.resources with
        | (.flush resId rect, resources) => { d with resources }.flushPresent resId rect
        | _ => none
      else
        none

theorem dispatchSubmit_damage {sc : SubmitCmd} (h : sc.encoding = Encoding.displayScanoutDamage)
    (encPayload : List UInt8) (d : Backend) :
    d.dispatchSubmit env sc encPayload ctx =
      d.presentScanoutDamaged env (.decode (zeroFilled ScanoutPresentDamaged.size
        (encPayload.take (claimed sc.payloadLen ScanoutPresentDamaged.size)))) sc.seqno ctx := by
  have hclear : sc.encoding ≠ Encoding.displayClear := by rw [h]; decide
  have hscanout : sc.encoding ≠ Encoding.displayScanout := by rw [h]; decide
  rw [dispatchSubmit, if_neg hclear, if_neg hscanout, if_pos h]

/-- Where the damaged present of a descriptor comes from. -/
private theorem damagedPresent_cases {desc : Descriptor} {sp : ScanoutPresentDamaged} {d : Backend}
    (h : d.damagedPresent ctx desc = some sp) :
    ¬ desc.len.toNat > MAX_PAYLOAD ∧ ∃ payload,
      (if desc.len.toNat > 0 then d.dmaRead (d.payloadAddr ctx desc) desc.len.toNat else some []) = some payload ∧
      ((desc.msgType = MsgType.submitCmd ∧ ∃ sc encPayload,
          readFromPrefix SubmitCmd.size SubmitCmd.decode payload = some (sc, encPayload) ∧
          sc.encoding = Encoding.displayScanoutDamage ∧
          sp = .decode (zeroFilled ScanoutPresentDamaged.size
            (encPayload.take (claimed sc.payloadLen ScanoutPresentDamaged.size)))) ∨
        (desc.msgType = MsgType.resourceFlush ∧ ∃ resId rect resources,
          executeResource desc payload d.resources = (.flush resId rect, resources) ∧
          { d with resources }.flushPresent resId rect = some sp)) := by
  simp only [damagedPresent] at h
  split at h
  · cases h
  · rename_i hlen
    split at h
    · cases h
    · rename_i payload hpayload
      refine ⟨hlen, payload, hpayload, ?_⟩
      split at h
      · rename_i hsubmit
        split at h
        · cases h
        · rename_i sc encPayload hsc
          split at h
          · rename_i hdamage
            exact .inl ⟨hsubmit, sc, encPayload, hsc, hdamage, (Option.some_inj.1 h).symm⟩
          · cases h
      · split at h
        · rename_i hflush
          split at h
          · rename_i resId rect resources hout
            exact .inr ⟨hflush, resId, rect, resources, hout, h⟩
          · cases h
        · cases h

/-- Executing the descriptor is that present, after some bookkeeping. -/
private theorem executeDescriptor_damaged (env : Env) {desc : Descriptor} {sp : ScanoutPresentDamaged} {d : Backend}
    (h : d.damagedPresent ctx desc = some sp) :
    ∃ seqno d', Quiet d d' ∧ d.executeDescriptor env ctx desc = d'.presentScanoutDamaged env sp seqno ctx := by
  obtain ⟨hlen, payload, hpayload, hkind⟩ := damagedPresent_cases h
  rcases hkind with ⟨hsubmit, sc, encPayload, hsc, hdamage, rfl⟩ | ⟨hflush, resId, rect, resources, hout, hbind⟩
  · have hcursor : desc.msgType ≠ MsgType.cursorUpdate := by rw [hsubmit]; decide
    refine ⟨sc.seqno, d, .refl d, ?_⟩
    simp only [executeDescriptor, if_neg hlen, if_neg hcursor, hpayload, if_pos hsubmit, hsc]
    exact dispatchSubmit_damage hdamage _ _
  · have hcursor : desc.msgType ≠ MsgType.cursorUpdate := by rw [hflush]; decide
    have hsubmit : desc.msgType ≠ MsgType.submitCmd := by rw [hflush]; decide
    refine ⟨desc.seqno, { d with resources }.invalidateElision, ?_, ?_⟩
    · exact (resources_quiet _ d).trans (invalidateElision_quiet _)
    · have hkept : ({ d with resources }.invalidateElision).flushPresent resId rect = some sp := hbind
      simp only [executeDescriptor, if_neg hlen, if_neg hcursor, hpayload, if_neg hsubmit, hout, presentResourceFlush,
        hkept]

private theorem Quiet.unreadable {d d' : Backend} (h : Quiet d d') {sp : ScanoutPresentDamaged} {fbBytes : Nat}
    (hun : d.Unreadable sp fbBytes) : d'.Unreadable sp fbBytes := by
  rw [← damagedSurface_eq_none_iff, h.damagedSurface, damagedSurface_eq_none_iff]
  exact hun

/-- A descriptor whose present bails does nothing but bookkeeping. -/
private theorem executeDescriptor_bails {desc : Descriptor} {sp : ScanoutPresentDamaged} {d : Backend}
    (h : d.damagedPresent ctx desc = some sp) (hticket : d.ticket.isSome) {fbBytes : Nat}
    (hfb : sp.fbBytes = some fbBytes) (hun : d.Unreadable sp fbBytes) :
    Quiet d (d.executeDescriptor env ctx desc) := by
  obtain ⟨seqno, d', hq, heq⟩ := executeDescriptor_damaged env h
  have hadm : (d'.ensureAdmitted env).1 = true := by rw [ensureAdmitted_of_ticket (hq.ticket hticket)]
  have hbails : d'.Bails env sp := ⟨hadm, fbBytes, hfb, hq.unreadable hun⟩
  rw [heq]
  exact hq.trans (hbails.quiet seqno ctx)

/-! ### On both transports -/

/-- The state in which a drain executes the descriptor that follows `before` in its batch. -/
def afterFirst (env : Env) (ctx : Fin NUM_CONTEXTS) (g : Geometry) (r : RingMemory) (before : List Descriptor)
    (d : Backend) : Backend :=
  ((d.ensureAdmitted env).2.popped g r).executeBatch env ctx before

/-- A damaged present that bails because of what it reads, as the command of a doorbell. -/
structure BailsAsCommand (env : Env) (ctx : Fin NUM_CONTEXTS) (d : Backend) (desc : Descriptor) (sc : SubmitCmd)
    (sp : ScanoutPresentDamaged) : Prop where
  published : CommandAt ctx d desc sc
  encoding : sc.encoding = Encoding.displayScanoutDamage
  payload : (d.dmaRead (d.ringBase ctx + desc.dataOffset.toUInt64)
    (claimed sc.payloadLen ScanoutPresentDamaged.size)).map
      (fun pb => ScanoutPresentDamaged.decode (zeroFilled ScanoutPresentDamaged.size pb)) = some sp
  bails : d.Bails env sp

/-- A damaged present that bails because of what it reads, as the descriptor between `before` and `after` in the batch
that a doorbell drains. -/
structure BailsInBatch (env : Env) (ctx : Fin NUM_CONTEXTS) (d : Backend) (r : RingMemory) (g : Geometry)
    (before : List Descriptor) (desc : Descriptor) (after : List Descriptor) (sp : ScanoutPresentDamaged) :
    Prop where
  ringIndex : d.ringIndex ctx ≠ 0
  ringMemory : d.ringMemory ctx = some r
  geometry : Geometry.fromParts r.cap = .ok g
  admitted : (d.ensureAdmitted env).1 = true
  batch : (d.batch g r).descriptors = before ++ desc :: after
  present : (d.afterFirst env ctx g r before).damagedPresent ctx desc = some sp
  bails : ∃ fbBytes, sp.fbBytes = some fbBytes ∧ (d.afterFirst env ctx g r before).Unreadable sp fbBytes

/-- A damaged present that bails because the framebuffer or a row of it cannot be read. -/
inductive BailedPresent (env : Env) (ctx : Fin NUM_CONTEXTS) (d : Backend) where
  | command (desc : Descriptor) (sc : SubmitCmd) (sp : ScanoutPresentDamaged)
    (bailed : BailsAsCommand env ctx d desc sc sp)
  | drained (r : RingMemory) (g : Geometry) (before : List Descriptor) (desc : Descriptor)
    (after : List Descriptor) (sp : ScanoutPresentDamaged) (bailed : BailsInBatch env ctx d r g before desc after sp)

namespace BailedPresent

variable {d : Backend}

/-- The present leaves the retained image as it was. -/
def KeepsImage : BailedPresent env ctx d → Prop
  | .command _ _ _ _ => (d.processRing env ctx).lastScanout = d.lastScanout
  | .drained r g before desc _ _ _ =>
    ((d.afterFirst env ctx g r before).executeDescriptor env ctx desc).lastScanout =
      (d.afterFirst env ctx g r before).lastScanout

/-- The seqno of the present is reported retired, in the register or on the index page. -/
def Reported (d' : Backend) : BailedPresent env ctx d → Prop
  | .command _ sc _ _ => sc.seqno ≤ d'.ringRetired ctx
  | .drained _ _ _ desc _ _ _ => ∃ word, d'.sharedRetired ctx = some word ∧ desc.seqno ≤ word

/-- The present came as a command, and its seqno is not reported already. -/
def FreshCommand : BailedPresent env ctx d → Prop
  | .command _ sc _ _ => ¬ sc.seqno ≤ d.ringRetired ctx
  | .drained _ _ _ _ _ _ _ => False

end BailedPresent

private theorem BailsAsCommand.quiet {d : Backend} {desc : Descriptor} {sc : SubmitCmd} {sp : ScanoutPresentDamaged}
    (h : BailsAsCommand env ctx d desc sc sp) : Quiet d (d.processRing env ctx) := by
  have hclear : sc.encoding ≠ Encoding.displayClear := by rw [h.encoding]; decide
  have hscanout : sc.encoding ≠ Encoding.displayScanout := by rw [h.encoding]; decide
  obtain ⟨pb, hpb, hsp⟩ := Option.map_eq_some_iff.1 h.payload
  rw [processRing_command h.published, processSubmit, if_neg hclear, if_neg hscanout, if_pos h.encoding, hpb]
  simp only
  rw [hsp]
  exact h.bails.quiet _ _

theorem BailsInBatch.quiet {d : Backend} {r : RingMemory} {g : Geometry} {before after : List Descriptor}
    {desc : Descriptor} {sp : ScanoutPresentDamaged} (h : BailsInBatch env ctx d r g before desc after sp) :
    Quiet (d.afterFirst env ctx g r before) ((d.afterFirst env ctx g r before).executeDescriptor env ctx desc) := by
  have hkeeps := (popped_keeps g r _).trans (executeBatch_keeps env ctx before ((d.ensureAdmitted env).2.popped g r))
  obtain ⟨fbBytes, hfb, hun⟩ := h.bails
  exact executeDescriptor_bails h.present (hkeeps.ticket (ensureAdmitted_ticket h.admitted)) hfb hun

/-- A drain reports every descriptor of its batch. -/
private theorem BailsInBatch.reported {d : Backend} {r : RingMemory} {g : Geometry} {before after : List Descriptor}
    {desc : Descriptor} {sp : ScanoutPresentDamaged} (h : BailsInBatch env ctx d r g before desc after sp) :
    ∃ word, (d.processRing env ctx).sharedRetired ctx = some word ∧ desc.seqno ≤ word := by
  rw [processRing, if_pos h.ringIndex]
  refine drainCtx_reports h.ringMemory h.geometry h.admitted ?_
  rw [h.batch]
  exact List.mem_append_right _ List.mem_cons_self

/-- Bailing leaves the image alone everywhere, but only a command that bails stays unacknowledged. -/
theorem unacknowledged_iff {d : Backend} (b : BailedPresent env ctx d) :
    b.KeepsImage ∧ ¬ b.Reported (d.processRing env ctx) ↔ b.FreshCommand := by
  cases b with
  | command desc sc sp h =>
    simp only [BailedPresent.KeepsImage, BailedPresent.Reported, BailedPresent.FreshCommand, h.quiet.lastScanout,
      h.quiet.ringRetired, true_and]
  | drained r g before desc after sp h =>
    exact iff_of_false (fun hkept => hkept.2 h.reported) id

/-- A ring with one damaged present on it, of a framebuffer that is not mapped. -/
def unmappedPresent : Backend :=
  twoSlotRing (.ofWords ([1, 0, 0, 0, 0, 0, 0, 0] ++ List.replicate 8 0 ++ [0x30, 0, 80, 64, 7, 0, 0, 0] ++
    List.replicate 8 0 ++ [0, 0x102, 40, 0, 7, 0, 0, 0, 0, 0] ++ [1, 1, 4, 1, 0x9000, 0, 0, 0, 1, 1]))

theorem bailed_present_reported : ∃ b : BailedPresent .idle 0 unmappedPresent,
    ¬ (b.KeepsImage ∧ ¬ b.Reported (unmappedPresent.processRing .idle 0)) := by
  let desc : Descriptor :=
    { msgType := 0x30
      flags := 0
      len := 80
      dataOffset := 64
      seqno := 7
      payloadAddr := 0 }
  let sp : ScanoutPresentDamaged :=
    { width := 1
      height := 1
      pitch := 4
      format := 1
      scanoutAddr := 0x9000
      dx := 0
      dy := 0
      dw := 1
      dh := 1 }
  have hbailed : BailsInBatch .idle 0 unmappedPresent { indexPtr := 0, descPtr := 64, cap := 2 }
      { slots := 2, pow2 := Geometry.two_pow2, le_max := Geometry.two_le_max } [] desc [] sp :=
    ⟨by decide, by decide, rfl, by decide, by decide, by decide, 4, by decide, .inl ⟨.inl rfl, by decide⟩⟩
  exact ⟨.drained _ _ _ _ _ _ hbailed, fun h => h.2 hbailed.reported⟩

end Backend

end Infinigpu
