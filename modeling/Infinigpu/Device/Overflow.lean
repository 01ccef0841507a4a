import Infinigpu.Device.Bail
import Infinigpu.Device.Flush
import Infinigpu.Device.Registers
import Infinigpu.Lib.Checked

/-!
# Guest addresses that overflow (`infinigpu-device`)

The addresses the device computes start from values the guest programs: the base of a ring and the address of a
framebuffer.  `processRingChecked` serves a doorbell with overflow checks on, where an address that does not fit into
64 bits is a panic.  It does what the unchecked device does exactly if `AddressesFit` holds
(`processRing_checked_iff`): the base of a ring and the data offset are added without a check, and so are the address
of a framebuffer and the offset of a damaged row.  The command behind the descriptor at the base needs no check, since
the descriptor has been read.
-/

namespace Infinigpu

/-- The guest address of the damaged part of row `dy + r`, checked. -/
def ScanoutPresentDamaged.rowAddrChecked (sp : ScanoutPresentDamaged) (r : Nat) : Option UInt64 :=
  ((UInt64.ofNat (sp.damage.dy + r)).mulChecked sp.pitch.toUInt64).bind fun row =>
    (sp.scanoutAddr.addChecked row).bind fun addr =>
      ((UInt64.ofNat sp.damage.dx).mulChecked 4).bind fun column => addr.addChecked column

namespace Backend

variable (env : Env)

/-! ### The device with overflow checks -/

def readRowsChecked (sp : ScanoutPresentDamaged) (d : Backend) : Nat → Option (Option (List UInt8))
  | 0 => some (some [])
  | n + 1 =>
    (d.readRowsChecked sp n).bind fun rows =>
      match rows with
      | none => some none
      | some rows => (sp.rowAddrChecked n).map fun addr => (d.dmaRead addr (sp.damage.dw * 4)).map (rows ++ ·)

def damagedSurfaceChecked (sp : ScanoutPresentDamaged) (fbBytes : Nat) (d : Backend) :
    Option (Option (ScanoutBuffer × Nat)) :=
  let dmg := sp.damage
  let fullDamage := dmg.dx = 0 ∧ dmg.dy = 0 ∧ dmg.dw = sp.w ∧ dmg.dh = sp.h
  match d.matchingScanout sp.w sp.h with
  | none => some (d.damagedSurface sp fbBytes)
  | some b =>
    if ¬ fullDamage ∧ dmg.dw > 0 ∧ dmg.dh > 0 then
      (d.readRowsChecked sp dmg.dh).map fun rows => rows.map fun rows =>
        let row (r : Nat) := swizzleRowToBgra (Bytes.slice rows (r * (dmg.dw * 4)) (dmg.dw * 4)) sp.bgraIsCopy
        ({ b with bgra := paintRows sp.w dmg.dx dmg.dy row dmg.dh b.bgra }, dmg.dw * dmg.dh * 4)
    else
      some (d.damagedSurface sp fbBytes)

/-- What a present does with the surface it has made. -/
def showSurface (seqno : UInt64) (ctx : Fin NUM_CONTEXTS) (d : Backend) : Option (ScanoutBuffer × Nat) → Backend
  | none => d
  | some (b, bytesRead) =>
    let d := { d with
      lastScanout := some b
      bytesReadLast := bytesRead
      presentCount := d.presentCount + 1 }
    let d := d.retire ctx seqno
    d.streamFrame b.bgra (UInt32.ofNat b.w) (UInt32.ofNat b.h)

def presentScanoutDamagedChecked (sp : ScanoutPresentDamaged) (seqno : UInt64) (ctx : Fin NUM_CONTEXTS)
    (d : Backend) :
    Option Backend :=
  let d := d.invalidateElision
  let (admitted, d) := d.ensureAdmitted env
  if !admitted then
    some d
  else
    match sp.fbBytes with
    | none => some d
    | some fbBytes =>
      let d := d.accountScanoutVram sp.width sp.height
      (d.damagedSurfaceChecked sp fbBytes).map (d.showSurface seqno ctx)

def presentResourceFlushChecked (resId : UInt32) (rect : Rect) (seqno : UInt64) (ctx : Fin NUM_CONTEXTS)
    (d : Backend) : Option Backend :=
  let d := d.invalidateElision
  match d.flushPresent resId rect with
  | none => some d
  | some sp => d.presentScanoutDamagedChecked env sp seqno ctx

/-- Only a damaged present computes an address. -/
def dispatchSubmitChecked (sc : SubmitCmd) (encPayload : List UInt8) (ctx : Fin NUM_CONTEXTS) (d : Backend) :
    Option Backend :=
  if sc.encoding = Encoding.displayScanoutDamage then
    let pb := encPayload.take (claimed sc.payloadLen ScanoutPresentDamaged.size)
    let sp := ScanoutPresentDamaged.decode (zeroFilled ScanoutPresentDamaged.size pb)
    d.presentScanoutDamagedChecked env sp sc.seqno ctx
  else
    some (d.dispatchSubmit env sc encPayload ctx)

def payloadAddrChecked (ctx : Fin NUM_CONTEXTS) (desc : Descriptor) (d : Backend) : Option UInt64 :=
  if desc.flags &&& DescFlags.payloadAbs != 0 then
    some desc.payloadAddr
  else
    (d.ringBase ctx).addChecked desc.dataOffset.toUInt64

def executeDescriptorChecked (ctx : Fin NUM_CONTEXTS) (desc : Descriptor) (d : Backend) : Option Backend :=
  let len := desc.len.toNat
  if len > MAX_PAYLOAD then
    some d
  else
    (d.payloadAddrChecked ctx desc).bind fun addr =>
      if desc.msgType = MsgType.cursorUpdate then
        some (d.readCursorUpdate env addr desc.len)
      else
        match if len > 0 then d.dmaRead addr len else some [] with
        | none => some d
        | some payload =>
          if desc.msgType = MsgType.submitCmd then
            match readFromPrefix SubmitCmd.size SubmitCmd.decode payload with
            | some (sc, encPayload) => d.dispatchSubmitChecked env sc encPayload ctx
            | none => some d
          else
            let (out, resources) := executeResource desc payload d.resources
            let d := { d with resources }
            match out with
            | .flush resId rect => d.presentResourceFlushChecked env resId rect desc.seqno ctx
            | _ => some d

def serveRingChecked (g : Geometry) (r : RingMemory) (ctx : Fin NUM_CONTEXTS) (d : Backend) : Option Backend :=
  let S := sharedRing g r.indexPtr r.descPtr
  let (drained, mem) := popBatch S r.cap d.mem
  let executed := drained.descriptors.foldlM (fun d desc => d.executeDescriptorChecked env ctx desc) { d with mem }
  executed.map fun d => d.retireBatch S ctx drained.highestSeqno

def drainCtxChecked (ctx : Fin NUM_CONTEXTS) (d : Backend) : Option Backend :=
  match d.ringMemory ctx with
  | none => some d
  | some r =>
    let (admitted, d) := d.ensureAdmitted env
    if !admitted then
      some d
    else
      match Geometry.fromParts r.cap with
      | .error _ => some d
      | .ok g => d.serveRingChecked env g r ctx

def processSubmitChecked (sc : SubmitCmd) (addr : UInt64) (ctx : Fin NUM_CONTEXTS) (d : Backend) : Option Backend :=
  if sc.encoding = Encoding.displayScanoutDamage then
    match d.dmaRead addr (claimed sc.payloadLen ScanoutPresentDamaged.size) with
    | some pb =>
      d.presentScanoutDamagedChecked env (.decode (zeroFilled ScanoutPresentDamaged.size pb)) sc.seqno ctx
    | none => some d
  else
    some (d.processSubmit env sc addr ctx)

/-- A doorbell with overflow checks on; `none` is a panic. -/
def processRingChecked (ctx : Fin NUM_CONTEXTS) (d : Backend) : Option Backend :=
  if d.ringIndex ctx ≠ 0 then
    d.drainCtxChecked env ctx
  else
    let base := d.ringBase ctx
    if base = 0 then
      some d
    else
      match d.dmaRead base descriptorSize with
      | none => some d
      | some db =>
        let desc := Descriptor.decode db
        if desc.msgType = MsgType.cursorUpdate then
          (base.addChecked desc.dataOffset.toUInt64).map fun addr =>
            (d.readCursorUpdate env addr desc.len).retire ctx desc.seqno
        else if desc.msgType ≠ MsgType.submitCmd then
          some d
        else
          (base.addChecked (UInt64.ofNat descriptorSize)).bind fun command =>
            match d.dmaRead command SubmitCmd.size with
            | none => some d
            | some sb =>
              (base.addChecked desc.dataOffset.toUInt64).bind fun addr =>
                d.processSubmitChecked env (.decode sb) addr ctx

/-! ### Where they pass -/

variable {env}

/-- The address of each damaged row fits that is reached, the rows before it being mapped. -/
def RowsFit (sp : ScanoutPresentDamaged) (d : Backend) : Prop :=
  ¬ d.NeedFull sp → 0 < sp.damage.dw → ∀ r < sp.damage.dh,
    (∀ r' < r, (d.dmaRead (sp.rowAddr r') (sp.damage.dw * 4)).isSome) →
      sp.scanoutAddr.toNat + rowOffset sp r < 2 ^ 64

variable (env) in
/-- The addresses of a damaged present fit, if it is admitted and its geometry accepted. -/
def PresentFits (sp : ScanoutPresentDamaged) (d : Backend) : Prop :=
  (d.ensureAdmitted env).1 = true → sp.fbBytes.isSome = true → d.RowsFit sp

/-- The payload of a descriptor lies at the ring base plus its offset. -/
def PayloadFits (ctx : Fin NUM_CONTEXTS) (desc : Descriptor) (d : Backend) : Prop :=
  (d.ringBase ctx).toNat + desc.dataOffset.toNat < 2 ^ 64

variable (env) in
/-- The addresses of a descriptor of the ring fit: its payload, unless that has an address of its own, and those of
the damaged present it asks for. -/
def DescriptorFits (ctx : Fin NUM_CONTEXTS) (desc : Descriptor) (d : Backend) : Prop :=
  desc.len.toNat ≤ MAX_PAYLOAD →
    (desc.flags &&& DescFlags.payloadAbs = 0 → d.PayloadFits ctx desc) ∧
      ∀ sp, d.damagedPresent ctx desc = some sp → d.PresentFits env sp

variable (env) in
/-- The addresses of every descriptor of the batch that is popped fit, in the state that those before it leave. -/
def BatchFits (ctx : Fin NUM_CONTEXTS) (d : Backend) : Prop :=
  ∀ r g before desc after, d.ringMemory ctx = some r → (d.ensureAdmitted env).1 = true →
    Geometry.fromParts r.cap = .ok g → (d.batch g r).descriptors = before ++ desc :: after →
      (d.afterFirst env ctx g r before).DescriptorFits env ctx desc

/-- The damaged present that a command asks for, its payload being at `addr`. -/
def commandPresent (sc : SubmitCmd) (addr : UInt64) (d : Backend) : Option ScanoutPresentDamaged :=
  if sc.encoding = Encoding.displayScanoutDamage then
    (d.dmaRead addr (claimed sc.payloadLen ScanoutPresentDamaged.size)).map fun pb =>
      .decode (zeroFilled ScanoutPresentDamaged.size pb)
  else
    none

variable (env) in
/-- The addresses of the command at the ring base fit: its payload, and those of the damaged present it asks for. -/
def CommandFits (ctx : Fin NUM_CONTEXTS) (d : Backend) : Prop :=
  ∀ db, d.dmaRead (d.ringBase ctx) descriptorSize = some db →
    let desc := Descriptor.decode db
    (desc.msgType = MsgType.cursorUpdate → d.PayloadFits ctx desc) ∧
      (desc.msgType = MsgType.submitCmd →
        ∀ sb, d.dmaRead (d.ringBase ctx + UInt64.ofNat descriptorSize) SubmitCmd.size = some sb →
          d.PayloadFits ctx desc ∧
            ∀ sp, d.commandPresent (.decode sb) (d.ringBase ctx + desc.dataOffset.toUInt64) = some sp →
              d.PresentFits env sp)

variable (env) in
/-- The addresses a doorbell computes fit into 64 bits. -/
def AddressesFit (ctx : Fin NUM_CONTEXTS) (d : Backend) : Prop :=
  (d.ringIndex ctx ≠ 0 → d.BatchFits env ctx) ∧
    (d.ringIndex ctx = 0 → d.ringBase ctx ≠ 0 → d.CommandFits env ctx)

/-! ### Damaged presents -/

variable {d : Backend} {sp : ScanoutPresentDamaged} {ctx : Fin NUM_CONTEXTS}

/-- Each partial sum of a row's address is at most the address. -/
private theorem rowAddrChecked_guarded {r : Nat} (hgeom : sp.fbBytes.isSome = true) (hr : r < sp.damage.dh) :
    Guarded (sp.scanoutAddr.toNat + rowOffset sp r < 2 ^ 64) (sp.rowAddr r) (sp.rowAddrChecked r) := by
  obtain ⟨fbBytes, hfb⟩ := Option.isSome_iff_exists.1 hgeom
  obtain ⟨hpitch, hbytes⟩ := ScanoutPresent.fbBytes_eq_some hfb
  have hle := (fbBytes_bounds hfb).2
  have hframe : MAX_FRAME_BYTES = 67108864 := rfl
  have hrow := sp.damaged_row_le hpitch hr
  have hy : (UInt64.ofNat (sp.damage.dy + r)).toNat = sp.damage.dy + r := by
    have hdamage := sp.damage_le.2
    have hheight := sp.height.toNat_lt
    rw [UInt64.toNat_ofNat', Nat.mod_eq_of_lt]
    simp only [ScanoutPresent.h] at hdamage
    omega
  have hx : (UInt64.ofNat sp.damage.dx).toNat = sp.damage.dx := by
    rw [UInt64.toNat_ofNat', Nat.mod_eq_of_lt]
    omega
  have hmul : (UInt64.ofNat (sp.damage.dy + r) * sp.pitch.toUInt64).toNat = (sp.damage.dy + r) * sp.pitch.toNat := by
    rw [UInt64.toNat_mul, hy, UInt32.toNat_toUInt64, Nat.mod_eq_of_lt]
    omega
  have hfour : (4 : UInt64).toNat = 4 := rfl
  have hcolumn : (UInt64.ofNat sp.damage.dx * 4).toNat = sp.damage.dx * 4 := by
    rw [UInt64.toNat_mul, hx, hfour, Nat.mod_eq_of_lt]
    omega
  unfold ScanoutPresentDamaged.rowAddr ScanoutPresentDamaged.rowAddrChecked
  refine .congr (.bind (UInt64.mulChecked_guarded _ _) fun _ => .bind (UInt64.addChecked_guarded _ _) fun _ =>
    .bind (UInt64.mulChecked_guarded _ _) fun _ => UInt64.addChecked_guarded _ _) ?_
  rw [UInt64.toNat_add, hmul, hcolumn, hx, hy, UInt32.toNat_toUInt64, hfour, rowOffset]
  constructor
  · rintro ⟨-, hrow, -, haddr⟩
    rw [Nat.mod_eq_of_lt hrow] at haddr
    omega
  · intro haddr
    have hsum : sp.scanoutAddr.toNat + (sp.damage.dy + r) * sp.pitch.toNat < 2 ^ 64 := by omega
    rw [Nat.mod_eq_of_lt hsum]
    exact ⟨by omega, hsum, by omega, by omega⟩

/-- A row is reached exactly if those before it are mapped. -/
private theorem readRows_checked (hgeom : sp.fbBytes.isSome = true) {n : Nat} (hn : n ≤ sp.damage.dh) :
    Guarded (∀ r < n, (∀ r' < r, (d.dmaRead (sp.rowAddr r') (sp.damage.dw * 4)).isSome) →
        sp.scanoutAddr.toNat + rowOffset sp r < 2 ^ 64)
      (d.readRows sp n) (d.readRowsChecked sp n) := by
  induction n with
  | zero => exact .pure _ fun r hr => absurd hr (Nat.not_lt_zero r)
  | succ n ih =>
    have hreached : (d.readRows sp n).isSome ↔ ∀ r' < n, (d.dmaRead (sp.rowAddr r') (sp.damage.dw * 4)).isSome := by
      rw [Option.isSome_iff_ne_none, Ne, readRows_eq_none_iff]
      simp only [not_exists, not_and, ← Option.isSome_iff_ne_none]
    cases hrows : d.readRows sp n with
    | none =>
      rw [hrows] at hreached ih
      simp only [readRows, readRowsChecked, hrows]
      refine .congr (.bind (ih (by omega)) fun _ => .pure none trivial) ?_
      rw [Nat.forall_lt_succ_right]
      exact and_congr_right fun _ => iff_of_true trivial fun hmapped => by cases hreached.2 hmapped
    | some rows =>
      rw [hrows] at hreached ih
      simp only [readRows, readRowsChecked, hrows]
      have hrow := (rowAddrChecked_guarded (r := n) hgeom (by omega)).map fun addr =>
        (d.dmaRead addr (sp.damage.dw * 4)).map (rows ++ ·)
      refine .congr (.bind (ih (by omega)) fun _ => hrow) ?_
      rw [Nat.forall_lt_succ_right]
      exact and_congr_right fun _ => ⟨fun hfits _ => hfits, fun hfits => hfits (hreached.1 rfl)⟩

private theorem damagedSurface_checked {fbBytes : Nat} (hfb : sp.fbBytes = some fbBytes) :
    Guarded (d.RowsFit sp) (d.damagedSurface sp fbBytes) (d.damagedSurfaceChecked sp fbBytes) := by
  simp only [damagedSurfaceChecked]
  split
  · rename_i hnone
    exact .pure _ fun hpart => absurd (.inl hnone) hpart
  · rename_i b hb
    have hne : d.matchingScanout sp.w sp.h ≠ none := by rw [hb]; exact (Option.some_ne_none b)
    split
    · rename_i hpart
      obtain ⟨hfull, hpos⟩ := hpart
      have hgeom : sp.fbBytes.isSome = true := by rw [hfb]; rfl
      have hrows := readRows_checked (d := d) hgeom (Nat.le_refl _)
      simp only [damagedSurface, hb, if_neg hfull, if_pos hpos]
      refine .congr (hrows.map _) ⟨fun hfits _ _ => hfits, fun hfits => hfits (not_or.2 ⟨hne, hfull⟩) hpos.1⟩
    · rename_i hpart
      refine .pure _ fun hneed hdw r hr => ?_
      exact absurd ⟨fun hfull => hneed (.inr hfull), hdw, by omega⟩ hpart

private theorem Quiet.rowsFit {d' : Backend} (h : Quiet d d') (sp : ScanoutPresentDamaged) :
    d'.RowsFit sp ↔ d.RowsFit sp := by
  simp only [RowsFit, NeedFull, matchingScanout, h.lastScanout, h.dmaRead]

/-- Admission depends neither on the resources nor on what is known of forwarded frames. -/
private theorem ensureAdmitted_table (env : Env) (resources : ResourceTable)
    (lastForwardedHash : AList fun _ : UInt64 => UInt64) (d : Backend) :
    ({ d with resources, lastForwardedHash }.ensureAdmitted env).1 = (d.ensureAdmitted env).1 := by
  by_cases hticket : d.ticket.isSome
  · simp only [ensureAdmitted, hticket, if_true]
  by_cases hdenied : d.admissionDenied
  · simp only [ensureAdmitted, hticket, hdenied, Bool.false_eq_true, if_false, if_true]
  · simp only [ensureAdmitted, hticket, hdenied, Bool.false_eq_true, if_false]
    cases d.broker.admitVm d.brokerConfig d.vmConfig
        (if d.pixel.isSome then .streaming VRAM_ESTIMATE_MB else .vram VRAM_ESTIMATE_MB) (env.clock d.calls) with
    | mk r broker =>
      cases r with
      | ok t => rfl
      | error e => rfl

private theorem presentFits_table (env : Env) (resources : ResourceTable)
    (lastForwardedHash : AList fun _ : UInt64 => UInt64) (sp : ScanoutPresentDamaged) (d : Backend) :
    { d with resources, lastForwardedHash }.PresentFits env sp ↔ d.PresentFits env sp := by
  rw [PresentFits, PresentFits, ensureAdmitted_table]
  exact Iff.rfl

private theorem presentScanoutDamaged_checked (env : Env) (sp : ScanoutPresentDamaged) (seqno : UInt64)
    (ctx : Fin NUM_CONTEXTS) (d : Backend) :
    Guarded (d.PresentFits env sp) (d.presentScanoutDamaged env sp seqno ctx)
      (d.presentScanoutDamagedChecked env sp seqno ctx) := by
  have hquiet := (invalidateElision_quiet d).trans (ensureAdmitted_quiet env _)
  have hadm : (d.invalidateElision.ensureAdmitted env).1 = (d.ensureAdmitted env).1 := ensureAdmitted_table env _ _ d
  simp only [presentScanoutDamaged, presentScanoutDamagedChecked]
  split
  · rename_i hnot
    refine .pure _ fun hyes => ?_
    rw [hadm, hyes] at hnot
    exact absurd hnot (by decide)
  · rename_i hyes
    rw [Bool.not_eq_true', Bool.not_eq_false, hadm] at hyes
    cases hfb : sp.fbBytes with
    | none => exact .pure _ fun _ hgeom => (by rw [hfb] at hgeom; cases hgeom)
    | some fbBytes =>
      have hq := hquiet.trans (accountScanoutVram_quiet sp.width sp.height _)
      generalize (d.invalidateElision.ensureAdmitted env).2.accountScanoutVram sp.width sp.height = d' at hq ⊢
      have hshown := (damagedSurface_checked (d := d') hfb).map (d'.showSurface seqno ctx)
      refine .congr hshown ?_
      rw [hq.rowsFit]
      exact ⟨fun h _ _ => h, fun h => h hyes (by rw [hfb]; rfl)⟩

private theorem presentResourceFlush_checked (env : Env) (resId : UInt32) (rect : Rect) (seqno : UInt64)
    (ctx : Fin NUM_CONTEXTS) (d : Backend) :
    Guarded (∀ sp, d.flushPresent resId rect = some sp → d.PresentFits env sp)
      (d.presentResourceFlush env resId rect seqno ctx) (d.presentResourceFlushChecked env resId rect seqno ctx) := by
  have hpresent : d.invalidateElision.flushPresent resId rect = d.flushPresent resId rect := rfl
  simp only [presentResourceFlush, presentResourceFlushChecked, hpresent]
  cases hsp : d.flushPresent resId rect with
  | none => exact .pure _ fun sp h => (by cases h)
  | some sp =>
    have hfits : d.invalidateElision.PresentFits env sp ↔ d.PresentFits env sp := presentFits_table env _ _ sp d
    refine (presentScanoutDamaged_checked env sp seqno ctx _).congr (hfits.trans ?_)
    constructor
    · rintro h sp' heq
      rw [← Option.some_inj.1 heq]
      exact h
    · exact fun h => h sp rfl

/-! ### Descriptors and commands -/

private theorem payloadAddr_checked (ctx : Fin NUM_CONTEXTS) (desc : Descriptor) (d : Backend) :
    Guarded (desc.flags &&& DescFlags.payloadAbs = 0 → d.PayloadFits ctx desc) (d.payloadAddr ctx desc)
      (d.payloadAddrChecked ctx desc) := by
  have hsum := (d.ringBase ctx).addChecked_guarded desc.dataOffset.toUInt64
  rw [UInt32.toNat_toUInt64] at hsum
  simp only [payloadAddr, payloadAddrChecked]
  by_cases habs : desc.flags &&& DescFlags.payloadAbs = 0
  · rw [if_neg (by simp [habs]), if_neg (by simp [habs])]
    exact hsum.congr ⟨fun h _ => h, fun h => h habs⟩
  · rw [if_pos (by simp [habs]), if_pos (by simp [habs])]
    exact .pure _ fun h => absurd h habs

private theorem dispatchSubmit_checked (env : Env) (sc : SubmitCmd) (encPayload : List UInt8) (ctx : Fin NUM_CONTEXTS)
    (d : Backend) :
    Guarded
      (sc.encoding = Encoding.displayScanoutDamage →
        d.PresentFits env (.decode (zeroFilled ScanoutPresentDamaged.size
          (encPayload.take (claimed sc.payloadLen ScanoutPresentDamaged.size)))))
      (d.dispatchSubmit env sc encPayload ctx) (d.dispatchSubmitChecked env sc encPayload ctx) := by
  simp only [dispatchSubmitChecked]
  by_cases hdamage : sc.encoding = Encoding.displayScanoutDamage
  · rw [if_pos hdamage, dispatchSubmit_damage hdamage]
    exact (presentScanoutDamaged_checked env _ _ _ d).congr ⟨fun h _ => h, fun h => h hdamage⟩
  · rw [if_neg hdamage]
    exact .pure _ fun h => absurd h hdamage

private theorem forall_ite_some_iff {α : Type*} {c : Prop} [Decidable c] {x : α} {P : α → Prop} :
    (∀ y, (if c then some x else none) = some y → P y) ↔ (c → P x) := by
  by_cases hc : c
  · rw [if_pos hc]
    exact ⟨fun h _ => h x rfl, fun h y hy => Option.some_inj.1 hy ▸ h hc⟩
  · exact iff_of_true (fun y hy => by rw [if_neg hc] at hy; cases hy) fun h => absurd h hc

private theorem executeDescriptor_checked (env : Env) (ctx : Fin NUM_CONTEXTS) (desc : Descriptor) (d : Backend) :
    Guarded (d.DescriptorFits env ctx desc) (d.executeDescriptor env ctx desc)
      (d.executeDescriptorChecked env ctx desc) := by
  simp only [executeDescriptor, executeDescriptorChecked]
  by_cases hlen : desc.len.toNat > MAX_PAYLOAD
  · rw [if_pos hlen, if_pos hlen]
    exact .pure _ fun hle => absurd hlen (Nat.not_lt.2 hle)
  rw [if_neg hlen, if_neg hlen]
  refine .congr (P := (desc.flags &&& DescFlags.payloadAbs = 0 → d.PayloadFits ctx desc) ∧
      ∀ sp, d.damagedPresent ctx desc = some sp → d.PresentFits env sp)
    (.bind (payloadAddr_checked ctx desc d) fun _ => ?_) ⟨fun h _ => h, fun h => h (Nat.not_lt.1 hlen)⟩
  simp only [damagedPresent, if_neg hlen]
  by_cases hcursor : desc.msgType = MsgType.cursorUpdate
  · have hsubmit : desc.msgType ≠ MsgType.submitCmd := by rw [hcursor]; decide
    have hflush : desc.msgType ≠ MsgType.resourceFlush := by rw [hcursor]; decide
    rw [if_pos hcursor, if_pos hcursor]
    refine .pure _ fun sp hsp => ?_
    simp only [if_neg hsubmit, if_neg hflush] at hsp
    split at hsp <;> cases hsp
  rw [if_neg hcursor, if_neg hcursor]
  cases if desc.len.toNat > 0 then d.dmaRead (d.payloadAddr ctx desc) desc.len.toNat else some [] with
  | none => exact .pure _ fun sp hsp => (by cases hsp)
  | some payload =>
    simp only
    by_cases hsubmit : desc.msgType = MsgType.submitCmd
    · simp only [hsubmit, if_true]
      cases readFromPrefix SubmitCmd.size SubmitCmd.decode payload with
      | none => exact .pure _ fun sp hsp => (by cases hsp)
      | some command =>
        obtain ⟨sc, encPayload⟩ := command
        simp only
        refine (dispatchSubmit_checked env sc encPayload ctx d).congr ?_
        exact (forall_ite_some_iff (P := fun sp => d.PresentFits env sp)).symm
    · simp only [hsubmit, if_false]
      cases hout : executeResource desc payload d.resources with
      | mk out resources =>
        cases out with
        | flush resId rect =>
          have hflush : desc.msgType = MsgType.resourceFlush := executeResource_flush (by rw [hout])
          simp only [hflush, if_true]
          refine (presentResourceFlush_checked env resId rect desc.seqno ctx { d with resources }).congr ?_
          exact forall_congr' fun sp => imp_congr_right fun _ => presentFits_table env _ _ sp d
        | _ =>
          refine .pure _ fun sp hsp => ?_
          split at hsp <;> cases hsp

/-! ### The doorbell -/

private theorem serveRing_checked (env : Env) (g : Geometry) (r : RingMemory) (ctx : Fin NUM_CONTEXTS) (d : Backend) :
    Guarded
      (∀ before desc after, (d.batch g r).descriptors = before ++ desc :: after →
        ((d.popped g r).executeBatch env ctx before).DescriptorFits env ctx desc)
      (d.serveRing env g r ctx) (d.serveRingChecked env g r ctx) := by
  have hbatch := Guarded.foldlM (fun d' desc => executeDescriptor_checked env ctx desc d') (d.popped g r)
    (d.batch g r).descriptors
  exact hbatch.map fun d' => d'.retireBatch (sharedRing g r.indexPtr r.descPtr) ctx (d.batch g r).highestSeqno

private theorem drainCtx_checked (env : Env) (ctx : Fin NUM_CONTEXTS) (d : Backend) :
    Guarded (d.BatchFits env ctx) (d.drainCtx env ctx) (d.drainCtxChecked env ctx) := by
  simp only [drainCtx, drainCtxChecked]
  cases hr : d.ringMemory ctx with
  | none => exact .pure _ fun r g before desc after h => (by rw [hr] at h; cases h)
  | some r =>
    cases hadm : (d.ensureAdmitted env).1 with
    | false =>
      simp only [Bool.not_false, if_true]
      exact .pure _ fun r g before desc after _ h => (by rw [hadm] at h; cases h)
    | true =>
      simp only [Bool.not_true, Bool.false_eq_true, if_false]
      cases hg : Geometry.fromParts r.cap with
      | error e =>
        refine .pure _ fun r' g before desc after hr' _ hg' => ?_
        rw [hr, Option.some_inj] at hr'
        rw [← hr', hg] at hg'
        cases hg'
      | ok g =>
        refine (serveRing_checked env g r ctx _).congr ⟨fun h r' g' before desc after hr' _ hg' hbatch => ?_, ?_⟩
        · rw [hr, Option.some_inj] at hr'
          subst hr'
          rw [hg, Except.ok.injEq] at hg'
          subst hg'
          exact h before desc after ((ensureAdmitted_quiet env d).batch g r ▸ hbatch)
        · intro h before desc after hbatch
          exact h r g before desc after hr hadm hg ((ensureAdmitted_quiet env d).batch g r ▸ hbatch)

private theorem processSubmit_checked (env : Env) (sc : SubmitCmd) (addr : UInt64) (ctx : Fin NUM_CONTEXTS)
    (d : Backend) :
    Guarded (∀ sp, d.commandPresent sc addr = some sp → d.PresentFits env sp) (d.processSubmit env sc addr ctx)
      (d.processSubmitChecked env sc addr ctx) := by
  simp only [commandPresent, processSubmitChecked]
  by_cases hdamage : sc.encoding = Encoding.displayScanoutDamage
  · have hclear : sc.encoding ≠ Encoding.displayClear := by rw [hdamage]; decide
    have hscanout : sc.encoding ≠ Encoding.displayScanout := by rw [hdamage]; decide
    simp only [processSubmit, if_neg hclear, if_neg hscanout, if_pos hdamage]
    cases d.dmaRead addr (claimed sc.payloadLen ScanoutPresentDamaged.size) with
    | none => exact .pure _ fun sp hsp => (by cases hsp)
    | some pb =>
      refine (presentScanoutDamaged_checked env _ sc.seqno ctx d).congr ?_
      exact ⟨fun h sp hsp => Option.some_inj.1 hsp ▸ h, fun h => h _ rfl⟩
  · simp only [if_neg hdamage]
    exact .pure _ fun sp hsp => (by cases hsp)

/-- What is read ends below `2 ^ 64`. -/
private theorem dmaRead_end_lt {addr : UInt64} {len : Nat} {bs : List UInt8} (h : d.dmaRead addr len = some bs) :
    addr.toNat + len < 2 ^ 64 := by
  obtain ⟨p, hp, -⟩ := Option.map_eq_some_iff.1 h
  simp only [DmaTable.resolve] at hp
  split at hp
  · cases hp
  · split at hp
    · rename_i hbounds
      exact hbounds.1
    · cases hp

private theorem processRing_checked (env : Env) (ctx : Fin NUM_CONTEXTS) (d : Backend) :
    Guarded (d.AddressesFit env ctx) (d.processRing env ctx) (d.processRingChecked env ctx) := by
  simp only [processRing, processRingChecked]
  by_cases hindex : d.ringIndex ctx ≠ 0
  · rw [if_pos hindex, if_pos hindex]
    exact (drainCtx_checked env ctx d).congr ⟨fun h => ⟨fun _ => h, fun h0 => absurd h0 hindex⟩, fun h => h.1 hindex⟩
  rw [if_neg hindex, if_neg hindex]
  by_cases hbase : d.ringBase ctx = 0
  · rw [if_pos hbase, if_pos hbase]
    exact .pure _ ⟨fun h => absurd h hindex, fun _ h => absurd hbase h⟩
  rw [if_neg hbase, if_neg hbase]
  refine .congr (P := d.CommandFits env ctx) ?_
    ⟨fun h => ⟨fun h' => absurd h' hindex, fun _ _ => h⟩, fun h => h.2 (not_not.1 hindex) hbase⟩
  cases hdb : d.dmaRead (d.ringBase ctx) descriptorSize with
  | none => exact .pure _ fun db h => (by rw [hdb] at h; cases h)
  | some db =>
    have hpayload := (d.ringBase ctx).addChecked_guarded (Descriptor.decode db).dataOffset.toUInt64
    rw [UInt32.toNat_toUInt64] at hpayload
    simp only [CommandFits, hdb, Option.some_inj, forall_eq']
    by_cases hcursor : (Descriptor.decode db).msgType = MsgType.cursorUpdate
    · have hsubmit : (Descriptor.decode db).msgType ≠ MsgType.submitCmd := by rw [hcursor]; decide
      have hread := hpayload.map fun addr =>
        (d.readCursorUpdate env addr (Descriptor.decode db).len).retire ctx (Descriptor.decode db).seqno
      rw [if_pos hcursor, if_pos hcursor]
      refine hread.congr ?_
      exact ⟨fun h => ⟨fun _ => h, fun h' => absurd h' hsubmit⟩, fun h => h.1 hcursor⟩
    rw [if_neg hcursor, if_neg hcursor]
    by_cases hsubmit : (Descriptor.decode db).msgType ≠ MsgType.submitCmd
    · rw [if_pos hsubmit, if_pos hsubmit]
      exact .pure _ ⟨fun h => absurd h hcursor, fun h => absurd h hsubmit⟩
    rw [if_neg hsubmit, if_neg hsubmit]
    have hcommand := (d.ringBase ctx).addChecked_guarded (UInt64.ofNat descriptorSize)
    have hbelow : (d.ringBase ctx).toNat + (UInt64.ofNat descriptorSize).toNat < 2 ^ 64 := dmaRead_end_lt hdb
    refine .congr (P := (d.ringBase ctx).toNat + (UInt64.ofNat descriptorSize).toNat < 2 ^ 64 ∧
        ∀ sb, d.dmaRead (d.ringBase ctx + UInt64.ofNat descriptorSize) SubmitCmd.size = some sb →
          d.PayloadFits ctx (.decode db) ∧ ∀ sp,
            d.commandPresent (.decode sb) (d.ringBase ctx + (Descriptor.decode db).dataOffset.toUInt64) = some sp →
              d.PresentFits env sp)
      (.bind hcommand fun _ => ?_)
      ⟨fun h => ⟨fun h' => absurd h' hcursor, fun _ => h.2⟩, fun h => ⟨hbelow, h.2 (not_not.1 hsubmit)⟩⟩
    cases hsb : d.dmaRead (d.ringBase ctx + UInt64.ofNat descriptorSize) SubmitCmd.size with
    | none => exact .pure _ fun sb h => (by cases h)
    | some sb =>
      simp only [Option.some_inj, forall_eq']
      exact hpayload.bind fun _ => processSubmit_checked env _ _ ctx d

/-- With overflow checks on, a doorbell does what it does without them exactly if its addresses fit. -/
theorem processRing_checked_iff (env : Env) (ctx : Fin NUM_CONTEXTS) (d : Backend) :
    d.processRingChecked env ctx = some (d.processRing env ctx) ↔ d.AddressesFit env ctx :=
  (processRing_checked env ctx d).eq_some_iff

/-- A present of one column and two rows, as the command in a ring page: the framebuffer's address in two words, then
the damage. -/
def columnPresent (addr damage : List UInt32) : Device.Access :=
  .stores fun _ => .ofWords ([0x30, 0, 0, 72, 1, 0, 0, 0] ++ [0, 0x102, 40, 0, 1, 0, 0, 0, 0, 0] ++ [1, 2, 4, 1] ++
    addr ++ damage)

/-- A present of the whole frame, then the second row of a framebuffer that ends at `2 ^ 64`. -/
def lastRow : List Device.Access :=
  [.map 0x1000 0x1000 (some 0), .write .idle 0x100 [0, 0x10, 0, 0], columnPresent [0x1000, 0] [0, 0, 1, 2],
    .write .idle 0x3004 [0, 0, 0, 0], columnPresent [0xfffffffc, 0xffffffff] [0, 1, 1, 1]]

/-- The second row would start at `2 ^ 64`. -/
theorem addresses_overflow :
    ¬ ∀ (cfg : Device.Config) (broker : Ledger) (mem : Memory) (hist : List Device.Access) (env : Env)
      (ctx : Fin NUM_CONTEXTS), ((Device.create cfg broker mem).run hist).dev.processRingChecked env ctx =
        some (((Device.create cfg broker mem).run hist).dev.processRing env ctx) := by
  intro h
  have hsome := h ⟨.default, .new "vm" 1 4096, false, false, false, false⟩ .new (fun _ => 0) lastRow .idle 0
  have hnone : (((Device.create ⟨.default, .new "vm" 1 4096, false, false, false, false⟩ .new (fun _ => 0)).run
      lastRow).dev.processRingChecked .idle 0).isNone = true := by decide +kernel
  rw [hsome] at hnone
  cases hnone

end Backend

end Infinigpu
