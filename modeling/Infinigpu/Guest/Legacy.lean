import Infinigpu.Device.Damage
import Infinigpu.Device.Subword
import Infinigpu.Guest.Producer
import Infinigpu.Guest.Registration

/-!
# The single-descriptor path (`guest/linux`, `igpu_ring_submit`)

Without the ring drainer the kernel driver has one page for its messages: a descriptor, behind it the command and its
payload.  A submission stages all of it, points the device at the page and rings the doorbell; the device has served
it when the doorbell write returns.

* `Phase0`: the driver, the device and where the page lies;
* `igpuRingSubmit`, `igpuSubmitCursor`, the flushes and the plane updates over them;
* `submitted_scanout`, `submitted_damaged`, `submitted_cursor`: the device does what was asked for, with the seqno of
  the submission.
-/

namespace Infinigpu

/-! ### What is staged -/

namespace SubmitCmd

def encode (sc : SubmitCmd) : List UInt8 :=
  Bytes.ofWords [sc.ctxId, sc.encoding, sc.payloadLen, sc.flags] ++ (Bytes.ofValue 8 sc.seqno.toNat ++
    (Bytes.ofValue 8 sc.inFence.toNat ++ Bytes.ofValue 8 sc.outFence.toNat))

end SubmitCmd

namespace ScanoutPresent

def encode (sp : ScanoutPresent) : List UInt8 :=
  Bytes.ofWords [sp.width, sp.height, sp.pitch, sp.format] ++ Bytes.ofValue 8 sp.scanoutAddr.toNat

end ScanoutPresent

namespace ScanoutPresentDamaged

def encode (sp : ScanoutPresentDamaged) : List UInt8 :=
  sp.toScanoutPresent.encode ++ Bytes.ofWords [sp.dx, sp.dy, sp.dw, sp.dh]

end ScanoutPresentDamaged

namespace CursorUpdate

def encode (cu : CursorUpdate) : List UInt8 :=
  Bytes.ofWords [cu.scanoutId, cu.flags, cu.posX.toUInt32, cu.posY.toUInt32] ++ (Bytes.ofValue 2 cu.hotX.toNat ++
    (Bytes.ofValue 2 cu.hotY.toNat ++ (Bytes.ofValue 2 cu.width.toNat ++ (Bytes.ofValue 2 cu.height.toNat ++
      (Bytes.ofWords [cu.pitch, cu.format] ++ (Bytes.ofValue 8 cu.shapeRef.toNat ++ Bytes.ofValue 8 0))))))

end CursorUpdate

/-! ### What the device reads of it -/

private theorem slice_append_add (xs ys : List UInt8) (i n : Nat) :
    Bytes.slice (xs ++ ys) (xs.length + i) n = Bytes.slice ys i n := by
  rw [Bytes.slice, Bytes.slice, ← List.drop_drop, List.drop_left]

namespace SubmitCmd

theorem encode_length (sc : SubmitCmd) : sc.encode.length = size := by
  simp only [encode, List.length_append, Bytes.ofWords_length, Bytes.ofValue_length]
  rfl

theorem decode_encode (sc : SubmitCmd) : decode sc.encode = sc := by
  have hwords : (Bytes.ofWords [sc.ctxId, sc.encoding, sc.payloadLen, sc.flags]).length = 16 := Bytes.ofWords_length _
  have hseqno : u64At sc.encode 16 = sc.seqno :=
    Kmd.u64At_ofWords [sc.ctxId, sc.encoding, sc.payloadLen, sc.flags] sc.seqno _
  have hbehind : ∀ i, Bytes.slice sc.encode (16 + (8 + i)) 8 =
      Bytes.slice (Bytes.ofValue 8 sc.inFence.toNat ++ Bytes.ofValue 8 sc.outFence.toNat) i 8 := by
    intro i
    have houter := slice_append_add (Bytes.ofWords [sc.ctxId, sc.encoding, sc.payloadLen, sc.flags])
      (Bytes.ofValue 8 sc.seqno.toNat ++ (Bytes.ofValue 8 sc.inFence.toNat ++ Bytes.ofValue 8 sc.outFence.toNat))
        (8 + i) 8
    have hinner := slice_append_add (Bytes.ofValue 8 sc.seqno.toNat)
      (Bytes.ofValue 8 sc.inFence.toNat ++ Bytes.ofValue 8 sc.outFence.toNat) i 8
    rw [hwords] at houter
    rw [Bytes.ofValue_length] at hinner
    rw [encode, houter, hinner]
  have hin : u64At sc.encode 24 = sc.inFence := by
    have hfront : Bytes.slice (Bytes.ofValue 8 sc.inFence.toNat ++ Bytes.ofValue 8 sc.outFence.toNat) 0 8 =
        Bytes.ofValue 8 sc.inFence.toNat := by
      rw [Bytes.slice, List.drop_zero, List.take_left' (Bytes.ofValue_length 8 _)]
    exact (congrArg Bytes.u64 ((hbehind 0).trans hfront)).trans (Bytes.u64_ofValue sc.inFence)
  have hout : u64At sc.encode 32 = sc.outFence := by
    have hslice := Bytes.slice_append_right (Bytes.ofValue 8 sc.inFence.toNat) (Bytes.ofValue 8 sc.outFence.toNat)
    rw [Bytes.ofValue_length, Bytes.ofValue_length] at hslice
    exact (congrArg Bytes.u64 ((hbehind 8).trans hslice)).trans (Bytes.u64_ofValue sc.outFence)
  cases sc with
  | mk ctxId encoding payloadLen flags seqno inFence outFence =>
    rw [decode, hseqno, hin, hout, mk.injEq, encode]
    exact ⟨u32At_ofWords (i := 0) _ rfl, u32At_ofWords (i := 1) _ rfl, u32At_ofWords (i := 2) _ rfl,
      u32At_ofWords (i := 3) _ rfl, rfl, rfl, rfl⟩

end SubmitCmd

namespace ScanoutPresent

theorem encode_length (sp : ScanoutPresent) : sp.encode.length = size := by
  rw [encode, List.length_append, Bytes.ofWords_length, Bytes.ofValue_length]; rfl

/-- The record at the front of a byte string. -/
private theorem decode_front (sp : ScanoutPresent) (rest : List UInt8) : decode (sp.encode ++ rest) = sp := by
  have haddr : u64At (sp.encode ++ rest) 16 = sp.scanoutAddr := by
    rw [encode, List.append_assoc]
    exact Kmd.u64At_ofWords [sp.width, sp.height, sp.pitch, sp.format] sp.scanoutAddr rest
  cases sp with
  | mk width height pitch format scanoutAddr =>
    rw [decode, haddr, mk.injEq, encode, List.append_assoc]
    exact ⟨u32At_ofWords (i := 0) _ rfl, u32At_ofWords (i := 1) _ rfl, u32At_ofWords (i := 2) _ rfl,
      u32At_ofWords (i := 3) _ rfl, rfl⟩

theorem decode_encode (sp : ScanoutPresent) : decode sp.encode = sp := by
  have hfront := sp.decode_front []
  rwa [List.append_nil] at hfront

end ScanoutPresent

namespace ScanoutPresentDamaged

theorem encode_length (sp : ScanoutPresentDamaged) : sp.encode.length = size := by
  rw [encode, List.length_append, ScanoutPresent.encode_length, Bytes.ofWords_length]; rfl

theorem decode_encode (sp : ScanoutPresentDamaged) : decode sp.encode = sp := by
  have hbehind : ∀ i, u32At sp.encode (24 + 4 * i) = u32At (Bytes.ofWords [sp.dx, sp.dy, sp.dw, sp.dh]) (4 * i) := by
    intro i
    have hslice := slice_append_add sp.toScanoutPresent.encode (Bytes.ofWords [sp.dx, sp.dy, sp.dw, sp.dh]) (4 * i) 4
    rw [ScanoutPresent.encode_length] at hslice
    exact congrArg Bytes.u32 hslice
  have hfront : ScanoutPresent.decode sp.encode = sp.toScanoutPresent := sp.toScanoutPresent.decode_front _
  have hdx : u32At sp.encode 24 = sp.dx := (hbehind 0).trans (u32At_words (i := 0) rfl)
  have hdy : u32At sp.encode 28 = sp.dy := (hbehind 1).trans (u32At_words (i := 1) rfl)
  have hdw : u32At sp.encode 32 = sp.dw := (hbehind 2).trans (u32At_words (i := 2) rfl)
  have hdh : u32At sp.encode 36 = sp.dh := (hbehind 3).trans (u32At_words (i := 3) rfl)
  rw [decode, hfront, hdx, hdy, hdw, hdh]

end ScanoutPresentDamaged

namespace Kmd

namespace Reg
def cmdRingBaseLo : UInt64 := 0x0100
def cmdRingBaseHi : UInt64 := 0x0104
def doorbellCmd0 : UInt64 := 0x3004
def retiredLo : UInt64 := 0x0050
end Reg

def DESC_FLAG_FENCED : UInt32 := 1
def CUR_VISIBLE : UInt32 := 1
def CUR_MOVE_ONLY : UInt32 := 2
def CUR_PREMULTIPLIED : UInt32 := 8
def CUR_WARP : UInt32 := 16

/-- `struct drm_rect`. -/
structure DrmRect where
  x1 : Int32
  y1 : Int32
  x2 : Int32
  y2 : Int32
deriving DecidableEq

/-- A cursor plane with a framebuffer; `old` is whether it is the one of the state before. -/
structure CursorPlane where
  crtcX : Int32
  crtcY : Int32
  hotspotX : Int32
  hotspotY : Int32
  fb : Framebuffer
  old : Bool

/-- `struct igpu_device`, without the ring drainer. -/
structure LegacyDevice where
  ringDma : UInt64
  seqno : UInt64
  accel2d : Bool
  cursorHadFb : Bool
  cursorLastX : Int32
  cursorLastY : Int32

/-- The driver with its device.  The page of the ring is at `ring` in host memory. -/
structure Phase0 where
  idev : LegacyDevice
  dev : Device
  ring : Nat

namespace Phase0

/-! ### Accesses -/

def iowrite32 (env : Env) (off : UInt64) (val : UInt32) (m : Phase0) : Phase0 :=
  { m with dev := m.dev.writeBar0 env off (Bytes.ofValue 4 val.toNat) }

def ioread32 (off : UInt64) (m : Phase0) : UInt32 := Bytes.u32 (m.dev.readBar0 off 4)

/-- A store of the driver to its page. -/
def stage (offset : Nat) (bs : List UInt8) (m : Phase0) : Phase0 :=
  { m with dev := { m.dev with dev := { m.dev.dev with mem := m.dev.dev.mem.store (m.ring + offset) bs } } }

/-- Points the device at the page and rings the doorbell. -/
def ringDoorbell (env : Env) (m : Phase0) : Phase0 :=
  let m := m.iowrite32 env Reg.cmdRingBaseLo (lowHalf m.idev.ringDma)
  let m := m.iowrite32 env Reg.cmdRingBaseHi (highHalf m.idev.ringDma)
  m.iowrite32 env Reg.doorbellCmd0 1

def nextSeqno (m : Phase0) : Phase0 := { m with idev := { m.idev with seqno := m.idev.seqno + 1 } }

/-! ### Submissions -/

def submitDescriptor (seq : UInt64) (payloadLen : UInt32) : Descriptor where
  msgType := MsgType.submitCmd
  flags := DESC_FLAG_FENCED
  len := payloadLen
  dataOffset := 72
  seqno := seq
  payloadAddr := 0

def submitCommand (seq : UInt64) (encoding payloadLen : UInt32) : SubmitCmd where
  ctxId := 0
  encoding
  payloadLen
  flags := 0
  seqno := seq
  inFence := 0
  outFence := seq

/-- The page filled for a submission. -/
def staged (encoding : UInt32) (payload : List UInt8) (m : Phase0) : Phase0 :=
  let m := m.nextSeqno
  let len := UInt32.ofNat payload.length
  let m := m.stage 0 (submitDescriptor m.idev.seqno len).encode
  let m := m.stage 32 (submitCommand m.idev.seqno encoding len).encode
  m.stage 72 payload

def igpuRingSubmit (env : Env) (encoding : UInt32) (payload : List UInt8) (m : Phase0) : UInt32 × Phase0 :=
  let m := (m.staged encoding payload).ringDoorbell env
  (m.ioread32 Reg.retiredLo, m)

def scanout (fb : Framebuffer) : ScanoutPresent where
  width := fb.width
  height := fb.height
  pitch := fb.pitch
  format := WIRE_FMT_XRGB8888
  scanoutAddr := fb.addr

def igpuSubmitScanout (env : Env) (fb : Framebuffer) (m : Phase0) : UInt32 × Phase0 :=
  m.igpuRingSubmit env Encoding.displayScanout (scanout fb).encode

def igpuSubmitScanoutDamaged (env : Env) (fb : Framebuffer) (dx dy dw dh : UInt32) (m : Phase0) : UInt32 × Phase0 :=
  m.igpuRingSubmit env Encoding.displayScanoutDamage
    { toScanoutPresent := scanout fb, dx, dy, dw, dh : ScanoutPresentDamaged }.encode

def cursorDescriptor (seq : UInt64) : Descriptor where
  msgType := MsgType.cursorUpdate
  flags := DESC_FLAG_FENCED
  len := 48
  dataOffset := 32
  seqno := seq
  payloadAddr := 0

def stagedCursor (cu : CursorUpdate) (m : Phase0) : Phase0 :=
  let m := m.nextSeqno
  (m.stage 0 (cursorDescriptor m.idev.seqno).encode).stage 32 cu.encode

def igpuSubmitCursor (env : Env) (cu : CursorUpdate) (m : Phase0) : UInt32 × Phase0 :=
  let m := (m.stagedCursor cu).ringDoorbell env
  (m.ioread32 Reg.retiredLo, m)

/-! ### The planes -/

def igpuFlush (env : Env) (fb : Option Framebuffer) (m : Phase0) : Phase0 :=
  match fb with
  | none => m
  | some fb => (m.igpuSubmitScanout env fb).2

/-- The merged damage clamped to the framebuffer, if any of it is left. -/
def clampRect (fb : Framebuffer) (r : DrmRect) : Option DrmRect :=
  let x1 := if r.x1 < 0 then 0 else r.x1
  let y1 := if r.y1 < 0 then 0 else r.y1
  let x2 := if r.x2 > fb.width.toInt32 then fb.width.toInt32 else r.x2
  let y2 := if r.y2 > fb.height.toInt32 then fb.height.toInt32 else r.y2
  if x2 ≤ x1 ∨ y2 ≤ y1 then none else some ⟨x1, y1, x2, y2⟩

/-- `damage` is what `drm_atomic_helper_damage_merged` makes of the two states of the plane. -/
def igpuFlushDamaged (env : Env) (fb : Option Framebuffer) (damage : Option DrmRect) (m : Phase0) : Phase0 :=
  match fb, damage with
  | none, _ => m
  | some fb, none => (m.igpuSubmitScanout env fb).2
  | some fb, some r =>
    match clampRect fb r with
    | none => m
    | some c =>
      (m.igpuSubmitScanoutDamaged env fb c.x1.toUInt32 c.y1.toUInt32 (c.x2 - c.x1).toUInt32 (c.y2 - c.y1).toUInt32).2

/-- `igpu_pipe_update` and `igpu_primary_update`. -/
def igpuPrimaryUpdate (env : Env) (fb : Option Framebuffer) (damage : Option DrmRect) (m : Phase0) : Phase0 :=
  if m.idev.accel2d then m.igpuFlushDamaged env fb damage else m.igpuFlush env fb

def igpuCursorHide (env : Env) (m : Phase0) : Phase0 :=
  let cu : CursorUpdate :=
    { scanoutId := 0
      flags := 0
      posX := m.idev.cursorLastX
      posY := m.idev.cursorLastY
      hotX := 0
      hotY := 0
      width := 0
      height := 0
      pitch := 0
      format := 0
      shapeRef := 0 }
  ({ m with idev := { m.idev with cursorHadFb := false } }.igpuSubmitCursor env cu).2

def igpuCursorUpdatePlane (env : Env) (plane : Option CursorPlane) (m : Phase0) : Phase0 :=
  match plane with
  | none => m.igpuCursorHide env
  | some p =>
    let dx := p.crtcX - m.idev.cursorLastX
    let dy := p.crtcY - m.idev.cursorLastY
    let abs (v : Int32) : Int32 := if v < 0 then -v else v
    let moveOnly := if p.old then CUR_MOVE_ONLY else 0
    let warp := if m.idev.cursorHadFb ∧ (abs dx > 64 ∨ abs dy > 64) then CUR_WARP else 0
    let cu : CursorUpdate :=
      { scanoutId := 0
        flags := CUR_VISIBLE ||| CUR_PREMULTIPLIED ||| moveOnly ||| warp
        posX := p.crtcX
        posY := p.crtcY
        hotX := p.hotspotX.toUInt32.toUInt16
        hotY := p.hotspotY.toUInt32.toUInt16
        width := p.fb.width.toUInt16
        height := p.fb.height.toUInt16
        pitch := p.fb.pitch
        format := Format.b8g8r8a8
        shapeRef := p.fb.addr }
    let idev := { m.idev with cursorLastX := p.crtcX, cursorLastY := p.crtcY, cursorHadFb := true }
    ({ m with idev }.igpuSubmitCursor env cu).2

/-! ### What the accesses do -/

private theorem iowrite32_eq (env : Env) {off : UInt64} (hoff : lane off = 0) (val : UInt32) (m : Phase0) :
    m.iowrite32 env off val = { m with dev := m.dev.bar0WriteU32 env off val } := by
  have hbytes : Bytes.ofValue 4 val.toNat = Device.wordBytes [val] := (List.append_nil _).symm
  rw [iowrite32, hbytes, Device.writeBar0_words hoff]
  rfl

/-- The device before the doorbell write is served. -/
def pointed (m : Phase0) : Backend :=
  { m.dev.dev with ringBase := Function.update m.dev.dev.ringBase 0 m.idev.ringDma }

private theorem setHigh_setLow (x y : UInt64) : setHigh (setLow x (lowHalf y)) (highHalf y) = y :=
  eq_of_halves (by simp) (by simp)

theorem ringDoorbell_eq (env : Env) (m : Phase0) :
    m.ringDoorbell env =
      { m with dev := { m.dev with dev := m.pointed.processRing env 0, raised := m.dev.raised ++ [1] } } := by
  have hlow : m.iowrite32 env Reg.cmdRingBaseLo (lowHalf m.idev.ringDma) = { m with
      dev := m.dev.configureRing 0 RingField.baseLo (lowHalf m.idev.ringDma) } := iowrite32_eq env rfl _ m
  have hhigh : ∀ m' : Phase0, m'.iowrite32 env Reg.cmdRingBaseHi (highHalf m.idev.ringDma) = { m' with
      dev := m'.dev.configureRing 0 RingField.baseHi (highHalf m.idev.ringDma) } := iowrite32_eq env rfl _
  have hbell : ∀ m' : Phase0, m'.iowrite32 env Reg.doorbellCmd0 1 = { m' with
      dev := { m'.dev with dev := m'.dev.dev.processRing env 0, raised := m'.dev.raised ++ [1] } } :=
    iowrite32_eq env rfl _
  have hbase : Function.update (Function.update m.dev.dev.ringBase 0
      (setLow (m.dev.dev.ringBase 0) (lowHalf m.idev.ringDma))) 0
      (setHigh (Function.update m.dev.dev.ringBase 0 (setLow (m.dev.dev.ringBase 0) (lowHalf m.idev.ringDma)) 0)
        (highHalf m.idev.ringDma)) = Function.update m.dev.dev.ringBase 0 m.idev.ringDma := by
    rw [Function.update_self, Function.update_idem, setHigh_setLow]
  rw [ringDoorbell, hlow, hhigh, hbell, pointed, ← hbase]
  rfl

/-! ### What a submission does -/

/-- The driver has been probed: the VM is admitted, its page is mapped and the shared ring is not configured. -/
structure Probed (m : Phase0) : Prop where
  ticket : m.dev.dev.ticket.isSome
  index : m.dev.dev.ringIndex 0 = 0
  disjoint : m.dev.dev.dma.Disjoint
  base : m.idev.ringDma ≠ 0
  page : m.dev.dev.dma.resolve m.idev.ringDma 4096 = some m.ring

theorem Probed.reads {m : Phase0} (h : m.Probed) {d : Backend} (hdma : d.dma = m.dev.dev.dma) {i k : Nat} (hk : 0 < k)
    (hi : i + k ≤ 4096) : d.dmaRead (m.idev.ringDma + UInt64.ofNat i) k = some (d.mem.load (m.ring + i) k) := by
  rw [Backend.dmaRead, DmaTable.read, hdma, DmaTable.resolve_add h.disjoint h.page hk hi]
  rfl

theorem staged_mem (encoding : UInt32) (payload : List UInt8) (m : Phase0) :
    (m.staged encoding payload).pointed.mem =
      ((m.dev.dev.mem.store m.ring (submitDescriptor (m.idev.seqno + 1) (UInt32.ofNat payload.length)).encode).store
        (m.ring + 32) (submitCommand (m.idev.seqno + 1) encoding (UInt32.ofNat payload.length)).encode).store
          (m.ring + 72) payload := rfl

private theorem stagedCursor_mem (cu : CursorUpdate) (m : Phase0) :
    (m.stagedCursor cu).pointed.mem =
      (m.dev.dev.mem.store m.ring (cursorDescriptor (m.idev.seqno + 1)).encode).store (m.ring + 32) cu.encode := rfl

private theorem pointed_ringBase (m : Phase0) : m.pointed.ringBase 0 = m.idev.ringDma := by simp [pointed]

private theorem submitCommand_encoding (seq : UInt64) (encoding payloadLen : UInt32) :
    (submitCommand seq encoding payloadLen).encoding = encoding := rfl

variable {m : Phase0}

/-- What the device finds on the page. -/
private theorem Probed.command (h : m.Probed) (encoding : UInt32) (payload : List UInt8) :
    Backend.CommandAt 0 (m.staged encoding payload).pointed
      (submitDescriptor (m.idev.seqno + 1) (UInt32.ofNat payload.length))
      (submitCommand (m.idev.seqno + 1) encoding (UInt32.ofNat payload.length)) := by
  have hbase : (m.staged encoding payload).pointed.ringBase 0 = m.idev.ringDma := pointed_ringBase _
  have hdescriptor := h.reads (d := (m.staged encoding payload).pointed) rfl (i := 0) (k := 32)
    (by decide) (by decide)
  have hcommand := h.reads (d := (m.staged encoding payload).pointed) rfl (i := 32) (k := 40) (by decide) (by decide)
  refine ⟨h.index, by rw [hbase]; exact h.base, ?_, ?_, rfl⟩
  · rw [hbase]
    have hzero : m.idev.ringDma + UInt64.ofNat 0 = m.idev.ringDma := UInt64.add_zero _
    rw [hzero] at hdescriptor
    rw [descriptorSize, hdescriptor, Option.map_some, staged_mem, Memory.load_store_of_disjoint (by omega),
      Memory.load_store_of_disjoint (by omega)]
    have hsize := (submitDescriptor (m.idev.seqno + 1) (UInt32.ofNat payload.length)).encode_length
    rw [descriptorSize] at hsize
    rw [Nat.add_zero, ← hsize, Memory.load_store_same, Descriptor.decode_encode]
  · have hsize := (submitCommand (m.idev.seqno + 1) encoding (UInt32.ofNat payload.length)).encode_length
    rw [hbase, descriptorSize, SubmitCmd.size, hcommand, Option.map_some, staged_mem,
      Memory.load_store_of_disjoint (by omega)]
    rw [SubmitCmd.size] at hsize
    rw [← hsize, Memory.load_store_same, SubmitCmd.decode_encode]

private theorem Probed.payload (h : m.Probed) (encoding : UInt32) (payload : List UInt8) (hpos : 0 < payload.length)
    (hlen : payload.length ≤ 4024) :
    (m.staged encoding payload).pointed.dmaRead (m.idev.ringDma + 72) payload.length = some payload := by
  have hread := h.reads (d := (m.staged encoding payload).pointed) rfl (i := 72) hpos (by omega)
  rw [staged_mem, Memory.load_store_same] at hread
  exact hread

private theorem igpuRingSubmit_dev (h : m.Probed) (env : Env) (encoding : UInt32) (payload : List UInt8) :
    (m.igpuRingSubmit env encoding payload).2.dev.dev =
      (m.staged encoding payload).pointed.processSubmit env
        (submitCommand (m.idev.seqno + 1) encoding (UInt32.ofNat payload.length)) (m.idev.ringDma + 72) 0 := by
  have hbase : (m.staged encoding payload).pointed.ringBase 0 = m.idev.ringDma := pointed_ringBase _
  rw [igpuRingSubmit, ringDoorbell_eq]
  show (m.staged encoding payload).pointed.processRing env 0 = _
  rw [Backend.processRing_command (h.command encoding payload), hbase]
  rfl

/-- The device presents the framebuffer, and retires the seqno of the submission if it does. -/
theorem submitted_scanout (h : m.Probed) (env : Env) (fb : Framebuffer) :
    (m.igpuSubmitScanout env fb).2.dev.dev =
      (m.staged Encoding.displayScanout (scanout fb).encode).pointed.presentScanout env (scanout fb)
      (m.idev.seqno + 1)
        0 := by
  have hlen : (scanout fb).encode.length = 24 := (scanout fb).encode_length
  have hread := h.payload Encoding.displayScanout (scanout fb).encode (by omega) (by omega)
  rw [hlen] at hread
  rw [igpuSubmitScanout, igpuRingSubmit_dev h, Backend.processSubmit, submitCommand_encoding, if_neg (by decide),
    if_pos rfl, ScanoutPresent.size, hread]
  simp only [ScanoutPresent.decode_encode]
  rfl

theorem submitted_damaged (h : m.Probed) (env : Env) (fb : Framebuffer) (dx dy dw dh : UInt32) :
    (m.igpuSubmitScanoutDamaged env fb dx dy dw dh).2.dev.dev =
      (m.staged Encoding.displayScanoutDamage
        (ScanoutPresentDamaged.encode ⟨scanout fb, dx, dy, dw, dh⟩)).pointed.presentScanoutDamaged env
          ⟨scanout fb, dx, dy, dw, dh⟩ (m.idev.seqno + 1) 0 := by
  generalize hsp : (⟨scanout fb, dx, dy, dw, dh⟩ : ScanoutPresentDamaged) = sp
  have hlen : sp.encode.length = 40 := sp.encode_length
  have hread := h.payload Encoding.displayScanoutDamage sp.encode (by omega) (by omega)
  rw [hlen] at hread
  rw [igpuSubmitScanoutDamaged, hsp, igpuRingSubmit_dev h, Backend.processSubmit, submitCommand_encoding,
    if_neg (by decide), if_neg (by decide), if_pos rfl, hlen]
  have hclaimed : claimed (submitCommand (m.idev.seqno + 1) Encoding.displayScanoutDamage
    (UInt32.ofNat 40)).payloadLen
      ScanoutPresentDamaged.size = 40 := rfl
  have hzero : zeroFilled ScanoutPresentDamaged.size sp.encode = sp.encode := by
    rw [zeroFilled, hlen, ScanoutPresentDamaged.size, Nat.sub_self, List.replicate_zero, List.append_nil]
  rw [hclaimed, hread]
  simp only [hzero, ScanoutPresentDamaged.decode_encode]
  rfl

/-- A cursor update is forwarded, and its seqno retired; nothing else is done that the display would see. -/
theorem submitted_cursor (h : m.Probed) (env : Env) (cu : CursorUpdate) :
    ∃ d, Backend.Quiet (m.stagedCursor cu).pointed d ∧
      (m.igpuSubmitCursor env cu).2.dev.dev = d.retire 0 (m.idev.seqno + 1) := by
  have hbase : (m.stagedCursor cu).pointed.ringBase 0 = m.idev.ringDma := pointed_ringBase _
  have hread := h.reads (d := (m.stagedCursor cu).pointed) rfl (i := 0) (k := 32) (by decide) (by decide)
  have hzero : m.idev.ringDma + UInt64.ofNat 0 = m.idev.ringDma := UInt64.add_zero _
  have hsize : (cursorDescriptor (m.idev.seqno + 1)).encode.length = 32 := Descriptor.encode_length _
  have hpage : (m.stagedCursor cu).pointed.mem.load (m.ring + 0) 32 =
    (cursorDescriptor (m.idev.seqno + 1)).encode := by
    rw [stagedCursor_mem, Memory.load_store_of_disjoint (by omega), Nat.add_zero, ← hsize, Memory.load_store_same]
  rw [hzero, hpage] at hread
  refine ⟨_, @Backend.readCursorUpdate_quiet env (m.idev.ringDma + 32) 48 (m.stagedCursor cu).pointed, ?_⟩
  rw [igpuSubmitCursor, ringDoorbell_eq]
  show (m.stagedCursor cu).pointed.processRing env 0 = _
  have hindex : (m.stagedCursor cu).pointed.ringIndex 0 = 0 := h.index
  rw [Backend.processRing, if_neg (not_not.2 hindex), hbase, if_neg h.base, descriptorSize, hread]
  have hcursor : (cursorDescriptor (m.idev.seqno + 1)).msgType = MsgType.cursorUpdate := rfl
  simp only [Descriptor.decode_encode]
  rw [if_pos hcursor]
  rfl

end Phase0

end Kmd

end Infinigpu
