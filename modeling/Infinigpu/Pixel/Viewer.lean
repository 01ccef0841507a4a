import Infinigpu.Pixel.Hub
import Infinigpu.Device.Wire

/-!
# The viewer's cursor (`infinigpu-viewer`, `stream`)

A plane message starts with a 36-byte header (`PlaneHeader.toBytes`).  The viewer sorts the messages of its socket by
their first four bytes and folds those of a cursor plane into its cursor slot.
-/

namespace Infinigpu

namespace Plane
def magic : UInt32 := 0x4c504958
def version : UInt8 := 1
def headerLen : Nat := 36
end Plane

namespace PlaneHeader

def toBytes (h : PlaneHeader) : List UInt8 :=
  [Bytes.ofValue 4 Plane.magic.toNat, [Plane.version, h.op, h.planeKind, h.flags],
    Bytes.ofValue 4 h.planeId.toNat, [h.codecOrFormat, h.zOrder, 0, 0],
    Bytes.ofValue 2 h.width.toNat, Bytes.ofValue 2 h.height.toNat,
    Bytes.ofValue 2 h.hotX.toNat, Bytes.ofValue 2 h.hotY.toNat,
    Bytes.ofValue 4 h.posX.toUInt32.toNat, Bytes.ofValue 4 h.posY.toUInt32.toNat,
    Bytes.ofValue 4 h.payloadLen.toNat].flatten

/-- The whole wire message. -/
def message (h : PlaneHeader) (body : List UInt8) : List UInt8 := h.toBytes ++ body

def parse (buf : List UInt8) : Option PlaneHeader :=
  if buf.length < Plane.headerLen then
    none
  else if u32At buf 0 ≠ Plane.magic then
    none
  else
    some
      { op := buf.getD 5 0
        planeKind := buf.getD 6 0
        flags := buf.getD 7 0
        planeId := u32At buf 8
        codecOrFormat := buf.getD 12 0
        zOrder := buf.getD 13 0
        width := u16At buf 16
        height := u16At buf 18
        hotX := u16At buf 20
        hotY := u16At buf 22
        posX := (u32At buf 24).toInt32
        posY := (u32At buf 28).toInt32
        payloadLen := u32At buf 32 }

theorem toBytes_length (h : PlaneHeader) : h.toBytes.length = Plane.headerLen := rfl

theorem u32At_message (h : PlaneHeader) (body : List UInt8) : u32At (h.message body) 0 = Plane.magic :=
  Bytes.u32_ofValue Plane.magic

/-- What is framed is parsed back. -/
theorem parse_message (h : PlaneHeader) (body : List UInt8) : parse (h.message body) = some h := by
  have hlen : ¬ (h.message body).length < Plane.headerLen := by
    rw [message, List.length_append, toBytes_length]
    omega
  have hid : u32At (h.message body) 8 = h.planeId := Bytes.u32_ofValue h.planeId
  have hw : u16At (h.message body) 16 = h.width := Bytes.u16_ofValue h.width
  have hh : u16At (h.message body) 18 = h.height := Bytes.u16_ofValue h.height
  have hx : u16At (h.message body) 20 = h.hotX := Bytes.u16_ofValue h.hotX
  have hy : u16At (h.message body) 22 = h.hotY := Bytes.u16_ofValue h.hotY
  have hpx : u32At (h.message body) 24 = h.posX.toUInt32 := Bytes.u32_ofValue h.posX.toUInt32
  have hpy : u32At (h.message body) 28 = h.posY.toUInt32 := Bytes.u32_ofValue h.posY.toUInt32
  have hpl : u32At (h.message body) 32 = h.payloadLen := Bytes.u32_ofValue h.payloadLen
  rw [parse, if_neg hlen, if_neg (by simp [u32At_message]), hid, hw, hh, hx, hy, hpx, hpy, hpl]
  rfl

theorem drop_message (h : PlaneHeader) (body : List UInt8) : (h.message body).drop Plane.headerLen = body := rfl

end PlaneHeader

/-- A cursor sprite: tightly packed BGRA with its hotspot. -/
structure CursorShape where
  bgra : List UInt8
  w : UInt16
  h : UInt16
  hotX : UInt16
  hotY : UInt16
  premultiplied : Bool
  deriving DecidableEq

/-- The cursor of one viewer (`CursorInner`). -/
structure CursorSlot where
  shape : Option CursorShape
  /-- Counts the shapes, so that a new one is uploaded once. -/
  version : UInt64
  visible : Bool
  active : Bool
  deriving DecidableEq

namespace CursorSlot

protected def default : CursorSlot := ⟨none, 0, false, false⟩

def define (slot : CursorSlot) (shape : CursorShape) (visible : Bool) : CursorSlot :=
  ⟨some shape, slot.version + 1, visible, true⟩

def setVisible (slot : CursorSlot) (visible : Bool) : CursorSlot := { slot with visible, active := true }

/-- A message of a cursor plane. -/
def onPlane (slot : CursorSlot) (ph : PlaneHeader) (body : List UInt8) : CursorSlot :=
  let vis := ph.flags &&& Plane.visible != 0
  if ph.op = Plane.opDefine then
    let need := ph.width.toNat * ph.height.toNat * 4
    -- trust the header only as far as the body reaches
    if ph.width > 0 ∧ ph.height > 0 ∧ need ≤ body.length then
      slot.define
        { bgra := body.take need
          w := ph.width
          h := ph.height
          hotX := ph.hotX
          hotY := ph.hotY
          premultiplied := ph.flags &&& Plane.premultiplied != 0 } vis
    else
      slot
  else if ph.op = Plane.opMove ∨ ph.op = Plane.opDestroy then
    slot.setVisible (vis && ph.op == Plane.opMove)
  else
    slot

/-- A binary message of the socket: anything but a plane message goes to the video decoder. -/
def receive (slot : CursorSlot) (data : List UInt8) : CursorSlot :=
  if 4 ≤ data.length ∧ u32At data 0 = Plane.magic then
    match PlaneHeader.parse data with
    | some ph => if ph.planeKind = Plane.kindCursor then slot.onPlane ph (data.drop Plane.headerLen) else slot
    | none => slot
  else
    slot

theorem receive_message (slot : CursorSlot) {ph : PlaneHeader} (body : List UInt8)
    (hkind : ph.planeKind = Plane.kindCursor) : slot.receive (ph.message body) = slot.onPlane ph body := by
  have hlen : 4 ≤ (ph.message body).length := by
    rw [PlaneHeader.message, List.length_append, PlaneHeader.toBytes_length, Plane.headerLen]
    omega
  rw [receive, if_pos ⟨hlen, PlaneHeader.u32At_message ph body⟩, PlaneHeader.parse_message]
  simp only [if_pos hkind, PlaneHeader.drop_message]

end CursorSlot

end Infinigpu
