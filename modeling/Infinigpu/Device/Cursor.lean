import Infinigpu.Device.Backend

/-!
# The cursor plane (`infinigpu-device`, `handle_cursor_update`)

One guest cursor update is turned into at most one message on the plane sideband.  A cursor update does only
bookkeeping (`handleCursorUpdate_quiet`): it neither writes guest memory nor retires anything.
-/

namespace Infinigpu

def CURSOR_MAX_DIM : Nat := 256
def CURSOR_MAX_BYTES : Nat := CURSOR_MAX_DIM * CURSOR_MAX_DIM * 4
/-- In nanoseconds. -/
def CURSOR_SHAPE_MIN_INTERVAL : Nat := 33000000
def CURSOR_MOVE_MIN_INTERVAL : Nat := 16000000

/-! Tags and bits of the plane sideband. -/

namespace Plane
def opDefine : UInt8 := 1
def opMove : UInt8 := 2
def kindCursor : UInt8 := 1
def visible : UInt8 := 1
def premultiplied : UInt8 := 2
def warp : UInt8 := 4
def relative : UInt8 := 8
end Plane

/-- Whether a cursor shape is safe to read and forward. -/
def cursorShapeOk (width height : UInt16) (pitch format : UInt32) : Bool :=
  let w := width.toNat
  let h := height.toNat
  let pitch := pitch.toNat
  decide (w ≠ 0) && decide (h ≠ 0) && decide (w ≤ CURSOR_MAX_DIM) && decide (h ≤ CURSOR_MAX_DIM) &&
    format == Format.b8g8r8a8 && decide (pitch ≥ w * 4) && decide (pitch * h ≤ CURSOR_MAX_BYTES)

namespace CursorUpdate

def has (cu : CursorUpdate) (flag : UInt32) : Bool := cu.flags &&& flag != 0

/-- The flags repacked for the sideband. -/
def sidebandFlags (cu : CursorUpdate) : UInt8 :=
  let bit (flag : UInt32) (out : UInt8) : UInt8 := if cu.has flag then out else 0
  bit CursorFlags.visible Plane.visible ||| bit CursorFlags.premultiplied Plane.premultiplied |||
    bit CursorFlags.warp Plane.warp ||| bit CursorFlags.relative Plane.relative

/-- A header-only move. -/
def moveHeader (cu : CursorUpdate) : PlaneHeader where
  op := Plane.opMove
  planeKind := Plane.kindCursor
  flags := cu.sidebandFlags
  planeId := 0
  codecOrFormat := 0
  zOrder := 0
  width := 0
  height := 0
  hotX := cu.hotX
  hotY := cu.hotY
  posX := cu.posX
  posY := cu.posY
  payloadLen := 0

def defineHeader (cu : CursorUpdate) : PlaneHeader where
  op := Plane.opDefine
  planeKind := Plane.kindCursor
  flags := cu.sidebandFlags
  planeId := 0
  codecOrFormat := Format.b8g8r8a8.toUInt8
  zOrder := 0
  width := cu.width
  height := cu.height
  hotX := cu.hotX
  hotY := cu.hotY
  posX := cu.posX
  posY := cu.posY
  payloadLen := UInt32.ofNat (cu.width.toNat * cu.height.toNat * 4)

end CursorUpdate

namespace Backend

variable (env : Env)

/-- The update of an admitted VM with a streamer, `n` being the number of its calls out of the device. -/
def forwardCursor (cu : CursorUpdate) (n : Nat) (d : Backend) : Backend :=
  let pos := (cu.posX, cu.posY)
  let warp := cu.has CursorFlags.warp
  let now := env.instant n
  if !cu.has CursorFlags.visible then
    let d := d.sendPlane cu.moveHeader []
    { d with cursor := { d.cursor with lastVisible := false, lastPos := some pos } }
  else if cu.has CursorFlags.moveOnly then
    let extraViewers := decide (env.clientCount n > 1)
    if !warp && !extraViewers then
      -- the one viewer draws the cursor at its own pointer
      { d with cursor := { d.cursor with lastPos := some pos, lastVisible := true } }
    else if !warp && d.cursor.lastPos == some pos then
      d
    else if !warp && d.cursor.lastMoveSent.any (fun t => decide (now - t < CURSOR_MOVE_MIN_INTERVAL)) then
      d
    else
      let d := d.sendPlane cu.moveHeader []
      { d with cursor := { d.cursor with lastPos := some pos, lastMoveSent := some now, lastVisible := true } }
  else if !cursorShapeOk cu.width cu.height cu.pitch cu.format then
    d
  else if cu.has CursorFlags.shapeByResid then
    d
  else
    let w := cu.width.toNat
    let h := cu.height.toNat
    let pitch := cu.pitch.toNat
    let key := (cu.shapeRef, cu.width, cu.height, cu.pitch)
    if d.cursor.lastShape == some key then
      let d := d.sendPlane cu.moveHeader []
      { d with cursor := { d.cursor with lastPos := some pos, lastVisible := true } }
    else if d.cursor.lastShapeRead.any (fun t => decide (now - t < CURSOR_SHAPE_MIN_INTERVAL)) then
      d
    else
      match d.dmaRead cu.shapeRef (pitch * h) with
      | none => d
      | some src =>
        let bgra := (List.range h).flatMap fun y => Bytes.slice src (y * pitch) (w * 4)
        let d := d.sendPlane cu.defineHeader bgra
        { d with cursor :=
          { lastShape := some key
            lastPos := some pos
            lastVisible := true
            lastShapeRead := some now
            lastMoveSent := d.cursor.lastMoveSent } }

def handleCursorUpdate (cu : CursorUpdate) (d : Backend) : Backend :=
  let d := { d with cursorUpdates := d.cursorUpdates + 1 }
  let (admitted, d) := d.ensureAdmitted env
  if !admitted || d.pixel.isNone then
    d
  else
    let n := d.calls
    { d with calls := n + 1 }.forwardCursor env cu n

variable {env}

/-- Changes to the cursor state are bookkeeping. -/
private theorem cursor_quiet (d : Backend) (cursor : CursorState) : Quiet d { d with cursor } :=
  ⟨⟨rfl, rfl, rfl, rfl, id⟩, rfl, rfl, rfl, rfl, rfl⟩

private theorem forwardCursor_quiet (cu : CursorUpdate) (n : Nat) (d : Backend) :
    Quiet d (d.forwardCursor env cu n) := by
  have hsend : ∀ hdr body cursor, Quiet d { d.sendPlane hdr body with cursor } := fun hdr body cursor =>
    (sendPlane_quiet hdr body d).trans (cursor_quiet _ _)
  simp only [forwardCursor]
  split
  · exact hsend _ _ _
  · split
    · split
      · exact cursor_quiet _ _
      · split
        · exact .refl d
        · split
          · exact .refl d
          · exact hsend _ _ _
    · split
      · exact .refl d
      · split
        · exact .refl d
        · split
          · exact hsend _ _ _
          · split
            · exact .refl d
            · split
              · exact .refl d
              · exact hsend _ _ _

theorem handleCursorUpdate_quiet (cu : CursorUpdate) (d : Backend) : Quiet d (d.handleCursorUpdate env cu) := by
  have hcount : Quiet d { d with cursorUpdates := d.cursorUpdates + 1 } :=
    ⟨⟨rfl, rfl, rfl, rfl, id⟩, rfl, rfl, rfl, rfl, rfl⟩
  have hadm := hcount.trans (ensureAdmitted_quiet env _)
  simp only [handleCursorUpdate]
  split
  · exact hadm
  · have hcall : ∀ d : Backend, Quiet d { d with calls := d.calls + 1 } := fun d =>
      ⟨⟨rfl, rfl, rfl, rfl, id⟩, rfl, rfl, rfl, rfl, rfl⟩
    exact (hadm.trans (hcall _)).trans (forwardCursor_quiet _ _ _)

end Backend

end Infinigpu
