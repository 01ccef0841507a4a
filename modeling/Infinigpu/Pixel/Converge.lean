import Infinigpu.Pixel.Viewer
import Infinigpu.Device.Dma

/-!
# The cursor once the guest is still

Each cursor update of an admitted VM is dropped, forwarded as a move, or its shape is read and forwarded
(`Backend.cursorFate`).  A viewer that gets everything shows the last update that was forwarded and the last shape
that was read, so it shows the last update exactly when these agree with it (`Backend.cursor_converges_iff`).
-/

namespace Infinigpu

/-! ### What the viewers show -/

/-- The cursor of the browser client, which draws it at the position of the messages. -/
structure WebCursor where
  sprite : CursorShape
  posX : Int32
  posY : Int32
  visible : Bool

namespace WebCursor

/-- `handlePlane`; a client without a sprite has no cursor. -/
def handlePlane (cur : Option WebCursor) (u8 : List UInt8) : Option WebCursor :=
  match PlaneHeader.parse u8 with
  | none => cur
  | some ph =>
    if ph.planeKind ≠ Plane.kindCursor then
      cur
    else
      let visible := ph.flags &&& Plane.visible != 0
      let body := u8.drop Plane.headerLen
      if ph.op = Plane.opDefine then
        let w := ph.width.toNat
        let h := ph.height.toNat
        let need := w * h * 4
        if w = 0 ∨ h = 0 ∨ w > 1024 ∨ h > 1024 ∨ body.length < need then
          cur
        else
          some
            { sprite :=
                { bgra := body.take need
                  w := ph.width
                  h := ph.height
                  hotX := ph.hotX
                  hotY := ph.hotY
                  premultiplied := ph.flags &&& Plane.premultiplied != 0 }
              posX := ph.posX
              posY := ph.posY
              visible }
      else if ph.op = Plane.opMove then
        cur.map fun c => { c with posX := ph.posX, posY := ph.posY, visible }
      else if ph.op = Plane.opDestroy then
        cur.map fun c => { c with visible := false }
      else
        cur

end WebCursor

/-- A native viewer and a browser side by side. -/
structure ViewerScreen where
  native : CursorSlot
  web : Option WebCursor

namespace ViewerScreen

protected def default : ViewerScreen := ⟨.default, none⟩

def receive (s : ViewerScreen) : PlaneEvent → ViewerScreen
  | .send hdr body => ⟨s.native.receive (hdr.message body), WebCursor.handlePlane s.web (hdr.message body)⟩
  | .reset => s

/-- The cursors after the messages. -/
def after (events : List PlaneEvent) : ViewerScreen := events.foldl receive .default

end ViewerScreen

/-! ### What becomes of an update -/

inductive CursorFate where
  | dropped
  | move
  | shape
  deriving DecidableEq

namespace CursorUpdate

/-- The sprite without the padding of its rows. -/
def sprite (cu : CursorUpdate) (src : List UInt8) : List UInt8 :=
  (List.range cu.height.toNat).flatMap fun y => Bytes.slice src (y * cu.pitch.toNat) (cu.width.toNat * 4)

private theorem sprite_length {cu : CursorUpdate} {src : List UInt8} (hpitch : cu.width.toNat * 4 ≤ cu.pitch.toNat)
    (hsrc : src.length = cu.pitch.toNat * cu.height.toNat) :
    (cu.sprite src).length = cu.width.toNat * cu.height.toNat * 4 := by
  have hrows : ∀ n ≤ cu.height.toNat, ((List.range n).flatMap fun y =>
      Bytes.slice src (y * cu.pitch.toNat) (cu.width.toNat * 4)).length = cu.width.toNat * n * 4 := by
    intro n hn
    induction n with
    | zero => rfl
    | succ n ih =>
      have hfit : n * cu.pitch.toNat + cu.width.toNat * 4 ≤ src.length := by
        have hle : (n + 1) * cu.pitch.toNat ≤ cu.height.toNat * cu.pitch.toNat := Nat.mul_le_mul_right _ hn
        rw [hsrc, Nat.mul_comm cu.pitch.toNat]
        rw [Nat.add_mul, Nat.one_mul] at hle
        omega
      have hrow : cu.width.toNat * (n + 1) * 4 = cu.width.toNat * n * 4 + cu.width.toNat * 4 := by
        rw [Nat.mul_add cu.width.toNat n 1, Nat.mul_one]
        omega
      rw [List.range_succ, List.flatMap_append, List.length_append, ih (by omega), List.flatMap_cons,
        List.flatMap_nil, List.append_nil, Bytes.slice_length hfit, hrow]
  exact hrows _ (Nat.le_refl _)

/-- The update carries a shape. -/
def isShape (cu : CursorUpdate) : Bool := cu.has CursorFlags.visible && !cu.has CursorFlags.moveOnly

end CursorUpdate

namespace Backend

/-- What `forwardCursor` does with an update. -/
def cursorFate (env : Env) (cu : CursorUpdate) (n : Nat) (d : Backend) : CursorFate :=
  let warp := cu.has CursorFlags.warp
  let now := env.instant n
  if !cu.has CursorFlags.visible then
    .move
  else if cu.has CursorFlags.moveOnly then
    if !warp && !decide (env.clientCount n > 1) then
      .dropped
    else if !warp && d.cursor.lastPos == some (cu.posX, cu.posY) then
      .dropped
    else if !warp && d.cursor.lastMoveSent.any (fun t => decide (now - t < CURSOR_MOVE_MIN_INTERVAL)) then
      .dropped
    else
      .move
  else if !cursorShapeOk cu.width cu.height cu.pitch cu.format then
    .dropped
  else if cu.has CursorFlags.shapeByResid then
    .dropped
  else if d.cursor.lastShape == some (cu.shapeRef, cu.width, cu.height, cu.pitch) then
    .move
  else if d.cursor.lastShapeRead.any (fun t => decide (now - t < CURSOR_SHAPE_MIN_INTERVAL)) then
    .dropped
  else if (d.dmaRead cu.shapeRef (cu.pitch.toNat * cu.height.toNat)).isNone then
    .dropped
  else
    .shape

/-- The sprite of an update as guest memory has it. -/
def spriteAt (d : Backend) (cu : CursorUpdate) : Option (List UInt8) :=
  (d.dmaRead cu.shapeRef (cu.pitch.toNat * cu.height.toNat)).map cu.sprite

/-- What is sent for an update. -/
def cursorEvents (d : Backend) (cu : CursorUpdate) : CursorFate → List PlaneEvent
  | .dropped => []
  | .move => [.send cu.moveHeader []]
  | .shape => [.send cu.defineHeader ((d.spriteAt cu).getD [])]

/-- The messages sent so far. -/
def sideband (d : Backend) : List PlaneEvent := (d.pixel.map PixelStreamer.sideband).getD []

private theorem sideband_sendPlane {d : Backend} (hpixel : d.pixel.isSome) (hdr : PlaneHeader) (body : List UInt8) :
    (d.sendPlane hdr body).sideband = d.sideband ++ [.send hdr body] := by
  obtain ⟨p, hp⟩ := Option.isSome_iff_exists.1 hpixel
  simp [sideband, sendPlane, hp]

private theorem forwardCursor_sideband {env : Env} {cu : CursorUpdate} {n : Nat} {d : Backend}
    (hpixel : d.pixel.isSome) :
    (d.forwardCursor env cu n).sideband = d.sideband ++ d.cursorEvents cu (d.cursorFate env cu n) := by
  have hsend : ∀ hdr body cursor, sideband { d.sendPlane hdr body with cursor } = d.sideband ++ [.send hdr body] :=
    fun hdr body _ => sideband_sendPlane hpixel hdr body
  have hdrop : d.sideband = d.sideband ++ d.cursorEvents cu .dropped := (List.append_nil _).symm
  simp only [forwardCursor, cursorFate]
  by_cases hvis : (!cu.has CursorFlags.visible) = true
  · rw [if_pos hvis, if_pos hvis]
    exact hsend _ _ _
  · rw [if_neg hvis, if_neg hvis]
    by_cases hmove : cu.has CursorFlags.moveOnly = true
    · rw [if_pos hmove, if_pos hmove]
      split
      · exact hdrop
      · split
        · exact hdrop
        · split
          · exact hdrop
          · exact hsend _ _ _
    · rw [if_neg hmove, if_neg hmove]
      split
      · exact hdrop
      · split
        · exact hdrop
        · split
          · exact hsend _ _ _
          · split
            · exact hdrop
            · cases hread : d.dmaRead cu.shapeRef (cu.pitch.toNat * cu.height.toNat) with
              | none => simpa using hdrop
              | some src =>
                simp only [Option.isNone_some, Bool.false_eq_true, if_false]
                rw [hsend]
                simp [cursorEvents, spriteAt, hread, CursorUpdate.sprite]

private theorem handleCursorUpdate_sideband {env : Env} {cu : CursorUpdate} {d : Backend} (hadm : d.ticket.isSome)
    (hpixel : d.pixel.isSome) :
    (d.handleCursorUpdate env cu).sideband = d.sideband ++ d.cursorEvents cu (d.cursorFate env cu d.calls) := by
  have hadm' : ({ d with cursorUpdates := d.cursorUpdates + 1 } : Backend).ensureAdmitted env =
      (true, { d with cursorUpdates := d.cursorUpdates + 1 }) := ensureAdmitted_of_ticket hadm
  have hnone : d.pixel.isNone = false := by
    obtain ⟨p, hp⟩ := Option.isSome_iff_exists.1 hpixel
    rw [hp]
    rfl
  have heq : d.handleCursorUpdate env cu =
      forwardCursor env cu d.calls { d with cursorUpdates := d.cursorUpdates + 1, calls := d.calls + 1 } := by
    simp [handleCursorUpdate, hadm', hnone]
  rw [heq]
  exact forwardCursor_sideband (d := { d with cursorUpdates := d.cursorUpdates + 1, calls := d.calls + 1 }) hpixel

/-! ### A run of updates -/

/-- An update together with what guest memory holds when it is handled. -/
def updateCursor (env : Env) (d : Backend) (u : Memory × CursorUpdate) : Backend :=
  handleCursorUpdate env u.2 { d with mem := u.1 }

end Backend

/-- An update and the state it finds. -/
structure CursorStep where
  before : Backend
  cu : CursorUpdate

namespace CursorStep

variable (env : Env)

def fate (s : CursorStep) : CursorFate := s.before.cursorFate env s.cu s.before.calls

def events (s : CursorStep) : List PlaneEvent := s.before.cursorEvents s.cu (s.fate env)

/-- The width, the height and the pixels of the sprite in guest memory. -/
def sprite (s : CursorStep) : Option (UInt16 × UInt16 × List UInt8) :=
  (s.before.spriteAt s.cu).map fun px => (s.cu.width, s.cu.height, px)

/-- The last update that was not dropped. -/
def lastSent (steps : List CursorStep) : Option CursorStep :=
  (steps.filter fun s => s.fate env != .dropped).getLast?

/-- The last update whose shape was read. -/
def lastRead (steps : List CursorStep) : Option CursorStep :=
  (steps.filter fun s => s.fate env == .shape).getLast?

/-- The last update that carried a shape. -/
def lastShape (steps : List CursorStep) : Option CursorStep := (steps.filter (·.cu.isShape)).getLast?

end CursorStep

/-- The update `last` was sent, or agrees with what was sent; and the last shape was read, or found the bytes of the
last one that was. -/
structure CursorStep.Settled (env : Env) (steps : List CursorStep) (last : CursorUpdate) : Prop where
  visible : ((CursorStep.lastSent env steps).map fun f => f.cu.has CursorFlags.visible).getD false =
    last.has CursorFlags.visible
  shape : ∀ px ∈ (CursorStep.lastShape steps).bind CursorStep.sprite,
    (CursorStep.lastRead env steps).bind CursorStep.sprite = some px
  position : (CursorStep.lastRead env steps).isSome → ∀ f ∈ CursorStep.lastSent env steps,
    f.cu.posX = last.posX ∧ f.cu.posY = last.posY

/-- The updates with the states they find, from `d` on. -/
def cursorSteps (env : Env) : Backend → List (Memory × CursorUpdate) → List CursorStep
  | _, [] => []
  | d, u :: us => ⟨{ d with mem := u.1 }, u.2⟩ :: cursorSteps env (d.updateCursor env u) us

namespace ViewerScreen

def pixels (shape : CursorShape) : UInt16 × UInt16 × List UInt8 := (shape.w, shape.h, shape.bgra)

/-- Both viewers show the update `last` with the sprite `wanted`, if there has been one. -/
structure Shows (s : ViewerScreen) (last : CursorUpdate) (wanted : Option (UInt16 × UInt16 × List UInt8)) : Prop where
  visible : s.native.visible = last.has CursorFlags.visible
  shape : ∀ px ∈ wanted, s.native.shape.map pixels = some px
  webVisible : ∀ c ∈ s.web, c.visible = last.has CursorFlags.visible
  webShape : ∀ px ∈ wanted, (s.web.map fun c => pixels c.sprite) = some px
  webPosition : ∀ c ∈ s.web, c.posX = last.posX ∧ c.posY = last.posY

/-- The screen shows what was sent last and what was read last. -/
structure Follows (env : Env) (steps : List CursorStep) (s : ViewerScreen) : Prop where
  visible : s.native.visible =
    ((CursorStep.lastSent env steps).map fun f => f.cu.has CursorFlags.visible).getD false
  shape : s.native.shape.map pixels = (CursorStep.lastRead env steps).bind CursorStep.sprite
  webShape : (s.web.map fun c => pixels c.sprite) = (CursorStep.lastRead env steps).bind CursorStep.sprite
  web : ∀ c ∈ s.web, ∃ f ∈ CursorStep.lastSent env steps,
    c.visible = f.cu.has CursorFlags.visible ∧ c.posX = f.cu.posX ∧ c.posY = f.cu.posY

end ViewerScreen

namespace CursorUpdate

private theorem sideband_visible (cu : CursorUpdate) :
    (cu.sidebandFlags &&& Plane.visible != 0) = cu.has CursorFlags.visible := by
  simp only [sidebandFlags]
  generalize cu.has CursorFlags.visible = visible
  generalize cu.has CursorFlags.premultiplied = premultiplied
  generalize cu.has CursorFlags.warp = warp
  generalize cu.has CursorFlags.relative = relative
  revert visible premultiplied warp relative
  decide

end CursorUpdate

namespace ViewerScreen

variable {env : Env} {steps : List CursorStep} {s : ViewerScreen} {step : CursorStep}

private theorem receive_move (s : ViewerScreen) (cu : CursorUpdate) : s.receive (.send cu.moveHeader []) =
    ⟨s.native.setVisible (cu.has CursorFlags.visible),
      s.web.map fun c => { c with posX := cu.posX, posY := cu.posY, visible := cu.has CursorFlags.visible }⟩ := by
  have hnative : s.native.receive (cu.moveHeader.message []) =
      s.native.setVisible (cu.has CursorFlags.visible) := by
    rw [CursorSlot.receive_message _ _ rfl, CursorSlot.onPlane]
    simp [CursorUpdate.moveHeader, Plane.opMove, Plane.opDefine, cu.sideband_visible]
  have hweb : WebCursor.handlePlane s.web (cu.moveHeader.message []) =
      s.web.map fun c => { c with posX := cu.posX, posY := cu.posY, visible := cu.has CursorFlags.visible } := by
    simp only [WebCursor.handlePlane, PlaneHeader.parse_message]
    simp [CursorUpdate.moveHeader, Plane.opMove, Plane.opDefine, cu.sideband_visible]
  simp only [receive, hnative, hweb]

/-- What a read shape guarantees. -/
private theorem fate_shape (h : step.fate env = .shape) :
    ∃ px, step.before.spriteAt step.cu = some px ∧
      px.length = step.cu.width.toNat * step.cu.height.toNat * 4 ∧
      cursorShapeOk step.cu.width step.cu.height step.cu.pitch step.cu.format = true := by
  have hok : cursorShapeOk step.cu.width step.cu.height step.cu.pitch step.cu.format = true ∧
      (step.before.dmaRead step.cu.shapeRef (step.cu.pitch.toNat * step.cu.height.toNat)).isNone = false := by
    simp only [CursorStep.fate, Backend.cursorFate] at h
    split at h
    · cases h
    · split at h
      · split at h
        · cases h
        · split at h
          · cases h
          · split at h
            · cases h
            · cases h
      · split at h
        · cases h
        · rename_i hok
          split at h
          · cases h
          · split at h
            · cases h
            · split at h
              · cases h
              · split at h
                · cases h
                · rename_i hread
                  exact ⟨by simpa using hok, (Bool.not_eq_true _).mp hread⟩
  obtain ⟨hok, hread⟩ := hok
  cases hsrc : step.before.dmaRead step.cu.shapeRef (step.cu.pitch.toNat * step.cu.height.toNat) with
  | none => simp [hsrc] at hread
  | some src =>
    refine ⟨step.cu.sprite src, by simp [Backend.spriteAt, hsrc], ?_, hok⟩
    have hpitch : step.cu.width.toNat * 4 ≤ step.cu.pitch.toNat := by
      simp only [cursorShapeOk, Bool.and_eq_true, decide_eq_true_eq] at hok
      exact hok.1.2
    exact CursorUpdate.sprite_length hpitch (DmaTable.read_length hsrc)

private theorem receive_shape (s : ViewerScreen) {cu : CursorUpdate} {px : List UInt8}
    (hpx : px.length = cu.width.toNat * cu.height.toNat * 4)
    (hok : cursorShapeOk cu.width cu.height cu.pitch cu.format = true) :
    ∃ shape, pixels shape = (cu.width, cu.height, px) ∧
      s.receive (.send cu.defineHeader px) =
        ⟨s.native.define shape (cu.has CursorFlags.visible),
          some ⟨shape, cu.posX, cu.posY, cu.has CursorFlags.visible⟩⟩ := by
  have hdims : cu.width.toNat ≠ 0 ∧ cu.height.toNat ≠ 0 ∧ cu.width.toNat ≤ 256 ∧ cu.height.toNat ≤ 256 := by
    simp only [cursorShapeOk, Bool.and_eq_true, decide_eq_true_eq] at hok
    obtain ⟨⟨⟨⟨⟨⟨hw, hh⟩, hw256⟩, hh256⟩, -⟩, -⟩, -⟩ := hok
    exact ⟨hw, hh, hw256, hh256⟩
  obtain ⟨hw, hh, hw256, hh256⟩ := hdims
  have hpos : cu.width > 0 ∧ cu.height > 0 := by
    constructor
    · exact UInt16.lt_iff_toNat_lt.2 (Nat.pos_of_ne_zero hw)
    · exact UInt16.lt_iff_toNat_lt.2 (Nat.pos_of_ne_zero hh)
  have htake : px.take (cu.width.toNat * cu.height.toNat * 4) = px := by rw [← hpx, List.take_length]
  refine ⟨⟨px, cu.width, cu.height, cu.hotX, cu.hotY, cu.sidebandFlags &&& Plane.premultiplied != 0⟩, rfl, ?_⟩
  have hnative : s.native.receive (cu.defineHeader.message px) =
      s.native.define ⟨px, cu.width, cu.height, cu.hotX, cu.hotY, cu.sidebandFlags &&& Plane.premultiplied != 0⟩
        (cu.has CursorFlags.visible) := by
    rw [CursorSlot.receive_message _ _ rfl, CursorSlot.onPlane]
    simp [CursorUpdate.defineHeader, hpos, hpx.ge, htake, cu.sideband_visible]
  have hweb : WebCursor.handlePlane s.web (cu.defineHeader.message px) =
      some ⟨⟨px, cu.width, cu.height, cu.hotX, cu.hotY, cu.sidebandFlags &&& Plane.premultiplied != 0⟩, cu.posX,
        cu.posY, cu.has CursorFlags.visible⟩ := by
    have hfit : ¬ (cu.width.toNat = 0 ∨ cu.height.toNat = 0 ∨ cu.width.toNat > 1024 ∨ cu.height.toNat > 1024 ∨
        px.length < cu.width.toNat * cu.height.toNat * 4) := by omega
    simp only [WebCursor.handlePlane, PlaneHeader.parse_message, PlaneHeader.drop_message]
    simp only [CursorUpdate.defineHeader, cu.sideband_visible, if_neg hfit, htake, ne_eq, not_true_eq_false, if_false,
      if_true]
  simp only [receive, hnative, hweb]

/-- One more update. -/
private theorem Follows.snoc (h : Follows env steps s) (step : CursorStep) :
    Follows env (steps ++ [step]) ((step.events env).foldl receive s) := by
  cases hfate : step.fate env with
  | dropped =>
    have hsent : CursorStep.lastSent env (steps ++ [step]) = CursorStep.lastSent env steps := by
      simp [CursorStep.lastSent, hfate]
    have hread : CursorStep.lastRead env (steps ++ [step]) = CursorStep.lastRead env steps := by
      simp [CursorStep.lastRead, hfate]
    have hevents : step.events env = [] := by simp [CursorStep.events, hfate, Backend.cursorEvents]
    rw [hevents]
    exact ⟨hsent ▸ h.visible, hread ▸ h.shape, hread ▸ h.webShape, hsent ▸ h.web⟩
  | move =>
    have hsent : CursorStep.lastSent env (steps ++ [step]) = some step := by
      simp [CursorStep.lastSent, hfate]
    have hread : CursorStep.lastRead env (steps ++ [step]) = CursorStep.lastRead env steps := by
      simp [CursorStep.lastRead, hfate]
    have hevents : step.events env = [.send step.cu.moveHeader []] := by
      simp [CursorStep.events, hfate, Backend.cursorEvents]
    rw [hevents, List.foldl_cons, List.foldl_nil, receive_move]
    refine ⟨by rw [hsent]; rfl, hread ▸ h.shape, ?_, ?_⟩
    · rw [hread, ← h.webShape, Option.map_map]
      rfl
    · intro c hc
      obtain ⟨c₀, -, rfl⟩ := Option.map_eq_some_iff.1 hc
      exact ⟨step, hsent, rfl, rfl, rfl⟩
  | shape =>
    obtain ⟨px, hpx, hlen, hok⟩ := fate_shape hfate
    have hsent : CursorStep.lastSent env (steps ++ [step]) = some step := by
      simp [CursorStep.lastSent, hfate]
    have hread : CursorStep.lastRead env (steps ++ [step]) = some step := by
      simp [CursorStep.lastRead, hfate]
    have hevents : step.events env = [.send step.cu.defineHeader px] := by
      simp [CursorStep.events, hfate, Backend.cursorEvents, hpx]
    obtain ⟨shape, hshape, hrecv⟩ := receive_shape s hlen hok
    have hsprite : step.sprite = some (pixels shape) := by
      rw [CursorStep.sprite, hpx, hshape]
      rfl
    rw [hevents, List.foldl_cons, List.foldl_nil, hrecv]
    refine ⟨by rw [hsent]; rfl, ?_, ?_, ?_⟩
    · rw [hread, Option.bind_some, hsprite]
      rfl
    · rw [hread, Option.bind_some, hsprite]
      rfl
    · rintro c ⟨⟩
      exact ⟨step, hsent, rfl, rfl, rfl⟩

private theorem follows_nil : Follows env [] .default where
  visible := rfl
  shape := rfl
  webShape := rfl
  web c hc := by cases hc

end ViewerScreen

namespace Backend

variable {env : Env}

private theorem updateCursor_keeps {d : Backend} (hadm : d.ticket.isSome) (hpixel : d.pixel.isSome)
    (u : Memory × CursorUpdate) : (d.updateCursor env u).ticket.isSome ∧ (d.updateCursor env u).pixel.isSome := by
  have hquiet : Quiet { d with mem := u.1 } (d.updateCursor env u) := handleCursorUpdate_quiet u.2 _
  have hframes : (d.updateCursor env u).frames.isSome = d.frames.isSome := congrArg Option.isSome hquiet.frames
  rw [frames, frames, Option.isSome_map, Option.isSome_map] at hframes
  exact ⟨hquiet.ticket hadm, hframes.trans hpixel⟩

/-- The viewers follow a run of updates. -/
private theorem follows_run {d : Backend} {steps : List CursorStep} (hadm : d.ticket.isSome) (hpixel : d.pixel.isSome)
    (hfollows : ViewerScreen.Follows env steps (.after d.sideband)) (us : List (Memory × CursorUpdate)) :
    ViewerScreen.Follows env (steps ++ cursorSteps env d us) (.after (us.foldl (updateCursor env) d).sideband) := by
  induction us generalizing d steps with
  | nil => simpa [cursorSteps] using hfollows
  | cons u us ih =>
    obtain ⟨hadm', hpixel'⟩ : (d.updateCursor env u).ticket.isSome ∧ (d.updateCursor env u).pixel.isSome :=
      updateCursor_keeps hadm hpixel u
    have hside : (d.updateCursor env u).sideband =
        d.sideband ++ CursorStep.events env ⟨{ d with mem := u.1 }, u.2⟩ :=
      handleCursorUpdate_sideband (d := { d with mem := u.1 }) hadm hpixel
    have hnext := hfollows.snoc ⟨{ d with mem := u.1 }, u.2⟩
    have hafter :
        (CursorStep.events env ⟨{ d with mem := u.1 }, u.2⟩).foldl ViewerScreen.receive (.after d.sideband) =
        .after (d.updateCursor env u).sideband := by
      rw [hside, ViewerScreen.after, ViewerScreen.after, List.foldl_append]
    rw [hafter] at hnext
    have hrest := ih hadm' hpixel' hnext
    rw [List.append_assoc] at hrest
    exact hrest

/-- A shape that was read has a sprite. -/
private theorem lastRead_sprite {steps : List CursorStep} {f : CursorStep}
    (h : CursorStep.lastRead env steps = some f) :
    f.sprite.isSome := by
  have hmem := List.mem_of_getLast? h
  have hfate : f.fate env = .shape := by simpa using (List.mem_filter.1 hmem).2
  obtain ⟨px, hpx, -⟩ := ViewerScreen.fate_shape hfate
  rw [CursorStep.sprite, hpx]
  rfl

/-- Viewers connected throughout show the last update exactly when

* the last update that was not dropped has its visibility,
* the last shape that was read has the bytes that were in guest memory at the last shape update, and
* a browser that has a cursor at all got its position with the last update that was not dropped.
-/
theorem cursor_converges_iff (env : Env) (d : Backend) (us : List (Memory × CursorUpdate))
    (last : Memory × CursorUpdate) (hadm : d.ticket.isSome) (hpixel : d.pixel.isSome) (hfresh : d.sideband = []) :
    (ViewerScreen.after ((us ++ [last]).foldl (updateCursor env) d).sideband).Shows last.2
      ((CursorStep.lastShape (cursorSteps env d (us ++ [last]))).bind CursorStep.sprite) ↔
    CursorStep.Settled env (cursorSteps env d (us ++ [last])) last.2 := by
  have hstart : ViewerScreen.Follows env [] (.after d.sideband) := by
    rw [hfresh]
    exact ViewerScreen.follows_nil
  have h := follows_run hadm hpixel hstart (us ++ [last])
  rw [List.nil_append] at h
  constructor
  · intro hs
    refine ⟨h.visible.symm.trans hs.visible, fun px hpx => h.shape.symm.trans (hs.shape px hpx), ?_⟩
    intro hread f hf
    obtain ⟨r, hr⟩ := Option.isSome_iff_exists.1 hread
    obtain ⟨px, hpx⟩ := Option.isSome_iff_exists.1 (lastRead_sprite hr)
    have hweb := h.webShape
    rw [hr, Option.bind_some, hpx] at hweb
    obtain ⟨c, hc, -⟩ := Option.map_eq_some_iff.1 hweb
    obtain ⟨f', hf', -, hx, hy⟩ := h.web c hc
    have hsame : f' = f := by
      rw [Option.mem_def] at hf hf'
      exact Option.some_inj.1 (hf'.symm.trans hf)
    obtain ⟨hpx, hpy⟩ := hs.webPosition c hc
    rw [← hsame]
    exact ⟨hx.symm.trans hpx, hy.symm.trans hpy⟩
  · intro hs
    refine ⟨h.visible.trans hs.visible, fun px hpx => h.shape.trans (hs.shape px hpx), ?_,
      fun px hpx => h.webShape.trans (hs.shape px hpx), ?_⟩
    · intro c hc
      obtain ⟨f, hf, hvis, -⟩ := h.web c hc
      have hlast := hs.visible
      rw [Option.mem_def.1 hf] at hlast
      exact hvis.trans hlast
    · intro c hc
      obtain ⟨f, hf, -, hx, hy⟩ := h.web c hc
      have hread : (CursorStep.lastRead env (cursorSteps env d (us ++ [last]))).isSome := by
        cases hr : CursorStep.lastRead env (cursorSteps env d (us ++ [last])) with
        | some r => rfl
        | none =>
          have hweb := h.webShape
          rw [hr, Option.mem_def.1 hc] at hweb
          cases hweb
      obtain ⟨hpx, hpy⟩ := hs.position hread f hf
      exact ⟨hx.trans hpx, hy.trans hpy⟩

/-- A shape can be read and forwarded. -/
def CursorValid (d : Backend) (cu : CursorUpdate) : Prop :=
  cu.isShape = true → cursorShapeOk cu.width cu.height cu.pitch cu.format = true ∧
    cu.has CursorFlags.shapeByResid = false ∧
    (d.dma.resolve cu.shapeRef (cu.pitch.toNat * cu.height.toNat)).isSome = true

def pixelSprite (shapeRef : UInt64) : CursorUpdate :=
  { scanoutId := 0, flags := CursorFlags.visible, posX := 0, posY := 0, hotX := 0, hotY := 0, width := 1, height := 1,
    pitch := 4, format := Format.b8g8r8a8, shapeRef }

/-- An admitted VM with a streamer and eight bytes of guest memory. -/
def cursorDevice : Backend :=
  (ensureAdmitted Env.idle { withBroker .default .new (.new "vm" 1 4096) (fun a => if a < 4 then 1 else 2) with
    dma := DmaTable.new.map 0x1000 8 0
    pixel := some ⟨[], []⟩ }).2

/-- Of two shapes in quick succession the first stays. -/
theorem second_shape_dropped : ¬ ∀ (env : Env) (d : Backend) (us : List (Memory × CursorUpdate))
    (last : Memory × CursorUpdate), d.ticket.isSome → d.pixel.isSome → d.sideband = [] →
    (∀ u ∈ us ++ [last], d.CursorValid u.2) →
    (ViewerScreen.after ((us ++ [last]).foldl (updateCursor env) d).sideband).Shows last.2
      ((CursorStep.lastShape (cursorSteps env d (us ++ [last]))).bind CursorStep.sprite) := by
  intro hall
  have hshows := hall Env.idle cursorDevice [(cursorDevice.mem, pixelSprite 0x1000)]
    (cursorDevice.mem, pixelSprite 0x1004) (by decide +kernel) (by decide +kernel) (by decide +kernel) ?_
  · have hshape := hshows.shape (1, 1, [2, 2, 2, 2]) (by decide +kernel)
    revert hshape
    decide +kernel
  · intro u hu _
    simp only [List.cons_append, List.nil_append, List.mem_cons, List.not_mem_nil, or_false] at hu
    rcases hu with rfl | rfl
    · decide +kernel
    · decide +kernel

/-- A shape and a hide. -/
theorem cursor_converges_iff_hidden :
    ((ViewerScreen.after ([(cursorDevice.mem, pixelSprite 0x1000),
        (cursorDevice.mem, { pixelSprite 0 with flags := 0 })].foldl
      (updateCursor Env.idle) cursorDevice).sideband).Shows { pixelSprite 0 with flags := 0 }
      (some (1, 1, [1, 1, 1, 1]))) :=
  (cursor_converges_iff Env.idle cursorDevice [(cursorDevice.mem, pixelSprite 0x1000)]
    (cursorDevice.mem, { pixelSprite 0 with flags := 0 }) (by decide +kernel) (by decide +kernel)
    (by decide +kernel)).2 ⟨by decide +kernel, by decide +kernel, by decide +kernel⟩

end Backend

end Infinigpu
