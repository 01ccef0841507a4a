import Infinigpu.Device.Wire
import Infinigpu.Lib.Lts
import Infinigpu.Lib.Stream
import Infinigpu.Lib.Utf8

/-!
# The replay process (`infinigpu-replay`, `process.rs`)

Requests and responses go over a socket, each response with its length in front.  The client reads at most 4096 bytes
of an error text and nothing of a frame that is too large, and leaves the rest to be parsed as the next response.  So
a run of calls stays in sync exactly if every frame has at most 256 MiB and every error text at most 4096 bytes
(`in_sync_iff`).

A color is the bits of its floats.  What the GPU makes of a request is given with each call; the socket itself does
not fail.
-/

namespace Infinigpu.ReplayProcess

open ByteStream

def TAG_CLEAR : UInt8 := 1
def TAG_TRIANGLE : UInt8 := 2
def STATUS_OK : UInt8 := 0
def STATUS_ERR : UInt8 := 1

inductive RenderRequest where
  | clear (width height : UInt32) (rgba : Rgba)
  | triangle (width height : UInt32) (bg : Rgba)
deriving DecidableEq, Repr

structure Frame where
  width : UInt32
  height : UInt32
  rgba : List UInt8
deriving DecidableEq, Repr

/-- What a request comes to: a frame, or the text of an error. -/
abbrev RenderResult := Except String Frame

/-! ### Requests -/

def writeColor (c : Rgba) : List UInt8 := writeU32 c.r ++ (writeU32 c.g ++ (writeU32 c.b ++ writeU32 c.a))

def readColor (bs : List UInt8) : Option (Rgba × List UInt8) := do
  let (r, bs) ← readU32 bs
  let (g, bs) ← readU32 bs
  let (b, bs) ← readU32 bs
  let (a, bs) ← readU32 bs
  some ({ r, g, b, a }, bs)

namespace RenderRequest

def writeTo : RenderRequest → List UInt8
  | .clear width height rgba => TAG_CLEAR :: (writeU32 width ++ (writeU32 height ++ writeColor rgba))
  | .triangle width height bg => TAG_TRIANGLE :: (writeU32 width ++ (writeU32 height ++ writeColor bg))

/-- The next request; `none` if it is not complete, or has a bad tag. -/
def readFrom (bs : List UInt8) : Option (RenderRequest × List UInt8) := do
  let (tag, bs) ← readExact 1 bs
  let (width, bs) ← readU32 bs
  let (height, bs) ← readU32 bs
  let (color, bs) ← readColor bs
  if tag = [TAG_CLEAR] then some (.clear width height color, bs)
  else if tag = [TAG_TRIANGLE] then some (.triangle width height color, bs)
  else none

end RenderRequest

private theorem readColor_append (c : Rgba) (bs : List UInt8) : readColor (writeColor c ++ bs) = some (c, bs) := by
  unfold readColor writeColor
  simp only [List.append_assoc, readU32_append, Option.bind_eq_bind, Option.bind_some]

/-- The server reads what the client wrote. -/
private theorem readFrom_append (req : RenderRequest) (bs : List UInt8) :
    RenderRequest.readFrom (req.writeTo ++ bs) = some (req, bs) := by
  unfold RenderRequest.readFrom
  cases req with
  | clear width height rgba =>
    simp only [RenderRequest.writeTo, List.cons_append, List.append_assoc, readExact_one, readU32_append,
      readColor_append, Option.bind_eq_bind, Option.bind_some]
    exact if_pos trivial
  | triangle width height bg =>
    simp only [RenderRequest.writeTo, List.cons_append, List.append_assoc, readExact_one, readU32_append,
      readColor_append, Option.bind_eq_bind, Option.bind_some]
    exact (if_neg (by decide)).trans (if_pos trivial)

/-! ### Responses -/

def asBytes (msg : String) : List UInt8 := Utf8.encode msg.toList

def fromUtf8Lossy (bs : List UInt8) : String := String.ofList (Utf8.lossy bs)

private theorem fromUtf8Lossy_asBytes (msg : String) : fromUtf8Lossy (asBytes msg) = msg := by
  unfold fromUtf8Lossy asBytes
  rw [Utf8.lossy_encode, String.ofList_toList]

def writeFrame (frame : Frame) : List UInt8 :=
  STATUS_OK :: (writeU32 frame.width ++ (writeU32 frame.height ++
    (writeU32 (UInt32.ofNat frame.rgba.length) ++ frame.rgba)))

def writeError (msg : String) : List UInt8 :=
  STATUS_ERR :: (writeU32 (UInt32.ofNat (asBytes msg).length) ++ asBytes msg)

def writeResponse : RenderResult → List UInt8
  | .ok frame => writeFrame frame
  | .error msg => writeError msg

/-- The largest frame that is read, and the most of an error text. -/
def maxFrame : Nat := 256 * 1024 * 1024
def maxError : Nat := 4096

/-- What is read of a response and what is left; `none` if it is not complete. -/
def readResponse (bs : List UInt8) : Option (RenderResult × List UInt8) := do
  let (status, bs) ← readExact 1 bs
  if status = [STATUS_OK] then
    let (width, bs) ← readU32 bs
    let (height, bs) ← readU32 bs
    let (len, bs) ← readU32 bs
    if len.toNat > maxFrame then
      some (.error "replay response frame too large", bs)
    else
      let (rgba, bs) ← readExact len.toNat bs
      some (.ok { width, height, rgba }, bs)
  else
    let (len, bs) ← readU32 bs
    let (msg, bs) ← readExact (min len.toNat maxError) bs
    some (.error ("replay error: " ++ fromUtf8Lossy msg), bs)

/-! ### Reading a response -/

private theorem toNat_ofNat_length_le (n : Nat) : (UInt32.ofNat n).toNat ≤ n := by
  rw [UInt32.toNat_ofNat']
  exact Nat.mod_le _ _

private theorem readResponse_writeFrame (frame : Frame) : readResponse (writeFrame frame) =
    let len := (UInt32.ofNat frame.rgba.length).toNat
    if len > maxFrame then
      some (.error "replay response frame too large", frame.rgba)
    else
      some (.ok { frame with rgba := frame.rgba.take len }, frame.rgba.drop len) := by
  have hlen := toNat_ofNat_length_le frame.rgba.length
  unfold readResponse writeFrame
  simp only [readExact_one, readU32_append, Option.bind_eq_bind, Option.bind_some, if_true, readExact_of_le hlen]

private theorem readResponse_writeError (msg : String) : readResponse (writeError msg) =
    let len := min (UInt32.ofNat (asBytes msg).length).toNat maxError
    some (.error ("replay error: " ++ fromUtf8Lossy ((asBytes msg).take len)), (asBytes msg).drop len) := by
  have hlen := (Nat.min_le_left _ maxError).trans (toNat_ofNat_length_le (asBytes msg).length)
  have hstatus : [STATUS_ERR] ≠ [STATUS_OK] := by decide
  unfold readResponse writeError
  simp only [readExact_one, readU32_append, Option.bind_eq_bind, Option.bind_some, if_neg hstatus,
    readExact_of_le hlen]

/-- What `render` should return. -/
def reported (result : RenderResult) : RenderResult := result.mapError ("replay error: " ++ ·)

/-- The response is not too large for the client. -/
def Fits : RenderResult → Prop
  | .ok frame => frame.rgba.length ≤ maxFrame
  | .error msg => (asBytes msg).length ≤ maxError

/-- A response is always answered at once, and read whole and as it was meant exactly if it fits. -/
private theorem readResponse_writeResponse (result : RenderResult) : ∃ returned unread,
    readResponse (writeResponse result) = some (returned, unread) ∧
      (returned = reported result ∧ unread = [] ↔ Fits result) := by
  cases result with
  | ok frame =>
    have hle := toNat_ofNat_length_le frame.rgba.length
    unfold writeResponse
    rw [readResponse_writeFrame]
    simp only
    by_cases hlarge : (UInt32.ofNat frame.rgba.length).toNat > maxFrame
    · rw [if_pos hlarge]
      refine ⟨_, _, rfl, iff_of_false (fun h => ?_) fun h => ?_⟩
      · cases h.1
      · unfold Fits at h
        omega
    · rw [if_neg hlarge]
      refine ⟨_, _, rfl, ?_⟩
      rw [List.drop_eq_nil_iff]
      constructor
      · rintro ⟨-, hall⟩
        unfold Fits
        omega
      · intro h
        have hlen : (UInt32.ofNat frame.rgba.length).toNat = frame.rgba.length := by
          unfold Fits maxFrame at h
          rw [UInt32.toNat_ofNat']
          exact Nat.mod_eq_of_lt (by omega)
        rw [hlen, List.take_length]
        exact ⟨rfl, Nat.le_refl _⟩
  | error msg =>
    have hle := toNat_ofNat_length_le (asBytes msg).length
    unfold writeResponse
    rw [readResponse_writeError]
    refine ⟨_, _, rfl, ?_⟩
    rw [List.drop_eq_nil_iff]
    constructor
    · rintro ⟨-, hall⟩
      unfold Fits
      omega
    · intro h
      have hlen : min (UInt32.ofNat (asBytes msg).length).toNat maxError = (asBytes msg).length := by
        unfold Fits maxError at h
        rw [UInt32.toNat_ofNat', Nat.mod_eq_of_lt (by omega)]
        exact Nat.min_eq_left h
      rw [hlen, List.take_length, fromUtf8Lossy_asBytes]
      exact ⟨rfl, Nat.le_refl _⟩

/-! ### Calls -/

/-- The bytes on their way in both directions, what has been asked, rendered and returned, and whether the last call
is still waiting for its response. -/
structure Connection where
  toServer : List UInt8
  toClient : List UInt8
  asked : List RenderRequest
  served : List (RenderRequest × RenderResult)
  returned : List RenderResult
  waiting : Bool

namespace Connection

def spawn : Connection where
  toServer := []
  toClient := []
  asked := []
  served := []
  returned := []
  waiting := false

/-- One turn of the loop of `handle_conn`, where the GPU comes to `result`. -/
def handleConn (result : RenderResult) (s : Connection) : Connection :=
  match RenderRequest.readFrom s.toServer with
  | none => s
  | some (req, rest) =>
    { s with
      toServer := rest
      toClient := s.toClient ++ writeResponse result
      served := s.served ++ [(req, result)] }

/-- A call of `render`; after one that waits forever there is none. -/
def render (req : RenderRequest) (result : RenderResult) (s : Connection) : Connection :=
  if s.waiting then
    s
  else
    let s := { s with toServer := s.toServer ++ req.writeTo, asked := s.asked ++ [req] }
    let s := s.handleConn result
    match readResponse s.toClient with
    | none => { s with waiting := true }
    | some (returned, rest) => { s with toClient := rest, returned := s.returned ++ [returned] }

def step (s : Connection) (c : RenderRequest × RenderResult) : Option Connection := some (s.render c.1 c.2)

/-- Every request was served as it was asked and has returned what it came to, and no bytes are left unread. -/
structure InSync (s : Connection) : Prop where
  served : s.served.map (·.1) = s.asked
  returned : s.returned = s.served.map fun c => reported c.2
  toServer : s.toServer = []
  toClient : s.toClient = []

variable {s s' : Connection} {req : RenderRequest} {result : RenderResult}

private theorem inSync_spawn : spawn.InSync := ⟨rfl, rfl, rfl, rfl⟩

/-- A call on a connection in sync returns, and leaves it in sync exactly if its response fits. -/
theorem InSync.render (h : s.InSync) (hw : s.waiting = false) (req : RenderRequest) (result : RenderResult) :
    (s.render req result).waiting = false ∧ ((s.render req result).InSync ↔ Fits result) := by
  obtain ⟨returned, unread, hread, hfits⟩ := readResponse_writeResponse result
  have hserver : RenderRequest.readFrom (s.toServer ++ req.writeTo) = some (req, []) := by
    rw [h.toServer, List.nil_append, ← readFrom_append req [], List.append_nil]
  have hclient : readResponse (s.toClient ++ writeResponse result) = some (returned, unread) := by
    rw [h.toClient, List.nil_append, hread]
  have hrender : s.render req result = { s with
      toServer := []
      toClient := unread
      asked := s.asked ++ [req]
      served := s.served ++ [(req, result)]
      returned := s.returned ++ [returned] } := by
    unfold Connection.render handleConn
    simp only [hw, Bool.false_eq_true, if_false, hserver, hclient]
  rw [hrender]
  refine ⟨hw, ?_⟩
  rw [← hfits]
  constructor
  · intro h'
    refine ⟨?_, h'.toClient⟩
    have hreturned : s.returned ++ [returned] = (s.served ++ [(req, result)]).map fun c => reported c.2 := h'.returned
    rw [List.map_append, ← h.returned] at hreturned
    exact List.head_eq_of_cons_eq (List.append_cancel_left hreturned)
  · rintro ⟨hreturned, hunread⟩
    refine ⟨?_, ?_, rfl, hunread⟩
    · show (s.served ++ [(req, result)]).map (·.1) = s.asked ++ [req]
      rw [List.map_append, h.served]
      rfl
    · show s.returned ++ [returned] = (s.served ++ [(req, result)]).map fun c => reported c.2
      rw [List.map_append, ← h.returned, hreturned]
      rfl

/-- A run of calls stays in sync exactly if no frame and no error text is too large. -/
theorem in_sync_iff (calls : List (RenderRequest × RenderResult)) :
    Lts.Always step InSync spawn calls ↔ ∀ c ∈ calls, Fits c.2 := by
  have halong : Lts.Along step (fun _ c => Fits c.2) spawn calls ↔ ∀ c ∈ calls, Fits c.2 :=
    Lts.along_iff_forall fun _ _ => rfl
  rw [← halong]
  refine Lts.always_iff_along_total (A := fun _ => True) (I := fun s => s.waiting = false) (fun _ _ => rfl) ?_ ?_ rfl
    inSync_spawn fun _ _ => trivial
  · intro s c s' _ hw h _ hs
    cases hs
    exact (h.render hw c.1 c.2).1
  · intro s c s' _ hw h hs
    cases hs
    exact (h.render hw c.1 c.2).2

/-- A request, and an error text of one byte more than is read. -/
def longError : RenderRequest × RenderResult where
  fst := .clear 64 64 { r := 0, g := 0, b := 0, a := 0 }
  snd := .error (String.ofList (List.replicate 4097 (Char.ofNat 120)))

/-- One byte of the text is left to be parsed as the next response. -/
theorem not_always_in_sync : ¬ ∀ calls, Lts.Always step InSync spawn calls := by
  intro h
  obtain ⟨-, hrun⟩ := h [longError]
  have hfits := (inSync_spawn.render rfl longError.1 longError.2).2.1 (hrun _ rfl)
  have hlen : (asBytes (String.ofList (List.replicate 4097 (Char.ofNat 120)))).length = 4097 := by
    unfold asBytes Utf8.encode
    rw [String.toList_ofList, List.length_flatMap, List.map_replicate, List.sum_replicate_nat]
    rfl
  unfold Fits longError maxError at hfits
  simp only [hlen] at hfits
  omega

end Connection

end Infinigpu.ReplayProcess
