import Infinigpu.Lib.Framing
import Infinigpu.Vfio.Messages

/-!
# Serving the device socket (`vfio_user`, `Server`)

The server reads a header, what the command of it has for a body, and answers.  A request that is refused has to be
taken off the socket all the same, or the next header is read from the middle of it.

What the request makes the backend do and what is answered (`Server.dmaMap` and the like) stands apart from how much
of the socket it takes (`Server.handleCommand`).
-/

namespace Infinigpu

namespace Vfio

/-- The bytes on a socket, each with the descriptors that are sent along with it. -/
abbrev Socket (φ : Type*) := List (UInt8 × List φ)

inductive Error where
  | unsupportedCommand (c : Command)
  | streamRead
  | invalidInput
  | unsupportedFeature
  | backend
  | deserializeCapabilities
deriving DecidableEq, Repr

/-- What ends the server. -/
inductive Fault where
  | error (e : Error)
  | panic
deriving DecidableEq, Repr

/-- The device behind the server.  A function that fails may have changed the state. -/
structure ServerBackend (φ σ : Type*) where
  regionRead : UInt32 → UInt64 → (n : Nat) → σ → Option {data : List UInt8 // data.length = n} × σ
  regionWrite : UInt32 → UInt64 → List UInt8 → σ → Bool × σ
  dmaMap : UInt32 → UInt64 → UInt64 → UInt64 → Option φ → σ → Bool × σ
  dmaUnmap : UInt32 → UInt64 → UInt64 → σ → Bool × σ
  reset : σ → Bool × σ
  setIrqs : UInt32 → UInt32 → UInt32 → UInt32 → List φ → σ → Bool × σ

structure IrqInfo where
  index : UInt32
  flags : UInt32
  count : UInt32
deriving DecidableEq, Repr

/-- A region with its areas that may be mapped, each an offset and a size. -/
structure ServerRegion where
  regionInfo : RegionInfo
  sparseAreas : List (UInt64 × UInt64)
deriving DecidableEq, Repr

namespace ServerRegion

def flagCaps : UInt32 := 8
def capSparseMmap : UInt16 := 1

/-- The capability that lists the areas. -/
def capData (r : ServerRegion) : List UInt8 :=
  if r.sparseAreas.isEmpty then
    []
  else
    Bytes.ofValue 2 capSparseMmap.toNat ++ Bytes.ofValue 2 1 ++ Bytes.ofValue 4 0 ++
      Bytes.ofValue 4 r.sparseAreas.length ++ Bytes.ofValue 4 0 ++
      r.sparseAreas.flatMap fun a => Bytes.ofValue 8 a.1.toNat ++ Bytes.ofValue 8 a.2.toNat

end ServerRegion

structure Server (φ σ : Type*) where
  backend : ServerBackend φ σ
  resettable : Bool
  irqs : List IrqInfo
  regions : List ServerRegion
  /-- Whether `serde_json` accepts the capabilities of the client. -/
  acceptsCapabilities : List UInt8 → Bool
  /-- The capabilities of the server, as `serde_json` writes them. -/
  versionData : List UInt8

namespace Server

variable {φ σ : Type*} (srv : Server φ σ)

def deviceFlagsReset : UInt32 := 1
def deviceFlagsPci : UInt32 := 2
def irqSetDataBool : UInt32 := 2

/-! ### Answers -/

/-- How the handling of a request ends. -/
inductive Handled where
  | sent (bytes : List UInt8)
  | failed (e : Error)
  | panicked
deriving DecidableEq, Repr

/-- The header of a reply of `size` bytes. -/
def replyHeader (id : UInt16) (c : Command) (size : Nat) : Header where
  messageId := id
  command := c.toRaw
  messageSize := UInt32.ofNat size
  flags := HeaderFlags.reply
  error := 0

/-- `bytes` are sent if the backend has succeeded. -/
def finished (bytes : List UInt8) (r : Bool × σ) : Handled × σ :=
  (if r.1 then .sent bytes else .failed .backend, r.2)

/-- `CString::from_vec_with_nul` -/
def cString (raw : List UInt8) : Option (List UInt8) :=
  if raw.getLast? = some 0 ∧ 0 ∉ raw.dropLast then some raw.dropLast else none

def version (header : Header) (raw : List UInt8) (s : σ) : Handled × σ :=
  match cString raw with
  | none => (.panicked, s)
  | some data =>
    if srv.acceptsCapabilities data then
      let reply := replyHeader header.messageId .version (Header.size + Version.size + srv.versionData.length + 1)
      (.sent (reply.toBytes ++ Version.toBytes ⟨0, 0⟩ ++ srv.versionData ++ [0]), s)
    else
      (.failed .deserializeCapabilities, s)

def dmaMap (header : Header) (cmd : DmaMap) (fds : List φ) (s : σ) : Handled × σ :=
  if fds.length > 1 then
    (.failed .invalidInput, s)
  else
    finished (replyHeader header.messageId .dmaMap Header.size).toBytes
      (srv.backend.dmaMap cmd.flags cmd.offset cmd.address cmd.size fds.getLast? s)

def dmaUnmap (header : Header) (cmd : DmaUnmap) (s : σ) : Handled × σ :=
  let reply := replyHeader header.messageId .dmaUnmap (Header.size + DmaUnmap.bodySize)
  finished (reply.toBytes ++ cmd.toBytes) (srv.backend.dmaUnmap cmd.flags cmd.address cmd.size s)

def deviceGetInfo (header : Header) (s : σ) : Handled × σ :=
  let reply := replyHeader header.messageId .deviceGetInfo (Header.size + DeviceGetInfo.bodySize)
  let info : DeviceGetInfo :=
    { argsz := UInt32.ofNat DeviceGetInfo.bodySize
      flags := deviceFlagsPci ||| if srv.resettable then deviceFlagsReset else 0
      numRegions := UInt32.ofNat srv.regions.length
      numIrqs := UInt32.ofNat srv.irqs.length }
  (.sent (reply.toBytes ++ info.toBytes), s)

def deviceGetRegionInfo (header : Header) (cmd : RegionInfo) (s : σ) : Handled × σ :=
  match srv.regions[cmd.index.toNat]? with
  | none => (.failed .invalidInput, s)
  | some r =>
    let full := RegionInfo.bodySize + r.capData.length
    let info :=
      if r.capData.isEmpty then
        r.regionInfo
      else
        { r.regionInfo with
          flags := r.regionInfo.flags ||| ServerRegion.flagCaps
          argsz := UInt32.ofNat full
          capOffset := UInt32.ofNat RegionInfo.bodySize }
    -- the capability is sent only to a client that has made room for it
    let caps := if !r.capData.isEmpty && decide (cmd.argsz ≥ UInt32.ofNat full) then r.capData else []
    let reply := replyHeader header.messageId .deviceGetRegionInfo (Header.size + RegionInfo.bodySize + caps.length)
    (.sent (reply.toBytes ++ info.toBytes ++ caps), s)

def getIrqInfo (header : Header) (cmd : GetIrqInfo) (s : σ) : Handled × σ :=
  match srv.irqs[cmd.index.toNat]? with
  | none => (.failed .invalidInput, s)
  | some irq =>
    let reply := replyHeader header.messageId .getIrqInfo (Header.size + GetIrqInfo.bodySize)
    let info : GetIrqInfo :=
      { argsz := UInt32.ofNat GetIrqInfo.bodySize
        flags := irq.flags
        index := irq.index
        count := irq.count }
    (.sent (reply.toBytes ++ info.toBytes), s)

def setIrqs (header : Header) (cmd : SetIrqs) (fds : List φ) (s : σ) : Handled × σ :=
  if cmd.index.toNat ≥ srv.irqs.length then
    (.failed .invalidInput, s)
  else if cmd.flags &&& irqSetDataBool > 0 then
    (.failed .unsupportedFeature, s)
  else
    finished (replyHeader header.messageId .setIrqs Header.size).toBytes
      (srv.backend.setIrqs cmd.index cmd.flags cmd.start cmd.count fds s)

def regionRead (header : Header) (cmd : RegionAccess) (s : σ) : Handled × σ :=
  if cmd.region.toNat ≥ srv.regions.length then
    (.failed .invalidInput, s)
  else
    let r := srv.backend.regionRead cmd.region cmd.offset cmd.count.toNat s
    let reply := replyHeader header.messageId .regionRead (Header.size + RegionAccess.bodySize + cmd.count.toNat)
    match r.1 with
    | some data => (.sent (reply.toBytes ++ cmd.toBytes ++ data.1), r.2)
    | none => (.failed .backend, r.2)

def regionWrite (header : Header) (cmd : RegionAccess) (data : List UInt8) (s : σ) : Handled × σ :=
  let reply := replyHeader header.messageId .regionWrite (Header.size + RegionAccess.bodySize)
  -- a posted write is not answered
  let bytes := if header.flags &&& HeaderFlags.noReply = 0 then reply.toBytes ++ cmd.toBytes else []
  finished bytes (srv.backend.regionWrite cmd.region cmd.offset data s)

def deviceReset (header : Header) (s : σ) : Handled × σ :=
  finished (replyHeader header.messageId .deviceReset Header.size).toBytes (srv.backend.reset s)

/-! ### The socket -/

/-- `read_exact` of `n` bytes; descriptors that come with them are dropped. -/
def readExact (n : Nat) (socket : Socket φ) : Option (List UInt8 × Socket φ) :=
  if n ≤ socket.length then some ((socket.take n).map Prod.fst, socket.drop n) else none

/-- Reads `n` bytes and goes on with them; the socket is empty where they are not all there. -/
def reading (n : Nat) (socket : Socket φ) (s : σ)
    (next : List UInt8 → Socket φ → (Handled × σ) × Socket φ) : (Handled × σ) × Socket φ :=
  match readExact n socket with
  | none => ((.failed .streamRead, s), [])
  | some (bytes, socket) => next bytes socket

/-- A command that is handled, with what is left on the socket. -/
def handleCommand (c : Command) (header : Header) (fds : List φ) (s : σ) (socket : Socket φ) :
    (Handled × σ) × Socket φ :=
  match c with
  | .unknown | .getRegionIoFds | .dmaRead | .dmaWrite | .userDirtyPages =>
    ((.failed (.unsupportedCommand c), s), socket)
  | .version =>
    reading Version.size socket s fun _ socket =>
      if header.messageSize.toNat < Header.size + Version.size then
        ((.panicked, s), socket)
      else
        reading (header.messageSize.toNat - (Header.size + Version.size)) socket s fun raw socket =>
          (srv.version header raw s, socket)
  | .dmaMap =>
    reading DmaMap.bodySize socket s fun body socket => (srv.dmaMap header (.decode body) fds s, socket)
  | .dmaUnmap =>
    reading DmaUnmap.bodySize socket s fun body socket => (srv.dmaUnmap header (.decode body) s, socket)
  | .deviceGetInfo => reading DeviceGetInfo.bodySize socket s fun _ socket => (srv.deviceGetInfo header s, socket)
  | .deviceGetRegionInfo =>
    reading RegionInfo.bodySize socket s fun body socket => (srv.deviceGetRegionInfo header (.decode body) s, socket)
  | .getIrqInfo =>
    reading GetIrqInfo.bodySize socket s fun body socket => (srv.getIrqInfo header (.decode body) s, socket)
  | .setIrqs =>
    reading SetIrqs.bodySize socket s fun body socket =>
      -- the rest of the message is read before anything is refused
      reading (header.messageSize.toNat - (Header.size + SetIrqs.bodySize)) socket s fun _ socket =>
        (srv.setIrqs header (.decode body) fds s, socket)
  | .regionRead =>
    reading RegionAccess.bodySize socket s fun body socket => (srv.regionRead header (.decode body) s, socket)
  | .regionWrite =>
    reading RegionAccess.bodySize socket s fun body socket =>
      let cmd := RegionAccess.decode body
      if cmd.region.toNat ≥ srv.regions.length then
        ((.failed .invalidInput, s), socket)
      else
        reading cmd.count.toNat socket s fun data socket => (srv.regionWrite header cmd data s, socket)
  | .deviceReset => (srv.deviceReset header s, socket)

/-- The header of an error reply. -/
def errorHeader (header : Header) (error : UInt32) : Header where
  messageId := header.messageId
  command := header.command
  messageSize := UInt32.ofNat Header.size
  flags := HeaderFlags.reply ||| HeaderFlags.error
  error

/-- One turn of `run`: a header with at most 16 descriptors is received, and what it asks for is done. -/
def turn (s : σ) (socket : Socket φ) : Except (Fault × σ) (Framing.Turn σ (UInt8 × List φ) UInt8) :=
  let header := Header.decode (zeroFilled Header.size ((socket.take Header.size).map Prod.fst))
  let fds := ((socket.take Header.size).flatMap Prod.snd).take 16
  let socket := socket.drop Header.size
  match Command.serviced header.command with
  | none =>
    match readExact (header.messageSize.toNat - Header.size) socket with
    | none => .error (.error .streamRead, s)
    | some (_, socket) => .ok ⟨s, (errorHeader header EINVAL).toBytes, socket⟩
  | some c =>
    match srv.handleCommand c header fds s socket with
    | ((.sent bytes, s), socket) => .ok ⟨s, bytes, socket⟩
    | ((.failed e, s), socket) =>
      .ok ⟨s, (errorHeader header (if e = .invalidInput then EINVAL else 0)).toBytes, socket⟩
    | ((.panicked, s), _) => .error (.panic, s)

/-- `run`, from when the client has connected until it has closed the connection. -/
def run (s : σ) (socket : Socket φ) : Framing.Served σ UInt8 Fault :=
  Framing.serve srv.turn socket.length s socket

end Server

end Vfio

end Infinigpu
