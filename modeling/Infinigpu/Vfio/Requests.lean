import Infinigpu.Vfio.Endpoint

/-!
# Requests over the device socket (`vfio_user`, `Server::run`)

* `Server.turn_request`: a turn does what the request at the front of the socket asks for and takes it off the socket,
  but for the data of a write to a region that does not exist;
* `Server.run_requests`: over requests without such a write each is handled once, in order, and answered once, with
  its number and its command, unless it is a write that asks for no reply.
-/

namespace Infinigpu

namespace Vfio

/-- What a request asks for, with all of its body. -/
inductive Body where
  /-- The capabilities, without the zero byte behind them. -/
  | version (cmd : Version) (data : List UInt8)
  | dmaMap (cmd : DmaMap)
  | dmaUnmap (cmd : DmaUnmap)
  | deviceGetInfo (cmd : DeviceGetInfo)
  | deviceGetRegionInfo (cmd : RegionInfo)
  | getIrqInfo (cmd : GetIrqInfo)
  /-- What follows the fixed part is one byte for each interrupt, or nothing. -/
  | setIrqs (cmd : SetIrqs) (trailing : List UInt8)
  | regionRead (cmd : RegionAccess)
  | regionWrite (offset : UInt64) (region : UInt32) (data : List UInt8)
  | deviceReset
  /-- A command that is not handled. -/
  | other (raw : UInt16) (body : List UInt8)

namespace Body

def raw : Body → UInt16
  | version _ _ => Command.version.toRaw
  | dmaMap _ => Command.dmaMap.toRaw
  | dmaUnmap _ => Command.dmaUnmap.toRaw
  | deviceGetInfo _ => Command.deviceGetInfo.toRaw
  | deviceGetRegionInfo _ => Command.deviceGetRegionInfo.toRaw
  | getIrqInfo _ => Command.getIrqInfo.toRaw
  | setIrqs _ _ => Command.setIrqs.toRaw
  | regionRead _ => Command.regionRead.toRaw
  | regionWrite _ _ _ => Command.regionWrite.toRaw
  | deviceReset => Command.deviceReset.toRaw
  | other raw _ => raw

/-- The fixed part of a write. -/
def writeAccess (offset : UInt64) (region : UInt32) (data : List UInt8) : RegionAccess where
  offset
  region
  count := UInt32.ofNat data.length

def toBytes : Body → List UInt8
  | version cmd data => cmd.toBytes ++ (data ++ [0])
  | dmaMap cmd => cmd.toBytes
  | dmaUnmap cmd => cmd.toBytes
  | deviceGetInfo cmd => cmd.toBytes
  | deviceGetRegionInfo cmd => cmd.toBytes
  | getIrqInfo cmd => cmd.toBytes
  | setIrqs cmd trailing => cmd.toBytes ++ trailing
  | regionRead cmd => cmd.toBytes
  | regionWrite offset region data => (writeAccess offset region data).toBytes ++ data
  | deviceReset => []
  | other _ body => body

end Body

/-- Bytes without descriptors. -/
def plain {φ : Type*} (bs : List UInt8) : Socket φ := bs.map fun b => (b, [])

/-- Bytes with the descriptors attached to the first one. -/
def attach {φ : Type*} (fds : List φ) : List UInt8 → Socket φ
  | [] => []
  | b :: bs => (b, fds) :: plain bs

/-- A request as a client sends it. -/
structure Request (φ : Type*) where
  id : UInt16
  flags : UInt32
  error : UInt32
  fds : List φ
  body : Body

namespace Request

variable {φ : Type*}

def header (r : Request φ) : Header where
  messageId := r.id
  command := r.body.raw
  messageSize := UInt32.ofNat (Header.size + r.body.toBytes.length)
  flags := r.flags
  error := r.error

/-- What the client puts on the socket. -/
def wire (r : Request φ) : Socket φ := attach r.fds (r.header.toBytes ++ r.body.toBytes)

/-- The request and what it asks to read fit into messages, its text has no zero byte, and a command that is not
handled is none of the others. -/
structure WellFormed (r : Request φ) : Prop where
  size : Header.size + r.body.toBytes.length < 2 ^ 32
  fds : r.fds.length ≤ 16
  text : ∀ cmd data, r.body = .version cmd data → 0 ∉ data
  read : ∀ cmd, r.body = .regionRead cmd → Header.size + RegionAccess.bodySize + cmd.count.toNat < 2 ^ 32
  other : ∀ raw body, r.body = .other raw body → Command.serviced raw = none

/-- A write that no reply is wanted for. -/
def Posted (r : Request φ) : Prop :=
  r.body.raw = Command.regionWrite.toRaw ∧ r.flags &&& HeaderFlags.noReply ≠ 0

/-- The reply says which request it is for, that it is a reply, and how long it is. -/
def Answered (r : Request φ) (reply : List UInt8) : Prop :=
  (reply = [] ∧ r.Posted) ∨
    ∃ h : Header, reply.take Header.size = h.toBytes ∧ h.messageId = r.id ∧ h.command = r.body.raw ∧
      h.flags &&& HeaderFlags.reply ≠ 0 ∧ h.messageSize.toNat = reply.length

end Request

namespace Server

variable {φ σ : Type*} (srv : Server φ σ)

/-- What a request makes the server do. -/
def answer (s : σ) (r : Request φ) : Handled × σ :=
  match r.body with
  | .version _ data => srv.version r.header (data ++ [0]) s
  | .dmaMap cmd => srv.dmaMap r.header cmd r.fds s
  | .dmaUnmap cmd => srv.dmaUnmap r.header cmd s
  | .deviceGetInfo _ => srv.deviceGetInfo r.header s
  | .deviceGetRegionInfo cmd => srv.deviceGetRegionInfo r.header cmd s
  | .getIrqInfo cmd => srv.getIrqInfo r.header cmd s
  | .setIrqs cmd _ => srv.setIrqs r.header cmd r.fds s
  | .regionRead cmd => srv.regionRead r.header cmd s
  | .regionWrite offset region data =>
    if region.toNat ≥ srv.regions.length then (.failed .invalidInput, s)
    else srv.regionWrite r.header (Body.writeAccess offset region data) data s
  | .deviceReset => srv.deviceReset r.header s
  | .other _ _ => (.failed .invalidInput, s)

/-- The reply that is sent. -/
def Handled.reply (header : Header) : Handled → List UInt8
  | .sent bytes => bytes
  | .failed e => (errorHeader header (if e = .invalidInput then EINVAL else 0)).toBytes
  | .panicked => []

def handle (s : σ) (r : Request φ) : σ × List UInt8 := ((srv.answer s r).2, (srv.answer s r).1.reply r.header)

/-- What is left of a request on the socket: the data of a write to a region that does not exist. -/
def left (r : Request φ) : List UInt8 :=
  match r.body with
  | .regionWrite _ region data => if region.toNat ≥ srv.regions.length then data else []
  | _ => []

/-- The replies of a size that the server settles fit into messages. -/
structure Sized (srv : Server φ σ) : Prop where
  version : Header.size + Version.size + srv.versionData.length + 1 < 2 ^ 32
  regions : ∀ r ∈ srv.regions, Header.size + RegionInfo.bodySize + r.capData.length < 2 ^ 32

end Server

/-- The server of the device keeps to the size of messages. -/
theorem Endpoint.server_sized (env : Env) (acceptsCapabilities : List UInt8 → Bool) {versionData : List UInt8}
    (h : Header.size + Version.size + versionData.length + 1 < 2 ^ 32) :
    (Endpoint.server env acceptsCapabilities versionData).Sized where
  version := h
  regions r hr := by
    obtain ⟨i, -, rfl⟩ := List.mem_map.1 hr
    show Header.size + RegionInfo.bodySize + ([] : List UInt8).length < 2 ^ 32
    decide

namespace Server

variable {φ σ : Type*} {srv : Server φ σ} {r : Request φ} {s : σ}

/-! ### Reading -/

private theorem readExact_plain (bs : List UInt8) (rest : Socket φ) :
    readExact bs.length (plain bs ++ rest) = some (bs, rest) := by
  have hlen : (plain bs : Socket φ).length = bs.length := List.length_map _
  have hbytes : (plain bs : Socket φ).map Prod.fst = bs := by simp [plain, Function.comp_def]
  rw [readExact, if_pos (by rw [List.length_append, hlen]; omega), ← hlen, List.take_left, List.drop_left, hbytes]

private theorem reading_plain {n : Nat} {bs : List UInt8} (hn : bs.length = n) (rest : Socket φ) (s : σ)
    (next : List UInt8 → Socket φ → (Handled × σ) × Socket φ) :
    reading n (plain bs ++ rest) s next = next bs rest := by
  subst hn
  rw [reading, readExact_plain]

private theorem plain_append (bs cs : List UInt8) : (plain (bs ++ cs) : Socket φ) = plain bs ++ plain cs :=
  List.map_append

private theorem attach_append {bs : List UInt8} (hbs : bs ≠ []) (fds : List φ) (cs : List UInt8) :
    attach fds (bs ++ cs) = attach fds bs ++ plain cs := by
  cases bs with
  | nil => exact absurd rfl hbs
  | cons b bs => rw [List.cons_append, attach, attach, plain_append, List.cons_append]

private theorem attach_length (fds : List φ) (bs : List UInt8) : (attach fds bs).length = bs.length := by
  cases bs with
  | nil => rfl
  | cons b bs => rw [attach, List.length_cons, List.length_cons, plain, List.length_map]

private theorem attach_bytes (fds : List φ) (bs : List UInt8) : (attach fds bs).map Prod.fst = bs := by
  cases bs with
  | nil => rfl
  | cons b bs => simp [attach, plain, Function.comp_def]

private theorem attach_fds {bs : List UInt8} (hbs : bs ≠ []) (fds : List φ) :
    (attach fds bs).flatMap Prod.snd = fds := by
  cases bs with
  | nil => exact absurd rfl hbs
  | cons b bs => simp [attach, plain, List.flatMap_map]

/-- The text of a request without zero bytes is read to its end. -/
theorem cString_append {data : List UInt8} (h : 0 ∉ data) : cString (data ++ [0]) = some data := by
  rw [cString, List.getLast?_append, List.dropLast_concat, if_pos ⟨rfl, h⟩]

/-- The header and the descriptors are those of the request. -/
private theorem turn_wire (h : r.fds.length ≤ 16) (s : σ) (rest : Socket φ) :
    srv.turn s (r.wire ++ rest) =
      match Command.serviced r.body.raw with
      | none =>
        match readExact (r.header.messageSize.toNat - Header.size) (plain r.body.toBytes ++ rest) with
        | none => .error (.error .streamRead, s)
        | some (_, socket) => .ok ⟨s, (errorHeader r.header EINVAL).toBytes, socket⟩
      | some c =>
        match srv.handleCommand c r.header r.fds s (plain r.body.toBytes ++ rest) with
        | ((.panicked, s), _) => .error (.panic, s)
        | ((handled, s), socket) => .ok ⟨s, handled.reply r.header, socket⟩ := by
  have hne : r.header.toBytes ≠ [] := List.ne_nil_of_length_pos (by rw [Header.toBytes_length]; decide)
  have hlen : (attach r.fds r.header.toBytes).length = Header.size := attach_length _ _
  have hwire : r.wire ++ rest = attach r.fds r.header.toBytes ++ (plain r.body.toBytes ++ rest) := by
    rw [Request.wire, attach_append hne, List.append_assoc]
  have hheader : Header.decode (zeroFilled Header.size r.header.toBytes) = r.header := by
    rw [zeroFilled, Header.toBytes_length, Nat.sub_self, List.replicate_zero, List.append_nil, Header.decode_toBytes]
  have hcommand : r.header.command = r.body.raw := rfl
  rw [turn, hwire, ← hlen, List.take_left, List.drop_left, attach_bytes, attach_fds hne, hlen, hheader,
    List.take_of_length_le h, hcommand]
  cases Command.serviced r.body.raw with
  | none => rfl
  | some c =>
    simp only
    rcases srv.handleCommand c r.header r.fds s (plain r.body.toBytes ++ rest) with ⟨⟨handled, s'⟩, socket⟩
    cases handled <;> rfl

/-- A request that is handled is taken off the socket, but for what is left of it. -/
private theorem handleCommand_request (h : r.WellFormed) {c : Command}
    (hc : Command.serviced r.body.raw = some c) (s : σ) (rest : Socket φ) :
    srv.handleCommand c r.header r.fds s (plain r.body.toBytes ++ rest) =
      (srv.answer s r, plain (srv.left r) ++ rest) := by
  have hsize : r.header.messageSize.toNat = Header.size + r.body.toBytes.length := UInt32.toNat_ofNat_of_lt' h.size
  cases hbody : r.body with
  | version cmd data =>
    rw [hbody] at hc hsize
    obtain rfl := Option.some.inj hc
    have hlen : r.header.messageSize.toNat = Header.size + Version.size + (data ++ [0]).length := by
      rw [hsize, Body.toBytes, List.length_append, Version.toBytes_length]
      omega
    simp only [answer, left, hbody, handleCommand, Body.toBytes, plain_append cmd.toBytes, List.append_assoc]
    rw [reading_plain cmd.toBytes_length, if_neg (by omega), reading_plain (by omega)]
    rfl
  | dmaMap cmd =>
    rw [hbody] at hc
    obtain rfl := Option.some.inj hc
    simp only [answer, left, hbody, handleCommand, Body.toBytes]
    rw [reading_plain cmd.toBytes_length, DmaMap.decode_toBytes]
    rfl
  | dmaUnmap cmd =>
    rw [hbody] at hc
    obtain rfl := Option.some.inj hc
    simp only [answer, left, hbody, handleCommand, Body.toBytes]
    rw [reading_plain cmd.toBytes_length, DmaUnmap.decode_toBytes]
    rfl
  | deviceGetInfo cmd =>
    rw [hbody] at hc
    obtain rfl := Option.some.inj hc
    simp only [answer, left, hbody, handleCommand, Body.toBytes]
    rw [reading_plain cmd.toBytes_length]
    rfl
  | deviceGetRegionInfo cmd =>
    rw [hbody] at hc
    obtain rfl := Option.some.inj hc
    simp only [answer, left, hbody, handleCommand, Body.toBytes]
    rw [reading_plain cmd.toBytes_length, RegionInfo.decode_toBytes]
    rfl
  | getIrqInfo cmd =>
    rw [hbody] at hc
    obtain rfl := Option.some.inj hc
    simp only [answer, left, hbody, handleCommand, Body.toBytes]
    rw [reading_plain cmd.toBytes_length, GetIrqInfo.decode_toBytes]
    rfl
  | setIrqs cmd trailing =>
    rw [hbody] at hc hsize
    obtain rfl := Option.some.inj hc
    have hlen : trailing.length = r.header.messageSize.toNat - (Header.size + SetIrqs.bodySize) := by
      rw [hsize, Body.toBytes, List.length_append, SetIrqs.toBytes_length]
      omega
    simp only [answer, left, hbody, handleCommand, Body.toBytes, plain_append, List.append_assoc]
    rw [reading_plain cmd.toBytes_length, reading_plain hlen, SetIrqs.decode_toBytes]
    rfl
  | regionRead cmd =>
    rw [hbody] at hc
    obtain rfl := Option.some.inj hc
    simp only [answer, left, hbody, handleCommand, Body.toBytes]
    rw [reading_plain cmd.toBytes_length, RegionAccess.decode_toBytes]
    rfl
  | regionWrite offset region data =>
    have hlen := h.size
    rw [hbody] at hc hlen
    obtain rfl := Option.some.inj hc
    have hcount : (Body.writeAccess offset region data).count.toNat = data.length := by
      rw [Body.toBytes, List.length_append] at hlen
      have hlt : data.length < 2 ^ 32 := by omega
      exact UInt32.toNat_ofNat_of_lt' hlt
    have hreg : (Body.writeAccess offset region data).region = region := rfl
    simp only [answer, left, hbody, handleCommand, Body.toBytes, plain_append, List.append_assoc]
    rw [reading_plain (RegionAccess.toBytes_length _), RegionAccess.decode_toBytes, hreg]
    by_cases hregion : region.toNat ≥ srv.regions.length
    · simp only [if_pos hregion]
    · simp only [if_neg hregion]
      rw [reading_plain hcount.symm]
      rfl
  | deviceReset =>
    rw [hbody] at hc
    obtain rfl := Option.some.inj hc
    simp only [answer, left, hbody, handleCommand, Body.toBytes]
  | other raw body =>
    rw [hbody, Body.raw, h.other raw body hbody] at hc
    cases hc

private theorem finished_ne_panicked (bytes : List UInt8) (r : Bool × σ) : (finished bytes r).1 ≠ .panicked := by
  unfold finished
  split <;> simp

/-- Nothing panics over a well-formed request. -/
private theorem answer_ne_panicked (srv : Server φ σ) (h : r.WellFormed) (s : σ) :
    (srv.answer s r).1 ≠ .panicked := by
  cases hbody : r.body with
  | version cmd data =>
    simp only [answer, hbody, version, cString_append (h.text cmd data hbody)]
    split <;> simp
  | dmaMap cmd =>
    simp only [answer, hbody, dmaMap]
    split
    · simp
    · exact finished_ne_panicked _ _
  | dmaUnmap cmd =>
    simp only [answer, hbody]
    exact finished_ne_panicked _ _
  | deviceGetInfo cmd => simp [answer, hbody, deviceGetInfo]
  | deviceGetRegionInfo cmd =>
    simp only [answer, hbody, deviceGetRegionInfo]
    split <;> simp
  | getIrqInfo cmd =>
    simp only [answer, hbody, getIrqInfo]
    split <;> simp
  | setIrqs cmd trailing =>
    simp only [answer, hbody, setIrqs]
    split
    · simp
    · split
      · simp
      · exact finished_ne_panicked _ _
  | regionRead cmd =>
    simp only [answer, hbody, regionRead]
    split
    · simp
    · split <;> simp
  | regionWrite offset region data =>
    simp only [answer, hbody]
    split
    · simp
    · exact finished_ne_panicked _ _
  | deviceReset =>
    simp only [answer, hbody]
    exact finished_ne_panicked _ _
  | other raw body => simp [answer, hbody]

/-- A turn does what the request at the front of the socket asks for. -/
theorem turn_request (h : r.WellFormed) (s : σ) (rest : Socket φ) :
    srv.turn s (r.wire ++ rest) = .ok ⟨(srv.handle s r).1, (srv.handle s r).2, plain (srv.left r) ++ rest⟩ := by
  rw [turn_wire h.fds]
  cases hc : Command.serviced r.body.raw with
  | none =>
    obtain ⟨raw, body, hbody⟩ : ∃ raw body, r.body = .other raw body := by
      cases hbody : r.body with
      | other raw body => exact ⟨raw, body, rfl⟩
      | _ =>
        rw [hbody] at hc
        cases hc
    have hsize : r.header.messageSize.toNat - Header.size = body.length := by
      have hlt := h.size
      rw [Request.header, UInt32.toNat_ofNat_of_lt' hlt, Nat.add_sub_cancel_left, hbody, Body.toBytes]
    simp only [hsize, handle, answer, left, hbody, Body.toBytes, readExact_plain]
    rfl
  | some c =>
    have hanswer := answer_ne_panicked srv h s
    simp only [handleCommand_request h hc, handle]

/-! ### Replies -/

private theorem answered_error (r : Request φ) (e : Error) : r.Answered (Handled.reply r.header (.failed e)) := by
  refine .inr ⟨_, List.take_of_length_le (Nat.le_refl Header.size), rfl, rfl, ?_, rfl⟩
  show (HeaderFlags.reply ||| HeaderFlags.error) &&& HeaderFlags.reply ≠ 0
  decide

private theorem answered_sent {c : Command} (hc : c.toRaw = r.body.raw) (size : Nat) (body : List UInt8)
    (hlen : Header.size + body.length = size) (hsize : size < 2 ^ 32) :
    r.Answered ((replyHeader r.header.messageId c size).toBytes ++ body) := by
  have htake : ((replyHeader r.header.messageId c size).toBytes ++ body).take Header.size =
      (replyHeader r.header.messageId c size).toBytes := by
    rw [← Header.toBytes_length (replyHeader r.header.messageId c size), List.take_left]
  have hflags : HeaderFlags.reply &&& HeaderFlags.reply ≠ 0 := by decide
  refine .inr ⟨replyHeader r.header.messageId c size, htake, rfl, hc, hflags, ?_⟩
  rw [List.length_append, Header.toBytes_length, hlen]
  exact UInt32.toNat_ofNat_of_lt' hsize

/-- A reply that is the header alone. -/
private theorem answered_header {c : Command} (hc : c.toRaw = r.body.raw) :
    r.Answered (replyHeader r.header.messageId c Header.size).toBytes := by
  have h := answered_sent hc Header.size [] rfl (by decide)
  rwa [List.append_nil] at h

private theorem answered_finished {bytes : List UInt8} (h : r.Answered bytes) (res : Bool × σ) :
    r.Answered ((finished bytes res).1.reply r.header) := by
  unfold finished
  split
  · exact h
  · exact answered_error r _

/-- Every well-formed request is answered. -/
theorem handle_answered (hsrv : srv.Sized) (h : r.WellFormed) (s : σ) : r.Answered (srv.handle s r).2 := by
  show r.Answered ((srv.answer s r).1.reply r.header)
  cases hbody : r.body with
  | version cmd data =>
    have hraw : Command.version.toRaw = r.body.raw := by rw [hbody]; rfl
    simp only [answer, hbody, version, cString_append (h.text cmd data hbody)]
    split
    · simp only [Handled.reply, List.append_assoc]
      refine answered_sent hraw _ _ ?_ hsrv.version
      rw [List.length_append, List.length_append, Version.toBytes_length, List.length_singleton]
      omega
    · exact answered_error r _
  | dmaMap cmd =>
    have hraw : Command.dmaMap.toRaw = r.body.raw := by rw [hbody]; rfl
    simp only [answer, hbody, dmaMap]
    split
    · exact answered_error r _
    · exact answered_finished (answered_header hraw) _
  | dmaUnmap cmd =>
    have hraw : Command.dmaUnmap.toRaw = r.body.raw := by rw [hbody]; rfl
    simp only [answer, hbody, dmaUnmap]
    exact answered_finished (answered_sent hraw (Header.size + DmaUnmap.bodySize) cmd.toBytes rfl (by decide)) _
  | deviceGetInfo cmd =>
    have hraw : Command.deviceGetInfo.toRaw = r.body.raw := by rw [hbody]; rfl
    simp only [answer, hbody, deviceGetInfo]
    exact answered_sent hraw (Header.size + DeviceGetInfo.bodySize) _ rfl (by decide)
  | deviceGetRegionInfo cmd =>
    have hraw : Command.deviceGetRegionInfo.toRaw = r.body.raw := by rw [hbody]; rfl
    simp only [answer, hbody, deviceGetRegionInfo]
    cases hregion : srv.regions[cmd.index.toNat]? with
    | none => exact answered_error r _
    | some region =>
      have hcaps := hsrv.regions region (List.mem_of_getElem? hregion)
      simp only [Handled.reply, List.append_assoc]
      refine answered_sent hraw _ _ ?_ ?_
      · rw [List.length_append, RegionInfo.toBytes_length]
        omega
      · split
        · exact hcaps
        · decide
  | getIrqInfo cmd =>
    have hraw : Command.getIrqInfo.toRaw = r.body.raw := by rw [hbody]; rfl
    simp only [answer, hbody, getIrqInfo]
    split
    · exact answered_error r _
    · exact answered_sent hraw (Header.size + GetIrqInfo.bodySize) _ rfl (by decide)
  | setIrqs cmd trailing =>
    have hraw : Command.setIrqs.toRaw = r.body.raw := by rw [hbody]; rfl
    simp only [answer, hbody, setIrqs]
    split
    · exact answered_error r _
    · split
      · exact answered_error r _
      · exact answered_finished (answered_header hraw) _
  | regionRead cmd =>
    have hraw : Command.regionRead.toRaw = r.body.raw := by rw [hbody]; rfl
    simp only [answer, hbody, regionRead]
    split
    · exact answered_error r _
    · split
      · next data hread =>
        simp only [Handled.reply, List.append_assoc]
        refine answered_sent hraw _ _ ?_ (h.read cmd hbody)
        rw [List.length_append, RegionAccess.toBytes_length, data.2]
        omega
      · exact answered_error r _
  | regionWrite offset region data =>
    have hraw : Command.regionWrite.toRaw = r.body.raw := by rw [hbody]; rfl
    simp only [answer, hbody]
    split
    · exact answered_error r _
    · refine answered_finished ?_ _
      split
      · exact answered_sent hraw (Header.size + RegionAccess.bodySize) _ rfl (by decide)
      · next hflag => exact .inl ⟨rfl, hraw.symm, hflag⟩
  | deviceReset =>
    have hraw : Command.deviceReset.toRaw = r.body.raw := by rw [hbody]; rfl
    simp only [answer, hbody]
    exact answered_finished (answered_header hraw) _
  | other raw body =>
    simp only [answer, hbody]
    exact answered_error r _

/-! ### Runs -/

private theorem wire_length (r : Request φ) : r.wire.length = Header.size + r.body.toBytes.length := by
  rw [Request.wire, attach_length, List.length_append, Header.toBytes_length]

private theorem wire_ne_nil (r : Request φ) : r.wire ≠ [] := by
  refine List.ne_nil_of_length_pos ?_
  rw [wire_length, Header.size]
  omega

variable (srv) in
/-- The whole request is taken off the socket: it is no write of data to a region that does not exist. -/
def Takes (r : Request φ) : Prop :=
  ∀ offset region data, r.body = .regionWrite offset region data → region.toNat < srv.regions.length ∨ data = []

theorem left_eq_nil_iff : srv.left r = [] ↔ srv.Takes r := by
  unfold left Takes
  cases r.body with
  | regionWrite offset region data =>
    constructor
    · intro h offset' region' data' heq
      cases heq
      by_cases hregion : region.toNat ≥ srv.regions.length
      · simp only [if_pos hregion] at h
        exact .inr h
      · exact .inl (Nat.lt_of_not_ge hregion)
    · intro h
      rcases h offset region data rfl with hlt | hnil
      · exact if_neg (Nat.not_le.2 hlt)
      · subst hnil
        exact ite_self _
  | _ => simp

/-- Requests that are taken off the socket are handled in order. -/
theorem run_handles (rs : List (Request φ)) (h : ∀ r ∈ rs, r.WellFormed ∧ srv.Takes r) (s : σ) :
    srv.run s (rs.flatMap Request.wire) =
      ⟨(Framing.handleAll srv.handle s rs).1, (Framing.handleAll srv.handle s rs).2.flatten, .closed⟩ := by
  refine Framing.serve_messages (fun r _ => wire_ne_nil r) (fun r hr s rest => ?_)
    (Framing.length_le_flatMap fun r _ => wire_ne_nil r) s
  rw [turn_request (h r hr).1, left_eq_nil_iff.2 (h r hr).2]
  rfl

/-- A request is taken off the socket, neither less nor more of it, exactly if it is no write of data to a region that
does not exist.  Over requests of this kind the server does what they ask for in order, and answers each of them once,
unless it is a write that asks for no reply. -/
theorem run_requests (srv : Server φ σ) (hsrv : srv.Sized) (rs : List (Request φ)) (h : ∀ r ∈ rs, r.WellFormed) :
    (∀ r ∈ rs, ∀ s rest, (∃ t, srv.turn s (r.wire ++ rest) = .ok t ∧ t.rest = rest) ↔ srv.Takes r) ∧
      ((∀ r ∈ rs, srv.Takes r) → ∀ s,
        srv.run s (rs.flatMap Request.wire) =
            ⟨(Framing.handleAll srv.handle s rs).1, (Framing.handleAll srv.handle s rs).2.flatten, .closed⟩ ∧
          List.Forall₂ Request.Answered rs (Framing.handleAll srv.handle s rs).2) := by
  refine ⟨fun r hr s rest => ?_, fun htakes s => ⟨run_handles rs (fun r hr => ⟨h r hr, htakes r hr⟩) s, ?_⟩⟩
  · rw [turn_request (h r hr), ← left_eq_nil_iff]
    constructor
    · rintro ⟨t, ht, hrest⟩
      obtain rfl := Except.ok.inj ht
      have hplain : (plain (srv.left r) : Socket φ) = [] := List.append_left_eq_self.1 hrest
      exact List.map_eq_nil_iff.1 hplain
    · intro hleft
      exact ⟨_, rfl, by rw [hleft]; rfl⟩
  · exact Framing.handleAll_forall₂ (fun r hr s => handle_answered hsrv (h r hr) s) s

/-- The device id is read, a word is written without a reply, and a command that is not handled follows. -/
def threeRequests : List (Request File) :=
  [⟨1, 0, 0, [], .regionRead ⟨0, pciConfigRegionIndex, 4⟩⟩,
    ⟨2, HeaderFlags.noReply, 0, [], .regionWrite Dbg.dmaAddrLo pciBar0RegionIndex [1, 2, 3, 4]⟩,
    ⟨3, 0, 0, [], .other 16 [1, 2, 3]⟩]

theorem threeRequests_wellFormed : ∀ r ∈ threeRequests, r.WellFormed := by
  intro r hr
  simp only [threeRequests, List.mem_cons, List.not_mem_nil, or_false] at hr
  rcases hr with rfl | rfl | rfl
  · exact ⟨by decide, by decide, by rintro _ _ ⟨⟩, by rintro _ ⟨⟩; decide, by rintro _ _ ⟨⟩⟩
  · exact ⟨by decide, by decide, by rintro _ _ ⟨⟩, by rintro _ ⟨⟩, by rintro _ _ ⟨⟩⟩
  · exact ⟨by decide, by decide, by rintro _ _ ⟨⟩, by rintro _ ⟨⟩, by rintro _ _ ⟨⟩; decide⟩

theorem threeRequests_taken {srv : Server File σ} (h : srv.regions = buildRegions) :
    ∀ r ∈ threeRequests, srv.Takes r := by
  intro r hr
  simp only [threeRequests, List.mem_cons, List.not_mem_nil, or_false] at hr
  rcases hr with rfl | rfl | rfl
  · rintro _ _ _ ⟨⟩
  · rintro _ _ _ ⟨⟩
    rw [h]
    exact .inl (by decide)
  · rintro _ _ _ ⟨⟩

/-- A server that accepts every client, and the device behind it without options. -/
def plainServer : Server File Endpoint := Endpoint.server .idle (fun _ => true) []

def plainEndpoint : Endpoint := .create ⟨.default, .new "vm" 1 4096, false, false, false, false⟩ .new fun _ => 0

theorem run_requests_three :
    plainServer.run plainEndpoint (threeRequests.flatMap Request.wire) =
        ⟨(Framing.handleAll plainServer.handle plainEndpoint threeRequests).1,
          (Framing.handleAll plainServer.handle plainEndpoint threeRequests).2.flatten, .closed⟩ ∧
      List.Forall₂ Request.Answered threeRequests
        (Framing.handleAll plainServer.handle plainEndpoint threeRequests).2 :=
  (run_requests plainServer (Endpoint.server_sized .idle (fun _ => true) (by decide)) threeRequests
    threeRequests_wellFormed).2 (threeRequests_taken rfl) plainEndpoint

end Server

end Vfio

end Infinigpu
