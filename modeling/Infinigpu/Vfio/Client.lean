import Infinigpu.Vfio.Requests

/-!
# The client of the device socket (`vfio_user`, `Client`)

A call of the client sends one request and reads as many bytes as the reply has if the request is done; it does not
look at what the reply says.

* `Call.perform`: what a call makes the backend do, without messages;
* `Link.call_eq`: over the socket a call does this, and returns what the backend answers; a call that is refused
  returns as well where the reply to it is a bare header, and is left waiting where it is not;
* `RegionCaps.parse_capData`, `Link.getRegionInfo_told`: the client gets to know a region with all of its areas;
* `Link.session`: a client that connects, and its calls.
-/

namespace Infinigpu

namespace Vfio

/-! ### Calls -/

/-- The calls of the client. -/
inductive Call (φ : Type*) where
  | dmaMap (offset address size : UInt64) (fd : φ)
  | dmaUnmap (address size : UInt64)
  | reset
  /-- `n` is the length of the buffer. -/
  | regionRead (region : UInt32) (offset : UInt64) (n : Nat)
  | regionWrite (region : UInt32) (offset : UInt64) (data : List UInt8)
  | getIrqInfo (index : UInt32)
  | setIrqs (index flags start count : UInt32) (fds : List φ)

/-- What a call returns. -/
inductive Returned where
  | done
  | data (bytes : List UInt8)
  | irq (info : IrqInfo)
deriving DecidableEq, Repr

namespace Call

variable {φ σ : Type*}

def dmaMapReadWrite : UInt32 := 3

/-- The request of a call. -/
def body : Call φ → Body
  | .dmaMap offset address size _ =>
    .dmaMap { argsz := UInt32.ofNat DmaMap.bodySize, flags := dmaMapReadWrite, offset, address, size }
  | .dmaUnmap address size => .dmaUnmap { argsz := UInt32.ofNat DmaUnmap.bodySize, flags := 0, address, size }
  | .reset => .deviceReset
  | .regionRead region offset n => .regionRead { offset, region, count := UInt32.ofNat n }
  | .regionWrite region offset data => .regionWrite offset region data
  | .getIrqInfo index => .getIrqInfo { argsz := UInt32.ofNat GetIrqInfo.bodySize, flags := 0, index, count := 0 }
  | .setIrqs index flags start count _ =>
    .setIrqs { argsz := UInt32.ofNat SetIrqs.bodySize, flags, index, start, count } []

def fds : Call φ → List φ
  | .dmaMap _ _ _ fd => [fd]
  | .setIrqs _ _ _ _ fds => fds
  | _ => []

def request (id : UInt16) (c : Call φ) : Request φ where
  id
  flags := HeaderFlags.command
  error := 0
  fds := c.fds
  body := c.body

/-- How many bytes the call reads. -/
def replySize : Call φ → Nat
  | .dmaMap .. => Header.size
  | .dmaUnmap .. => Header.size + DmaUnmap.bodySize
  | .reset => Header.size
  | .regionRead _ _ n => Header.size + RegionAccess.bodySize + n
  | .regionWrite .. => Header.size + RegionAccess.bodySize
  | .getIrqInfo .. => Header.size + GetIrqInfo.bodySize
  | .setIrqs .. => Header.size

/-- What the call makes of these bytes. -/
def result (reply : List UInt8) : Call φ → Returned
  | .regionRead .. => .data (reply.drop (Header.size + RegionAccess.bodySize))
  | .getIrqInfo .. =>
    let info := GetIrqInfo.decode (reply.drop Header.size)
    .irq ⟨info.index, info.flags, info.count⟩
  | _ => .done

/-- The messages of the call are no longer than messages are, with at most 16 descriptors. -/
def Fits : Call φ → Prop
  | .regionRead _ _ n => Header.size + RegionAccess.bodySize + n < 2 ^ 32
  | .regionWrite _ _ data => Header.size + RegionAccess.bodySize + data.length < 2 ^ 32
  | .setIrqs _ _ _ _ fds => fds.length ≤ 16
  | _ => True

/-- The answer of the backend to a call that has nothing else to return. -/
def finished (r : Bool × σ) : Option Returned × σ := (if r.1 then some .done else none, r.2)

/-- What a call makes the backend do, and what it answers; `none` where the server refuses. -/
def perform (srv : Server φ σ) (s : σ) : Call φ → Option Returned × σ
  | .dmaMap offset address size fd => finished (srv.backend.dmaMap dmaMapReadWrite offset address size (some fd) s)
  | .dmaUnmap address size => finished (srv.backend.dmaUnmap 0 address size s)
  | .reset => finished (srv.backend.reset s)
  | .regionRead region offset n =>
    if region.toNat ≥ srv.regions.length then (none, s)
    else
      let r := srv.backend.regionRead region offset n s
      (r.1.map fun data => .data data.1, r.2)
  | .regionWrite region offset data =>
    if region.toNat ≥ srv.regions.length then (none, s)
    else finished (srv.backend.regionWrite region offset data s)
  | .getIrqInfo index => (srv.irqs[index.toNat]?.map .irq, s)
  | .setIrqs index flags start count fds =>
    if index.toNat ≥ srv.irqs.length then (none, s)
    else if flags &&& Server.irqSetDataBool > 0 then (none, s)
    else finished (srv.backend.setIrqs index flags start count fds s)

private theorem wellFormed {c : Call φ} (h : c.Fits) (id : UInt16) : (c.request id).WellFormed := by
  cases c with
  | dmaMap offset address size fd =>
    exact ⟨show 48 < 2 ^ 32 by decide, show 1 ≤ 16 by decide, by rintro _ _ ⟨⟩, by rintro _ ⟨⟩,
      by rintro _ _ ⟨⟩⟩
  | dmaUnmap address size =>
    exact ⟨show 40 < 2 ^ 32 by decide, Nat.zero_le 16, by rintro _ _ ⟨⟩, by rintro _ ⟨⟩, by rintro _ _ ⟨⟩⟩
  | reset =>
    exact ⟨show 16 < 2 ^ 32 by decide, Nat.zero_le 16, by rintro _ _ ⟨⟩, by rintro _ ⟨⟩, by rintro _ _ ⟨⟩⟩
  | regionRead region offset n =>
    refine ⟨show 32 < 2 ^ 32 by decide, Nat.zero_le 16, by rintro _ _ ⟨⟩, ?_, by rintro _ _ ⟨⟩⟩
    rintro _ ⟨⟩
    exact Nat.lt_of_le_of_lt (Nat.add_le_add_left (Nat.mod_le _ _) _) h
  | regionWrite region offset data =>
    refine ⟨?_, Nat.zero_le 16, by rintro _ _ ⟨⟩, by rintro _ ⟨⟩, by rintro _ _ ⟨⟩⟩
    show Header.size + ((Body.writeAccess offset region data).toBytes ++ data).length < 2 ^ 32
    rw [List.length_append, RegionAccess.toBytes_length, ← Nat.add_assoc]
    exact h
  | getIrqInfo index =>
    exact ⟨show 32 < 2 ^ 32 by decide, Nat.zero_le 16, by rintro _ _ ⟨⟩, by rintro _ ⟨⟩, by rintro _ _ ⟨⟩⟩
  | setIrqs index flags start count fds =>
    exact ⟨show 36 < 2 ^ 32 by decide, h, by rintro _ _ ⟨⟩, by rintro _ ⟨⟩, by rintro _ _ ⟨⟩⟩

end Call

/-! ### The link -/

/-- A client that is connected to a server: what the server has sent and the client has not read. -/
structure Link (σ : Type*) where
  state : σ
  nextMessageId : UInt16
  inbox : List UInt8

namespace Link

variable {φ σ : Type*} {srv : Server φ σ} {l : Link σ} {c : Call φ}

/-- A request is sent, and `n` bytes are read.  `none`: the client still waits when the request has been served, or
the server has not taken all of it. -/
def exchange (srv : Server φ σ) (l : Link σ) (r : Request φ) (n : Nat) : Option (List UInt8 × Link σ) :=
  match srv.turn l.state r.wire with
  | .error _ => none
  | .ok t =>
    let inbox := l.inbox ++ t.sent
    if t.rest.isEmpty ∧ n ≤ inbox.length then
      some (inbox.take n, { state := t.state, nextMessageId := l.nextMessageId + 1, inbox := inbox.drop n })
    else
      none

def call (srv : Server φ σ) (l : Link σ) (c : Call φ) : Option (Returned × Link σ) :=
  (l.exchange srv (c.request l.nextMessageId) c.replySize).map fun r => (c.result r.1, r.2)

/-- Calls one after another. -/
def callAll (srv : Server φ σ) : Link σ → List (Call φ) → Option (List Returned × Link σ)
  | l, [] => some ([], l)
  | l, c :: cs => (l.call srv c).bind fun r => (callAll srv r.2 cs).map fun rs => (r.1 :: rs.1, rs.2)

end Link

namespace Call

variable {φ σ : Type*}

/-- What a call comes to over the socket: a refusal is not noticed where the reply is a bare header. -/
def remote (srv : Server φ σ) (s : σ) (c : Call φ) : Option (Returned × σ) :=
  match c.perform srv s with
  | (some v, s) => some (v, s)
  | (none, s) => if c.replySize = Header.size then some (.done, s) else none

def remoteAll (srv : Server φ σ) : σ → List (Call φ) → Option (List Returned × σ)
  | s, [] => some ([], s)
  | s, c :: cs => (c.remote srv s).bind fun r => (remoteAll srv r.2 cs).map fun rs => (r.1 :: rs.1, rs.2)

end Call

namespace Link

variable {φ σ : Type*} {srv : Server φ σ} {l : Link σ} {s : σ} {r : Request φ} {n : Nat} {reply : List UInt8}

/-- What the client makes of a reply. -/
private theorem exchange_served (hr : r.WellFormed) (hinbox : l.inbox = [])
    (hhandle : srv.handle l.state r = (s, reply)) :
    l.exchange srv r n =
      if (plain (srv.left r) : Socket φ).isEmpty ∧ n ≤ reply.length then
        some (reply.take n, ⟨s, l.nextMessageId + 1, reply.drop n⟩)
      else
        none := by
  have hturn : srv.turn l.state (r.wire ++ []) = _ := Server.turn_request hr l.state []
  rw [List.append_nil, List.append_nil, hhandle] at hturn
  rw [exchange, hturn]
  simp only [hinbox, List.nil_append]

/-- A reply with all that is read, and what is behind it. -/
private theorem exchange_answered (hr : r.WellFormed) (hinbox : l.inbox = []) (htakes : srv.Takes r)
    {rest : List UInt8} (hhandle : srv.handle l.state r = (s, reply ++ rest)) (hsize : reply.length = n) :
    l.exchange srv r n = some (reply, ⟨s, l.nextMessageId + 1, rest⟩) := by
  have hleft : (plain (srv.left r) : Socket φ).isEmpty = true := by
    rw [Server.left_eq_nil_iff.2 htakes]
    rfl
  have hle : n ≤ (reply ++ rest).length := by
    rw [List.length_append]
    omega
  rw [exchange_served hr hinbox hhandle, if_pos ⟨hleft, hle⟩, ← hsize, List.take_left, List.drop_left]

/-- A reply that is too short is waited for. -/
private theorem exchange_waits (hr : r.WellFormed) (hinbox : l.inbox = [])
    (hhandle : srv.handle l.state r = (s, reply)) (hshort : reply.length < n) : l.exchange srv r n = none := by
  rw [exchange_served hr hinbox hhandle, if_neg]
  rintro ⟨-, hle⟩
  omega

end Link

namespace Call

variable {φ σ : Type*} {srv : Server φ σ} {c : Call φ} {s s' : σ} {v : Returned} {id : UInt16}

/-- The reply has the size that the call reads and says what is returned, or it is a bare header. -/
def Replied (c : Call φ) (reply : List UInt8) : Option Returned → Prop
  | some v => reply.length = c.replySize ∧ c.result reply = v
  | none => reply.length = Header.size

private theorem finished_replied (header : Header) {bytes : List UInt8} (hsize : bytes.length = c.replySize)
    (hresult : c.result bytes = .done) (r : Bool × σ) :
    ∃ reply, ((Server.finished bytes r).2, (Server.finished bytes r).1.reply header) = ((finished r).2, reply) ∧
      c.Replied reply (finished r).1 := by
  obtain ⟨ok, s⟩ := r
  cases ok with
  | true => exact ⟨bytes, rfl, hsize, hresult⟩
  | false => exact ⟨_, rfl, rfl⟩

/-- The server does what the call asks for, and its reply fits the call or is a bare header. -/
private theorem handle_perform (srv : Server φ σ) (hfits : c.Fits) (s : σ) (id : UInt16) :
    ∃ reply, srv.handle s (c.request id) = ((c.perform srv s).2, reply) ∧
      c.Replied reply (c.perform srv s).1 := by
  cases c with
  | dmaMap offset address size fd => exact finished_replied _ rfl rfl _
  | dmaUnmap address size => exact finished_replied _ rfl rfl _
  | reset => exact finished_replied _ rfl rfl _
  | regionRead region offset n =>
    have hcount : (UInt32.ofNat n).toNat = n := by
      refine UInt32.toNat_ofNat_of_lt' (Nat.lt_of_le_of_lt ?_ hfits)
      omega
    simp only [Server.handle, Server.answer, request, body, perform]
    generalize UInt32.ofNat n = count at hcount
    subst hcount
    simp only [Server.regionRead]
    split
    · exact ⟨_, rfl, rfl⟩
    · cases (srv.backend.regionRead region offset count.toNat s).1 with
      | none => exact ⟨_, rfl, rfl⟩
      | some data =>
        refine ⟨_, rfl, ?_, rfl⟩
        simp only [Server.Handled.reply, List.length_append, data.2]
        rfl
  | regionWrite region offset data =>
    have hflags : HeaderFlags.command &&& HeaderFlags.noReply = 0 := by decide
    simp only [Server.handle, Server.answer, request, body, perform, Server.regionWrite, Request.header, hflags,
      if_true]
    split
    · exact ⟨_, rfl, rfl⟩
    · exact finished_replied _ rfl rfl _
  | getIrqInfo index =>
    simp only [Server.handle, Server.answer, request, body, Server.getIrqInfo, perform]
    cases srv.irqs[index.toNat]? with
    | none => exact ⟨_, rfl, rfl⟩
    | some irq =>
      let info : GetIrqInfo := ⟨UInt32.ofNat GetIrqInfo.bodySize, irq.flags, irq.index, irq.count⟩
      refine ⟨_, rfl, rfl, ?_⟩
      show Returned.irq ⟨(GetIrqInfo.decode info.toBytes).index, (GetIrqInfo.decode info.toBytes).flags,
        (GetIrqInfo.decode info.toBytes).count⟩ = Returned.irq irq
      rw [GetIrqInfo.decode_toBytes]
  | setIrqs index flags start count fds =>
    simp only [Server.handle, Server.answer, request, body, Server.setIrqs, perform]
    split
    · exact ⟨_, rfl, rfl⟩
    · split
      · exact ⟨_, rfl, rfl⟩
      · exact finished_replied _ rfl rfl _

/-- Only a write to a region that is not there is not taken off the socket. -/
private theorem takes_request (h : (c.perform srv s).1.isSome ∨ c.replySize = Header.size) (id : UInt16) :
    srv.Takes (c.request id) := by
  intro offset region data hbody
  cases c with
  | regionWrite region' offset' data' =>
    cases hbody
    by_contra hnot
    rw [not_or, Nat.not_lt] at hnot
    rcases h with hsome | hsize
    · simp only [perform, if_pos hnot.1] at hsome
      cases hsome
    · exact absurd hsize (show 32 ≠ 16 by decide)
  | _ => cases hbody

private theorem result_short (h : c.replySize = Header.size) (reply : List UInt8) : c.result reply = .done := by
  cases c with
  | regionRead region offset n =>
    simp only [replySize, RegionAccess.bodySize] at h
    omega
  | getIrqInfo index => exact absurd h (show 32 ≠ 16 by decide)
  | _ => rfl

private theorem le_replySize (c : Call φ) : Header.size ≤ c.replySize := by
  cases c <;> simp only [replySize] <;> omega

end Call

namespace Link

variable {φ σ : Type*} {srv : Server φ σ} {l : Link σ} {c : Call φ}

/-- A call over the socket. -/
theorem call_eq (hfits : c.Fits) (hinbox : l.inbox = []) :
    l.call srv c = (c.remote srv l.state).map fun r => (r.1, ⟨r.2, l.nextMessageId + 1, []⟩) := by
  obtain ⟨reply, hhandle, hreplied⟩ := c.handle_perform srv hfits l.state l.nextMessageId
  have hwell := c.wellFormed hfits l.nextMessageId
  have htakes : (c.perform srv l.state).1.isSome ∨ c.replySize = Header.size →
      srv.Takes (c.request l.nextMessageId) := fun h => c.takes_request h _
  rw [call, Call.remote]
  cases hperform : c.perform srv l.state with
  | mk v s =>
    rw [hperform] at hhandle hreplied htakes
    cases v with
    | some v =>
      obtain ⟨hsize, hresult⟩ := hreplied
      rw [exchange_answered hwell hinbox (htakes (.inl rfl)) (by rw [List.append_nil]; exact hhandle) hsize]
      simp only [Option.map_some, hresult]
    | none =>
      have hsize : reply.length = Header.size := hreplied
      by_cases hshort : c.replySize = Header.size
      · rw [exchange_answered hwell hinbox (htakes (.inr hshort)) (by rw [List.append_nil]; exact hhandle)
          (hsize.trans hshort.symm)]
        simp only [if_pos hshort, Option.map_some, Call.result_short hshort]
      · have hle := c.le_replySize
        rw [exchange_waits hwell hinbox hhandle (by omega)]
        simp only [if_neg hshort, Option.map_none]

/-- The calls of a session do what they do at the backend itself, one after another, and return what it answers, up to
the first one that is refused with a reply that is too short for it: there the client is left waiting, or the socket
out of step.  A refusal of the others is not noticed. -/
private theorem calls_return (srv : Server φ σ) {cs : List (Call φ)} (hfits : ∀ c ∈ cs, c.Fits)
    (hinbox : l.inbox = []) :
    l.callAll srv cs =
      (Call.remoteAll srv l.state cs).map fun r => (r.1, ⟨r.2, l.nextMessageId + UInt16.ofNat cs.length, []⟩) := by
  induction cs generalizing l with
  | nil =>
    obtain ⟨s, id, inbox⟩ := l
    obtain rfl : inbox = [] := hinbox
    simp [callAll, Call.remoteAll]
  | cons c cs ih =>
    obtain ⟨hc, hcs⟩ := List.forall_mem_cons.1 hfits
    rw [callAll, Call.remoteAll, call_eq hc hinbox]
    cases c.remote srv l.state with
    | none => rfl
    | some r =>
      have hid : l.nextMessageId + 1 + UInt16.ofNat cs.length = l.nextMessageId + UInt16.ofNat (cs.length + 1) := by
        rw [UInt16.ofNat_add, UInt16.add_assoc, UInt16.add_comm 1]
        rfl
      have hrest := ih (l := ⟨r.2, l.nextMessageId + 1, []⟩) hcs rfl
      simp only [Option.map_some, Option.bind_some, List.length_cons, ← hid, hrest, Option.map_map, Function.comp_def]

end Link

/-! ### Connecting -/

/-- A region as the client knows it. -/
structure Region where
  flags : UInt32
  index : UInt32
  size : UInt64
  sparseAreas : List (UInt64 × UInt64)
deriving DecidableEq, Repr

namespace RegionCaps

/-- The areas one after another. -/
def areas : Nat → List UInt8 → List (UInt64 × UInt64)
  | 0, _ => []
  | n + 1, bs => (u64At bs 0, u64At bs 8) :: areas n (bs.drop 16)

/-- The capabilities in `cap` from the offset on, which is counted from the start of the region info.  A capability
that ends behind `cap` is the last one; `fuel` is their number. -/
def parse (cap : List UInt8) : Nat → UInt32 → List (UInt64 × UInt64)
  | 0, _ => []
  | fuel + 1, regionInfoOffset =>
    if regionInfoOffset = 0 then
      []
    else
      -- a sum of more than 32 bits, which a build with overflow checks stops at, is beyond the end as well
      let capOffset := (regionInfoOffset - UInt32.ofNat RegionInfo.bodySize).toNat
      if capOffset + 8 > cap.length then
        []
      else
        let next := u32At cap (capOffset + 4)
        if u16At cap capOffset = ServerRegion.capSparseMmap then
          let areaNum := (u32At cap (capOffset + 8)).toNat
          if capOffset + 16 + areaNum * 16 > cap.length then
            []
          else
            areas areaNum (cap.drop (capOffset + 16)) ++ parse cap fuel next
        else
          parse cap fuel next

/-- The areas as the server writes them. -/
def areasBytes (as : List (UInt64 × UInt64)) : List UInt8 :=
  as.flatMap fun a => Bytes.ofValue 8 a.1.toNat ++ Bytes.ofValue 8 a.2.toNat

private theorem areasBytes_length (as : List (UInt64 × UInt64)) : (areasBytes as).length = as.length * 16 := by
  induction as with
  | nil => rfl
  | cons a as ih =>
    rw [areasBytes, List.flatMap_cons, List.length_append, ← areasBytes, ih, List.length_cons]
    show 16 + as.length * 16 = (as.length + 1) * 16
    omega

private theorem areas_areasBytes (as : List (UInt64 × UInt64)) : areas as.length (areasBytes as) = as := by
  induction as with
  | nil => rfl
  | cons a as ih =>
    have hoffset : u64At (areasBytes (a :: as)) 0 = a.1 := Bytes.u64_ofValue _
    have hsize : u64At (areasBytes (a :: as)) 8 = a.2 := Bytes.u64_ofValue _
    have hrest : (areasBytes (a :: as)).drop 16 = areasBytes as := rfl
    rw [List.length_cons, areas, hoffset, hsize, hrest, ih]

private theorem capData_eq {r : ServerRegion} (hareas : r.sparseAreas ≠ []) : r.capData =
    Bytes.ofValue 2 ServerRegion.capSparseMmap.toNat ++ Bytes.ofValue 2 1 ++ Bytes.ofValue 4 0 ++
      Bytes.ofValue 4 r.sparseAreas.length ++ Bytes.ofValue 4 0 ++ areasBytes r.sparseAreas := by
  rw [ServerRegion.capData, if_neg (by simpa using hareas)]
  rfl

private theorem capData_length {r : ServerRegion} (hareas : r.sparseAreas ≠ []) :
    r.capData.length = 16 + r.sparseAreas.length * 16 := by
  rw [capData_eq hareas, List.length_append, areasBytes_length]
  rfl

/-- What the server writes is parsed back. -/
theorem parse_capData {r : ServerRegion} (hr : r.capData.length < 2 ^ 32) (hareas : r.sparseAreas ≠ []) (fuel : Nat) :
    parse r.capData (fuel + 2) (UInt32.ofNat RegionInfo.bodySize) = r.sparseAreas := by
  have hdata := capData_eq hareas
  have hlen := capData_length hareas
  have hid : u16At r.capData 0 = ServerRegion.capSparseMmap := by
    rw [hdata]
    exact Bytes.u16_ofValue _
  have hnext : u32At r.capData 4 = 0 := by
    rw [hdata]
    exact Bytes.u32_ofValue 0
  have hcount : (u32At r.capData 8).toNat = r.sparseAreas.length := by
    have hlt : r.sparseAreas.length < 256 ^ 4 := by omega
    have hnum : u32At r.capData 8 = Bytes.u32 (Bytes.ofValue 4 r.sparseAreas.length) := by
      rw [hdata]
      rfl
    rw [hnum, Bytes.u32, Bytes.value_ofValue, Nat.mod_eq_of_lt hlt]
    exact UInt32.toNat_ofNat_of_lt' hlt
  have hdrop : r.capData.drop 16 = areasBytes r.sparseAreas := by
    rw [hdata]
    rfl
  have hoffset : (UInt32.ofNat RegionInfo.bodySize - UInt32.ofNat RegionInfo.bodySize).toNat = 0 := by decide
  rw [parse, if_neg (by decide)]
  simp only [hoffset, Nat.zero_add, hid, hnext, hcount, if_true]
  rw [if_neg (by omega), if_neg (by omega), hdrop, areas_areasBytes]
  simp [parse]

end RegionCaps

/-- What the client keeps of the server's answers when it connects. -/
structure Client where
  resettable : Bool
  numIrqs : UInt32
  regions : List Region
deriving DecidableEq, Repr

/-- A region that the client has been told of. -/
def Region.of (info : RegionInfo) (sparseAreas : List (UInt64 × UInt64)) : Region :=
  ⟨info.flags, info.index, info.size, sparseAreas⟩

/-- A region of the server as a client gets to know it. -/
def ServerRegion.told (r : ServerRegion) : Region where
  flags := if r.capData.isEmpty then r.regionInfo.flags else r.regionInfo.flags ||| ServerRegion.flagCaps
  index := r.regionInfo.index
  size := r.regionInfo.size
  sparseAreas := r.sparseAreas

namespace Link

variable {φ σ : Type*}

def read (l : Link σ) (n : Nat) : Option (List UInt8 × Link σ) :=
  if n ≤ l.inbox.length then some (l.inbox.take n, { l with inbox := l.inbox.drop n }) else none

def regionInfoRequest (id : UInt16) (index argsz : UInt32) : Request φ where
  id
  flags := HeaderFlags.command
  error := 0
  fds := []
  body := .deviceGetRegionInfo { argsz, flags := 0, index, capOffset := 0, size := 0, offset := 0 }

def regionInfoSize : Nat := Header.size + RegionInfo.bodySize

/-- `none` also where the client panics. -/
def getRegionInfo (srv : Server φ σ) (l : Link σ) (index : UInt32) : Option (Region × Link σ) :=
  let argsz := UInt32.ofNat RegionInfo.bodySize
  (l.exchange srv (regionInfoRequest l.nextMessageId index argsz) regionInfoSize).bind fun r =>
    let info := RegionInfo.decode (r.1.drop Header.size)
    if info.argsz > argsz then
      -- asked again with room for the capabilities, under the same number
      (r.2.exchange srv (regionInfoRequest l.nextMessageId index info.argsz) regionInfoSize).bind fun r =>
        let info := RegionInfo.decode (r.1.drop Header.size)
        let capSize := info.argsz - argsz
        if capSize = (Header.decode r.1).messageSize - UInt32.ofNat regionInfoSize then
          (r.2.read capSize.toNat).map fun cap =>
            (.of info (RegionCaps.parse cap.1 cap.1.length info.capOffset), cap.2)
        else
          none
    else
      some (.of info [], r.2)

def getRegionInfos (srv : Server φ σ) : Link σ → List UInt32 → Option (List Region × Link σ)
  | l, [] => some ([], l)
  | l, index :: is =>
    (l.getRegionInfo srv index).bind fun r => (getRegionInfos srv r.2 is).map fun rs => (r.1 :: rs.1, rs.2)

def deviceInfoRequest (id : UInt16) : Request φ where
  id
  flags := HeaderFlags.command
  error := 0
  fds := []
  body := .deviceGetInfo
    { argsz := UInt32.ofNat (Header.size + DeviceGetInfo.bodySize), flags := 0, numRegions := 0, numIrqs := 0 }

/-- `none` also where the server is no PCI device. -/
def getRegions (srv : Server φ σ) (l : Link σ) : Option (Client × Link σ) :=
  (l.exchange srv (deviceInfoRequest l.nextMessageId) (Header.size + DeviceGetInfo.bodySize)).bind fun r =>
    let info := DeviceGetInfo.decode (r.1.drop Header.size)
    if info.flags &&& Server.deviceFlagsPci ≠ Server.deviceFlagsPci then
      none
    else
      (getRegionInfos srv r.2 ((List.range info.numRegions.toNat).map UInt32.ofNat)).map fun rs =>
        ({ resettable := info.flags &&& Server.deviceFlagsReset ≠ Server.deviceFlagsReset
           numIrqs := info.numIrqs
           regions := rs.1 }, rs.2)

def versionRequest (id : UInt16) (versionData : List UInt8) : Request φ where
  id
  flags := HeaderFlags.command
  error := 0
  fds := []
  body := .version ⟨0, 1⟩ versionData

def versionSize : Nat := Header.size + Version.size

/-- `versionData` are the capabilities of the client as `serde_json` writes them, and `accepts` says which
capabilities of the server it takes. -/
def negotiateVersion (srv : Server φ σ) (accepts : List UInt8 → Bool) (versionData : List UInt8) (l : Link σ) :
    Option (Link σ) :=
  (l.exchange srv (versionRequest l.nextMessageId versionData) versionSize).bind fun r =>
    let messageSize := (Header.decode r.1).messageSize.toNat
    if messageSize ≤ versionSize then
      none
    else
      (r.2.read (messageSize - versionSize)).bind fun d => if accepts d.1.dropLast then some d.2 else none

/-- `Client::new`, on a fresh socket. -/
def connect (srv : Server φ σ) (accepts : List UInt8 → Bool) (versionData : List UInt8) (s : σ) :
    Option (Client × Link σ) :=
  (negotiateVersion srv accepts versionData ⟨s, 0, []⟩).bind (getRegions srv)

variable {srv : Server φ σ} {l : Link σ}

private theorem regionInfoRequest_wellFormed (id : UInt16) (index argsz : UInt32) :
    (regionInfoRequest id index argsz : Request φ).WellFormed :=
  ⟨show 48 < 2 ^ 32 by decide, Nat.zero_le 16, by rintro _ _ ⟨⟩, by rintro _ ⟨⟩, by rintro _ _ ⟨⟩⟩

private theorem regionInfoRequest_takes (srv : Server φ σ) (id : UInt16) (index argsz : UInt32) :
    srv.Takes (regionInfoRequest id index argsz) := by
  rintro _ _ _ ⟨⟩

/-- The info of a region that is sent. -/
def sentInfo (r : ServerRegion) : RegionInfo :=
  if r.capData.isEmpty then r.regionInfo
  else
    { r.regionInfo with
      flags := r.regionInfo.flags ||| ServerRegion.flagCaps
      argsz := UInt32.ofNat (RegionInfo.bodySize + r.capData.length)
      capOffset := UInt32.ofNat RegionInfo.bodySize }

/-- The reply about a region: its capabilities come with it if there is room. -/
private theorem handle_regionInfo {index : UInt32} {r : ServerRegion}
    (hr : srv.regions[index.toNat]? = some r) (s : σ) (id : UInt16) (argsz : UInt32) (caps : List UInt8)
    (hcaps : caps = if !r.capData.isEmpty &&
      decide (argsz ≥ UInt32.ofNat (RegionInfo.bodySize + r.capData.length)) then r.capData else []) :
    srv.handle s (regionInfoRequest id index argsz) =
      (s, ((Server.replyHeader id .deviceGetRegionInfo (regionInfoSize + caps.length)).toBytes ++
        (sentInfo r).toBytes) ++ caps) := by
  subst hcaps
  simp only [Server.handle, Server.answer, regionInfoRequest, Server.deviceGetRegionInfo, hr]
  rfl

private theorem exchange_regionInfo {index : UInt32} {r : ServerRegion} (hr : srv.regions[index.toNat]? = some r)
    (hinbox : l.inbox = []) (id : UInt16) (argsz : UInt32) (caps : List UInt8)
    (hcaps : caps = if !r.capData.isEmpty &&
      decide (argsz ≥ UInt32.ofNat (RegionInfo.bodySize + r.capData.length)) then r.capData else []) :
    l.exchange srv (regionInfoRequest id index argsz) regionInfoSize =
      some ((Server.replyHeader id .deviceGetRegionInfo (regionInfoSize + caps.length)).toBytes ++
        (sentInfo r).toBytes, ⟨l.state, l.nextMessageId + 1, caps⟩) :=
  exchange_answered (regionInfoRequest_wellFormed id index argsz) hinbox (regionInfoRequest_takes srv id index argsz)
    (handle_regionInfo hr l.state id argsz caps hcaps) rfl

/-- The client gets to know a region with all of its areas. -/
theorem getRegionInfo_told (hsrv : srv.Sized) {index : UInt32} {r : ServerRegion}
    (hr : srv.regions[index.toNat]? = some r)
    (hplain : r.capData = [] → r.regionInfo.argsz ≤ UInt32.ofNat RegionInfo.bodySize) (hinbox : l.inbox = []) :
    ∃ id, l.getRegionInfo srv index = some (r.told, ⟨l.state, id, []⟩) := by
  have hinfo : ∀ (header : Header) (info : RegionInfo),
      RegionInfo.decode ((header.toBytes ++ info.toBytes).drop Header.size) = info :=
    fun _ info => info.decode_toBytes
  have hheader : ∀ (header : Header) (info : RegionInfo), Header.decode (header.toBytes ++ info.toBytes) = header :=
    fun header _ => header.decode_toBytes
  by_cases hdata : r.capData = []
  · have hsent : sentInfo r = r.regionInfo := by simp [sentInfo, hdata]
    have hareas : r.sparseAreas = [] := by
      by_contra hareas
      rw [ServerRegion.capData, if_neg (by simpa using hareas)] at hdata
      exact absurd hdata (List.cons_ne_nil _ _)
    refine ⟨l.nextMessageId + 1, ?_⟩
    rw [getRegionInfo]
    simp only
    rw [exchange_regionInfo hr hinbox _ _ [] (by simp [hdata])]
    simp only [Option.bind_some, hinfo, hsent]
    rw [if_neg (UInt32.not_lt.2 (hplain hdata))]
    simp [ServerRegion.told, Region.of, hdata, hareas]
  · have hareas : r.sparseAreas ≠ [] := by
      intro hareas
      exact hdata (by rw [ServerRegion.capData, hareas]; rfl)
    have hempty : r.capData.isEmpty = false := by simpa using hdata
    have hpos : 0 < r.capData.length := List.length_pos_iff.2 hdata
    have hlt : regionInfoSize + r.capData.length < 2 ^ 32 := hsrv.regions r (List.mem_of_getElem? hr)
    have hfull : (UInt32.ofNat (RegionInfo.bodySize + r.capData.length)).toNat =
      RegionInfo.bodySize + r.capData.length :=
      UInt32.toNat_ofNat_of_lt' (show RegionInfo.bodySize + r.capData.length < 2 ^ 32 by
        simp only [regionInfoSize, Header.size] at hlt
        omega)
    have hmore : UInt32.ofNat (RegionInfo.bodySize + r.capData.length) > UInt32.ofNat RegionInfo.bodySize := by
      rw [gt_iff_lt, UInt32.lt_iff_toNat_lt, hfull]
      show 32 < 32 + _
      omega
    have hargsz : (sentInfo r).argsz = UInt32.ofNat (RegionInfo.bodySize + r.capData.length) := by
      simp [sentInfo, hempty]
    have hoffset : (sentInfo r).capOffset = UInt32.ofNat RegionInfo.bodySize := by simp [sentInfo, hempty]
    have hcapSize : UInt32.ofNat (RegionInfo.bodySize + r.capData.length) - UInt32.ofNat RegionInfo.bodySize =
        UInt32.ofNat r.capData.length := by
      rw [UInt32.ofNat_add, UInt32.add_comm, UInt32.add_sub_cancel]
    have hsize : UInt32.ofNat (regionInfoSize + r.capData.length) - UInt32.ofNat regionInfoSize =
        UInt32.ofNat r.capData.length := by
      rw [UInt32.ofNat_add, UInt32.add_comm, UInt32.add_sub_cancel]
    have hlen : (UInt32.ofNat r.capData.length).toNat = r.capData.length :=
      UInt32.toNat_ofNat_of_lt' (show r.capData.length < 2 ^ 32 by omega)
    have hnum := List.length_pos_iff.2 hareas
    obtain ⟨fuel, hfuel⟩ : ∃ fuel, r.capData.length = fuel + 2 :=
      Nat.exists_eq_add_of_le' (by rw [RegionCaps.capData_length hareas]; omega)
    refine ⟨l.nextMessageId + 1 + 1, ?_⟩
    rw [getRegionInfo]
    simp only
    rw [exchange_regionInfo hr hinbox _ _ [] (by rw [decide_eq_false (UInt32.not_le.2 hmore), Bool.and_false]; rfl)]
    simp only [Option.bind_some, hinfo, hargsz]
    rw [if_pos hmore, exchange_regionInfo hr rfl _ _ r.capData (by simp [hempty])]
    simp only [Option.bind_some, hinfo, hheader, hargsz, hoffset, Server.replyHeader, hcapSize, hsize, if_true, read,
      hlen, Nat.le_refl, List.take_length, List.drop_length, Option.map_some]
    rw [hfuel, RegionCaps.parse_capData (by omega) hareas]
    simp [ServerRegion.told, Region.of, sentInfo, hempty]

/-- A client and a server that understand each other. -/
structure Compatible (srv : Server φ σ) (accepts : List UInt8 → Bool) (versionData : List UInt8) : Prop where
  sized : srv.Sized
  regions : srv.regions.length < 2 ^ 32
  /-- The info of a region without capabilities does not ask for room for them. -/
  plain : ∀ r ∈ srv.regions, r.capData = [] → r.regionInfo.argsz ≤ UInt32.ofNat RegionInfo.bodySize
  text : 0 ∉ versionData
  size : versionSize + versionData.length + 1 < 2 ^ 32
  server : srv.acceptsCapabilities versionData = true
  client : accepts srv.versionData = true

variable {accepts : List UInt8 → Bool} {versionData : List UInt8}

private theorem getRegionInfos_told (h : Compatible srv accepts versionData) {k n : Nat}
    (hk : k + n = srv.regions.length) (hinbox : l.inbox = []) :
    ∃ id, l.getRegionInfos srv ((List.range' k n).map UInt32.ofNat) =
      some ((srv.regions.drop k).map ServerRegion.told, ⟨l.state, id, []⟩) := by
  induction n generalizing k l with
  | zero =>
    obtain ⟨s, id, inbox⟩ := l
    obtain rfl : inbox = [] := hinbox
    refine ⟨id, ?_⟩
    rw [List.drop_eq_nil_of_le (by omega)]
    rfl
  | succ n ih =>
    have hlt : k < srv.regions.length := by omega
    have hregions := h.regions
    have hindex : (UInt32.ofNat k).toNat = k := UInt32.toNat_ofNat_of_lt' (show k < 2 ^ 32 by omega)
    have hr : srv.regions[(UInt32.ofNat k).toNat]? = some srv.regions[k] := by
      rw [hindex]
      exact List.getElem?_eq_getElem hlt
    obtain ⟨id, hfirst⟩ := getRegionInfo_told h.sized hr (h.plain _ (List.getElem_mem hlt)) hinbox
    obtain ⟨id', hrest⟩ := ih (k := k + 1) (l := ⟨l.state, id, []⟩) (by omega) rfl
    refine ⟨id', ?_⟩
    rw [List.range'_succ, List.map_cons, getRegionInfos, hfirst, Option.bind_some, hrest,
      List.drop_eq_getElem_cons hlt]
    rfl

/-- What the client comes to know of the server.  It takes the device to be resettable exactly when it is not. -/
def known (srv : Server φ σ) : Client where
  resettable := !srv.resettable
  numIrqs := UInt32.ofNat srv.irqs.length
  regions := srv.regions.map ServerRegion.told

private theorem getRegions_known (h : Compatible srv accepts versionData) (hinbox : l.inbox = []) :
    ∃ id, l.getRegions srv = some (known srv, ⟨l.state, id, []⟩) := by
  let info : DeviceGetInfo :=
    { argsz := UInt32.ofNat DeviceGetInfo.bodySize
      flags := Server.deviceFlagsPci ||| if srv.resettable then Server.deviceFlagsReset else 0
      numRegions := UInt32.ofNat srv.regions.length
      numIrqs := UInt32.ofNat srv.irqs.length }
  have hwell : (deviceInfoRequest l.nextMessageId : Request φ).WellFormed :=
    ⟨show 32 < 2 ^ 32 by decide, Nat.zero_le 16, by rintro _ _ ⟨⟩, by rintro _ ⟨⟩, by rintro _ _ ⟨⟩⟩
  have hhandle : srv.handle l.state (deviceInfoRequest l.nextMessageId) = (l.state,
      ((Server.replyHeader l.nextMessageId .deviceGetInfo (Header.size + DeviceGetInfo.bodySize)).toBytes ++
        info.toBytes) ++ []) := rfl
  have hinfo : ∀ header : Header, DeviceGetInfo.decode ((header.toBytes ++ info.toBytes).drop Header.size) = info :=
    fun _ => info.decode_toBytes
  have hpci : info.flags &&& Server.deviceFlagsPci = Server.deviceFlagsPci := by
    simp only [info]
    cases srv.resettable <;> decide
  have hreset : decide (info.flags &&& Server.deviceFlagsReset ≠ Server.deviceFlagsReset) = !srv.resettable := by
    cases hresettable : srv.resettable with
    | true => exact decide_eq_false (by simp only [info, hresettable]; decide)
    | false => exact decide_eq_true (by simp only [info, hresettable]; decide)
  have hsize : ((Server.replyHeader l.nextMessageId .deviceGetInfo (Header.size + DeviceGetInfo.bodySize)).toBytes ++
      info.toBytes).length = Header.size + DeviceGetInfo.bodySize := rfl
  have hnum : info.numRegions.toNat = srv.regions.length := UInt32.toNat_ofNat_of_lt' h.regions
  obtain ⟨id, hregions⟩ := getRegionInfos_told (k := 0) (n := srv.regions.length)
    (l := ⟨l.state, l.nextMessageId + 1, []⟩) h (Nat.zero_add _) rfl
  refine ⟨id, ?_⟩
  rw [← List.range_eq_range', List.drop_zero] at hregions
  rw [getRegions, exchange_answered hwell hinbox (by rintro _ _ _ ⟨⟩) hhandle hsize]
  simp only [Option.bind_some, hinfo, hpci, hnum, hregions, ne_eq, not_true, if_false, Option.map_some] at hreset ⊢
  rw [hreset]
  rfl

private theorem negotiateVersion_accepted (h : Compatible srv accepts versionData) (hinbox : l.inbox = []) :
    negotiateVersion srv accepts versionData l = some ⟨l.state, l.nextMessageId + 1, []⟩ := by
  let header := Server.replyHeader l.nextMessageId .version (versionSize + srv.versionData.length + 1)
  have hwell : (versionRequest l.nextMessageId versionData : Request φ).WellFormed := by
    refine ⟨?_, Nat.zero_le 16, ?_, by rintro _ ⟨⟩, by rintro _ _ ⟨⟩⟩
    · show Header.size + (Version.toBytes ⟨0, 1⟩ ++ (versionData ++ [0])).length < 2 ^ 32
      have hsize := h.size
      simp only [versionSize] at hsize
      simp only [List.length_append, Version.toBytes_length, List.length_singleton]
      omega
    · rintro _ _ ⟨⟩
      exact h.text
  have hhandle : srv.handle l.state (versionRequest l.nextMessageId versionData) =
      (l.state, (header.toBytes ++ Version.toBytes ⟨0, 0⟩) ++ (srv.versionData ++ [0])) := by
    simp only [Server.handle, Server.answer, versionRequest, Server.version, Server.cString_append h.text, h.server,
      if_true, Server.Handled.reply, List.append_assoc]
    rfl
  have hheader : Header.decode (header.toBytes ++ Version.toBytes ⟨0, 0⟩) = header := header.decode_toBytes
  have hmessage : header.messageSize.toNat = versionSize + srv.versionData.length + 1 :=
    UInt32.toNat_ofNat_of_lt' h.sized.version
  have hlen : versionSize + srv.versionData.length + 1 - versionSize = (srv.versionData ++ [0]).length := by
    rw [List.length_append, List.length_singleton]
    omega
  have hsize : (header.toBytes ++ Version.toBytes ⟨0, 0⟩).length = versionSize := rfl
  rw [negotiateVersion, exchange_answered hwell hinbox (by rintro _ _ _ ⟨⟩) hhandle hsize]
  simp only [Option.bind_some, hheader, hmessage]
  rw [if_neg (by omega), hlen, read, if_pos (Nat.le_refl _)]
  simp only [List.take_length, List.drop_length, Option.bind_some, List.dropLast_concat, h.client, if_true]

/-- A client that connects comes to know all regions with their areas; and the calls of the session do what they do at
the backend itself, one after another, and return what it answers, up to the first one that is refused with a reply
that is too short for it.  A refusal of the others is not noticed. -/
theorem session (h : Compatible srv accepts versionData) (s : σ) {cs : List (Call φ)} (hfits : ∀ c ∈ cs, c.Fits) :
    ∃ id, connect srv accepts versionData s = some (known srv, ⟨s, id, []⟩) ∧
      callAll srv ⟨s, id, []⟩ cs =
        (Call.remoteAll srv s cs).map fun r => (r.1, ⟨r.2, id + UInt16.ofNat cs.length, []⟩) := by
  obtain ⟨id, hregions⟩ := getRegions_known (l := ⟨s, 1, []⟩) h rfl
  refine ⟨id, ?_, calls_return srv hfits rfl⟩
  rw [connect, negotiateVersion_accepted h rfl, Option.bind_some]
  exact hregions

/-- The device understands every client whose capabilities it accepts and that accepts its own. -/
private theorem device_compatible (env : Env) {acceptsCapabilities accepts : List UInt8 → Bool}
    {serverData versionData : List UInt8} (hserver : versionSize + serverData.length + 1 < 2 ^ 32)
    (hclient : versionSize + versionData.length + 1 < 2 ^ 32) (htext : 0 ∉ versionData)
    (hacceptsCapabilities : acceptsCapabilities versionData = true) (haccepts : accepts serverData = true) :
    Compatible (Endpoint.server env acceptsCapabilities serverData) accepts versionData where
  sized := Endpoint.server_sized env acceptsCapabilities hserver
  regions := show pciNumRegions < 2 ^ 32 by decide
  plain r hr _ := by
    obtain ⟨i, -, rfl⟩ := List.mem_map.1 hr
    simp only
    split_ifs <;> exact UInt32.le_refl _
  text := htext
  size := hclient
  server := hacceptsCapabilities
  client := haccepts

/-- The device id is read, and the interrupts are asked about. -/
def twoCalls : List (Call File) := [.regionRead pciConfigRegionIndex 0 4, .getIrqInfo 2]

private theorem plainServer_compatible : Compatible Server.plainServer (fun _ => true) [] :=
  device_compatible .idle (by decide) (by decide) (by simp) rfl rfl

theorem session_two : ∃ id,
    connect Server.plainServer (fun _ => true) [] Server.plainEndpoint =
        some (known Server.plainServer, ⟨Server.plainEndpoint, id, []⟩) ∧
      callAll Server.plainServer ⟨Server.plainEndpoint, id, []⟩ twoCalls =
        (Call.remoteAll Server.plainServer Server.plainEndpoint twoCalls).map fun r =>
          (r.1, ⟨r.2, id + UInt16.ofNat twoCalls.length, []⟩) := by
  refine session plainServer_compatible Server.plainEndpoint fun c hc => ?_
  simp only [twoCalls, List.mem_cons, List.not_mem_nil, or_false] at hc
  rcases hc with rfl | rfl
  · show 32 + 4 < 2 ^ 32
    decide
  · trivial

end Link

end Vfio

end Infinigpu
