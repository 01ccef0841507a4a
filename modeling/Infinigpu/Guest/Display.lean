import Infinigpu.Device.Table
import Infinigpu.Guest.Lifetime

/-!
# The display's messages on the ring (`guest/linux`, `igpu_ring2_push`)

The kernel driver stages a message in the payload area of a ring slot, publishes the slot's descriptor and returns the
low half of the retired word as it finds it.  The host pops descriptors, executes them against its table of resources
and retires them, all at its own pace.

* `Message`: what the driver sends, with what the host's table makes of it (`executeResource_message`);
* `CommandRing`: the ring, the payload area, where the host stands and its table;
* `CommandRing.settled`: the table once everything on the ring has been executed.  The host moves towards it and never
  changes it (`settled_host`, `drained`), and a push adds its message if the ring has room (`push_settled`).
-/

namespace Infinigpu.Kmd

def WIRE_FMT_XRGB8888 : UInt32 := 3

/-! ### Messages -/

inductive Message where
  | createBlob (resId : UInt32) (size : UInt64)
  | attachBacking (resId : UInt32) (addr length : UInt64)
  | setScanoutBlob (resId width height stride : UInt32)
  | flush (resId : UInt32) (rect : Rect)
  | destroy (resId : UInt32)
  | submitCmd (body : List UInt8)
  | cursorUpdate (body : List UInt8)

namespace Message

def msgType : Message → UInt32
  | createBlob .. => MsgType.resourceCreateBlob
  | attachBacking .. => MsgType.resourceAttachBacking
  | setScanoutBlob .. => MsgType.setScanoutBlob
  | flush .. => MsgType.resourceFlush
  | destroy _ => MsgType.resourceDestroy
  | submitCmd _ => MsgType.submitCmd
  | cursorUpdate _ => MsgType.cursorUpdate

def payload : Message → List UInt8
  | createBlob resId size => Bytes.ofWords [resId, 0, 1, 0] ++ Bytes.ofValue 8 size.toNat
  | attachBacking resId addr length =>
    Bytes.ofWords [resId, 1] ++ (Bytes.ofValue 8 addr.toNat ++ Bytes.ofValue 8 length.toNat)
  | setScanoutBlob resId width height stride => Bytes.ofWords [0, resId, width, height, WIRE_FMT_XRGB8888, stride]
  | flush resId rect => Bytes.ofWords [resId, rect.x, rect.y, rect.w, rect.h, 0]
  | destroy resId => Bytes.ofWords [resId]
  | submitCmd body => body
  | cursorUpdate body => body

/-- What the message does to the host's table. -/
def apply : Message → ResourceTable → ResourceTable
  | createBlob resId size, t => (t.createBlob resId 1 size).2
  | attachBacking resId addr length, t => (t.attachBacking resId [{ addr, len := length }]).2
  | setScanoutBlob resId width height stride, t => (t.setScanout 0 resId width height WIRE_FMT_XRGB8888 stride).2
  | destroy resId, t => (t.destroy resId).2
  | _, t => t

end Message

/-- A doubleword behind some words. -/
theorem u64At_ofWords (ws : List UInt32) (v : UInt64) (rest : List UInt8) :
    u64At (Bytes.ofWords ws ++ (Bytes.ofValue 8 v.toNat ++ rest)) (4 * ws.length) = v := by
  have hslice : Bytes.slice (Bytes.ofWords ws ++ (Bytes.ofValue 8 v.toNat ++ rest)) (4 * ws.length) 8 =
      Bytes.ofValue 8 v.toNat := by
    rw [← Bytes.ofWords_length, Bytes.slice, List.drop_left, List.take_left' (Bytes.ofValue_length 8 _)]
  rw [u64At, hslice, Bytes.u64_ofValue]

private theorem readFromPrefix_all {α : Type*} {size : Nat} {decode : List UInt8 → α} {bs : List UInt8}
    (h : bs.length = size) : readFromPrefix size decode bs = some (decode bs, []) := by
  have hread : readFromPrefix size decode (bs ++ []) = some (decode bs, []) := readFromPrefix_append h []
  rwa [List.append_nil] at hread

/-- The single entry of a backing. -/
private theorem backingSegments_one (addr length : UInt64) :
    backingSegments 1 (Bytes.ofValue 8 addr.toNat ++ Bytes.ofValue 8 length.toNat) = [{ addr, len := length }] := by
  have hentry : Bytes.slice (Bytes.ofValue 8 addr.toNat ++ Bytes.ofValue 8 length.toNat) 0 16 =
      Bytes.ofValue 8 addr.toNat ++ Bytes.ofValue 8 length.toNat := by
    rw [Bytes.slice, List.drop_zero, List.take_of_length_le]
    rw [List.length_append, Bytes.ofValue_length, Bytes.ofValue_length]
  have haddr : u64At (Bytes.ofValue 8 addr.toNat ++ Bytes.ofValue 8 length.toNat) 0 = addr :=
    u64At_ofWords [] addr (Bytes.ofValue 8 length.toNat)
  have hlength : u64At (Bytes.ofValue 8 addr.toNat ++ Bytes.ofValue 8 length.toNat) 8 = length := by
    have hslice := Bytes.slice_append_right (Bytes.ofValue 8 addr.toNat) (Bytes.ofValue 8 length.toNat)
    rw [Bytes.ofValue_length, Bytes.ofValue_length] at hslice
    rw [u64At, hslice, Bytes.u64_ofValue]
  have hdecode : MemEntry.decode (Bytes.slice (Bytes.ofValue 8 addr.toNat ++ Bytes.ofValue 8 length.toNat)
    (0 * 16) 16) =
      { addr, length } := by
    rw [Nat.zero_mul, hentry, MemEntry.decode, haddr, hlength]
  rw [backingSegments, List.range_one, List.map_singleton]
  simp only [hdecode]

/-! ### What the host reads -/

private theorem createBlob_decode (resId : UInt32) (size : UInt64) :
    ResourceCreateBlob.decode (Message.createBlob resId size).payload =
      { resId, ctxId := 0, blobMem := 1, blobFlags := 0, size } := by
  have hsize := u64At_ofWords [resId, 0, 1, 0] size []
  rw [List.append_nil] at hsize
  have hword : ∀ {i : Nat} {w : UInt32}, [resId, 0, 1, 0][i]? = some w →
      u32At (Message.createBlob resId size).payload (4 * i) = w := u32At_ofWords _
  rw [ResourceCreateBlob.decode, ResourceCreateBlob.mk.injEq]
  exact ⟨hword (i := 0) rfl, hword (i := 1) rfl, hword (i := 2) rfl, hword (i := 3) rfl, hsize⟩

private theorem attachBacking_decode (resId : UInt32) :
    AttachBacking.decode (Bytes.ofWords [resId, 1]) = ⟨resId, 1⟩ := by
  rw [AttachBacking.decode, AttachBacking.mk.injEq]
  exact ⟨u32At_words (i := 0) rfl, u32At_words (i := 1) rfl⟩

private theorem setScanoutBlob_decode (resId width height stride : UInt32) :
    SetScanoutBlob.decode (Message.setScanoutBlob resId width height stride).payload =
      { scanoutId := 0, resId, width, height, format := WIRE_FMT_XRGB8888, stride } := by
  rw [SetScanoutBlob.decode, SetScanoutBlob.mk.injEq]
  exact ⟨u32At_words (i := 0) rfl, u32At_words (i := 1) rfl, u32At_words (i := 2) rfl, u32At_words (i := 3) rfl,
    u32At_words (i := 4) rfl, u32At_words (i := 5) rfl⟩

private theorem destroy_decode (resId : UInt32) : u32At (Message.destroy resId).payload 0 = resId :=
  u32At_words (i := 0) rfl

/-- The host makes of a descriptor what its message stands for. -/
theorem executeResource_message (m : Message) {d : Descriptor} (h : d.msgType = m.msgType) (t : ResourceTable) :
    (executeResource d m.payload t).2 = m.apply t := by
  unfold executeResource
  rw [h]
  cases m with
  | createBlob resId size =>
    have hlen : (Message.createBlob resId size).payload.length = 24 := by
      rw [Message.payload, List.length_append, Bytes.ofWords_length, Bytes.ofValue_length]
      rfl
    rw [Message.msgType, if_pos rfl, readFromPrefix_all hlen, createBlob_decode]
    rfl
  | attachBacking resId addr length =>
    have hlen : (Bytes.ofWords [resId, 1]).length = 8 := Bytes.ofWords_length _
    have hread : readFromPrefix 8 AttachBacking.decode (Message.attachBacking resId addr length).payload =
        some (⟨resId, 1⟩, Bytes.ofValue 8 addr.toNat ++ Bytes.ofValue 8 length.toNat) := by
      rw [Message.payload, readFromPrefix_append hlen, attachBacking_decode]
    have hfew : ¬ (1 : UInt32) > MAX_BACKING_ENTRIES := by decide
    have hlong : ¬ (Bytes.ofValue 8 addr.toNat ++ Bytes.ofValue 8 length.toNat).length < (1 : UInt32).toNat * 16 := by
      rw [List.length_append, Bytes.ofValue_length, Bytes.ofValue_length]
      decide
    have hsegs : backingSegments (1 : UInt32).toNat (Bytes.ofValue 8 addr.toNat ++ Bytes.ofValue 8 length.toNat) =
        [{ addr, len := length }] := backingSegments_one addr length
    rw [Message.msgType, if_neg (by decide), if_pos rfl, hread]
    simp only [hfew, hlong, if_false, hsegs]
    rfl
  | setScanoutBlob resId width height stride =>
    have hlen : (Message.setScanoutBlob resId width height stride).payload.length = 24 := Bytes.ofWords_length _
    rw [Message.msgType, if_neg (by decide), if_neg (by decide), if_pos rfl, readFromPrefix_all hlen,
      setScanoutBlob_decode]
    rfl
  | flush resId rect =>
    rw [Message.msgType, if_neg (by decide), if_neg (by decide), if_neg (by decide), if_pos rfl]
    cases readFromPrefix 24 ResourceFlush.decode (Message.flush resId rect).payload with
    | none => rfl
    | some b =>
      simp only
      cases t.get b.1.resId with
      | none => rfl
      | some r =>
        simp only
        by_cases hempty : r.backing.isEmpty
        · rw [if_pos hempty]
          rfl
        · rw [if_neg hempty]
          rfl
  | destroy resId =>
    have hlen : (Message.destroy resId).payload.length = 4 := Bytes.ofWords_length _
    rw [Message.msgType, if_neg (by decide), if_neg (by decide), if_neg (by decide), if_neg (by decide), if_pos rfl,
      readFromPrefix_all hlen]
    simp only [destroy_decode]
    rfl
  | submitCmd body => rfl
  | cursorUpdate body => rfl

/-- A message about a resource fits into a slot. -/
private theorem Message.small_or_ignored (m : Message) :
    m.payload.length ≤ RING2_PSTRIDE.toNat ∨ ∀ t, m.apply t = t := by
  have hstride : RING2_PSTRIDE.toNat = 128 := rfl
  rw [hstride]
  cases m with
  | createBlob resId size =>
    left
    rw [payload, List.length_append, Bytes.ofWords_length, Bytes.ofValue_length]
    simp
  | attachBacking resId addr length =>
    left
    rw [payload, List.length_append, List.length_append, Bytes.ofWords_length, Bytes.ofValue_length,
      Bytes.ofValue_length]
    simp
  | setScanoutBlob resId width height stride =>
    left
    rw [payload, Bytes.ofWords_length]
    simp
  | flush resId rect => exact .inr fun _ => rfl
  | destroy resId =>
    left
    rw [payload, Bytes.ofWords_length]
    simp
  | submitCmd body => exact .inr fun _ => rfl
  | cursorUpdate body => exact .inr fun _ => rfl

/-! ### The ring and the host -/

/-- Where the host stands: between two drains, popping with `n` more allowed, or with the rest of a batch to
execute. -/
inductive Draining where
  | idle
  | popping (n : Nat) (batch : List Descriptor) (highestSeqno : UInt64)
  | executing (rest : List Descriptor) (highestSeqno : UInt64)

/-- The descriptors popped and not yet executed. -/
def Draining.inFlight : Draining → List Descriptor
  | .idle => []
  | .popping _ batch _ => batch
  | .executing rest _ => rest

structure CommandRing where
  ring : Ring ring2Geometry Descriptor
  /-- The payload area, by the offset at which a slot's payload starts. -/
  payloads : UInt32 → List UInt8
  host : Draining
  resources : ResourceTable
  /-- Whether a payload has been written over one that the host had popped and not read. -/
  reused : Bool

inductive HostStep where
  | doorbell
  | pop
  | execute
  | retire

/-- What the host does while the driver is about to push, and before the push returns. -/
structure Pace where
  before : List HostStep
  after : List HostStep

namespace CommandRing

def start : CommandRing where
  ring := ⟨fun _ => ⟨0, 0, 0, 0, 0, 0⟩, .new⟩
  payloads _ := []
  host := .idle
  resources := .new
  reused := false

/-- The payload of a descriptor, as it is found in the area. -/
def payloadOf (r : CommandRing) (d : Descriptor) : List UInt8 := (r.payloads d.dataOffset).take d.len.toNat

def hostStep (r : CommandRing) : HostStep → CommandRing
  | .doorbell =>
    match r.host with
    | .idle => { r with host := .popping ring2Geometry.slots [] 0 }
    | _ => r
  | .pop =>
    match r.host with
    | .popping (n + 1) batch highest =>
      if r.ring.idx.head = r.ring.idx.tail then
        { r with host := .executing batch highest }
      else
        let d := r.ring.slots (ring2Geometry.slotIndex r.ring.idx.head)
        { r with
          ring := r.ring.release
          host := .popping n (batch ++ [d]) (if d.seqno > highest then d.seqno else highest) }
    | .popping 0 batch highest => { r with host := .executing batch highest }
    | _ => r
  | .execute =>
    match r.host with
    | .executing (d :: rest) highest =>
      { r with
        resources := (executeResource d (r.payloadOf d) r.resources).2
        host := .executing rest highest }
    | _ => r
  | .retire =>
    match r.host with
    | .executing [] highest =>
      { r with
        host := .idle
        ring := if highest > 0 then { r.ring with idx := { r.ring.idx with seqnoRetired := highest } } else r.ring }
    | _ => r

def hostSteps (steps : List HostStep) (r : CommandRing) : CommandRing := steps.foldl hostStep r

/-- The ring with one more descriptor published. -/
def publish (d : Descriptor) (r : CommandRing) : CommandRing :=
  let tail := r.ring.idx.tail
  { r with
    ring :=
      { slots := Function.update r.ring.slots (ring2Geometry.slotIndex tail) d
        idx := { r.ring.idx with seqnoSubmit := tail.toUInt64 + 1, tail := tail + 1 } } }

/-- The payload copied to its place. -/
def stage (offset : UInt32) (payload : List UInt8) (r : CommandRing) : CommandRing :=
  { r with
    payloads := Function.update r.payloads offset (Bytes.splice (r.payloads offset) 0 payload)
    reused := r.reused || r.host.inFlight.any fun d => d.dataOffset == offset }

/-- The message in the next slot, and its descriptor published. -/
def send (m : Message) (r : CommandRing) : CommandRing :=
  let d := ring2Push r.ring.idx.tail m.msgType (UInt32.ofNat m.payload.length)
  (r.stage d.dataOffset m.payload).publish d

/-- `igpu_ring2_push`: what it returns, and the ring then. -/
def push (pace : Pace) (m : Message) (r : CommandRing) : UInt32 × CommandRing :=
  let r := r.hostSteps pace.before
  let tail := r.ring.idx.tail
  let head := r.ring.idx.head
  if tail - head ≥ RING2_CAP then
    (0, r)
  else if m.payload.length > RING2_PSTRIDE.toNat then
    (0, r)
  else
    let r := (r.send m).hostSteps pace.after
    (r.ring.idx.seqnoRetired.toUInt32, r)

/-- `igpu_ring2_push_abs` for a `SUBMIT_CMD`, whose message lies elsewhere. -/
def pushAbs (pace : Pace) (payloadDma : UInt64) (payloadLen : UInt32) (r : CommandRing) : UInt32 × CommandRing :=
  let r := r.hostSteps pace.before
  let tail := r.ring.idx.tail
  let head := r.ring.idx.head
  if tail - head ≥ RING2_CAP then
    (r.ring.idx.seqnoRetired.toUInt32, r)
  else
    let r := (r.publish (ring2PushAbs tail MsgType.submitCmd payloadDma payloadLen)).hostSteps pace.after
    (r.ring.idx.seqnoRetired.toUInt32, r)

/-- The descriptors that the host has still to execute, in their order. -/
def outstanding (r : CommandRing) : List Descriptor := r.host.inFlight ++ r.ring.pending

/-- The host's table once everything that is on the ring has been executed. -/
def settled (r : CommandRing) : ResourceTable :=
  r.resources.executeAll (r.outstanding.map fun d => (d, r.payloadOf d))

/-! ### The host at work -/

/-- What a step of the host leaves alone, and the one descriptor that it may have executed. -/
structure Works (r r' : CommandRing) : Prop where
  slots : r'.ring.slots = r.ring.slots
  tail : r'.ring.idx.tail = r.ring.idx.tail
  payloads : r'.payloads = r.payloads
  reused : r'.reused = r.reused
  work : (r'.outstanding = r.outstanding ∧ r'.resources = r.resources) ∨
    ∃ d, r.outstanding = d :: r'.outstanding ∧
      r'.resources = (executeResource d (r.payloadOf d) r.resources).2

private theorem Works.rfl (r : CommandRing) : Works r r :=
  ⟨.refl _, .refl _, .refl _, .refl _, .inl ⟨.refl _, .refl _⟩⟩

theorem hostStep_works (r : CommandRing) (h : HostStep) : Works r (r.hostStep h) := by
  cases h with
  | doorbell =>
    cases hhost : r.host with
    | idle =>
      simp only [hostStep, hhost]
      refine ⟨rfl, rfl, rfl, rfl, .inl ⟨?_, rfl⟩⟩
      simp only [outstanding, hhost, Draining.inFlight]
    | popping n batch highest => simp only [hostStep, hhost, Works.rfl]
    | executing rest highest => simp only [hostStep, hhost, Works.rfl]
  | pop =>
    cases hhost : r.host with
    | idle => simp only [hostStep, hhost, Works.rfl]
    | executing rest highest => simp only [hostStep, hhost, Works.rfl]
    | popping n batch highest =>
      have hstops : Works r { r with host := .executing batch highest } := by
        refine ⟨rfl, rfl, rfl, rfl, .inl ⟨?_, rfl⟩⟩
        simp only [outstanding, hhost, Draining.inFlight]
      cases n with
      | zero =>
        simp only [hostStep, hhost]
        exact hstops
      | succ n =>
        simp only [hostStep, hhost]
        by_cases hempty : r.ring.idx.head = r.ring.idx.tail
        · rw [if_pos hempty]
          exact hstops
        · rw [if_neg hempty]
          -- the oldest pending descriptor becomes the newest one of the batch
          have hpos : 0 < r.ring.len.toNat := Nat.pos_of_ne_zero fun hzero => hempty (Ring.len_eq_zero.1 hzero)
          refine ⟨rfl, rfl, rfl, rfl, .inl ⟨?_, rfl⟩⟩
          simp only [outstanding, hhost, Draining.inFlight, Ring.pending_release hpos, List.append_assoc,
            List.singleton_append]
  | execute =>
    cases hhost : r.host with
    | idle => simp only [hostStep, hhost, Works.rfl]
    | popping n batch highest => simp only [hostStep, hhost, Works.rfl]
    | executing rest highest =>
      cases rest with
      | nil => simp only [hostStep, hhost, Works.rfl]
      | cons d rest =>
        simp only [hostStep, hhost]
        refine ⟨rfl, rfl, rfl, rfl, .inr ⟨d, ?_, rfl⟩⟩
        simp only [outstanding, hhost, Draining.inFlight, List.cons_append]
  | retire =>
    cases hhost : r.host with
    | idle => simp only [hostStep, hhost, Works.rfl]
    | popping n batch highest => simp only [hostStep, hhost, Works.rfl]
    | executing rest highest =>
      cases rest with
      | cons d rest => simp only [hostStep, hhost, Works.rfl]
      | nil =>
        simp only [hostStep, hhost]
        by_cases hzero : highest > 0
        · rw [if_pos hzero]
          refine ⟨rfl, rfl, rfl, rfl, .inl ⟨?_, rfl⟩⟩
          simp only [outstanding, hhost, Draining.inFlight]
          rfl
        · rw [if_neg hzero]
          refine ⟨rfl, rfl, rfl, rfl, .inl ⟨?_, rfl⟩⟩
          simp only [outstanding, hhost, Draining.inFlight]

/-- The host moves towards the settled table. -/
theorem Works.settled {r r' : CommandRing} (h : Works r r') : r'.settled = r.settled := by
  have hpayload : ∀ d, r'.payloadOf d = r.payloadOf d := by
    intro d
    rw [payloadOf, payloadOf, h.payloads]
  unfold CommandRing.settled
  simp only [hpayload]
  rcases h.work with ⟨houtstanding, hresources⟩ | ⟨d, houtstanding, hresources⟩
  · rw [houtstanding, hresources]
  · rw [houtstanding, hresources, List.map_cons, ResourceTable.executeAll_cons]

/-- What the host leaves alone however long it works. -/
structure Rests (r r' : CommandRing) : Prop where
  slots : r'.ring.slots = r.ring.slots
  tail : r'.ring.idx.tail = r.ring.idx.tail
  payloads : r'.payloads = r.payloads
  reused : r'.reused = r.reused
  settled : r'.settled = r.settled

theorem hostSteps_rests (steps : List HostStep) (r : CommandRing) : Rests r (r.hostSteps steps) := by
  induction steps generalizing r with
  | nil => exact ⟨rfl, rfl, rfl, rfl, rfl⟩
  | cons h steps ih =>
    have hworks := hostStep_works r h
    have hrest := ih (r.hostStep h)
    exact ⟨hrest.slots.trans hworks.slots, hrest.tail.trans hworks.tail, hrest.payloads.trans hworks.payloads,
      hrest.reused.trans hworks.reused, hrest.settled.trans hworks.settled⟩

/-- A host that has nothing left to execute has the settled table. -/
theorem settled_of_drained {r : CommandRing} {steps : List HostStep} (h : (r.hostSteps steps).outstanding = []) :
    (r.hostSteps steps).resources = r.settled := by
  rw [← (hostSteps_rests steps r).settled, settled, h]
  rfl

/-! ### A push -/

/-- The payload of slot `i` starts here. -/
def slotOffset (i : Fin ring2Geometry.slots) : UInt32 := RING2_CAP * 32 + UInt32.ofNat i.val * RING2_PSTRIDE

/-- The descriptor in a slot has its payload in the area of that slot, or elsewhere. -/
def Laid (r : CommandRing) : Prop :=
  ∀ i, (r.ring.slots i).dataOffset = slotOffset i ∨ (r.ring.slots i).dataOffset = 0

theorem laid_start : start.Laid := fun _ => .inr rfl

private theorem slotOffset_inj {i j : Fin ring2Geometry.slots} (h : slotOffset i = slotOffset j) : i = j := by
  revert i j
  decide

private theorem slotOffset_ne_zero (i : Fin ring2Geometry.slots) : slotOffset i ≠ 0 := by
  revert i
  decide

private theorem ring2Push_dataOffset (tail msgType payloadLen : UInt32) :
    (ring2Push tail msgType payloadLen).dataOffset = slotOffset (ring2Geometry.slotIndex tail) := by
  have hslot : UInt32.ofNat (ring2Geometry.slotIndex tail).val = tail &&& (RING2_CAP - 1) := by
    show UInt32.ofNat (tail &&& ring2Geometry.mask).toNat = _
    rw [UInt32.ofNat_toNat]
    rfl
  rw [slotOffset, hslot]
  rfl

/-- Whether the ring takes another descriptor when the driver looks. -/
def HasRoom (pace : Pace) (r : CommandRing) : Prop := (r.hostSteps pace.before).ring.len.toNat < RING2_CAP.toNat

instance (pace : Pace) (r : CommandRing) : Decidable (r.HasRoom pace) := inferInstanceAs (Decidable (_ < _))

/-- A descriptor that is published is the newest one outstanding. -/
private theorem publish_outstanding {r : CommandRing} (d : Descriptor) (h : r.ring.len.toNat < RING2_CAP.toNat) :
    (r.publish d).outstanding = r.outstanding ++ [d] := by
  -- the slot alone, before the descriptor is published
  let written : Ring ring2Geometry Descriptor :=
    { slots := Function.update r.ring.slots (ring2Geometry.slotIndex r.ring.idx.tail) d
      idx := { r.ring.idx with seqnoSubmit := r.ring.idx.tail.toUInt64 + 1 } }
  have hkeeps : r.ring.KeepsEntries written :=
    ⟨rfl, rfl, fun j hj => Function.update_of_ne (Ring.slotIndex_tail_ne h hj) _ _⟩
  have hlen : written.len.toNat < ring2Geometry.slots := by
    rw [hkeeps.len]
    exact h
  show r.host.inFlight ++ written.publish.pending = _
  rw [Ring.publish_pending hlen, hkeeps.pending, ← List.append_assoc]
  show _ ++ [Function.update r.ring.slots (ring2Geometry.slotIndex r.ring.idx.tail) d _] = _
  rw [Function.update_self]
  rfl

/-- What is pending has its payload in other slots than the next one. -/
private theorem Laid.pending_ne {r : CommandRing} (hl : r.Laid) (h : r.ring.len.toNat < RING2_CAP.toNat)
    {d : Descriptor} (hd : d ∈ r.ring.pending) :
    d.dataOffset ≠ slotOffset (ring2Geometry.slotIndex r.ring.idx.tail) := by
  obtain ⟨j, hj, rfl⟩ := List.mem_map.1 hd
  have hne := Ring.slotIndex_tail_ne h (List.mem_range.1 hj)
  intro heq
  rcases hl (ring2Geometry.slotIndex (r.ring.idx.head + UInt32.ofNat j)) with hoffset | hzero
  · exact hne (slotOffset_inj (hoffset.symm.trans heq))
  · exact slotOffset_ne_zero _ (heq.symm.trans hzero)

private theorem Laid.publish {r : CommandRing} (hl : r.Laid) {d : Descriptor}
    (hd : d.dataOffset = slotOffset (ring2Geometry.slotIndex r.ring.idx.tail) ∨ d.dataOffset = 0) :
    (r.publish d).Laid := by
  intro i
  have hslots : (r.publish d).ring.slots i =
      Function.update r.ring.slots (ring2Geometry.slotIndex r.ring.idx.tail) d i := rfl
  rw [hslots]
  by_cases hi : i = ring2Geometry.slotIndex r.ring.idx.tail
  · subst hi
    rw [Function.update_self]
    exact hd
  · rw [Function.update_of_ne hi]
    exact hl i

theorem Rests.laid {r r' : CommandRing} (h : Rests r r') (hl : r.Laid) : r'.Laid := by
  unfold Laid
  rw [h.slots]
  exact hl

/-- The room that a push finds is room in the ring. -/
private theorem HasRoom.not_full {pace : Pace} {r : CommandRing} (h : r.HasRoom pace) :
    ¬ (r.hostSteps pace.before).ring.idx.tail - (r.hostSteps pace.before).ring.idx.head ≥ RING2_CAP := by
  rw [ge_iff_le, UInt32.le_iff_toNat_le]
  exact Nat.not_le.2 h

private theorem full_of_not_hasRoom {pace : Pace} {r : CommandRing} (h : ¬ r.HasRoom pace) :
    (r.hostSteps pace.before).ring.idx.tail - (r.hostSteps pace.before).ring.idx.head ≥ RING2_CAP := by
  rw [ge_iff_le, UInt32.le_iff_toNat_le]
  exact Nat.not_lt.1 h

/-- The last payload staged at an offset is what is read there. -/
private theorem payloadOf_staged {r : CommandRing} {d : Descriptor} {payload : List UInt8}
    (h : d.len.toNat = payload.length) :
    (r.stage d.dataOffset payload).payloadOf d = payload := by
  show (Function.update r.payloads d.dataOffset _ _).take _ = _
  rw [Function.update_self, h, Bytes.splice, List.take_zero, List.nil_append, List.take_left]

/-- A payload staged at another offset is not seen. -/
private theorem payloadOf_staged_ne {r : CommandRing} {d : Descriptor} {offset : UInt32} (payload : List UInt8)
    (h : d.dataOffset ≠ offset) : (r.stage offset payload).payloadOf d = r.payloadOf d := by
  show (Function.update r.payloads offset _ _).take _ = _
  rw [Function.update_of_ne h]
  rfl

/-- What a push has done to the ring, by whether it found room. -/
structure Pushed (pace : Pace) (m : Message) (r r' : CommandRing) : Prop where
  laid : r'.Laid
  settled : r'.settled = if r.HasRoom pace then m.apply r.settled else r.settled

/-- What a message that is sent does, unless it is written over a payload that is still to be read. -/
private theorem send_settled {m : Message} {r : CommandRing} (hl : r.Laid)
    (hroom : r.ring.len.toNat < RING2_CAP.toNat) (hsmall : m.payload.length ≤ RING2_PSTRIDE.toNat)
    (h : (r.send m).reused = false) :
    (r.send m).Laid ∧ (r.send m).settled = m.apply r.settled := by
  have hoffset := ring2Push_dataOffset r.ring.idx.tail m.msgType (UInt32.ofNat m.payload.length)
  have htype : (ring2Push r.ring.idx.tail m.msgType (UInt32.ofNat m.payload.length)).msgType = m.msgType := rfl
  have hlen : (ring2Push r.ring.idx.tail m.msgType (UInt32.ofNat m.payload.length)).len.toNat = m.payload.length := by
    have hstride : RING2_PSTRIDE.toNat = 128 := rfl
    show (UInt32.ofNat m.payload.length).toNat = _
    rw [UInt32.toNat_ofNat', Nat.mod_eq_of_lt (by omega)]
  unfold send at h ⊢
  generalize ring2Push r.ring.idx.tail m.msgType (UInt32.ofNat m.payload.length) = d at hoffset htype hlen h ⊢
  have hfree := (Bool.or_eq_false_iff.1 h).2
  rw [List.any_eq_false] at hfree
  refine ⟨Laid.publish (r := r.stage d.dataOffset m.payload) hl (.inl hoffset), ?_⟩
  -- the older descriptors are executed with the payloads they were sent with
  have hold : ∀ d' ∈ r.outstanding, (d', (r.stage d.dataOffset m.payload).payloadOf d') = (d', r.payloadOf d') := by
    intro d' hd'
    rw [payloadOf_staged_ne]
    rcases List.mem_append.1 hd' with hd' | hd'
    · exact fun heq => hfree d' hd' (beq_iff_eq.2 heq)
    · rw [hoffset]
      exact hl.pending_ne hroom hd'
  have houtstanding : ((r.stage d.dataOffset m.payload).publish d).outstanding = r.outstanding ++ [d] :=
    publish_outstanding (r := r.stage d.dataOffset m.payload) d hroom
  rw [settled, houtstanding, List.map_append, ResourceTable.executeAll_append, List.map_singleton]
  have hmap : r.outstanding.map (fun d' => (d', ((r.stage d.dataOffset m.payload).publish d).payloadOf d')) =
      r.outstanding.map fun d' => (d', r.payloadOf d') := List.map_congr_left hold
  have hnew : ((r.stage d.dataOffset m.payload).publish d).payloadOf d = m.payload := payloadOf_staged hlen
  rw [hmap, hnew]
  exact executeResource_message m htype _

/-- A push adds its message to what the host's table will be, unless it writes over a payload that is still to be
read. -/
theorem push_pushed {pace : Pace} {m : Message} {r : CommandRing} (hl : r.Laid)
    (h : (r.push pace m).2.reused = false) : Pushed pace m r (r.push pace m).2 := by
  have hbefore := hostSteps_rests pace.before r
  have hl₀ := hbefore.laid hl
  by_cases hroom : r.HasRoom pace
  · by_cases hlarge : m.payload.length > RING2_PSTRIDE.toNat
    · -- only a message that the table ignores can be too large for a slot
      have hidle := m.small_or_ignored.resolve_left (Nat.not_le.2 hlarge) r.settled
      simp only [push, if_neg hroom.not_full, if_pos hlarge] at h ⊢
      exact ⟨hl₀, by rw [if_pos hroom, hbefore.settled, hidle]⟩
    · simp only [push, if_neg hroom.not_full, if_neg hlarge] at h ⊢
      have hafter := hostSteps_rests pace.after ((r.hostSteps pace.before).send m)
      obtain ⟨hl₁, hsettled⟩ := send_settled hl₀ hroom (Nat.not_lt.1 hlarge) (hafter.reused ▸ h)
      refine ⟨hafter.laid hl₁, ?_⟩
      rw [if_pos hroom, hafter.settled, hsettled, hbefore.settled]
  · simp only [push, if_pos (full_of_not_hasRoom hroom)] at h ⊢
    exact ⟨hl₀, by rw [if_neg hroom, hbefore.settled]⟩

/-- A payload that is written over stays written over. -/
theorem reused_of_push {pace : Pace} {m : Message} {r : CommandRing} (h : (r.push pace m).2.reused = false) :
    r.reused = false := by
  rw [← (hostSteps_rests pace.before r).reused]
  by_cases hroom : r.HasRoom pace
  · by_cases hlarge : m.payload.length > RING2_PSTRIDE.toNat
    · simpa only [push, if_neg hroom.not_full, if_pos hlarge] using h
    · simp only [push, if_neg hroom.not_full, if_neg hlarge, (hostSteps_rests pace.after _).reused] at h
      exact (Bool.or_eq_false_iff.1 h).1
  · simpa only [push, if_pos (full_of_not_hasRoom hroom)] using h

/-- The ring has room, and by the time the driver looks the low half of the retired word is not zero. -/
def Answers (pace : Pace) (m : Message) (r : CommandRing) : Prop :=
  r.HasRoom pace ∧ (((r.hostSteps pace.before).send m).hostSteps pace.after).ring.idx.seqnoRetired.toUInt32 ≠ 0

instance (pace : Pace) (m : Message) (r : CommandRing) : Decidable (r.Answers pace m) :=
  inferInstanceAs (Decidable (_ ∧ _))

/-- The driver takes a push for failed exactly when it is not answered. -/
theorem push_eq_zero {pace : Pace} {m : Message} {r : CommandRing} (hsmall : m.payload.length ≤ RING2_PSTRIDE.toNat) :
    (r.push pace m).1 = 0 ↔ ¬ r.Answers pace m := by
  by_cases hroom : r.HasRoom pace
  · rw [Answers, and_iff_right hroom, not_not]
    simp only [push, if_neg hroom.not_full, if_neg (Nat.not_lt.2 hsmall)]
  · rw [Answers]
    simp only [push, if_pos (full_of_not_hasRoom hroom), hroom, false_and, not_false_eq_true]

theorem pushAbs_reused (pace : Pace) (payloadDma : UInt64) (payloadLen : UInt32) (r : CommandRing) :
    (r.pushAbs pace payloadDma payloadLen).2.reused = r.reused := by
  have hbefore := hostSteps_rests pace.before r
  by_cases hroom : r.HasRoom pace
  · simp only [pushAbs, if_neg hroom.not_full, (hostSteps_rests pace.after _).reused]
    exact hbefore.reused
  · simp only [pushAbs, if_pos (full_of_not_hasRoom hroom)]
    exact hbefore.reused

/-- A submission that lies elsewhere leaves the resources alone. -/
theorem pushAbs_settled {pace : Pace} {payloadDma : UInt64} {payloadLen : UInt32} {r : CommandRing} (hl : r.Laid) :
    (r.pushAbs pace payloadDma payloadLen).2.Laid ∧
      (r.pushAbs pace payloadDma payloadLen).2.settled = r.settled := by
  have hbefore := hostSteps_rests pace.before r
  have hl₀ := hbefore.laid hl
  by_cases hroom : r.HasRoom pace
  · simp only [pushAbs, if_neg hroom.not_full]
    have hlen : (r.hostSteps pace.before).ring.len.toNat < RING2_CAP.toNat := hroom
    generalize r.hostSteps pace.before = r₀ at hbefore hl₀ hlen ⊢
    have hafter := hostSteps_rests pace.after
      (r₀.publish (ring2PushAbs r₀.ring.idx.tail MsgType.submitCmd payloadDma payloadLen))
    refine ⟨hafter.laid (hl₀.publish (.inr rfl)), ?_⟩
    rw [hafter.settled, ← hbefore.settled, settled, publish_outstanding _ hlen, List.map_append,
      ResourceTable.executeAll_append, List.map_singleton]
    exact executeResource_message (.submitCmd _) rfl _
  · simp only [pushAbs, if_pos (full_of_not_hasRoom hroom)]
    exact ⟨hl₀, hbefore.settled⟩

end CommandRing

end Infinigpu.Kmd
