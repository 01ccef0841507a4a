import Infinigpu.Guest.Display

/-!
# Framebuffers as host resources (`guest/linux`, `igpu_resource_register` and `igpu_flush_resource`)

A flip registers its framebuffer with the host if the cache of registrations does not have it: create, attach, bind,
and, when the slot of the cache is taken, the destruction of what was there.  Then it points the scanout head at the
buffer and flushes it.

* `IgpuDisplay`, `resourceRegister`, `flushResource`: the driver's state and a flip;
* `ResourceTable.head`, `Alive`: what the host's table says of the scanout head and of an id, and what each message
  does to it (`createBlob_spec` and the like);
* `Registering`: the rings that the pushes of a registration find (`resourceRegister_new`).
-/

namespace Infinigpu

/-! ### What the table says -/

namespace ResourceTable

/-- The resource that head 0 is bound to. -/
def head (t : ResourceTable) : Option UInt32 := (t.scanouts.lookup 0).map ScanoutBinding.resId

def Alive (resId : UInt32) (t : ResourceTable) : Prop := (t.resources.lookup resId).isSome

instance (resId : UInt32) (t : ResourceTable) : Decidable (t.Alive resId) := inferInstanceAs (Decidable (_ = true))

/-- The table has room for a blob of that size. -/
def Creates (size : UInt64) (t : ResourceTable) : Prop :=
  t.resources.entries.length < MAX_RESOURCES ∧ size ≠ 0 ∧ size ≤ MAX_BLOB_BYTES

instance (size : UInt64) (t : ResourceTable) : Decidable (t.Creates size) := inferInstanceAs (Decidable (_ ∧ _ ∧ _))

/-- Dimensions that a head is bound with. -/
def Bindable (width height stride : UInt32) : Prop :=
  width ≠ 0 ∧ height ≠ 0 ∧ width ≤ MAX_DIM ∧ height ≤ MAX_DIM ∧ width.toNat * 4 ≤ stride.toNat

instance (width height stride : UInt32) : Decidable (Bindable width height stride) :=
  inferInstanceAs (Decidable (_ ∧ _ ∧ _ ∧ _ ∧ _))

variable {t : ResourceTable}

/-- A new blob is there if the table takes it, and has no backing yet. -/
theorem createBlob_spec {resId : UInt32} (size : UInt64) (hfresh : t.resources.lookup resId = none) :
    (t.createBlob resId 1 size).2.scanouts = t.scanouts ∧
      (∀ id ≠ resId, (t.createBlob resId 1 size).2.resources.lookup id = t.resources.lookup id) ∧
      (t.createBlob resId 1 size).2.resources.lookup resId =
        if t.Creates size then some { resId, blobMem := 1, size, backing := [] } else none := by
  have hknown : ¬ (t.resources.lookup resId).isSome := by rw [hfresh]; decide
  by_cases hfull : t.resources.entries.length ≥ MAX_RESOURCES
  · rw [createBlob, if_pos hfull, if_neg fun h => Nat.not_le.2 h.1 hfull]
    exact ⟨rfl, fun _ _ => rfl, hfresh⟩
  by_cases hsize : size = 0 ∨ size > MAX_BLOB_BYTES
  · have hrefused : ¬ t.Creates size := by
      rintro ⟨-, hne, hle⟩
      rcases hsize with hzero | hlarge
      · exact hne hzero
      · exact UInt64.not_le.2 hlarge hle
    rw [createBlob, if_neg hfull, if_pos hsize, if_neg hrefused]
    exact ⟨rfl, fun _ _ => rfl, hfresh⟩
  · rw [createBlob, if_neg hfull, if_neg hsize, if_neg hknown]
    rw [not_or, gt_iff_lt, UInt64.not_lt] at hsize
    rw [if_pos ⟨Nat.not_le.1 hfull, hsize.1, hsize.2⟩]
    exact ⟨rfl, fun id hid => AList.lookup_insert_ne hid, AList.lookup_insert _⟩

/-- A segment becomes the backing of a blob that it covers. -/
private theorem attachBacking_spec (resId : UInt32) (addr length : UInt64) :
    (t.attachBacking resId [{ addr, len := length }]).2.scanouts = t.scanouts ∧
      (∀ id ≠ resId, (t.attachBacking resId [{ addr, len := length }]).2.resources.lookup id =
      t.resources.lookup id) ∧
      (t.attachBacking resId [{ addr, len := length }]).2.resources.lookup resId =
        (t.resources.lookup resId).map fun r =>
          if length < r.size then r else { r with backing := [{ addr, len := length }] } := by
  have htotal : checkedTotal [{ addr, len := length }] 0 = some length := by
    have hlt : (0 : UInt64).toNat + length.toNat < 2 ^ 64 := by
      have hlength := length.toNat_lt
      have hzero : (0 : UInt64).toNat = 0 := rfl
      omega
    rw [checkedTotal, if_pos hlt, checkedTotal, UInt64.zero_add]
  cases hres : t.resources.lookup resId with
  | none =>
    simp only [attachBacking, hres]
    exact ⟨trivial, fun _ _ => trivial, rfl⟩
  | some r =>
    simp only [attachBacking, hres, htotal]
    by_cases hshort : length < r.size
    · rw [if_pos hshort]
      refine ⟨rfl, fun _ _ => rfl, ?_⟩
      rw [hres, Option.map_some, if_pos hshort]
    · rw [if_neg hshort]
      refine ⟨rfl, fun id hid => AList.lookup_insert_ne hid, ?_⟩
      rw [AList.lookup_insert, Option.map_some, if_neg hshort]

/-- The head moves to a resource that is there, with dimensions that are accepted. -/
theorem setScanout_spec (resId width height format stride : UInt32) :
    (t.setScanout 0 resId width height format stride).2.resources = t.resources ∧
      (t.setScanout 0 resId width height format stride).2.head =
        if t.Alive resId ∧ Bindable width height stride then some resId else t.head := by
  have hrow : stride.toUInt64 < width.toUInt64 * 4 ↔ stride.toNat < width.toNat * 4 := by
    have hlt := width.toNat_lt
    have hfour : (4 : UInt64).toNat = 4 := rfl
    rw [UInt64.lt_iff_toNat_lt, UInt64.toNat_mul, UInt32.toNat_toUInt64, UInt32.toNat_toUInt64, hfour]
    omega
  by_cases hunknown : (t.resources.lookup resId).isNone
  · have hdead : ¬ t.Alive resId := by
      rw [Alive, Option.isNone_iff_eq_none.1 hunknown]
      decide
    rw [setScanout, if_pos hunknown, if_neg fun h => hdead h.1]
    exact ⟨rfl, rfl⟩
  by_cases hdims : width = 0 ∨ height = 0 ∨ width > MAX_DIM ∨ height > MAX_DIM
  · have hrefused : ¬ Bindable width height stride := by
      rintro ⟨hwidth, hheight, hwide, hhigh, -⟩
      rcases hdims with h | h | h | h
      · exact hwidth h
      · exact hheight h
      · exact UInt32.not_le.2 h hwide
      · exact UInt32.not_le.2 h hhigh
    rw [setScanout, if_neg hunknown, if_pos hdims, if_neg fun h => hrefused h.2]
    exact ⟨rfl, rfl⟩
  by_cases hshort : stride.toUInt64 < width.toUInt64 * 4
  · have hrefused : ¬ Bindable width height stride := fun h => Nat.not_lt.2 h.2.2.2.2 (hrow.1 hshort)
    rw [setScanout, if_neg hunknown, if_neg hdims, if_pos hshort, if_neg fun h => hrefused h.2]
    exact ⟨rfl, rfl⟩
  · have halive : t.Alive resId := by
      rw [Alive, ← Option.not_isNone, Bool.not_eq_true']
      exact Bool.eq_false_iff.2 hunknown
    have hlegal := hdims
    simp only [not_or, gt_iff_lt, UInt32.not_lt] at hlegal
    have hbindable : Bindable width height stride :=
      ⟨hlegal.1, hlegal.2.1, hlegal.2.2.1, hlegal.2.2.2, Nat.not_lt.1 fun h => hshort (hrow.2 h)⟩
    rw [if_pos ⟨halive, hbindable⟩, setScanout, if_neg hunknown, if_neg hdims, if_neg hshort]
    refine ⟨rfl, ?_⟩
    rw [head, AList.lookup_insert]
    rfl

/-- A binding that is not dropped is still there. -/
private theorem lookup_retain_of {p : ScanoutBinding → Bool} {scanouts : AList fun _ : UInt32 => ScanoutBinding}
    {sid : UInt32} {b : ScanoutBinding} (h : scanouts.lookup sid = some b) (hb : p b = true) :
    (retain p scanouts).lookup sid = some b :=
  AList.mem_lookup_iff.2 (List.mem_filter.2 ⟨AList.mem_lookup_iff.1 h, hb⟩)

/-- A resource goes, and a head that was bound to it with it. -/
theorem destroy_spec (resId : UInt32) :
    (∀ id ≠ resId, (t.destroy resId).2.resources.lookup id = t.resources.lookup id) ∧
      (t.destroy resId).2.resources.lookup resId = none ∧
      (∀ id, (t.destroy resId).2.head = some id → t.head = some id) ∧
      ∀ id ≠ resId, t.head = some id → (t.destroy resId).2.head = some id := by
  by_cases hunknown : (t.resources.lookup resId).isNone
  · rw [destroy, if_pos hunknown]
    exact ⟨fun _ _ => rfl, Option.isNone_iff_eq_none.1 hunknown, fun _ h => h, fun _ _ h => h⟩
  · rw [destroy, if_neg hunknown]
    refine ⟨fun id hid => AList.lookup_erase_ne hid, AList.lookup_erase _ _, fun id h => ?_, fun id hid h => ?_⟩
    · obtain ⟨b, hb, hbound⟩ := Option.map_eq_some_iff.1 h
      exact Option.map_eq_some_iff.2 ⟨b, (lookup_retain hb).1, hbound⟩
    · obtain ⟨b, hb, rfl⟩ := Option.map_eq_some_iff.1 h
      exact Option.map_eq_some_iff.2 ⟨b, lookup_retain_of hb (bne_iff_ne.2 hid), rfl⟩

end ResourceTable

/-! ### The driver -/

namespace Kmd

abbrev FBCACHE : Nat := 4

structure Framebuffer where
  addr : UInt64
  width : UInt32
  height : UInt32
  pitch : UInt32
deriving DecidableEq, Repr

namespace Framebuffer

def size (fb : Framebuffer) : UInt64 := fb.pitch.toUInt64 * fb.height.toUInt64

def create (fb : Framebuffer) (resId : UInt32) : Message := .createBlob resId fb.size

def attach (fb : Framebuffer) (resId : UInt32) : Message := .attachBacking resId fb.addr fb.size

def bind (fb : Framebuffer) (resId : UInt32) : Message := .setScanoutBlob resId fb.width fb.height fb.pitch

end Framebuffer

/-- A registration that is kept. -/
structure FbEntry where
  addr : UInt64
  resId : UInt32
  w : UInt32
  h : UInt32
  pitch : UInt32
deriving DecidableEq, Repr

def FbEntry.isFor (e : FbEntry) (fb : Framebuffer) : Bool :=
  e.addr = fb.addr && e.pitch = fb.pitch && e.h = fb.height && e.w = fb.width

/-- How the host keeps up with each push of a flip. -/
structure FlipPace where
  create : Pace
  attach : Pace
  bind : Pace
  evict : Pace
  rebind : Pace
  flush : Pace

/-- What the driver knows of the display, with what it shares with the host. -/
structure IgpuDisplay where
  nextResId : UInt32
  scanoutResId : UInt32
  fbcache : Fin FBCACHE → Option FbEntry
  fbcacheNext : Fin FBCACHE
  ring : CommandRing
  /-- How many ids have been given out. -/
  drawn : Nat
  /-- The ids of the registrations that have reported failure. -/
  failed : List UInt32

namespace IgpuDisplay

def start : IgpuDisplay where
  nextResId := 0
  scanoutResId := 0
  fbcache _ := none
  fbcacheNext := 0
  ring := .start
  drawn := 0
  failed := []

def push (pace : Pace) (m : Message) (s : IgpuDisplay) : UInt32 × IgpuDisplay :=
  let (seqno, ring) := s.ring.push pace m
  (seqno, { s with ring })

/-- The id under which a framebuffer is registered. -/
def cached (fb : Framebuffer) (s : IgpuDisplay) : Option UInt32 :=
  (List.finRange FBCACHE).findSome? fun i => ((s.fbcache i).filter (·.isFor fb)).map FbEntry.resId

/-- The eviction of what is in the next slot of the cache, and the new entry in its place. -/
def remember (fb : Framebuffer) (resId : UInt32) (pace : Pace) (s : IgpuDisplay) : IgpuDisplay :=
  let i := s.fbcacheNext
  let s :=
    match s.fbcache i with
    | none => s
    | some old =>
      let s := if old.resId = s.scanoutResId then { s with scanoutResId := 0 } else s
      (s.push pace (.destroy old.resId)).2
  { s with
    fbcache := Function.update s.fbcache i
      (some { addr := fb.addr, resId, w := fb.width, h := fb.height, pitch := fb.pitch })
    fbcacheNext := i + 1 }

def fails (resId : UInt32) (s : IgpuDisplay) : UInt32 × IgpuDisplay := (0, { s with failed := resId :: s.failed })

/-- `igpu_resource_register`: the id, or zero. -/
def resourceRegister (fb : Framebuffer) (pace : FlipPace) (s : IgpuDisplay) : UInt32 × IgpuDisplay :=
  match s.cached fb with
  | some resId => (resId, s)
  | none =>
    let resId := s.nextResId + 1
    let s := { s with nextResId := resId, drawn := s.drawn + 1 }
    let (seqno, s) := s.push pace.create (fb.create resId)
    if seqno = 0 then
      s.fails resId
    else
      let (seqno, s) := s.push pace.attach (fb.attach resId)
      if seqno = 0 then
        s.fails resId
      else
        let (seqno, s) := s.push pace.bind (fb.bind resId)
        if seqno = 0 then
          s.fails resId
        else
          (resId, remember fb resId pace.evict { s with scanoutResId := resId })

/-- `igpu_flush_resource`: whether the framebuffer was registered. -/
def flushResource (fb : Framebuffer) (rect : Rect) (pace : FlipPace) (s : IgpuDisplay) : Bool × IgpuDisplay :=
  let (resId, s) := s.resourceRegister fb pace
  if resId = 0 then
    (false, s)
  else
    let s := if resId = s.scanoutResId then s
      else { (s.push pace.rebind (fb.bind resId)).2 with scanoutResId := resId }
    (true, (s.push pace.flush (.flush resId rect)).2)

inductive Action where
  | flip (fb : Framebuffer) (rect : Rect) (pace : FlipPace)
  /-- The other users of the ring. -/
  | submit (pace : Pace) (body : List UInt8)
  | submitAbs (pace : Pace) (payloadDma : UInt64) (payloadLen : UInt32)
  | cursor (pace : Pace) (body : List UInt8)
  | host (h : HostStep)

def step (s : IgpuDisplay) : Action → Option IgpuDisplay
  | .flip fb rect pace => some (s.flushResource fb rect pace).2
  | .submit pace body => some (s.push pace (.submitCmd body)).2
  | .submitAbs pace payloadDma payloadLen => some { s with ring := (s.ring.pushAbs pace payloadDma payloadLen).2 }
  | .cursor pace body => some (s.push pace (.cursorUpdate body)).2
  | .host h => some { s with ring := s.ring.hostStep h }

/-! ### A registration, push by push -/

variable (fb : Framebuffer) (pace : FlipPace) (s : IgpuDisplay)

/-- The ring after each of the three pushes, as long as the driver gets that far. -/
def afterCreate : CommandRing := (s.ring.push pace.create (fb.create (s.nextResId + 1))).2

def afterAttach : CommandRing := ((s.afterCreate fb pace).push pace.attach (fb.attach (s.nextResId + 1))).2

def afterBind : CommandRing := ((s.afterAttach fb pace).push pace.bind (fb.bind (s.nextResId + 1))).2

/-- The driver gets as far as binding the head. -/
def Attaches : Prop :=
  s.ring.Answers pace.create (fb.create (s.nextResId + 1)) ∧
    (s.afterCreate fb pace).Answers pace.attach (fb.attach (s.nextResId + 1))

/-- The registration is completed. -/
def Completes : Prop :=
  s.Attaches fb pace ∧ (s.afterAttach fb pace).Answers pace.bind (fb.bind (s.nextResId + 1))

instance : Decidable (s.Attaches fb pace) := inferInstanceAs (Decidable (_ ∧ _))

instance : Decidable (s.Completes fb pace) := inferInstanceAs (Decidable (_ ∧ _))

/-- The ring when the registration is completed or given up. -/
def lastRing : CommandRing :=
  if ¬ s.ring.Answers pace.create (fb.create (s.nextResId + 1)) then
    s.afterCreate fb pace
  else if ¬ (s.afterCreate fb pace).Answers pace.attach (fb.attach (s.nextResId + 1)) then
    s.afterAttach fb pace
  else
    s.afterBind fb pace

variable {fb pace s}

private theorem create_small (fb : Framebuffer) (resId : UInt32) :
    (fb.create resId).payload.length ≤ RING2_PSTRIDE.toNat := by
  rw [Framebuffer.create, Message.payload, List.length_append, Bytes.ofWords_length, Bytes.ofValue_length]
  exact Nat.le_of_ble_eq_true rfl

private theorem attach_small (fb : Framebuffer) (resId : UInt32) :
    (fb.attach resId).payload.length ≤ RING2_PSTRIDE.toNat := by
  rw [Framebuffer.attach, Message.payload, List.length_append, List.length_append, Bytes.ofWords_length,
    Bytes.ofValue_length, Bytes.ofValue_length]
  exact Nat.le_of_ble_eq_true rfl

private theorem bind_small (fb : Framebuffer) (resId : UInt32) :
    (fb.bind resId).payload.length ≤ RING2_PSTRIDE.toNat := by
  rw [Framebuffer.bind, Message.payload, Bytes.ofWords_length]
  exact Nat.le_of_ble_eq_true rfl

theorem resourceRegister_new (h : s.cached fb = none) :
    s.resourceRegister fb pace =
      if s.Completes fb pace then
        (s.nextResId + 1, remember fb (s.nextResId + 1) pace.evict
          { s with
            nextResId := s.nextResId + 1
            drawn := s.drawn + 1
            ring := s.lastRing fb pace
            scanoutResId := s.nextResId + 1 })
      else
        (0,
          { s with
            nextResId := s.nextResId + 1
            drawn := s.drawn + 1
            ring := s.lastRing fb pace
            failed := (s.nextResId + 1) :: s.failed }) := by
  have hcreate : (s.ring.push pace.create (fb.create (s.nextResId + 1))).1 = 0 ↔ _ :=
    CommandRing.push_eq_zero (create_small fb (s.nextResId + 1))
  have hattach : ((s.afterCreate fb pace).push pace.attach (fb.attach (s.nextResId + 1))).1 = 0 ↔ _ :=
    CommandRing.push_eq_zero (attach_small fb (s.nextResId + 1))
  have hbind : ((s.afterAttach fb pace).push pace.bind (fb.bind (s.nextResId + 1))).1 = 0 ↔ _ :=
    CommandRing.push_eq_zero (bind_small fb (s.nextResId + 1))
  unfold afterAttach at hbind
  unfold afterCreate at hattach hbind
  simp only [resourceRegister, h, push, hcreate, hattach, hbind, lastRing, Completes, Attaches, afterBind,
    afterAttach, afterCreate]
  by_cases hc : s.ring.Answers pace.create (fb.create (s.nextResId + 1))
  · simp only [hc, not_true, if_false, true_and]
    by_cases ha : (s.afterCreate fb pace).Answers pace.attach (fb.attach (s.nextResId + 1))
    · unfold afterCreate at ha
      simp only [ha, not_true, if_false, true_and]
      by_cases hb : (s.afterAttach fb pace).Answers pace.bind (fb.bind (s.nextResId + 1))
      · unfold afterAttach afterCreate at hb
        simp only [hb, not_true, if_false, if_true]
      · unfold afterAttach afterCreate at hb
        simp only [hb, not_false_eq_true, if_true, if_false, fails]
    · unfold afterCreate at ha
      simp only [ha, not_false_eq_true, if_true, false_and, if_false, fails]
  · simp only [hc, not_false_eq_true, if_true, false_and, if_false, fails]

/-- The host takes the framebuffer and shows it. -/
def Accepts (fb : Framebuffer) (t : ResourceTable) : Prop :=
  t.Creates fb.size ∧ ResourceTable.Bindable fb.width fb.height fb.pitch

instance (fb : Framebuffer) (t : ResourceTable) : Decidable (Accepts fb t) := inferInstanceAs (Decidable (_ ∧ _))

/-- The table when a new blob is there, with or without its backing. -/
structure Grown (resId : UInt32) (size : UInt64) (t t' : ResourceTable) : Prop where
  others : ∀ id ≠ resId, t'.resources.lookup id = t.resources.lookup id
  alive : t'.Alive resId ↔ t.Creates size
  head : t'.head = t.head

private theorem head_congr {t t' : ResourceTable} (h : t'.scanouts = t.scanouts) : t'.head = t.head := by
  rw [ResourceTable.head, ResourceTable.head, h]

private theorem grown_create {resId : UInt32} {t : ResourceTable} (fb : Framebuffer)
    (hfresh : t.resources.lookup resId = none) : Grown resId fb.size t ((fb.create resId).apply t) := by
  obtain ⟨hscanouts, hothers, hnew⟩ := ResourceTable.createBlob_spec fb.size hfresh
  refine ⟨hothers, ?_, head_congr hscanouts⟩
  show (((t.createBlob resId 1 fb.size).2.resources.lookup resId).isSome : Prop) ↔ _
  rw [hnew]
  by_cases h : t.Creates fb.size
  · rw [if_pos h]
    exact iff_of_true rfl h
  · rw [if_neg h]
    exact iff_of_false Bool.false_ne_true h

private theorem Grown.attach {resId : UInt32} {fb : Framebuffer} {t t' : ResourceTable}
    (h : Grown resId fb.size t t') :
    Grown resId fb.size t ((fb.attach resId).apply t') := by
  obtain ⟨hscanouts, hothers, hnew⟩ := ResourceTable.attachBacking_spec (t := t') resId fb.addr fb.size
  refine ⟨fun id hid => (hothers id hid).trans (h.others id hid), ?_, (head_congr hscanouts).trans h.head⟩
  rw [← h.alive]
  show (((t'.attachBacking resId _).2.resources.lookup resId).isSome : Prop) ↔ _
  rw [hnew, Option.isSome_map]
  rfl

/-- The backing of a new framebuffer. -/
private theorem backed_attach {resId : UInt32} {t : ResourceTable} (fb : Framebuffer)
    (hfresh : t.resources.lookup resId = none) (h : t.Creates fb.size) :
    ((fb.attach resId).apply ((fb.create resId).apply t)).resources.lookup resId =
      some { resId, blobMem := 1, size := fb.size, backing := [{ addr := fb.addr, len := fb.size }] } := by
  obtain ⟨-, -, hcreated⟩ := ResourceTable.createBlob_spec fb.size hfresh
  obtain ⟨-, -, hattached⟩ := ResourceTable.attachBacking_spec
    (t := (fb.create resId).apply t) resId fb.addr fb.size
  rw [if_pos h] at hcreated
  have hknown : ((fb.create resId).apply t).resources.lookup resId = _ := hcreated
  rw [hknown, Option.map_some, if_neg (UInt64.lt_irrefl _)] at hattached
  exact hattached

/-- What the host's table will be when a registration is completed or given up. -/
structure Registers (fb : Framebuffer) (pace : FlipPace) (s : IgpuDisplay) (t : ResourceTable) : Prop where
  others : ∀ id ≠ s.nextResId + 1, t.resources.lookup id = s.ring.settled.resources.lookup id
  alive : t.Alive (s.nextResId + 1) ↔ s.ring.HasRoom pace.create ∧ s.ring.settled.Creates fb.size
  backed : s.Attaches fb pace → s.ring.settled.Creates fb.size → ∃ r ∈ t.resources.lookup (s.nextResId + 1),
    r.backing.length = 1
  head : t.head =
    if s.Attaches fb pace ∧ (s.afterAttach fb pace).HasRoom pace.bind ∧ Accepts fb s.ring.settled then
      some (s.nextResId + 1)
    else
      s.ring.settled.head

/-- A registration that is given up before it comes to the head. -/
private theorem Grown.registers {t : ResourceTable} (h : Grown (s.nextResId + 1) fb.size s.ring.settled t)
    (hroom : s.ring.HasRoom pace.create) (hgivesUp : ¬ s.Attaches fb pace) : Registers fb pace s t where
  others := h.others
  alive := by rw [h.alive, and_iff_right hroom]
  backed hattaches := absurd hattaches hgivesUp
  head := by rw [h.head, if_neg fun hbound => hgivesUp hbound.1]

theorem lastRing_registers (hl : s.ring.Laid) (hfresh : s.ring.settled.resources.lookup (s.nextResId + 1) = none)
    (h : (s.lastRing fb pace).reused = false) :
    (s.lastRing fb pace).Laid ∧ Registers fb pace s (s.lastRing fb pace).settled := by
  have hgrown := grown_create fb hfresh
  by_cases hc : s.ring.Answers pace.create (fb.create (s.nextResId + 1))
  · by_cases ha : (s.afterCreate fb pace).Answers pace.attach (fb.attach (s.nextResId + 1))
    · have hlast : s.lastRing fb pace = s.afterBind fb pace := by
        rw [lastRing, if_neg (not_not.2 hc), if_neg (not_not.2 ha)]
      rw [hlast] at h ⊢
      have hattachOk : (s.afterAttach fb pace).reused = false := CommandRing.reused_of_push h
      have hcreateOk : (s.afterCreate fb pace).reused = false := CommandRing.reused_of_push hattachOk
      have hcreate : CommandRing.Pushed pace.create (fb.create (s.nextResId + 1)) s.ring (s.afterCreate fb pace) :=
        CommandRing.push_pushed hl hcreateOk
      have hattach : CommandRing.Pushed pace.attach (fb.attach (s.nextResId + 1)) (s.afterCreate fb pace)
          (s.afterAttach fb pace) := CommandRing.push_pushed hcreate.laid hattachOk
      have hbind : CommandRing.Pushed pace.bind (fb.bind (s.nextResId + 1)) (s.afterAttach fb pace)
          (s.afterBind fb pace) := CommandRing.push_pushed hattach.laid h
      have hattached : (s.afterAttach fb pace).settled =
          (fb.attach (s.nextResId + 1)).apply ((fb.create (s.nextResId + 1)).apply s.ring.settled) := by
        rw [hattach.settled, if_pos ha.1, hcreate.settled, if_pos hc.1]
      have hgrown := hgrown.attach
      have hbacked := backed_attach fb hfresh
      rw [← hattached] at hgrown hbacked
      -- the binding moves the head alone
      obtain ⟨hresources, hhead⟩ := ResourceTable.setScanout_spec (t := (s.afterAttach fb pace).settled)
        (s.nextResId + 1) fb.width fb.height WIRE_FMT_XRGB8888 fb.pitch
      have hlookup : (s.afterBind fb pace).settled.resources = (s.afterAttach fb pace).settled.resources := by
        rw [hbind.settled]
        split_ifs
        · exact hresources
        · rfl
      refine ⟨hbind.laid, ?_, ?_, ?_, ?_⟩
      · intro id hid
        rw [hlookup]
        exact hgrown.others id hid
      · rw [ResourceTable.Alive, hlookup, and_iff_right hc.1]
        exact hgrown.alive
      · intro _ hcreates
        rw [hlookup, hbacked hcreates]
        exact ⟨_, rfl, rfl⟩
      · have hattaches : s.Attaches fb pace := ⟨hc, ha⟩
        rw [hbind.settled]
        by_cases hroom : (s.afterAttach fb pace).HasRoom pace.bind
        · rw [if_pos hroom]
          refine hhead.trans ?_
          simp only [hattaches, hroom, true_and, hgrown.alive, hgrown.head, Accepts]
        · rw [if_neg hroom, if_neg fun hbound => hroom hbound.2.1]
          exact hgrown.head
    · have hlast : s.lastRing fb pace = s.afterAttach fb pace := by rw [lastRing, if_neg (not_not.2 hc), if_pos ha]
      rw [hlast] at h ⊢
      have hcreate : CommandRing.Pushed pace.create (fb.create (s.nextResId + 1)) s.ring (s.afterCreate fb pace) :=
        CommandRing.push_pushed hl (CommandRing.reused_of_push h)
      have hattach : CommandRing.Pushed pace.attach (fb.attach (s.nextResId + 1)) (s.afterCreate fb pace)
          (s.afterAttach fb pace) := CommandRing.push_pushed hcreate.laid h
      have hattached : Grown (s.nextResId + 1) fb.size s.ring.settled (s.afterAttach fb pace).settled := by
        rw [hattach.settled, hcreate.settled, if_pos hc.1]
        split_ifs
        · exact hgrown.attach
        · exact hgrown
      exact ⟨hattach.laid, hattached.registers hc.1 fun hattaches => ha hattaches.2⟩
  · have hlast : s.lastRing fb pace = s.afterCreate fb pace := by rw [lastRing, if_pos hc]
    rw [hlast] at h ⊢
    have hcreate : CommandRing.Pushed pace.create (fb.create (s.nextResId + 1)) s.ring (s.afterCreate fb pace) :=
      CommandRing.push_pushed hl h
    refine ⟨hcreate.laid, ?_⟩
    by_cases hroom : s.ring.HasRoom pace.create
    · rw [hcreate.settled, if_pos hroom]
      exact hgrown.registers hroom fun hattaches => hc hattaches.1
    · rw [hcreate.settled, if_neg hroom]
      refine ⟨fun _ _ => rfl, ?_, fun hattaches => absurd hattaches.1 hc, ?_⟩
      · rw [ResourceTable.Alive, hfresh]
        exact iff_of_false Bool.false_ne_true fun hboth => hroom hboth.1
      · rw [if_neg fun hbound => hc hbound.1.1]

/-! ### A flip -/

/-- A cached framebuffer has an entry with its dimensions. -/
theorem of_cached {resId : UInt32} (h : s.cached fb = some resId) :
    ∃ i e, s.fbcache i = some e ∧ e.resId = resId ∧ e.w = fb.width ∧ e.h = fb.height ∧ e.pitch = fb.pitch := by
  obtain ⟨i, -, hi⟩ := List.exists_of_findSome?_eq_some h
  obtain ⟨e, he, hid⟩ := Option.map_eq_some_iff.1 hi
  obtain ⟨hentry, hfor⟩ := Option.filter_eq_some_iff.1 he
  simp only [FbEntry.isFor, Bool.and_eq_true, decide_eq_true_eq] at hfor
  exact ⟨i, e, hentry, hid, hfor.2, hfor.1.2, hfor.1.1.2⟩

/-- The ring of a flip of a cached framebuffer, before the flush. -/
def rebindRing (fb : Framebuffer) (pace : FlipPace) (resId : UInt32) (s : IgpuDisplay) : CommandRing :=
  if resId = s.scanoutResId then s.ring else (s.ring.push pace.rebind (fb.bind resId)).2

/-- The ring when what was in the next slot of the cache has been evicted. -/
def evictFrom (pace : Pace) (r : CommandRing) (s : IgpuDisplay) : CommandRing :=
  match s.fbcache s.fbcacheNext with
  | none => r
  | some old => (r.push pace (.destroy old.resId)).2

/-- The ring of a completed registration. -/
def evictRing (fb : Framebuffer) (pace : FlipPace) (s : IgpuDisplay) : CommandRing :=
  s.evictFrom pace.evict (s.lastRing fb pace)

theorem flushResource_cached {resId : UInt32} (h : s.cached fb = some resId) (hid : resId ≠ 0) (rect : Rect) :
    (s.flushResource fb rect pace).2 =
      { s with
        scanoutResId := resId
        ring := ((s.rebindRing fb pace resId).push pace.flush (.flush resId rect)).2 } := by
  simp only [flushResource, resourceRegister, h, hid, if_false, push, rebindRing]
  by_cases hbound : resId = s.scanoutResId
  · subst hbound
    simp only [if_true]
  · simp only [hbound, if_false]

/-- The driver never finds the evicted entry bound: it has just taken the new one for bound. -/
private theorem remember_eq (fb : Framebuffer) {resId : UInt32} (hbound : s.scanoutResId = resId)
    (hold : ∀ e, s.fbcache s.fbcacheNext = some e → e.resId ≠ resId) (pace : Pace) :
    s.remember fb resId pace =
      { s with
        fbcache := Function.update s.fbcache s.fbcacheNext
          (some { addr := fb.addr, resId, w := fb.width, h := fb.height, pitch := fb.pitch })
        fbcacheNext := s.fbcacheNext + 1
        ring := s.evictFrom pace s.ring } := by
  unfold remember evictFrom
  cases hentry : s.fbcache s.fbcacheNext with
  | none => simp only [hentry]
  | some old =>
    have hne : ¬ old.resId = s.scanoutResId := by
      rw [hbound]
      exact hold old hentry
    simp only [hentry, if_neg hne, push]

theorem flushResource_completed (h : s.cached fb = none) (hc : s.Completes fb pace) (hnew : s.nextResId + 1 ≠ 0)
    (hold : ∀ e, s.fbcache s.fbcacheNext = some e → e.resId ≠ s.nextResId + 1) (rect : Rect) :
    (s.flushResource fb rect pace).2 =
      { s with
        nextResId := s.nextResId + 1
        drawn := s.drawn + 1
        scanoutResId := s.nextResId + 1
        fbcache := Function.update s.fbcache s.fbcacheNext (some
          { addr := fb.addr, resId := s.nextResId + 1, w := fb.width, h := fb.height, pitch := fb.pitch })
        fbcacheNext := s.fbcacheNext + 1
        ring := ((s.evictRing fb pace).push pace.flush (.flush (s.nextResId + 1) rect)).2 } := by
  have hremember : remember fb (s.nextResId + 1) pace.evict
      { s with
        nextResId := s.nextResId + 1
        drawn := s.drawn + 1
        ring := s.lastRing fb pace
        scanoutResId := s.nextResId + 1 } = _ := remember_eq fb rfl hold pace.evict
  simp only [flushResource, resourceRegister_new h, if_pos hc, hnew, if_false, hremember, if_true, push, evictRing,
    evictFrom]

theorem flushResource_failed (h : s.cached fb = none) (hc : ¬ s.Completes fb pace) (rect : Rect) :
    (s.flushResource fb rect pace).2 =
      { s with
        nextResId := s.nextResId + 1
        drawn := s.drawn + 1
        ring := s.lastRing fb pace
        failed := (s.nextResId + 1) :: s.failed } := by
  simp only [flushResource, resourceRegister_new h, if_neg hc, if_true]

end IgpuDisplay

end Kmd

end Infinigpu
