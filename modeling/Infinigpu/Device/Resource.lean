import Infinigpu.Device.Wire
import Mathlib.Data.List.MinMax

/-!
# Blob resources (`infinigpu-device`, `resource.rs` and `dispatch.rs`)

The per-VM table of blob resources, their backing and the scanout heads bound to them, and the decoding of one
resource descriptor into an operation on it.  The hash maps are association lists, which have at most one entry for
a key.
-/

namespace Infinigpu

def MAX_RESOURCES : Nat := 1024
def MAX_BLOB_BYTES : UInt64 := 64 * 1024 * 1024
def MAX_DIM : UInt32 := 16384
def MAX_BACKING_ENTRIES : UInt32 := 16 * 1024

/-- One guest-physical range of a backing. -/
structure BackingSegment where
  addr : UInt64
  len : UInt64
deriving DecidableEq, Repr

structure HostResource where
  resId : UInt32
  blobMem : UInt32
  size : UInt64
  backing : List BackingSegment
deriving DecidableEq, Repr

structure ScanoutBinding where
  resId : UInt32
  width : UInt32
  height : UInt32
  format : UInt32
  stride : UInt32
deriving DecidableEq, Repr

inductive ResourceError where
  | tableFull
  | duplicate (resId : UInt32)
  | badSize (size cap : UInt64)
  | unknown (resId : UInt32)
  | badDims
  | backingTooSmall
deriving DecidableEq, Repr

structure ResourceTable where
  resources : AList fun _ : UInt32 => HostResource
  scanouts : AList fun _ : UInt32 => ScanoutBinding

namespace ResourceTable

def new : ResourceTable where
  resources := ∅
  scanouts := ∅

def createBlob (resId blobMem : UInt32) (size : UInt64) (t : ResourceTable) :
    Except ResourceError Unit × ResourceTable :=
  if t.resources.entries.length ≥ MAX_RESOURCES then
    (.error .tableFull, t)
  else if size = 0 ∨ size > MAX_BLOB_BYTES then
    (.error (.badSize size MAX_BLOB_BYTES), t)
  else if (t.resources.lookup resId).isSome then
    (.error (.duplicate resId), t)
  else
    (.ok (), { t with resources := t.resources.insert resId { resId, blobMem, size, backing := [] } })

/-- The sum of the lengths, if no addition overflows. -/
def checkedTotal : List BackingSegment → UInt64 → Option UInt64
  | [], total => some total
  | s :: segments, total =>
    if total.toNat + s.len.toNat < 2 ^ 64 then checkedTotal segments (total + s.len) else none

def attachBacking (resId : UInt32) (segments : List BackingSegment) (t : ResourceTable) :
    Except ResourceError Unit × ResourceTable :=
  match t.resources.lookup resId with
  | none => (.error (.unknown resId), t)
  | some res =>
    match checkedTotal segments 0 with
    | none => (.error .backingTooSmall, t)
    | some total =>
      if total < res.size then
        (.error .backingTooSmall, t)
      else
        (.ok (), { t with resources := t.resources.insert resId { res with backing := segments } })

def setScanout (scanoutId resId width height format stride : UInt32) (t : ResourceTable) :
    Except ResourceError Unit × ResourceTable :=
  if (t.resources.lookup resId).isNone then
    (.error (.unknown resId), t)
  else if width = 0 ∨ height = 0 ∨ width > MAX_DIM ∨ height > MAX_DIM then
    (.error .badDims, t)
  else if stride.toUInt64 < width.toUInt64 * 4 then
    (.error .badDims, t)
  else
    (.ok (), { t with scanouts := t.scanouts.insert scanoutId { resId, width, height, format, stride } })

/-- The bindings that satisfy `p` (`HashMap::retain`). -/
def retain (p : ScanoutBinding → Bool) (scanouts : AList fun _ : UInt32 => ScanoutBinding) :
    AList fun _ : UInt32 => ScanoutBinding where
  entries := scanouts.entries.filter fun e => p e.2
  nodupKeys := scanouts.nodupKeys.sublist List.filter_sublist

def destroy (resId : UInt32) (t : ResourceTable) : Except ResourceError Unit × ResourceTable :=
  if (t.resources.lookup resId).isNone then
    (.error (.unknown resId), t)
  else
    (.ok (),
      { resources := t.resources.erase resId
        scanouts := retain (fun b => b.resId != resId) t.scanouts })

def get (resId : UInt32) (t : ResourceTable) : Option HostResource := t.resources.lookup resId

/-- The lowest head bound to a resource, with its binding. -/
def scanoutBindingFor (resId : UInt32) (t : ResourceTable) : Option (UInt32 × ScanoutBinding) :=
  let bound := t.scanouts.entries.filter fun e => e.2.resId == resId
  ((bound.map Sigma.fst).min?).bind fun sid => (t.scanouts.lookup sid).map fun b => (sid, b)

end ResourceTable

/-! ### Descriptor execution against the table -/

structure Rect where
  x : UInt32
  y : UInt32
  w : UInt32
  h : UInt32
deriving DecidableEq, Repr

inductive Executed where
  | createdBlob (resId : UInt32)
  | attachedBacking (resId : UInt32) (segments : Nat)
  | setScanout (scanoutId : UInt32)
  | destroyed (resId : UInt32)
  | flush (resId : UInt32) (rect : Rect)
  | rejected (e : ResourceError)
  | notResource
  | shortPayload
deriving DecidableEq, Repr

/-- The outcome of a table operation. -/
def Executed.ofResult (ok : Executed) : Except ResourceError Unit → Executed
  | .ok () => ok
  | .error e => .rejected e

def backingSegments (n : Nat) (rest : List UInt8) : List BackingSegment :=
  (List.range n).map fun i =>
    let e := MemEntry.decode (Bytes.slice rest (i * 16) 16)
    { addr := e.addr, len := e.length }

def executeResource (desc : Descriptor) (payload : List UInt8) (table : ResourceTable) : Executed × ResourceTable :=
  if desc.msgType = MsgType.resourceCreateBlob then
    match readFromPrefix 24 ResourceCreateBlob.decode payload with
    | none => (.shortPayload, table)
    | some (b, _) =>
      let (r, table) := table.createBlob b.resId b.blobMem b.size
      (.ofResult (.createdBlob b.resId) r, table)
  else if desc.msgType = MsgType.resourceAttachBacking then
    match readFromPrefix 8 AttachBacking.decode payload with
    | none => (.shortPayload, table)
    | some (hdr, rest) =>
      if hdr.numEntries > MAX_BACKING_ENTRIES then
        (.rejected .backingTooSmall, table)
      else if rest.length < hdr.numEntries.toNat * 16 then
        (.shortPayload, table)
      else
        let segs := backingSegments hdr.numEntries.toNat rest
        let (r, table) := table.attachBacking hdr.resId segs
        (.ofResult (.attachedBacking hdr.resId segs.length) r, table)
  else if desc.msgType = MsgType.setScanoutBlob then
    match readFromPrefix 24 SetScanoutBlob.decode payload with
    | none => (.shortPayload, table)
    | some (b, _) =>
      let (r, table) := table.setScanout b.scanoutId b.resId b.width b.height b.format b.stride
      (.ofResult (.setScanout b.scanoutId) r, table)
  else if desc.msgType = MsgType.resourceFlush then
    match readFromPrefix 24 ResourceFlush.decode payload with
    | none => (.shortPayload, table)
    | some (b, _) =>
      match table.get b.resId with
      | none => (.rejected (.unknown b.resId), table)
      | some r =>
        if r.backing.isEmpty then
          (.rejected .backingTooSmall, table)
        else
          (.flush b.resId { x := b.x, y := b.y, w := b.w, h := b.h }, table)
  else if desc.msgType = MsgType.resourceDestroy then
    match readFromPrefix 4 (u32At · 0) payload with
    | none => (.shortPayload, table)
    | some (resId, _) =>
      let (r, table) := table.destroy resId
      (.ofResult (.destroyed resId) r, table)
  else
    (.notResource, table)

private theorem eq_flush_of_ofResult {ok : Executed} {r : Except ResourceError Unit} {resId : UInt32} {rect : Rect}
    (h : Executed.ofResult ok r = .flush resId rect) : ok = .flush resId rect := by
  cases r with
  | ok u => exact h
  | error e => cases h

/-- Only a flush descriptor asks for a present. -/
theorem executeResource_flush {desc : Descriptor} {payload : List UInt8} {table : ResourceTable} {resId : UInt32}
    {rect : Rect} (h : (executeResource desc payload table).1 = .flush resId rect) :
    desc.msgType = MsgType.resourceFlush := by
  by_contra hne
  simp only [executeResource] at h
  split at h
  · split at h
    · cases h
    · cases eq_flush_of_ofResult h
  · split at h
    · split at h
      · cases h
      · split at h
        · cases h
        · split at h
          · cases h
          · cases eq_flush_of_ofResult h
    · split at h
      · split at h
        · cases h
        · cases eq_flush_of_ofResult h
      · split at h
        · split at h
          · cases h
          · cases eq_flush_of_ofResult h
        · cases h

end Infinigpu
