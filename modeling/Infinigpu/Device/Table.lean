import Infinigpu.Device.Resource
import Infinigpu.Lib.Keyed

/-!
# Integrity of the resource table (`infinigpu-device`, `resource.rs` and `dispatch.rs`)

A descriptor either leaves the table as it was or makes one of four edits whose checks have passed
(`executeResource_cases`).  Every edit keeps the table valid (`Edit.valid`), so a table that starts empty is valid
after any descriptors (`executeAll_valid`) and the host keeps a bounded number of entries for it (`retained_le`).  For
the scanout bindings the bound is the number of head ids: nothing smaller holds (`bindings_reach`).
-/

namespace Infinigpu

/-! ### Valid tables -/

/-- A resource of a legal size whose backing, once attached, covers it. -/
structure HostResource.Valid (r : HostResource) : Prop where
  size_pos : 0 < r.size.toNat
  size_le : r.size ≤ MAX_BLOB_BYTES
  covered : r.backing ≠ [] → r.size.toNat ≤ (r.backing.map fun s => s.len.toNat).sum

/-- A binding with legal dimensions whose stride covers one row. -/
structure ScanoutBinding.Valid (b : ScanoutBinding) : Prop where
  width_pos : 0 < b.width.toNat
  width_le : b.width ≤ MAX_DIM
  height_pos : 0 < b.height.toNat
  height_le : b.height ≤ MAX_DIM
  row_le : b.width.toNat * 4 ≤ b.stride.toNat

namespace ResourceTable

/-- The invariant of the table: few resources, each legal and stored under its own id, and only legal bindings of
resources that are there. -/
structure Valid (t : ResourceTable) : Prop where
  count : t.resources.entries.length ≤ MAX_RESOURCES
  resource : ∀ resId r, t.resources.lookup resId = some r → r.resId = resId ∧ r.Valid
  scanout : ∀ sid b, t.scanouts.lookup sid = some b → (t.resources.lookup b.resId).isSome ∧ b.Valid

private theorem valid_new : Valid .new where
  count := Nat.zero_le _
  resource resId r h := by rw [new, AList.lookup_empty] at h; cases h
  scanout sid b h := by rw [new, AList.lookup_empty] at h; cases h

/-! ### Accepted edits -/

/-- The edits of a table that pass the checks of the source. -/
inductive Edit : ResourceTable → ResourceTable → Prop where
  | created {t : ResourceTable} {resId : UInt32} (blobMem : UInt32) {size : UInt64}
      (room : t.resources.entries.length < MAX_RESOURCES) (pos : 0 < size.toNat) (le : size ≤ MAX_BLOB_BYTES)
      (fresh : t.resources.lookup resId = none) :
      Edit t { t with resources := t.resources.insert resId { resId, blobMem, size, backing := [] } }
  | attached {t : ResourceTable} {resId : UInt32} {res : HostResource} {segments : List BackingSegment}
      (known : t.resources.lookup resId = some res)
      (covered : res.size.toNat ≤ (segments.map fun s => s.len.toNat).sum) :
      Edit t { t with resources := t.resources.insert resId { res with backing := segments } }
  | bound {t : ResourceTable} (scanoutId : UInt32) {b : ScanoutBinding} (known : (t.resources.lookup b.resId).isSome)
      (valid : b.Valid) : Edit t { t with scanouts := t.scanouts.insert scanoutId b }
  | destroyed {t : ResourceTable} {resId : UInt32} {res : HostResource}
      (known : t.resources.lookup resId = some res) :
      Edit t { resources := t.resources.erase resId, scanouts := retain (fun b => b.resId != resId) t.scanouts }

/-- A checked sum is the sum of the lengths. -/
private theorem checkedTotal_eq {segments : List BackingSegment} {total sum : UInt64}
    (h : checkedTotal segments total = some sum) :
    sum.toNat = total.toNat + (segments.map fun s => s.len.toNat).sum := by
  induction segments generalizing total with
  | nil =>
    cases h
    rfl
  | cons s segments ih =>
    rw [checkedTotal] at h
    by_cases hlt : total.toNat + s.len.toNat < 2 ^ 64
    · rw [if_pos hlt] at h
      have hadd : (total + s.len).toNat = total.toNat + s.len.toNat := by
        rw [UInt64.toNat_add, Nat.mod_eq_of_lt hlt]
      rw [ih h, hadd, List.map_cons, List.sum_cons]
      omega
    · rw [if_neg hlt] at h
      cases h

/-- An operation fails and leaves the table alone, or succeeds with an edit of it. -/
def Outcome (t : ResourceTable) (r : Except ResourceError Unit × ResourceTable) : Prop :=
  (∃ e, r = (.error e, t)) ∨ r.1 = .ok () ∧ Edit t r.2

private theorem createBlob_cases (resId blobMem : UInt32) (size : UInt64) (t : ResourceTable) :
    Outcome t (t.createBlob resId blobMem size) := by
  unfold createBlob
  by_cases hfull : t.resources.entries.length ≥ MAX_RESOURCES
  · rw [if_pos hfull]
    exact .inl ⟨_, rfl⟩
  rw [if_neg hfull]
  by_cases hsize : size = 0 ∨ size > MAX_BLOB_BYTES
  · rw [if_pos hsize]
    exact .inl ⟨_, rfl⟩
  rw [if_neg hsize]
  rw [not_or] at hsize
  by_cases hknown : (t.resources.lookup resId).isSome
  · rw [if_pos hknown]
    exact .inl ⟨_, rfl⟩
  rw [if_neg hknown]
  have hpos : 0 < size.toNat := by
    have hne : size.toNat ≠ 0 := fun h => hsize.1 (UInt64.toNat_inj.1 h)
    omega
  exact .inr ⟨rfl, .created blobMem (Nat.lt_of_not_le hfull) hpos (UInt64.not_lt.1 hsize.2)
    (Option.not_isSome_iff_eq_none.1 hknown)⟩

private theorem attachBacking_cases (resId : UInt32) (segments : List BackingSegment) (t : ResourceTable) :
    Outcome t (t.attachBacking resId segments) := by
  unfold attachBacking
  cases hres : t.resources.lookup resId with
  | none => exact .inl ⟨_, rfl⟩
  | some res =>
    cases htotal : checkedTotal segments 0 with
    | none => exact .inl ⟨_, rfl⟩
    | some total =>
      simp only
      by_cases hlt : total < res.size
      · rw [if_pos hlt]
        exact .inl ⟨_, rfl⟩
      rw [if_neg hlt]
      refine .inr ⟨rfl, .attached hres ?_⟩
      have hsum := checkedTotal_eq htotal
      have hle : res.size.toNat ≤ total.toNat := UInt64.le_iff_toNat_le.1 (UInt64.not_lt.1 hlt)
      have hzero : (0 : UInt64).toNat = 0 := rfl
      omega

private theorem setScanout_cases (scanoutId resId width height format stride : UInt32) (t : ResourceTable) :
    Outcome t (t.setScanout scanoutId resId width height format stride) := by
  unfold setScanout
  by_cases hknown : (t.resources.lookup resId).isNone
  · rw [if_pos hknown]
    exact .inl ⟨_, rfl⟩
  rw [if_neg hknown]
  by_cases hdims : width = 0 ∨ height = 0 ∨ width > MAX_DIM ∨ height > MAX_DIM
  · rw [if_pos hdims]
    exact .inl ⟨_, rfl⟩
  rw [if_neg hdims]
  by_cases hrow : stride.toUInt64 < width.toUInt64 * 4
  · rw [if_pos hrow]
    exact .inl ⟨_, rfl⟩
  rw [if_neg hrow]
  simp only [not_or, gt_iff_lt, UInt32.not_lt] at hdims
  obtain ⟨hwidth, hheight, hwidthLe, hheightLe⟩ := hdims
  have hrow' : width.toNat * 4 ≤ stride.toNat := by
    have hle := UInt64.le_iff_toNat_le.1 (UInt64.not_lt.1 hrow)
    have hlt := width.toNat_lt
    have hfour : (4 : UInt64).toNat = 4 := rfl
    rw [UInt64.toNat_mul, UInt32.toNat_toUInt64, UInt32.toNat_toUInt64, hfour] at hle
    omega
  have pos : ∀ x : UInt32, ¬x = 0 → 0 < x.toNat := by
    intro x hx
    have hne : x.toNat ≠ 0 := fun h => hx (UInt32.toNat_inj.1 h)
    omega
  have hsome : (t.resources.lookup resId).isSome := by
    cases h : t.resources.lookup resId with
    | none => exact absurd (by rw [h]; rfl) hknown
    | some res => rfl
  exact .inr ⟨rfl, .bound scanoutId (b := { resId, width, height, format, stride }) hsome
    ⟨pos width hwidth, hwidthLe, pos height hheight, hheightLe, hrow'⟩⟩

private theorem destroy_cases (resId : UInt32) (t : ResourceTable) : Outcome t (t.destroy resId) := by
  unfold destroy
  cases hres : t.resources.lookup resId with
  | none => exact .inl ⟨_, rfl⟩
  | some res => exact .inr ⟨rfl, .destroyed hres⟩

end ResourceTable

/-! ### One descriptor -/

/-- A descriptor that was not carried out: refused by the table or malformed. -/
def Executed.refused : Executed → Bool
  | .rejected _ => true
  | .shortPayload => true
  | _ => false

private theorem ResourceTable.Outcome.ofResult {t : ResourceTable} {r : Except ResourceError Unit × ResourceTable}
    (h : ResourceTable.Outcome t r) {ok : Executed} (hok : ok.refused = false) :
    r.2 = t ∨ (Executed.ofResult ok r.1).refused = false ∧ ResourceTable.Edit t r.2 := by
  rcases h with ⟨e, rfl⟩ | ⟨hr, hedit⟩
  · exact .inl rfl
  · refine .inr ⟨?_, hedit⟩
    rw [hr]
    exact hok

/-- A descriptor leaves the table as it was, or it is carried out and makes an edit. -/
theorem executeResource_cases (desc : Descriptor) (payload : List UInt8) (t : ResourceTable) :
    (executeResource desc payload t).2 = t ∨
      (executeResource desc payload t).1.refused = false ∧ t.Edit (executeResource desc payload t).2 := by
  unfold executeResource
  by_cases hcreate : desc.msgType = MsgType.resourceCreateBlob
  · rw [if_pos hcreate]
    cases readFromPrefix 24 ResourceCreateBlob.decode payload with
    | none => exact .inl rfl
    | some b => exact (t.createBlob_cases b.1.resId b.1.blobMem b.1.size).ofResult rfl
  rw [if_neg hcreate]
  by_cases hattach : desc.msgType = MsgType.resourceAttachBacking
  · rw [if_pos hattach]
    cases readFromPrefix 8 AttachBacking.decode payload with
    | none => exact .inl rfl
    | some b =>
      simp only
      by_cases hmany : b.1.numEntries > MAX_BACKING_ENTRIES
      · rw [if_pos hmany]
        exact .inl rfl
      rw [if_neg hmany]
      by_cases hshort : b.2.length < b.1.numEntries.toNat * 16
      · rw [if_pos hshort]
        exact .inl rfl
      rw [if_neg hshort]
      exact (t.attachBacking_cases b.1.resId _).ofResult rfl
  rw [if_neg hattach]
  by_cases hbind : desc.msgType = MsgType.setScanoutBlob
  · rw [if_pos hbind]
    cases readFromPrefix 24 SetScanoutBlob.decode payload with
    | none => exact .inl rfl
    | some b => exact (t.setScanout_cases _ _ _ _ _ _).ofResult rfl
  rw [if_neg hbind]
  by_cases hflush : desc.msgType = MsgType.resourceFlush
  · rw [if_pos hflush]
    cases readFromPrefix 24 ResourceFlush.decode payload with
    | none => exact .inl rfl
    | some b =>
      refine .inl ?_
      simp only
      cases t.get b.1.resId with
      | none => rfl
      | some r =>
        simp only
        by_cases hempty : r.backing.isEmpty
        · rw [if_pos hempty]
        · rw [if_neg hempty]
  rw [if_neg hflush]
  by_cases hdestroy : desc.msgType = MsgType.resourceDestroy
  · rw [if_pos hdestroy]
    cases readFromPrefix 4 (u32At · 0) payload with
    | none => exact .inl rfl
    | some b => exact (t.destroy_cases b.1).ofResult rfl
  rw [if_neg hdestroy]
  exact .inl rfl

/-! ### Edits keep the table valid -/

namespace ResourceTable

theorem lookup_retain {p : ScanoutBinding → Bool} {scanouts : AList fun _ : UInt32 => ScanoutBinding} {sid : UInt32}
    {b : ScanoutBinding} (h : (retain p scanouts).lookup sid = some b) :
    scanouts.lookup sid = some b ∧ p b = true := by
  have hmem := List.mem_filter.1 (AList.mem_lookup_iff.1 (Option.mem_def.2 h))
  exact ⟨Option.mem_def.1 (AList.mem_lookup_iff.2 hmem.1), hmem.2⟩

/-- Putting a legal resource in keeps what is known of the entries. -/
private theorem Valid.insert {t : ResourceTable} (hv : t.Valid) {resId : UInt32} {res : HostResource}
    (hid : res.resId = resId) (hres : res.Valid)
    (hcount : (t.resources.insert resId res).entries.length ≤ MAX_RESOURCES) :
    Valid { t with resources := t.resources.insert resId res } where
  count := hcount
  resource resId' r h := by
    by_cases heq : resId' = resId
    · subst heq
      rw [AList.lookup_insert] at h
      cases h
      exact ⟨hid, hres⟩
    · rw [AList.lookup_insert_ne heq] at h
      exact hv.resource resId' r h
  scanout sid b h := by
    obtain ⟨hknown, hb⟩ := hv.scanout sid b h
    refine ⟨?_, hb⟩
    by_cases heq : b.resId = resId
    · rw [heq, AList.lookup_insert]
      rfl
    · rw [AList.lookup_insert_ne heq]
      exact hknown

/-- The invariant is kept by every edit. -/
theorem Edit.valid {t t' : ResourceTable} (h : Edit t t') (hv : t.Valid) : t'.Valid := by
  cases h with
  | created blobMem room pos le fresh =>
    refine hv.insert rfl ⟨pos, le, fun hne => absurd rfl hne⟩ ?_
    rw [Keyed.length_insert_new fresh]
    exact room
  | attached known covered =>
    obtain ⟨hid, hres⟩ := hv.resource _ _ known
    refine hv.insert hid ⟨hres.size_pos, hres.size_le, fun _ => covered⟩ ?_
    rw [Keyed.length_update known]
    exact hv.count
  | bound scanoutId known valid =>
    refine ⟨hv.count, hv.resource, fun sid b h => ?_⟩
    by_cases heq : sid = scanoutId
    · subst heq
      rw [AList.lookup_insert] at h
      cases h
      exact ⟨known, valid⟩
    · rw [AList.lookup_insert_ne heq] at h
      exact hv.scanout sid b h
  | @destroyed resId res known =>
    refine ⟨?_, fun resId' r h => ?_, fun sid b h => ?_⟩
    · have hlength := Keyed.length_erase known
      have hcount := hv.count
      show (t.resources.erase resId).entries.length ≤ MAX_RESOURCES
      omega
    · by_cases heq : resId' = resId
      · subst heq
        rw [AList.lookup_erase] at h
        cases h
      · rw [AList.lookup_erase_ne heq] at h
        exact hv.resource resId' r h
    · obtain ⟨hb, hne⟩ := lookup_retain h
      obtain ⟨hsome, hvalid⟩ := hv.scanout sid b hb
      refine ⟨?_, hvalid⟩
      rw [AList.lookup_erase_ne (bne_iff_ne.1 hne)]
      exact hsome

/-- The table after some descriptors with their payloads, in order. -/
def executeAll (ops : List (Descriptor × List UInt8)) (t : ResourceTable) : ResourceTable :=
  ops.foldl (fun t op => (executeResource op.1 op.2 t).2) t

theorem executeAll_cons (op : Descriptor × List UInt8) (ops : List (Descriptor × List UInt8)) (t : ResourceTable) :
    t.executeAll (op :: ops) = (executeResource op.1 op.2 t).2.executeAll ops := rfl

/-- What every edit keeps holds after any descriptors. -/
private theorem executeAll_invariant {P : ResourceTable → Prop} (hedit : ∀ t t', Edit t t' → P t → P t')
    (ops : List (Descriptor × List UInt8)) {t : ResourceTable} (h : P t) : P (t.executeAll ops) := by
  induction ops generalizing t with
  | nil => exact h
  | cons op ops ih =>
    rw [executeAll_cons]
    refine ih ?_
    rcases executeResource_cases op.1 op.2 t with heq | ⟨-, hop⟩
    · rw [heq]
      exact h
    · exact hedit t _ hop h

theorem executeAll_valid (ops : List (Descriptor × List UInt8)) : (new.executeAll ops).Valid :=
  executeAll_invariant (fun _ _ h hv => h.valid hv) ops valid_new

/-- The table is valid after any descriptors, and one that is refused leaves it as it was. -/
theorem integrity (ops : List (Descriptor × List UInt8)) :
    (new.executeAll ops).Valid ∧ ∀ desc payload,
      (executeResource desc payload (new.executeAll ops)).1.refused = true →
        (executeResource desc payload (new.executeAll ops)).2 = new.executeAll ops := by
  refine ⟨executeAll_valid ops, fun desc payload hrefused => ?_⟩
  rcases executeResource_cases desc payload (new.executeAll ops) with heq | ⟨hok, -⟩
  · exact heq
  · rw [hrefused] at hok
    cases hok

/-! ### How much is kept -/

/-- The entries kept for the guest. -/
def retained (t : ResourceTable) : Nat := t.resources.entries.length + t.scanouts.entries.length

/-- There are no more bindings than head ids. -/
private theorem scanouts_le (t : ResourceTable) : t.scanouts.entries.length ≤ 2 ^ 32 := by
  have hnodup : (t.scanouts.keys.map UInt32.toNat).Nodup :=
    t.scanouts.keys_nodup.map fun a b h => UInt32.toNat_inj.1 h
  have hsub : t.scanouts.keys.map UInt32.toNat ⊆ List.range (2 ^ 32) := by
    intro n hn
    obtain ⟨sid, -, rfl⟩ := List.mem_map.1 hn
    exact List.mem_range.2 sid.toNat_lt
  have hle := hnodup.length_le_of_subset hsub
  rw [List.length_range, List.length_map, AList.keys, List.keys, List.length_map] at hle
  exact hle

/-- Whatever descriptors the guest sends, the host keeps a bounded number of entries. -/
theorem retained_le (ops : List (Descriptor × List UInt8)) : (new.executeAll ops).retained ≤ MAX_RESOURCES + 2 ^ 32 :=
  Nat.add_le_add (executeAll_valid ops).count (scanouts_le _)

/-- A resource of one byte under the id 0. -/
def createOne : Descriptor × List UInt8 :=
  ({ msgType := MsgType.resourceCreateBlob, flags := 0, len := 0, dataOffset := 0, seqno := 0, payloadAddr := 0 },
    List.replicate 16 0 ++ Bytes.ofValue 8 1)

/-- A head bound to the resource 0, one pixel large. -/
def bindHead (sid : UInt32) : Descriptor × List UInt8 :=
  ({ msgType := MsgType.setScanoutBlob, flags := 0, len := 0, dataOffset := 0, seqno := 0, payloadAddr := 0 },
    Bytes.ofValue 4 sid.toNat ++ ([0, 0, 0, 0, 1, 0, 0, 0, 1, 0, 0, 0, 0, 0, 0, 0, 4, 0, 0, 0] : List UInt8))

theorem executeAll_append (ops ops' : List (Descriptor × List UInt8)) (t : ResourceTable) :
    t.executeAll (ops ++ ops') = (t.executeAll ops).executeAll ops' := List.foldl_append

private theorem execute_bindHead {t : ResourceTable} (h : (t.resources.lookup 0).isSome) (sid : UInt32) :
    t.executeAll [bindHead sid] = { t with
      scanouts := t.scanouts.insert sid { resId := 0, width := 1, height := 1, format := 0, stride := 4 } } := by
  have hsid : u32At (bindHead sid).2 0 = sid := Bytes.u32_ofValue sid
  have hread : readFromPrefix 24 SetScanoutBlob.decode (bindHead sid).2 =
      some ({ scanoutId := u32At (bindHead sid).2 0, resId := 0, width := 1, height := 1, format := 0, stride := 4 },
        []) :=
    rfl
  rw [hsid] at hread
  have hnone : (t.resources.lookup 0).isNone = false := by rw [Option.isNone_eq_false_iff, h]
  have htype : (bindHead sid).1.msgType = MsgType.setScanoutBlob := rfl
  have hcreate : ¬MsgType.setScanoutBlob = MsgType.resourceCreateBlob := by decide
  have hattach : ¬MsgType.setScanoutBlob = MsgType.resourceAttachBacking := by decide
  show (executeResource (bindHead sid).1 (bindHead sid).2 t).2 = _
  rw [executeResource, htype, if_neg hcreate, if_neg hattach, if_pos rfl, hread]
  simp only [setScanout, hnone]
  rfl

/-- The bound on the bindings is met: a guest can have any number of heads bound, up to the number of head ids. -/
theorem bindings_reach {n : Nat} (hn : n ≤ 2 ^ 32) :
    ∃ ops, (new.executeAll ops).scanouts.entries.length = n ∧ (new.executeAll ops).resources.entries.length = 1 := by
  have key : ∃ ops, (new.executeAll ops).scanouts.entries.length = n ∧
      (new.executeAll ops).resources = (new.executeAll [createOne]).resources ∧
      ∀ sid : UInt32, n ≤ sid.toNat → (new.executeAll ops).scanouts.lookup sid = none := by
    -- the heads are bound from 0 up, so the next id is always free
    induction n with
    | zero => exact ⟨[createOne], rfl, rfl, fun sid _ => rfl⟩
    | succ n ih =>
      obtain ⟨ops, hlength, hresources, hfree⟩ := ih (by omega)
      have hsid : (UInt32.ofNat n).toNat = n := UInt32.toNat_ofNat_of_lt' hn
      have hknown : ((new.executeAll ops).resources.lookup 0).isSome := by
        rw [hresources]
        rfl
      refine ⟨ops ++ [bindHead (.ofNat n)], ?_⟩
      rw [executeAll_append, execute_bindHead hknown]
      refine ⟨?_, hresources, fun sid hle => ?_⟩
      · rw [Keyed.length_insert_new (hfree _ (by omega)), hlength]
      · have hne : sid ≠ .ofNat n := by
          intro heq
          rw [heq, hsid] at hle
          omega
        rw [AList.lookup_insert_ne hne]
        exact hfree sid (by omega)
  obtain ⟨ops, hlength, hresources, -⟩ := key
  refine ⟨ops, hlength, ?_⟩
  rw [hresources]
  rfl

end ResourceTable

end Infinigpu
