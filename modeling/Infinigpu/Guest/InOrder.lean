import Infinigpu.Guest.Transfer
import Infinigpu.Lib.Footprint

/-!
# Transfers in and out of order

Buffer copies, fills and updates are carried out while they are recorded; a submission carries out the uploads, then
the draw or the clear, then the copies.  The memories are those of the recorded order, executed at the submission, if
what changes its order is independent (`submit_inOrder`).
-/

namespace Infinigpu.Icd

open Footprint

/-! ### Footprints of stores -/

/-- A byte of a mapped memory. -/
abbrev Loc := UInt32 × Nat

/-- The byte at a location. -/
def Maps.get (maps : Maps) (l : Loc) : UInt8 := maps l.1 l.2

private theorem Maps.get_injective : Function.Injective Maps.get := by
  intro maps maps' h
  funext handle a
  exact congrFun h (handle, a)

namespace Ptr

/-- The `n` bytes behind a pointer. -/
def span (p : Ptr) (n : Nat) : Set Loc := {l | l.1 = p.handle ∧ p.at_ ≤ l.2 ∧ l.2 < p.at_ + n}

private theorem load_congr {maps maps' : Maps} {p : Ptr} {n : Nat} (h : ∀ l ∈ p.span n, maps.get l = maps'.get l) :
    (maps p.handle).load p.at_ n = (maps' p.handle).load p.at_ n := by
  refine Memory.load_congr fun a ha ha' => ?_
  exact h (p.handle, a) ⟨rfl, ha, ha'⟩

private theorem get_store_of_notMem {maps : Maps} {p : Ptr} {bs : List UInt8} {l : Loc} (h : l ∉ p.span bs.length) :
    (p.store maps bs).get l = maps.get l := by
  unfold Maps.get store
  by_cases hhandle : l.1 = p.handle
  · rw [hhandle, Function.update_self]
    by_cases hlow : l.2 < p.at_
    · exact Memory.store_of_lt _ hlow
    · refine Memory.store_of_ge ?_
      by_contra hhigh
      exact h ⟨hhandle, by omega, by omega⟩
  · rw [Function.update_of_ne hhandle]

private theorem get_store_congr {maps maps' : Maps} {p : Ptr} {bs : List UInt8} {l : Loc}
    (h : maps.get l = maps'.get l) :
    (p.store maps bs).get l = (p.store maps' bs).get l := by
  unfold Maps.get at h
  unfold Maps.get store
  by_cases hhandle : l.1 = p.handle
  · rw [hhandle] at h
    rw [hhandle, Function.update_self, Function.update_self, Memory.store, Memory.store, h]
  · rw [Function.update_of_ne hhandle, Function.update_of_ne hhandle]
    exact h

end Ptr

/-- A store as an action. -/
def Op.action : Op → Action Maps.get
  | .memcpy dst src n =>
    { run := fun maps => (Op.memcpy dst src n).run maps
      reads := src.span n
      writes := dst.span n
      frame := by
        intro maps l hl
        refine Ptr.get_store_of_notMem ?_
        rw [Memory.load_length]
        exact hl
      sound := by
        intro maps maps' l hreads hl
        show (dst.store maps _).get l = (dst.store maps' _).get l
        rw [Ptr.load_congr hreads]
        exact Ptr.get_store_congr hl }
  | .store dst bs =>
    { run := fun maps => (Op.store dst bs).run maps
      reads := ∅
      writes := dst.span bs.length
      frame := fun _ _ hl => Ptr.get_store_of_notMem hl
      sound := fun _ _ _ _ hl => Ptr.get_store_congr hl }

theorem Op.runAll_eq (ops : List Op) (maps : Maps) : Op.runAll maps ops = Footprint.runAll Op.action ops maps := by
  induction ops generalizing maps with
  | nil => rfl
  | cons op ops ih =>
    cases op with
    | memcpy dst src n => exact ih _
    | store dst bs => exact ih _

/-- Stores of given bytes do not read. -/
private theorem runAll_store_congr (stores : List (Ptr × List UInt8)) {maps maps' : Maps} {l : Loc}
    (h : maps.get l = maps'.get l) :
    (Op.runAll maps (stores.map fun s => .store s.1 s.2)).get l =
      (Op.runAll maps' (stores.map fun s => .store s.1 s.2)).get l := by
  induction stores generalizing maps maps' with
  | nil => exact h
  | cons s stores ih => exact ih (Ptr.get_store_congr h)

/-! ### The footprint of the draw -/

section Render

variable (o : Outside)

/-- What the draws of a command buffer read: vertices and indices, and the uniforms, the storage buffer and the
textures of the bound set. -/
def drawReads (sets : Sets) (cmd : CmdBuffer) : Set Loc :=
  {l | cmd.draws ≠ [] ∧
    ((∃ p vb ptr, cmd.boundPipeline = some p ∧ cmd.vbuf = some vb ∧ vb.map = some ptr ∧
        l ∈ (ptr.add cmd.vbufOffset.toNat).span (vertexBytes p.vertexStride vb cmd.vbufOffset).toNat) ∨
      (∃ ib ptr, cmd.ibuf = some ib ∧ ib.map = some ptr ∧
        l ∈ (ptr.add cmd.ibufOffset.toNat).span
          (vertexBytes (if cmd.indexType = Infinigpu.IndexType.u32 then 4 else 2) ib cmd.ibufOffset).toNat) ∨
      ∃ ds, ds = (cmd.boundDescSet.map sets).getD .empty ∧
        ((∃ e ∈ ds.ubos.entries, ∃ r, e.2.bound = some r ∧ l ∈ r.1.span r.2.toNat) ∨
          (∃ r, ds.ssboBound = some r ∧ l ∈ r.1.span r.2.toNat) ∨
          ∃ t ∈ ds.textureImages, ∃ ptr, t.1.pixels = some ptr ∧ l ∈ ptr.span (t.1.width * t.1.height * 4).toNat))}

private theorem Ptr.load_eq {maps maps' : Maps} {p : Ptr} {n : UInt32}
    (h : ∀ l ∈ p.span n.toNat, maps.get l = maps'.get l) :
    p.load maps n = p.load maps' n := by
  simp only [Ptr.load, Ptr.load_congr h]

variable {sets : Sets} {cmd : CmdBuffer} {maps maps' : Maps}

private theorem vertexData_congr {p : Pipeline} (hdraws : cmd.draws ≠ []) (hp : cmd.boundPipeline = some p)
    (h : ∀ l ∈ drawReads sets cmd, maps.get l = maps'.get l) : cmd.vertexData maps p = cmd.vertexData maps' p := by
  unfold CmdBuffer.vertexData
  cases hvb : cmd.vbuf with
  | none => rfl
  | some vb =>
    cases hmap : vb.map with
    | none => simp only [hmap]
    | some ptr =>
      have hload : (ptr.add cmd.vbufOffset.toNat).load maps (vertexBytes p.vertexStride vb cmd.vbufOffset) =
          (ptr.add cmd.vbufOffset.toNat).load maps' (vertexBytes p.vertexStride vb cmd.vbufOffset) :=
        Ptr.load_eq fun l hl => h l ⟨hdraws, .inl ⟨p, vb, ptr, hp, hvb, hmap, hl⟩⟩
      simp only [hmap, hload]

private theorem indexData_congr (hdraws : cmd.draws ≠ []) (h : ∀ l ∈ drawReads sets cmd, maps.get l = maps'.get l) :
    cmd.indexData maps = cmd.indexData maps' := by
  unfold CmdBuffer.indexData
  cases hib : cmd.ibuf with
  | none => rfl
  | some ib =>
    cases hmap : ib.map with
    | none => simp only [hmap]
    | some ptr =>
      have hload : (ptr.add cmd.ibufOffset.toNat).load maps
            (vertexBytes (if cmd.indexType = Infinigpu.IndexType.u32 then 4 else 2) ib cmd.ibufOffset) =
          (ptr.add cmd.ibufOffset.toNat).load maps'
            (vertexBytes (if cmd.indexType = Infinigpu.IndexType.u32 then 4 else 2) ib cmd.ibufOffset) :=
        Ptr.load_eq fun l hl => h l ⟨hdraws, .inr (.inl ⟨ib, ptr, hib, hmap, hl⟩)⟩
      simp only [hmap, hload]

/-- The resources of the bound set are read. -/
private theorem boundSet_congr {ds : DescriptorSet} (hdraws : cmd.draws ≠ [])
    (hds : ds = (cmd.boundDescSet.map sets).getD .empty) (h : ∀ l ∈ drawReads sets cmd, maps.get l = maps'.get l) :
    ds.forwardedUbos maps = ds.forwardedUbos maps' ∧
      (ds.ssboBound.map fun r => r.1.load maps r.2) = (ds.ssboBound.map fun r => r.1.load maps' r.2) ∧
      texturePixels maps ds.textureImages = texturePixels maps' ds.textureImages := by
  refine ⟨List.filterMap_congr fun e he => ?_, ?_, ?_⟩
  · cases hbound : e.2.bound with
    | none => rfl
    | some r =>
      have hload : r.1.load maps r.2 = r.1.load maps' r.2 :=
        Ptr.load_eq fun l hl => h l ⟨hdraws, .inr (.inr ⟨ds, hds, .inl ⟨e, he, r, hbound, hl⟩⟩)⟩
      simp only [Option.map_some, hload]
  · cases hbound : ds.ssboBound with
    | none => rfl
    | some r =>
      have hload : r.1.load maps r.2 = r.1.load maps' r.2 :=
        Ptr.load_eq fun l hl => h l ⟨hdraws, .inr (.inr ⟨ds, hds, .inr (.inl ⟨r, hbound, hl⟩)⟩)⟩
      simp only [Option.map_some, hload]
  · have hpixels : (ds.textureImages.flatMap fun t => t.1.texturePixels maps) =
        ds.textureImages.flatMap fun t => t.1.texturePixels maps' := by
      refine List.flatMap_congr fun t ht => ?_
      unfold Image.texturePixels
      cases hptr : t.1.pixels with
      | none => rfl
      | some ptr =>
        have hload : ptr.load maps (t.1.width * t.1.height * 4) = ptr.load maps' (t.1.width * t.1.height * 4) :=
          Ptr.load_eq fun l hl => h l ⟨hdraws, .inr (.inr ⟨ds, hds, .inr (.inr ⟨t, ht, ptr, hptr, hl⟩)⟩)⟩
        simp only [hload]
    simp only [texturePixels, hpixels]

/-- What is sent for the draws depends on the memories only where they are read. -/
private theorem forwardDraws_congr (h : ∀ l ∈ drawReads sets cmd, maps.get l = maps'.get l) :
    State.forwardDraws { sets, maps, cmd } = State.forwardDraws { sets, maps := maps', cmd } := by
  have hcmdlist : ∀ p vs fs img, cmd.draws ≠ [] → cmd.boundPipeline = some p →
      replayCmdlist maps (State.boundSet { sets, maps, cmd }) cmd p vs fs img =
        replayCmdlist maps' (State.boundSet { sets, maps, cmd }) cmd p vs fs img := by
    intro p vs fs img hdraws hp
    obtain ⟨hubos, hssbo, htexpix⟩ := boundSet_congr hdraws rfl h
    unfold replayCmdlist
    rw [vertexData_congr hdraws hp h, indexData_congr hdraws h]
    cases cmd.vertexData maps' p with
    | error e => simp only [bind, Except.bind]
    | ok vdata =>
      cases cmd.indexData maps' with
      | error e => simp only [bind, Except.bind]
      | ok idata =>
        have hargs : cmdlistArgs maps (State.boundSet { sets, maps, cmd }) cmd p vs fs img vdata idata =
            cmdlistArgs maps' (State.boundSet { sets, maps, cmd }) cmd p vs fs img vdata idata := by
          unfold State.boundSet
          simp only [cmdlistArgs, hubos, hssbo, htexpix]
        simp only [bind, Except.bind, hargs]
  unfold State.forwardDraws
  cases hdraws : cmd.draws with
  | nil => rfl
  | cons d draws =>
    have hne : cmd.draws ≠ [] := by
      rw [hdraws]
      exact List.cons_ne_nil d draws
    cases hatt : cmd.colorAtt with
    | none => rfl
    | some att =>
      cases hp : cmd.boundPipeline with
      | none => rfl
      | some p =>
        have htakes : State.takesCmdlist { sets, maps, cmd } p = State.takesCmdlist { sets, maps := maps', cmd } p :=
          rfl
        have hset : State.boundSet { sets, maps, cmd } = State.boundSet { sets, maps := maps', cmd } := rfl
        simp only [hcmdlist p _ _ _ hne hp]
        simp only [htakes, hset]

private theorem render_congr (h : ∀ l ∈ drawReads sets cmd, maps.get l = maps'.get l) :
    State.render o { sets, maps, cmd } = State.render o { sets, maps := maps', cmd } := by
  unfold State.render
  rw [forwardDraws_congr h]

/-- The draw or the clear of a command buffer as an action; it may write what it stores for any contents. -/
def renderAction (sets : Sets) (cmd : CmdBuffer) : Action Maps.get where
  run maps :=
    match State.render o { sets, maps, cmd } with
    | .error _ => maps
    | .ok stores => Op.runAll maps (stores.map fun s => .store s.1 s.2)
  reads := drawReads sets cmd
  writes := {l | ∃ maps stores, State.render o { sets, maps, cmd } = .ok stores ∧
    ∃ s ∈ stores, l ∈ s.1.span s.2.length}
  frame := by
    intro maps l hl
    cases hrender : State.render o { sets, maps, cmd } with
    | error e => rfl
    | ok stores =>
      show (Op.runAll maps _).get l = maps.get l
      rw [Op.runAll_eq]
      refine runAll_frame Op.action (fun op hop => ?_) maps
      obtain ⟨s, hs, rfl⟩ := List.mem_map.1 hop
      exact fun hmem => hl ⟨maps, stores, hrender, s, hs, hmem⟩
  sound := by
    intro maps maps' l hreads hl
    rw [← render_congr o hreads]
    cases State.render o { sets, maps, cmd } with
    | error e => exact hl
    | ok stores => exact runAll_store_congr stores hl

end Render

/-! ### The steps of a recording -/

/-- When a step is carried out: host writes and eager transfers at once, the others in a submission, in this order. -/
inductive Phase where
  | hostWrite
  | eager
  | upload
  | render
  | copy
deriving DecidableEq

def Phase.rank : Phase → Nat
  | .hostWrite => 0
  | .eager => 1
  | .upload => 2
  | .render => 3
  | .copy => 4

/-- The commands that draw or clear. -/
def Cmd.renders : Cmd → Bool
  | .draw .. | .drawIndexed .. => true
  | .beginRendering _ colorAttachments => (colorAttachments.head?.bind (·.clear)).isSome
  | .clearAttachments attachments => attachments.any (·.1)
  | _ => false

/-- The transfer commands, and those that do nothing. -/
def Cmd.transfers : Cmd → Bool
  | .copyImageToBuffer2 .. | .copyBufferToImage2 .. | .copyBuffer2 .. | .fillBuffer .. | .updateBuffer .. => true
  | .endRendering | .other => true
  | _ => false

def BufferCopy.ops (src dst : Buffer) (r : BufferCopy) : List Op :=
  match src.map, dst.map with
  | some s, some d =>
    if r.srcOffset + r.size > src.totalSize ∨ r.dstOffset + r.size > dst.totalSize then
      []
    else
      [.memcpy (d.add r.dstOffset.toNat) (s.add r.srcOffset.toNat) r.size.toNat]
  | _, _ => []

def fillOps (dst : Buffer) (dstOffset size : UInt64) (data : UInt32) : List Op :=
  match dst.map with
  | none => []
  | some d =>
    if dstOffset > dst.totalSize then
      []
    else
      let endAt := min (if size = VK_WHOLE_SIZE then dst.totalSize else dstOffset + size) dst.totalSize
      [.store (d.add dstOffset.toNat) (Bytes.ofWords (List.replicate ((endAt - dstOffset) / 4).toNat data))]

def updateOps (dst : Buffer) (dstOffset : UInt64) (bs : List UInt8) : List Op :=
  match dst.map with
  | none => []
  | some d => if dstOffset + UInt64.ofNat bs.length > dst.totalSize then [] else [.store (d.add dstOffset.toNat) bs]

/-- The regions that are left for a submission to upload. -/
def Cmd.uploads : Cmd → List Region
  | .copyBufferToImage2 src dst regions => regions.map (·.region dst src)
  | _ => []

/-- The regions that are left for a submission to copy. -/
def Cmd.copies : Cmd → List Region
  | .copyImageToBuffer2 src dst regions => regions.map (·.region src dst)
  | _ => []

/-- The stores of a transfer, and when they are carried out. -/
def Cmd.ops : Cmd → Phase × List Op
  | .copyBuffer2 (some src) (some dst) regions => (.eager, regions.flatMap (BufferCopy.ops src dst))
  | .fillBuffer (some dst) dstOffset size data => (.eager, fillOps dst dstOffset size data)
  | .updateBuffer (some dst) dstOffset (some bs) => (.eager, updateOps dst dstOffset bs)
  | .copyBufferToImage2 src dst regions =>
    (.upload, (Cmd.copyBufferToImage2 src dst regions).uploads.flatMap Region.runUpload)
  | .copyImageToBuffer2 src dst regions =>
    (.copy, (Cmd.copyImageToBuffer2 src dst regions).copies.flatMap Region.runCopy)
  | _ => (.eager, [])

section Steps

variable (o : Outside) (sets : Sets) (cmd : CmdBuffer)

/-- The steps of a call, for a submission of `cmd`. -/
def Call.steps : Call → List (Phase × Action Maps.get)
  | .hostWrite p bs => [(.hostWrite, (Op.store p bs).action)]
  | .cmd c => if c.renders then [(.render, renderAction o sets cmd)] else c.ops.2.map fun op => (c.ops.1, op.action)
  | _ => []

/-- The steps of a recording in its order. -/
def steps (calls : List Call) : List (Phase × Action Maps.get) := calls.flatMap (Call.steps o sets cmd)

end Steps

/-- The steps of a phase. -/
def inPhase (p : Phase) (l : List (Phase × Action Maps.get)) : List (Phase × Action Maps.get) := l.filter (·.1 == p)

/-- What is carried out while recording. -/
def atOnce (l : List (Phase × Action Maps.get)) : List (Phase × Action Maps.get) := l.filter (·.1.rank ≤ 1)

/-- What is recorded. -/
def commands (l : List (Phase × Action Maps.get)) : List (Phase × Action Maps.get) := l.filter (!·.1 == .hostWrite)

/-- Two steps in this order are carried out in the other one: commands of different phases, or a transfer at once and
a later write of the host, which is before the submission. -/
def Inverted (a b : Phase) : Prop := 0 < b.rank ∧ b.rank < a.rank ∨ a = .eager ∧ b = .hostWrite

/-- Steps that change their order are independent. -/
def Reorderable (l : List (Phase × Action Maps.get)) : Prop :=
  l.Pairwise fun a b => Inverted a.1 b.1 → Independent a.2 b.2

private theorem Phase.eq_of_rank {p q : Phase} (h : p.rank = q.rank) : p = q := by
  cases p <;> cases q <;> first | rfl | cases h

/-- The commands phase by phase. -/
private theorem byPhase_commands (l : List (Phase × Action Maps.get)) :
    byPhase (fun a => a.1.rank) (commands l) 5 =
      inPhase .eager l ++ (inPhase .upload l ++ (inPhase .render l ++ inPhase .copy l)) := by
  have hphase : ∀ p : Phase, p ≠ .hostWrite → (commands l).filter (fun a => a.1.rank == p.rank) = inPhase p l := by
    intro p hp
    rw [commands, List.filter_filter]
    refine List.filter_congr fun a _ => ?_
    show (a.1.rank == p.rank && !(a.1 == .hostWrite)) = (a.1 == p)
    by_cases ha : a.1 = p
    · rw [ha]
      simp [hp]
    · have hrank : a.1.rank ≠ p.rank := fun heq => ha (Phase.eq_of_rank heq)
      rw [beq_eq_false_iff_ne.2 ha, beq_eq_false_iff_ne.2 hrank, Bool.false_and]
  have hhost : (commands l).filter (fun a => a.1.rank == 0) = [] := by
    rw [commands, List.filter_filter, List.filter_eq_nil_iff]
    intro a _ ha
    rw [Bool.and_eq_true, Bool.not_eq_true', beq_eq_false_iff_ne, beq_iff_eq] at ha
    exact ha.2 (Phase.eq_of_rank ha.1)
  have hsplit : byPhase (fun a => a.1.rank) (commands l) 5 =
      (commands l).filter (fun a => a.1.rank == 0) ++ ((commands l).filter (fun a => a.1.rank == Phase.eager.rank) ++
        ((commands l).filter (fun a => a.1.rank == Phase.upload.rank) ++
          ((commands l).filter (fun a => a.1.rank == Phase.render.rank) ++
            (commands l).filter (fun a => a.1.rank == Phase.copy.rank)))) := by
    have hrange : List.range 5 = [0, 1, 2, 3, 4] := rfl
    rw [byPhase, hrange]
    simp only [List.flatMap_cons, List.flatMap_nil, List.append_nil]
    rfl
  rw [hsplit, hhost, hphase .eager (by decide), hphase .upload (by decide), hphase .render (by decide),
    hphase .copy (by decide), List.nil_append]

/-- Commands can be carried out in their order instead of phase by phase. -/
theorem runAll_commands {l : List (Phase × Action Maps.get)} (h : Reorderable l) (maps : Maps) :
    runAll Prod.snd (inPhase .eager l ++ (inPhase .upload l ++ (inPhase .render l ++ inPhase .copy l))) maps =
      runAll Prod.snd (commands l) maps := by
  rw [← byPhase_commands]
  refine runAll_byPhase Maps.get_injective ?_ (fun a _ => ?_) maps
  · refine (List.Pairwise.filter _ h).imp_of_mem fun {a b} _ hb hab hlt => hab (.inl ⟨?_, hlt⟩)
    have hne : b.1 ≠ .hostWrite := by
      have hkept := (List.mem_filter.1 hb).2
      rw [Bool.not_eq_true', beq_eq_false_iff_ne] at hkept
      exact hkept
    exact Nat.pos_of_ne_zero fun h0 => hne (Phase.eq_of_rank h0)
  · cases a.1 <;> decide

/-- The writes of the host can all go first. -/
theorem runAll_atOnce {l : List (Phase × Action Maps.get)} (h : Reorderable l) (maps : Maps) :
    runAll Prod.snd (inPhase .hostWrite l ++ inPhase .eager l) maps = runAll Prod.snd (atOnce l) maps := by
  have hhost : inPhase .hostWrite l = (atOnce l).filter (·.1 == .hostWrite) := by
    rw [atOnce, List.filter_filter, inPhase]
    refine List.filter_congr fun a _ => ?_
    cases a.1 <;> rfl
  have heager : inPhase .eager l = (atOnce l).filter (!·.1 == .hostWrite) := by
    rw [atOnce, List.filter_filter, inPhase]
    refine List.filter_congr fun a _ => ?_
    cases a.1 <;> rfl
  rw [hhost, heager]
  refine runAll_partition Maps.get_injective ?_ maps
  refine (List.Pairwise.filter _ h).imp_of_mem fun {a b} ha _ hab hpa hpb => hab (.inr ⟨?_, beq_iff_eq.1 hpb⟩)
  have hle := of_decide_eq_true (List.mem_filter.1 ha).2
  cases hphase : a.1 with
  | eager => rfl
  | hostWrite =>
    rw [hphase] at hpa
    cases hpa
  | _ =>
    rw [hphase] at hle
    exact absurd hle (by decide)

/-! ### What is carried out while recording -/

theorem runAll_ops (p : Phase) (ops : List Op) (maps : Maps) :
    runAll Prod.snd (ops.map fun op => (p, op.action)) maps = Op.runAll maps ops := by
  induction ops generalizing maps with
  | nil => rfl
  | cons op ops ih =>
    cases op with
    | memcpy dst src n => exact ih _
    | store dst bs => exact ih _

private theorem copyBufferRegion_eq (src dst : Buffer) (maps : Maps) (r : BufferCopy) :
    copyBufferRegion src dst maps r = Op.runAll maps (r.ops src dst) := by
  unfold copyBufferRegion BufferCopy.ops
  cases src.map with
  | none => rfl
  | some s =>
    cases dst.map with
    | none => rfl
    | some d =>
      simp only
      split
      · rfl
      · rfl

private theorem cmdCopyBuffer2_eq (src dst : Buffer) (regions : List BufferCopy) (maps : Maps) :
    cmdCopyBuffer2 maps (some src) (some dst) regions =
      Op.runAll maps (regions.flatMap (BufferCopy.ops src dst)) := by
  show regions.foldl (copyBufferRegion src dst) maps = _
  induction regions generalizing maps with
  | nil => rfl
  | cons r regions ih =>
    rw [List.foldl_cons, ih, copyBufferRegion_eq, List.flatMap_cons, Op.runAll, Op.runAll, Op.runAll,
      List.foldl_append]

private theorem cmdFillBuffer_eq (dst : Buffer) (dstOffset size : UInt64) (data : UInt32) (maps : Maps) :
    cmdFillBuffer maps (some dst) dstOffset size data = Op.runAll maps (fillOps dst dstOffset size data) := by
  unfold cmdFillBuffer fillOps
  cases hmap : dst.map with
  | none => simp only [hmap]; rfl
  | some d =>
    simp only [hmap]
    split
    · rfl
    · rfl

private theorem cmdUpdateBuffer_eq (dst : Buffer) (dstOffset : UInt64) (bs : List UInt8) (maps : Maps) :
    cmdUpdateBuffer maps (some dst) dstOffset (some bs) = Op.runAll maps (updateOps dst dstOffset bs) := by
  unfold cmdUpdateBuffer updateOps
  cases hmap : dst.map with
  | none => simp only [hmap]; rfl
  | some d =>
    simp only [hmap]
    split
    · rfl
    · rfl

/-- What a command does while it is recorded are its eager stores. -/
private theorem eager_eq (c : Cmd) (maps : Maps) :
    c.eager maps = if c.ops.1 = .eager then Op.runAll maps c.ops.2 else maps := by
  cases c with
  | copyBuffer2 src dst regions =>
    cases src with
    | none => rfl
    | some src =>
      cases dst with
      | none => rfl
      | some dst => exact cmdCopyBuffer2_eq src dst regions maps
  | fillBuffer dst dstOffset size data =>
    cases dst with
    | none => rfl
    | some dst => exact cmdFillBuffer_eq dst dstOffset size data maps
  | updateBuffer dst dstOffset data =>
    cases dst with
    | none => rfl
    | some dst =>
      cases data with
      | none => rfl
      | some bs => exact cmdUpdateBuffer_eq dst dstOffset bs maps
  | _ => rfl

/-- The stores of a transfer are not the host's, and they are not a draw. -/
private theorem ops_phase (c : Cmd) : c.ops.1 = .eager ∨ c.ops.1 = .upload ∨ c.ops.1 = .copy := by
  cases c with
  | copyBuffer2 src dst regions => cases src <;> cases dst <;> exact .inl rfl
  | fillBuffer dst dstOffset size data => cases dst <;> exact .inl rfl
  | updateBuffer dst dstOffset data => cases dst <;> cases data <;> exact .inl rfl
  | copyBufferToImage2 => exact .inr (.inl rfl)
  | copyImageToBuffer2 => exact .inr (.inr rfl)
  | _ => exact .inl rfl

section Recording

variable (o : Outside) (sets : Sets) (cmd : CmdBuffer)

private theorem renders_ops {c : Cmd} (h : c.renders = true) (maps : Maps) : c.eager maps = maps := by
  cases c with
  | draw => rfl
  | drawIndexed => rfl
  | beginRendering => rfl
  | clearAttachments => rfl
  | _ => cases h

/-- The memories after a call. -/
private theorem call_maps (st : State) (c : Call) :
    (st.call c).maps = runAll Prod.snd (atOnce (c.steps o sets cmd)) st.maps := by
  cases c with
  | cmd c =>
    show c.eager st.maps = _
    simp only [Call.steps]
    by_cases hrenders : c.renders = true
    · rw [if_pos hrenders, renders_ops hrenders]
      rfl
    · rw [if_neg hrenders, eager_eq]
      by_cases heager : c.ops.1 = .eager
      · have hall : atOnce (c.ops.2.map fun op => (c.ops.1, op.action)) =
          c.ops.2.map fun op => (c.ops.1, op.action) := by
          refine List.filter_eq_self.2 fun a ha => ?_
          obtain ⟨op, -, rfl⟩ := List.mem_map.1 ha
          simp only [heager]
          rfl
        rw [if_pos heager, hall, runAll_ops]
      · have hnone : atOnce (c.ops.2.map fun op => (c.ops.1, op.action)) = [] := by
          refine List.filter_eq_nil_iff.2 fun a ha => ?_
          obtain ⟨op, -, rfl⟩ := List.mem_map.1 ha
          rcases ops_phase c with hphase | hphase | hphase
          · exact absurd hphase heager
          · simp [hphase, Phase.rank]
          · simp [hphase, Phase.rank]
        rw [if_neg heager, hnone]
        rfl
  | _ => rfl

/-- The memories after a recording. -/
theorem run_maps (st : State) (calls : List Call) :
    (st.run calls).maps = runAll Prod.snd (atOnce (steps o sets cmd calls)) st.maps := by
  induction calls generalizing st with
  | nil => rfl
  | cons c calls ih =>
    have hsteps : atOnce (steps o sets cmd (c :: calls)) =
      atOnce (c.steps o sets cmd) ++ atOnce (steps o sets cmd calls) :=
      List.filter_append _ _
    show ((st.call c).run calls).maps = _
    rw [ih, call_maps o sets cmd st c, hsteps, runAll_append]

end Recording

end Infinigpu.Icd
