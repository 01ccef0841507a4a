import Infinigpu.Guest.InOrder
import Infinigpu.Guest.Recorded

/-!
# What a submission carries out

A recording leaves its uploads and its copies to the submission, in their order (`run_defers`).  The memories after a
submission are those of the recorded order if what changes its order is independent (`submit_inOrder`).
-/

namespace Infinigpu.Icd

open Footprint

/-! ### What is left for the submission -/

/-- If it has not failed, `cmd'` has some uploads and copies more than `cmd`. -/
def Defers (cmd cmd' : CmdBuffer) (uploads copies : List Region) : Prop :=
  cmd'.failed = false → cmd.failed = false ∧ cmd'.uploads = cmd.uploads ++ uploads ∧
    cmd'.copies = cmd.copies ++ copies

private theorem Defers.refl {cmd cmd' : CmdBuffer} (hfailed : cmd'.failed = cmd.failed)
    (huploads : cmd'.uploads = cmd.uploads) (hcopies : cmd'.copies = cmd.copies) : Defers cmd cmd' [] [] := by
  intro h
  rw [List.append_nil, List.append_nil]
  exact ⟨hfailed.symm.trans h, huploads, hcopies⟩

private theorem Defers.trans {cmd cmd' cmd'' : CmdBuffer} {uploads uploads' copies copies' : List Region}
    (h : Defers cmd cmd' uploads copies) (h' : Defers cmd' cmd'' uploads' copies') :
    Defers cmd cmd'' (uploads ++ uploads') (copies ++ copies') := by
  intro hok
  obtain ⟨hok', huploads', hcopies'⟩ := h' hok
  obtain ⟨hfailed, huploads, hcopies⟩ := h hok'
  exact ⟨hfailed, by rw [huploads', huploads, List.append_assoc], by rw [hcopies', hcopies, List.append_assoc]⟩

private theorem deferUpload_defers (cmd : CmdBuffer) (r : Region) : Defers cmd (cmd.deferUpload r) [r] [] := by
  intro hok
  unfold CmdBuffer.deferUpload at hok ⊢
  by_cases hroom : cmd.uploads.length < MAX_UPLOADS
  · rw [dif_pos hroom] at hok ⊢
    exact ⟨hok, rfl, (List.append_nil _).symm⟩
  · rw [dif_neg hroom] at hok
    cases hok

private theorem deferCopy_defers (cmd : CmdBuffer) (r : Region) : Defers cmd (cmd.deferCopy r) [] [r] := by
  intro hok
  unfold CmdBuffer.deferCopy at hok ⊢
  by_cases hroom : cmd.copies.length < MAX_COPIES
  · rw [dif_pos hroom] at hok ⊢
    exact ⟨hok, (List.append_nil _).symm, rfl⟩
  · rw [dif_neg hroom] at hok
    cases hok

private theorem uploads_defers {α : Type*} (f : α → Region) (l : List α) (cmd : CmdBuffer) :
    Defers cmd (l.foldl (fun cmd a => cmd.deferUpload (f a)) cmd) (l.map f) [] := by
  induction l generalizing cmd with
  | nil => exact .refl rfl rfl rfl
  | cons a l ih => exact (deferUpload_defers cmd (f a)).trans (ih _)

private theorem copies_defers {α : Type*} (f : α → Region) (l : List α) (cmd : CmdBuffer) :
    Defers cmd (l.foldl (fun cmd a => cmd.deferCopy (f a)) cmd) [] (l.map f) := by
  induction l generalizing cmd with
  | nil => exact .refl rfl rfl rfl
  | cons a l ih => exact (deferCopy_defers cmd (f a)).trans (ih _)

private theorem Defers.foldl {α : Type*} {f : CmdBuffer → α → CmdBuffer} (hf : ∀ cmd a, Defers cmd (f cmd a) [] [])
    (l : List α) (cmd : CmdBuffer) : Defers cmd (l.foldl f cmd) [] [] := by
  induction l generalizing cmd with
  | nil => exact .refl rfl rfl rfl
  | cons a l ih => exact (hf cmd a).trans (ih (f cmd a))

/-- A recording that fails leaves nothing for a submission. -/
private theorem setError_defers (cmd : CmdBuffer) (uploads copies : List Region) :
    Defers cmd cmd.setError uploads copies :=
  fun hok => absurd hok nofun

private theorem recordDraw_defers (cmd : CmdBuffer) (count instanceCount first : UInt32) (vertexOffset : Int32)
    (indexed : Bool) :
    Defers cmd (cmd.recordDraw count instanceCount first vertexOffset indexed) [] [] := by
  unfold CmdBuffer.recordDraw
  by_cases hroom : cmd.draws.length < MAX_DRAWS
  · rw [dif_pos hroom]
    exact .refl rfl rfl rfl
  · rw [dif_neg hroom]
    exact setError_defers cmd [] []

private theorem clearAttachments_defers (attachments : List (Bool × Rgba)) (cmd : CmdBuffer) :
    Defers cmd (cmd.cmdClearAttachments attachments) [] [] := by
  refine Defers.foldl (fun cmd a => ?_) attachments cmd
  simp only
  split
  · exact .refl rfl rfl rfl
  · exact .refl rfl rfl rfl

private theorem beginRendering_defers (cmd : CmdBuffer) (area : Rect2D) (atts : List RenderingAttachment) :
    Defers cmd (cmd.cmdBeginRendering area atts) [] [] := by
  unfold CmdBuffer.cmdBeginRendering
  cases atts with
  | nil => exact .refl rfl rfl rfl
  | cons att atts =>
    cases hclear : att.clear with
    | none =>
      simp only [hclear]
      exact .refl rfl rfl rfl
    | some color =>
      simp only [hclear]
      exact .refl rfl rfl rfl

private theorem bindPipeline_defers (cmd : CmdBuffer) (graphics : Bool) (pipeline : Option Pipeline) :
    Defers cmd (cmd.cmdBindPipeline graphics pipeline) [] [] := by
  cases graphics with
  | true => exact .refl rfl rfl rfl
  | false => exact .refl rfl rfl rfl

private theorem bindVertexBuffers2_defers (cmd : CmdBuffer) (firstBinding : UInt32)
    (buffers : List (Option Buffer × UInt64)) :
    Defers cmd (cmd.cmdBindVertexBuffers2 firstBinding buffers) [] [] := by
  refine Defers.foldl (fun cmd b => ?_) _ cmd
  simp only
  split
  · exact .refl rfl rfl rfl
  · exact .refl rfl rfl rfl

private theorem setViewport_defers (cmd : CmdBuffer) (firstViewport : UInt32) (viewports : List Rgba) :
    Defers cmd (cmd.cmdSetViewport firstViewport viewports) [] [] := by
  unfold CmdBuffer.cmdSetViewport
  cases viewports with
  | nil => exact .refl rfl rfl rfl
  | cons vp vps =>
    simp only
    split
    · exact .refl rfl rfl rfl
    · exact .refl rfl rfl rfl

private theorem bindDescriptorSets_defers (cmd : CmdBuffer) (sets : Sets) (graphics : Bool)
    (bound : List (Option Nat)) :
    Defers cmd (cmd.cmdBindDescriptorSets sets graphics bound) [] [] := by
  unfold CmdBuffer.cmdBindDescriptorSets
  by_cases hgraphics : graphics
  · rw [if_pos hgraphics]
    refine Defers.foldl (fun cmd handle => ?_) bound cmd
    cases handle with
    | none => exact .refl rfl rfl rfl
    | some set =>
      simp only
      split
      · exact .refl rfl rfl rfl
      · exact .refl rfl rfl rfl
  · rw [if_neg hgraphics]
    exact .refl rfl rfl rfl

private theorem pushConstants_defers (cmd : CmdBuffer) (offset : UInt32) (values : Counted UInt8) :
    Defers cmd (cmd.cmdPushConstants offset values) [] [] := by
  unfold CmdBuffer.cmdPushConstants
  split
  · exact setError_defers cmd [] []
  · exact .refl rfl rfl rfl

/-- What a command leaves for the submission. -/
private theorem record_defers (sets : Sets) (cmd : CmdBuffer) (c : Cmd) :
    Defers cmd (cmd.record sets c) c.uploads c.copies := by
  cases c with
  | beginRendering area atts => exact beginRendering_defers cmd area atts
  | endRendering => exact .refl rfl rfl rfl
  | bindPipeline graphics pipeline => exact bindPipeline_defers cmd graphics pipeline
  | draw => exact recordDraw_defers cmd _ _ _ _ _
  | drawIndexed => exact recordDraw_defers cmd _ _ _ _ _
  | bindVertexBuffers2 firstBinding buffers => exact bindVertexBuffers2_defers cmd firstBinding buffers
  | bindIndexBuffer2 => exact .refl rfl rfl rfl
  | setViewport firstViewport viewports => exact setViewport_defers cmd firstViewport viewports
  | setDynamic state =>
    cases state
    all_goals exact .refl rfl rfl rfl
  | bindDescriptorSets graphics bound => exact bindDescriptorSets_defers cmd sets graphics bound
  | pushConstants offset values => exact pushConstants_defers cmd offset values
  | clearAttachments attachments => exact clearAttachments_defers attachments cmd
  | copyImageToBuffer2 src dst regions => exact copies_defers (·.region src dst) regions cmd
  | copyBufferToImage2 src dst regions => exact uploads_defers (·.region dst src) regions cmd
  | copyBuffer2 => exact .refl rfl rfl rfl
  | fillBuffer => exact .refl rfl rfl rfl
  | updateBuffer => exact .refl rfl rfl rfl
  | other => exact .refl rfl rfl rfl

/-! ### Recordings of transfers -/

namespace Call

def uploads : Call → List Region
  | .cmd c => c.uploads
  | _ => []

def copies : Call → List Region
  | .cmd c => c.copies
  | _ => []

def renders : Call → Bool
  | .cmd c => c.renders
  | _ => false

/-- What neither draws nor changes how is drawn. -/
def transfers : Call → Bool
  | .beginCommandBuffer => false
  | .cmd c => c.transfers
  | _ => true

end Call

/-- A recording goes on; at most one of its commands draws or clears, and behind it nothing is bound any more. -/
structure Transfers (calls : List Call) : Prop where
  goesOn : ∀ c ∈ calls, c ≠ .beginCommandBuffer
  behind : calls.Pairwise fun a b => a.renders = true → b.transfers = true

theorem Transfers.tail {c : Call} {calls : List Call} (h : Transfers (c :: calls)) : Transfers calls where
  goesOn := (List.forall_mem_cons.1 h.goesOn).2
  behind := (List.pairwise_cons.1 h.behind).2

private theorem not_renders_of_transfers {c : Call} (h : c.transfers = true) : c.renders = false := by
  cases c with
  | cmd c => cases c <;> first | rfl | cases h
  | _ => rfl

/-- Only one command draws or clears. -/
private theorem Transfers.renders_le {calls : List Call} (h : Transfers calls) :
    (calls.filter Call.renders).length ≤ 1 := by
  induction calls with
  | nil => exact Nat.zero_le 1
  | cons c calls ih =>
    rw [List.filter_cons]
    split
    · next hrenders =>
      have hnone : calls.filter Call.renders = [] := by
        refine List.filter_eq_nil_iff.2 fun d hd => Bool.not_eq_true _ ▸ not_renders_of_transfers ?_
        exact (List.pairwise_cons.1 h.behind).1 d hd hrenders
      rw [hnone]
      exact Nat.le_refl 1
    · exact ih h.tail

private theorem call_defers (st : State) {c : Call} (h : c ≠ .beginCommandBuffer) :
    Defers st.cmd (st.call c).cmd c.uploads c.copies := by
  cases c with
  | beginCommandBuffer => exact absurd rfl h
  | cmd c => exact record_defers st.sets st.cmd c
  | _ => exact .refl rfl rfl rfl

/-- **A recording that has not failed leaves all its uploads and copies to the submission.** -/
theorem run_defers (st : State) {calls : List Call} (h : ∀ c ∈ calls, c ≠ .beginCommandBuffer) :
    Defers st.cmd (st.run calls).cmd (calls.flatMap Call.uploads) (calls.flatMap Call.copies) := by
  induction calls generalizing st with
  | nil => exact .refl rfl rfl rfl
  | cons c calls ih =>
    obtain ⟨hc, hcalls⟩ := List.forall_mem_cons.1 h
    exact (call_defers st hc).trans (ih (st.call c) hcalls)

/-! ### Recordings without a draw -/

/-- A command that does not clear. -/
private theorem record_hasClear (sets : Sets) {cmd : CmdBuffer} {c : Cmd} (h : c.renders = false)
    (hclear : cmd.hasClear = false) :
    (cmd.record sets c).hasClear = false := by
  have hfold : ∀ {α : Type} {f : CmdBuffer → α → CmdBuffer} (l : List α),
      (∀ cmd a, a ∈ l → (f cmd a).hasClear = cmd.hasClear) → (l.foldl f cmd).hasClear = false := by
    intro α f l hf
    exact List.foldlRecOn l f hclear fun cmd hcmd a ha => (hf cmd a ha).trans hcmd
  cases c with
  | beginRendering area atts =>
    show (cmd.cmdBeginRendering area atts).hasClear = false
    unfold CmdBuffer.cmdBeginRendering
    cases atts with
    | nil => rfl
    | cons att atts =>
      have hnone : att.clear = none := by
        simpa [Cmd.renders] using h
      simp only [hnone]
  | draw => cases h
  | drawIndexed => cases h
  | bindPipeline graphics pipeline => cases graphics <;> exact hclear
  | bindVertexBuffers2 firstBinding buffers =>
    refine hfold _ fun cmd b _ => ?_
    simp only
    split
    · rfl
    · rfl
  | bindIndexBuffer2 => exact hclear
  | setViewport firstViewport viewports =>
    show (cmd.cmdSetViewport firstViewport viewports).hasClear = false
    unfold CmdBuffer.cmdSetViewport
    cases viewports with
    | nil => exact hclear
    | cons vp vps =>
      simp only
      split
      · exact hclear
      · exact hclear
  | setDynamic state =>
    cases state
    all_goals exact hclear
  | bindDescriptorSets graphics bound =>
    show (cmd.cmdBindDescriptorSets sets graphics bound).hasClear = false
    unfold CmdBuffer.cmdBindDescriptorSets
    split
    · refine hfold _ fun cmd handle _ => ?_
      cases handle with
      | none => rfl
      | some set =>
        simp only
        split
        · rfl
        · rfl
    · exact hclear
  | pushConstants offset values =>
    show (cmd.cmdPushConstants offset values).hasClear = false
    unfold CmdBuffer.cmdPushConstants
    split
    · exact hclear
    · exact hclear
  | clearAttachments attachments =>
    have hnone : ∀ a ∈ attachments, a.1 = false := by
      simpa [Cmd.renders] using h
    refine hfold attachments fun cmd a ha => ?_
    simp [hnone a ha]
  | copyImageToBuffer2 src dst regions =>
    refine hfold regions fun cmd r _ => ?_
    unfold CmdBuffer.deferCopy
    split
    · rfl
    · rfl
  | copyBufferToImage2 src dst regions =>
    refine hfold regions fun cmd r _ => ?_
    unfold CmdBuffer.deferUpload
    split
    · rfl
    · rfl
  | endRendering => exact hclear
  | copyBuffer2 => exact hclear
  | fillBuffer => exact hclear
  | updateBuffer => exact hclear
  | other => exact hclear

private theorem asks_of_not_renders (cmd : CmdBuffer) {c : Cmd} (h : c.renders = false) : c.asks cmd = none := by
  cases c with
  | draw => cases h
  | drawIndexed => cases h
  | _ => rfl

/-- Without a draw and a clear there is nothing to render. -/
private theorem run_not_renders (st : State) {calls : List Call} (hrec : ∀ c ∈ calls, c ≠ .beginCommandBuffer)
    (hnone : ∀ c ∈ calls, c.renders = false) (hdraws : st.cmd.draws = []) (hclear : st.cmd.hasClear = false) :
    (st.run calls).cmd.draws = [] ∧ (st.run calls).cmd.hasClear = false := by
  induction calls generalizing st with
  | nil => exact ⟨hdraws, hclear⟩
  | cons c calls ih =>
    obtain ⟨hc, hcalls⟩ := List.forall_mem_cons.1 hrec
    obtain ⟨hfirst, hlater⟩ := List.forall_mem_cons.1 hnone
    cases c with
    | beginCommandBuffer => exact absurd rfl hc
    | cmd c =>
      have hkeeps := CmdBuffer.record_keepsDraws st.sets (asks_of_not_renders st.cmd hfirst)
      exact ih _ hcalls hlater (hkeeps.draws.trans hdraws) (record_hasClear st.sets hfirst hclear)
    | _ => exact ih _ hcalls hlater hdraws hclear

/-! ### The steps of a submission -/

section Submission

variable (o : Outside) (sets : Sets) (cmd : CmdBuffer)

private theorem inPhase_append (p : Phase) (l l' : List (Phase × Action Maps.get)) :
    inPhase p (l ++ l') = inPhase p l ++ inPhase p l' := List.filter_append _ _

/-- Steps that are all of one phase. -/
private theorem inPhase_ops (p q : Phase) (ops : List Op) :
    inPhase p (ops.map fun op => (q, op.action)) = if q = p then ops.map fun op => (q, op.action) else [] := by
  unfold inPhase
  by_cases hq : q = p
  · rw [if_pos hq]
    refine List.filter_eq_self.2 fun a ha => ?_
    obtain ⟨op, -, rfl⟩ := List.mem_map.1 ha
    exact beq_iff_eq.2 hq
  · rw [if_neg hq]
    refine List.filter_eq_nil_iff.2 fun a ha => ?_
    obtain ⟨op, -, rfl⟩ := List.mem_map.1 ha
    exact fun heq => hq (beq_iff_eq.1 heq)

/-- The deferred steps of a call are those of its regions. -/
private theorem call_steps (c : Call) :
    inPhase .upload (c.steps o sets cmd) = (c.uploads.flatMap Region.runUpload).map (fun op => (.upload, op.action)) ∧
      inPhase .copy (c.steps o sets cmd) = (c.copies.flatMap Region.runCopy).map (fun op => (.copy, op.action)) ∧
      inPhase .render (c.steps o sets cmd) = if c.renders then [(.render, renderAction o sets cmd)] else [] := by
  cases c with
  | cmd c =>
    by_cases hrenders : c.renders = true
    · have hsteps : Call.steps o sets cmd (.cmd c) = [(.render, renderAction o sets cmd)] := if_pos hrenders
      have hcall : (Call.cmd c).renders = true := hrenders
      have hnone : (Call.cmd c).uploads = [] ∧ (Call.cmd c).copies = [] := by
        cases c with
        | copyBufferToImage2 => cases hrenders
        | copyImageToBuffer2 => cases hrenders
        | _ => exact ⟨rfl, rfl⟩
      rw [hsteps, hcall, hnone.1, hnone.2]
      exact ⟨rfl, rfl, rfl⟩
    · have hsteps : Call.steps o sets cmd (.cmd c) = c.ops.2.map fun op => (c.ops.1, op.action) := if_neg hrenders
      have hcall : (Call.cmd c).renders = false := Bool.eq_false_iff.2 hrenders
      rw [hsteps, hcall, inPhase_ops, inPhase_ops, inPhase_ops]
      cases c with
      | copyBufferToImage2 src dst regions => exact ⟨rfl, rfl, rfl⟩
      | copyImageToBuffer2 src dst regions => exact ⟨rfl, rfl, rfl⟩
      | copyBuffer2 src dst regions => cases src <;> cases dst <;> exact ⟨rfl, rfl, rfl⟩
      | fillBuffer dst => cases dst <;> exact ⟨rfl, rfl, rfl⟩
      | updateBuffer dst dstOffset data => cases dst <;> cases data <;> exact ⟨rfl, rfl, rfl⟩
      | _ => exact ⟨rfl, rfl, rfl⟩
  | _ => exact ⟨rfl, rfl, rfl⟩

private theorem inPhase_upload (calls : List Call) : inPhase .upload (steps o sets cmd calls) =
    ((calls.flatMap Call.uploads).flatMap Region.runUpload).map fun op => (.upload, op.action) := by
  induction calls with
  | nil => rfl
  | cons c calls ih =>
    rw [steps, List.flatMap_cons, inPhase_append, (call_steps o sets cmd c).1, List.flatMap_cons, List.flatMap_append,
      List.map_append, ← ih]
    rfl

private theorem inPhase_copy (calls : List Call) : inPhase .copy (steps o sets cmd calls) =
    ((calls.flatMap Call.copies).flatMap Region.runCopy).map fun op => (.copy, op.action) := by
  induction calls with
  | nil => rfl
  | cons c calls ih =>
    rw [steps, List.flatMap_cons, inPhase_append, (call_steps o sets cmd c).2.1, List.flatMap_cons,
      List.flatMap_append, List.map_append, ← ih]
    rfl

private theorem inPhase_render (calls : List Call) : inPhase .render (steps o sets cmd calls) =
    (calls.filter Call.renders).map fun _ => (.render, renderAction o sets cmd) := by
  induction calls with
  | nil => rfl
  | cons c calls ih =>
    rw [steps, List.flatMap_cons, inPhase_append, (call_steps o sets cmd c).2.2, List.filter_cons]
    cases c.renders with
    | true =>
      rw [if_pos rfl, if_pos rfl, List.map_cons, ← ih]
      rfl
    | false =>
      rw [if_neg nofun, if_neg nofun, List.nil_append, ← ih]
      rfl

/-- What a submission of a recording carries out. -/
private theorem submit_steps {st : State} {calls : List Call} {maps' : Maps} (maps : Maps) (hcalls : Transfers calls)
    (hok : (st.recording calls).cmd.failed = false)
    (h : State.submit o { sets, maps, cmd := (st.recording calls).cmd } = .ok maps') :
    maps' = runAll Prod.snd (inPhase .upload (steps o sets (st.recording calls).cmd calls) ++
      (inPhase .render (steps o sets (st.recording calls).cmd calls) ++
        inPhase .copy (steps o sets (st.recording calls).cmd calls))) maps := by
  obtain ⟨-, huploads, hcopies⟩ := run_defers (st.call .beginCommandBuffer) hcalls.goesOn hok
  have huploads : (st.recording calls).cmd.uploads = calls.flatMap Call.uploads := huploads
  have hcopies : (st.recording calls).cmd.copies = calls.flatMap Call.copies := hcopies
  simp only [State.submit, huploads, hcopies] at h
  rw [runAll_append, runAll_append, inPhase_upload, inPhase_copy, runAll_ops, runAll_ops, inPhase_render]
  cases hrender : State.render o
      { sets
        maps := Op.runAll maps ((calls.flatMap Call.uploads).flatMap Region.runUpload)
        cmd := (st.recording calls).cmd } with
  | error e =>
    rw [hrender] at h
    cases h
  | ok stores =>
    simp only [hrender, bind, Except.bind, Except.ok.injEq] at h
    rw [← h]
    congr 1
    cases hrenders : calls.filter Call.renders with
    | nil =>
      -- nothing is stored
      have hnone : ∀ c ∈ calls, c.renders = false := fun c hc =>
        Bool.eq_false_iff.2 (List.filter_eq_nil_iff.1 hrenders c hc)
      have hrun := run_not_renders (st.call .beginCommandBuffer) hcalls.goesOn hnone rfl rfl
      have hdraws : (st.recording calls).cmd.draws = [] := hrun.1
      have hclear : (st.recording calls).cmd.hasClear = false := hrun.2
      have hempty : stores = [] := by
        simp only [State.render, State.forwardDraws, hdraws, hclear, Except.ok.injEq] at hrender
        exact hrender.symm
      rw [hempty]
      rfl
    | cons c rest =>
      have hone := hcalls.renders_le
      rw [hrenders] at hone
      have hrest : rest = [] := List.length_eq_zero_iff.1 (by simpa using hone)
      rw [hrest, List.map_cons, List.map_nil, runAll_cons, runAll_nil]
      simp only [renderAction, hrender]

end Submission

/-! ### In order -/

section InOrder

variable (o : Outside)

/-- A transfer does not change what is drawn. -/
private theorem record_transfers (sets sets' : Sets) (cmd : CmdBuffer) {c : Cmd} (h : c.transfers = true) :
    renderAction o sets (cmd.record sets' c) = renderAction o sets cmd := by
  have hfold : ∀ {α : Type} {f : CmdBuffer → α → CmdBuffer} (l : List α),
      (∀ cmd a, renderAction o sets (f cmd a) = renderAction o sets cmd) →
        renderAction o sets (l.foldl f cmd) = renderAction o sets cmd := by
    intro α f l hf
    refine List.foldlRecOn (motive := fun cmd' => renderAction o sets cmd' = renderAction o sets cmd) l f rfl ?_
    exact fun cmd' hcmd' a _ => (hf cmd' a).trans hcmd'
  cases c with
  | copyImageToBuffer2 src dst regions =>
    refine hfold regions fun cmd r => ?_
    unfold CmdBuffer.deferCopy
    split
    · rfl
    · rfl
  | copyBufferToImage2 src dst regions =>
    refine hfold regions fun cmd r => ?_
    unfold CmdBuffer.deferUpload
    split
    · rfl
    · rfl
  | copyBuffer2 => rfl
  | fillBuffer => rfl
  | updateBuffer => rfl
  | endRendering => rfl
  | other => rfl
  | _ => cases h

private theorem run_transfers (sets : Sets) (st : State) {calls : List Call} (h : ∀ c ∈ calls, c.transfers = true) :
    renderAction o sets (st.run calls).cmd = renderAction o sets st.cmd := by
  induction calls generalizing st with
  | nil => rfl
  | cons c calls ih =>
    obtain ⟨hc, hcalls⟩ := List.forall_mem_cons.1 h
    refine (ih (st.call c) hcalls).trans ?_
    cases c with
    | beginCommandBuffer => cases hc
    | cmd c => exact record_transfers o sets st.sets st.cmd hc
    | _ => rfl

/-- The steps of the calls from `st` on, each with the command buffer as it is then. -/
def State.recordedSteps (sets : Sets) (st : State) : List Call → List (Phase × Action Maps.get)
  | [] => []
  | c :: calls => c.steps o sets (st.call c).cmd ++ State.recordedSteps sets (st.call c) calls

private theorem steps_of_not_renders (sets : Sets) (cmd cmd' : CmdBuffer) {c : Call} (h : c.renders = false) :
    c.steps o sets cmd = c.steps o sets cmd' := by
  cases c with
  | cmd c =>
    have hrenders : ¬ c.renders = true := Bool.eq_false_iff.1 h
    simp only [Call.steps, if_neg hrenders]
  | _ => rfl

/-- A draw is that of the command buffer which is submitted. -/
private theorem recordedSteps_eq (sets : Sets) (st : State) {calls : List Call} (h : Transfers calls) :
    st.recordedSteps o sets calls = steps o sets (st.run calls).cmd calls := by
  induction calls generalizing st with
  | nil => rfl
  | cons c calls ih =>
    have hrun : st.run (c :: calls) = (st.call c).run calls := rfl
    rw [State.recordedSteps, ih (st.call c) h.tail, hrun]
    show _ = c.steps o sets ((st.call c).run calls).cmd ++ steps o sets ((st.call c).run calls).cmd calls
    congr 1
    cases hrenders : c.renders with
    | false => exact steps_of_not_renders o sets _ _ hrenders
    | true =>
      have hlater : ∀ d ∈ calls, d.transfers = true := fun d hd => (List.pairwise_cons.1 h.behind).1 d hd hrenders
      cases c with
      | cmd c =>
        have hcmd : c.renders = true := hrenders
        simp only [Call.steps, if_pos hcmd, run_transfers o sets (st.call (.cmd c)) hlater]
      | _ => cases hrenders

/-- The memories if the host writes and then the commands are carried out in their order. -/
def inOrder (l : List (Phase × Action Maps.get)) (maps : Maps) : Maps :=
  runAll Prod.snd (commands l) (runAll Prod.snd (inPhase .hostWrite l) maps)

/-- The steps of a recording. -/
def State.recordingSteps (st : State) (sets : Sets) (calls : List Call) : List (Phase × Action Maps.get) :=
  State.recordedSteps o sets (st.call .beginCommandBuffer) calls

/-- **The memories after a submission are those of the recorded order, executed at the submission, if the steps that
change their order are independent.**  The same is so of a later submission that would find the eager transfers
done. -/
theorem submit_inOrder {st : State} {calls : List Call} {maps' : Maps} (hcalls : Transfers calls)
    (hok : (st.recording calls).cmd.failed = false) :
    (Reorderable (st.recordingSteps o (st.recording calls).sets calls) → (st.recording calls).submit o = .ok maps' →
        maps' = inOrder (st.recordingSteps o (st.recording calls).sets calls) st.maps) ∧
      ∀ sets maps, Reorderable (st.recordingSteps o sets calls) →
        runAll Prod.snd (inPhase .eager (st.recordingSteps o sets calls)) maps = maps →
          State.submit o { sets, maps, cmd := (st.recording calls).cmd } = .ok maps' →
            maps' = runAll Prod.snd (commands (st.recordingSteps o sets calls)) maps := by
  have heq : ∀ sets, st.recordingSteps o sets calls = steps o sets (st.recording calls).cmd calls :=
    fun sets => recordedSteps_eq o sets (st.call .beginCommandBuffer) hcalls
  constructor
  · intro hindep hsubmit
    rw [heq] at hindep ⊢
    have hmaps : (st.recording calls).maps = _ :=
      run_maps o (st.recording calls).sets (st.recording calls).cmd (st.call .beginCommandBuffer) calls
    rw [submit_steps o (st.recording calls).sets (st.recording calls).maps hcalls hok hsubmit, hmaps,
      ← runAll_atOnce hindep]
    rw [runAll_append _ _ _ (st.call .beginCommandBuffer).maps, ← runAll_append, runAll_commands hindep]
    rfl
  · intro sets maps hindep heager hsubmit
    rw [heq] at hindep heager ⊢
    rw [submit_steps o sets maps hcalls hok hsubmit, ← runAll_commands hindep,
      runAll_append Prod.snd (inPhase .eager _) _ maps, heager]

end InOrder

/-- A driver whose host does not render. -/
def noFrames : Outside where
  frame _ := .error (-5)
  frame_le := nofun
  quantise _ := 0
  linearFloatToSrgb8unorm _ := 0

/-- The readback of a single pixel. -/
def readback (src dst : UInt32) : Call :=
  .cmd (.copyImageToBuffer2 (some (pixelImage src)) (some (smallBuffer dst 4))
    [{ bufferOffset := 0, bufferRowLength := 0, imageOffset := (0, 0), imageExtent := (1, 1) }])

/-- A readback and then an update of a buffer that has nothing to do with it. -/
def readbackAndUpdate : List Call := [readback 1 3,
    .cmd (.updateBuffer (some (smallBuffer 2 4)) 0 (some [1, 2, 3, 4]))]

private theorem readbackAndUpdate_transfers : Transfers readbackAndUpdate where
  goesOn := by simp [readbackAndUpdate, readback]
  behind := by simp [readbackAndUpdate, readback, Call.transfers, Cmd.transfers]

private theorem readbackAndUpdate_reorderable (sets : Sets) :
    Reorderable (State.start.recordingSteps noFrames sets readbackAndUpdate) := by
  refine List.pairwise_pair.2 fun _ => ⟨?_, ?_, ?_⟩
  · refine Set.disjoint_left.2 fun l hl hl' => ?_
    exact absurd (hl.1.symm.trans hl'.1) (by decide)
  · exact Set.disjoint_empty _
  · refine Set.disjoint_left.2 fun l hl hl' => ?_
    exact absurd (hl.1.symm.trans hl'.1) (by decide)

theorem submit_inOrder_readback : ∃ maps, (State.start.recording readbackAndUpdate).submit noFrames = .ok maps ∧
    maps = inOrder (State.start.recordingSteps noFrames (State.start.recording readbackAndUpdate).sets
    readbackAndUpdate)
      State.start.maps :=
  ⟨_, rfl, (submit_inOrder noFrames readbackAndUpdate_transfers rfl).1 (readbackAndUpdate_reorderable _) rfl⟩

/-- A readback whose buffer is copied on while recording: the copy takes what was there before the readback. -/
def readbackAndCopy : List Call :=
  [.hostWrite { handle := 1, at_ := 0 } [7, 7, 7, 7], readback 1 2,
    .cmd (.copyBuffer2 (some (smallBuffer 2 4)) (some (smallBuffer 3 4))
      [{ srcOffset := 0, dstOffset := 0, size := 4 }])]

theorem copy_before_readback :
    ¬ ∀ (o : Outside) (st : State) (calls : List Call) (maps : Maps), Transfers calls →
      (st.recording calls).cmd.failed = false → (st.recording calls).submit o = .ok maps →
        maps = inOrder (st.recordingSteps o (st.recording calls).sets calls) st.maps := by
  intro h
  have hcalls : Transfers readbackAndCopy :=
    { goesOn := by simp [readbackAndCopy, readback]
      behind := by simp [readbackAndCopy, readback, Call.renders, Cmd.renders] }
  have heq := h noFrames State.start readbackAndCopy _ hcalls rfl rfl
  -- the first byte of the second buffer
  have hbyte := congrArg (fun maps => maps.get (3, 0)) heq
  exact absurd hbyte (by decide)

end Infinigpu.Icd
