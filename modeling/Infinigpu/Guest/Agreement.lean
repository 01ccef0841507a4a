import Infinigpu.Device.Submit
import Infinigpu.Guest.Kmd
import Infinigpu.Guest.Limits

/-!
# Limits of the guest and of the host

A captured draw goes through the encoder, the ioctl and the validation of `submit_vulkan`.  The host takes what the
guest has let through if and only if the captured state keeps `State.HostLimits` (`host_takes_iff`); what it does not
take is dropped, its seqno acknowledged (`Backend.submitVulkan_of_not_validates`).
-/

namespace Infinigpu

/-! ### The validation of `submit_vulkan` -/

/-- The draw of a forwarded payload. -/
def forwardedDraw (op : UInt32) (payload : List UInt8) : Option OwnedForwardedDraw :=
  if op = VkOp.forwardedCmdlist then
    decodeForwardedCmdlist payload MAX_CMD_BYTES.toNat
  else if op = VkOp.forwarded then
    decodeForwarded payload MAX_CMD_BYTES.toNat
  else
    none

/-- A forwarded payload that passes: its geometry is accepted and its draw decodes. -/
def Validates (payload : List UInt8) : Prop :=
  ∃ wl rest, readFromPrefix VulkanWorkload.size VulkanWorkload.decode payload = some (wl, rest) ∧
    badRenderGeometry wl.width wl.height = false ∧ (forwardedDraw wl.op payload).isSome

instance (payload : List UInt8) : Decidable (Validates payload) :=
  decidable_of_iff ((readFromPrefix VulkanWorkload.size VulkanWorkload.decode payload).any fun r =>
      !badRenderGeometry r.1.width r.1.height && (forwardedDraw r.1.op payload).isSome) (by
    unfold Validates
    cases readFromPrefix VulkanWorkload.size VulkanWorkload.decode payload with
    | none => simp
    | some r =>
      rw [Option.any_some, Bool.and_eq_true, Bool.not_eq_true']
      constructor
      · intro h
        exact ⟨r.1, r.2, rfl, h⟩
      · rintro ⟨wl, rest, heq, h⟩
        cases heq
        exact h)

namespace Backend

variable {env : Env} {wl : VulkanWorkload} {payload : List UInt8}

/-- What decodes is replayed. -/
theorem replay_of_forwardedDraw {fwd : OwnedForwardedDraw} (h : forwardedDraw wl.op payload = some fwd)
    (d : Backend) :
    d.replay env wl payload = d.replayForwarded env wl fwd := by
  unfold forwardedDraw at h
  unfold replay
  by_cases hcmdlist : wl.op = VkOp.forwardedCmdlist
  · rw [if_pos hcmdlist] at h
    rw [if_pos (.inr hcmdlist)]
    simp only [if_pos hcmdlist, h]
  · rw [if_neg hcmdlist] at h
    by_cases hforwarded : wl.op = VkOp.forwarded
    · rw [if_pos hforwarded] at h
      rw [if_pos (.inl hforwarded)]
      simp only [if_neg hcmdlist, h]
    · rw [if_neg hforwarded] at h
      cases h

/-- What does not decode is not. -/
private theorem replay_of_forwardedDraw_none (hop : wl.op = VkOp.forwarded ∨ wl.op = VkOp.forwardedCmdlist)
    (h : forwardedDraw wl.op payload = none) (d : Backend) : d.replay env wl payload = (none, d) := by
  unfold forwardedDraw at h
  unfold replay
  rw [if_pos hop]
  by_cases hcmdlist : wl.op = VkOp.forwardedCmdlist
  · rw [if_pos hcmdlist] at h
    simp only [if_pos hcmdlist, h]
  · rw [if_neg hcmdlist, if_pos (hop.resolve_right hcmdlist)] at h
    simp only [if_neg hcmdlist, h]

/-- A forwarded payload that does not pass leaves guest memory alone, and its seqno is acknowledged all the same. -/
theorem submitVulkan_of_not_validates (hnot : ¬ Validates payload)
    (hop : ∀ wl rest, readFromPrefix VulkanWorkload.size VulkanWorkload.decode payload = some (wl, rest) →
      wl.op = VkOp.forwarded ∨ wl.op = VkOp.forwardedCmdlist) (sc : SubmitCmd) (ctx : Fin NUM_CONTEXTS)
      (d : Backend) :
    (d.submitVulkan env sc payload ctx).mem = d.mem ∧
      (d.submitVulkan env sc payload ctx).ringRetired ctx = sc.seqno := by
  refine ⟨?_, submitVulkan_self sc payload ctx d⟩
  have hadm := (ensureAdmitted_quiet env d).mem
  unfold submitVulkan
  cases hd : d.ensureAdmitted env with
  | mk admitted d' =>
    rw [hd] at hadm
    simp only
    by_cases hrefused : (!admitted) = true
    · rw [if_pos hrefused]
      exact hadm
    rw [if_neg hrefused]
    by_cases hlong : sc.payloadLen > MAX_CMD_BYTES
    · rw [if_pos hlong]
      exact hadm
    rw [if_neg hlong]
    cases hread : readFromPrefix VulkanWorkload.size VulkanWorkload.decode payload with
    | none => exact hadm
    | some r =>
      simp only
      by_cases hgeometry : badRenderGeometry r.1.width r.1.height = true
      · rw [if_pos hgeometry]
        exact hadm
      rw [if_neg hgeometry]
      have hnone : forwardedDraw r.1.op payload = none := by
        by_contra hsome
        exact hnot ⟨r.1, r.2, hread, Bool.eq_false_iff.2 hgeometry, Option.isSome_iff_ne_none.2 hsome⟩
      -- elided or not, nothing is rendered
      rw [replay_of_forwardedDraw_none (hop r.1 r.2 hread) hnone]
      split
      · exact hadm
      · exact hadm

end Backend

/-! ### The staged body -/

theorem VulkanWorkload.decode_take {bs : List UInt8} {k : Nat} (h : VulkanWorkload.size ≤ k) :
    VulkanWorkload.decode (bs.take k) = VulkanWorkload.decode bs := by
  have hsize : VulkanWorkload.size = 40 := rfl
  have hfield : ∀ i n, i + n ≤ 40 → Bytes.slice (bs.take k) i n = Bytes.slice bs i n :=
    fun i n hin => Bytes.slice_take (by omega)
  simp only [VulkanWorkload.decode, u32At, u64At, hfield 0 4 (by omega), hfield 4 4 (by omega), hfield 8 4 (by omega),
    hfield 16 16 (by omega), hfield 32 8 (by omega)]

/-- The decoders do not look at the header. -/
private theorem forwardedDraw_congr {op : UInt32} {p q : List UInt8} (hlen : p.length = q.length)
    (hdrop : p.drop VulkanWorkload.size = q.drop VulkanWorkload.size) : forwardedDraw op p = forwardedDraw op q := by
  unfold forwardedDraw decodeForwardedCmdlist decodeForwarded
  rw [hlen, hdrop]

/-- What passes of a staged body: the checked geometry and the draw of the caller's body. -/
private theorem validates_patched {width height : UInt32} {scanoutAddr : UInt64} {body : List UInt8}
    (h : VulkanWorkload.size ≤ body.length) :
    Validates (Kmd.patchWorkload width height scanoutAddr body) ↔
      badRenderGeometry width height = false ∧ (forwardedDraw (VulkanWorkload.decode body).op body).isSome := by
  have hlen : (Kmd.patchWorkload width height scanoutAddr body).length = body.length := Kmd.patchWorkload_length h
  have hread : readFromPrefix VulkanWorkload.size VulkanWorkload.decode
      (Kmd.patchWorkload width height scanoutAddr body) =
      some ({ VulkanWorkload.decode body with width, height, scanoutAddr }, body.drop VulkanWorkload.size) := by
    rw [readFromPrefix, if_neg (by omega), VulkanWorkload.decode_take (Nat.le_refl _), Kmd.patchWorkload_decode h,
      Kmd.patchWorkload_drop h]
  unfold Validates
  rw [hread]
  constructor
  · rintro ⟨wl, rest, heq, hgeometry, hdraw⟩
    cases heq
    rw [forwardedDraw_congr hlen (Kmd.patchWorkload_drop h)] at hdraw
    exact ⟨hgeometry, hdraw⟩
  · rintro ⟨hgeometry, hdraw⟩
    refine ⟨_, _, rfl, hgeometry, ?_⟩
    rw [forwardedDraw_congr hlen (Kmd.patchWorkload_drop h)]
    exact hdraw

private theorem CmdlistArgs.forwardedDraw_take {c : CmdlistArgs} {k : Nat} (h : VulkanWorkload.size ≤ k) :
    forwardedDraw (VulkanWorkload.decode (c.bytes.take k)).op (c.bytes.take k) =
      decodeForwardedCmdlist (c.bytes.take k) MAX_CMD_BYTES.toNat := by
  have hop : VulkanWorkload.decode (c.bytes.take k) = c.workload := by
    rw [VulkanWorkload.decode_take h, bytes, List.append_assoc, VulkanWorkload.decode_encode]
  rw [hop]
  exact if_pos rfl

private theorem ForwardedArgs.forwardedDraw_take {a : ForwardedArgs} {k : Nat} (h : VulkanWorkload.size ≤ k) :
    forwardedDraw (VulkanWorkload.decode (a.bytes.take k)).op (a.bytes.take k) =
      decodeForwarded (a.bytes.take k) MAX_CMD_BYTES.toNat := by
  have hop : VulkanWorkload.decode (a.bytes.take k) = a.workload := by
    rw [VulkanWorkload.decode_take h]
    simp only [bytes, List.append_assoc]
    rw [VulkanWorkload.decode_encode]
  have hne : VkOp.forwarded ≠ VkOp.forwardedCmdlist := by decide
  rw [hop]
  exact (if_neg hne).trans (if_pos rfl)

namespace Icd

/-! ### What the guest sends -/

/-- The arguments of the ioctl; the object is that of the image, or a scratch one. -/
def ForwardRequest.args (req : ForwardRequest) (boHandle : UInt32) : Kmd.SubmitForwardedArgs where
  boHandle
  width := req.width
  height := req.height
  payloadLen := req.payloadLen
  payload := req.payload

/-- `bytes` are to be rendered into `img`. -/
structure ForwardRequest.Sends (req : ForwardRequest) (img : Image) (bytes : List UInt8) : Prop where
  width : req.width = img.width
  height : req.height = img.height
  payloadLen : req.payloadLen = UInt32.ofNat bytes.length
  payload : ∃ slack, req.payload = bytes ++ slack

theorem sendEncoded_ok {img : Image} {msg : String} {n : Nat} {buf : List UInt8} {req : ForwardRequest}
    (h : sendEncoded img msg (n, some buf) = .ok req) :
    n ≠ 0 ∧ req =
      { image := img
        width := img.width
        height := img.height
        payload := buf
        payloadLen := UInt32.ofNat n } := by
  simp only [sendEncoded] at h
  by_cases hn : n = 0
  · rw [if_pos hn] at h
    cases h
  · rw [if_neg hn, Except.ok.injEq] at h
    exact ⟨hn, h.symm⟩

/-- The lengths that are added up for a command list do not wrap. -/
theorem cmdlistArgs_bytes_lt (maps : Maps) (ds : DescriptorSet) (cmd : CmdBuffer) (p : Pipeline)
    (vs fs : PipelineStage) (img : Image) (vdata idata : Counted UInt8) :
    (cmdlistArgs maps ds cmd p vs fs img vdata idata).bytes.length < 2 ^ 64 := by
  set c := cmdlistArgs maps ds cmd p vs fs img vdata idata with hc
  have hlen := c.bytes_length
  have hvspirv : c.vspirv.items.length * 4 < 2 ^ 32 := vs.words_lt
  have hfspirv : c.fspirv.items.length * 4 < 2 ^ 32 := fs.words_lt
  have hventry : c.vertexEntry.chars.length < 2 ^ 62 := vs.entrypoint_lt
  have hfentry : c.fragmentEntry.chars.length < 2 ^ 62 := fs.entrypoint_lt
  have hubo : c.uboBytes ≤ 8 * 65544 := cmdlistArgs_uboBytes.trans_le (uboBytes_le ds)
  have hattrs := c.attrs.lt
  have hdraws := c.draws.lt
  have htexs := c.texs.lt
  have hvdata := c.vertexData.lt
  have hidata := c.indexData.lt
  have hpush := c.pushConst.lt
  have hssbo := c.ssbo.lt
  have htexpix := c.texpix.lt
  omega

theorem replayCmdlist_ok {maps : Maps} {ds : DescriptorSet} {cmd : CmdBuffer} {p : Pipeline} {vs fs : PipelineStage}
    {img : Image} {req : ForwardRequest} (h : replayCmdlist maps ds cmd p vs fs img = .ok req) :
    ∃ vdata idata, cmd.vertexData maps p = .ok vdata ∧ cmd.indexData maps = .ok idata ∧
      ¬ (cmdlistArgs maps ds cmd p vs fs img vdata idata).Degenerate ∧
      req.Sends img (cmdlistArgs maps ds cmd p vs fs img vdata idata).bytes := by
  unfold replayCmdlist at h
  cases hv : cmd.vertexData maps p with
  | error e =>
    rw [hv] at h
    cases h
  | ok vdata =>
    cases hi : cmd.indexData maps with
    | error e =>
      rw [hv, hi] at h
      cases h
    | ok idata =>
      simp only [hv, hi, bind, Except.bind] at h
      rw [encodeForwardedCmdlist_eq (cmdlistArgs_bytes_lt maps ds cmd p vs fs img vdata idata)] at h
      refine ⟨vdata, idata, rfl, rfl, ?_⟩
      by_cases hfits : ¬ (cmdlistArgs maps ds cmd p vs fs img vdata idata).Degenerate ∧
          (cmdlistArgs maps ds cmd p vs fs img vdata idata).bytes.length ≤
            (List.replicate (cmdlistCap vs fs (cmdlistArgs maps ds cmd p vs fs img vdata idata)) (0 : UInt8)).length
      · rw [if_pos hfits] at h
        obtain ⟨-, rfl⟩ := sendEncoded_ok h
        exact ⟨hfits.1, rfl, rfl, rfl, _, rfl⟩
      · rw [if_neg hfits] at h
        exact absurd rfl (sendEncoded_ok h).1

theorem replayBufferless_ok {cmd : CmdBuffer} {p : Pipeline} {vs fs : PipelineStage} {img : Image}
    {req : ForwardRequest} (h : replayBufferless cmd p vs fs img = .ok req) :
    req.Sends img (forwardedArgs cmd p vs fs img).bytes := by
  have hlt : (forwardedArgs cmd p vs fs img).bytes.length < 2 ^ 64 := by
    have hlen := (forwardedArgs cmd p vs fs img).bytes_length
    have hvspirv : (forwardedArgs cmd p vs fs img).vspirv.items.length * 4 < 2 ^ 32 := vs.words_lt
    have hfspirv : (forwardedArgs cmd p vs fs img).fspirv.items.length * 4 < 2 ^ 32 := fs.words_lt
    have hventry : (forwardedArgs cmd p vs fs img).vertexEntry.chars.length < 2 ^ 62 := vs.entrypoint_lt
    have hfentry : (forwardedArgs cmd p vs fs img).fragmentEntry.chars.length < 2 ^ 62 := fs.entrypoint_lt
    omega
  simp only [replayBufferless] at h
  rw [encodeForwarded_eq hlt] at h
  by_cases hfits : (forwardedArgs cmd p vs fs img).bytes.length ≤
      (List.replicate (forwardedCap vs fs) (0 : UInt8)).length
  · rw [if_pos hfits] at h
    obtain ⟨-, rfl⟩ := sendEncoded_ok h
    exact ⟨rfl, rfl, rfl, _, rfl⟩
  · rw [if_neg hfits] at h
    exact absurd rfl (sendEncoded_ok h).1

/-- What a request was made from. -/
theorem forwardDraws_ok {st : State} {req : ForwardRequest} (h : st.forwardDraws = .ok (some req)) :
    ∃ att p vs fs img, st.cmd.colorAtt = some att ∧ st.cmd.boundPipeline = some p ∧ p.stageOf .vertex = some vs ∧
      p.stageOf .fragment = some fs ∧ att.image = some img ∧ img.mem.isSome ∧
      (if st.takesCmdlist p then replayCmdlist st.maps st.boundSet st.cmd p vs fs img
        else replayBufferless st.cmd p vs fs img) = .ok req := by
  unfold State.forwardDraws at h
  cases hdraws : st.cmd.draws with
  | nil =>
    simp [hdraws] at h
  | cons d draws =>
    cases hatt : st.cmd.colorAtt with
    | none => simp [hdraws, hatt] at h
    | some att =>
      cases hp : st.cmd.boundPipeline with
      | none => simp [hdraws, hatt, hp] at h
      | some p =>
        simp only [hdraws, hatt, hp] at h
        cases hvs : p.stageOf .vertex with
        | none => simp [hvs] at h
        | some vs =>
          cases hfs : p.stageOf .fragment with
          | none => simp [hvs, hfs] at h
          | some fs =>
            cases himg : att.image with
            | none => simp [hvs, hfs, himg] at h
            | some img =>
              simp only [hvs, hfs, himg] at h
              by_cases hmem : img.mem.isNone
              · rw [if_pos hmem] at h
                cases h
              rw [if_neg hmem] at h
              refine ⟨att, p, vs, fs, img, rfl, rfl, hvs, hfs, himg, ?_, ?_⟩
              · rw [Option.isNone_iff_eq_none] at hmem
                exact Option.isSome_iff_ne_none.2 hmem
              by_cases hcmdlist : st.takesCmdlist p
              · rw [if_pos hcmdlist] at h ⊢
                cases hreplay : replayCmdlist st.maps st.boundSet st.cmd p vs fs img with
                | error e =>
                  rw [hreplay] at h
                  cases h
                | ok req' =>
                  rw [hreplay] at h
                  cases h
                  rfl
              · rw [if_neg hcmdlist] at h ⊢
                cases hreplay : replayBufferless st.cmd p vs fs img with
                | error e =>
                  rw [hreplay] at h
                  cases h
                | ok req' =>
                  rw [hreplay] at h
                  cases h
                  rfl

/-- What is staged for the host, if the ICD encodes the draws and the ioctl accepts them. -/
def State.staged (st : State) (idev : Kmd.IgpuDevice) (boHandle : UInt32) : Option (List UInt8) :=
  match st.forwardDraws with
  | .ok (some req) => (Kmd.ioctlSubmitForwarded idev (req.args boHandle)).toOption
  | _ => none

theorem staged_eq_some {st : State} {idev : Kmd.IgpuDevice} {boHandle : UInt32} {staged : List UInt8}
    (h : st.staged idev boHandle = some staged) :
    ∃ req, st.forwardDraws = .ok (some req) ∧ Kmd.ioctlSubmitForwarded idev (req.args boHandle) = .ok staged := by
  unfold State.staged at h
  cases hdraws : st.forwardDraws with
  | error e =>
    rw [hdraws] at h
    cases h
  | ok sent =>
    cases sent with
    | none =>
      rw [hdraws] at h
      cases h
    | some req =>
      rw [hdraws] at h
      cases hioctl : Kmd.ioctlSubmitForwarded idev (req.args boHandle) with
      | error e =>
        simp only [hioctl] at h
        cases h
      | ok out =>
        simp only [hioctl] at h
        cases h
        exact ⟨req, rfl, hioctl⟩

/-! ### The limits of the host -/

/-- The limits of the host that the guest does not enforce, for the draw that is captured. -/
def State.HostLimits (st : State) : Prop :=
  ∀ att p vs fs img, st.cmd.colorAtt = some att → st.cmd.boundPipeline = some p → p.stageOf .vertex = some vs →
    p.stageOf .fragment = some fs → att.image = some img →
      DrawLimits vs fs img ∧
        if st.takesCmdlist p then CmdlistLimits st.boundSet st.cmd p vs fs else 64 + stageBytes vs fs < 2 ^ 32

/-- What the ioctl has checked of the geometry, the host checks but for the size of the frame. -/
private theorem badRenderGeometry_iff {width height : UInt32} (h : Kmd.badGeometry width height = false) :
    badRenderGeometry width height = false ↔ width.toNat * height.toNat * 4 ≤ MAX_FRAME_BYTES := by
  have hmax : Kmd.MAX_DIM = 16384 := rfl
  simp only [Kmd.badGeometry, hmax, Bool.or_eq_false_iff] at h
  obtain ⟨⟨⟨hwidth, hheight⟩, hw⟩, hh⟩ := h
  simp only [badRenderGeometry, hwidth, hheight, hw, hh, Bool.false_or, decide_eq_false_iff_not,
    gt_iff_lt, Nat.not_lt]

/-- A command list that is sent with its length cut to 32 bits decodes if and only if the limits are kept. -/
private theorem cmdlist_decodes_iff {maps : Maps} {ds : DescriptorSet} {cmd : CmdBuffer} {p : Pipeline}
    {vs fs : PipelineStage} {img : Image} {vdata idata : Counted UInt8} {k : Nat}
    (hv : cmd.vertexData maps p = .ok vdata) (hi : cmd.indexData maps = .ok idata)
    (hdraw : ¬ (cmdlistArgs maps ds cmd p vs fs img vdata idata).Degenerate)
    (hvmagic : vs.spirv.head? = some SPIRV_MAGIC) (hfmagic : fs.spirv.head? = some SPIRV_MAGIC)
    (hk : k = (cmdlistArgs maps ds cmd p vs fs img vdata idata).bytes.length % 2 ^ 32)
    (hmax : k ≤ Kmd.FWD_MAX_PAYLOAD.toNat) :
    (decodeForwardedCmdlist ((cmdlistArgs maps ds cmd p vs fs img vdata idata).bytes.take k)
      MAX_CMD_BYTES.toNat).isSome ↔
      vs.entrypoint.chars.length ≤ 255 ∧ fs.entrypoint.chars.length ≤ 255 ∧ CmdlistLimits ds cmd p vs fs := by
  have hpayload : Kmd.FWD_MAX_PAYLOAD.toNat = 1048576 := rfl
  have hcmd : MAX_CMD_BYTES.toNat = 67108864 := rfl
  have hhead : (cmdlistArgs maps ds cmd p vs fs img vdata idata).headBytes + ds.textureBytes =
      cmdlistBytes ds cmd p vs fs := cmdlistArgs_headBytes hv hi
  have hbytes := (cmdlistArgs maps ds cmd p vs fs img vdata idata).bytes_eq_headBytes
  constructor
  · intro hsome
    obtain ⟨decoded, hdecoded⟩ := Option.isSome_iff_exists.1 hsome
    have hubo : (cmdlistArgs maps ds cmd p vs fs img vdata idata).uboBytes < 2 ^ 32 :=
      Nat.lt_of_le_of_lt (cmdlistArgs_uboBytes.trans_le (uboBytes_le ds)) (by decide)
    obtain ⟨hle, hacc⟩ := CmdlistArgs.of_decode_take vs.words_lt fs.words_lt hubo hdecoded
    obtain ⟨htexs, -⟩ := textureBytes_of_cmdlist_accepted hacc
    have hventry : vs.entrypoint.chars.length + 1 ≤ 256 := hacc.vertexEntry_le
    have hfentry : fs.entrypoint.chars.length + 1 ≤ 256 := hacc.fragmentEntry_le
    exact ⟨by omega, by omega, limits_of_accepted hv hacc (by omega)⟩
  · rintro ⟨hventry, hfentry, hlimits⟩
    have hlt := hlimits.bytes
    have htexs : ds.textureBytes < 2 ^ 32 := by omega
    have hpix : (cmdlistArgs maps ds cmd p vs fs img vdata idata).texpix.items.length = ds.textureBytes :=
      (texturePixels_length maps _ htexs).1
    -- nothing has been cut
    have hall : (cmdlistArgs maps ds cmd p vs fs img vdata idata).bytes.length = k := by omega
    have hacc : (cmdlistArgs maps ds cmd p vs fs img vdata idata).Accepted MAX_CMD_BYTES.toNat :=
      accepted_of_limits hv hi hdraw hvmagic hfmagic (by omega) hventry hfentry hlimits
    rw [← hall, List.take_length,
      (CmdlistArgs.decodeForwardedCmdlist_bytes (hacc.fits vs.words_lt fs.words_lt)).2 ⟨hacc, rfl⟩]
    rfl

/-- The same of a bufferless draw. -/
private theorem bufferless_decodes_iff {cmd : CmdBuffer} {p : Pipeline} {vs fs : PipelineStage}
    {img : Image} {k : Nat} (hvmagic : vs.spirv.head? = some SPIRV_MAGIC)
    (hfmagic : fs.spirv.head? = some SPIRV_MAGIC) (hk : k = (forwardedArgs cmd p vs fs img).bytes.length % 2 ^ 32)
    (hmax : k ≤ Kmd.FWD_MAX_PAYLOAD.toNat) :
    (decodeForwarded ((forwardedArgs cmd p vs fs img).bytes.take k) MAX_CMD_BYTES.toNat).isSome ↔
      vs.entrypoint.chars.length ≤ 255 ∧ fs.entrypoint.chars.length ≤ 255 ∧ 64 + stageBytes vs fs < 2 ^ 32 := by
  have hpayload : Kmd.FWD_MAX_PAYLOAD.toNat = 1048576 := rfl
  have hcmd : MAX_CMD_BYTES.toNat = 67108864 := rfl
  have hlen : (forwardedArgs cmd p vs fs img).bytes.length = 64 + stageBytes vs fs := by
    have hbytes := (forwardedArgs cmd p vs fs img).bytes_length
    have hvspirv : (forwardedArgs cmd p vs fs img).vspirv.items.length = vs.spirv.length := rfl
    have hfspirv : (forwardedArgs cmd p vs fs img).fspirv.items.length = fs.spirv.length := rfl
    have hventry : (forwardedArgs cmd p vs fs img).vertexEntry.chars = vs.entrypoint.chars := rfl
    have hfentry : (forwardedArgs cmd p vs fs img).fragmentEntry.chars = fs.entrypoint.chars := rfl
    rw [hvspirv, hfspirv, hventry, hfentry] at hbytes
    unfold stageBytes
    omega
  constructor
  · intro hsome
    obtain ⟨decoded, hdecoded⟩ := Option.isSome_iff_exists.1 hsome
    obtain ⟨hle, hacc⟩ := ForwardedArgs.of_decode_take vs.words_lt fs.words_lt hdecoded
    have hventry : vs.entrypoint.chars.length + 1 ≤ 256 := hacc.vertexEntry_le
    have hfentry : fs.entrypoint.chars.length + 1 ≤ 256 := hacc.fragmentEntry_le
    exact ⟨by omega, by omega, by omega⟩
  · rintro ⟨hventry, hfentry, hlt⟩
    have hall : (forwardedArgs cmd p vs fs img).bytes.length = k := by omega
    have hparts : vs.spirv.length * 4 ≤ k ∧ fs.spirv.length * 4 ≤ k := by
      unfold stageBytes at hlen
      omega
    have hacc : (forwardedArgs cmd p vs fs img).Accepted MAX_CMD_BYTES.toNat :=
      { vmagic := hvmagic
        fmagic := hfmagic
        vspirv_le := show vs.spirv.length * 4 ≤ MAX_CMD_BYTES.toNat by omega
        fspirv_le := show fs.spirv.length * 4 ≤ MAX_CMD_BYTES.toNat by omega
        vertexEntry_le := show vs.entrypoint.chars.length + 1 ≤ 256 by omega
        fragmentEntry_le := show fs.entrypoint.chars.length + 1 ≤ 256 by omega }
    have hfits : (forwardedArgs cmd p vs fs img).Fits :=
      { vspirv := vs.words_lt
        fspirv := fs.words_lt
        vertexEntry := show vs.entrypoint.chars.length + 1 < 2 ^ 32 by omega
        fragmentEntry := show fs.entrypoint.chars.length + 1 < 2 ^ 32 by omega }
    rw [← hall, List.take_length, (ForwardedArgs.decodeForwarded_bytes hfits).2 ⟨hacc, rfl⟩]
    rfl

/-- The ioctl is given the low 32 bits of the length. -/
theorem ForwardRequest.Sends.body {req : ForwardRequest} {img : Image} {bytes : List UInt8}
    (h : req.Sends img bytes) :
    req.payloadLen.toNat = bytes.length % 2 ^ 32 ∧
      req.payload.take req.payloadLen.toNat = bytes.take req.payloadLen.toNat := by
  obtain ⟨slack, hslack⟩ := h.payload
  have hlen : req.payloadLen.toNat = bytes.length % 2 ^ 32 := by
    rw [h.payloadLen, UInt32.toNat_ofNat']
  refine ⟨hlen, ?_⟩
  rw [hslack, List.take_append_of_le_length (hlen.trans_le (Nat.mod_le _ _))]

/-- The SPIR-V of the bound pipeline is well formed. -/
def State.SpirvOk (st : State) : Prop :=
  ∀ p, st.cmd.boundPipeline = some p → ∀ s ∈ p.stages, s.spirv.head? = some SPIRV_MAGIC

private theorem Pipeline.mem_of_stageOf {p : Pipeline} {stage : ShaderStage} {s : PipelineStage}
    (h : p.stageOf stage = some s) :
    s ∈ p.stages := (List.mem_filter.1 (List.mem_of_getLast? h)).1

/-- **The host takes what the ICD encodes and the ioctl accepts if and only if the captured state keeps the limits of
the host.** -/
theorem host_takes_iff {idev : Kmd.IgpuDevice} {st : State} {boHandle : UInt32} {staged : List UInt8}
    (hspirv : st.SpirvOk) (hstaged : st.staged idev boHandle = some staged) :
    Validates (staged.drop SubmitCmd.size) ↔ st.HostLimits := by
  obtain ⟨req, hsend, hioctl⟩ := staged_eq_some hstaged
  obtain ⟨att, p, vs, fs, img, hatt, hp, hvs, hfs, himg, -, hreplay⟩ := forwardDraws_ok hsend
  obtain ⟨hgeometry, hmin, hmax, hroom, obj, -, rfl⟩ := Kmd.ioctlSubmitForwarded_ok hioctl
  have hvmagic := hspirv p hp vs (Pipeline.mem_of_stageOf hvs)
  have hfmagic := hspirv p hp fs (Pipeline.mem_of_stageOf hfs)
  have hbody : VulkanWorkload.size ≤ ((req.args boHandle).payload.take
    (req.args boHandle).payloadLen.toNat).length := by
    rw [List.length_take, Nat.min_eq_left hroom]
    exact hmin
  have hlimits : st.HostLimits ↔ DrawLimits vs fs img ∧
      if st.takesCmdlist p then CmdlistLimits st.boundSet st.cmd p vs fs else 64 + stageBytes vs fs < 2 ^ 32 := by
    constructor
    · intro h
      exact h att p vs fs img hatt hp hvs hfs himg
    · intro h att' p' vs' fs' img' hatt' hp' hvs' hfs' himg'
      cases hatt.symm.trans hatt'
      cases hp.symm.trans hp'
      cases hvs.symm.trans hvs'
      cases hfs.symm.trans hfs'
      cases himg.symm.trans himg'
      exact h
  rw [← Kmd.submitHeader_length, List.drop_left, validates_patched hbody, badRenderGeometry_iff hgeometry, hlimits]
  by_cases hcmdlist : st.takesCmdlist p
  · rw [if_pos hcmdlist] at hreplay ⊢
    obtain ⟨vdata, idata, hv, hi, hdraw, hsends⟩ := replayCmdlist_ok hreplay
    obtain ⟨hk, htake⟩ := hsends.body
    simp only [ForwardRequest.args] at hmin hmax ⊢
    rw [htake, CmdlistArgs.forwardedDraw_take hmin, cmdlist_decodes_iff hv hi hdraw hvmagic hfmagic hk hmax,
      hsends.width, hsends.height]
    constructor
    · rintro ⟨hframe, hventry, hfentry, hlist⟩
      exact ⟨⟨hventry, hfentry, hframe⟩, hlist⟩
    · rintro ⟨⟨hventry, hfentry, hframe⟩, hlist⟩
      exact ⟨hframe, hventry, hfentry, hlist⟩
  · rw [if_neg hcmdlist] at hreplay ⊢
    have hsends := replayBufferless_ok hreplay
    obtain ⟨hk, htake⟩ := hsends.body
    simp only [ForwardRequest.args] at hmin hmax ⊢
    rw [htake, ForwardedArgs.forwardedDraw_take hmin, bufferless_decodes_iff hvmagic hfmagic hk hmax, hsends.width,
      hsends.height]
    constructor
    · rintro ⟨hframe, hventry, hfentry, hlist⟩
      exact ⟨⟨hventry, hfentry, hframe⟩, hlist⟩
    · rintro ⟨⟨hventry, hfentry, hframe⟩, hlist⟩
      exact ⟨hframe, hventry, hfentry, hlist⟩

/-! ### Two command buffers -/

def solidStage (stage : ShaderStage) : PipelineStage where
  stage
  entrypoint := { chars := [109], nulFree := by decide }
  entrypoint_lt := by decide
  spirvSize := 4
  spirv := [SPIRV_MAGIC]
  spirv_length := rfl

def solidPipeline : Pipeline where
  topology := .triangleList
  stages := [solidStage .vertex, solidStage .fragment]
  stages_le := Nat.le_refl _
  vertexStride := 0
  attrs := []
  attrs_le := Nat.zero_le _
  depthFlags := 0
  rasterFlags := 0
  dynamicMask := 0

/-- An image of one pixel. -/
def pixelImage (handle : UInt32) : Image where
  format := 37
  blocksize := 4
  width := 1
  height := 1
  arrayLayers := 1
  size := 256
  rowPitch := 4
  mem := some { gemHandle := handle, mapped := true }
  memOffset := 0

/-- A buffer of `size` bytes in a memory of its own. -/
def smallBuffer (handle : UInt32) (size : UInt64) : Buffer where
  mem := some { gemHandle := handle, mapped := true }
  offset := 0
  totalSize := size

/-- A kernel driver with one object. -/
def oneObject : Kmd.IgpuDevice where
  ringDrainer := true
  lookup _ := some { size := 4096, dmaAddr := 0x10000 }

/-- A draw to a single pixel, with some commands before it. -/
def drawSolid (before : List Cmd) : List Call :=
  [.beginCommandBuffer,
    .cmd (.beginRendering { x := 0, y := 0, width := 1, height := 1 }
      [{ imageView := some { image := some (pixelImage 1) }, clear := none }]),
    .cmd (.bindPipeline true (some solidPipeline))] ++ before.map .cmd ++ [.cmd (.draw 3 1 0 0), .cmd .endRendering]

private theorem drawSolid_staged : ((State.start.run (drawSolid [])).staged oneObject 1).isSome := by decide +kernel

theorem host_takes_solid : ∃ staged, (State.start.run (drawSolid [])).staged oneObject 1 = some staged ∧
    (Validates (staged.drop SubmitCmd.size) ↔ (State.start.run (drawSolid [])).HostLimits) := by
  have hspirv : (State.start.run (drawSolid [])).SpirvOk := by
    intro p hp s hs
    cases hp
    rcases List.mem_pair.1 hs with rfl | rfl
    · rfl
    · rfl
  exact ⟨((State.start.run (drawSolid [])).staged oneObject 1).get drawSolid_staged, (Option.some_get _).symm,
    host_takes_iff hspirv (Option.some_get _).symm⟩

/-- A set with a texture at binding 0 and a uniform buffer at binding 1. -/
def texturedSet : List Call :=
  [.allocateDescriptorSet 0,
    .updateDescriptorSets
      [{ dstSet := some 0
         dstBinding := 0
         descriptorCount := 1
         descriptorType := .combinedImageSampler
         imageInfo := some { sampler := none, imageView := some { image := some (pixelImage 2) } }
         bufferInfo := none },
       { dstSet := some 0
         dstBinding := 1
         descriptorCount := 1
         descriptorType := .uniformBuffer
         imageInfo := none
         bufferInfo := some { buffer := some (smallBuffer 3 4), offset := 0, range := VK_WHOLE_SIZE } }]]

def drawTextured : State := State.start.run (texturedSet ++ drawSolid [.bindDescriptorSets true [some 0]])

private theorem drawTextured_staged : (drawTextured.staged oneObject 1).isSome := by decide +kernel

/-- Behind a texture the host keeps a binding for its sampler, which the guest gives to a uniform buffer: the draw is
encoded and accepted by the ioctl, and the host drops it. -/
theorem host_drops_uniform_after_texture :
    ¬ ∀ (calls : List Call) (idev : Kmd.IgpuDevice) (boHandle : UInt32) (staged : List UInt8),
      (State.start.run calls).SpirvOk → (State.start.run calls).staged idev boHandle = some staged →
        Validates (staged.drop SubmitCmd.size) := by
  intro h
  have hspirv : drawTextured.SpirvOk := by
    intro p hp s hs
    cases hp
    rcases List.mem_pair.1 hs with rfl | rfl
    · rfl
    · rfl
  have hvalidates := h (texturedSet ++ drawSolid [.bindDescriptorSets true [some 0]]) oneObject 1
    ((drawTextured.staged oneObject 1).get drawTextured_staged) hspirv (Option.some_get _).symm
  have hnot : ¬ Validates (((drawTextured.staged oneObject 1).get drawTextured_staged).drop SubmitCmd.size) := by
    decide +kernel
  exact hnot hvalidates

end Icd

end Infinigpu
