import Infinigpu.Guest.Descriptor

/-!
# Recording (`guest/icd`, `infinigpu_cmd_buffer.c`)

A command buffer keeps the last value of each bound state, a list of draws with their viewports, and the image copies
that are left for the submission.  Buffer copies, fills and updates are carried out while they are recorded
(`record`), so recording also changes the mapped memories.

The bounds of the C arrays are part of the type; what does not fit makes the recording fail (`failed`).
-/

namespace Infinigpu.Icd

def MAX_DRAWS : Nat := 512
def MAX_PUSH_CONST : Nat := 256
def MAX_COPIES : Nat := 4
def MAX_UPLOADS : Nat := 8

namespace IndexType
def u16 : UInt32 := 0
end IndexType

namespace Dyn
def cullMode : UInt32 := 1
def frontFace : UInt32 := 2
def depthTest : UInt32 := 4
def depthWrite : UInt32 := 8
def depthCompare : UInt32 := 16
def topology : UInt32 := 32
end Dyn

/-! ### The command buffer -/

structure Rect2D where
  x : UInt32
  y : UInt32
  width : UInt32
  height : UInt32
deriving DecidableEq, Repr

structure Draw where
  count : UInt32
  instanceCount : UInt32
  first : UInt32
  vertexOffset : Int32
  indexed : Bool
  viewport : Rgba
deriving DecidableEq

/-- A region of an image and where it lies in a buffer (`infinigpu_pending_copy`, `infinigpu_pending_upload`). -/
structure Region where
  image : Option Image
  buffer : Option Buffer
  bufferOffset : UInt64
  bufferRowLength : UInt32
  imageOffset : UInt32 × UInt32
  imageExtent : UInt32 × UInt32
deriving DecidableEq, Repr

structure CmdBuffer where
  /-- `vk_command_buffer_set_error` has been called. -/
  failed : Bool
  boundPipeline : Option Pipeline
  colorAtt : Option ImageView
  renderArea : Rect2D
  clearValue : Rgba
  hasClear : Bool
  /-- The vertex count of the last draw that was not indexed. -/
  drawVertexCount : UInt32
  vbuf : Option Buffer
  vbufOffset : UInt64
  ibuf : Option Buffer
  ibufOffset : UInt64
  indexType : UInt32
  hasDynViewport : Bool
  dynViewport : Rgba
  dynSetMask : UInt32
  dynCullMode : UInt32
  dynFrontFace : FrontFace
  dynDepthTest : Bool
  dynDepthWrite : Bool
  dynDepthCompare : UInt32
  dynTopology : PrimitiveTopology
  draws : List Draw
  draws_le : draws.length ≤ MAX_DRAWS
  pushConstLen : UInt32
  pushConst : List UInt8
  pushConst_length : pushConst.length = MAX_PUSH_CONST
  pushConstLen_le : pushConstLen.toNat ≤ MAX_PUSH_CONST
  boundDescSet : Option Nat
  uploads : List Region
  uploads_le : uploads.length ≤ MAX_UPLOADS
  copies : List Region
  copies_le : copies.length ≤ MAX_COPIES

/-- A command buffer as it is allocated. -/
protected def CmdBuffer.empty : CmdBuffer where
  failed := false
  boundPipeline := none
  colorAtt := none
  renderArea := { x := 0, y := 0, width := 0, height := 0 }
  clearValue := { r := 0, g := 0, b := 0, a := 0 }
  hasClear := false
  drawVertexCount := 0
  vbuf := none
  vbufOffset := 0
  ibuf := none
  ibufOffset := 0
  indexType := 0
  hasDynViewport := false
  dynViewport := { r := 0, g := 0, b := 0, a := 0 }
  dynSetMask := 0
  dynCullMode := 0
  dynFrontFace := .counterClockwise
  dynDepthTest := false
  dynDepthWrite := false
  dynDepthCompare := 0
  dynTopology := .other
  draws := []
  draws_le := Nat.zero_le _
  pushConstLen := 0
  pushConst := List.replicate MAX_PUSH_CONST 0
  pushConst_length := List.length_replicate
  pushConstLen_le := Nat.zero_le _
  boundDescSet := none
  uploads := []
  uploads_le := Nat.zero_le _
  copies := []
  copies_le := Nat.zero_le _

/-! ### Arguments of commands -/

structure RenderingAttachment where
  imageView : Option ImageView
  /-- The clear value, if the attachment is loaded by clearing it. -/
  clear : Option Rgba

/-- The setters of extended dynamic state. -/
inductive DynamicState where
  | cullMode (v : UInt32)
  | frontFace (v : FrontFace)
  | depthTestEnable (v : Bool)
  | depthWriteEnable (v : Bool)
  | depthCompareOp (v : UInt32)
  | primitiveTopology (v : PrimitiveTopology)

/-- Where a copy between an image and a buffer lies. -/
structure BufferImageCopy where
  bufferOffset : UInt64
  bufferRowLength : UInt32
  imageOffset : UInt32 × UInt32
  imageExtent : UInt32 × UInt32

def BufferImageCopy.region (r : BufferImageCopy) (image : Option Image) (buffer : Option Buffer) : Region where
  image
  buffer
  bufferOffset := r.bufferOffset
  bufferRowLength := r.bufferRowLength
  imageOffset := r.imageOffset
  imageExtent := r.imageExtent

namespace CmdBuffer

/-- `infinigpu_cmd_reset_state`. -/
def resetState (cmd : CmdBuffer) : CmdBuffer :=
  { cmd with
    boundPipeline := none
    colorAtt := none
    hasClear := false
    drawVertexCount := 0
    draws := []
    draws_le := Nat.zero_le _
    vbuf := none
    vbufOffset := 0
    ibuf := none
    ibufOffset := 0
    indexType := IndexType.u16
    hasDynViewport := false
    dynSetMask := 0
    pushConstLen := 0
    pushConstLen_le := Nat.zero_le _
    boundDescSet := none
    uploads := []
    uploads_le := Nat.zero_le _
    copies := []
    copies_le := Nat.zero_le _ }

/-- Resetting a command buffer also takes back its error. -/
def beginCommandBuffer (cmd : CmdBuffer) : CmdBuffer := { cmd.resetState with failed := false }

/-- `vk_command_buffer_set_error`. -/
def setError (cmd : CmdBuffer) : CmdBuffer := { cmd with failed := true }

def currentViewport (cmd : CmdBuffer) : Rgba :=
  if cmd.hasDynViewport then cmd.dynViewport else { r := 0, g := 0, b := 0, a := 0 }

/-! ### Commands -/

def cmdBindPipeline (cmd : CmdBuffer) (graphics : Bool) (pipeline : Option Pipeline) : CmdBuffer :=
  if graphics then { cmd with boundPipeline := pipeline } else cmd

def cmdBeginRendering (cmd : CmdBuffer) (renderArea : Rect2D) (colorAttachments : List RenderingAttachment) :
    CmdBuffer :=
  let cmd := { cmd with renderArea, colorAtt := none, hasClear := false }
  match colorAttachments with
  | [] => cmd
  | att :: _ =>
    let cmd := { cmd with colorAtt := att.imageView }
    match att.clear with
    | none => cmd
    | some color => { cmd with clearValue := color, hasClear := true }

def recordDraw (cmd : CmdBuffer) (count instanceCount first : UInt32) (vertexOffset : Int32) (indexed : Bool) :
    CmdBuffer :=
  if h : cmd.draws.length < MAX_DRAWS then
    let d : Draw := { count, instanceCount, first, vertexOffset, indexed, viewport := cmd.currentViewport }
    { cmd with
      draws := cmd.draws ++ [d]
      draws_le := by
        rw [List.length_append]
        exact h
      drawVertexCount := if indexed then cmd.drawVertexCount else count }
  else
    cmd.setError

/-- Binding 0 is captured, wherever it stands in the list. -/
def cmdBindVertexBuffers2 (cmd : CmdBuffer) (firstBinding : UInt32) (buffers : List (Option Buffer × UInt64)) :
    CmdBuffer :=
  buffers.zipIdx.foldl (fun cmd (b, i) =>
    if firstBinding + UInt32.ofNat i = 0 then { cmd with vbuf := b.1, vbufOffset := b.2 } else cmd) cmd

def cmdBindIndexBuffer2 (cmd : CmdBuffer) (buffer : Option Buffer) (offset : UInt64) (isU32 : Bool) : CmdBuffer :=
  { cmd with
    ibuf := buffer
    ibufOffset := offset
    indexType := if isU32 then Infinigpu.IndexType.u32 else IndexType.u16 }

/-- `CmdSetViewport`, and with `firstViewport` zero `CmdSetViewportWithCount`. -/
def cmdSetViewport (cmd : CmdBuffer) (firstViewport : UInt32) (viewports : List Rgba) : CmdBuffer :=
  match viewports with
  | [] => cmd
  | vp :: _ => if firstViewport = 0 then { cmd with dynViewport := vp, hasDynViewport := true } else cmd

def cmdSetDynamic (cmd : CmdBuffer) : DynamicState → CmdBuffer
  | .cullMode v => { cmd with dynCullMode := v, dynSetMask := cmd.dynSetMask ||| Dyn.cullMode }
  | .frontFace v => { cmd with dynFrontFace := v, dynSetMask := cmd.dynSetMask ||| Dyn.frontFace }
  | .depthTestEnable v => { cmd with dynDepthTest := v, dynSetMask := cmd.dynSetMask ||| Dyn.depthTest }
  | .depthWriteEnable v => { cmd with dynDepthWrite := v, dynSetMask := cmd.dynSetMask ||| Dyn.depthWrite }
  | .depthCompareOp v => { cmd with dynDepthCompare := v, dynSetMask := cmd.dynSetMask ||| Dyn.depthCompare }
  | .primitiveTopology v => { cmd with dynTopology := v, dynSetMask := cmd.dynSetMask ||| Dyn.topology }

/-- The last set with a forwarded resource is kept. -/
def cmdBindDescriptorSets (cmd : CmdBuffer) (sets : Sets) (graphics : Bool) (bound : List (Option Nat)) : CmdBuffer :=
  if graphics then
    bound.foldl (fun cmd handle =>
      match handle with
      | none => cmd
      | some set =>
        let s := sets set
        if s.textures.entries.length > 0 ∨ s.ubos.entries.length > 0 ∨ s.ssboBuffer.isSome then
          { cmd with boundDescSet := some set }
        else
          cmd) cmd
  else
    cmd

/-- The bytes are put at their offset. -/
def cmdPushConstants (cmd : CmdBuffer) (offset : UInt32) (values : Counted UInt8) : CmdBuffer :=
  if h : offset.toNat + values.items.length > MAX_PUSH_CONST then
    cmd.setError
  else
    have hend : (UInt32.ofNat (offset.toNat + values.items.length)).toNat ≤ MAX_PUSH_CONST := by
      rw [UInt32.toNat_ofNat_of_lt' (Nat.lt_of_le_of_lt (Nat.not_lt.1 h) (by decide))]
      exact Nat.not_lt.1 h
    { cmd with
      pushConst := Bytes.splice cmd.pushConst offset.toNat values.items
      pushConst_length := by
        rw [Bytes.splice_length (by rw [cmd.pushConst_length]; omega)]
        exact cmd.pushConst_length
      pushConstLen :=
        if offset.toNat + values.items.length > cmd.pushConstLen.toNat then
          UInt32.ofNat (offset.toNat + values.items.length)
        else
          cmd.pushConstLen
      pushConstLen_le := by
        split
        · exact hend
        · exact cmd.pushConstLen_le }

/-- A colour clear is only taken before the first draw. -/
def cmdClearAttachments (cmd : CmdBuffer) (attachments : List (Bool × Rgba)) : CmdBuffer :=
  attachments.foldl (fun cmd (color, value) =>
    if color ∧ cmd.draws.length = 0 then { cmd with clearValue := value, hasClear := true } else cmd) cmd

/-! ### Transfers -/

/-- One region of `CmdCopyImageToBuffer2`. -/
def deferCopy (cmd : CmdBuffer) (region : Region) : CmdBuffer :=
  if h : cmd.copies.length < MAX_COPIES then
    { cmd with
      copies := cmd.copies ++ [region]
      copies_le := by
        rw [List.length_append]
        exact h }
  else
    cmd.setError

/-- One region of `CmdCopyBufferToImage2`. -/
def deferUpload (cmd : CmdBuffer) (region : Region) : CmdBuffer :=
  if h : cmd.uploads.length < MAX_UPLOADS then
    { cmd with
      uploads := cmd.uploads ++ [region]
      uploads_le := by
        rw [List.length_append]
        exact h }
  else
    cmd.setError

end CmdBuffer

structure BufferCopy where
  srcOffset : UInt64
  dstOffset : UInt64
  size : UInt64

/-- One region of `CmdCopyBuffer2`; a region out of bounds is skipped. -/
def copyBufferRegion (src dst : Buffer) (maps : Maps) (r : BufferCopy) : Maps :=
  match src.map, dst.map with
  | some s, some d =>
    if r.srcOffset + r.size > src.totalSize ∨ r.dstOffset + r.size > dst.totalSize then
      maps
    else
      (d.add r.dstOffset.toNat).store maps ((maps s.handle).load (s.at_ + r.srcOffset.toNat) r.size.toNat)
  | _, _ => maps

def cmdCopyBuffer2 (maps : Maps) (src dst : Option Buffer) (regions : List BufferCopy) : Maps :=
  match src, dst with
  | some src, some dst => regions.foldl (copyBufferRegion src dst) maps
  | _, _ => maps

def cmdFillBuffer (maps : Maps) (dst : Option Buffer) (dstOffset size : UInt64) (data : UInt32) : Maps :=
  match dst with
  | none => maps
  | some dst =>
    match dst.map with
    | none => maps
    | some d =>
      if dstOffset > dst.totalSize then
        maps
      else
        let endAt := min (if size = VK_WHOLE_SIZE then dst.totalSize else dstOffset + size) dst.totalSize
        -- whole words; the difference wraps when the sum above did
        let n := ((endAt - dstOffset) / 4).toNat
        (d.add dstOffset.toNat).store maps (Bytes.ofWords (List.replicate n data))

/-- No data is a null pointer. -/
def cmdUpdateBuffer (maps : Maps) (dst : Option Buffer) (dstOffset : UInt64) (data : Option (List UInt8)) : Maps :=
  match dst, data with
  | some dst, some bs =>
    match dst.map with
    | none => maps
    | some d =>
      if dstOffset + UInt64.ofNat bs.length > dst.totalSize then maps else (d.add dstOffset.toNat).store maps bs
  | _, _ => maps

/-! ### Recording -/

/-- A recorded command; `other` is one that this driver takes without keeping anything (a barrier, a scissor). -/
inductive Cmd where
  | beginRendering (renderArea : Rect2D) (colorAttachments : List RenderingAttachment)
  | endRendering
  | bindPipeline (graphics : Bool) (pipeline : Option Pipeline)
  | draw (vertexCount instanceCount firstVertex firstInstance : UInt32)
  | drawIndexed (indexCount instanceCount firstIndex : UInt32) (vertexOffset : Int32) (firstInstance : UInt32)
  | bindVertexBuffers2 (firstBinding : UInt32) (buffers : List (Option Buffer × UInt64))
  | bindIndexBuffer2 (buffer : Option Buffer) (offset : UInt64) (isU32 : Bool)
  | setViewport (firstViewport : UInt32) (viewports : List Rgba)
  | setDynamic (state : DynamicState)
  | bindDescriptorSets (graphics : Bool) (sets : List (Option Nat))
  | pushConstants (offset : UInt32) (values : Counted UInt8)
  | clearAttachments (attachments : List (Bool × Rgba))
  | copyImageToBuffer2 (src : Option Image) (dst : Option Buffer) (regions : List BufferImageCopy)
  | copyBufferToImage2 (src : Option Buffer) (dst : Option Image) (regions : List BufferImageCopy)
  | copyBuffer2 (src dst : Option Buffer) (regions : List BufferCopy)
  | fillBuffer (dst : Option Buffer) (dstOffset size : UInt64) (data : UInt32)
  | updateBuffer (dst : Option Buffer) (dstOffset : UInt64) (data : Option (List UInt8))
  | other

/-- What a command does to the command buffer. -/
def CmdBuffer.record (sets : Sets) (cmd : CmdBuffer) : Cmd → CmdBuffer
  | .beginRendering renderArea colorAttachments => cmd.cmdBeginRendering renderArea colorAttachments
  | .bindPipeline graphics pipeline => cmd.cmdBindPipeline graphics pipeline
  | .draw vertexCount instanceCount firstVertex _ => cmd.recordDraw vertexCount instanceCount firstVertex 0 false
  | .drawIndexed indexCount instanceCount firstIndex vertexOffset _ =>
    cmd.recordDraw indexCount instanceCount firstIndex vertexOffset true
  | .bindVertexBuffers2 firstBinding buffers => cmd.cmdBindVertexBuffers2 firstBinding buffers
  | .bindIndexBuffer2 buffer offset isU32 => cmd.cmdBindIndexBuffer2 buffer offset isU32
  | .setViewport firstViewport viewports => cmd.cmdSetViewport firstViewport viewports
  | .setDynamic state => cmd.cmdSetDynamic state
  | .bindDescriptorSets graphics bound => cmd.cmdBindDescriptorSets sets graphics bound
  | .pushConstants offset values => cmd.cmdPushConstants offset values
  | .clearAttachments attachments => cmd.cmdClearAttachments attachments
  | .copyImageToBuffer2 src dst regions => regions.foldl (fun cmd r => cmd.deferCopy (r.region src dst)) cmd
  | .copyBufferToImage2 src dst regions => regions.foldl (fun cmd r => cmd.deferUpload (r.region dst src)) cmd
  | .endRendering | .copyBuffer2 .. | .fillBuffer .. | .updateBuffer .. | .other => cmd

/-- What a command does to the memories while it is recorded. -/
def Cmd.eager (maps : Maps) : Cmd → Maps
  | .copyBuffer2 src dst regions => cmdCopyBuffer2 maps src dst regions
  | .fillBuffer dst dstOffset size data => cmdFillBuffer maps dst dstOffset size data
  | .updateBuffer dst dstOffset data => cmdUpdateBuffer maps dst dstOffset data
  | _ => maps

/-- The driver, with the one command buffer that is looked at. -/
structure State where
  sets : Sets
  maps : Maps
  cmd : CmdBuffer

/-- Before the first call. -/
def State.start : State where
  sets _ := .empty
  maps _ := fun _ => 0
  cmd := .empty

/-- The calls of an application. -/
inductive Call where
  | beginCommandBuffer
  | cmd (c : Cmd)
  | allocateDescriptorSet (set : Nat)
  | updateDescriptorSets (writes : List WriteDescriptorSet)
  | updateDescriptorSetWithTemplate (set : Option Nat) (entries : List TemplateEntry)
  /-- The application writes to mapped memory. -/
  | hostWrite (p : Ptr) (bs : List UInt8)

namespace State

def call (st : State) : Call → State
  | .beginCommandBuffer => { st with cmd := st.cmd.beginCommandBuffer }
  | .cmd c => { st with cmd := st.cmd.record st.sets c, maps := c.eager st.maps }
  | .allocateDescriptorSet set => { st with sets := Function.update st.sets set .empty }
  | .updateDescriptorSets writes => { st with sets := Infinigpu.Icd.updateDescriptorSets st.sets writes }
  | .updateDescriptorSetWithTemplate set entries =>
    { st with sets := Infinigpu.Icd.updateDescriptorSetWithTemplate st.sets set entries }
  | .hostWrite p bs => { st with maps := p.store st.maps bs }

def run (st : State) (calls : List Call) : State := calls.foldl call st

end State

end Infinigpu.Icd
