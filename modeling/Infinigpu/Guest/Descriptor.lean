import Infinigpu.Guest.Objects

/-!
# Descriptor sets of the guest driver (`guest/icd`, `infinigpu_descriptor.c`)

A set captures the resources written to it: sampled images and uniform buffers in slots keyed by binding, and the last
storage buffer.  That a set has at most eight slots of a kind, with distinct bindings, is part of what a set is
(`Slots`), so every write keeps it.
-/

namespace Infinigpu.Icd

def MAX_SET_UBOS : Nat := 8
def MAX_SET_TEXTURES : Nat := 8

/-! ### Slots -/

/-- At most `max` entries keyed by binding, in the order in which their bindings were first used. -/
structure Slots (α : Type) (max : Nat) where
  entries : List (UInt32 × α)
  nodup : (entries.map Prod.fst).Nodup
  le : entries.length ≤ max

namespace Slots

variable {α : Type} {max : Nat}

protected def empty : Slots α max where
  entries := []
  nodup := List.nodup_nil
  le := Nat.zero_le max

/-- The entry of a binding is written, if there is one or room for one. -/
def write (s : Slots α max) (binding : UInt32) (fresh : α) (f : α → α) : Slots α max :=
  if hold : binding ∈ s.entries.map Prod.fst then
    { entries := s.entries.map fun e => if e.1 = binding then (e.1, f e.2) else e
      nodup := by
        have hkeys : (s.entries.map fun e => if e.1 = binding then (e.1, f e.2) else e).map Prod.fst =
            s.entries.map Prod.fst := by
          rw [List.map_map]
          refine List.map_congr_left fun e _ => ?_
          by_cases he : e.1 = binding
          · simp [he]
          · simp [he]
        rw [hkeys]
        exact s.nodup
      le := by
        rw [List.length_map]
        exact s.le }
  else if hroom : s.entries.length < max then
    { entries := s.entries ++ [(binding, f fresh)]
      nodup := by
        rw [List.map_append, List.nodup_append]
        refine ⟨s.nodup, List.nodup_singleton _, fun a ha b hb hab => hold ?_⟩
        rw [List.map_singleton, List.mem_singleton] at hb
        have hbinding : binding = a := (hab.trans hb).symm
        rw [hbinding]
        exact ha
      le := by
        rw [List.length_append]
        exact hroom }
  else
    s

end Slots

/-! ### Sets -/

structure DescTexture where
  image : Option ImageView
  sampler : Option Sampler
deriving DecidableEq, Repr

structure DescUbo where
  buffer : Option Buffer
  offset : UInt64
  range : UInt64
deriving DecidableEq, Repr

structure DescriptorSet where
  textures : Slots DescTexture MAX_SET_TEXTURES
  ubos : Slots DescUbo MAX_SET_UBOS
  ssboBuffer : Option Buffer
  ssboOffset : UInt64
  ssboRange : UInt64
  ssboBinding : UInt32

/-- A set as it is allocated. -/
protected def DescriptorSet.empty : DescriptorSet where
  textures := .empty
  ubos := .empty
  ssboBuffer := none
  ssboOffset := 0
  ssboRange := 0
  ssboBinding := 0

/-- `infinigpu_tex_slot`, and what is written to the slot it finds. -/
def texSlot (set : DescriptorSet) (binding : UInt32) (f : DescTexture → DescTexture) : DescriptorSet :=
  { set with textures := set.textures.write binding { image := none, sampler := none } f }

/-- `infinigpu_ubo_slot`, and what is written to the slot it finds. -/
def uboSlot (set : DescriptorSet) (binding : UInt32) (f : DescUbo → DescUbo) : DescriptorSet :=
  { set with ubos := set.ubos.write binding { buffer := none, offset := 0, range := 0 } f }

inductive DescriptorType where
  | combinedImageSampler
  | sampledImage
  | sampler
  | uniformBuffer
  | storageBuffer
  | other
deriving DecidableEq, Repr

structure DescriptorImageInfo where
  sampler : Option Sampler
  imageView : Option ImageView

structure DescriptorBufferInfo where
  buffer : Option Buffer
  offset : UInt64
  range : UInt64

def applyDescriptor (set : DescriptorSet) (type : DescriptorType) (dstBinding : UInt32)
    (img : Option DescriptorImageInfo) (buf : Option DescriptorBufferInfo) : DescriptorSet :=
  match type, img, buf with
  | .combinedImageSampler, some img, _ =>
    texSlot set dstBinding fun t =>
      { image := img.imageView.or t.image
        sampler := img.sampler.or t.sampler }
  | .sampledImage, some { imageView := some view, .. }, _ =>
    texSlot set dstBinding fun t => { t with image := some view }
  | .sampler, some { sampler := some sampler, .. }, _ =>
    -- a separate sampler belongs to the image one binding lower
    if dstBinding = 0 then set else texSlot set (dstBinding - 1) fun t => { t with sampler := some sampler }
  | .uniformBuffer, _, some { buffer := some buffer, offset, range } =>
    uboSlot set dstBinding fun _ => { buffer := some buffer, offset, range }
  | .storageBuffer, _, some { buffer := some buffer, offset, range } =>
    { set with ssboBuffer := some buffer, ssboOffset := offset, ssboRange := range, ssboBinding := dstBinding }
  | _, _, _ => set

/-! ### Updates -/

/-- The descriptor sets, by handle. -/
abbrev Sets := Nat → DescriptorSet

structure WriteDescriptorSet where
  dstSet : Option Nat
  dstBinding : UInt32
  descriptorCount : UInt32
  descriptorType : DescriptorType
  imageInfo : Option DescriptorImageInfo
  bufferInfo : Option DescriptorBufferInfo

/-- Only the first element of a write is looked at. -/
def updateDescriptorSets (sets : Sets) (writes : List WriteDescriptorSet) : Sets :=
  writes.foldl (fun sets wr =>
    match wr.dstSet with
    | none => sets
    | some set =>
      if wr.descriptorCount = 0 then
        sets
      else
        Function.update sets set
          (applyDescriptor (sets set) wr.descriptorType wr.dstBinding wr.imageInfo wr.bufferInfo)) sets

/-- An entry of a template, with its elements in the caller's data read as both kinds of record. -/
structure TemplateEntry where
  type : DescriptorType
  binding : UInt32
  elements : List (DescriptorImageInfo × DescriptorBufferInfo)

def updateDescriptorSetWithTemplate (sets : Sets) (set : Option Nat) (entries : List TemplateEntry) : Sets :=
  match set with
  | none => sets
  | some set =>
    Function.update sets set (entries.foldl (fun s entry =>
      entry.elements.foldl (fun s p => applyDescriptor s entry.type entry.binding (some p.1) (some p.2)) s)
        (sets set))

end Infinigpu.Icd
