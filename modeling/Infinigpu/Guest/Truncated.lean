import Infinigpu.Guest.RoundTrip

/-!
# Encoded draws that are cut off

A payload whose length does not fit into 32 bits is sent cut off (`(uint32_t)n`).  What decodes of such a payload is
all of it, up to texture pixels that no texture uses (`CmdlistArgs.of_decode_take`, `ForwardedArgs.of_decode_take`): a
section that is missing bytes is refused for its length, and an entry name that is cut has no terminator.
-/

namespace Bytes

theorem slice_take {bs : List UInt8} {i n k : Nat} (h : i + n ≤ k) : slice (bs.take k) i n = slice bs i n := by
  refine List.ext_getElem? fun j => ?_
  rw [getElem?_slice, getElem?_slice]
  by_cases hj : j < n
  · rw [if_pos hj, if_pos hj, List.getElem?_take_of_lt (by omega)]
  · rw [if_neg hj, if_neg hj]

end Bytes

namespace Infinigpu

/-- A part of a string with its terminator that has a terminator is all of it. -/
private theorem CString.eq_of_nul {name : CString} {bs rest rest' : List UInt8} (h : bs ++ rest = name.bytes ++ rest')
    (hle : bs.length ≤ name.bytes.length) (hnul : 0 ∈ bs) : bs = name.bytes ∧ rest = rest' := by
  have hprefix : bs <+: name.bytes :=
    List.prefix_of_prefix_length_le ⟨rest, h⟩ ⟨rest', rfl⟩ hle
  have hlen : bs.length = name.bytes.length := by
    by_contra hne
    have hchars : bs <+: name.chars := by
      refine List.prefix_of_prefix_length_le hprefix ⟨[0], rfl⟩ ?_
      rw [name.bytes_length] at hle hne
      omega
    exact name.nulFree (hchars.subset hnul)
  exact List.append_inj h hlen

private theorem mem_of_cstr {bs name : List UInt8} (h : cstr bs = some name) : 0 ∈ bs := by
  obtain ⟨i, hi, -⟩ := Option.map_eq_some_iff.1 h
  by_contra hnul
  rw [List.idxOf?_eq_none_iff.2 hnul] at hi
  cases hi

/-! ### Command lists -/

namespace CmdlistArgs

variable {c : CmdlistArgs} {maxBytes k : Nat} {decoded : OwnedForwardedDraw}

/-- What follows the first 120 bytes of a payload that is cut off. -/
private theorem take_drop (c : CmdlistArgs) (k : Nat) :
    (c.bytes.take k).drop 120 = c.sections.bytes.take (k - 120) := by
  rw [List.drop_take, bytes_drop]

private theorem tailOf_take (h : 120 ≤ k) : tailOf (c.bytes.take k) = c.tail := by
  rw [tailOf, Bytes.slice_take h]
  exact tailOf_bytes c

/-- The entry names of a payload that decodes are not cut. -/
private theorem fits_of_decode_take (hv : c.vspirv.items.length * 4 < 2 ^ 32)
    (hf : c.fspirv.items.length * 4 < 2 ^ 32) (hubo : c.uboBytes < 2 ^ 32)
    (h : decodeForwardedCmdlist (c.bytes.take k) maxBytes = some decoded) : c.Fits := by
  obtain ⟨hlength, -, s, hmatch, hbytes, hparts⟩ := decodeForwardedCmdlist_eq_some_iff.1 h
  have hk : 120 ≤ k := by
    rw [List.length_take] at hlength
    omega
  rw [tailOf_take hk] at hmatch hparts
  obtain ⟨attrs, draws, textures, uniforms, vertexEntry, fragmentEntry, hdecoded, -⟩ :=
    decodeParts_eq_some_iff.1 hparts
  -- the sections before the names have their full lengths
  have hown := c.sections_lengths
  simp only [Sections.Match, Sections.parts, ForwardedCmdListTail.lengths, tail, List.map_cons, List.map_nil,
    List.cons.injEq, and_true, Counted.count_toNat, UInt32.toNat_ofNat_of_lt' hv, UInt32.toNat_ofNat_of_lt' hf]
    at hmatch hown
  obtain ⟨h₁, h₂, h₃, h₄, h₅, h₆, h₇, hventry, hfentry, -, -, -⟩ := hmatch
  obtain ⟨o₁, o₂, o₃, o₄, o₅, o₆, o₇, -, -, -, -, -⟩ := hown
  have hall : s.bytes ++ c.sections.bytes.drop (k - 120) = c.sections.bytes := by
    rw [hbytes, take_drop, List.take_append_drop]
  simp only [Sections.bytes, Sections.parts, List.flatten_cons, List.flatten_nil, List.append_assoc, List.nil_append]
    at hall
  have hrest := (List.append_inj hall (h₁.trans o₁.symm)).2
  have hrest := (List.append_inj hrest (h₂.trans o₂.symm)).2
  have hrest := (List.append_inj hrest (h₃.trans o₃.symm)).2
  have hrest := (List.append_inj hrest (h₄.trans o₄.symm)).2
  have hrest := (List.append_inj hrest (h₅.trans o₅.symm)).2
  have hrest := (List.append_inj hrest (h₆.trans o₆.symm)).2
  have hrest := (List.append_inj hrest (h₇.trans o₇.symm)).2
  have hcut : ∀ n : Nat, (UInt32.ofNat n).toNat ≤ n := fun n => by
    rw [UInt32.toNat_ofNat']
    exact Nat.mod_le _ _
  have hvname : s.ventry = c.vertexEntry.bytes ∧ _ := CString.eq_of_nul hrest
    (by rw [hventry, CString.bytes_length]; exact hcut _) (mem_of_cstr hdecoded.ventry)
  have hfname : s.fentry = c.fragmentEntry.bytes ∧ _ := CString.eq_of_nul hvname.2
    (by rw [hfentry, CString.bytes_length]; exact hcut _) (mem_of_cstr hdecoded.fentry)
  rw [hvname.1, CString.bytes_length] at hventry
  rw [hfname.1, CString.bytes_length] at hfentry
  refine ⟨hv, hf, ?_, ?_, hubo⟩
  · rw [hventry]
    exact UInt32.toNat_lt _
  · rw [hfentry]
    exact UInt32.toNat_lt _

/-- The bytes in front of the texture pixels. -/
def headBytes (c : CmdlistArgs) : Nat := c.bytes.length - c.texpix.items.length

theorem bytes_eq_headBytes (c : CmdlistArgs) : c.bytes.length = c.headBytes + c.texpix.items.length := by
  have hlen := c.bytes_length
  unfold headBytes
  omega

/-- The same command list with only the first `j` bytes of its pixels. -/
def cutPixels (c : CmdlistArgs) (j : Nat) : CmdlistArgs :=
  { c with
    texpix :=
      { items := c.texpix.items.take j
        lt := Nat.lt_of_le_of_lt (List.length_take_le' _ _) c.texpix.lt } }

private theorem take_headBytes (c : CmdlistArgs) (j : Nat) :
    c.bytes.take (c.headBytes + j) = (c.cutPixels j).bytes := by
  have hhead : (c.workload.encode ++ c.tail.encode ++ c.sections.parts.flatten).length = c.headBytes := by
    have hlen : c.bytes.length = (c.workload.encode ++ c.tail.encode ++ c.sections.parts.flatten).length +
        c.texpix.items.length := by
      simp only [bytes, Sections.bytes, List.length_append]
      exact (Nat.add_assoc _ _ _).symm
    rw [headBytes, hlen, Nat.add_sub_cancel]
  have hbytes : c.bytes = c.workload.encode ++ c.tail.encode ++ c.sections.parts.flatten ++ c.texpix.items := by
    simp only [bytes, Sections.bytes, List.append_assoc]
    rfl
  have hcut : (c.cutPixels j).bytes =
      c.workload.encode ++ c.tail.encode ++ c.sections.parts.flatten ++ c.texpix.items.take j := by
    simp only [bytes, Sections.bytes, List.append_assoc]
    rfl
  rw [hbytes, hcut, ← hhead, List.take_length_add_append]

/-- A payload that is cut before its pixels is refused. -/
private theorem decode_take_headBytes (hfits : c.Fits) (hk : k < c.headBytes) :
    decodeForwardedCmdlist (c.bytes.take k) maxBytes = none := by
  have hlengths := sections_match hfits
  have hsum : 120 + c.tail.lengths.sum = c.headBytes := by
    have hlen := c.bytes_length
    rw [← hlengths, sections_lengths]
    unfold headBytes
    simp only [List.sum_cons, List.sum_nil]
    omega
  have htake : (c.bytes.take k).length ≤ k := List.length_take_le _ _
  rw [decodeForwardedCmdlist_eq, if_pos]
  by_cases hshort : (c.bytes.take k).length < 120
  · exact .inl hshort
  · refine .inr (.inr ?_)
    rw [tailOf_take (by omega), List.length_drop]
    omega

/-- Pixels that no texture needs can be missing. -/
private theorem Accepted.of_cutPixels {j : Nat} (h : (c.cutPixels j).Accepted maxBytes) :
    c.Accepted maxBytes ∧ (c.texs.items.map (·.dataLen.toNat)).sum ≤ j := by
  have htexpix : (c.texs.items.map (·.dataLen.toNat)).sum ≤ min j c.texpix.items.length :=
    h.texpix.trans_eq List.length_take
  exact ⟨{ h with texpix := htexpix.trans (Nat.min_le_right _ _) }, htexpix.trans (Nat.min_le_left _ _)⟩

/-- What decodes of a payload that is cut off is its draw, with the pixels that are left. -/
theorem draw_of_decode_take (hv : c.vspirv.items.length * 4 < 2 ^ 32) (hf : c.fspirv.items.length * 4 < 2 ^ 32)
    (hubo : c.uboBytes < 2 ^ 32) (h : decodeForwardedCmdlist (c.bytes.take k) maxBytes = some decoded) :
    ∃ j, k = c.headBytes + j ∧ (c.cutPixels j).Accepted maxBytes ∧ decoded = (c.cutPixels j).draw := by
  have hfits := fits_of_decode_take hv hf hubo h
  by_cases hk : k < c.headBytes
  · rw [decode_take_headBytes hfits hk] at h
    cases h
  · have hsplit : k = c.headBytes + (k - c.headBytes) := by omega
    have hcut : (c.cutPixels (k - c.headBytes)).Fits :=
      ⟨hfits.vspirv, hfits.fspirv, hfits.vertexEntry, hfits.fragmentEntry, hfits.ubo⟩
    rw [hsplit, take_headBytes] at h
    exact ⟨k - c.headBytes, hsplit, (decodeForwardedCmdlist_bytes hcut).1 h⟩

/-- What decodes of a payload that is cut off has all that its textures need. -/
theorem of_decode_take (hv : c.vspirv.items.length * 4 < 2 ^ 32) (hf : c.fspirv.items.length * 4 < 2 ^ 32)
    (hubo : c.uboBytes < 2 ^ 32) (h : decodeForwardedCmdlist (c.bytes.take k) maxBytes = some decoded) :
    c.headBytes + (c.texs.items.map (·.dataLen.toNat)).sum ≤ k ∧ c.Accepted maxBytes := by
  obtain ⟨j, rfl, hcut, -⟩ := draw_of_decode_take hv hf hubo h
  obtain ⟨hacc, htexs⟩ := hcut.of_cutPixels
  exact ⟨by omega, hacc⟩

end CmdlistArgs

/-! ### Bufferless draws -/

namespace ForwardedArgs

variable {a : ForwardedArgs} {maxBytes k : Nat} {decoded : OwnedForwardedDraw}

/-- A draw that decodes has its parts, and its names have terminators. -/
private theorem nul_of_decode {payload rest : List UInt8} {tail : ForwardedDrawTail}
    (hread : readFromPrefix 24 ForwardedDrawTail.decode (payload.drop VulkanWorkload.size) = some (tail, rest))
    (h : decodeForwarded payload maxBytes = some decoded) :
    let start := tail.vertexSpirvLen.toNat + tail.fragmentSpirvLen.toNat
    let velen := tail.vertexEntryLen.toNat
    let felen := tail.fragmentEntryLen.toNat
    start + velen + felen ≤ rest.length ∧ 0 ∈ Bytes.slice rest start velen ∧
      0 ∈ Bytes.slice rest (start + velen) felen := by
  have hlong : ¬ payload.length < VulkanWorkload.size := by
    intro hshort
    rw [decodeForwarded, if_pos hshort] at h
    cases h
  rw [decodeForwarded, if_neg hlong, hread] at h
  simp only at h
  by_cases hbad : badStages tail.vertexSpirvLen.toNat tail.fragmentSpirvLen.toNat tail.vertexEntryLen.toNat
      tail.fragmentEntryLen.toNat maxBytes
  · rw [if_pos hbad] at h
    cases h
  rw [if_neg hbad] at h
  cases htotal : checkedSum [tail.fragmentSpirvLen.toNat, tail.vertexEntryLen.toNat, tail.fragmentEntryLen.toNat]
      tail.vertexSpirvLen.toNat with
  | none =>
    rw [htotal] at h
    cases h
  | some total =>
    have hsum : total = tail.vertexSpirvLen.toNat + tail.fragmentSpirvLen.toNat + tail.vertexEntryLen.toNat +
        tail.fragmentEntryLen.toNat := by
      have h₁ := tail.vertexSpirvLen.toNat_lt
      have h₂ := tail.fragmentSpirvLen.toNat_lt
      have h₃ := tail.vertexEntryLen.toNat_lt
      have h₄ := tail.fragmentEntryLen.toNat_lt
      rw [checkedSum_eq (by simp only [List.sum_cons, List.sum_nil]; omega), Option.some_inj] at htotal
      simp only [List.sum_cons, List.sum_nil] at htotal
      omega
    rw [htotal] at h
    simp only at h
    by_cases hfits : total > rest.length
    · rw [if_pos hfits] at h
      cases h
    rw [if_neg hfits] at h
    by_cases hmagic : (toWords (rest.take tail.vertexSpirvLen.toNat)).head? ≠ some SPIRV_MAGIC ∨
        (toWords (Bytes.slice rest tail.vertexSpirvLen.toNat tail.fragmentSpirvLen.toNat)).head? ≠ some SPIRV_MAGIC
    · rw [if_pos hmagic] at h
      cases h
    rw [if_neg hmagic] at h
    cases hventry : cstr (Bytes.slice rest (tail.vertexSpirvLen.toNat + tail.fragmentSpirvLen.toNat)
        tail.vertexEntryLen.toNat) with
    | none =>
      rw [hventry] at h
      cases h
    | some vertexEntry =>
      cases hfentry : cstr (Bytes.slice rest (tail.vertexSpirvLen.toNat + tail.fragmentSpirvLen.toNat +
          tail.vertexEntryLen.toNat) tail.fragmentEntryLen.toNat) with
      | none =>
        rw [hventry, hfentry] at h
        cases h
      | some fragmentEntry => exact ⟨by omega, mem_of_cstr hventry, mem_of_cstr hfentry⟩

/-- What follows the tail. -/
private theorem bytes_drop (a : ForwardedArgs) : a.bytes.drop 64 =
    Bytes.ofWords a.vspirv.items ++ Bytes.ofWords a.fspirv.items ++
    (a.vertexEntry.bytes ++ a.fragmentEntry.bytes) := by
  have hlen : (a.workload.encode ++ a.tail.encode).length = 64 := by
    rw [List.length_append, VulkanWorkload.encode_length, ForwardedDrawTail.encode_length]
  simp only [bytes, List.append_assoc]
  rw [← List.append_assoc, ← hlen, List.drop_left]

private theorem readTail_take (h : 64 ≤ k) :
    readFromPrefix 24 ForwardedDrawTail.decode ((a.bytes.take k).drop VulkanWorkload.size) =
      some (a.tail, (a.bytes.take k).drop 64) := by
  have hsize : VulkanWorkload.size = 40 := rfl
  have hlen := a.bytes_length
  have htail : Bytes.slice a.bytes VulkanWorkload.size 24 = a.tail.encode := by
    have hheader : a.workload.encode.length = VulkanWorkload.size := VulkanWorkload.encode_length _
    have hencode : a.tail.encode.length = 24 := ForwardedDrawTail.encode_length _
    simp only [bytes, List.append_assoc]
    rw [Bytes.slice, ← hheader, List.drop_left, ← hencode, List.take_left]
  have hslice : ((a.bytes.take k).drop VulkanWorkload.size).take 24 = a.tail.encode := by
    rw [← htail]
    exact Bytes.slice_take (by omega)
  rw [readFromPrefix, if_neg, hslice, ForwardedDrawTail.decode_encode, List.drop_drop]
  · rfl
  · rw [List.length_drop, List.length_take]
    omega

/-- What decodes of a payload that is cut off is all of it. -/
theorem of_decode_take (hv : a.vspirv.items.length * 4 < 2 ^ 32) (hf : a.fspirv.items.length * 4 < 2 ^ 32)
    (h : decodeForwarded (a.bytes.take k) maxBytes = some decoded) : a.bytes.length ≤ k ∧ a.Accepted maxBytes := by
  have hsize : VulkanWorkload.size = 40 := rfl
  have hvlen : a.tail.vertexSpirvLen.toNat = a.vspirv.items.length * 4 := UInt32.toNat_ofNat_of_lt' hv
  have hflen : a.tail.fragmentSpirvLen.toNat = a.fspirv.items.length * 4 := UInt32.toNat_ofNat_of_lt' hf
  have hcut : ∀ n : Nat, (UInt32.ofNat n).toNat ≤ n := fun n => by
    rw [UInt32.toNat_ofNat']
    exact Nat.mod_le _ _
  have hvelen : a.tail.vertexEntryLen.toNat ≤ a.vertexEntry.chars.length + 1 := hcut _
  have hfelen : a.tail.fragmentEntryLen.toNat ≤ a.fragmentEntry.chars.length + 1 := hcut _
  have hk : 64 ≤ k := by
    by_contra hlt
    have hnone : readFromPrefix 24 ForwardedDrawTail.decode ((a.bytes.take k).drop VulkanWorkload.size) = none := by
      rw [readFromPrefix, if_pos]
      rw [List.length_drop, List.length_take]
      omega
    unfold decodeForwarded at h
    rw [hnone] at h
    by_cases hheader : (a.bytes.take k).length < VulkanWorkload.size
    · rw [if_pos hheader] at h
      cases h
    · rw [if_neg hheader] at h
      cases h
  have hnames := nul_of_decode (readTail_take hk) h
  rw [hvlen, hflen] at hnames
  obtain ⟨hroom, hventry, hfentry⟩ := hnames
  have hfront : (Bytes.ofWords a.vspirv.items ++ Bytes.ofWords a.fspirv.items).length =
      a.vspirv.items.length * 4 + a.fspirv.items.length * 4 := by
    rw [List.length_append, Bytes.ofWords_length, Bytes.ofWords_length]
    omega
  have hdrop : ∀ i, (a.bytes.drop 64).drop (a.vspirv.items.length * 4 + a.fspirv.items.length * 4 + i) =
      (a.vertexEntry.bytes ++ a.fragmentEntry.bytes).drop i := by
    intro i
    rw [bytes_drop, ← hfront, List.drop_append, List.drop_eq_nil_of_le (Nat.le_add_right _ _),
      Nat.add_sub_cancel_left, List.nil_append]
  have hdrop₀ := hdrop 0
  rw [Nat.add_zero, List.drop_zero] at hdrop₀
  rw [List.length_drop, List.length_take] at hroom
  rw [List.drop_take, Bytes.slice_take (by omega), Bytes.slice, hdrop₀] at hventry
  rw [List.drop_take, Bytes.slice_take (by omega), Bytes.slice, hdrop] at hfentry
  -- neither name is cut
  have hvname := CString.eq_of_nul (List.take_append_drop a.tail.vertexEntryLen.toNat _)
    (Nat.le_trans (List.length_take_le _ _) (hvelen.trans_eq a.vertexEntry.bytes_length.symm)) hventry
  rw [hvname.2] at hfentry
  have hfname := CString.eq_of_nul
    ((List.take_append_drop a.tail.fragmentEntryLen.toNat _).trans (List.append_nil _).symm)
    (Nat.le_trans (List.length_take_le _ _) (hfelen.trans_eq a.fragmentEntry.bytes_length.symm)) hfentry
  have hv' := congrArg List.length hvname.1
  have hf' := congrArg List.length hfname.1
  rw [List.length_take, CString.bytes_length] at hv' hf'
  have hlen := a.bytes_length
  have hfits : a.Fits := by
    have hve := a.tail.vertexEntryLen.toNat_lt
    have hfe := a.tail.fragmentEntryLen.toNat_lt
    exact ⟨hv, hf, by omega, by omega⟩
  have hall : a.bytes.length ≤ k := by omega
  rw [List.take_of_length_le hall] at h
  exact ⟨hall, ((decodeForwarded_bytes hfits).1 h).1⟩

end ForwardedArgs

end Infinigpu
