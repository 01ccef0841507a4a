import Infinigpu.Replay.Handles
import Infinigpu.Replay.Resources
import Mathlib.Algebra.Order.Group.Multiset
import Mathlib.Tactic.Abel

/-!
# What the parts of a render leave (`infinigpu-replay`, the guards of `HostGpu`)

Whichever calls of the driver fail, no part of a render hands it a handle that is not live, or destroys one twice.
What lives on is owned by a cache, except what the guards do not have yet where a call fails: the pool of
`render_clear` before its command buffer is allocated, and the buffer and the memory of an export before they are
bound.  `Kept` says that the caches are within their caps; it has a predicate for the texture cache, which only the
uploads of a frame change.
-/

namespace Infinigpu.Vulkan

open Guard

/-! ### What the parts leave -/

/-- A body that failed with `e` left objects of these kinds in no slot. -/
abbrev Fails {S : Type} [DecidableEq S] (kindOf : S → VkObject) (I : Caches → Prop)
    (l : Caches → List (Nat × VkObject)) (leaks : VkCall → List VkObject → Prop) (e : VkCall) :
    Scope S VkObject Caches → Prop :=
  Ends kindOf I l fun loose _ => leaks e (loose.map Prod.snd)

/-- The calls of a frame after its textures have gone into the cache. -/
def VkCall.late : VkCall → Bool
  | .resetPool | .beginCommands | .endCommands | .resetFence | .submit | .wait | .invalidate => true
  | _ => false

/-- Nothing is left by a call that is none of these. -/
def Clean (e : VkCall) (kinds : List VkObject) : Prop := kinds = [] ∧ e.late = false

/-- A call that is none of these failed, and these objects are loose. -/
abbrev Early {S : Type} [DecidableEq S] (kindOf : S → VkObject) (I : Caches → Prop)
    (l : Caches → List (Nat × VkObject)) (loose : List (Nat × VkObject)) (reg : List (S × Nat)) (e : VkCall)
    (s : Scope S VkObject Caches) : Prop :=
  e.late = false ∧ Holds kindOf I l loose reg s

section

variable {S : Type} [DecidableEq S] {kindOf : S → VkObject} {I J : Caches → Prop}
  {l : Caches → List (Nat × VkObject)} {leaks : VkCall → List VkObject → Prop} {loose us : List (Nat × VkObject)}
  {reg : List (S × Nat)} {d : Driver} {e : VkCall} {slot : S}

theorem fails_of_holds {s : Scope S VkObject Caches} (h : Holds kindOf I l loose reg s) (hI : ∀ c, I c → J c)
    (hleaks : leaks e (loose.map Prod.snd)) : Fails kindOf J l leaks e s := ⟨loose, reg, h.mono hI, hleaks⟩

theorem Fails.mono {leaks' : VkCall → List VkObject → Prop} {s : Scope S VkObject Caches}
    (h : Fails kindOf I l leaks e s) (hI : ∀ c, I c → J c) (hleaks : ∀ k, leaks e k → leaks' e k) :
    Fails kindOf J l leaks' e s := by
  obtain ⟨loose, reg, hs, hkinds⟩ := h
  exact ⟨loose, reg, hs.mono hI, hleaks _ hkinds⟩

theorem Fails.clean {s : Scope S VkObject Caches} (h : Fails kindOf I l Clean e s) :
    Ends kindOf I l (fun made _ => made = [] ∧ e.late = false) s := by
  obtain ⟨loose, reg, hs, hkinds, he⟩ := h
  exact ⟨loose, reg, hs, List.map_eq_nil_iff.1 hkinds, he⟩

theorem call_fails (hus : ∀ c, I c → us ⊆ loose ++ objects kindOf reg ++ l c) (hI : ∀ c, I c → J c)
    (hleaks : leaks e (loose.map Prod.snd)) :
    Meets (Holds kindOf I l loose reg) (call d.ok e us) (fun _ => Holds kindOf I l loose reg)
      (Fails kindOf J l leaks) :=
  call_meets hus fun _ h => fails_of_holds h hI hleaks

/-- A call that is not made where it is not needed. -/
theorem callUnless_fails (b : Bool) (hus : ∀ c, I c → us ⊆ loose ++ objects kindOf reg ++ l c)
    (hI : ∀ c, I c → J c) (hleaks : leaks e (loose.map Prod.snd)) :
    Meets (Holds kindOf I l loose reg) (if b then pure () else call d.ok e us) (fun _ => Holds kindOf I l loose reg)
      (Fails kindOf J l leaks) := by
  cases b with
  | true => exact .pure fun _ h => h
  | false => exact call_fails hus hI hleaks

theorem acquire_fails (hus : ∀ c, I c → us ⊆ loose ++ objects kindOf reg ++ l c)
    (hslot : slot ∉ reg.map Prod.fst) (hI : ∀ c, I c → J c) (hleaks : leaks e (loose.map Prod.snd)) :
    Meets (Holds kindOf I l loose reg) (acquire kindOf d.ok e slot us)
      (fun h => Holds kindOf I l loose ((slot, h) :: reg)) (Fails kindOf J l leaks) :=
  acquire_meets hus hslot fun _ h => fails_of_holds h hI hleaks

theorem backed_fails {t : Target} {object mem : S} (hobject : object ∉ reg.map Prod.fst)
    (hmem : mem ∉ reg.map Prod.fst) (hne : mem ≠ object) (hI : ∀ c, I c → J c) (hcreate : leaks (.create t) [])
    (htype : leaks (.memoryType t) []) (hallocate : leaks (.allocate t) []) (hbind : leaks (.bind t) []) :
    Meets (Holds kindOf I l [] reg) (backed kindOf d t object mem)
      (fun p => Holds kindOf I l [] ((mem, p.2) :: (object, p.1) :: reg)) (Fails kindOf J l leaks) := by
  refine Meets.bind (acquire_fails (usable (List.nil_subset _)) hobject hI hcreate) fun o => ?_
  refine Meets.bind (call_fails (usable (List.nil_subset _)) hI htype) fun _ => ?_
  have hfree : mem ∉ ((object, o) :: reg).map Prod.fst := by
    rw [List.map_cons, List.mem_cons, not_or]
    exact ⟨hne, hmem⟩
  refine Meets.bind (acquire_fails (usable (List.nil_subset _)) hfree hI hallocate) fun m => ?_
  refine Meets.bind (call_fails (usable ?_) hI hbind) fun _ => .pure fun _ h => h
  intro u hu
  simp only [List.mem_cons, List.not_mem_nil, or_false] at hu
  rcases hu with rfl | rfl
  · exact List.mem_cons_of_mem _ List.mem_cons_self
  · exact List.mem_cons_self

/-- What a frame leaves when it fails and its readback is to be exported. -/
def exportLeaks : VkCall → Bool → List VkObject
  | .memoryType .exported, true => [.buffer]
  | .allocate .exported, true => [.buffer]
  | .bind .exported, true => [.deviceMemory, .buffer]
  | _, _ => []

private theorem exportable_fails {buffer mem : S} (hbuffer : buffer ∉ reg.map Prod.fst)
    (hmem : mem ∉ reg.map Prod.fst) (hne : mem ≠ buffer) (hbufferKind : kindOf buffer = .buffer)
    (hmemKind : kindOf mem = .deviceMemory) (hI : ∀ c, I c → J c) :
    Meets (Holds kindOf I l [] reg) (exportable kindOf d buffer mem)
      (fun p => Holds kindOf I l [] ((mem, p.2) :: (buffer, p.1) :: reg))
      (Fails kindOf J l fun e k => k = exportLeaks e true) := by
  refine Meets.bind (create_meets (usable (List.nil_subset _)) fun _ h => fails_of_holds h hI rfl) fun b => ?_
  refine Meets.bind (call_fails (usable (List.nil_subset _)) hI ?_) fun _ => ?_
  · rw [hbufferKind]
    rfl
  refine Meets.bind (create_meets (usable (List.nil_subset _)) fun _ h => fails_of_holds h hI ?_) fun m => ?_
  · rw [hbufferKind]
    rfl
  refine Meets.bind (call_fails (usable ?_) hI ?_) fun _ => ?_
  · intro u hu
    simp only [List.mem_cons, List.not_mem_nil, or_false] at hu
    rcases hu with rfl | rfl
    · exact List.mem_cons_of_mem _ List.mem_cons_self
    · exact List.mem_cons_self
  · rw [hbufferKind, hmemKind]
    rfl
  refine Meets.bind (Q := fun _ => Holds kindOf I l [(m, kindOf mem)] ((buffer, b) :: reg)) ?_ fun _ => ?_
  · exact (register_meets kindOf buffer hbuffer).pre fun s h => h.swap
  have hfree : mem ∉ ((buffer, b) :: reg).map Prod.fst := by
    rw [List.map_cons, List.mem_cons, not_or]
    exact ⟨hne, hmem⟩
  exact Meets.bind (register_meets kindOf mem hfree) fun _ => .pure fun _ h => h

private theorem submitAndWait_fails {pool fence : Nat}
    (hpool : ∀ c, I c → (pool, VkObject.commandPool) ∈ loose ++ objects kindOf reg ++ l c)
    (hfence : ∀ c, I c → (fence, VkObject.fence) ∈ loose ++ objects kindOf reg ++ l c) (hI : ∀ c, I c → J c)
    (hsubmit : leaks .submit (loose.map Prod.snd)) (hwait : leaks .wait (loose.map Prod.snd)) :
    Meets (Holds kindOf I l loose reg) (submitAndWait d pool fence) (fun _ => Holds kindOf I l loose reg)
      (Fails kindOf J l leaks) := by
  have hone : ∀ c, I c → [(fence, VkObject.fence)] ⊆ loose ++ objects kindOf reg ++ l c :=
    fun c hc => List.cons_subset.2 ⟨hfence c hc, List.nil_subset _⟩
  refine Meets.bind (call_fails (fun c hc => ?_) hI hsubmit) fun _ => call_fails hone hI hwait
  exact List.cons_subset.2 ⟨hpool c hc, hone c hc⟩

end

/-! ### The bodies -/

/-- What a render of a cleared image leaves when it fails. -/
def clearLeaks : VkCall → List VkObject
  | .commandBuffer => [.commandPool]
  | _ => []

section

variable {I : Caches → Prop} {l : Caches → List (Nat × VkObject)} {d : Driver}

theorem clearBody_fails : Meets (Holds RenderSlot.kind I l [] []) (clearBody d)
    (fun _ => Ends RenderSlot.kind I l fun loose _ => loose.map Prod.snd = [])
    (Fails RenderSlot.kind I l fun e k => k = clearLeaks e) := by
  have hI : ∀ c, I c → I c := fun _ h => h
  refine Meets.bind (backed_fails (by simp) (by simp) nofun hI rfl rfl rfl rfl) fun ⟨image, imgMem⟩ => ?_
  refine Meets.bind (acquire_fails (by simp [objects, RenderSlot.kind]) (by simp) hI rfl) fun view => ?_
  refine Meets.bind (acquire_fails (by simp) (by simp) hI rfl) fun renderPass => ?_
  refine Meets.bind (acquire_fails (by simp [objects, RenderSlot.kind]) (by simp) hI rfl) fun framebuffer => ?_
  refine Meets.bind (backed_fails (by simp) (by simp) nofun hI rfl rfl rfl rfl) fun ⟨readback, rbMem⟩ => ?_
  refine Meets.bind (create_meets (usable (by simp)) fun _ h => fails_of_holds h hI rfl) fun pool => ?_
  refine Meets.bind (call_fails (by simp) hI rfl) fun _ => ?_
  refine Meets.bind (register_meets RenderSlot.kind .pool (by simp)) fun _ => ?_
  refine Meets.bind (call_fails (by simp [objects, RenderSlot.kind]) hI rfl) fun _ => ?_
  refine Meets.bind (call_fails (by simp [objects, RenderSlot.kind]) hI rfl) fun _ => ?_
  refine Meets.bind (acquire_fails (by simp) (by simp) hI rfl) fun fence => ?_
  refine Meets.bind (submitAndWait_fails (by simp [objects, RenderSlot.kind])
    (by simp [objects, RenderSlot.kind]) hI rfl
    rfl) fun _ => ?_
  refine Meets.post (call_fails (by simp [objects, RenderSlot.kind]) hI rfl) fun _ _ h => ?_
  exact ⟨[], _, h, rfl⟩

/-! #### Exports -/

/-- The slots of an export. -/
def exportRegs {S : Type} (buffer mem : S) : Option (Nat × Nat) → List (S × Nat)
  | some (b, m) => [(mem, m), (buffer, b)]
  | none => []

private theorem export_fails {S : Type} [DecidableEq S] {kindOf : S → VkObject} {reg : List (S × Nat)}
    (buffer mem : S) (exported : Bool) (hbuffer : buffer ∉ reg.map Prod.fst) (hmem : mem ∉ reg.map Prod.fst)
    (hne : mem ≠ buffer) (hbufferKind : kindOf buffer = .buffer) (hmemKind : kindOf mem = .deviceMemory)
    {J : Caches → Prop} (hI : ∀ c, I c → J c) :
    Meets (Holds kindOf I l [] reg)
      (if exported then some <$> exportable kindOf d buffer mem else pure none)
      (fun e => Holds kindOf I l [] (exportRegs buffer mem e ++ reg))
      (Fails kindOf J l fun e k => k = exportLeaks e exported) := by
  cases exported with
  | false => exact .pure fun _ h => h
  | true =>
    exact Meets.bind (exportable_fails hbuffer hmem hne hbufferKind hmemKind hI) fun p => .pure fun _ h => h

theorem convertBody_fails (exported : Bool) :
    Meets (Holds ConvertSlot.kind I l [] []) (convertBody d exported)
    (fun _ => Ends ConvertSlot.kind I l fun loose _ => loose.map Prod.snd = [])
    (Fails ConvertSlot.kind I l fun e k => k = exportLeaks e exported) := by
  have hI : ∀ c, I c → I c := fun _ h => h
  refine Meets.bind (backed_fails (by simp) (by simp) nofun hI rfl rfl rfl rfl) fun ⟨staging, stMem⟩ => ?_
  refine Meets.bind (call_fails (by simp [objects, ConvertSlot.kind]) hI rfl) fun _ => ?_
  refine Meets.bind (backed_fails (by simp) (by simp) nofun hI rfl rfl rfl rfl) fun ⟨srcImg, srcMem⟩ => ?_
  refine Meets.bind (backed_fails (by simp) (by simp) nofun hI rfl rfl rfl rfl) fun ⟨dstImg, dstMem⟩ => ?_
  refine Meets.bind (backed_fails (by simp) (by simp) nofun hI rfl rfl rfl rfl) fun ⟨rb, rbMem⟩ => ?_
  refine Meets.bind (export_fails ConvertSlot.exportBuffer ConvertSlot.exportMem exported (by simp) (by simp)
    (by decide) rfl rfl hI) fun e => ?_
  have hpool : ConvertSlot.pool ∉ (exportRegs ConvertSlot.exportBuffer .exportMem e).map Prod.fst := by
    cases e <;> simp [exportRegs]
  have hfence : ConvertSlot.fence ∉ (exportRegs ConvertSlot.exportBuffer .exportMem e).map Prod.fst := by
    cases e <;> simp [exportRegs]
  refine Meets.bind (acquire_fails (by simp) (by simpa using hpool) hI rfl) fun pool => ?_
  refine Meets.bind (call_fails (by simp [objects, ConvertSlot.kind]) hI rfl) fun _ => ?_
  refine Meets.bind (call_fails (by simp [objects, ConvertSlot.kind]) hI rfl) fun _ => ?_
  refine Meets.bind (call_fails (by cases e <;> simp [objects, ConvertSlot.kind, exportRegs]) hI rfl) fun _ => ?_
  refine Meets.bind (acquire_fails (by simp) (by simpa using hfence) hI rfl) fun fence => ?_
  refine Meets.bind (submitAndWait_fails (by simp [objects, ConvertSlot.kind])
    (by simp [objects, ConvertSlot.kind]) hI rfl
    rfl) fun _ => ?_
  refine Meets.bind (call_fails (by simp [objects, ConvertSlot.kind]) hI rfl) fun _ => ?_
  cases e with
  | none => exact .pure fun s h => ⟨[], _, h, rfl⟩
  | some e =>
    refine Meets.post (call_fails (by simp [objects, ConvertSlot.kind, exportRegs]) hI rfl) fun _ s h => ?_
    exact ⟨[], _, h, rfl⟩

end

/-! #### The caches -/

/-- Others' objects, and those of the caches. -/
def besides (others : List (Nat × VkObject)) (c : Caches) : List (Nat × VkObject) :=
  others ++ (c.built ++ (c.setLayouts ++ (c.scratches ++ (c.imports ++ c.resident))))

section

variable {others : List (Nat × VkObject)} {c : Caches}

theorem built_subset : c.built ⊆ besides others c :=
  fun _ hu => List.mem_append_right _ (List.mem_append_left _ hu)

theorem setLayouts_subset : c.setLayouts ⊆ besides others c :=
  fun _ hu => List.mem_append_right _ (List.mem_append_right _ (List.mem_append_left _ hu))

theorem scratches_subset : c.scratches ⊆ besides others c := by
  intro u hu
  simp only [besides, List.mem_append]
  exact .inr (.inr (.inr (.inl hu)))

theorem imports_subset : c.imports ⊆ besides others c := by
  intro u hu
  simp only [besides, List.mem_append]
  exact .inr (.inr (.inr (.inr (.inl hu))))

theorem resident_subset : c.resident ⊆ besides others c := by
  intro u hu
  simp only [besides, List.mem_append]
  exact .inr (.inr (.inr (.inr (.inr hu))))

theorem textures_subset : c.textures ⊆ besides others c :=
  fun _ hu => resident_subset (List.mem_append_left _ hu)

theorem meshes_subset : c.meshes ⊆ besides others c :=
  fun _ hu => resident_subset (List.mem_append_right _ (List.mem_append_left _ hu))

theorem uploads_subset : c.uploads ⊆ besides others c :=
  fun _ hu => resident_subset (List.mem_append_right _ (List.mem_append_right _ hu))

end

/-- The caches are within their caps; the modules of a draw may come on top of theirs.  The textures are as `T` has
them. -/
structure Kept (T : TexCache → Prop) (c : Caches) : Prop where
  pipelines : c.objCache.pipelines.entries.length ≤ MAX_CACHED_PIPELINES
  modules : c.objCache.shaderModules.entries.length ≤ MAX_CACHED_MODULES + 1
  setLayouts : c.descSetLayouts.entries.length ≤ MAX_DESC_SET_LAYOUTS
  scratches : c.scratchCache.entries.length ≤ MAX_CACHED_SCRATCH
  imports : c.guestImports.entries.length ≤ MAX_CACHED_SCRATCH
  meshes : c.geomCache.map.entries.length ≤ MAX_CACHED_GEOM
  textures : T c.texCache

section

variable {c : Caches}

private theorem mem_built_of_renderPass {key : Int32 × Bool} {rp : Nat}
    (h : c.objCache.renderPasses.lookup key = some rp) :
    (rp, .renderPass) ∈ c.built := by
  have hmem : (rp, VkObject.renderPass) ∈ c.renderPasses := List.mem_map.2 ⟨⟨key, rp⟩, AList.mem_lookup_iff.1 h, rfl⟩
  exact List.mem_append_right _ (List.mem_append_right _ hmem)

private theorem mem_built_of_module {hash : UInt64} {m : Nat} (h : c.objCache.shaderModules.lookup hash = some m) :
    (m, .shaderModule) ∈ c.built := by
  have hmem : (m, VkObject.shaderModule) ∈ c.shaderModules :=
    List.mem_map.2 ⟨⟨hash, m⟩, AList.mem_lookup_iff.1 h, rfl⟩
  exact List.mem_append_right _ (List.mem_append_left _ hmem)

private theorem built_of_pipeline {key : PipelineKey} {cp : CachedPipeline}
    (h : c.objCache.pipelines.lookup key = some cp) :
    [(cp.pipeline, .pipeline), (cp.layout, .pipelineLayout)] ⊆ c.built := by
  intro u hu
  have hmem : u ∈ c.pipelines := List.mem_flatMap.2 ⟨⟨key, cp⟩, AList.mem_lookup_iff.1 h, hu⟩
  exact List.mem_append_left _ hmem

private theorem setLayouts_of_lookup {sig : DescriptorSig} {sl : Nat} (h : c.descSetLayouts.lookup sig = some sl) :
    (sl, .descriptorSetLayout) ∈ c.setLayouts := List.mem_map.2 ⟨⟨sig, sl⟩, AList.mem_lookup_iff.1 h, rfl⟩

private theorem scratches_of_lookup {key : ScratchKey} {ss : SizedScratch} (h : c.scratchCache.lookup key = some ss) :
    ss.objects ⊆ c.scratches := fun _ hu => List.mem_flatMap.2 ⟨⟨key, ss⟩, AList.mem_lookup_iff.1 h, hu⟩

theorem imports_of_lookup {key : ImportKey} {ig : ImportedGuest} (h : c.guestImports.lookup key = some ig) :
    ig.objects ⊆ c.imports := fun _ hu => List.mem_flatMap.2 ⟨⟨key, ig⟩, AList.mem_lookup_iff.1 h, hu⟩

end

/-- What goes into a cache under a new key is what it has more. -/
theorem entries_insert {K V α : Type} [DecidableEq K] {map : AList fun _ : K => V} {k : K} (v : V)
    (h : map.lookup k = none) (f : (_ : K) × V → α) :
    (map.insert k v).entries.length = map.entries.length + 1 ∧
      (map.insert k v).entries.map f = f ⟨k, v⟩ :: map.entries.map f := by
  rw [AList.entries_insert_of_notMem (AList.lookup_eq_none.1 h)]
  exact ⟨rfl, rfl⟩

theorem entries_insert_flatMap {K V α : Type} [DecidableEq K] {map : AList fun _ : K => V} {k : K} (v : V)
    (h : map.lookup k = none) (f : (_ : K) × V → List α) :
    (map.insert k v).entries.flatMap f = f ⟨k, v⟩ ++ map.entries.flatMap f := by
  rw [AList.entries_insert_of_notMem (AList.lookup_eq_none.1 h)]
  rfl

/-! #### Set layouts -/

section

variable {S : Type} [DecidableEq S] {kindOf : S → VkObject} {P : Caches → Prop} {others loose : List (Nat × VkObject)}
  {reg : List (S × Nat)} {d : Driver} {R : VkCall → Scope S VkObject Caches → Prop} {T : TexCache → Prop}

/-- `P` does not depend on the set layouts, as long as they are within their cap. -/
def AnySetLayouts (P : Caches → Prop) : Prop :=
  ∀ c m, m.entries.length ≤ MAX_DESC_SET_LAYOUTS → P c → P { c with descSetLayouts := m }

theorem descSetLayout_meets (sig : DescriptorSig) (hP : AnySetLayouts P)
    (hfail : ∀ s, Holds kindOf P (besides others) loose reg s → R .setLayout s) :
    Meets (Holds kindOf P (besides others) loose reg) (descSetLayout d sig)
      (fun sl => Holds kindOf (fun c => P c ∧ (sl, .descriptorSetLayout) ∈ c.setLayouts) (besides others) loose reg)
      R := by
  refine Meets.bind inspect_meets fun found => ?_
  cases found with
  | some sl => exact .pure fun _ h => h.mono fun c hc => ⟨hc.1, setLayouts_of_lookup hc.2⟩
  | none =>
    refine Meets.bind (drainWhen_meets (fun c => (P c ∧ c.descSetLayouts.lookup sig = none) ∧
      c.descSetLayouts.entries.length < MAX_DESC_SET_LAYOUTS) ?_ ?_) fun _ => ?_
    · intro c hc _
      refine ⟨⟨⟨hP c ∅ (Nat.zero_le _) hc.1, AList.lookup_empty _⟩, (by decide : 0 < MAX_DESC_SET_LAYOUTS)⟩, ?_⟩
      show (c.setLayouts ++ (others ++ (c.built ++ ([] ++ (c.scratches ++ (c.imports ++ c.resident)))))).Perm
        (besides others c)
      rw [← Multiset.coe_eq_coe]
      simp only [besides, ← Multiset.coe_add, Multiset.coe_nil]
      abel
    · intro c hc hfull
      exact ⟨hc, Nat.lt_of_not_le (of_decide_eq_false hfull)⟩
    refine Meets.bind (create_meets (usable (List.nil_subset _)) fun s h => hfail s (h.mono fun _ hc => hc.1.1))
      fun sl => ?_
    refine Meets.bind (onRest_gives [(sl, VkObject.descriptorSetLayout)] fun c hc => ?_) fun _ =>
      .pure fun _ h => h
    obtain ⟨hlength, hentries⟩ := entries_insert sl hc.1.2 fun e => (e.2, VkObject.descriptorSetLayout)
    refine ⟨⟨hP c _ (by omega) hc.1.1, setLayouts_of_lookup (AList.lookup_insert _)⟩, ?_⟩
    show ([(sl, VkObject.descriptorSetLayout)] ++ besides others c).Perm
      (others ++ (c.built ++ ((c.descSetLayouts.insert sig sl).entries.map _ ++
        (c.scratches ++ (c.imports ++ c.resident)))))
    rw [hentries, ← Multiset.coe_eq_coe]
    simp only [besides, Caches.setLayouts, List.singleton_append, ← Multiset.coe_add, ← Multiset.cons_coe,
      ← Multiset.singleton_add]
    abel

private theorem setLayoutsFor_meets (draw : OwnedForwardedDraw) (hP : AnySetLayouts P)
    (hfail : ∀ s, Holds kindOf P (besides others) loose reg s → R .setLayout s) :
    Meets (Holds kindOf P (besides others) loose reg) (setLayoutsFor d draw)
      (fun sets => Holds kindOf (fun c => P c ∧ sets.map (·, VkObject.descriptorSetLayout) ⊆ c.setLayouts)
        (besides others) loose reg) R := by
  unfold setLayoutsFor
  cases descSigOf draw with
  | none => exact .pure fun _ h => h.mono fun c hc => ⟨hc, List.nil_subset _⟩
  | some sig =>
    refine Meets.bind (descSetLayout_meets sig hP hfail) fun sl => .pure fun _ h => h.mono fun c hc => ⟨hc.1, ?_⟩
    exact List.cons_subset.2 ⟨hc.2, List.nil_subset _⟩

/-! #### Pipelines -/

def pipelineErrors : List VkCall :=
  [.renderPass, .vertexModule, .fragmentModule, .setLayout, .layout, .pipeline]

private theorem buildPipeline_meets (draw : OwnedForwardedDraw) {rp vs fs : Nat} (hP : AnySetLayouts P)
    (hrp : ∀ c, P c → (rp, .renderPass) ∈ loose ++ objects kindOf reg ++ besides others c)
    (hvs : ∀ c, P c → (vs, .shaderModule) ∈ loose ++ objects kindOf reg ++ besides others c)
    (hfs : ∀ c, P c → (fs, .shaderModule) ∈ loose ++ objects kindOf reg ++ besides others c) :
    Meets (Holds kindOf P (besides others) loose reg) (buildPipeline d draw rp vs fs)
      (fun p => Holds kindOf P (besides others) ((p.2, .pipeline) :: (p.1, .pipelineLayout) :: loose) reg)
      (fun e s => e ∈ pipelineErrors ∧ Holds kindOf P (besides others) loose reg s) := by
  refine Meets.bind (setLayoutsFor_meets draw hP fun s h => ⟨by decide, h⟩) fun sets => ?_
  refine Meets.bind (create_meets (fun c hc u hu => ?_) fun s h => ⟨by decide, h.mono fun _ hc => hc.1⟩)
    fun layout => ?_
  · exact List.mem_append_right _ (setLayouts_subset (hc.2 hu))
  refine Meets.bind (onFailure_meets (F := fun e s => e = .pipeline ∧
    Holds kindOf P (besides others) ((layout, .pipelineLayout) :: loose) reg s) (Meets.pre (create_meets ?_
      fun _ h => ⟨rfl, h⟩) fun s h => h.mono fun _ hc => hc.1) ?_) fun pipeline => .pure fun _ h => h
  · intro c hc u hu
    simp only [List.mem_cons, List.not_mem_nil, or_false] at hu
    rcases hu with rfl | rfl | rfl | rfl
    · exact List.mem_cons_self
    · exact List.mem_cons_of_mem _ (hvs c hc)
    · exact List.mem_cons_of_mem _ (hfs c hc)
    · exact List.mem_cons_of_mem _ (hrp c hc)
  · intro e
    refine Meets.and fun he => ?_
    subst he
    exact destroy_meets.post fun _ _ h => ⟨by decide, h⟩

/-- A module that was made for this call is in no cache yet. -/
def unowned (m : Nat × Bool) : List (Nat × VkObject) := if m.2 then [(m.1, .shaderModule)] else []

/-- The module may be used, and if it is new there is none under its hash. -/
structure ModuleOk (hash : UInt64) (mine : List (Nat × VkObject)) (m : Nat × Bool) (c : Caches) : Prop where
  live : (m.1, .shaderModule) ∈ mine ++ c.built
  absent : m.2 = true → c.objCache.shaderModules.lookup hash = none

private theorem moduleFor_meets (e : VkCall) (hash : UInt64) :
    Meets (Holds kindOf P (besides others) loose reg) (moduleFor d e hash)
      (fun m => Holds kindOf (fun c => P c ∧ ModuleOk hash (unowned m) m c) (besides others) (unowned m ++ loose) reg)
      (fun e' s => e' = e ∧ Holds kindOf P (besides others) loose reg s) := by
  refine Meets.bind inspect_meets fun found => ?_
  cases found with
  | some m => exact .pure fun _ h => h.mono fun c hc => ⟨hc.1, mem_built_of_module hc.2, Bool.noConfusion⟩
  | none =>
    refine Meets.bind (create_meets (usable (List.nil_subset _)) fun s h => ⟨rfl, h.mono fun _ hc => hc.1⟩)
      fun m => ?_
    exact .pure fun _ h => h.mono fun c hc => ⟨hc.1, List.mem_cons_self, fun _ => hc.2⟩

private theorem destroyIf_meets (m : Nat × Bool) :
    Meets (Holds kindOf P (besides others) (unowned m ++ loose) reg) (destroyIf m.2 m.1)
      (fun _ => Holds kindOf P (besides others) loose reg) R := by
  obtain ⟨m, isNew⟩ := m
  cases isNew with
  | false => exact .pure fun _ h => h
  | true => exact destroy_meets

private theorem fragmentModuleFor_meets {key : PipelineKey} {vs : Nat × Bool}
    (hvs : ∀ c, P c → ModuleOk key.vsHash (unowned vs) vs c) :
    Meets (Holds kindOf P (besides others) (unowned vs) reg) (fragmentModuleFor d key vs.1 vs.2)
      (fun fs => Holds kindOf (fun c => P c ∧ ModuleOk key.fsHash (unowned fs ++ unowned vs) fs c ∧
        (fs.2 = true → key.fsHash ≠ key.vsHash)) (besides others) (unowned fs ++ unowned vs) reg)
      (fun e s => e ∈ pipelineErrors ∧ Holds kindOf P (besides others) [] reg s) := by
  unfold fragmentModuleFor
  by_cases hsame : key.fsHash = key.vsHash
  · rw [if_pos hsame]
    exact .pure fun _ h => h.mono fun c hc => ⟨hc, ⟨(hvs c hc).live, Bool.noConfusion⟩, Bool.noConfusion⟩
  · rw [if_neg hsame]
    refine Meets.post (onFailure_meets (moduleFor_meets .fragmentModule key.fsHash) fun e => Meets.and fun he => ?_)
      fun fs _ h => h.mono fun c hc => ⟨hc.1, ⟨?_, hc.2.absent⟩, fun _ => hsame⟩
    · subst he
      refine Meets.post (Meets.pre (destroyIf_meets vs) fun s h => ?_) fun _ _ h => ⟨by decide, h⟩
      rw [List.append_nil]
      exact h
    · rw [List.append_assoc]
      exact List.append_subset.2 ⟨List.subset_append_left _ _, fun _ hu =>
        List.mem_append_right _ (List.mem_append_right _ hu)⟩ hc.2.live

/-- The modules of a draw that are new, on top of those of the cache. -/
private theorem shaderModules_keepPipeline {key : PipelineKey} {vs fs : Nat × Bool}
    {mine mine' : List (Nat × VkObject)} {c : Caches} (cp : CachedPipeline) (hvs : ModuleOk key.vsHash mine vs c)
    (hfs : ModuleOk key.fsHash mine' fs c) (hne : fs.2 = true → key.fsHash ≠ key.vsHash) :
    (keepPipeline key vs fs cp c).shaderModules = unowned fs ++ (unowned vs ++ c.shaderModules) ∧
      (keepPipeline key vs fs cp c).objCache.shaderModules.entries.length ≤
        c.objCache.shaderModules.entries.length + 2 := by
  obtain ⟨vs, vsNew⟩ := vs
  obtain ⟨fs, fsNew⟩ := fs
  unfold keepPipeline Caches.shaderModules
  simp only
  have hvertex : (if vsNew then c.objCache.shaderModules.insert key.vsHash vs
    else c.objCache.shaderModules).entries.map
      (fun e => (e.2, VkObject.shaderModule)) = unowned (vs, vsNew) ++
        c.objCache.shaderModules.entries.map (fun e => (e.2, VkObject.shaderModule)) ∧
      (if vsNew then c.objCache.shaderModules.insert key.vsHash vs else c.objCache.shaderModules).entries.length ≤
        c.objCache.shaderModules.entries.length + 1 := by
    cases vsNew with
    | false => exact ⟨rfl, Nat.le_succ _⟩
    | true =>
      obtain ⟨hlength, hentries⟩ := entries_insert vs (hvs.absent rfl) fun e => (e.2, VkObject.shaderModule)
      exact ⟨hentries, hlength.le⟩
  have hlookup : fsNew = true → (if vsNew then c.objCache.shaderModules.insert key.vsHash vs
      else c.objCache.shaderModules).lookup key.fsHash = none := by
    intro hnew
    cases vsNew with
    | false => exact hfs.absent hnew
    | true => exact (AList.lookup_insert_ne (hne hnew)).trans (hfs.absent hnew)
  generalize
    (if vsNew then c.objCache.shaderModules.insert key.vsHash vs else c.objCache.shaderModules) =
      sm at hvertex hlookup ⊢
  cases fsNew with
  | false => exact ⟨hvertex.1, Nat.le_succ_of_le hvertex.2⟩
  | true =>
    obtain ⟨hlength, hentries⟩ := entries_insert fs (hlookup rfl) fun e => (e.2, VkObject.shaderModule)
    rw [if_pos rfl, hentries, hvertex.1, hlength]
    exact ⟨rfl, Nat.succ_le_succ hvertex.2⟩

/-- Neither cap of the pipeline cache is reached. -/
structure Roomy (T : TexCache → Prop) (c : Caches) : Prop extends Kept T c where
  pipelineRoom : c.objCache.pipelines.entries.length < MAX_CACHED_PIPELINES
  moduleRoom : c.objCache.shaderModules.entries.length < MAX_CACHED_MODULES

private theorem evictAtCap_meets :
    Meets (Holds kindOf (Kept T) (besides others) loose reg) evictAtCap
      (fun _ => Holds kindOf (Roomy T) (besides others) loose reg) R := by
  refine drainWhen_meets _ (fun c hc _ => ⟨?_, ?_⟩) fun c hc hfull => ?_
  · exact { hc with
      pipelines := Nat.zero_le _
      modules := Nat.zero_le _
      pipelineRoom := (by decide : 0 < MAX_CACHED_PIPELINES)
      moduleRoom := (by decide : 0 < MAX_CACHED_MODULES) }
  · show (c.built ++ (others ++ ([] ++ (c.setLayouts ++ (c.scratches ++ (c.imports ++ c.resident)))))).Perm
      (besides others c)
    exact List.perm_append_comm_assoc _ _ _
  · have hroom := of_decide_eq_false hfull
    rw [not_or, Nat.not_le, Nat.not_le] at hroom
    exact { hc with pipelineRoom := hroom.1, moduleRoom := hroom.2 }

private theorem renderPassFor_meets (key : Int32 × Bool) :
    Meets (Holds kindOf (Roomy T) (besides others) loose reg) (renderPassFor d key)
      (fun rp => Holds kindOf (fun c => Roomy T c ∧ (rp, .renderPass) ∈ c.built) (besides others) loose reg)
      (fun e s => e ∈ pipelineErrors ∧ Holds kindOf (Roomy T) (besides others) loose reg s) := by
  refine Meets.bind inspect_meets fun found => ?_
  cases found with
  | some rp => exact .pure fun _ h => h.mono fun c hc => ⟨hc.1, mem_built_of_renderPass hc.2⟩
  | none =>
    refine Meets.bind (create_meets (usable (List.nil_subset _)) fun s h => ⟨by decide, h.mono fun _ hc => hc.1⟩)
      fun rp => ?_
    refine Meets.bind (onRest_gives [(rp, VkObject.renderPass)] fun c hc => ?_) fun _ => .pure fun _ h => h
    obtain ⟨-, hentries⟩ := entries_insert rp hc.2 fun e => (e.2, VkObject.renderPass)
    have hkept : (c.objCache.renderPasses.insert key rp).lookup key = some rp := AList.lookup_insert _
    refine ⟨⟨{ hc.1 with }, mem_built_of_renderPass hkept⟩, ?_⟩
    show ([(rp, VkObject.renderPass)] ++ besides others c).Perm (others ++ ((c.pipelines ++ (c.shaderModules ++
      (c.objCache.renderPasses.insert key rp).entries.map _)) ++
        (c.setLayouts ++ (c.scratches ++ (c.imports ++ c.resident)))))
    rw [hentries, ← Multiset.coe_eq_coe]
    simp only [besides, Caches.built, Caches.renderPasses, List.singleton_append, ← Multiset.coe_add,
      ← Multiset.cons_coe, ← Multiset.singleton_add]
    abel

/-- What was resolved may be used: it is in the slots, or in the cache. -/
structure Ready (T : TexCache → Prop) (made : List (S × Nat)) (kindOf : S → VkObject) (f : Resolved) (c : Caches) :
    Prop extends Kept T c where
  renderPass : (f.renderPass, .renderPass) ∈ objects kindOf made ++ c.built
  pipeline : (f.pipeline, .pipeline) ∈ objects kindOf made ++ c.built
  layout : (f.layout, .pipelineLayout) ∈ objects kindOf made ++ c.built

private theorem buildAndCache_meets (draw : OwnedForwardedDraw) {key : PipelineKey} {rp : Nat}
    (hP : ∀ c, P c → (Roomy T c ∧ (rp, .renderPass) ∈ c.built) ∧ c.objCache.pipelines.lookup key = none)
    (hset : AnySetLayouts P) :
    Meets (Holds kindOf P (besides others) [] reg) (buildAndCache d draw key rp)
      (fun f => Holds kindOf (Ready T [] kindOf f) (besides others) [] reg)
      (fun e s => e ∈ pipelineErrors ∧ Holds kindOf (Kept T) (besides others) [] reg s) := by
  have hK : ∀ c, P c → Kept T c := fun c hc => (hP c hc).1.1.toKept
  refine Meets.bind (Meets.failed (moduleFor_meets .vertexModule key.vsHash) fun e s h =>
    ⟨by rw [h.1]; decide, h.2.mono hK⟩) fun vs => ?_
  rw [List.append_nil]
  refine Meets.bind (Meets.failed (fragmentModuleFor_meets fun c hc => hc.2) fun e s h =>
    ⟨h.1, h.2.mono fun c hc => hK c hc.1⟩) fun fs => ?_
  refine Meets.bind (onFailure_meets (buildPipeline_meets draw ?_ ?_ ?_ ?_) fun e => ?_) fun p => ?_
  · intro c m hm hc
    exact ⟨⟨hset c m hm hc.1.1, hc.1.2.live, hc.1.2.absent⟩, ⟨hc.2.1.live, hc.2.1.absent⟩, hc.2.2⟩
  · intro c hc
    exact List.mem_append_right _ (built_subset (hP c hc.1.1).1.2)
  · intro c hc
    have hvs := hc.1.2.live
    simp only [besides, List.mem_append] at hvs ⊢
    exact hvs.elim (fun h => .inl (.inl (.inr h))) fun h => .inr (.inr (.inl h))
  · intro c hc
    have hfs := hc.2.1.live
    simp only [besides, List.mem_append] at hfs ⊢
    exact hfs.elim (fun h => .inl (.inl h)) fun h => .inr (.inr (.inl h))
  · refine Meets.and fun he => Meets.bind (Q := fun _ => Holds kindOf (Kept T) (besides others) (unowned fs) reg) ?_
      fun _ => ?_
    · refine Meets.pre (destroyIf_meets vs) fun s h => ?_
      exact (h.perm List.perm_append_comm).mono fun c hc => hK c hc.1.1
    · refine Meets.post (Meets.pre (destroyIf_meets fs) fun s h => ?_) fun _ _ h => ⟨he, h⟩
      rw [List.append_nil]
      exact h
  · obtain ⟨layout, pipeline⟩ := p
    show Meets (Holds kindOf _ (besides others) ((pipeline, .pipeline) :: (layout, .pipelineLayout) ::
      (unowned fs ++ unowned vs)) reg) _ _ _
    rw [← List.append_nil ((pipeline, VkObject.pipeline) :: _)]
    refine Meets.bind (onRest_gives _ fun c hc => ?_) fun _ => .pure fun _ h => h
    obtain ⟨⟨hc, hvs⟩, hfs, hne⟩ := hc
    obtain ⟨⟨hroomy, hrp⟩, habsent⟩ := hP c hc
    obtain ⟨hmodules, hcount⟩ := shaderModules_keepPipeline ⟨pipeline, layout⟩ hvs hfs hne
    obtain ⟨hlength, -⟩ := entries_insert (α := Unit) (⟨pipeline, layout⟩ : CachedPipeline) habsent fun _ => ()
    have hpipelines : (keepPipeline key vs fs ⟨pipeline, layout⟩ c).pipelines =
        [(pipeline, .pipeline), (layout, .pipelineLayout)] ++ c.pipelines := entries_insert_flatMap _ habsent _
    have hbuilt : (keepPipeline key vs fs ⟨pipeline, layout⟩ c).built =
        [(pipeline, .pipeline), (layout, .pipelineLayout)] ++ c.pipelines ++
          (unowned fs ++ (unowned vs ++ c.shaderModules) ++ c.renderPasses) := by
      unfold Caches.built
      rw [hpipelines, hmodules]
      rfl
    have hroom := hroomy.moduleRoom
    refine ⟨{ hroomy.toKept with
      pipelines := hlength.trans_le hroomy.pipelineRoom
      modules := by omega
      renderPass := ?_
      pipeline := ?_
      layout := ?_ }, ?_⟩
    · show _ ∈ (keepPipeline key vs fs ⟨pipeline, layout⟩ c).built
      rw [hbuilt]
      simp only [Caches.built, List.mem_append] at hrp ⊢
      exact hrp.elim (fun h => .inl (.inr h)) fun h => .inr (h.elim (fun h => .inl (.inr (.inr h))) .inr)
    · show _ ∈ (keepPipeline key vs fs ⟨pipeline, layout⟩ c).built
      rw [hbuilt]
      exact List.mem_cons_self
    · show _ ∈ (keepPipeline key vs fs ⟨pipeline, layout⟩ c).built
      rw [hbuilt]
      exact List.mem_cons_of_mem _ List.mem_cons_self
    · show List.Perm _ (others ++ ((keepPipeline key vs fs ⟨pipeline, layout⟩ c).built ++
        (c.setLayouts ++ (c.scratches ++ (c.imports ++ c.resident)))))
      rw [hbuilt, ← Multiset.coe_eq_coe]
      simp only [besides, Caches.built, List.cons_append, List.nil_append, ← Multiset.coe_add, ← Multiset.cons_coe,
        ← Multiset.singleton_add]
      abel

/-- Whatever fails, nothing is left that no cache has, and what is returned is in the cache. -/
private theorem pipelineForCached_meets (draw : OwnedForwardedDraw) (format : VkFormat) :
    Meets (Holds kindOf (Kept T) (besides others) [] reg) (pipelineForCached d draw format)
      (fun f => Holds kindOf (Ready T [] kindOf f) (besides others) [] reg)
      (fun e s => e ∈ pipelineErrors ∧ Holds kindOf (Kept T) (besides others) [] reg s) := by
  refine Meets.bind evictAtCap_meets fun _ => ?_
  refine Meets.bind (Meets.failed (renderPassFor_meets _) fun e s h => ⟨h.1, h.2.mono fun c hc => hc.toKept⟩)
    fun rp => ?_
  refine Meets.bind inspect_meets fun found => ?_
  cases found with
  | some cp =>
    refine Meets.bind (onRest_gives [] fun c hc => ⟨?_, List.Perm.refl _⟩) fun _ => .pure fun _ h => h
    have hbuilt := built_of_pipeline hc.2
    exact { hc.1.1.toKept with
      renderPass := hc.1.2
      pipeline := hbuilt List.mem_cons_self
      layout := hbuilt (List.mem_cons_of_mem _ List.mem_cons_self) }
  | none =>
    refine buildAndCache_meets draw (fun c hc => hc) fun c m hm hc => ?_
    exact ⟨⟨{ hc.1.1 with setLayouts := hm }, hc.1.2⟩, hc.2⟩

end

section

variable {I : Caches → Prop} {l : Caches → List (Nat × VkObject)} {d : Driver} {leaks : VkCall → List VkObject → Prop}
  {reg : List (RenderSlot × Nat)} {others : List (Nat × VkObject)} {f : Resolved} {made : List (RenderSlot × Nat)}
  {T : TexCache → Prop}

/-- The slots of a pipeline that is not of the cache. -/
def pipelineSlots : List RenderSlot := [.pipeline, .layout, .fsModule, .vsModule, .renderPass]

theorem pipelineFor_fails (cacheEnabled : Bool) (draw : OwnedForwardedDraw) (format : VkFormat)
    (hreg : ∀ slot ∈ pipelineSlots, slot ∉ reg.map Prod.fst) (hleaks : ∀ e ∈ pipelineErrors, leaks e []) :
    Meets (Holds RenderSlot.kind (Kept T) (besides others) [] reg) (pipelineFor d cacheEnabled draw format)
      (fun f s => ∃ made, made.map Prod.fst ⊆ pipelineSlots ∧
        Holds RenderSlot.kind (Ready T made RenderSlot.kind f) (besides others) [] (made ++ reg) s)
      (Fails RenderSlot.kind (Kept T) (besides others) leaks) := by
  have hI : ∀ c, Kept T c → Kept T c := fun _ h => h
  cases cacheEnabled with
  | true =>
    refine Meets.post (Meets.failed (pipelineForCached_meets draw format) fun e s h =>
      fails_of_holds h.2 hI (hleaks e h.1)) fun f s h => ?_
    exact ⟨[], List.nil_subset _, h⟩
  | false =>
    refine Meets.bind (acquire_fails (usable (List.nil_subset _)) (hreg _ (by decide)) hI (hleaks _ (by decide)))
      fun rp => ?_
    refine Meets.bind (acquire_fails (usable (List.nil_subset _)) ?_ hI (hleaks _ (by decide))) fun vs => ?_
    · simpa using hreg .vsModule (by decide)
    refine Meets.bind (acquire_fails (usable (List.nil_subset _)) ?_ hI (hleaks _ (by decide))) fun fs => ?_
    · simpa using hreg .fsModule (by decide)
    refine Meets.bind (Meets.failed (buildPipeline_meets draw (fun c m hm hc => { hc with setLayouts := hm })
      (by simp [objects, RenderSlot.kind]) (by simp [objects, RenderSlot.kind]) (by simp [objects, RenderSlot.kind]))
      fun e s h => fails_of_holds h.2 hI (hleaks e h.1)) fun ⟨layout, pipeline⟩ => ?_
    refine Meets.bind (Q := fun _ => Holds RenderSlot.kind (Kept T) (besides others) [(pipeline, .pipeline)]
      ((.layout, layout) :: (.fsModule, fs) :: (.vsModule, vs) :: (.renderPass, rp) :: reg)) ?_ fun _ => ?_
    · refine (register_meets RenderSlot.kind .layout ?_).pre fun s h => h.swap
      simpa using hreg .layout (by decide)
    refine Meets.bind (register_meets RenderSlot.kind .pipeline ?_) fun _ => .pure fun s h => ?_
    · simpa using hreg .pipeline (by decide)
    refine ⟨[(.pipeline, pipeline), (.layout, layout), (.fsModule, fs), (.vsModule, vs), (.renderPass, rp)],
      by simp [pipelineSlots], h.mono fun c hc => ?_⟩
    exact { hc with
      renderPass := by simp [objects, RenderSlot.kind]
      pipeline := by simp [objects, RenderSlot.kind]
      layout := by simp [objects, RenderSlot.kind] }

/-- What was resolved is of the body or of the cache. -/
theorem made_or_built {c : Caches} (loose : List (Nat × VkObject)) (hmade : made ⊆ reg) :
    objects RenderSlot.kind made ++ c.built ⊆ loose ++ objects RenderSlot.kind reg ++ besides others c := by
  intro u hu
  simp only [besides, List.mem_append] at hu ⊢
  exact hu.elim (fun h => .inl (.inr (List.map_subset _ hmade h))) fun h => .inr (.inr (.inl h))

theorem Ready.usable {c : Caches} (h : Ready T made RenderSlot.kind f c) (loose : List (Nat × VkObject))
    (hmade : made ⊆ reg) : f.objects ⊆ loose ++ objects RenderSlot.kind reg ++ besides others c :=
  List.cons_subset.2 ⟨made_or_built loose hmade h.renderPass,
    List.cons_subset.2 ⟨made_or_built loose hmade h.pipeline, List.nil_subset _⟩⟩

/-! #### Frames -/

theorem triangleBody_fails (cacheEnabled : Bool) (draw : OwnedForwardedDraw) (exported : Bool) :
    Meets (Holds RenderSlot.kind (Kept T) (besides others) [] []) (triangleBody cacheEnabled d draw exported)
      (fun _ => Ends RenderSlot.kind (Kept T) (besides others) fun loose _ => loose.map Prod.snd = [])
      (Fails RenderSlot.kind (Kept T) (besides others) fun e k => k = exportLeaks e exported) := by
  have hK : ∀ c, Kept T c → Kept T c := fun _ h => h
  refine Meets.bind (backed_fails (by simp) (by simp) nofun hK rfl rfl rfl rfl) fun ⟨image, imgMem⟩ => ?_
  refine Meets.bind (acquire_fails (by simp [objects, RenderSlot.kind]) (by simp) hK rfl) fun view => ?_
  refine Meets.bind (pipelineFor_fails cacheEnabled draw FORMAT (by simp [pipelineSlots])
    (by simp [pipelineErrors, exportLeaks])) fun found => ?_
  refine Meets.exists fun made => Meets.and fun hmade => ?_
  have hI : ∀ c, Ready T made RenderSlot.kind found c → Kept T c := fun _ h => h.toKept
  -- the slots of the pipeline are none of the others
  have hfree : ∀ slot ∉ pipelineSlots, ∀ h, (slot, h) ∉ made :=
    fun slot hslot h hmem => hslot (hmade (List.mem_map_of_mem hmem))
  have huse : ∀ {reg : List (RenderSlot × Nat)} c, Ready T made RenderSlot.kind found c → made ⊆ reg →
      found.objects ⊆ [] ++ objects RenderSlot.kind reg ++ besides others c := fun c hc hreg => hc.usable [] hreg
  refine Meets.bind (acquire_fails (fun c hc => ?_) (by simp [hfree .framebuffer (by decide)]) hI rfl)
    fun framebuffer => ?_
  · refine List.cons_subset.2 ⟨huse c hc (List.subset_append_left _ _) List.mem_cons_self, ?_⟩
    simp [objects, RenderSlot.kind]
  refine Meets.bind (backed_fails (by simp [hfree .readback (by decide)])
    (by simp [hfree .rbMem (by decide)]) nofun hI
    rfl rfl rfl rfl) fun ⟨readback, rbMem⟩ => ?_
  refine Meets.bind (export_fails RenderSlot.exportBuffer RenderSlot.exportMem exported
    (by simp [hfree .exportBuffer (by decide)]) (by simp [hfree .exportMem (by decide)]) (by decide) rfl rfl hI)
    fun e => ?_
  have hpool : ∀ h, (RenderSlot.pool, h) ∉ exportRegs RenderSlot.exportBuffer .exportMem e := by
    cases e <;> simp [exportRegs]
  have hfence : ∀ h, (RenderSlot.fence, h) ∉ exportRegs RenderSlot.exportBuffer .exportMem e := by
    cases e <;> simp [exportRegs]
  refine Meets.bind (acquire_fails (by simp) (by simp [hpool, hfree .pool (by decide)]) hI rfl) fun pool => ?_
  refine Meets.bind (call_fails (by simp [objects, RenderSlot.kind]) hI rfl) fun _ => ?_
  refine Meets.bind (call_fails (by simp [objects, RenderSlot.kind]) hI rfl) fun _ => ?_
  refine Meets.bind (call_fails (fun c hc => List.append_subset.2 ⟨huse c hc ?_, ?_⟩) hI rfl) fun _ => ?_
  · intro r hr
    simp [hr]
  · cases e <;> simp [objects, RenderSlot.kind, exportRegs]
  refine Meets.bind (acquire_fails (by simp) (by simp [hfence, hfree .fence (by decide)]) hI rfl) fun fence => ?_
  refine Meets.bind (submitAndWait_fails (by simp [objects, RenderSlot.kind])
    (by simp [objects, RenderSlot.kind]) hI rfl
    rfl) fun _ => ?_
  refine Meets.bind (call_fails (by simp [objects, RenderSlot.kind]) hI rfl) fun _ => ?_
  refine Meets.bind (callUnless_fails d.coherent (by simp [objects, RenderSlot.kind]) hI rfl) fun _ => ?_
  cases e with
  | none => exact .pure fun s h => ⟨[], _, h.mono hI, rfl⟩
  | some e =>
    refine Meets.post (call_fails (by simp [objects, RenderSlot.kind, exportRegs]) hI rfl) fun _ s h => ?_
    exact ⟨[], _, h.mono hI, rfl⟩

/-! #### Scratches -/

/-- The slots of a depth attachment. -/
def depthRegs : Option (Nat × Nat × Nat) → List (RenderSlot × Nat)
  | some (image, mem, view) => [(.depthView, view), (.depthMem, mem), (.depthImage, image)]
  | none => []

private theorem depth_fails (withDepth : Bool) (himage : RenderSlot.depthImage ∉ reg.map Prod.fst)
    (hmem : RenderSlot.depthMem ∉ reg.map Prod.fst) (hview : RenderSlot.depthView ∉ reg.map Prod.fst) :
    Meets (Holds RenderSlot.kind I l [] reg) (if withDepth then some <$> depthAttachment d else pure none)
      (fun t => Holds RenderSlot.kind I l [] (depthRegs t ++ reg)) (Fails RenderSlot.kind I l Clean) := by
  have hI : ∀ c, I c → I c := fun _ h => h
  cases withDepth with
  | false => exact .pure fun _ h => h
  | true =>
    refine Meets.bind (Q := fun t => Holds RenderSlot.kind I l [] (depthRegs (some t) ++ reg)) ?_ fun t => ?_
    · refine Meets.bind (backed_fails himage hmem nofun hI ⟨rfl, rfl⟩ ⟨rfl, rfl⟩ ⟨rfl, rfl⟩ ⟨rfl, rfl⟩)
        fun ⟨image, mem⟩ => ?_
      refine Meets.bind (acquire_fails (by simp [objects, RenderSlot.kind]) (by simpa using hview) hI ⟨rfl, rfl⟩)
        fun view => ?_
      exact .pure fun _ h => h
    · exact .pure fun _ h => h

/-- What a scratch owns is what the guard held of it. -/
private theorem sizedScratch_objects (image imgMem view framebuffer readback rbMem pool fence : Nat) (coherent : Bool)
    (depth : Option (Nat × Nat × Nat)) :
    (objects RenderSlot.kind ([(.fence, fence), (.pool, pool), (.rbMem, rbMem), (.readback, readback),
      (.framebuffer, framebuffer)] ++ (depthRegs depth ++ [(.view, view), (.imgMem, imgMem), (.image, image)]))).Perm
      (SizedScratch.objects
        { image, imgMem, view, framebuffer, readback, rbMem, rbCoherent := coherent, pool, fence, depth }) := by
  rw [← Multiset.coe_eq_coe]
  cases depth with
  | none =>
    simp only [objects, depthRegs, SizedScratch.objects, RenderSlot.kind, List.cons_append, List.nil_append,
      List.map_cons, List.map_nil, ← Multiset.cons_coe, ← Multiset.singleton_add]
    abel
  | some t =>
    simp only [objects, depthRegs, SizedScratch.objects, RenderSlot.kind, List.cons_append, List.nil_append,
      List.map_cons, List.map_nil, ← Multiset.cons_coe, ← Multiset.singleton_add]
    abel

private theorem buildSizedScratch_builds {renderPass : Nat} (withDepth : Bool)
    (hrp : ∀ c, I c → (renderPass, .renderPass) ∈ l c) :
    Meets (Holds RenderSlot.kind I l [] []) (buildSizedScratch d renderPass withDepth)
      (fun ss => Ends RenderSlot.kind I l fun made _ => made.Perm ss.objects)
      (fun e => Ends RenderSlot.kind I l fun made _ => made = [] ∧ e.late = false) := by
  have hII : ∀ c, I c → I c := fun _ h => h
  refine Meets.failed (R := Fails RenderSlot.kind I l Clean) ?_ fun _ _ h => h.clean
  refine Meets.bind (backed_fails (by simp) (by simp) nofun hII ⟨rfl, rfl⟩ ⟨rfl, rfl⟩ ⟨rfl, rfl⟩ ⟨rfl, rfl⟩)
    fun ⟨image, imgMem⟩ => ?_
  refine Meets.bind (acquire_fails (by simp [objects, RenderSlot.kind]) (by simp) hII ⟨rfl, rfl⟩) fun view => ?_
  refine Meets.bind (depth_fails withDepth (by simp) (by simp) (by simp)) fun depth => ?_
  have hfree : ∀ slot ∉ ([.depthView, .depthMem, .depthImage] : List RenderSlot),
    ∀ h, (slot, h) ∉ depthRegs depth := by
    intro slot hslot h hmem
    cases depth with
    | none => cases hmem
    | some t =>
      simp only [depthRegs, List.mem_cons, Prod.mk.injEq, List.not_mem_nil, or_false] at hmem
      rcases hmem with ⟨rfl, -⟩ | ⟨rfl, -⟩ | ⟨rfl, -⟩ <;> exact hslot (by decide)
  refine Meets.bind (acquire_fails (fun c hc => List.cons_subset.2 ⟨List.mem_append_right _ (hrp c hc), ?_⟩)
    (by simp [hfree .framebuffer (by decide)]) hII ⟨rfl, rfl⟩) fun framebuffer => ?_
  · cases depth <;> simp [objects, RenderSlot.kind, depthRegs]
  refine Meets.bind (backed_fails (by simp [hfree .readback (by decide)])
    (by simp [hfree .rbMem (by decide)]) nofun hII
    ⟨rfl, rfl⟩ ⟨rfl, rfl⟩ ⟨rfl, rfl⟩ ⟨rfl, rfl⟩) fun ⟨readback, rbMem⟩ => ?_
  refine Meets.bind (acquire_fails (by simp) (by simp [hfree .pool (by decide)]) hII ⟨rfl, rfl⟩) fun pool => ?_
  refine Meets.bind (call_fails (by simp [objects, RenderSlot.kind]) hII ⟨rfl, rfl⟩) fun _ => ?_
  refine Meets.bind (acquire_fails (by simp) (by simp [hfree .fence (by decide)]) hII ⟨rfl, rfl⟩) fun fence => ?_
  refine Meets.bind (call_fails (by simp [objects, RenderSlot.kind]) hII ⟨rfl, rfl⟩) fun _ => ?_
  refine Meets.bind disarm_meets fun _ => .pure fun s h => ⟨_, [], h, ?_⟩
  exact sizedScratch_objects image imgMem view framebuffer readback rbMem pool fence d.coherent depth

/-- The scratch that is found, or built and put into the cache. -/
theorem scratchFor_fails (key : ScratchKey) (P : (AList fun _ : ImportKey => ImportedGuest) → Prop)
    (hmade : made ⊆ reg) :
    Meets (Holds RenderSlot.kind (fun c => Ready T made RenderSlot.kind f c ∧ P c.guestImports) (besides others) []
        reg)
      (scratchFor d key f.renderPass)
      (fun ss => Holds RenderSlot.kind (fun c => (Ready T made RenderSlot.kind f c ∧ P c.guestImports) ∧
        ss.objects ⊆ c.scratches) (besides others) [] reg)
      (Fails RenderSlot.kind (Kept T) (besides others) Clean) := by
  refine Meets.bind inspect_meets fun found => ?_
  cases found with
  | some ss => exact .pure fun _ h => h.mono fun c hc => ⟨hc.1, scratches_of_lookup hc.2⟩
  | none =>
    refine Meets.bind (drainWhen_meets (fun c => ((Ready T made RenderSlot.kind f c ∧ P c.guestImports) ∧
      c.scratchCache.lookup key = none) ∧ c.scratchCache.entries.length < MAX_CACHED_SCRATCH) ?_ ?_) fun _ => ?_
    · intro c hc _
      refine ⟨⟨⟨⟨{ hc.1.1 with scratches := Nat.zero_le _ }, hc.1.2⟩, AList.lookup_empty _⟩,
        (by decide : 0 < MAX_CACHED_SCRATCH)⟩, ?_⟩
      show (c.scratches ++ (others ++ (c.built ++ (c.setLayouts ++ ([] ++ (c.imports ++ c.resident)))))).Perm
        (besides others c)
      rw [← Multiset.coe_eq_coe]
      simp only [besides, ← Multiset.coe_add, Multiset.coe_nil]
      abel
    · intro c hc hfull
      exact ⟨hc, Nat.lt_of_not_le (of_decide_eq_false hfull)⟩
    refine Meets.bind (nested_meets RenderSlot.nodup_dropOrder RenderSlot.mem_dropOrder
      (buildSizedScratch_builds key.2.2 fun c hc => ?_)
      fun e s he h => fails_of_holds h (fun c hc => hc.1.1.1.toKept) ⟨rfl, he⟩) fun ss => ?_
    · exact hc.1.1.1.usable [] hmade List.mem_cons_self
    refine Meets.exists fun mine => Meets.and fun hmine => ?_
    refine Meets.bind (onRest_gives _ fun c hc => ?_) fun _ => .pure fun _ h => h
    obtain ⟨⟨⟨hready, himports⟩, habsent⟩, hroom⟩ := hc
    obtain ⟨hlength, -⟩ := entries_insert (α := Unit) ss habsent fun _ => ()
    have hscratches : ({ c with scratchCache := c.scratchCache.insert key ss } : Caches).scratches =
        ss.objects ++ c.scratches := entries_insert_flatMap ss habsent _
    refine ⟨⟨⟨{ hready with scratches := hlength.trans_le hroom }, himports⟩,
      scratches_of_lookup (AList.lookup_insert _)⟩, ?_⟩
    show (mine ++ besides others c).Perm (others ++ (c.built ++ (c.setLayouts ++
      (({ c with scratchCache := c.scratchCache.insert key ss } : Caches).scratches ++ (c.imports ++ c.resident)))))
    refine (hmine.append_right _).trans ?_
    rw [hscratches, ← Multiset.coe_eq_coe]
    simp only [besides, ← Multiset.coe_add]
    abel

/-! #### Guest memory -/

private theorem importGuestBuffer_fails (memHost : Bool) (hostPtrAlign guestPtr : UInt64) (hI : ∀ c, I c → Kept T c) :
    Meets (Holds RenderSlot.kind I l [] reg) (importGuestBuffer d memHost hostPtrAlign guestPtr)
      (fun ig => Holds RenderSlot.kind I l ig.objects reg) (Fails RenderSlot.kind (Kept T) l Clean) := by
  refine Meets.bind (Q := fun _ => Holds RenderSlot.kind I l [] reg) ?_ fun _ => ?_
  · split
    · exact throw_meets fun _ h => fails_of_holds h hI ⟨rfl, rfl⟩
    · exact .pure fun _ h => h
  refine Meets.bind (call_fails (usable (List.nil_subset _)) hI ⟨rfl, rfl⟩) fun _ => ?_
  refine Meets.bind (call_fails (usable (List.nil_subset _)) hI ⟨rfl, rfl⟩) fun _ => ?_
  refine Meets.bind (create_meets (usable (List.nil_subset _)) fun _ h => fails_of_holds h hI ⟨rfl, rfl⟩)
    fun mem => ?_
  refine Meets.bind (onFailure_meets (F := Early RenderSlot.kind I l [(mem, .deviceMemory)] reg)
    (create_meets (usable (List.nil_subset _)) fun _ h => ⟨rfl, h⟩) fun _ => Meets.and fun he => ?_) fun buffer => ?_
  · exact destroy_meets.post fun _ _ h => fails_of_holds h hI ⟨rfl, he⟩
  refine Meets.bind (onFailure_meets (F := Early RenderSlot.kind I l [(buffer, .buffer), (mem, .deviceMemory)] reg)
    (call_meets (usable (List.subset_append_left _ _)) fun _ h => ⟨rfl, h⟩) fun _ => Meets.and fun he => ?_)
    fun _ => .pure fun _ h => h
  exact Meets.bind destroy_meets fun _ => destroy_meets.post fun _ _ h => fails_of_holds h hI ⟨rfl, he⟩

theorem importFor_fails (memHost : Bool) (hostPtrAlign : UInt64) (key : ImportKey) :
    Meets (Holds RenderSlot.kind (Ready T made RenderSlot.kind f) (besides others) [] reg)
      (importFor d memHost hostPtrAlign key)
      (fun ig => Holds RenderSlot.kind
        (fun c => Ready T made RenderSlot.kind f c ∧ c.guestImports.lookup key = some ig) (besides others) [] reg)
      (Fails RenderSlot.kind (Kept T) (besides others) Clean) := by
  refine Meets.bind inspect_meets fun found => ?_
  cases found with
  | some ig => exact .pure fun _ h => h
  | none =>
    refine Meets.bind (drainWhen_meets (fun c => (Ready T made RenderSlot.kind f c ∧
      c.guestImports.lookup key = none) ∧ c.guestImports.entries.length < MAX_CACHED_SCRATCH) ?_ ?_) fun _ => ?_
    · intro c hc _
      refine ⟨⟨⟨{ hc.1 with imports := Nat.zero_le _ }, AList.lookup_empty _⟩, (by decide : 0 < MAX_CACHED_SCRATCH)⟩,
        ?_⟩
      show (c.imports ++ (others ++ (c.built ++ (c.setLayouts ++ (c.scratches ++ ([] ++ c.resident)))))).Perm
        (besides others c)
      rw [← Multiset.coe_eq_coe]
      simp only [besides, ← Multiset.coe_add, Multiset.coe_nil]
      abel
    · intro c hc hfull
      exact ⟨hc, Nat.lt_of_not_le (of_decide_eq_false hfull)⟩
    refine Meets.bind (importGuestBuffer_fails memHost hostPtrAlign key.1 fun c hc => hc.1.1.toKept) fun ig => ?_
    rw [← List.append_nil ig.objects]
    refine Meets.bind (onRest_gives _ fun c hc => ?_) fun _ => .pure fun _ h => h
    obtain ⟨⟨hready, habsent⟩, hroom⟩ := hc
    obtain ⟨hlength, -⟩ := entries_insert (α := Unit) ig habsent fun _ => ()
    have himports : ({ c with guestImports := c.guestImports.insert key ig } : Caches).imports =
        ig.objects ++ c.imports := entries_insert_flatMap ig habsent _
    refine ⟨⟨{ hready with imports := hlength.trans_le hroom }, AList.lookup_insert _⟩, ?_⟩
    show (ig.objects ++ besides others c).Perm (others ++ (c.built ++ (c.setLayouts ++ (c.scratches ++
      (({ c with guestImports := c.guestImports.insert key ig } : Caches).imports ++ c.resident)))))
    rw [himports, ← Multiset.coe_eq_coe]
    simp only [besides, ← Multiset.coe_add]
    abel

end

end Infinigpu.Vulkan
