import Infinigpu.Guest.Registration

/-!
# What the driver believes of the host (`guest/linux`, `igpu_resource_register` and `igpu_flush_resource`)

Runs of flips, of the other users of the ring and of the host, in any order, as long as no payload is written over one
that the host has still to read and the resource ids have not come round (`InBounds`).

* `Ids`: what holds of the ids all along, by one lemma for each way a flip can end (`flip_cached`, `flip_completed`,
  `flip_failed`);
* `agrees_iff`: the scanout head is where the driver believes it to be exactly when every flip is followed
  (`Follows`);
* `noLeak_iff`: the host keeps no resource that the driver does not know of exactly when every registration is clean
  (`Clean`).
-/

namespace Infinigpu.Kmd.IgpuDisplay

open CommandRing

/-! ### Bounds -/

/-- No payload has been written over one that was still to be read, and the ids have not come round. -/
def InBounds (s : IgpuDisplay) : Prop := s.ring.reused = false ∧ s.drawn < 2 ^ 32

instance (s : IgpuDisplay) : Decidable s.InBounds := inferInstanceAs (Decidable (_ ∧ _))

variable {fb : Framebuffer} {pace : FlipPace} {s s' : IgpuDisplay} {resId : UInt32}

private theorem reused_of_lastRing (h : (s.lastRing fb pace).reused = false) : s.ring.reused = false := by
  unfold lastRing at h
  split_ifs at h
  · exact reused_of_push (reused_of_push (reused_of_push h))
  · exact reused_of_push (reused_of_push h)
  · exact reused_of_push h

private theorem reused_of_remember {pace : Pace} (h : (s.remember fb resId pace).ring.reused = false) :
    s.ring.reused = false := by
  unfold remember at h
  cases hentry : s.fbcache s.fbcacheNext with
  | none => simpa only [hentry] using h
  | some old =>
    simp only [hentry, push] at h
    have hpushed := reused_of_push h
    split_ifs at hpushed <;> exact hpushed

private theorem remember_drawn {pace : Pace} : (s.remember fb resId pace).drawn = s.drawn := by
  unfold remember
  cases hentry : s.fbcache s.fbcacheNext with
  | none => simp only [hentry]
  | some old =>
    simp only [hentry, push]
    split_ifs <;> rfl

private theorem flushResource_drawn (h : s.cached fb = none) (rect : Rect) :
    (s.flushResource fb rect pace).2.drawn = s.drawn + 1 := by
  unfold flushResource
  rw [resourceRegister_new h]
  by_cases hc : s.Completes fb pace
  · simp only [if_pos hc, push]
    split_ifs <;> rw [remember_drawn]
  · simp only [if_neg hc, if_true]

private theorem inBounds_of_register (fb : Framebuffer) (pace : FlipPace)
    (h : (s.resourceRegister fb pace).2.InBounds) : s.InBounds := by
  cases hcached : s.cached fb with
  | some resId => simpa only [resourceRegister, hcached] using h
  | none =>
    rw [resourceRegister_new hcached] at h
    obtain ⟨hreused, hdrawn⟩ := h
    split_ifs at hreused hdrawn
    · rw [remember_drawn] at hdrawn
      exact ⟨reused_of_lastRing (reused_of_remember hreused), Nat.lt_of_succ_lt hdrawn⟩
    · exact ⟨reused_of_lastRing hreused, Nat.lt_of_succ_lt hdrawn⟩

/-- A run that ends in bounds has been in bounds all along. -/
private theorem inBounds_of_step {a : Action} (h : s.step a = some s') (hb : s'.InBounds) : s.InBounds := by
  cases a with
  | flip fb rect pace =>
    cases h
    refine inBounds_of_register fb pace ?_
    unfold flushResource at hb
    generalize s.resourceRegister fb pace = r at hb ⊢
    simp only [push] at hb
    split_ifs at hb
    · exact hb
    · exact ⟨reused_of_push hb.1, hb.2⟩
    · exact ⟨reused_of_push (reused_of_push hb.1), hb.2⟩
  | submit pace body =>
    cases h
    exact ⟨reused_of_push hb.1, hb.2⟩
  | cursor pace body =>
    cases h
    exact ⟨reused_of_push hb.1, hb.2⟩
  | submitAbs pace payloadDma payloadLen =>
    cases h
    exact ⟨(pushAbs_reused pace payloadDma payloadLen s.ring).symm.trans hb.1, hb.2⟩
  | host h' =>
    cases h
    exact ⟨(hostStep_works s.ring h').reused ▸ hb.1, hb.2⟩

/-! ### What a flip does -/

/-- What holds of the ids all along. -/
structure Ids (s : IgpuDisplay) : Prop where
  laid : s.ring.Laid
  next : s.nextResId.toNat = s.drawn
  alive : ∀ id, s.ring.settled.Alive id → id.toNat ≤ s.drawn
  head : ∀ id, s.ring.settled.head = some id → id.toNat ≤ s.drawn
  cached : ∀ i e, s.fbcache i = some e → 0 < e.resId.toNat ∧ e.resId.toNat ≤ s.drawn
  distinct : ∀ i j e e', s.fbcache i = some e → s.fbcache j = some e' → e.resId = e'.resId → i = j
  scanout : s.scanoutResId.toNat ≤ s.drawn
  started : ∀ i e, s.fbcache i = some e → s.scanoutResId ≠ 0
  failed : ∀ id ∈ s.failed, id.toNat ≤ s.drawn ∧ ∀ i e, s.fbcache i = some e → e.resId ≠ id

private theorem ids_start : Ids start where
  laid := laid_start
  next := rfl
  alive _ h := absurd h Bool.false_ne_true
  head _ h := absurd h.symm (Option.some_ne_none _)
  cached _ _ h := absurd h.symm (Option.some_ne_none _)
  distinct _ _ _ _ h := absurd h.symm (Option.some_ne_none _)
  scanout := Nat.le_refl 0
  started _ _ h := absurd h.symm (Option.some_ne_none _)
  failed _ h := absurd h List.not_mem_nil

/-- The next id is a new one. -/
private theorem Ids.next_toNat (h : Ids s) (hb : s.drawn + 1 < 2 ^ 32) : (s.nextResId + 1).toNat = s.drawn + 1 := by
  have hnext := h.next
  rw [UInt32.toNat_add, UInt32.toNat_one]
  omega

private theorem Ids.ne_next (h : Ids s) (hb : s.drawn + 1 < 2 ^ 32) {id : UInt32} (hid : id.toNat ≤ s.drawn) :
    id ≠ s.nextResId + 1 := by
  rintro rfl
  rw [h.next_toNat hb] at hid
  omega

theorem Ids.fresh (h : Ids s) (hb : s.drawn + 1 < 2 ^ 32) :
    s.ring.settled.resources.lookup (s.nextResId + 1) = none := by
  by_contra hne
  exact h.ne_next hb (h.alive _ (Option.isSome_iff_ne_none.2 hne)) rfl

/-- A message that the table ignores. -/
private theorem settled_of_ignored {r : CommandRing} {pace : Pace} {m : Message} (hl : r.Laid)
    (hb : (r.push pace m).2.reused = false) (hm : ∀ t, m.apply t = t) :
    (r.push pace m).2.Laid ∧ (r.push pace m).2.settled = r.settled := by
  have hpushed := push_pushed hl hb
  refine ⟨hpushed.laid, ?_⟩
  rw [hpushed.settled, hm, ite_self]

/-- The settled table when a cached framebuffer has been flipped. -/
def rebound (fb : Framebuffer) (pace : FlipPace) (resId : UInt32) (s : IgpuDisplay) : ResourceTable :=
  if resId ≠ s.scanoutResId ∧ s.ring.HasRoom pace.rebind then (fb.bind resId).apply s.ring.settled else s.ring.settled

/-- A flip of a cached framebuffer moves the head, if the ring has room for that. -/
theorem flip_cached (hids : Ids s) (h : s.cached fb = some resId) {rect : Rect}
    (hb : (s.flushResource fb rect pace).2.ring.reused = false) :
    ∃ r, (s.flushResource fb rect pace).2 = { s with scanoutResId := resId, ring := r } ∧ r.Laid ∧
      r.settled = s.rebound fb pace resId := by
  obtain ⟨i, e, he, rfl, -⟩ := of_cached h
  have hid : e.resId ≠ 0 := by
    intro hzero
    have hpos := (hids.cached i e he).1
    rw [hzero] at hpos
    exact absurd hpos (by decide)
  rw [flushResource_cached h hid] at hb ⊢
  refine ⟨_, rfl, ?_⟩
  have hrebind : (s.rebindRing fb pace e.resId).Laid ∧
      (s.rebindRing fb pace e.resId).settled = s.rebound fb pace e.resId := by
    have hreused : (s.rebindRing fb pace e.resId).reused = false := reused_of_push hb
    unfold rebindRing rebound at *
    by_cases hbound : e.resId = s.scanoutResId
    · rw [if_pos hbound, if_neg fun h => h.1 hbound]
      exact ⟨hids.laid, rfl⟩
    · rw [if_neg hbound] at hreused ⊢
      have hpushed := push_pushed hids.laid hreused
      refine ⟨hpushed.laid, ?_⟩
      simp only [hpushed.settled, ne_eq, hbound, not_false_eq_true, true_and]
  obtain ⟨hl, hsettled⟩ := settled_of_ignored hrebind.1 hb fun _ => rfl
  exact ⟨hl, hsettled.trans hrebind.2⟩

/-- A registration that is given up leaves an id behind that nobody uses. -/
theorem flip_failed (hids : Ids s) (h : s.cached fb = none) (hc : ¬ s.Completes fb pace) {rect : Rect}
    (hb : (s.flushResource fb rect pace).2.InBounds) :
    s.drawn + 1 < 2 ^ 32 ∧ (s.lastRing fb pace).Laid ∧ Registers fb pace s (s.lastRing fb pace).settled := by
  rw [flushResource_failed h hc] at hb
  obtain ⟨hreused, hdrawn⟩ := hb
  exact ⟨hdrawn, lastRing_registers hids.laid (hids.fresh hdrawn) hreused⟩

/-- What the host's table will be when a registration is completed and what was in its slot evicted. -/
structure Evicts (fb : Framebuffer) (pace : FlipPace) (s : IgpuDisplay) (t : ResourceTable) : Prop where
  others : ∀ id, (∀ e, s.fbcache s.fbcacheNext = some e → e.resId ≠ id) →
    t.resources.lookup id = (s.lastRing fb pace).settled.resources.lookup id
  evicted : ∀ e, s.fbcache s.fbcacheNext = some e →
    (t.Alive e.resId ↔ (s.lastRing fb pace).settled.Alive e.resId ∧ ¬ (s.lastRing fb pace).HasRoom pace.evict)
  head_of : ∀ id, t.head = some id → (s.lastRing fb pace).settled.head = some id
  head : ∀ id, (∀ e, s.fbcache s.fbcacheNext = some e → e.resId ≠ id) →
    (s.lastRing fb pace).settled.head = some id → t.head = some id

private theorem evictRing_evicts (hl : (s.lastRing fb pace).Laid) (hb : (s.evictRing fb pace).reused = false) :
    (s.evictRing fb pace).Laid ∧ Evicts fb pace s (s.evictRing fb pace).settled := by
  unfold evictRing evictFrom at hb ⊢
  cases hentry : s.fbcache s.fbcacheNext with
  | none =>
    refine ⟨hl, fun _ _ => rfl, fun e he => ?_, fun _ h => h, fun _ _ h => h⟩
    rw [hentry] at he
    cases he
  | some old =>
    simp only [hentry] at hb ⊢
    have hpushed := push_pushed hl hb
    have hother : ∀ {id}, (∀ e, s.fbcache s.fbcacheNext = some e → e.resId ≠ id) → id ≠ old.resId :=
      fun hid heq => hid old hentry heq.symm
    obtain ⟨hlookup, hgone, hheadOf, hhead⟩ := ResourceTable.destroy_spec
      (t := (s.lastRing fb pace).settled) old.resId
    refine ⟨hpushed.laid, ?_⟩
    rw [hpushed.settled]
    by_cases hroom : (s.lastRing fb pace).HasRoom pace.evict
    · rw [if_pos hroom]
      refine ⟨fun id hid => hlookup id (hother hid), fun e he => ?_, hheadOf, fun id hid => hhead id (hother hid)⟩
      rw [hentry, Option.some_inj] at he
      subst he
      refine iff_of_false (fun halive => ?_) fun h => h.2 hroom
      rw [ResourceTable.Alive, Message.apply, hgone] at halive
      cases halive
    · rw [if_neg hroom]
      exact ⟨fun _ _ => rfl, fun e _ => (and_iff_left hroom).symm, fun _ h => h, fun _ _ h => h⟩

/-- A registration that is completed takes the place of the evicted one. -/
theorem flip_completed (hids : Ids s) (h : s.cached fb = none) (hc : s.Completes fb pace) {rect : Rect}
    (hb : (s.flushResource fb rect pace).2.InBounds) :
    s.drawn + 1 < 2 ^ 32 ∧ ∃ r,
      (s.flushResource fb rect pace).2 =
        { s with
          nextResId := s.nextResId + 1
          drawn := s.drawn + 1
          scanoutResId := s.nextResId + 1
          fbcache := Function.update s.fbcache s.fbcacheNext (some
            { addr := fb.addr, resId := s.nextResId + 1, w := fb.width, h := fb.height, pitch := fb.pitch })
          fbcacheNext := s.fbcacheNext + 1
          ring := r } ∧ r.Laid ∧
      Registers fb pace s (s.lastRing fb pace).settled ∧ Evicts fb pace s r.settled := by
  have hdrawn : s.drawn + 1 < 2 ^ 32 := flushResource_drawn h rect ▸ hb.2
  have hold : ∀ e, s.fbcache s.fbcacheNext = some e → e.resId ≠ s.nextResId + 1 :=
    fun e he => hids.ne_next hdrawn (hids.cached _ e he).2
  have hnew : s.nextResId + 1 ≠ 0 := by
    intro hzero
    have hnext := hids.next_toNat hdrawn
    rw [hzero] at hnext
    exact absurd hnext.symm (Nat.succ_ne_zero _)
  rw [flushResource_completed h hc hnew hold] at hb ⊢
  have hevictOk : (s.evictRing fb pace).reused = false := reused_of_push hb.1
  have hlastOk : (s.lastRing fb pace).reused = false := by
    unfold evictRing evictFrom at hevictOk
    cases hentry : s.fbcache s.fbcacheNext with
    | none => simpa only [hentry] using hevictOk
    | some old =>
      simp only [hentry] at hevictOk
      exact reused_of_push hevictOk
  obtain ⟨hl, hregisters⟩ := lastRing_registers hids.laid (hids.fresh hdrawn) hlastOk
  obtain ⟨hl', hevicts⟩ := evictRing_evicts hl hevictOk
  obtain ⟨hl'', hsettled⟩ := settled_of_ignored hl' hb.1 fun _ => rfl
  exact ⟨hdrawn, _, rfl, hl'', hregisters, hsettled ▸ hevicts⟩

/-! ### The ids, all along -/

/-- The table and the head of a flip of a cached framebuffer. -/
private theorem rebound_spec (fb : Framebuffer) (pace : FlipPace) (resId : UInt32) (s : IgpuDisplay) :
    (s.rebound fb pace resId).resources = s.ring.settled.resources ∧
      (s.rebound fb pace resId).head =
        if (resId ≠ s.scanoutResId ∧ s.ring.HasRoom pace.rebind) ∧ s.ring.settled.Alive resId ∧
            ResourceTable.Bindable fb.width fb.height fb.pitch then
          some resId
        else
          s.ring.settled.head := by
  obtain ⟨hresources, hhead⟩ := ResourceTable.setScanout_spec (t := s.ring.settled) resId fb.width fb.height
    WIRE_FMT_XRGB8888 fb.pitch
  unfold rebound
  by_cases hsent : resId ≠ s.scanoutResId ∧ s.ring.HasRoom pace.rebind
  · rw [if_pos hsent]
    exact ⟨hresources, hhead.trans (if_congr (and_iff_right hsent).symm rfl rfl)⟩
  · rw [if_neg hsent, if_neg fun h => hsent h.1]
    exact ⟨rfl, rfl⟩

/-- Nothing of a registration concerns an id that is neither new nor that of the evicted entry. -/
private theorem Evicts.lookup {t : ResourceTable} (h : Evicts fb pace s t)
    (hr : Registers fb pace s (s.lastRing fb pace).settled) {id : UInt32} (hnew : id ≠ s.nextResId + 1)
    (hold : ∀ e, s.fbcache s.fbcacheNext = some e → e.resId ≠ id) :
    t.resources.lookup id = s.ring.settled.resources.lookup id :=
  (h.others id hold).trans (hr.others id hnew)

/-- Evicting brings nothing back. -/
private theorem Evicts.alive_of {t : ResourceTable} (h : Evicts fb pace s t) {id : UInt32} (hid : t.Alive id) :
    (s.lastRing fb pace).settled.Alive id := by
  by_cases hold : ∃ e, s.fbcache s.fbcacheNext = some e ∧ e.resId = id
  · obtain ⟨e, he, rfl⟩ := hold
    exact ((h.evicted e he).1 hid).1
  · rw [ResourceTable.Alive, h.others id fun e he heq => hold ⟨e, he, heq⟩] at hid
    exact hid

/-- The entries of the cache after an eviction. -/
private theorem of_update {i next : Fin FBCACHE} {e new : FbEntry} {cache : Fin FBCACHE → Option FbEntry}
    (h : Function.update cache next (some new) i = some e) : i = next ∧ e = new ∨ i ≠ next ∧ cache i = some e := by
  by_cases hi : i = next
  · subst hi
    rw [Function.update_self, Option.some_inj] at h
    exact .inl ⟨rfl, h.symm⟩
  · rw [Function.update_of_ne hi] at h
    exact .inr ⟨hi, h⟩

/-- A registration gives the new id out, and none above it. -/
private theorem Registers.alive_le {t : ResourceTable} (hregisters : Registers fb pace s t) (hids : Ids s)
    (hdrawn : s.drawn + 1 < 2 ^ 32) {id : UInt32} (h : t.Alive id) : id.toNat ≤ s.drawn + 1 := by
  by_cases hid : id = s.nextResId + 1
  · rw [hid, hids.next_toNat hdrawn]
  · rw [ResourceTable.Alive, hregisters.others id hid] at h
    exact Nat.le_succ_of_le (hids.alive id h)

private theorem Registers.head_le {t : ResourceTable} (hregisters : Registers fb pace s t) (hids : Ids s)
    (hdrawn : s.drawn + 1 < 2 ^ 32) {id : UInt32} (h : t.head = some id) : id.toNat ≤ s.drawn + 1 := by
  rw [hregisters.head] at h
  split_ifs at h
  · cases h
    exact (hids.next_toNat hdrawn).le
  · exact Nat.le_succ_of_le (hids.head id h)

private theorem Ids.of_cached (hids : Ids s) {rect : Rect} (hb : (s.flushResource fb rect pace).2.InBounds)
    {resId : UInt32} (hcached : s.cached fb = some resId) : Ids (s.flushResource fb rect pace).2 := by
  obtain ⟨r, hs', hl, hsettled⟩ := flip_cached hids hcached hb.1
  obtain ⟨i, e, he, rfl, -⟩ := IgpuDisplay.of_cached hcached
  obtain ⟨hpos, hle⟩ := hids.cached i e he
  obtain ⟨hresources, hhead⟩ := rebound_spec fb pace e.resId s
  rw [hs']
  refine ⟨hl, hids.next, fun id h => ?_, fun id h => ?_, hids.cached, hids.distinct, hle, fun j e' _ hzero => ?_,
    hids.failed⟩
  · refine hids.alive id ?_
    rw [ResourceTable.Alive, hsettled, hresources] at h
    exact h
  · rw [hsettled, hhead] at h
    split_ifs at h
    · cases h
      exact hle
    · exact hids.head id h
  · have hzero : e.resId = 0 := hzero
    rw [hzero] at hpos
    exact absurd hpos (Nat.lt_irrefl 0)

private theorem Ids.of_completed (hids : Ids s) {rect : Rect} (hb : (s.flushResource fb rect pace).2.InBounds)
    (hcached : s.cached fb = none) (hc : s.Completes fb pace) : Ids (s.flushResource fb rect pace).2 := by
  obtain ⟨hdrawn, r, hs', hl, hregisters, hevicts⟩ := flip_completed hids hcached hc hb
  have hnext := hids.next_toNat hdrawn
  rw [hs']
  refine ⟨hl, hnext, fun id h => hregisters.alive_le hids hdrawn (hevicts.alive_of h),
    fun id h => hregisters.head_le hids hdrawn (hevicts.head_of id h), fun i e he => ?_,
    fun i j e e' he he' heq => ?_, hnext.le, fun _ _ _ hzero => ?_, fun id h => ?_⟩
  · rcases of_update he with ⟨-, rfl⟩ | ⟨-, he⟩
    · refine ⟨?_, hnext.le⟩
      show 0 < (s.nextResId + 1).toNat
      omega
    · obtain ⟨hpos, hle⟩ := hids.cached i e he
      exact ⟨hpos, Nat.le_succ_of_le hle⟩
  · -- the new entry shares its id with none of the others
    rcases of_update he with ⟨rfl, rfl⟩ | ⟨-, he⟩ <;> rcases of_update he' with ⟨rfl, rfl⟩ | ⟨-, he'⟩
    · rfl
    · exact absurd heq.symm (hids.ne_next hdrawn (hids.cached j e' he').2)
    · exact absurd heq (hids.ne_next hdrawn (hids.cached i e he).2)
    · exact hids.distinct i j e e' he he' heq
  · have hzero : s.nextResId + 1 = 0 := hzero
    rw [hzero] at hnext
    exact absurd hnext.symm (Nat.succ_ne_zero _)
  · obtain ⟨hle, hne⟩ := hids.failed id h
    refine ⟨Nat.le_succ_of_le hle, fun i e he => ?_⟩
    rcases of_update he with ⟨-, rfl⟩ | ⟨-, he⟩
    · exact (hids.ne_next hdrawn hle).symm
    · exact hne i e he

private theorem Ids.of_failed (hids : Ids s) {rect : Rect} (hb : (s.flushResource fb rect pace).2.InBounds)
    (hcached : s.cached fb = none) (hc : ¬ s.Completes fb pace) : Ids (s.flushResource fb rect pace).2 := by
  obtain ⟨hdrawn, hl, hregisters⟩ := flip_failed hids hcached hc hb
  have hnext := hids.next_toNat hdrawn
  rw [flushResource_failed hcached hc]
  refine ⟨hl, hnext, fun id h => hregisters.alive_le hids hdrawn h, fun id h => hregisters.head_le hids hdrawn h,
    fun i e he => ?_, hids.distinct, Nat.le_succ_of_le hids.scanout, hids.started, fun id h => ?_⟩
  · obtain ⟨hpos, hle⟩ := hids.cached i e he
    exact ⟨hpos, Nat.le_succ_of_le hle⟩
  · rcases List.mem_cons.1 h with rfl | h
    · exact ⟨hnext.le, fun i e he => hids.ne_next hdrawn (hids.cached i e he).2⟩
    · obtain ⟨hle, hne⟩ := hids.failed id h
      exact ⟨Nat.le_succ_of_le hle, hne⟩

private theorem Ids.flip (hids : Ids s) {rect : Rect} (hb : (s.flushResource fb rect pace).2.InBounds) :
    Ids (s.flushResource fb rect pace).2 := by
  cases hcached : s.cached fb with
  | some resId => exact hids.of_cached hb hcached
  | none =>
    by_cases hc : s.Completes fb pace
    · exact hids.of_completed hb hcached hc
    · exact hids.of_failed hb hcached hc

/-- The other steps leave the settled table and all that the driver knows alone. -/
private theorem step_other {a : Action} (hids : Ids s) (h : s.step a = some s')
    (ha : ∀ fb rect pace, a ≠ .flip fb rect pace) (hb : s'.InBounds) :
    ∃ r, s' = { s with ring := r } ∧ r.Laid ∧ r.settled = s.ring.settled := by
  cases a with
  | flip fb rect pace => exact absurd rfl (ha fb rect pace)
  | submit pace body =>
    cases h
    exact ⟨_, rfl, settled_of_ignored hids.laid hb.1 fun _ => rfl⟩
  | cursor pace body =>
    cases h
    exact ⟨_, rfl, settled_of_ignored hids.laid hb.1 fun _ => rfl⟩
  | submitAbs pace payloadDma payloadLen =>
    cases h
    exact ⟨_, rfl, pushAbs_settled hids.laid⟩
  | host h' =>
    cases h
    have hrests := hostSteps_rests [h'] s.ring
    exact ⟨_, rfl, hrests.laid hids.laid, hrests.settled⟩

private theorem Ids.step {a : Action} (hids : Ids s) (h : s.step a = some s') (hb : s'.InBounds) : Ids s' := by
  by_cases ha : ∃ fb rect pace, a = .flip fb rect pace
  · obtain ⟨fb, rect, pace, rfl⟩ := ha
    cases h
    exact hids.flip hb
  · obtain ⟨r, rfl, hl, hsettled⟩ := step_other hids h (fun fb rect pace heq => ha ⟨fb, rect, pace, heq⟩) hb
    refine ⟨hl, hids.next, fun id h => ?_, fun id h => ?_, hids.cached, hids.distinct, hids.scanout, hids.started,
      hids.failed⟩
    · exact hids.alive id (hsettled ▸ h)
    · exact hids.head id (hsettled ▸ h)

/-! ### The scanout head -/

/-- A flush of the resource is presented: head 0 is bound to it, and its backing is one segment. -/
def Shown (resId : UInt32) (t : ResourceTable) : Prop :=
  t.head = some resId ∧ ∃ r ∈ t.resources.lookup resId, r.backing.length = 1

instance (resId : UInt32) (t : ResourceTable) : Decidable (Shown resId t) := inferInstanceAs (Decidable (_ ∧ _))

/-- The flush is not skipped. -/
theorem Shown.presented {d : Backend} (h : Shown resId d.resources) (rect : Rect) :
    (d.flushPresent resId rect).isSome := by
  obtain ⟨hhead, res, hres, hbacking⟩ := h
  obtain ⟨b, hb, hbound⟩ := Option.map_eq_some_iff.1 hhead
  obtain ⟨seg, hseg⟩ := List.length_eq_one_iff.1 hbacking
  -- head 0 is among the heads that are bound to the resource
  have hzero : (0 : UInt32) ∈ (d.resources.scanouts.entries.filter fun e => e.2.resId == resId).map Sigma.fst :=
    List.mem_map.2 ⟨⟨0, b⟩, List.mem_filter.2 ⟨AList.mem_lookup_iff.1 hb, beq_iff_eq.2 hbound⟩, rfl⟩
  have hfor : (d.resources.scanoutBindingFor resId).isSome := by
    obtain ⟨sid, hsid⟩ := Option.isSome_iff_exists.1 (List.isSome_min?_of_mem hzero)
    obtain ⟨⟨sid', b'⟩, hentry, rfl⟩ := List.mem_map.1 (List.min?_mem hsid)
    have hlookup : d.resources.scanouts.lookup sid' = some b' :=
      AList.mem_lookup_iff.2 (List.mem_filter.1 hentry).1
    simp only [ResourceTable.scanoutBindingFor, hsid, Option.bind_some, hlookup, Option.map_some, Option.isSome_some]
  obtain ⟨⟨sid, b'⟩, hfor⟩ := Option.isSome_iff_exists.1 hfor
  have hget : d.resources.get resId = some res := hres
  simp only [Backend.flushPresent, hfor, hget, hseg, Option.isSome_some]

/-- Once the host has executed everything, the head is bound to the resource that the driver believes it bound to. -/
def Agrees (s : IgpuDisplay) : Prop := s.scanoutResId ≠ 0 → Shown s.scanoutResId s.ring.settled

instance (s : IgpuDisplay) : Decidable s.Agrees := inferInstanceAs (Decidable (_ → _))

/-- The ring has room when the head has to move to a cached framebuffer; a registration that is completed is accepted
by the host, and one that is given up does not move a head that the driver has bound. -/
def Follows (s : IgpuDisplay) : Action → Prop
  | .flip fb _ pace =>
    (∀ resId ∈ s.cached fb, resId ≠ s.scanoutResId → s.ring.HasRoom pace.rebind) ∧
      (s.cached fb = none →
        (s.Completes fb pace → Accepts fb s.ring.settled) ∧
          (¬ s.Completes fb pace → s.Attaches fb pace → (s.afterAttach fb pace).HasRoom pace.bind →
            Accepts fb s.ring.settled → s.scanoutResId = 0))
  | _ => True

instance (s : IgpuDisplay) : (a : Action) → Decidable (s.Follows a)
  | .flip fb _ pace =>
    have : Decidable (∀ resId ∈ s.cached fb, resId ≠ s.scanoutResId → s.ring.HasRoom pace.rebind) :=
      Option.decidableForallMem _
    inferInstanceAs (Decidable (_ ∧ _))
  | .submit .. => .isTrue trivial
  | .submitAbs .. => .isTrue trivial
  | .cursor .. => .isTrue trivial
  | .host _ => .isTrue trivial

/-- What is cached can be bound and shown again. -/
def Known (s : IgpuDisplay) : Prop :=
  ∀ i e, s.fbcache i = some e → ResourceTable.Bindable e.w e.h e.pitch ∧
    ∃ r ∈ s.ring.settled.resources.lookup e.resId, r.backing.length = 1

private theorem agrees_cached (hids : Ids s) (hknown : s.Known) (hQ : s.Agrees) (h : s.cached fb = some resId)
    {rect : Rect} (hb : (s.flushResource fb rect pace).2.InBounds) :
    (s.flushResource fb rect pace).2.Known ∧
      ((s.flushResource fb rect pace).2.Agrees ↔ (resId ≠ s.scanoutResId → s.ring.HasRoom pace.rebind)) := by
  obtain ⟨r, hs', -, hsettled⟩ := flip_cached hids h hb.1
  obtain ⟨i, e, he, rfl, hw, hh, hpitch⟩ := of_cached h
  obtain ⟨hresources, hhead⟩ := rebound_spec fb pace e.resId s
  obtain ⟨hbindable, res, hres, hbacking⟩ := hknown i e he
  rw [hw, hh, hpitch] at hbindable
  have halive : s.ring.settled.Alive e.resId := Option.isSome_of_mem hres
  rw [hs', Known, Agrees, hsettled, Shown, hresources]
  refine ⟨hknown, ?_⟩
  have hpos := (hids.cached i e he).1
  have hid : e.resId ≠ 0 := by
    intro hzero
    rw [hzero] at hpos
    exact absurd hpos (Nat.lt_irrefl 0)
  rw [hhead]
  by_cases hbound : e.resId = s.scanoutResId
  · -- the driver believes it bound, and it is
    have hshown := hQ (hbound ▸ hid)
    rw [← hbound] at hshown
    rw [if_neg fun h => h.1.1 hbound]
    exact iff_of_true (fun _ => hshown) fun hne => absurd hbound hne
  · by_cases hroom : s.ring.HasRoom pace.rebind
    · rw [if_pos ⟨⟨hbound, hroom⟩, halive, hbindable⟩]
      exact iff_of_true (fun _ => ⟨rfl, res, hres, hbacking⟩) fun _ => hroom
    · rw [if_neg fun h => hroom h.1.2]
      refine iff_of_false (fun hagrees => ?_) fun h => hroom (h hbound)
      -- the head is still where the last flip has left it
      have hhead' := (hQ (hids.started i e he)).1
      rw [(hagrees hid).1, Option.some_inj] at hhead'
      exact hbound hhead'

private theorem agrees_completed (hids : Ids s) (hknown : s.Known) (h : s.cached fb = none) (hc : s.Completes fb pace)
    {rect : Rect} (hb : (s.flushResource fb rect pace).2.InBounds) :
    ((s.flushResource fb rect pace).2.Agrees → (s.flushResource fb rect pace).2.Known) ∧
      ((s.flushResource fb rect pace).2.Agrees ↔ Accepts fb s.ring.settled) := by
  obtain ⟨hdrawn, r, hs', -, hregisters, hevicts⟩ := flip_completed hids h hc hb
  have hnew : s.nextResId + 1 ≠ 0 := by
    intro hzero
    have hnext := hids.next_toNat hdrawn
    rw [hzero] at hnext
    exact absurd hnext.symm (Nat.succ_ne_zero _)
  have hold : ∀ e, s.fbcache s.fbcacheNext = some e → e.resId ≠ s.nextResId + 1 :=
    fun e he => hids.ne_next hdrawn (hids.cached _ e he).2
  have hhead := hregisters.head
  have hagrees : (s.flushResource fb rect pace).2.Agrees ↔ Accepts fb s.ring.settled := by
    rw [hs', Agrees]
    constructor
    · intro hshown
      by_contra hrefused
      rw [if_neg fun hbound => hrefused hbound.2.2] at hhead
      have hnext := hevicts.head_of _ (hshown hnew).1
      rw [hhead] at hnext
      exact hids.ne_next hdrawn (hids.head _ hnext) rfl
    · intro haccepts _
      rw [if_pos ⟨hc.1, hc.2.1, haccepts⟩] at hhead
      refine ⟨hevicts.head _ hold hhead, ?_⟩
      show ∃ x ∈ r.settled.resources.lookup (s.nextResId + 1), _
      rw [hevicts.others _ hold]
      exact hregisters.backed hc.1 haccepts.1
  refine ⟨fun hQ' i e he => ?_, hagrees⟩
  obtain ⟨-, hbindable⟩ := hagrees.1 hQ'
  rw [hs'] at hQ' he ⊢
  rcases of_update he with ⟨-, rfl⟩ | ⟨hi, he⟩
  · exact ⟨hbindable, (hQ' hnew).2⟩
  · show _ ∧ ∃ x ∈ r.settled.resources.lookup e.resId, _
    rw [hevicts.lookup hregisters (hids.ne_next hdrawn (hids.cached i e he).2) fun e' he' heq =>
      hi (hids.distinct _ _ e e' he he' heq.symm)]
    exact hknown i e he

private theorem agrees_failed (hids : Ids s) (hknown : s.Known) (hQ : s.Agrees) (h : s.cached fb = none)
    (hc : ¬ s.Completes fb pace) {rect : Rect} (hb : (s.flushResource fb rect pace).2.InBounds) :
    (s.flushResource fb rect pace).2.Known ∧
      ((s.flushResource fb rect pace).2.Agrees ↔
        (s.Attaches fb pace → (s.afterAttach fb pace).HasRoom pace.bind → Accepts fb s.ring.settled →
          s.scanoutResId = 0)) := by
  obtain ⟨hdrawn, -, hregisters⟩ := flip_failed hids h hc hb
  rw [flushResource_failed h hc]
  refine ⟨fun i e he => ?_, ?_⟩
  · show _ ∧ ∃ x ∈ (s.lastRing fb pace).settled.resources.lookup e.resId, _
    rw [hregisters.others _ (hids.ne_next hdrawn (hids.cached i e he).2)]
    exact hknown i e he
  · show (s.scanoutResId ≠ 0 → Shown s.scanoutResId (s.lastRing fb pace).settled) ↔ _
    have hne := hids.ne_next hdrawn hids.scanout
    rw [Shown, hregisters.head, hregisters.others _ hne]
    by_cases hmoved : s.Attaches fb pace ∧ (s.afterAttach fb pace).HasRoom pace.bind ∧ Accepts fb s.ring.settled
    · rw [if_pos hmoved]
      constructor
      · intro hshown _ _ _
        by_contra hzero
        exact hne (Option.some_inj.1 (hshown hzero).1).symm
      · intro hzero hne'
        exact absurd (hzero hmoved.1 hmoved.2.1 hmoved.2.2) hne'
    · rw [if_neg hmoved]
      exact iff_of_true hQ fun hattaches hroom haccepts => absurd ⟨hattaches, hroom, haccepts⟩ hmoved

private theorem agrees_step {a : Action} (hI : Ids s ∧ s.Known) (hQ : s.Agrees) (h : s.step a = some s')
    (hb : s'.InBounds) :
    (s'.Agrees → s'.Known) ∧ (s'.Agrees ↔ s.Follows a) := by
  obtain ⟨hids, hknown⟩ := hI
  by_cases ha : ∃ fb rect pace, a = .flip fb rect pace
  · obtain ⟨fb, rect, pace, rfl⟩ := ha
    cases h
    cases hcached : s.cached fb with
    | some resId =>
      obtain ⟨hknown', hagrees⟩ := agrees_cached hids hknown hQ hcached hb
      refine ⟨fun _ => hknown', ?_⟩
      simp only [Follows, hcached, reduceCtorEq, false_implies, and_true, Option.mem_some_iff, forall_eq']
      exact hagrees
    | none =>
      by_cases hc : s.Completes fb pace
      · obtain ⟨hknown', hagrees⟩ := agrees_completed hids hknown hcached hc hb
        refine ⟨hknown', ?_⟩
        simp only [Follows, hcached, Option.not_mem_none, false_implies, implies_true, true_and, hc,
          not_true, and_true, forall_const]
        exact hagrees
      · obtain ⟨hknown', hagrees⟩ := agrees_failed hids hknown hQ hcached hc hb
        refine ⟨fun _ => hknown', ?_⟩
        simp only [Follows, hcached, Option.not_mem_none, false_implies, implies_true, true_and, hc,
          not_false_eq_true, forall_const]
        exact hagrees
  · obtain ⟨r, rfl, -, hsettled⟩ := step_other hids h (fun fb rect pace heq => ha ⟨fb, rect, pace, heq⟩) hb
    have hfollows : s.Follows a := by
      cases a with
      | flip fb rect pace => exact absurd ⟨fb, rect, pace, rfl⟩ ha
      | submit pace body => exact trivial
      | submitAbs pace payloadDma payloadLen => exact trivial
      | cursor pace body => exact trivial
      | host h' => exact trivial
    unfold Known Agrees
    rw [hsettled]
    exact ⟨fun _ => hknown, iff_of_true hQ hfollows⟩

/-- In every run the scanout head is where the driver believes it to be exactly when every flip is followed. -/
theorem agrees_iff {as : List Action} {t : IgpuDisplay} (hrun : Lts.run step start as = some t) (hb : t.InBounds) :
    Lts.Always step Agrees start as ↔ Lts.Along step Follows start as :=
  Lts.always_iff_along_while (A := fun _ => True) (I := fun s => Ids s ∧ s.Known)
    (fun _ _ _ h hb => inBounds_of_step h hb)
    (fun _ _ _ _ hb hI hQ hQ' h => ⟨hI.1.step h hb, (agrees_step hI hQ h hb).1 hQ'⟩)
    (fun _ _ _ _ hb hI hQ h => (agrees_step hI hQ h hb).2)
    ⟨ids_start, fun _ _ he => absurd he.symm (Option.some_ne_none _)⟩ (fun h => absurd rfl h)
      (fun _ _ => trivial) hrun hb

/-- A host that drains and retires while a push waits. -/
def prompt : Pace where
  before := []
  after := [.doorbell, .pop, .pop, .execute, .retire]

/-- A host that has other things to do. -/
def busy : Pace := ⟨[], []⟩

def fbA : Framebuffer := ⟨0x10000, 16, 16, 64⟩

def fbB : Framebuffer := ⟨0x20000, 16, 16, 64⟩

def wholeFb : Rect := ⟨0, 0, 16, 16⟩

def promptFlip (fb : Framebuffer) : Action := .flip fb wholeFb ⟨prompt, prompt, prompt, prompt, prompt, prompt⟩

def busyFlip (fb : Framebuffer) : Action := .flip fb wholeFb ⟨busy, busy, busy, busy, busy, busy⟩

/-- A host that keeps up with the driver. -/
theorem agrees_prompt : Lts.Always step Agrees start [promptFlip fbA, promptFlip fbB, promptFlip fbA] := by
  have hrun : (Lts.run step start [promptFlip fbA, promptFlip fbB, promptFlip fbA]).isSome := rfl
  obtain ⟨t, ht⟩ := Option.isSome_iff_exists.1 hrun
  have hb : t.InBounds := by
    have hall : ∀ t ∈ Lts.run step start [promptFlip fbA, promptFlip fbB, promptFlip fbA], t.InBounds := by
      decide +kernel
    exact hall t ht
  exact (agrees_iff ht hb).2 (by decide +kernel)

/-- A compositor that goes back and forth between two framebuffers, while the host is busy. -/
def backAndForth : List Action :=
  [promptFlip fbA, promptFlip fbB] ++ (List.replicate 4 [busyFlip fbA, busyFlip fbB]).flatten ++ [busyFlip fbA]

/-- The ring fills up, the binding of the head is dropped, and the driver takes it for done. -/
theorem not_always_agrees : ¬ ∀ as : List Action, Lts.Always step Agrees start as := by
  intro h
  have hrun : (Lts.run step start backAndForth).isSome := rfl
  obtain ⟨t, ht⟩ := Option.isSome_iff_exists.1 hrun
  have hlost : ∀ t ∈ Lts.run step start backAndForth, ¬ t.Agrees := by decide +kernel
  exact hlost t ht ((h backAndForth).last ht)

/-! ### What the host keeps -/

/-- Once the host has executed everything, each of its resources is one that the driver has in its cache, there are no
more than the cache has slots, and what a failed registration has sent is not among them. -/
structure NoLeak (s : IgpuDisplay) : Prop where
  cached : ∀ id, s.ring.settled.Alive id → ∃ i e, s.fbcache i = some e ∧ e.resId = id
  few : s.ring.settled.resources.entries.length ≤ FBCACHE
  failed : ∀ id ∈ s.failed, ¬ s.ring.settled.Alive id

/-- A registration that is completed has room for the destruction of what it evicts, and one that is given up has sent
nothing that the host takes. -/
def Clean (s : IgpuDisplay) : Action → Prop
  | .flip fb _ pace =>
    s.cached fb = none →
      (s.Completes fb pace → ∀ e ∈ s.fbcache s.fbcacheNext, s.ring.settled.Alive e.resId →
        (s.lastRing fb pace).HasRoom pace.evict) ∧
        (¬ s.Completes fb pace → ¬ (s.ring.HasRoom pace.create ∧ s.ring.settled.Creates fb.size))
  | _ => True

instance (s : IgpuDisplay) : (a : Action) → Decidable (s.Clean a)
  | .flip .. => inferInstanceAs (Decidable (_ → _))
  | .submit .. => .isTrue trivial
  | .submitAbs .. => .isTrue trivial
  | .cursor .. => .isTrue trivial
  | .host _ => .isTrue trivial

/-- The cache tells the whole story. -/
private theorem noLeak_iff_cached (hids : Ids s) :
    s.NoLeak ↔ ∀ id, s.ring.settled.Alive id → ∃ i e, s.fbcache i = some e ∧ e.resId = id := by
  refine ⟨NoLeak.cached, fun h => ⟨h, ?_, fun id hid halive => ?_⟩⟩
  · -- the ids of the resources are among those of the slots
    let slots := (List.finRange FBCACHE).filterMap fun i => (s.fbcache i).map FbEntry.resId
    have hsub : s.ring.settled.resources.keys ⊆ slots := by
      intro id hid
      obtain ⟨i, e, he, rfl⟩ := h id (AList.lookup_isSome.2 hid)
      exact List.mem_filterMap.2 ⟨i, List.mem_finRange i, by rw [he]; rfl⟩
    have hle := s.ring.settled.resources.keys_nodup.length_le_of_subset hsub
    have hslots : slots.length ≤ (List.finRange FBCACHE).length := List.length_filterMap_le _ _
    rw [List.length_finRange] at hslots
    rw [AList.keys, List.keys, List.length_map] at hle
    exact hle.trans hslots
  · obtain ⟨i, e, he, hid'⟩ := h id halive
    exact (hids.failed id hid).2 i e he hid'

private theorem cached_completed (hids : Ids s) (hQ : s.NoLeak) (h : s.cached fb = none) (hc : s.Completes fb pace)
    {rect : Rect} (hb : (s.flushResource fb rect pace).2.InBounds) :
    (∀ id, (s.flushResource fb rect pace).2.ring.settled.Alive id →
        ∃ i e, (s.flushResource fb rect pace).2.fbcache i = some e ∧ e.resId = id) ↔
      ∀ e ∈ s.fbcache s.fbcacheNext, s.ring.settled.Alive e.resId → (s.lastRing fb pace).HasRoom pace.evict := by
  obtain ⟨hdrawn, r, hs', -, hregisters, hevicts⟩ := flip_completed hids h hc hb
  have hkept : ∀ {id : UInt32}, id ≠ s.nextResId + 1 →
      ((s.lastRing fb pace).settled.Alive id ↔ s.ring.settled.Alive id) := by
    intro id hid
    rw [ResourceTable.Alive, ResourceTable.Alive, hregisters.others id hid]
  rw [hs']
  constructor
  · intro hcached e he halive
    by_contra hroom
    have hne := hids.ne_next hdrawn (hids.cached _ e he).2
    obtain ⟨i, e', he', hid⟩ := hcached e.resId ((hevicts.evicted e he).2 ⟨(hkept hne).2 halive, hroom⟩)
    rcases of_update he' with ⟨-, rfl⟩ | ⟨hi, he'⟩
    · exact hne hid.symm
    · exact hi (hids.distinct _ _ e' e he' he hid)
  · intro hroom id hid
    by_cases hnew : id = s.nextResId + 1
    · exact ⟨s.fbcacheNext, _, Function.update_self _ _ _, hnew.symm⟩
    · have halive := (hkept hnew).1 (hevicts.alive_of hid)
      obtain ⟨i, e, he, rfl⟩ := hQ.cached id halive
      by_cases hi : i = s.fbcacheNext
      · subst hi
        exact absurd (hroom e he halive) ((hevicts.evicted e he).1 hid).2
      · exact ⟨i, e, (Function.update_of_ne hi _ _).trans he, rfl⟩

private theorem cached_failed (hids : Ids s) (hQ : s.NoLeak) (h : s.cached fb = none) (hc : ¬ s.Completes fb pace)
    {rect : Rect} (hb : (s.flushResource fb rect pace).2.InBounds) :
    (∀ id, (s.flushResource fb rect pace).2.ring.settled.Alive id →
        ∃ i e, (s.flushResource fb rect pace).2.fbcache i = some e ∧ e.resId = id) ↔
      ¬ (s.ring.HasRoom pace.create ∧ s.ring.settled.Creates fb.size) := by
  obtain ⟨hdrawn, -, hregisters⟩ := flip_failed hids h hc hb
  rw [flushResource_failed h hc, ← hregisters.alive]
  constructor
  · intro hcached halive
    obtain ⟨i, e, he, hid⟩ := hcached _ halive
    exact hids.ne_next hdrawn (hids.cached i e he).2 hid
  · intro hdead id hid
    by_cases hnew : id = s.nextResId + 1
    · subst hnew
      exact absurd hid hdead
    · have halive : s.ring.settled.Alive id := by
        rw [ResourceTable.Alive, ← hregisters.others id hnew]
        exact hid
      exact hQ.cached id halive

private theorem noLeak_step {a : Action} (hids : Ids s) (hQ : s.NoLeak) (h : s.step a = some s') (hb : s'.InBounds) :
    s'.NoLeak ↔ s.Clean a := by
  rw [noLeak_iff_cached (hids.step h hb)]
  by_cases ha : ∃ fb rect pace, a = .flip fb rect pace
  · obtain ⟨fb, rect, pace, rfl⟩ := ha
    cases h
    cases hcached : s.cached fb with
    | some resId =>
      obtain ⟨r, hs', -, hsettled⟩ := flip_cached hids hcached hb.1
      have hresources := (rebound_spec fb pace resId s).1
      refine iff_of_true (fun id hid => ?_) fun hnone => ?_
      · rw [hs'] at hid ⊢
        rw [ResourceTable.Alive, hsettled, hresources] at hid
        exact hQ.cached id hid
      · rw [hcached] at hnone
        cases hnone
    | none =>
      by_cases hc : s.Completes fb pace
      · simp only [Clean, hcached, forall_const, hc, not_true, false_implies, and_true]
        exact cached_completed hids hQ hcached hc hb
      · simp only [Clean, hcached, forall_const, hc, not_false_eq_true, false_implies, true_and]
        exact cached_failed hids hQ hcached hc hb
  · obtain ⟨r, rfl, -, hsettled⟩ := step_other hids h (fun fb rect pace heq => ha ⟨fb, rect, pace, heq⟩) hb
    have hclean : s.Clean a := by
      cases a with
      | flip fb rect pace => exact absurd ⟨fb, rect, pace, rfl⟩ ha
      | submit pace body => exact trivial
      | submitAbs pace payloadDma payloadLen => exact trivial
      | cursor pace body => exact trivial
      | host h' => exact trivial
    refine iff_of_true (fun id hid => ?_) hclean
    exact hQ.cached id (hsettled ▸ hid)

private theorem noLeak_start : NoLeak start where
  cached _ h := absurd h Bool.false_ne_true
  few := Nat.zero_le _
  failed _ h := absurd h List.not_mem_nil

/-- In every run the host keeps nothing that the driver does not know of exactly when every registration is clean. -/
theorem noLeak_iff {as : List Action} {t : IgpuDisplay} (hrun : Lts.run step start as = some t) (hb : t.InBounds) :
    Lts.Always step NoLeak start as ↔ Lts.Along step Clean start as :=
  Lts.always_iff_along_while (A := fun _ => True) (fun _ _ _ h hb => inBounds_of_step h hb)
    (fun _ _ _ _ hb hids _ _ h => hids.step h hb) (fun _ _ _ _ hb hids hQ h => noLeak_step hids hQ h hb)
    ids_start noLeak_start (fun _ _ => trivial) hrun hb

/-- A host that keeps up with the driver. -/
theorem noLeak_prompt : Lts.Always step NoLeak start [promptFlip fbA, promptFlip fbB, promptFlip fbA] := by
  have hrun : (Lts.run step start [promptFlip fbA, promptFlip fbB, promptFlip fbA]).isSome := rfl
  obtain ⟨t, ht⟩ := Option.isSome_iff_exists.1 hrun
  have hb : ∀ t ∈ Lts.run step start [promptFlip fbA, promptFlip fbB, promptFlip fbA], t.InBounds := by
    decide +kernel
  exact (noLeak_iff ht (hb t ht)).2 (by decide +kernel)

/-- The first push of all returns zero when the host has retired nothing yet: the driver gives up, and the host
creates the resource. -/
theorem not_always_noLeak : ¬ ∀ as : List Action, Lts.Always step NoLeak start as := by
  intro h
  have hrun : (Lts.run step start [busyFlip fbA]).isSome := rfl
  obtain ⟨t, ht⟩ := Option.isSome_iff_exists.1 hrun
  have hleft : ∀ t ∈ Lts.run step start [busyFlip fbA], 1 ∈ t.failed ∧ t.ring.settled.Alive 1 := by decide +kernel
  obtain ⟨hfailed, halive⟩ := hleft t ht
  exact ((h [busyFlip fbA]).last ht).failed 1 hfailed halive

end Infinigpu.Kmd.IgpuDisplay
