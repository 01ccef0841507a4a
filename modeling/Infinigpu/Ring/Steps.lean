import Infinigpu.Ring.Basic

/-!
# What one load or store of a ring call can do

Seen from the ring, a call of `push` or `pop` that is under way is in agreement with the index words and with the
slot it owns (`PushPc.Ok`, `PopPc.Ok`).  A running step keeps that agreement and every pending entry
(`pushStep_running`, `popStep_running`); the last step of a call appends exactly its item to the pending entries or
takes exactly the oldest one off (`pushStep_ok`, `popStep_some`).  Neither end disturbs the other.

The calls run alone compute `Store.push` and `Store.pop` (`push_runs`, `pop_runs`); a push that has room leaves
`stores` in the view (`view_stores`).
-/

namespace Infinigpu

variable {g : Geometry} {w : Nat} {β M : Type*}

namespace Ring

variable {T : Type*}

/-- The ring with its newest slot published. -/
def publish (r : Ring g T) : Ring g T := { r with idx := { r.idx with tail := r.idx.tail + 1 } }

/-- The ring with its oldest entry released. -/
def release (r : Ring g T) : Ring g T := { r with idx := { r.idx with head := r.idx.head + 1 } }

/-- The same entries are pending, at the same indices. -/
structure KeepsEntries (r r' : Ring g T) : Prop where
  tail : r'.idx.tail = r.idx.tail
  head : r'.idx.head = r.idx.head
  slots : ∀ j < r.len.toNat, r'.slots (g.slotIndex (r.idx.head + UInt32.ofNat j)) =
    r.slots (g.slotIndex (r.idx.head + UInt32.ofNat j))

theorem KeepsEntries.rfl (r : Ring g T) : r.KeepsEntries r := ⟨Eq.refl _, Eq.refl _, fun _ _ => Eq.refl _⟩

theorem KeepsEntries.len {r r' : Ring g T} (h : r.KeepsEntries r') : r'.len = r.len := by
  rw [Ring.len, Ring.len, h.tail, h.head]

theorem KeepsEntries.pending {r r' : Ring g T} (h : r.KeepsEntries r') : r'.pending = r.pending := by
  rw [Ring.pending, Ring.pending, h.len, h.head]
  refine List.map_congr_left fun j hj => ?_
  exact h.slots j (List.mem_range.1 hj)

/-- The oldest entry stays. -/
private theorem KeepsEntries.oldest {r r' : Ring g T} (h : r.KeepsEntries r') (hlen : 0 < r.len.toNat) :
    r'.slots (g.slotIndex r.idx.head) = r.slots (g.slotIndex r.idx.head) := by
  simpa using h.slots 0 hlen

private theorem head_add_len (r : Ring g T) : r.idx.head + UInt32.ofNat r.len.toNat = r.idx.tail :=
  Counter.add_toNat_sub _ _

theorem publish_len {r : Ring g T} (h : r.len.toNat < g.slots) : r.publish.len.toNat = r.len.toNat + 1 := by
  have := g.le_max
  have hlt : (r.idx.tail - r.idx.head).toNat + 1 < 2 ^ 32 := by
    show r.len.toNat + 1 < 2 ^ 32
    omega
  exact Counter.toNat_succ_sub hlt

theorem publish_pending {r : Ring g T} (h : r.len.toNat < g.slots) :
    r.publish.pending = r.pending ++ [r.slots (g.slotIndex r.idx.tail)] := by
  rw [pending, publish_len h, List.range_succ, List.map_append, pending]
  show _ ++ [r.slots (g.slotIndex (r.idx.head + UInt32.ofNat r.len.toNat))] = _
  rw [head_add_len]; rfl

theorem release_len {r : Ring g T} (h : 0 < r.len.toNat) : r.release.len.toNat = r.len.toNat - 1 :=
  Counter.toNat_sub_succ h

theorem pending_release {r : Ring g T} (h : 0 < r.len.toNat) :
    r.pending = r.slots (g.slotIndex r.idx.head) :: r.release.pending := by
  obtain ⟨n, hn⟩ : ∃ n, r.len.toNat = n + 1 := ⟨r.len.toNat - 1, by omega⟩
  have hr : r.release.len.toNat = n := by rw [release_len h, hn, Nat.add_sub_cancel]
  rw [pending, hn, List.range_succ_eq_map, List.map_cons, List.map_map, pending, hr]
  congr 1
  · simp
  · refine List.map_congr_left fun j _ => ?_
    show r.slots (g.slotIndex (r.idx.head + UInt32.ofNat (j + 1))) =
      r.slots (g.slotIndex (r.idx.head + 1 + UInt32.ofNat j))
    rw [UInt32.ofNat_add, UInt32.add_comm (UInt32.ofNat j), ← UInt32.add_assoc]; rfl

theorem len_eq_zero {r : Ring g T} : r.len.toNat = 0 ↔ r.idx.head = r.idx.tail := Counter.toNat_sub_eq_zero

/-- The slot behind the newest entry is none of the pending ones. -/
theorem slotIndex_tail_ne {r : Ring g T} (h : r.len.toNat < g.slots) {j : Nat} (hj : j < r.len.toNat) :
    g.slotIndex (r.idx.head + UInt32.ofNat j) ≠ g.slotIndex r.idx.tail := by
  intro he
  rw [← head_add_len] at he
  have := g.slotIndex_inj r.idx.head (by omega) h he
  omega

end Ring

/-! ### Agreement of a call with the ring -/

/-- Where the producer stands agrees with the ring: its copy of `tail` is current, the slot is free, and the words
already copied are in it. -/
def PushPc.Ok (r : Ring g (Fin w → β)) : PushPc w β → Prop
  | .loadTail _ => True
  | .loadHead _ tail => tail = r.idx.tail
  | .write item tail n =>
    tail = r.idx.tail ∧ r.len.toNat < g.slots ∧ ∀ k : Fin w, k.val < n → r.slots (g.slotIndex tail) k = item k
  | .storeSubmit item tail => tail = r.idx.tail ∧ r.len.toNat < g.slots ∧ r.slots (g.slotIndex tail) = item
  | .storeTail item tail => tail = r.idx.tail ∧ r.len.toNat < g.slots ∧ r.slots (g.slotIndex tail) = item

/-- `words` are the first words of `item`. -/
def Copied (item : Fin w → β) (words : List β) : Prop :=
  words.length ≤ w ∧ ∀ (k : Fin w) (h : k.val < words.length), words.get ⟨k, h⟩ = item k

private theorem Copied.nil (item : Fin w → β) : Copied item [] :=
  ⟨Nat.zero_le _, fun _ hk => absurd hk (Nat.not_lt_zero _)⟩

private theorem Copied.snoc {item : Fin w → β} {words : List β} (h : Copied item words) (hw : words.length < w) :
    Copied item (words ++ [item ⟨words.length, hw⟩]) := by
  refine ⟨by rw [List.length_append, List.length_singleton]; omega, fun k hk => ?_⟩
  rw [List.get_eq_getElem]
  by_cases hlt : k.val < words.length
  · rw [List.getElem_append_left hlt]
    exact h.2 k hlt
  · have hkw : k = ⟨words.length, hw⟩ := by
      rw [List.length_append, List.length_singleton] at hk
      exact Fin.ext (by simp only; omega)
    subst hkw
    rw [List.getElem_append_right (Nat.le_refl _), List.getElem_singleton]

private theorem Copied.index_lt {words : List β} (hw : ¬ words.length < w) (k : Fin w) : k.val < words.length :=
  Nat.lt_of_lt_of_le k.isLt (Nat.not_lt.1 hw)

private theorem Copied.complete {item : Fin w → β} {words : List β} (h : Copied item words)
    (hw : ¬ words.length < w) :
    (fun k : Fin w => words.get ⟨k, Copied.index_lt hw k⟩) = item :=
  funext fun k => h.2 k (Copied.index_lt hw k)

/-- Where the consumer stands agrees with the ring: its copy of `head` is current, an entry is pending there, and
the words already copied are its first ones. -/
def PopPc.Ok (r : Ring g (Fin w → β)) : PopPc w β → Prop
  | .loadHead => True
  | .loadTail head => head = r.idx.head
  | .read head words => head = r.idx.head ∧ 0 < r.len.toNat ∧ Copied (r.slots (g.slotIndex head)) words
  | .storeHead head item => head = r.idx.head ∧ 0 < r.len.toNat ∧ r.slots (g.slotIndex head) = item

theorem PopPc.Ok.of_keeps {r r' : Ring g (Fin w → β)} {c : PopPc w β} (hc : c.Ok r) (h : r.KeepsEntries r') :
    c.Ok r' := by
  cases c with
  | loadHead => trivial
  | loadTail head => exact hc.trans h.head.symm
  | read head words =>
    obtain ⟨rfl, hlen, hwords⟩ := hc
    exact ⟨h.head.symm, by rw [h.len]; exact hlen, by rw [h.oldest hlen]; exact hwords⟩
  | storeHead head item =>
    obtain ⟨rfl, hlen, hitem⟩ := hc
    exact ⟨h.head.symm, by rw [h.len]; exact hlen, by rw [h.oldest hlen]; exact hitem⟩

/-- A published entry does not concern a call of `pop` under way. -/
theorem PopPc.Ok.publish {r : Ring g (Fin w → β)} {c : PopPc w β} (hc : c.Ok r) (hlen : r.len.toNat < g.slots) :
    c.Ok r.publish := by
  have hlen' := Ring.publish_len hlen
  cases c with
  | loadHead => trivial
  | loadTail head => exact hc
  | read head words => exact ⟨hc.1, by omega, hc.2.2⟩
  | storeHead head item => exact ⟨hc.1, by omega, hc.2.2⟩

/-- A released entry only makes more room for a call of `push` under way. -/
theorem PushPc.Ok.release {r : Ring g (Fin w → β)} {p : PushPc w β} (hp : p.Ok r) (hlen : 0 < r.len.toNat) :
    p.Ok r.release := by
  have hlen' := Ring.release_len hlen
  cases p with
  | loadTail item => trivial
  | loadHead item tail => exact hp
  | write item tail n => exact ⟨hp.1, by have := hp.2.1; omega, hp.2.2⟩
  | storeSubmit item tail => exact ⟨hp.1, by have := hp.2.1; omega, hp.2.2⟩
  | storeTail item tail => exact ⟨hp.1, by have := hp.2.1; omega, hp.2.2⟩

theorem PushPc.Ok.of_slots {r r' : Ring g (Fin w → β)} {p : PushPc w β} (hp : p.Ok r)
    (hslots : r'.slots = r.slots) (htail : r'.idx.tail = r.idx.tail) (hhead : r'.idx.head = r.idx.head) :
    p.Ok r' := by
  have hlen : r'.len = r.len := by rw [Ring.len, Ring.len, htail, hhead]
  cases p with
  | loadTail item => trivial
  | loadHead item tail => exact hp.trans htail.symm
  | write item tail n =>
    exact ⟨hp.1.trans htail.symm, by rw [hlen]; exact hp.2.1, by rw [hslots]; exact hp.2.2⟩
  | storeSubmit item tail =>
    exact ⟨hp.1.trans htail.symm, by rw [hlen]; exact hp.2.1, by rw [hslots]; exact hp.2.2⟩
  | storeTail item tail =>
    exact ⟨hp.1.trans htail.symm, by rw [hlen]; exact hp.2.1, by rw [hslots]; exact hp.2.2⟩

namespace Store

variable {S : Store g w β M}

/-! ### Steps of `push` -/

private theorem keeps_storeWord (hS : S.Lawful) {m : M} (hlen : (S.view m).len.toNat < g.slots) (k : Fin w) (x : β) :
    (S.view m).KeepsEntries (S.view (S.storeWord (g.slotIndex (S.view m).idx.tail) k x m)) := by
  rw [hS.view_storeWord]
  refine ⟨rfl, rfl, fun j hj => ?_⟩
  exact Function.update_of_ne (Ring.slotIndex_tail_ne hlen hj) _ _

private theorem keeps_storeSeqnoSubmit (hS : S.Lawful) (v : UInt64) (m : M) :
    (S.view m).KeepsEntries (S.view (S.storeSeqnoSubmit v m)) := by
  rw [hS.view_storeSeqnoSubmit]
  exact ⟨rfl, rfl, fun _ _ => rfl⟩

/-- No step of `push` touches the retired word. -/
theorem pushStep_retired (hS : S.Lawful) (m : M) (p : PushPc w β) :
    (S.view (S.pushStep m p).mem).idx.seqnoRetired = (S.view m).idx.seqnoRetired := by
  cases p with
  | loadTail item => rfl
  | loadHead item tail =>
    simp only [pushStep]
    split <;> rfl
  | write item tail n =>
    simp only [pushStep]
    split
    · rw [Progress.mem, hS.view_storeWord]
    · rfl
  | storeSubmit item tail => rw [pushStep, Progress.mem, hS.view_storeSeqnoSubmit]
  | storeTail item tail => rw [pushStep, Progress.mem, hS.view_storeTail]

/-- Nor does a step of `pop`. -/
theorem popStep_retired (hS : S.Lawful) (m : M) (c : PopPc w β) :
    (S.view (S.popStep m c).mem).idx.seqnoRetired = (S.view m).idx.seqnoRetired := by
  cases c with
  | loadHead => rfl
  | loadTail head =>
    simp only [popStep]
    split <;> rfl
  | read head words =>
    simp only [popStep]
    split <;> rfl
  | storeHead head item => rw [popStep, Progress.mem, hS.view_storeHead]

theorem keeps_storeSeqnoRetired (hS : S.Lawful) (v : UInt64) (m : M) :
    (S.view m).KeepsEntries (S.view (S.storeSeqnoRetired v m)) := by
  rw [hS.view_storeSeqnoRetired]
  exact ⟨rfl, rfl, fun _ _ => rfl⟩

/-- A step inside `push` keeps its agreement with the ring and every pending entry. -/
theorem pushStep_running (hS : S.Lawful) {m m' : M} {p p' : PushPc w β} (hp : p.Ok (S.view m))
    (h : S.pushStep m p = .running p' m') : p'.Ok (S.view m') ∧ (S.view m).KeepsEntries (S.view m') := by
  cases p with
  | loadTail item =>
    cases h
    exact ⟨rfl, .rfl _⟩
  | loadHead item tail =>
    subst hp
    simp only [pushStep] at h
    split at h
    · cases h
    · rename_i hfull
      cases h
      rw [ge_iff_le, UInt32.le_iff_toNat_le, Geometry.capacity_toNat, Nat.not_le] at hfull
      exact ⟨⟨rfl, hfull, fun k hk => absurd hk (Nat.not_lt_zero _)⟩, .rfl _⟩
  | write item tail n =>
    obtain ⟨rfl, hlen, hwords⟩ := hp
    simp only [pushStep] at h
    split at h
    · rename_i hn
      cases h
      have hk := keeps_storeWord hS hlen ⟨n, hn⟩ (item ⟨n, hn⟩)
      refine ⟨⟨hk.tail.symm, by rw [hk.len]; exact hlen, fun k hkn => ?_⟩, hk⟩
      rw [hS.view_storeWord]
      show Function.update (S.view m).slots _ _ _ k = _
      rw [Function.update_self]
      by_cases hkn' : k = ⟨n, hn⟩
      · rw [hkn', Function.update_self]
      · rw [Function.update_of_ne hkn']
        refine hwords k ?_
        have : k.val ≠ n := fun e => hkn' (Fin.ext e)
        omega
    · rename_i hn
      cases h
      refine ⟨⟨rfl, hlen, ?_⟩, .rfl _⟩
      funext k
      exact hwords k (by omega)
  | storeSubmit item tail =>
    obtain ⟨rfl, hlen, hitem⟩ := hp
    cases h
    have hk := keeps_storeSeqnoSubmit hS ((S.view m).idx.tail + 1).toUInt64 m
    refine ⟨⟨hk.tail.symm, by rw [hk.len]; exact hlen, ?_⟩, hk⟩
    rw [hS.view_storeSeqnoSubmit]
    exact hitem
  | storeTail item tail => cases h

/-- `push` accepts its item with the store of `tail`, and that store publishes exactly the item. -/
theorem pushStep_ok (hS : S.Lawful) {m m' : M} {p : PushPc w β} {seqno : UInt64} (hp : p.Ok (S.view m))
    (h : S.pushStep m p = .done (.ok seqno) m') :
    ∃ item, p = .storeTail item (S.view m).idx.tail ∧ seqno = ((S.view m).idx.tail + 1).toUInt64 ∧
      (S.view m).len.toNat < g.slots ∧ S.view m' = (S.view m).publish ∧
      (S.view m').pending = (S.view m).pending ++ [item] := by
  cases p with
  | loadTail item => cases h
  | loadHead item tail =>
    simp only [pushStep] at h
    split at h <;> cases h
  | write item tail n =>
    simp only [pushStep] at h
    split at h <;> cases h
  | storeSubmit item tail => cases h
  | storeTail item tail =>
    obtain ⟨rfl, hlen, hitem⟩ := hp
    cases h
    have hview : S.view (S.storeTail ((S.view m).idx.tail + 1) m) = (S.view m).publish := hS.view_storeTail _ _
    refine ⟨item, rfl, rfl, hlen, hview, ?_⟩
    rw [hview, Ring.publish_pending hlen, hitem]

/-- `push` is refused where it compares its copy of `tail` with the head it loads, and nowhere else. -/
theorem pushStep_error {m m' : M} {p : PushPc w β} {e : RingError} (h : S.pushStep m p = .done (.error e) m') :
    e = .full ∧ m' = m ∧ ∃ item tail, p = .loadHead item tail ∧ g.capacity ≤ tail - (S.view m).idx.head := by
  cases p with
  | loadTail item => cases h
  | loadHead item tail =>
    simp only [pushStep] at h
    split at h
    · rename_i hfull
      cases h
      exact ⟨rfl, rfl, item, tail, rfl, hfull⟩
    · cases h
  | write item tail n =>
    simp only [pushStep] at h
    split at h <;> cases h
  | storeSubmit item tail => cases h
  | storeTail item tail => cases h

/-! ### Steps of `pop` -/

/-- A step inside `pop` stores nothing and keeps its agreement with the ring. -/
theorem popStep_running {m m' : M} {c c' : PopPc w β} (hc : c.Ok (S.view m)) (h : S.popStep m c = .running c' m') :
    m' = m ∧ c'.Ok (S.view m) := by
  cases c with
  | loadHead =>
    cases h
    exact ⟨rfl, rfl⟩
  | loadTail head =>
    cases hc
    simp only [popStep] at h
    split at h
    · cases h
    · rename_i hne
      cases h
      have := mt Ring.len_eq_zero.1 hne
      exact ⟨rfl, rfl, by omega, .nil _⟩
  | read head words =>
    obtain ⟨rfl, hlen, hwords⟩ := hc
    simp only [popStep] at h
    split at h
    · rename_i hw
      cases h
      exact ⟨rfl, rfl, hlen, hwords.snoc hw⟩
    · rename_i hw
      cases h
      exact ⟨rfl, rfl, hlen, (hwords.complete hw).symm⟩
  | storeHead head item => cases h

/-- `pop` delivers with the store of `head`, and that store takes exactly the oldest entry off. -/
theorem popStep_some (hS : S.Lawful) {m m' : M} {c : PopPc w β} {item : Fin w → β} (hc : c.Ok (S.view m))
    (h : S.popStep m c = .done (some item) m') :
    0 < (S.view m).len.toNat ∧ S.view m' = (S.view m).release ∧
      (S.view m).pending = item :: (S.view m').pending ∧ m' = S.storeHead ((S.view m).idx.head + 1) m := by
  cases c with
  | loadHead => cases h
  | loadTail head =>
    simp only [popStep] at h
    split at h <;> cases h
  | read head words =>
    simp only [popStep] at h
    split at h <;> cases h
  | storeHead head item =>
    obtain ⟨rfl, hlen, hitem⟩ := hc
    cases h
    have hview : S.view (S.storeHead ((S.view m).idx.head + 1) m) = (S.view m).release := hS.view_storeHead _ _
    refine ⟨hlen, hview, ?_, rfl⟩
    rw [hview, Ring.pending_release hlen, hitem]

theorem popStep_none {m m' : M} {c : PopPc w β} (hc : c.Ok (S.view m)) (h : S.popStep m c = .done none m') :
    m' = m ∧ (S.view m).pending = [] := by
  cases c with
  | loadHead => cases h
  | loadTail head =>
    cases hc
    simp only [popStep] at h
    split at h
    · rename_i he
      cases h
      refine ⟨rfl, ?_⟩
      rw [← List.length_eq_zero_iff, Ring.pending_length, Ring.len_eq_zero]
      exact he
    · cases h
  | read head words =>
    simp only [popStep] at h
    split at h <;> cases h
  | storeHead head item => cases h

/-! ### A call that runs alone -/

/-- The steps of a call, one after another with nothing in between, lead from `pc` to a result. -/
inductive Runs {P R : Type*} (step : M → P → Progress P R M) : P → M → R → M → Prop where
  | done {pc : P} {m : M} {result : R} {m' : M} (h : step m pc = .done result m') : Runs step pc m result m'
  | running {pc pc' : P} {m m₁ : M} {result : R} {m' : M} (h : step m pc = .running pc' m₁)
      (rest : Runs step pc' m₁ result m') : Runs step pc m result m'

private theorem runs_write (item : Fin w → β) (tail : UInt32) (n : Nat) (m : M) :
    Runs S.pushStep (.write item tail n) m (.ok (tail + 1).toUInt64)
      (S.storeTail (tail + 1) (S.storeSeqnoSubmit (tail + 1).toUInt64
        (((List.finRange w).drop n).foldl (fun m k => S.storeWord (g.slotIndex tail) k (item k) m) m))) := by
  induction hd : w - n generalizing n m with
  | zero =>
    have hn : ¬ n < w := by omega
    rw [List.drop_eq_nil_of_le (by rw [List.length_finRange]; omega), List.foldl_nil]
    exact .running (dif_neg hn) (.running rfl (.done rfl))
  | succ d ih =>
    have hn : n < w := by omega
    rw [List.drop_eq_getElem_cons (by rw [List.length_finRange]; exact hn), List.foldl_cons, List.getElem_finRange]
    exact .running (dif_pos hn) (ih (n + 1) _ (by omega))

theorem push_runs (item : Fin w → β) (m : M) :
    Runs S.pushStep (.loadTail item) m (S.push item m).1 (S.push item m).2 := by
  refine .running rfl ?_
  simp only [push]
  split
  · rename_i hfull
    exact .done (if_pos hfull)
  · rename_i hfull
    exact .running (if_neg hfull) (runs_write item _ 0 m)

private theorem runs_read (head : UInt32) (words : List β) (m : M)
    (hwords : Copied ((S.view m).slots (g.slotIndex head)) words) :
    Runs S.popStep (.read head words) m (some ((S.view m).slots (g.slotIndex head))) (S.storeHead (head + 1) m) := by
  induction hd : w - words.length generalizing words with
  | zero =>
    have hw : ¬ words.length < w := by omega
    refine .running (dif_neg hw) (.done ?_)
    rw [hwords.complete hw]; rfl
  | succ d ih =>
    have hw : words.length < w := by omega
    refine .running (dif_pos hw) (ih _ (hwords.snoc hw) ?_)
    rw [List.length_append, List.length_singleton]
    omega

theorem pop_runs (m : M) : Runs S.popStep .loadHead m (S.pop m).1 (S.pop m).2 := by
  refine .running rfl ?_
  simp only [pop]
  split
  · rename_i he
    exact .done (if_pos he)
  · rename_i hne
    exact .running (if_neg hne) (runs_read _ [] m (.nil _))

/-! ### What a push leaves in the view -/

private theorem view_writeSlot (hS : S.Lawful) (i : Fin g.slots) (item : Fin w → β) (m : M) :
    S.view (S.writeSlot i item m) = { S.view m with slots := Function.update (S.view m).slots i item } := by
  have hwords : ∀ (l : List (Fin w)) (m : M), S.view (l.foldl (fun m k => S.storeWord i k (item k) m) m) =
      { S.view m with
        slots := Function.update (S.view m).slots i fun k => if k ∈ l then item k else (S.view m).slots i k } := by
    intro l
    induction l with
    | nil =>
      intro m
      simp only [List.foldl_nil, List.not_mem_nil, if_false, Function.update_eq_self]
    | cons k l ih =>
      intro m
      rw [List.foldl_cons, ih, hS.view_storeWord]
      simp only [Function.update_self, Function.update_idem]
      congr 2
      funext j
      by_cases hj : j = k
      · subst hj
        simp only [List.mem_cons, true_or, if_true, Function.update_self, ite_self]
      · simp only [List.mem_cons, hj, false_or, Function.update_of_ne hj]
  rw [writeSlot, hwords]
  simp only [List.mem_finRange, if_true]

/-- The stores of a push that has room, with the number `seqno`. -/
def stores (S : Store g w β M) (item : Fin w → β) (seqno : UInt64) (m : M) : M :=
  let tail := (S.view m).idx.tail
  S.storeTail (tail + 1) (S.storeSeqnoSubmit seqno (S.writeSlot (g.slotIndex tail) item m))

theorem view_stores (hS : S.Lawful) (item : Fin w → β) (seqno : UInt64) (m : M) :
    S.view (S.stores item seqno m) =
      { slots := Function.update (S.view m).slots (g.slotIndex (S.view m).idx.tail) item
        idx := { (S.view m).idx with seqnoSubmit := seqno, tail := (S.view m).idx.tail + 1 } } := by
  rw [stores, hS.view_storeTail, hS.view_storeSeqnoSubmit, view_writeSlot hS]

/-- Whether a push finds the ring full. -/
def Full (S : Store g w β M) (m : M) : Prop := (S.view m).idx.tail - (S.view m).idx.head ≥ g.capacity

instance (S : Store g w β M) (m : M) : Decidable (S.Full m) :=
  inferInstanceAs (Decidable ((S.view m).idx.tail - (S.view m).idx.head ≥ g.capacity))

theorem push_full {m : M} (h : S.Full m) (item : Fin w → β) : S.push item m = (.error .full, m) := if_pos h

theorem push_room {m : M} (h : ¬ S.Full m) (item : Fin w → β) :
    S.push item m = (.ok ((S.view m).idx.tail + 1).toUInt64, S.stores item ((S.view m).idx.tail + 1).toUInt64 m) :=
  if_neg h

end Store

end Infinigpu
