import Mathlib.Data.List.Basic

/-!
# Cutting a list at its marks

A mark is recognised from a fixed number of elements, and two marks do not overlap. The segments of a list are the
stretches from each mark to the next one. A list that grows at its end keeps all its segments but the last one, so
that they can be cut off while the list is still arriving.
-/

structure Marks (α : Type) where
  starts : List α → Bool
  width : Nat
  width_pos : 0 < width
  width_le : ∀ {l : List α}, starts l = true → width ≤ l.length
  starts_append : ∀ {l : List α} (r : List α), width ≤ l.length → starts (l ++ r) = starts l
  apart : ∀ {l : List α} {k : Nat}, starts l = true → 0 < k → k < width → starts (l.drop k) = false

namespace Marks

variable {α : Type} (m : Marks α)

/-- What precedes the first mark, and the stretches from each mark to the next one. -/
def segments : List α → List α × List (List α)
  | [] => ([], [])
  | a :: l =>
    if m.starts (a :: l) then
      ([], (a :: (segments l).1) :: (segments l).2)
    else
      (a :: (segments l).1, (segments l).2)

/-- The position of the first mark. -/
def first : List α → Option Nat
  | [] => none
  | a :: l => if m.starts (a :: l) then some 0 else (first l).map (· + 1)

/-- A list begins with a mark and has no other. -/
def Single (l : List α) : Prop := m.starts l = true ∧ ∀ k, 0 < k → m.starts (l.drop k) = false

theorem starts_nil : m.starts [] = false := by
  rw [← Bool.not_eq_true]
  intro h
  have hle := m.width_le h
  have hpos := m.width_pos
  rw [List.length_nil] at hle
  omega

/-- A mark is seen in every prefix that holds it. -/
theorem starts_take (l : List α) {n : Nat} (h : m.width ≤ n) : m.starts (l.take n) = m.starts l := by
  by_cases hn : n ≤ l.length
  · have hlen : m.width ≤ (l.take n).length := by
      rw [List.length_take]
      omega
    have happ := m.starts_append (l.drop n) hlen
    rw [List.take_append_drop] at happ
    exact happ.symm
  · rw [List.take_of_length_le (by omega)]

theorem segments_flatten (l : List α) : (m.segments l).1 ++ (m.segments l).2.flatten = l := by
  induction l with
  | nil => rfl
  | cons a l ih =>
    unfold segments
    split
    · simpa using ih
    · simpa using ih

theorem segments_of_starts {l : List α} (h : m.starts l = true) : (m.segments l).1 = [] := by
  cases l with
  | nil => rfl
  | cons a l => rw [segments, if_pos h]

/-! ### The first mark -/

theorem first_of_starts {l : List α} (h : m.starts l = true) : m.first l = some 0 := by
  cases l with
  | nil => exact absurd (m.starts_nil.symm.trans h) Bool.false_ne_true
  | cons a l => rw [first, if_pos h]

theorem first_eq_none {l : List α} (h : m.first l = none) :
    m.segments l = (l, []) ∧ ∀ k, m.starts (l.drop k) = false := by
  induction l with
  | nil => exact ⟨rfl, fun k => by rw [List.drop_nil]; exact m.starts_nil⟩
  | cons a l ih =>
    rw [first] at h
    split at h
    next => cases h
    next hs =>
      rw [Option.map_eq_none_iff] at h
      obtain ⟨hseg, hno⟩ := ih h
      refine ⟨by rw [segments, if_neg hs, hseg], ?_⟩
      intro k
      cases k with
      | zero => simpa using hs
      | succ k => exact hno k

theorem first_eq_some {l : List α} {i : Nat} (h : m.first l = some i) :
    m.starts (l.drop i) = true ∧ (∀ k < i, m.starts (l.drop k) = false) ∧
      m.segments l = (l.take i, (m.segments (l.drop i)).2) := by
  induction l generalizing i with
  | nil => cases h
  | cons a l ih =>
    rw [first] at h
    split at h
    next hs =>
      cases h
      refine ⟨hs, fun k hk => absurd hk (Nat.not_lt_zero k), ?_⟩
      rw [List.take_zero, List.drop_zero]
      exact Prod.ext (m.segments_of_starts hs) rfl
    next hs =>
      rw [Option.map_eq_some_iff] at h
      obtain ⟨j, hj, rfl⟩ := h
      obtain ⟨hstarts, hno, hseg⟩ := ih hj
      refine ⟨hstarts, ?_, by rw [segments, if_neg hs, hseg]; rfl⟩
      intro k hk
      cases k with
      | zero => simpa using hs
      | succ k => exact hno k (by omega)

/-- Positions without a mark may be skipped. -/
theorem first_skip {l : List α} {n : Nat} (h : ∀ k < n, m.starts (l.drop k) = false) :
    m.first l = (m.first (l.drop n)).map (· + n) := by
  induction n generalizing l with
  | zero => simp
  | succ n ih =>
    cases l with
    | nil => rfl
    | cons a l =>
      have hs : m.starts (a :: l) = false := h 0 (by omega)
      have hrest := ih (l := l) fun k hk => h (k + 1) (by omega)
      rw [first, if_neg (by rw [hs]; exact Bool.false_ne_true), hrest, Option.map_map]
      rfl

/-! ### The first segment -/

/-- A list that begins with a mark and has no other is one segment. -/
theorem segments_single {l : List α} (h : m.Single l) : m.segments l = ([], [l]) := by
  cases l with
  | nil => exact absurd (m.starts_nil.symm.trans h.1) Bool.false_ne_true
  | cons a l =>
    have hnone : m.first l = none := by
      cases hl : m.first l with
      | none => rfl
      | some i => exact absurd ((h.2 (i + 1) (by omega)).symm.trans (m.first_eq_some hl).1) Bool.false_ne_true
    rw [segments, if_pos h.1, (m.first_eq_none hnone).1]

/-- The positions of a mark itself have no mark. -/
theorem drop_width_skip {l : List α} (h : m.starts l = true) {k : Nat} (hk : 0 < k)
    (hno : ∀ j, m.width ≤ j → j ≤ k → m.starts (l.drop j) = false) : m.starts (l.drop k) = false := by
  by_cases hlt : k < m.width
  · exact m.apart h hk hlt
  · exact hno k (by omega) (Nat.le_refl k)

theorem single_of_first_none {l : List α} (h : m.starts l = true) (hnone : m.first (l.drop m.width) = none) :
    m.Single l := by
  refine ⟨h, fun k hk => m.drop_width_skip h hk ?_⟩
  intro j hj _
  have hdrop := (m.first_eq_none hnone).2 (j - m.width)
  rw [List.drop_drop, show m.width + (j - m.width) = j by omega] at hdrop
  exact hdrop

/-- The first segment ends at the first mark behind its own. -/
theorem segments_of_first_some {l : List α} {j : Nat} (h : m.starts l = true)
    (hj : m.first (l.drop m.width) = some j) :
    m.Single (l.take (m.width + j)) ∧ m.starts (l.drop (m.width + j)) = true ∧
      (m.segments l).2 = l.take (m.width + j) :: (m.segments (l.drop (m.width + j))).2 := by
  obtain ⟨hstarts, hno, -⟩ := m.first_eq_some hj
  rw [List.drop_drop] at hstarts
  have hnone : ∀ k, 0 < k → k < m.width + j → m.starts (l.drop k) = false := by
    intro k hk hlt
    refine m.drop_width_skip h hk fun i hi hik => ?_
    have hdrop := hno (i - m.width) (by omega)
    rw [List.drop_drop, show m.width + (i - m.width) = i by omega] at hdrop
    exact hdrop
  refine ⟨⟨by rw [m.starts_take l (Nat.le_add_right _ _)]; exact h, ?_⟩, hstarts, ?_⟩
  · intro k hk
    rw [← Bool.not_eq_true]
    intro hin
    -- a mark inside the prefix is a mark of the list
    have hlen := m.width_le hin
    rw [List.drop_take] at hin hlen
    have hlt : m.width ≤ m.width + j - k := by
      rw [List.length_take] at hlen
      omega
    rw [m.starts_take _ hlt] at hin
    have hpos := m.width_pos
    exact absurd ((hnone k hk (by omega)).symm.trans hin) Bool.false_ne_true
  · cases l with
    | nil => exact absurd (m.starts_nil.symm.trans h) Bool.false_ne_true
    | cons a l =>
      have hpos := m.width_pos
      have hskip : ∀ k < m.width + j - 1, m.starts (l.drop k) = false :=
        fun k hk => hnone (k + 1) (by omega) (by omega)
      have hsucc : m.width + j = m.width + j - 1 + 1 := by omega
      have hat : m.first (l.drop (m.width + j - 1)) = some 0 := by
        rw [hsucc, List.drop_succ_cons] at hstarts
        exact m.first_of_starts hstarts
      have hfirst : m.first l = some (m.width + j - 1) := by
        rw [m.first_skip hskip, hat, Option.map_some, Nat.zero_add]
      rw [segments, if_pos h, (m.first_eq_some hfirst).2.2, hsucc]
      rfl

/-! ### Every segment -/

/-- Every segment begins with a mark and has no other. -/
theorem single_of_mem_segments {l u : List α} (hu : u ∈ (m.segments l).2) : m.Single u := by
  induction hn : l.length using Nat.strongRecOn generalizing l with
  | ind n ih =>
    subst hn
    cases hl : m.first l with
    | none =>
      rw [(m.first_eq_none hl).1] at hu
      cases hu
    | some i =>
      obtain ⟨hstarts, -, hseg⟩ := m.first_eq_some hl
      have hi : (l.drop i).length ≤ l.length := by
        rw [List.length_drop]
        omega
      rw [hseg] at hu
      cases hj : m.first ((l.drop i).drop m.width) with
      | none =>
        have hsingle := m.single_of_first_none hstarts hj
        rw [m.segments_single hsingle, List.mem_singleton] at hu
        rw [hu]
        exact hsingle
      | some j =>
        obtain ⟨hsingle, -, hrest⟩ := m.segments_of_first_some hstarts hj
        rw [hrest, List.mem_cons] at hu
        rcases hu with rfl | hu
        · exact hsingle
        · refine ih _ ?_ hu rfl
          have hpos := m.width_pos
          have hle := m.width_le hstarts
          rw [List.length_drop]
          omega

/-- Behind a mark the list may grow without changing what is cut off before it. -/
theorem segments_append (u : List α) {v : List α} (hv : m.starts v = true) :
    ∃ lead init, ∀ x, m.segments (u ++ (v ++ x)) = (lead, init ++ (m.segments (v ++ x)).2) := by
  have hw := m.width_le hv
  induction u with
  | nil =>
    refine ⟨[], [], fun x => ?_⟩
    have hx : m.starts (v ++ x) = true := (m.starts_append x hw).trans hv
    exact Prod.ext (m.segments_of_starts hx) rfl
  | cons a u ih =>
    obtain ⟨lead, init, hseg⟩ := ih
    have hlen : m.width ≤ (a :: (u ++ v)).length := by
      rw [List.length_cons, List.length_append]
      omega
    -- whether a mark begins here is settled before `x`
    have hsame : ∀ x, m.starts (a :: (u ++ (v ++ x))) = m.starts (a :: (u ++ v)) := by
      intro x
      have happ := m.starts_append x hlen
      rwa [List.cons_append, List.append_assoc] at happ
    cases hs : m.starts (a :: (u ++ v)) with
    | true =>
      refine ⟨[], (a :: lead) :: init, fun x => ?_⟩
      rw [List.cons_append, segments, if_pos ((hsame x).trans hs), hseg]
      rfl
    | false =>
      refine ⟨a :: lead, init, fun x => ?_⟩
      rw [List.cons_append, segments, if_neg (by rw [hsame, hs]; exact Bool.false_ne_true), hseg]

/-- A list whose last segment grows keeps the segments before it. -/
theorem segments_grow {l lead last : List α} {init : List (List α)} (h : m.segments l = (lead, init ++ [last]))
    (x : List α) : m.segments (l ++ x) = (lead, init ++ (m.segments (last ++ x)).2) := by
  have hmem : last ∈ (m.segments l).2 := by
    rw [h]
    exact List.mem_append_right _ (List.mem_singleton.mpr rfl)
  have hsingle := m.single_of_mem_segments hmem
  have hl : l = (lead ++ init.flatten) ++ last := by
    have hflat := m.segments_flatten l
    rw [h, List.flatten_append] at hflat
    simpa using hflat.symm
  obtain ⟨lead', init', hseg⟩ := m.segments_append (lead ++ init.flatten) hsingle.1
  have hnil := hseg []
  rw [List.append_nil, ← hl, h, m.segments_single hsingle, Prod.mk.injEq] at hnil
  obtain ⟨hlead, hinit⟩ := hnil
  rw [hl, List.append_assoc, hseg, ← hlead, List.append_cancel_right hinit]

end Marks
