import Mathlib.Data.Int.Basic
import Mathlib.Tactic.Ring

/-!
# Token buckets

A bucket holds a balance that may go below zero, is refilled at `rate` tokens for every `unit` of time up to a
ceiling, and is charged only while its balance is positive.  `Bucket` watches one window: when it opened, the time
of the last refill, and the charges made in it, newest first.  Over every window the charges but the last are paid
for by a full bucket and what the rate brings in (`Conforms.charged_le`), whatever the sizes of the charges.

Where each refill rounds down, what comes in over a time depends on how it is cut into intervals (`accrued`): at most
what the whole time brings in, at least what its single ticks bring in, and both are reached.
-/

structure Bucket where
  balance : Int
  opened : Nat
  clock : Nat
  charges : List Nat

namespace Bucket

/-- What the rate brings in from the opening of the window to the last refill. -/
def earned (rate unit : Nat) (b : Bucket) : Nat := rate * (b.clock - b.opened) / unit

/-- Every token spent or still in the bucket was there when the window opened or has been earned, and the newest
charge found something in the bucket. -/
structure Conforms (rate unit burst : Nat) (b : Bucket) : Prop where
  opened : b.opened ≤ b.clock
  balance : b.balance ≤ burst
  spent : b.charges.sum + b.balance ≤ burst + b.earned rate unit
  paid : b.charges.tail.sum ≤ burst + b.earned rate unit

variable {rate unit burst : Nat} {b : Bucket}

/-- A window opens. -/
theorem Conforms.open {balance : Int} (h : balance ≤ burst) (clock : Nat) :
    Conforms rate unit burst { balance, opened := clock, clock, charges := [] } where
  opened := Nat.le_refl _
  balance := h
  spent := by simp only [List.sum_nil]; omega
  paid := Nat.zero_le _

private theorem earned_add (rate unit : Nat) (hopened : b.opened ≤ b.clock) {now : Nat} (hnow : b.clock ≤ now) :
    b.earned rate unit + rate * (now - b.clock) / unit ≤ { b with clock := now }.earned rate unit := by
  have hsplit : rate * (now - b.opened) = rate * (b.clock - b.opened) + rate * (now - b.clock) := by
    rw [← Nat.mul_add]
    congr 1
    omega
  unfold earned
  rw [hsplit]
  exact Nat.div_add_div_le_add_div

/-- A refill adds at most what the rate brings in since the last one, and never lifts the balance over the ceiling. -/
theorem Conforms.refill (h : Conforms rate unit burst b) {now : Nat} (hnow : b.clock ≤ now) {balance : Int}
    {added : Nat} (hburst : balance ≤ burst) (hbalance : balance ≤ b.balance + added)
    (hadded : added ≤ rate * (now - b.clock) / unit) : Conforms rate unit burst { b with balance, clock := now } := by
  have hearned := earned_add rate unit h.opened hnow
  refine ⟨Nat.le_trans h.opened hnow, hburst, ?_, ?_⟩
  · have := h.spent
    show (b.charges.sum : Int) + balance ≤ burst + ({ b with clock := now } : Bucket).earned rate unit
    omega
  · have := h.paid
    show b.charges.tail.sum ≤ burst + ({ b with clock := now } : Bucket).earned rate unit
    omega

/-- A charge of any size is made while the balance is positive. -/
theorem Conforms.charge (h : Conforms rate unit burst b) (hpos : 0 < b.balance) (amount : Nat) :
    Conforms rate unit burst { b with balance := b.balance - amount, charges := amount :: b.charges } := by
  have hspent := h.spent
  have hbalance := h.balance
  refine ⟨h.opened, ?_, ?_, ?_⟩
  · show b.balance - amount ≤ burst
    omega
  · show ((amount :: b.charges).sum : Int) + (b.balance - amount) ≤ burst + b.earned rate unit
    rw [List.sum_cons]
    omega
  · show b.charges.sum ≤ burst + b.earned rate unit
    omega

/-- The charges of a window are paid for but for the newest. -/
theorem Conforms.charged_le (h : Conforms rate unit burst b) :
    b.charges.sum ≤ burst + b.earned rate unit + b.charges.headD 0 := by
  have hpaid := h.paid
  cases hc : b.charges with
  | nil => exact Nat.zero_le _
  | cons amount charges =>
    rw [hc, List.tail_cons] at hpaid
    rw [List.sum_cons, List.headD_cons]
    omega

/-! ### Refills that round down -/

/-- What comes in over a row of intervals, rounded down at the end of each. -/
def accrued (rate unit : Nat) (intervals : List Nat) : Nat := (intervals.map fun d => rate * d / unit).sum

theorem accrued_cons (rate unit d : Nat) (intervals : List Nat) :
    accrued rate unit (d :: intervals) = rate * d / unit + accrued rate unit intervals := by
  rw [accrued, List.map_cons, List.sum_cons, accrued]

theorem accrued_le (rate unit : Nat) (intervals : List Nat) :
    accrued rate unit intervals ≤ rate * intervals.sum / unit := by
  induction intervals with
  | nil => exact Nat.zero_le _
  | cons d intervals ih =>
    rw [accrued_cons, List.sum_cons, Nat.mul_add]
    exact Nat.le_trans (Nat.add_le_add_left ih _) Nat.div_add_div_le_add_div

theorem le_accrued (rate : Nat) {unit : Nat} (hunit : 0 < unit) (intervals : List Nat) :
    rate / unit * intervals.sum ≤ accrued rate unit intervals := by
  induction intervals with
  | nil => exact Nat.le_refl _
  | cons d intervals ih =>
    have hd : rate / unit * d ≤ rate * d / unit := by
      rw [Nat.le_div_iff_mul_le hunit, Nat.mul_right_comm]
      exact Nat.mul_le_mul_right d (Nat.div_mul_le_self rate unit)
    rw [accrued_cons, List.sum_cons, Nat.mul_add]
    exact Nat.add_le_add hd ih

theorem accrued_ticks (rate unit n : Nat) : accrued rate unit (List.replicate n 1) = rate / unit * n := by
  induction n with
  | zero => rfl
  | succ n ih => rw [List.replicate_succ, accrued_cons, ih, Nat.mul_one, Nat.mul_succ, Nat.add_comm]

/-- The whole time brings in what its ticks do and what their remainders add up to. -/
theorem mul_div_eq_ticks_add (rate : Nat) {unit : Nat} (hunit : 0 < unit) (n : Nat) :
    rate * n / unit = rate / unit * n + rate % unit * n / unit := by
  have hsplit : rate * n = rate % unit * n + rate / unit * n * unit := by
    have := Nat.div_add_mod rate unit
    calc rate * n = (unit * (rate / unit) + rate % unit) * n := by rw [this]
      _ = rate % unit * n + rate / unit * n * unit := by ring
  rw [hsplit, Nat.add_mul_div_right _ _ hunit, Nat.add_comm]

/-- The balance after refills at the ends of the intervals: cut off at the ceiling as soon as any time has passed. -/
def settled (rate unit : Nat) (burst balance : Int) (intervals : List Nat) : Int :=
  if intervals.sum = 0 then balance else min (balance + accrued rate unit intervals) burst

/-- The cut at the ceiling can wait for the last refill. -/
theorem settled_cons (rate unit : Nat) (burst balance : Int) (d : Nat) (intervals : List Nat) :
    settled rate unit burst (if d = 0 then balance else min (balance + (rate * d / unit : Nat)) burst) intervals =
      settled rate unit burst balance (d :: intervals) := by
  unfold settled
  rw [List.sum_cons, accrued_cons]
  by_cases hd : d = 0
  · subst hd
    rw [if_pos rfl, Nat.zero_add, Nat.mul_zero, Nat.zero_div, Nat.zero_add]
  · rw [if_neg hd, if_neg (show ¬ d + intervals.sum = 0 by omega)]
    by_cases hsum : intervals.sum = 0
    · have hnone := accrued_le rate unit intervals
      rw [hsum, Nat.mul_zero, Nat.zero_div] at hnone
      rw [if_pos hsum]
      omega
    · rw [if_neg hsum]
      omega

/-- However the time is cut, the balance lies between those after refills at every tick and after one at the end. -/
theorem settled_between (rate : Nat) {unit : Nat} (hunit : 0 < unit) (burst balance : Int) {intervals : List Nat}
    (hpast : intervals.sum ≠ 0) :
    min (balance + (rate / unit * intervals.sum : Nat)) burst ≤ settled rate unit burst balance intervals ∧
      settled rate unit burst balance intervals ≤ min (balance + (rate * intervals.sum / unit : Nat)) burst := by
  have hle := accrued_le rate unit intervals
  have hge := le_accrued rate hunit intervals
  rw [settled, if_neg hpast]
  omega

theorem settled_once (rate unit : Nat) (burst balance : Int) {n : Nat} (hpast : n ≠ 0) :
    settled rate unit burst balance [n] = min (balance + (rate * n / unit : Nat)) burst := by
  rw [settled, List.sum_singleton, if_neg hpast, accrued, List.map_singleton, List.sum_singleton]

theorem settled_ticks (rate unit : Nat) (burst balance : Int) {n : Nat} (hpast : n ≠ 0) :
    settled rate unit burst balance (List.replicate n 1) = min (balance + (rate / unit * n : Nat)) burst := by
  have hsum : (List.replicate n 1).sum = n := by rw [List.sum_replicate_nat, Nat.mul_one]
  rw [settled, hsum, if_neg hpast, accrued_ticks]

/-! ### Waits that round down -/

/-- The wait for a deficit, rounded down, less some time that does not count, brings the deficit in but for less than
`margin`, exactly if what the rounding and the lost time take off is below the margin by a whole unit. -/
theorem wait_covers_iff {rate unit margin deficit : Nat} (lost : Nat) (hrate : 0 < rate) (hunit : 0 < unit)
    (hmargin : 0 < margin) (hdeficit : margin ≤ deficit) :
    deficit < margin + rate * (deficit * unit / rate - lost) / unit ↔
      deficit * unit % rate + rate * lost ≤ (margin - 1) * unit := by
  have hsplit := Nat.div_add_mod (deficit * unit) rate
  have hmod := Nat.mod_lt (deficit * unit) hrate
  have hsub : rate * (deficit * unit / rate - lost) = rate * (deficit * unit / rate) - rate * lost := Nat.mul_sub ..
  have hbelow : (deficit - margin + 1) * unit + (margin - 1) * unit = deficit * unit := by
    rw [← Nat.add_mul]
    congr 1
    omega
  have hone : 0 < (deficit - margin + 1) * unit := Nat.mul_pos (Nat.succ_pos _) hunit
  have hcover : deficit < margin + rate * (deficit * unit / rate - lost) / unit ↔
      deficit - margin + 1 ≤ rate * (deficit * unit / rate - lost) / unit := by omega
  rw [hcover, Nat.le_div_iff_mul_le hunit, hsub]
  omega

end Bucket
