import Pyscan.Py.Bytes
import Pyscan.Lib.Earliest

/-!
# The rate pacer

`Pacer` hands out slots one interval apart. Times are exact rationals. That the
interval is positive is a field: the constructor refuses every other rate.

Over a run of reservations, at clock readings in any order, the slots are **the
least schedule** that never fires before a reservation is made, nor twice within
an interval (`Pacer.optimal`): a lull banks nothing up, and no reservation waits
longer than it must.
-/

namespace Pyscan

open Py

structure Pacer where
  interval : ℚ
  next : ℚ
  positive : 0 < interval

namespace Pacer

/-- `Pacer(rate, start)`. -/
def new (rate start : ℚ) : Result Pacer :=
  if h : rate ≤ 0 then .error .valueError
  else .ok { interval := 1 / rate, next := start, positive := one_div_pos.mpr (not_le.mp h) }

/-- The seconds to wait from `now`, and the pacer with that slot taken. -/
def reserve (p : Pacer) (now : ℚ) : ℚ × Pacer :=
  let slot := if p.next > now then p.next else now
  (slot - now, { p with next := slot + p.interval })

theorem new_ok {rate : ℚ} (h : 0 < rate) (start : ℚ) :
    ∃ p, new rate start = .ok p ∧ p.interval = 1 / rate ∧ p.next = start := by
  unfold new
  rw [dif_neg (not_le.mpr h)]
  exact ⟨_, rfl, rfl, rfl⟩

/-- When the slot reserved at `now` fires. -/
def slot (p : Pacer) (now : ℚ) : ℚ := max p.next now

variable (p : Pacer) (now : ℚ)

theorem reserve_fst : (p.reserve now).1 = p.slot now - now := by
  unfold reserve slot
  split
  · rw [max_eq_left (le_of_lt ‹_›)]
  · rw [max_eq_right (not_lt.mp ‹_›)]

theorem reserve_next : (p.reserve now).2.next = p.slot now + p.interval := by
  unfold reserve slot
  split
  · rw [max_eq_left (le_of_lt ‹_›)]
  · rw [max_eq_right (not_lt.mp ‹_›)]

theorem next_le_slot : p.next ≤ p.slot now := le_max_left _ _

theorem add_reserve_fst : now + (p.reserve now).1 = p.slot now := by
  rw [reserve_fst, add_sub_cancel]

/-! ## Runs -/

/-- The pacer after the first `k` reservations of a run. -/
def after (p : Pacer) (readings : ℕ → ℚ) : ℕ → Pacer
  | 0 => p
  | k + 1 => ((p.after readings k).reserve (readings k)).2

/-- What the reservation `k` returns. -/
def wait (p : Pacer) (readings : ℕ → ℚ) (k : ℕ) : ℚ := ((p.after readings k).reserve (readings k)).1

/-- When the reservation `k` fires. -/
def fire (p : Pacer) (readings : ℕ → ℚ) (k : ℕ) : ℚ := readings k + p.wait readings k

variable (readings : ℕ → ℚ)

theorem fire_eq_slot (k : ℕ) : p.fire readings k = (p.after readings k).slot (readings k) :=
  add_reserve_fst _ _

theorem after_interval (k : ℕ) : (p.after readings k).interval = p.interval := by
  induction k with
  | zero => rfl
  | succ k ih => exact ih

theorem after_next (k : ℕ) :
    (p.after readings (k + 1)).next = p.fire readings k + p.interval := by
  rw [after, reserve_next, after_interval, fire_eq_slot]

theorem wait_nonneg (k : ℕ) : 0 ≤ p.wait readings k := by
  rw [wait, reserve_fst]
  exact sub_nonneg.mpr (le_max_right _ _)

/-- **A run fires at the earliest times** that keep the interval. -/
theorem fire_eq_earliest : p.fire readings = Spacing.earliest p.interval p.next readings := by
  funext k
  induction k with
  | zero => exact fire_eq_slot p readings 0
  | succ k ih => rw [fire_eq_slot, slot, after_next, ih, Spacing.earliest]

/-- **The pacer is the optimal schedule for its rate**: it never fires early, keeps the interval, lets
at most `⌊T * rate⌋ + 1` through in a window of length `T`, and is as early as that allows. -/
theorem optimal {rate : ℚ} (h : 0 < rate) (start : ℚ) (readings : ℕ → ℚ) :
    ∃ p, new rate start = .ok p ∧
      (∀ k, 0 ≤ p.wait readings k) ∧
      (∀ k, p.fire readings k + 1 / rate ≤ p.fire readings (k + 1)) ∧
      (∀ a T, {k | a ≤ p.fire readings k ∧ p.fire readings k ≤ a + T}.encard ≤
        (⌊T * rate⌋₊ + 1 : ℕ)) ∧
      IsLeast {g | Spacing.Schedule (1 / rate) start readings g} (p.fire readings) ∧
      ∀ k, p.fire readings k = max (start + k * (1 / rate))
        ((Finset.range (k + 1)).sup' Finset.nonempty_range_add_one
          fun j => readings j + ((k : ℚ) - j) * (1 / rate)) := by
  obtain ⟨p, hp, hinterval, hnext⟩ := new_ok h start
  have hpos : 0 < 1 / rate := one_div_pos.mpr h
  have hschedule := Spacing.schedule_earliest (1 / rate) start readings
  have hfire := p.fire_eq_earliest readings
  rw [hinterval, hnext] at hfire
  refine ⟨p, hp, p.wait_nonneg readings, ?_⟩
  rw [hfire]
  refine ⟨hschedule.gap, fun a T => ?_, Spacing.isLeast_earliest _ _ _, fun k => ?_⟩
  · have hwindow := Spacing.window_encard_le hpos (hschedule.apart hpos.le) a T
    rwa [div_div_eq_mul_div, div_one] at hwindow
  · rw [Spacing.earliest_eq, nsmul_eq_mul]
    refine congrArg _ (Finset.sup'_congr _ rfl fun j hj => ?_)
    have hle : j ≤ k := Nat.lt_succ_iff.mp (Finset.mem_range.mp hj)
    rw [nsmul_eq_mul, Nat.cast_sub hle]

/-- Two reservations at once, then a lull of five seconds. -/
def lull (k : ℕ) : ℚ := if k < 2 then 0 else 5

theorem optimal_lull :
    ∃ p, new 10 0 = .ok p ∧
      (∀ k, 0 ≤ p.wait lull k) ∧
      (∀ k, p.fire lull k + 1 / 10 ≤ p.fire lull (k + 1)) ∧
      (∀ a T, {k | a ≤ p.fire lull k ∧ p.fire lull k ≤ a + T}.encard ≤ (⌊T * 10⌋₊ + 1 : ℕ)) ∧
      IsLeast {g | Spacing.Schedule (1 / 10) 0 lull g} (p.fire lull) ∧
      ∀ k, p.fire lull k = max (0 + (k : ℚ) * (1 / 10))
        ((Finset.range (k + 1)).sup' Finset.nonempty_range_add_one
          fun j => lull j + ((k : ℚ) - j) * (1 / 10)) :=
  optimal (by norm_num) 0 lull

end Pacer

end Pyscan
