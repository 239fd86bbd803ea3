import Mathlib

/-!
# Rounding, halves to even

`roundHalfEven` rounds to an integer, on a floor ring. What its users need: it
moves a number by at most a half, it is monotone, and it commutes with shifts by
even integers.

`toPrecision p x` is the number of `p` significant bits nearest to `x`, the even
one of two equally near; the exponent is not bounded. It is monotone, keeps the
powers of two, and reaches a number of `p` bits with an even last bit exactly from
half a unit in the last place below it on (`le_toPrecision_iff`).
-/

namespace Rounding

variable {K : Type*} [Field K] [LinearOrder K] [FloorRing K]

/-- The nearest integer, the even one of two equally near. -/
def roundHalfEven (x : K) : ℤ :=
  if x - ⌊x⌋ < 1 / 2 then ⌊x⌋
  else if 1 / 2 < x - ⌊x⌋ then ⌊x⌋ + 1
  else if Even ⌊x⌋ then ⌊x⌋ else ⌊x⌋ + 1

theorem floor_le_roundHalfEven (x : K) : ⌊x⌋ ≤ roundHalfEven x := by
  unfold roundHalfEven
  split_ifs <;> omega

theorem roundHalfEven_le_floor_add_one (x : K) : roundHalfEven x ≤ ⌊x⌋ + 1 := by
  unfold roundHalfEven
  split_ifs <;> omega

variable [IsStrictOrderedRing K]

theorem roundHalfEven_le_add_half (x : K) : (roundHalfEven x : K) ≤ x + 1 / 2 := by
  have hfloor := Int.floor_le x
  unfold roundHalfEven
  split_ifs with hdown hup heven
  · linarith
  · push_cast
    linarith
  · linarith
  · push_cast
    linarith

theorem sub_half_le_roundHalfEven (x : K) : x - 1 / 2 ≤ roundHalfEven x := by
  have hfloor := Int.lt_floor_add_one x
  unfold roundHalfEven
  split_ifs with hdown hup heven
  · linarith
  · push_cast
    linarith
  · linarith
  · push_cast
    linarith

/-- Rounding moves a number by at most a half. -/
theorem abs_roundHalfEven_sub_le (x : K) : |(roundHalfEven x : K) - x| ≤ 1 / 2 := by
  have hup := roundHalfEven_le_add_half x
  have hdown := sub_half_le_roundHalfEven x
  rw [abs_sub_le_iff]
  exact ⟨by linarith, by linarith⟩

theorem roundHalfEven_intCast (n : ℤ) : roundHalfEven (n : K) = n := by
  simp [roundHalfEven]

theorem roundHalfEven_mono {x y : K} (h : x ≤ y) : roundHalfEven x ≤ roundHalfEven y := by
  rcases (Int.floor_mono h).lt_or_eq with hlt | heq
  · exact (roundHalfEven_le_floor_add_one x).trans ((Int.add_one_le_of_lt hlt).trans (floor_le_roundHalfEven y))
  · -- both lie in one unit interval, where the rule is a threshold
    have hfract : x - ⌊x⌋ ≤ y - ⌊y⌋ := by
      rw [heq]
      exact sub_le_sub_right h _
    unfold roundHalfEven
    rw [heq] at hfract ⊢
    split_ifs <;> first | omega | (exfalso; linarith)

theorem roundHalfEven_add_even (x : K) {n : ℤ} (hn : Even n) : roundHalfEven (x + n) = roundHalfEven x + n := by
  have hfract : x + n - (⌊x⌋ + n : ℤ) = x - ⌊x⌋ := by
    push_cast
    ring
  have heven : Even (⌊x⌋ + n) ↔ Even ⌊x⌋ := by
    rw [Int.even_add]
    exact iff_true_right hn
  unfold roundHalfEven
  rw [Int.floor_add_intCast, hfract]
  simp only [heven]
  split_ifs <;> ring

/-! ## To a number of significant bits -/

/-- The unit in the last place of `p` significant bits. -/
def ulp (p : ℕ) (x : K) : K := 2 ^ (Int.log 2 |x| + 1 - p)

/-- `x` in `p` significant bits. -/
def toPrecision (p : ℕ) (x : K) : K := roundHalfEven (x / ulp p x) * ulp p x

theorem ulp_pos (p : ℕ) (x : K) : 0 < ulp p x := by
  unfold ulp
  positivity

@[simp] theorem toPrecision_zero (p : ℕ) : toPrecision p (0 : K) = 0 := by
  have hzero : roundHalfEven (0 : K) = 0 := by exact_mod_cast roundHalfEven_intCast (K := K) 0
  rw [toPrecision, zero_div, hzero, Int.cast_zero, zero_mul]

theorem roundHalfEven_le {x : K} {n : ℤ} (h : x ≤ n) : roundHalfEven x ≤ n :=
  (roundHalfEven_mono h).trans_eq (roundHalfEven_intCast n)

theorem le_roundHalfEven {x : K} {n : ℤ} (h : n ≤ x) : n ≤ roundHalfEven x :=
  (roundHalfEven_intCast (K := K) n).symm.trans_le (roundHalfEven_mono h)

theorem toPrecision_nonneg {p : ℕ} {x : K} (h : 0 ≤ x) : 0 ≤ toPrecision p x := by
  have hround : (0 : ℤ) ≤ roundHalfEven (x / ulp p x) :=
    le_roundHalfEven (by simpa using div_nonneg h (ulp_pos p x).le)
  exact mul_nonneg (by exact_mod_cast hround) (ulp_pos p x).le

omit [IsStrictOrderedRing K] in
/-- `p` bits from the unit in the last place on. -/
theorem two_pow_mul_zpow (p : ℕ) (e : ℤ) : (2 : K) ^ p * 2 ^ (e - p) = 2 ^ e := by
  rw [← zpow_natCast, ← zpow_add₀ two_ne_zero]
  congr 1
  omega

/-- A number is below the next power of two, and stays there or reaches it. -/
theorem toPrecision_le_zpow {p : ℕ} {x : K} (h : 0 < x) :
    toPrecision p x ≤ 2 ^ (Int.log 2 x + 1) := by
  have hlt : x < 2 ^ (Int.log 2 x + 1) := by exact_mod_cast Int.lt_zpow_succ_log_self Nat.one_lt_two x
  have hulp : ulp p x = 2 ^ (Int.log 2 x + 1 - p) := by rw [ulp, abs_of_pos h]
  have hround : roundHalfEven (x / ulp p x) ≤ 2 ^ p := by
    apply roundHalfEven_le
    rw [div_le_iff₀ (ulp_pos p x), hulp]
    push_cast
    rw [two_pow_mul_zpow]
    exact hlt.le
  calc toPrecision p x ≤ (2 ^ p : ℤ) * ulp p x :=
        mul_le_mul_of_nonneg_right (by exact_mod_cast hround) (ulp_pos p x).le
    _ = 2 ^ (Int.log 2 x + 1) := by
        rw [hulp]
        push_cast
        exact two_pow_mul_zpow p _

theorem zpow_le_toPrecision {p : ℕ} (hp : 1 ≤ p) {x : K} (h : 0 < x) :
    2 ^ Int.log 2 x ≤ toPrecision p x := by
  have hle : 2 ^ Int.log 2 x ≤ x := by exact_mod_cast Int.zpow_log_le_self Nat.one_lt_two h
  have hulp : ulp p x = 2 ^ (Int.log 2 x - (p - 1 : ℕ)) := by
    rw [ulp, abs_of_pos h]
    congr 1
    omega
  have hround : 2 ^ (p - 1) ≤ roundHalfEven (x / ulp p x) := by
    apply le_roundHalfEven
    rw [le_div_iff₀ (ulp_pos p x), hulp]
    push_cast
    rw [two_pow_mul_zpow]
    exact hle
  calc (2 : K) ^ Int.log 2 x = (2 ^ (p - 1) : ℤ) * ulp p x := by
        rw [hulp]
        push_cast
        exact (two_pow_mul_zpow (p - 1) _).symm
    _ ≤ toPrecision p x := mul_le_mul_of_nonneg_right (by exact_mod_cast hround) (ulp_pos p x).le

theorem toPrecision_mono {p : ℕ} (hp : 1 ≤ p) {x y : K} (hx : 0 ≤ x) (h : x ≤ y) :
    toPrecision p x ≤ toPrecision p y := by
  rcases hx.eq_or_lt with rfl | hx
  · rw [toPrecision_zero]
    exact toPrecision_nonneg h
  · have hy := hx.trans_le h
    rcases (Int.log_mono_right (b := 2) hx h).eq_or_lt with heq | hlt
    · have hulp : ulp p x = ulp p y := by rw [ulp, ulp, abs_of_pos hx, abs_of_pos hy, heq]
      rw [toPrecision, toPrecision, hulp]
      have hround := roundHalfEven_mono (div_le_div_of_nonneg_right h (ulp_pos p y).le)
      exact mul_le_mul_of_nonneg_right (by exact_mod_cast hround) (ulp_pos p y).le
    · -- a power of two stands between the two
      calc toPrecision p x ≤ 2 ^ (Int.log 2 x + 1) := toPrecision_le_zpow hx
        _ ≤ 2 ^ Int.log 2 y := zpow_le_zpow_right₀ one_le_two hlt
        _ ≤ toPrecision p y := zpow_le_toPrecision hp hy

/-- A number of `p` bits with its last bit at `2 ^ e`. -/
theorem toPrecision_of_log {p : ℕ} {e : ℤ} {x : K} (hlow : 2 ^ (e + p - 1) ≤ x) (hhigh : x < 2 ^ (e + p)) :
    toPrecision p x = roundHalfEven (x / 2 ^ e) * 2 ^ e := by
  have hpos : 0 < x := lt_of_lt_of_le (by positivity) hlow
  have hlog : Int.log 2 x = e + p - 1 := by
    apply le_antisymm
    · have := (Int.lt_zpow_iff_log_lt (b := 2) Nat.one_lt_two hpos).mp (by exact_mod_cast hhigh)
      omega
    · exact (Int.zpow_le_iff_le_log (b := 2) Nat.one_lt_two hpos).mp (by exact_mod_cast hlow)
  have hulp : ulp p x = 2 ^ e := by
    rw [ulp, abs_of_pos hpos, hlog]
    congr 1
    omega
  rw [toPrecision, hulp]

theorem toPrecision_zpow {p : ℕ} (hp : 1 ≤ p) (k : ℤ) : toPrecision p (2 ^ k : K) = 2 ^ k := by
  have hpow : (2 : K) ^ k / 2 ^ (k + 1 - p) = (2 ^ (p - 1) : ℤ) := by
    rw [← zpow_sub₀ two_ne_zero]
    push_cast
    rw [← zpow_natCast]
    congr 1
    omega
  rw [toPrecision_of_log (e := k + 1 - p) (zpow_le_zpow_right₀ one_le_two (by omega))
    (zpow_lt_zpow_right₀ one_lt_two (by omega)), hpow, roundHalfEven_intCast, ← hpow,
    div_mul_cancel₀ _ (by positivity)]

/-- An integer of no more than `p` bits is kept. -/
theorem toPrecision_natCast {p n : ℕ} (h : n < 2 ^ p) : toPrecision p (n : K) = n := by
  rcases Nat.eq_zero_or_pos n with rfl | hpos
  · rw [Nat.cast_zero, toPrecision_zero]
  have hlog : Nat.log 2 n < p := Nat.log_lt_of_lt_pow hpos.ne' h
  have hulp : ulp p (n : K) * (2 : K) ^ (p - 1 - Nat.log 2 n) = 1 := by
    rw [ulp, abs_of_nonneg n.cast_nonneg, Int.log_natCast, ← zpow_natCast, ← zpow_add₀ two_ne_zero]
    rw [show (Nat.log 2 n : ℤ) + 1 - p + (p - 1 - Nat.log 2 n : ℕ) = 0 by omega, zpow_zero]
  have hunits : (n : K) / ulp p (n : K) = ((n * 2 ^ (p - 1 - Nat.log 2 n) : ℕ) : ℤ) := by
    rw [div_eq_iff (ulp_pos p _).ne']
    push_cast
    rw [mul_assoc, mul_comm _ (ulp p _), hulp, mul_one]
  rw [toPrecision, hunits, roundHalfEven_intCast, ← hunits, div_mul_cancel₀ _ (ulp_pos p _).ne']

theorem roundHalfEven_sub_half {n : ℤ} (hn : Even n) : roundHalfEven ((n : K) - 1 / 2) = n := by
  have hfloor : ⌊(n : K) - 1 / 2⌋ = n - 1 := by
    rw [Int.floor_eq_iff]
    push_cast
    constructor <;> linarith
  have hodd : ¬ Even (n - 1) := by
    rw [Int.even_sub_one]
    exact not_not.mpr hn
  have hfract : (n : K) - 1 / 2 - (n - 1 : ℤ) = 1 / 2 := by
    push_cast
    ring
  unfold roundHalfEven
  rw [hfloor, hfract, if_neg (lt_irrefl _), if_neg (lt_irrefl _), if_neg hodd, sub_add_cancel]

/-- `n * 2 ^ e` is reached from half a unit in its last place below it on. -/
theorem le_toPrecision_iff {p : ℕ} (hp : 1 ≤ p) {n : ℤ} (hn : Even n) (hlow : 2 ^ (p - 1) < n)
    (hhigh : n ≤ 2 ^ p) (e : ℤ) {x : K} (hx : 0 ≤ x) :
    n * 2 ^ e ≤ toPrecision p x ↔ (n - 1 / 2) * 2 ^ e ≤ x := by
  have hpos : (0 : K) < 2 ^ e := by positivity
  have htop : (2 : K) ^ (e + p) = (2 ^ p : ℤ) * 2 ^ e := by
    push_cast
    rw [← zpow_natCast, ← zpow_add₀ two_ne_zero, add_comm]
  have hbottom : (2 : K) ^ (e + p - 1) = (2 ^ (p - 1) : ℤ) * 2 ^ e := by
    push_cast
    rw [← zpow_natCast, ← zpow_add₀ two_ne_zero]
    congr 1
    omega
  have hn_low : ((2 ^ (p - 1) : ℤ) : K) + 1 ≤ n := by exact_mod_cast hlow
  have hn_high : (n : K) ≤ (2 ^ p : ℤ) := by exact_mod_cast hhigh
  constructor
  · intro hle
    by_contra hlt
    rw [not_le] at hlt
    by_cases hbin : x < 2 ^ (e + p - 1)
    · -- below the binade the result stays below it
      have hres := toPrecision_mono hp hx hbin.le
      rw [toPrecision_zpow hp, hbottom] at hres
      have hstep : ((2 ^ (p - 1) : ℤ) : K) * 2 ^ e < n * 2 ^ e :=
        mul_lt_mul_of_pos_right (by linarith) hpos
      linarith
    · rw [not_lt] at hbin
      have hxtop : x < 2 ^ (e + p) := by
        rw [htop]
        refine hlt.trans (mul_lt_mul_of_pos_right (by linarith) hpos)
      rw [toPrecision_of_log hbin hxtop] at hle
      have hround := le_of_mul_le_mul_right hle hpos
      have hup := roundHalfEven_le_add_half (x / 2 ^ e)
      have hquot : x / 2 ^ e < n - 1 / 2 := by rwa [div_lt_iff₀ hpos]
      linarith
  · intro hle
    have hhalf : toPrecision p (((n : K) - 1 / 2) * 2 ^ e) = n * 2 ^ e := by
      rw [toPrecision_of_log (e := e) (by rw [hbottom]; exact mul_le_mul_of_nonneg_right (by linarith) hpos.le)
        (by rw [htop]; exact mul_lt_mul_of_pos_right (by linarith) hpos),
        mul_div_cancel_right₀ _ hpos.ne', roundHalfEven_sub_half hn]
    rw [← hhalf]
    refine toPrecision_mono hp (mul_nonneg ?_ hpos.le) hle
    have hone : (0 : K) ≤ (2 ^ (p - 1) : ℤ) := by positivity
    linarith

end Rounding
