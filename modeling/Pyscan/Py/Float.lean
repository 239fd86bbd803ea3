import Pyscan.Lib.Rounding

/-!
# Floats

Arithmetic on floats is arithmetic on rationals, each result rounded. A
definition over `[Floats]` is read in exact rationals where nothing else is
said, and in the interpreter's own floats as an instance of `binary64`.
-/

namespace Pyscan.Py

/-- The float nearest to a number. -/
class Floats where
  float : ℚ → ℚ

export Floats (float)

/-- Rationals in place of floats: nothing is rounded. -/
instance rationals : Floats := ⟨id⟩

/-- Floats of 53 significant bits. Their exponent is not bounded: no value a capture holds leaves
the range of normal numbers. -/
abbrev binary64 : Floats := ⟨Rounding.toPrecision 53⟩

/-- `a / b` -/
def truediv [Floats] (a b : ℚ) : ℚ := float (a / b)

/-- `a + b` -/
def fadd [Floats] (a b : ℚ) : ℚ := float (a + b)

@[simp] theorem rationals_float (x : ℚ) : @float rationals x = x := rfl

@[simp] theorem rationals_truediv (a b : ℚ) : @truediv rationals a b = a / b := rfl

@[simp] theorem rationals_fadd (a b : ℚ) : @fadd rationals a b = a + b := rfl

/-! ## Floats of 53 bits -/

theorem binary64_nonneg {x : ℚ} (h : 0 ≤ x) : 0 ≤ @float binary64 x :=
  Rounding.toPrecision_nonneg h

theorem binary64_zpow (k : ℤ) : @float binary64 (2 ^ k) = 2 ^ k :=
  Rounding.toPrecision_zpow (by decide) k

theorem binary64_natCast {n : ℕ} (h : n < 2 ^ 53) : @float binary64 (n : ℚ) = n :=
  Rounding.toPrecision_natCast h

theorem binary64_mono {x y : ℚ} (hx : 0 ≤ x) (h : x ≤ y) : @float binary64 x ≤ @float binary64 y :=
  Rounding.toPrecision_mono (by decide) hx h

end Pyscan.Py
