import Mathlib.Algebra.Order.Field.Basic
import Mathlib.Algebra.Order.Field.Power
import Mathlib.Algebra.Order.Ring.Rat
import Mathlib.Tactic.NormNum

/-!
# Decimals compared by value

`java.math.BigDecimal`: an unscaled integer and a scale, for `unscaledValue · 10^(-scale)`.
`compareTo` brings both numbers to the larger scale and compares the unscaled values there, so it
compares by value (`compareTo_neg_iff`, `compareTo_nonneg_iff`): `10000`, `10000.00` and `1E+4`
are the same number to it, although they are different objects. Java's scales are 32-bit; here
they are any integers.
-/

namespace Lib

/-- The number `unscaledValue · 10^(-scale)`, as it was written. -/
structure BigDecimal where
  unscaledValue : Int
  scale : Int
  deriving DecidableEq, Repr

namespace BigDecimal

/-- The number a decimal stands for. -/
def toRat (a : BigDecimal) : ℚ := a.unscaledValue * (10 : ℚ) ^ (-a.scale)

/-- The unscaled value at scale `s`, for `s` at least the decimal's own scale. -/
def unscaledAt (a : BigDecimal) (s : Int) : Int := a.unscaledValue * 10 ^ (s - a.scale).toNat

/-- `BigDecimal.compareTo`: `-1`, `0` or `1`. -/
def compareTo (a b : BigDecimal) : Int :=
  let s := max a.scale b.scale
  if a.unscaledAt s < b.unscaledAt s then -1
  else if a.unscaledAt s = b.unscaledAt s then 0
  else 1

theorem unscaledAt_cast {a : BigDecimal} {s : Int} (h : a.scale ≤ s) :
    (a.unscaledAt s : ℚ) = a.toRat * (10 : ℚ) ^ s := by
  have hpow : ((10 : ℚ) ^ (s - a.scale).toNat) = (10 : ℚ) ^ (-a.scale) * (10 : ℚ) ^ s := by
    rw [← zpow_natCast, Int.toNat_of_nonneg (by omega), ← zpow_add₀ (by norm_num)]
    congr 1
    omega
  unfold unscaledAt toRat
  push_cast
  rw [hpow, mul_assoc]

/-- At a common scale the unscaled values are ordered as the numbers are. -/
theorem unscaledAt_lt_iff {a b : BigDecimal} {s : Int} (ha : a.scale ≤ s) (hb : b.scale ≤ s) :
    a.unscaledAt s < b.unscaledAt s ↔ a.toRat < b.toRat := by
  rw [← @Int.cast_lt ℚ, unscaledAt_cast ha, unscaledAt_cast hb]
  exact mul_lt_mul_iff_left₀ (zpow_pos (by norm_num) s)

/-- **`compareTo` is negative iff the number is smaller.** -/
theorem compareTo_neg_iff (a b : BigDecimal) : a.compareTo b < 0 ↔ a.toRat < b.toRat := by
  rw [← unscaledAt_lt_iff (le_max_left a.scale b.scale) (le_max_right a.scale b.scale)]
  simp only [compareTo]
  split_ifs with h₁ h₂ <;> simp [h₁]

/-- **`compareTo` is nonnegative iff the number is at least as large.** -/
theorem compareTo_nonneg_iff (a b : BigDecimal) : 0 ≤ a.compareTo b ↔ b.toRat ≤ a.toRat := by
  rw [← not_lt, compareTo_neg_iff, not_lt]

end BigDecimal

end Lib
