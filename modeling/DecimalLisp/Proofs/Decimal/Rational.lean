import DecimalLisp.Decimal.Arithmetic
import DecimalLisp.Proofs.Decimal.Digits
import Mathlib.Algebra.Order.Field.Power
import Mathlib.Data.Int.Log
import Mathlib.Data.Rat.Floor
import Mathlib.Tactic.FieldSimp
import Mathlib.Tactic.Linarith
import Mathlib.Tactic.Positivity
import Mathlib.Tactic.Ring

/-!
# Values of numbers

The rational that a number stands for. Exact sums, products and negatives are those of
rationals, and the exponent of a number's first digit is the decimal logarithm of its size.
-/

namespace DecimalLisp.Decimal

/-- Minus one for a number with a minus, one for another. -/
def sign (x : Decimal) : ℚ := if x.negative then -1 else 1

/-- The value of a number. -/
def toRat (x : Decimal) : ℚ := x.sign * (x.coeff * 10 ^ x.exp)

/-- Ten to an integer is positive. -/
theorem ten_zpow_pos (k : ℤ) : (0 : ℚ) < 10 ^ k := zpow_pos (by norm_num) k

/-- A power of ten with an exponent that is no less than another is a multiple of it. -/
theorem ten_zpow_mul (k : ℕ) (e : ℤ) : (10 : ℚ) ^ k * 10 ^ e = 10 ^ (e + k) := by
  rw [zpow_add₀ (by norm_num), zpow_natCast, mul_comm]

/-- A multiple of a power of ten is a multiple of every lower one. -/
theorem mul_ten_zpow_eq (n : ℤ) {k e : ℤ} (h : k ≤ e) :
    (n : ℚ) * 10 ^ e = ((n * 10 ^ (e - k).toNat : ℤ) : ℚ) * 10 ^ k := by
  have he : k + ((e - k).toNat : ℤ) = e := by omega
  push_cast
  rw [mul_assoc, ten_zpow_mul, he]

/-- A sign undoes itself. -/
theorem sign_mul_self (x : Decimal) : x.sign * x.sign = 1 := by
  unfold sign
  split <;> norm_num

/-- Dividing by a sign multiplies by it. -/
theorem div_sign (q : ℚ) (x : Decimal) : q / x.sign = q * x.sign := by
  unfold sign
  split <;> ring

theorem abs_sign (x : Decimal) : |x.sign| = 1 := by
  unfold sign
  split <;> norm_num

/-- The size of a number does not depend on its sign. -/
theorem abs_toRat (x : Decimal) : |x.toRat| = x.coeff * 10 ^ x.exp := by
  have hp := ten_zpow_pos x.exp
  rw [toRat, abs_mul, abs_sign, one_mul, abs_of_nonneg (by positivity)]

/-- A number is its size with its sign. -/
theorem toRat_eq_sign_mul (x : Decimal) : x.toRat = x.sign * |x.toRat| := by
  rw [abs_toRat]
  rfl

/-- Only a coefficient of zero gives the value zero. -/
theorem toRat_eq_zero_iff {x : Decimal} : x.toRat = 0 ↔ x.coeff = 0 := by
  have hp := ten_zpow_pos x.exp
  rw [← abs_eq_zero, abs_toRat, mul_eq_zero, Nat.cast_eq_zero]
  exact or_iff_left hp.ne'

theorem abs_toRat_pos {x : Decimal} (h : x.coeff ≠ 0) : 0 < |x.toRat| :=
  abs_pos.mpr fun hz => h (toRat_eq_zero_iff.mp hz)

theorem toRat_negate (x : Decimal) : x.negate.toRat = -x.toRat := by
  unfold toRat sign negate
  cases x.negative <;> simp

theorem toRat_ofNat (n : ℕ) : (ofNat n).toRat = n := by
  simp [toRat, sign, ofNat]

/-- The first digit stands at the adjusted exponent. -/
theorem zpow_adjusted_le {x : Decimal} (h : x.coeff ≠ 0) : 10 ^ x.adjusted ≤ |x.toRat| := by
  have hc : ((10 ^ (digitCount x.coeff - 1) : ℕ) : ℚ) ≤ x.coeff := by
    exact_mod_cast pow_digitCount_le h
  have hd := one_le_digitCount x.coeff
  have he : x.adjusted = x.exp + ((digitCount x.coeff - 1 : ℕ) : ℤ) := by
    unfold adjusted
    omega
  rw [abs_toRat, he, ← ten_zpow_mul]
  have hp := ten_zpow_pos x.exp
  push_cast at hc
  exact mul_le_mul_of_nonneg_right hc hp.le

/-- No digit stands above the adjusted exponent. -/
theorem abs_toRat_lt (x : Decimal) : |x.toRat| < 10 ^ (x.adjusted + 1) := by
  have hc : (x.coeff : ℚ) < ((10 ^ digitCount x.coeff : ℕ) : ℚ) := by
    exact_mod_cast lt_pow_digitCount x.coeff
  have he : x.adjusted + 1 = x.exp + (digitCount x.coeff : ℤ) := by
    unfold adjusted
    omega
  rw [abs_toRat, he, ← ten_zpow_mul]
  have hp := ten_zpow_pos x.exp
  push_cast at hc
  exact mul_lt_mul_of_pos_right hc hp

/-- The logarithm of a size bounds the powers of ten that it reaches. -/
theorem le_log_iff {q : ℚ} (hq : 0 < q) {e : ℤ} : e ≤ Int.log 10 q ↔ 10 ^ e ≤ q := by
  have h := Int.zpow_le_iff_le_log (b := 10) (by norm_num) hq (x := e)
  exact_mod_cast h.symm

/-- The adjusted exponent is the logarithm of the size. -/
theorem log_abs_toRat {x : Decimal} (h : x.coeff ≠ 0) : Int.log 10 |x.toRat| = x.adjusted := by
  have hpos := abs_toRat_pos h
  have low := (le_log_iff hpos).mpr (zpow_adjusted_le h)
  have high : ¬ x.adjusted + 1 ≤ Int.log 10 |x.toRat| := by
    rw [le_log_iff hpos]
    exact not_le.mpr (abs_toRat_lt x)
  omega

/-- A coefficient that is padded down to a smaller exponent keeps its value. -/
theorem padded_zpow (n : ℕ) {e m : ℤ} (h : m ≤ e) :
    ((padded n (e - m).toNat : ℕ) : ℚ) * 10 ^ m = n * 10 ^ e := by
  rw [padded_eq]
  exact_mod_cast (mul_ten_zpow_eq n h).symm

/-- The exact sum has the value of the sum. -/
theorem toRat_exactSum (x y : Decimal) : (exactSum x y).toRat = x.toRat + y.toRat := by
  have hx := padded_zpow x.coeff (min_le_left x.exp y.exp)
  have hy := padded_zpow y.coeff (min_le_right x.exp y.exp)
  unfold exactSum toRat
  dsimp only
  rw [← hx, ← hy]
  generalize padded x.coeff (x.exp - min x.exp y.exp).toNat = m
  generalize padded y.coeff (y.exp - min x.exp y.exp).toNat = n
  split
  · next same =>
    have hs : y.sign = x.sign := by simp only [sign, same]
    change x.sign * (((m + n : ℕ) : ℚ) * _) = _
    rw [hs]
    push_cast
    ring
  · next apart =>
    have hs : y.sign = -x.sign := by
      unfold sign
      cases hx : x.negative <;> cases hy : y.negative <;> simp_all
    split
    · next equal =>
      rw [hs, equal]
      simp
    · split
      · next less =>
        change x.sign * (((m - n : ℕ) : ℚ) * _) = _
        rw [hs, Nat.cast_sub less.le]
        ring
      · next more =>
        have hle : m ≤ n := Nat.le_of_not_lt more
        change y.sign * (((n - m : ℕ) : ℚ) * _) = _
        rw [hs, Nat.cast_sub hle]
        ring

/-- The exact product has the value of the product. -/
theorem toRat_exactProduct (x y : Decimal) :
    (exactProduct x y).toRat = x.toRat * y.toRat := by
  unfold exactProduct toRat sign
  dsimp only
  rw [zpow_add₀ (by norm_num)]
  cases x.negative <;> cases y.negative <;> simp <;> ring

end DecimalLisp.Decimal
