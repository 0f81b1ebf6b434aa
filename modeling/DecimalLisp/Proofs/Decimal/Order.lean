import DecimalLisp.Decimal.Order
import DecimalLisp.Proofs.Decimal.Rational
import Mathlib.Order.Compare

/-!
# Order of values and of rationals

Comparison of two numbers is comparison of the rationals that they stand for. The digits and
exponents in which it is carried out do not show in what it gives.
-/

namespace DecimalLisp.Decimal

/-- A first digit at a higher exponent makes the larger size. -/
theorem abs_toRat_lt_of_adjusted_lt {x y : Decimal} (hy : y.coeff ≠ 0)
    (h : x.adjusted < y.adjusted) : |x.toRat| < |y.toRat| :=
  calc |x.toRat| < 10 ^ (x.adjusted + 1) := abs_toRat_lt x
    _ ≤ 10 ^ y.adjusted := zpow_le_zpow_right₀ (by norm_num) h
    _ ≤ |y.toRat| := zpow_adjusted_le hy

/-- Multiples of one power of ten compare as their coefficients. -/
theorem compare_mul_ten_zpow (m n : ℕ) (e : ℤ) :
    (compare m n).Compares ((m : ℚ) * 10 ^ e) (n * 10 ^ e) := by
  have hp := ten_zpow_pos e
  rcases lt_trichotomy m n with h | rfl | h
  · have lt : (m : ℚ) < n := by exact_mod_cast h
    rw [compare_lt_iff_lt.mpr h]
    exact mul_lt_mul_of_pos_right lt hp
  · rw [compare_eq_iff_eq.mpr rfl]
    exact rfl
  · have lt : (n : ℚ) < m := by exact_mod_cast h
    rw [compare_gt_iff_gt.mpr h]
    exact mul_lt_mul_of_pos_right lt hp

/-- The size of a number as a multiple of a power of ten that its last digit reaches. -/
theorem abs_toRat_eq_tenTo {x : Decimal} {e : ℤ} (h : e ≤ x.exp) :
    |x.toRat| = (x.coeff * tenTo (x.exp - e).toNat : ℕ) * 10 ^ e := by
  rw [abs_toRat, tenTo_eq]
  exact_mod_cast mul_ten_zpow_eq x.coeff h

/-- Sizes of numbers other than zero compare as the sizes of their values. -/
theorem compareSize_compares {x y : Decimal} (hx : x.coeff ≠ 0) (hy : y.coeff ≠ 0) :
    (x.compareSize y).Compares |x.toRat| |y.toRat| := by
  unfold compareSize
  rcases lt_trichotomy x.adjusted y.adjusted with h | h | h
  · rw [compare_lt_iff_lt.mpr h]
    exact abs_toRat_lt_of_adjusted_lt hy h
  · rw [compare_eq_iff_eq.mpr h]
    dsimp only
    rw [abs_toRat_eq_tenTo (min_le_left x.exp y.exp), abs_toRat_eq_tenTo (min_le_right x.exp y.exp)]
    exact compare_mul_ten_zpow _ _ _
  · rw [compare_gt_iff_gt.mpr h]
    exact abs_toRat_lt_of_adjusted_lt hx h

theorem toRat_of_not_negative {x : Decimal} (h : x.negative = false) : x.toRat = |x.toRat| := by
  rw [toRat_eq_sign_mul, sign, h, if_neg Bool.false_ne_true, one_mul, abs_abs]

theorem toRat_of_negative {x : Decimal} (h : x.negative = true) : x.toRat = -|x.toRat| := by
  rw [toRat_eq_sign_mul, sign, h, if_pos rfl, neg_one_mul, abs_neg, abs_abs]

/-- A number other than zero lies on the side of zero that its sign says. -/
theorem toRat_pos {x : Decimal} (h : x.coeff ≠ 0) (plus : x.negative = false) : 0 < x.toRat := by
  rw [toRat_of_not_negative plus]
  exact abs_toRat_pos h

theorem toRat_neg {x : Decimal} (h : x.coeff ≠ 0) (minus : x.negative = true) : x.toRat < 0 := by
  rw [toRat_of_negative minus]
  exact neg_lt_zero.mpr (abs_toRat_pos h)

/-- Numbers of one value other than zero have one sign. -/
theorem negative_congr {x y : Decimal} (hx : x.coeff ≠ 0) (hy : y.coeff ≠ 0)
    (h : x.toRat = y.toRat) : x.negative = y.negative := by
  cases sx : x.negative <;> cases sy : y.negative
  · rfl
  · exact absurd h ((toRat_neg hy sy).trans (toRat_pos hx sx)).ne'
  · exact absurd h ((toRat_neg hx sx).trans (toRat_pos hy sy)).ne
  · rfl

/-- Orders are turned round by a minus on both sides. -/
theorem compares_neg {o : Ordering} {q r : ℚ} (h : o.Compares q r) : o.Compares (-r) (-q) := by
  cases o with
  | lt => exact neg_lt_neg_iff.mpr h
  | eq => exact (congrArg Neg.neg h).symm
  | gt => exact neg_lt_neg_iff.mpr h

/-- Numbers compare as the rationals that they stand for. -/
theorem compareValue_compares (x y : Decimal) :
    (x.compareValue y).Compares x.toRat y.toRat := by
  have zero : ∀ {z : Decimal}, z.isZero = true → z.toRat = 0 := fun h =>
    toRat_eq_zero_iff.mpr (beq_iff_eq.mp h)
  have coeff : ∀ {z : Decimal}, z.isZero = false → z.coeff ≠ 0 := fun h =>
    beq_eq_false_iff_ne.mp h
  unfold compareValue
  cases hx : x.isZero <;> cases hy : y.isZero <;> dsimp only
  · -- Two numbers other than zero are told apart by their signs first.
    cases sx : x.negative <;> cases sy : y.negative <;> dsimp only
    · rw [toRat_of_not_negative sx, toRat_of_not_negative sy]
      exact compareSize_compares (coeff hx) (coeff hy)
    · exact (toRat_neg (coeff hy) sy).trans (toRat_pos (coeff hx) sx)
    · exact (toRat_neg (coeff hx) sx).trans (toRat_pos (coeff hy) sy)
    · rw [toRat_of_negative sx, toRat_of_negative sy]
      exact compares_neg (compareSize_compares (coeff hy) (coeff hx))
  · rw [zero hy]
    cases sx : x.negative
    · exact toRat_pos (coeff hx) sx
    · exact toRat_neg (coeff hx) sx
  · rw [zero hx]
    cases sy : y.negative
    · exact toRat_pos (coeff hy) sy
    · exact toRat_neg (coeff hy) sy
  · exact (zero hx).trans (zero hy).symm

/-- What comparison gives depends on the values alone. -/
theorem compareValue_congr {x x' y y' : Decimal} (hx : x.toRat = x'.toRat)
    (hy : y.toRat = y'.toRat) : x.compareValue y = x'.compareValue y' := by
  have first := compareValue_compares x y
  rw [hx, hy] at first
  exact first.inj (compareValue_compares x' y')

end DecimalLisp.Decimal
