import DecimalLisp.Proofs.Decimal.HalfEven

/-!
# Rounding of numbers

A number is rounded on its digits: those in excess are counted and rounded away, a carry
drops one more. This is shown to be the half-even rounding of the number's value. The
largest exponent is judged after the rounding, so a number overflows exactly when its
rounded value reaches the power of ten above it.
-/

namespace DecimalLisp

open Decimal

/-- A rational rounded to a precision, if the rounded one is within the range of exponents. -/
def rounding (p : Precision) (q : ℚ) : Except ArithmeticFault ℚ :=
  if 10 ^ (maxAdjusted + 1) ≤ |roundRat p q| then .error .overflow else .ok (roundRat p q)

/-- Rounding stays below the integers that the rational is below. -/
theorem roundHalfEven_le {q : ℚ} {n : ℤ} (h : q ≤ n) : roundHalfEven q ≤ n := by
  have mirror := le_roundHalfEven (q := -q) (n := -n) (by push_cast; linarith)
  rw [roundHalfEven_neg] at mirror
  omega

/-- Rounding goes past no multiple of its unit above the rational. -/
theorem roundRat_le_of_multiple {p : Precision} {q : ℚ} {n e : ℤ} (unit : unitExp p q ≤ e)
    (h : q ≤ n * 10 ^ e) : roundRat p q ≤ n * 10 ^ e := by
  have hp := ten_zpow_pos (unitExp p q)
  rw [mul_ten_zpow_eq n unit] at h ⊢
  have above := roundHalfEven_le ((div_le_iff₀ hp).mpr h)
  exact mul_le_mul_of_nonneg_right (by exact_mod_cast above) hp.le

/-- Nor does it go past one below. -/
theorem le_roundRat_of_multiple {p : Precision} {q : ℚ} {n e : ℤ} (unit : unitExp p q ≤ e)
    (h : n * 10 ^ e ≤ q) : n * 10 ^ e ≤ roundRat p q := by
  have hp := ten_zpow_pos (unitExp p q)
  rw [mul_ten_zpow_eq n unit] at h ⊢
  have below := le_roundHalfEven ((le_div_iff₀ hp).mpr h)
  exact mul_le_mul_of_nonneg_right (by exact_mod_cast below) hp.le

/-- Rounding keeps a rational on its side of zero. -/
theorem roundRat_nonneg {p : Precision} {q : ℚ} (h : 0 ≤ q) : 0 ≤ roundRat p q := by
  have zero : ((0 : ℤ) : ℚ) * 10 ^ unitExp p q = 0 := by simp
  have kept := le_roundRat_of_multiple le_rfl (zero.trans_le h)
  rwa [zero] at kept

/-- A sign can be put on before or after the rounding. -/
theorem roundHalfEven_sign_mul (x : Decimal) (q : ℚ) :
    (roundHalfEven (x.sign * q) : ℚ) = x.sign * roundHalfEven q := by
  unfold sign
  split
  · rw [neg_one_mul, neg_one_mul, roundHalfEven_neg, Int.cast_neg]
  · rw [one_mul, one_mul]

theorem roundRat_sign_mul (p : Precision) (x : Decimal) (q : ℚ) :
    roundRat p (x.sign * q) = x.sign * roundRat p q := by
  unfold sign
  split
  · rw [neg_one_mul, neg_one_mul, roundRat_neg]
  · rw [one_mul, one_mul]

theorem unitExp_abs (p : Precision) (q : ℚ) : unitExp p |q| = unitExp p q := by
  rw [unitExp, unitExp, abs_abs]

theorem abs_roundRat (p : Precision) (q : ℚ) : |roundRat p q| = roundRat p |q| := by
  have nonneg : 0 ≤ roundRat p |q| := roundRat_nonneg (abs_nonneg q)
  rcases abs_choice q with h | h
  · rw [h] at nonneg ⊢
    exact abs_of_nonneg nonneg
  · rw [h, roundRat_neg] at nonneg ⊢
    exact abs_of_nonpos (by linarith)

/-- The unit of a rational that reaches a high enough power of ten is not above its first
digit. -/
theorem unitExp_le_log {p : Precision} {q : ℚ} {e : ℤ} (he : leastExp p ≤ e)
    (h : 10 ^ e ≤ |q|) : unitExp p q ≤ Int.log 10 |q| := by
  have hlog := (le_log_iff ((ten_zpow_pos e).trans_le h)).mpr h
  have one := p.one_le
  unfold unitExp
  omega

/-- A power of ten that is reached before the rounding is reached after it. -/
theorem zpow_le_abs_roundRat {p : Precision} {q : ℚ} {e : ℤ} (he : leastExp p ≤ e)
    (h : 10 ^ e ≤ |q|) : 10 ^ e ≤ |roundRat p q| := by
  have hq : 0 < |q| := (ten_zpow_pos e).trans_le h
  have hlog := (le_log_iff hq).mpr h
  have hunit := unitExp_le_log he h
  have first : ((1 : ℤ) : ℚ) * 10 ^ Int.log 10 |q| ≤ |q| := by
    rw [Int.cast_one, one_mul]
    exact (le_log_iff hq).mp le_rfl
  rw [abs_roundRat]
  rw [← unitExp_abs] at hunit
  calc (10 : ℚ) ^ e ≤ 10 ^ Int.log 10 |q| := zpow_le_zpow_right₀ (by norm_num) hlog
    _ = ((1 : ℤ) : ℚ) * 10 ^ Int.log 10 |q| := by rw [Int.cast_one, one_mul]
    _ ≤ roundRat p |q| := le_roundRat_of_multiple hunit first

namespace Decimal

variable {p : Precision} {x : Decimal}

/-- Rounding a quotient by a power of ten on naturals is half-even rounding. -/
theorem roundQuotient_eq (n k : ℕ) :
    (roundQuotient n k : ℤ) = roundHalfEven ((n : ℚ) / (10 ^ k : ℕ)) := by
  have hu : 0 < 10 ^ k := Nat.pow_pos (by omega)
  have hu' : (0 : ℚ) < ((10 ^ k : ℕ) : ℚ) := by exact_mod_cast hu
  symm
  unfold roundQuotient
  rw [tenTo_eq]
  split
  · next short =>
    -- A number of fewer digits is less than half the unit.
    have small : 2 * n < 10 ^ k := by
      have hn := lt_pow_digitCount n
      have hk : 10 ^ (digitCount n + 1) ≤ 10 ^ k := Nat.pow_le_pow_right (by omega) short
      rw [Nat.pow_succ] at hk
      omega
    have small' : 2 * (n : ℚ) < (10 ^ k : ℕ) := by exact_mod_cast small
    have inside : |(n : ℚ) / (10 ^ k : ℕ) - ((0 : ℕ) : ℤ)| < 1 / 2 := by
      rw [Nat.cast_zero, Int.cast_zero, sub_zero, abs_of_nonneg (by positivity), div_lt_iff₀ hu']
      linarith
    exact eq_roundHalfEven inside.le fun tie => absurd tie inside.ne
  · generalize 10 ^ k = u at hu hu'
    have parts : (n : ℚ) = u * (n / u : ℕ) + (n % u : ℕ) := by
      exact_mod_cast (Nat.div_add_mod n u).symm
    have rest : ((n % u : ℕ) : ℚ) < u := by exact_mod_cast Nat.mod_lt n hu
    have quotient : (n : ℚ) / u = (n / u : ℕ) + (n % u : ℕ) / u := by
      rw [parts]
      field_simp
    dsimp only
    rw [quotient]
    generalize n / u = m
    generalize n % u = r at rest
    split
    · next up =>
      have most : (u : ℚ) ≤ 2 * r := by exact_mod_cast (by omega : u ≤ 2 * r)
      have distance : |(m : ℚ) + r / u - ((m + 1 : ℕ) : ℤ)| = 1 - r / u := by
        have hr : (r : ℚ) / u ≤ 1 := (div_le_one hu').mpr rest.le
        push_cast
        rw [abs_of_nonpos (by linarith)]
        ring
      refine eq_roundHalfEven ?_ ?_ <;> rw [distance]
      · have : (1 : ℚ) / 2 ≤ r / u := by rw [le_div_iff₀ hu']; linarith
        linarith
      · intro tie
        have half : (r : ℚ) / u = 1 / 2 := by linarith
        rw [div_eq_iff hu'.ne'] at half
        have : 2 * r = u := by exact_mod_cast (by linarith : 2 * (r : ℚ) = u)
        omega
    · next down =>
      have least : 2 * (r : ℚ) ≤ u := by exact_mod_cast (by omega : 2 * r ≤ u)
      have distance : |(m : ℚ) + r / u - ((m : ℕ) : ℤ)| = r / u := by
        push_cast
        rw [add_sub_cancel_left, abs_of_nonneg (by positivity)]
      refine eq_roundHalfEven ?_ ?_ <;> rw [distance]
      · rw [div_le_iff₀ hu']
        linarith
      · intro tie
        rw [div_eq_iff hu'.ne'] at tie
        have : 2 * r = u := by exact_mod_cast (by linarith : 2 * (r : ℚ) = u)
        omega

/-- Without a digit to round away the number is left. -/
theorem roundQuotient_zero (n : ℕ) : roundQuotient n 0 = n := by
  have whole : (n : ℚ) / (10 ^ 0 : ℕ) = (n : ℤ) := by simp
  have kept := roundQuotient_eq n 0
  rw [whole, roundHalfEven_intCast] at kept
  exact_mod_cast kept

/-- Zero is rounded to zero. -/
theorem zero_roundQuotient (k : ℕ) : roundQuotient 0 k = 0 := by
  have whole : ((0 : ℕ) : ℚ) / (10 ^ k : ℕ) = (0 : ℤ) := by simp
  have kept := roundQuotient_eq 0 k
  rw [whole, roundHalfEven_intCast] at kept
  exact_mod_cast kept

/-- A quotient of few enough digits is rounded to few enough, or to the next power of ten. -/
theorem roundQuotient_le {n k d : ℕ} (h : n < 10 ^ (d + k)) : roundQuotient n k ≤ 10 ^ d := by
  have hu : (0 : ℚ) < (10 ^ k : ℕ) := by positivity
  have bound : (n : ℚ) / (10 ^ k : ℕ) ≤ ((10 ^ d : ℕ) : ℤ) := by
    rw [div_le_iff₀ hu]
    have hn : (n : ℚ) ≤ ((10 ^ (d + k) : ℕ) : ℚ) := by exact_mod_cast h.le
    rw [Nat.pow_add] at hn
    exact_mod_cast hn
  have := roundHalfEven_le bound
  rw [← roundQuotient_eq] at this
  exact_mod_cast this

/-- The unit of a number is counted from its first digit. -/
theorem unitExp_toRat (h : x.coeff ≠ 0) :
    unitExp p x.toRat = max (leastExp p) (x.adjusted - p.digits + 1) := by
  rw [unitExp, log_abs_toRat h]

/-- The digits that a number loses are those below its unit. -/
theorem excessDigits_unit (h : x.coeff ≠ 0) (some : x.excessDigits p ≠ 0) :
    x.exp + x.excessDigits p = unitExp p x.toRat := by
  rw [unitExp_toRat h]
  unfold excessDigits adjusted at *
  omega

/-- A number that loses no digits has none below its unit. -/
theorem unitExp_le_exp (h : x.coeff ≠ 0) (none : x.excessDigits p = 0) :
    unitExp p x.toRat ≤ x.exp := by
  rw [unitExp_toRat h]
  unfold excessDigits adjusted at *
  omega

/-- Digits are dropped by rounding the coefficient; a carry does not change the value. -/
theorem toRat_dropDigits {k : ℕ} (enough : digitCount x.coeff ≤ p.digits + k) :
    (x.dropDigits p k).toRat = x.sign * (roundQuotient x.coeff k * 10 ^ (x.exp + k)) := by
  unfold dropDigits
  dsimp only
  split
  · next carry =>
    -- One digit too many means that the coefficient was rounded to a power of ten.
    have low := roundQuotient_le (d := p.digits)
      ((lt_pow_digitCount x.coeff).trans_le (Nat.pow_le_pow_right (by omega) enough))
    have high : 10 ^ p.digits ≤ roundQuotient x.coeff k :=
      Nat.le_of_not_lt fun below => absurd ((digitCount_le_iff p.one_le).mpr below) (by omega)
    obtain ⟨d, hd⟩ : ∃ d, p.digits = d + 1 := ⟨p.digits - 1, by have := p.one_le; omega⟩
    rw [le_antisymm low high, hd, Nat.pow_succ, Nat.mul_div_cancel _ (by omega)]
    change x.sign * (((10 ^ d : ℕ) : ℚ) * 10 ^ (x.exp + k + 1)) = _
    rw [zpow_add_one₀ (by norm_num)]
    push_cast
    ring
  · rfl

/-- A number with its excess digits rounded away. -/
def fitted (p : Precision) (x : Decimal) : Decimal :=
  if x.excessDigits p = 0 then x else x.dropDigits p (x.excessDigits p)

/-- Rounding the digits of a number rounds its value. -/
theorem toRat_fitted (h : x.coeff ≠ 0) : (x.fitted p).toRat = roundRat p x.toRat := by
  unfold fitted
  split
  · next none =>
    have multiple : x.toRat = ((x.sign.num * x.coeff : ℤ) : ℚ) * 10 ^ x.exp := by
      have whole : (x.sign.num : ℚ) = x.sign := by
        unfold sign
        split <;> rfl
      push_cast
      rw [whole, toRat]
      ring
    exact (roundRat_of_multiple p multiple (unitExp_le_exp h none)).symm
  · next some =>
    have hunit := excessDigits_unit h some
    have enough : digitCount x.coeff ≤ p.digits + x.excessDigits p := by
      unfold excessDigits
      omega
    have size : x.coeff * 10 ^ x.exp / 10 ^ (x.exp + x.excessDigits p)
        = (x.coeff : ℚ) / (10 ^ x.excessDigits p : ℕ) := by
      have hp := ten_zpow_pos x.exp
      rw [← ten_zpow_mul]
      push_cast
      field_simp
    rw [toRat_dropDigits enough, roundRat, ← hunit, toRat, mul_div_assoc, size,
      roundHalfEven_sign_mul, ← roundQuotient_eq, mul_assoc]
    rfl

/-- The smallest exponent of a result lies below the largest. -/
theorem leastExp_le (p : Precision) : leastExp p ≤ maxAdjusted := by
  have one := p.one_le
  have range : minAdjusted ≤ maxAdjusted := by decide
  unfold leastExp
  omega

/-- A rounded number without a digit was too small to reach a unit. -/
theorem fitted_exp_of_coeff_eq_zero (h : x.coeff ≠ 0) (hz : (x.fitted p).coeff = 0) :
    (x.fitted p).exp ≤ maxAdjusted := by
  have value := toRat_fitted (p := p) h
  rw [toRat_eq_zero_iff.mpr hz] at value
  have least := leastExp_le p
  -- A number that reaches the smallest exponent keeps its first digit.
  have below : ¬ 10 ^ leastExp p ≤ |x.toRat| := by
    intro reached
    have kept := zpow_le_abs_roundRat le_rfl reached
    rw [← value, abs_zero] at kept
    exact absurd kept (not_le.mpr (ten_zpow_pos _))
  rw [← le_log_iff (abs_toRat_pos h)] at below
  have unit : unitExp p x.toRat = leastExp p := by
    have := p.one_le
    unfold unitExp
    omega
  by_cases none : x.excessDigits p = 0
  · exact absurd (by rwa [fitted, if_pos none] at hz) h
  · have hunit := excessDigits_unit h none
    rw [fitted, if_neg none] at hz ⊢
    unfold dropDigits at hz ⊢
    dsimp only at hz ⊢
    split at hz
    · next carry =>
      change roundQuotient x.coeff (x.excessDigits p) / 10 = 0 at hz
      have few : roundQuotient x.coeff (x.excessDigits p) < 10 ^ 1 := by omega
      have one := (digitCount_le_iff Nat.one_pos).mpr few
      have := p.one_le
      omega
    · next plain =>
      rw [if_neg plain]
      change x.exp + x.excessDigits p ≤ maxAdjusted
      omega

/-- A number overflows exactly when its rounded value is too large. -/
theorem maxAdjusted_lt_fitted_iff (h : x.coeff ≠ 0) :
    maxAdjusted < (x.fitted p).adjusted ↔ 10 ^ (maxAdjusted + 1) ≤ |roundRat p x.toRat| := by
  rw [← toRat_fitted h]
  by_cases hz : (x.fitted p).coeff = 0
  · have hexp := fitted_exp_of_coeff_eq_zero h hz
    rw [toRat_eq_zero_iff.mpr hz, abs_zero]
    refine iff_of_false ?_ (not_le.mpr (ten_zpow_pos _))
    have : digitCount 0 = 1 := by decide
    rw [adjusted, hz, this]
    omega
  · rw [← le_log_iff (abs_toRat_pos hz), log_abs_toRat hz]
    exact Iff.rfl

/-- The rounding of a number is the rounding of its value. -/
theorem round_toRat (p : Precision) (x : Decimal) :
    (x.round p).map toRat = rounding p x.toRat := by
  unfold round rounding
  split
  · next hz =>
    rw [toRat_eq_zero_iff.mpr hz, roundRat_zero, abs_zero,
      if_neg (not_le.mpr (ten_zpow_pos _))]
    exact congrArg Except.ok (toRat_eq_zero_iff.mpr hz)
  · next hz =>
    have late := maxAdjusted_lt_fitted_iff (p := p) hz
    have range := leastExp_le p
    split
    · next early =>
      have reached := (zpow_le_zpow_right₀ (by norm_num : (1 : ℚ) ≤ 10) early).trans
        (zpow_adjusted_le hz)
      rw [if_pos (zpow_le_abs_roundRat (by omega) reached)]
      rfl
    · change Except.map toRat (if maxAdjusted < (x.fitted p).adjusted then
        .error ArithmeticFault.overflow else .ok (x.fitted p)) = _
      rw [if_congr late rfl rfl, ← toRat_fitted hz]
      split <;> rfl

end Decimal

end DecimalLisp
