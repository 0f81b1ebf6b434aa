import DecimalLisp.Proofs.Decimal.Rounding
import Mathlib.Data.Nat.Cast.Field

/-!
# Correct rounding of the four operations

Each operation rounds its exact result once. Two of them do not form that result. A sum
replaces an operand far below the other by a single digit, and a quotient is cut off with a
last digit that shows the cut. In both cases what is rounded lies in the same cell of half a
unit as the exact result, so the rounding is the same.
-/

namespace DecimalLisp.Decimal

variable {p : Precision}

/-! ## Sums -/

/-- Two small changes of one sign to a multiple of a whole unit are rounded alike. -/
theorem roundRat_add_small {m a g : ℤ} {δ ε : ℚ} (positive : 0 < m)
    (first : 10 ^ a ≤ 2 * m * halfUnit g) (unit : g ≤ a - p.digits)
    (hδ : |δ| ≤ 10 ^ (g - 1)) (hε : |ε| ≤ 10 ^ (g - 1))
    (sign : 0 < δ ∧ 0 < ε ∨ δ < 0 ∧ ε < 0) :
    roundRat p (2 * m * halfUnit g + ε) = roundRat p (2 * m * halfUnit g + δ) := by
  have hp := ten_zpow_pos (g - 1)
  have hd : halfUnit g = 5 * 10 ^ (g - 1) := rfl
  -- The changed number still reaches the power of ten below its first digit.
  have reached : 10 ^ (a - 1) ≤ 2 * m * halfUnit g + δ := by
    have one := p.one_le
    have tenth : (10 : ℚ) ^ a = 10 * 10 ^ (a - 1) := by
      rw [← zpow_one_add₀ (by norm_num)]
      ring_nf
    have low : (10 : ℚ) ^ (g - 1) ≤ 10 ^ (a - 1) := zpow_le_zpow_right₀ (by norm_num) (by omega)
    have := (abs_le.mp hδ).1
    linarith
  have hunit : g ≤ unitExp p (2 * m * halfUnit g + δ) := by
    have hpos := (ten_zpow_pos (a - 1)).trans_le reached
    have hlog := (le_log_iff hpos).mpr reached
    unfold unitExp
    rw [abs_of_pos hpos]
    omega
  rw [abs_le] at hδ hε
  rcases sign with ⟨pδ, pε⟩ | ⟨nδ, nε⟩
  · have inside : ∀ η : ℚ, 0 < η → η ≤ 10 ^ (g - 1) →
        InCell g (2 * m) (2 * m * halfUnit g + η) :=
      fun η hη small => ⟨by push_cast; linarith, by push_cast; linarith⟩
    exact (inside δ pδ hδ.2).roundRat_eq (inside ε pε hε.2) (by omega) hunit
  · have inside : ∀ η : ℚ, η < 0 → -10 ^ (g - 1) ≤ η →
        InCell g (2 * m - 1) (2 * m * halfUnit g + η) :=
      fun η hη small => ⟨by push_cast; linarith, by push_cast; linarith⟩
    exact (inside δ nδ hδ.1).roundRat_eq (inside ε nε hε.1) (by omega) hunit

/-- A sign on both operands comes off the sum. -/
theorem roundRat_add_eq (x : Decimal) (r : ℚ) :
    roundRat p (x.toRat + r) = x.sign * roundRat p (|x.toRat| + x.sign * r) := by
  rw [← roundRat_sign_mul, mul_add, ← mul_assoc, sign_mul_self, one_mul, ← toRat_eq_sign_mul]

/-- A number is a whole number of any unit that its last digit reaches. -/
theorem abs_toRat_eq_halfUnit {x : Decimal} {g : ℤ} (h : g ≤ x.exp) :
    |x.toRat| = 2 * ((x.coeff * 10 ^ (x.exp - g).toNat : ℕ) : ℤ) * halfUnit g := by
  have multiple := mul_ten_zpow_eq x.coeff h
  rw [zpow_eq_halfUnit g] at multiple
  rw [abs_toRat]
  push_cast at multiple ⊢
  linarith only [multiple]

/-- A sum with the stand-in is rounded as the sum with the number it stands for. -/
theorem roundRat_add_standIn (large small : Decimal) :
    roundRat p (large.toRat + (standIn p large small).toRat) =
      roundRat p (large.toRat + small.toRat) := by
  unfold standIn
  dsimp only
  split
  · next far =>
    obtain ⟨hl, hs⟩ := far
    generalize hg : min large.exp (large.adjusted - p.digits) = g at hs ⊢
    by_cases hz : small.coeff = 0
    · have zero : small.toRat = 0 := toRat_eq_zero_iff.mpr hz
      have zero' : (⟨small.negative, min 1 small.coeff, g - 1⟩ : Decimal).toRat = 0 := by
        refine toRat_eq_zero_iff.mpr ?_
        change min 1 small.coeff = 0
        omega
      rw [zero, zero']
    · have whole := abs_toRat_eq_halfUnit (x := large) (g := g) (by omega)
      have size : |small.toRat| ≤ 10 ^ (g - 1) :=
        (abs_toRat_lt small).le.trans (zpow_le_zpow_right₀ (by norm_num) (by omega))
      have positive := abs_toRat_pos hz
      have one : min 1 small.coeff = 1 := by omega
      have stands : (⟨small.negative, min 1 small.coeff, g - 1⟩ : Decimal).toRat =
          small.sign * 10 ^ (g - 1) := by
        rw [one, toRat, Nat.cast_one, one_mul]
        rfl
      have hp := ten_zpow_pos (g - 1)
      rw [roundRat_add_eq, roundRat_add_eq, stands, whole, toRat_eq_sign_mul small]
      generalize |small.toRat| = t at size positive
      refine congrArg _ (roundRat_add_small ?_ ?_ (a := large.adjusted) (by omega) ?_ ?_ ?_)
      · have : 0 < large.coeff * 10 ^ (large.exp - g).toNat := by positivity
        exact_mod_cast this
      · rw [← whole]
        exact zpow_adjusted_le hl
      · rw [abs_mul, abs_mul, abs_sign, abs_sign, one_mul, one_mul, abs_of_pos positive]
        exact size
      · rw [abs_mul, abs_mul, abs_sign, abs_sign, one_mul, one_mul, abs_of_pos hp]
      · unfold sign
        split <;> split <;> simp [positive, hp]
  · rfl

/-- The rounded sum is the rounding of the sum. -/
theorem add_toRat (p : Precision) (x y : Decimal) :
    (add p x y).map toRat = rounding p (x.toRat + y.toRat) := by
  unfold add
  split
  · rw [round_toRat, toRat_exactSum, rounding, rounding, roundRat_add_standIn]
  · rw [round_toRat, toRat_exactSum, rounding, rounding, add_comm _ y.toRat,
      roundRat_add_standIn, add_comm x.toRat]

/-- The rounded difference is the rounding of the difference. -/
theorem subtract_toRat (p : Precision) (x y : Decimal) :
    (subtract p x y).map toRat = rounding p (x.toRat - y.toRat) := by
  rw [subtract, add_toRat, toRat_negate, sub_eq_add_neg]

/-! ## Products -/

/-- The rounded product is the rounding of the product. -/
theorem multiply_toRat (p : Precision) (x y : Decimal) :
    (multiply p x y).map toRat = rounding p (x.toRat * y.toRat) := by
  rw [multiply, round_toRat, toRat_exactProduct]

/-! ## Quotients -/

/-- Zeros that are taken off the end are counted. -/
theorem stripZeros_mul (n most : ℕ) : (stripZeros n most).1 * 10 ^ (stripZeros n most).2 = n := by
  induction most generalizing n with
  | zero => rw [stripZeros, Nat.pow_zero, Nat.mul_one]
  | succ most ih =>
    rw [stripZeros]
    split
    · next zero =>
      change (stripZeros (n / 10) most).1 * 10 ^ ((stripZeros (n / 10) most).2 + 1) = n
      rw [Nat.pow_succ, ← Nat.mul_assoc, ih]
      omega
    · rw [Nat.pow_zero, Nat.mul_one]

/-- A shift that divides one coefficient and multiplies the other is a power of ten. -/
theorem shifted_quotient (a b : ℕ) (shift : ℤ) :
    ((a * tenTo shift.toNat : ℕ) : ℚ) / (b * tenTo (-shift).toNat : ℕ) = a / b * 10 ^ shift := by
  have hs : ((shift.toNat : ℕ) : ℤ) - ((-shift).toNat : ℕ) = shift := by omega
  have power : (10 : ℚ) ^ shift.toNat / 10 ^ (-shift).toNat = 10 ^ shift := by
    rw [← zpow_natCast, ← zpow_natCast, ← zpow_sub₀ (by norm_num), hs]
  rw [tenTo_eq, tenTo_eq, ← power]
  push_cast
  field_simp

/-- A quotient that is shifted by the difference of the counts of digits has `k` of them. -/
theorem zpow_le_shifted {a b : ℕ} (ha : a ≠ 0) (hb : b ≠ 0) (k : ℤ) :
    10 ^ k ≤ (a : ℚ) / b * 10 ^ ((digitCount b : ℤ) - digitCount a + k + 1) := by
  have hb' : (0 : ℚ) < b := by exact_mod_cast Nat.pos_of_ne_zero hb
  have low : ((10 ^ (digitCount a - 1) : ℕ) : ℚ) ≤ a := by exact_mod_cast pow_digitCount_le ha
  have high : (b : ℚ) ≤ (10 ^ digitCount b : ℕ) := by exact_mod_cast (lt_pow_digitCount b).le
  have count := one_le_digitCount a
  generalize hs : (digitCount b : ℤ) - digitCount a + k + 1 = s
  have hp := ten_zpow_pos s
  rw [div_mul_eq_mul_div, le_div_iff₀ hb']
  calc (10 : ℚ) ^ k * b ≤ 10 ^ k * (10 ^ digitCount b : ℕ) :=
        mul_le_mul_of_nonneg_left high (ten_zpow_pos k).le
    _ = (10 ^ (digitCount a - 1) : ℕ) * 10 ^ s := by
      push_cast
      rw [mul_comm, ten_zpow_mul, ten_zpow_mul]
      congr 1
      omega
    _ ≤ a * 10 ^ s := mul_le_mul_of_nonneg_right low hp.le

/-- The last digit of a quotient that is cut off, made to show the cut. -/
def cutDigit (quotient : ℕ) : ℕ :=
  if quotient % 5 = 0 then quotient + 1 else quotient

/-- A quotient with more digits than the precision is rounded alike when it is cut off. -/
theorem roundRat_cut {d : ℚ} {n : ℕ} (e : ℤ) (low : n < d) (high : d < n + 1)
    (digits : 10 ^ (p.digits : ℤ) ≤ d) :
    roundRat p (cutDigit n * 10 ^ e) = roundRat p (d * 10 ^ e) := by
  have hp := ten_zpow_pos e
  have half : halfUnit (e + 1) = 5 * 10 ^ e := by rw [halfUnit, add_sub_cancel_right]
  -- Neither the quotient nor what stands for it is a multiple of five.
  have inside : ∀ r : ℚ, 5 * ((n / 5 : ℕ) : ℚ) < r → r < 5 * ((n / 5 : ℕ) : ℚ) + 5 →
      InCell (e + 1) ((n / 5 : ℕ) : ℤ) (r * 10 ^ e) := by
    intro r above below
    constructor
    · rw [half, Int.cast_natCast, ← mul_assoc, mul_comm _ (5 : ℚ)]
      exact mul_lt_mul_of_pos_right above hp
    · rw [half, Int.cast_natCast, ← mul_assoc]
      exact mul_lt_mul_of_pos_right (by linarith) hp
  have exact : InCell (e + 1) ((n / 5 : ℕ) : ℤ) (d * 10 ^ e) := by
    have floor : 5 * ((n / 5 : ℕ) : ℚ) ≤ n := by exact_mod_cast Nat.mul_div_le n 5
    have next : (n : ℚ) + 1 ≤ 5 * ((n / 5 : ℕ) : ℚ) + 5 := by
      exact_mod_cast (by omega : n + 1 ≤ 5 * (n / 5) + 5)
    exact inside d (by linarith) (by linarith)
  have cut : InCell (e + 1) ((n / 5 : ℕ) : ℤ) (cutDigit n * 10 ^ e) := by
    have bounds : 5 * (n / 5) < cutDigit n ∧ cutDigit n < 5 * (n / 5) + 5 := by
      unfold cutDigit
      split <;> omega
    exact inside (cutDigit n) (by exact_mod_cast bounds.1) (by exact_mod_cast bounds.2)
  have unit : e + 1 ≤ unitExp p (d * 10 ^ e) := by
    have reached : 10 ^ (p.digits + e) ≤ d * 10 ^ e := by
      rw [zpow_add₀ (by norm_num)]
      exact mul_le_mul_of_nonneg_right digits hp.le
    have hpos := (ten_zpow_pos _).trans_le reached
    have hlog := (le_log_iff hpos).mpr reached
    unfold unitExp
    rw [abs_of_pos hpos]
    omega
  exact exact.roundRat_eq cut (Int.natCast_nonneg _) unit

/-- Equal signs make a quotient positive. -/
theorem sign_xor (x y : Decimal) (coeff : ℕ) (exp : ℤ) :
    (⟨x.negative ^^ y.negative, coeff, exp⟩ : Decimal).sign = x.sign * y.sign := by
  unfold sign
  cases x.negative <;> cases y.negative <;> norm_num

/-- A quotient of numbers is one of their coefficients, whatever the shift between them. -/
theorem toRat_div_toRat (x y : Decimal) (shift : ℤ) :
    x.toRat / y.toRat = x.sign * (y.sign *
      ((x.coeff : ℚ) / y.coeff * 10 ^ shift * 10 ^ (x.exp - y.exp - shift))) := by
  have powers : (10 : ℚ) ^ shift * 10 ^ (x.exp - y.exp - shift) = 10 ^ x.exp / 10 ^ y.exp := by
    rw [← zpow_add₀ (by norm_num), ← zpow_sub₀ (by norm_num)]
    congr 1
    ring
  rw [mul_assoc _ (10 ^ shift), powers, ← mul_assoc, ← div_sign, toRat, toRat]
  ring

/-- A long quotient is rounded as the quotient. -/
theorem roundRat_longQuotient {x y : Decimal} (hx : x.coeff ≠ 0) (hy : y.coeff ≠ 0) :
    roundRat p (longQuotient p x y).toRat = roundRat p (x.toRat / y.toRat) := by
  unfold longQuotient
  dsimp only
  generalize hs : (digitCount y.coeff : ℤ) - digitCount x.coeff + p.digits + 1 = shift
  have scaled := shifted_quotient x.coeff y.coeff shift
  have digits := zpow_le_shifted hx hy p.digits
  rw [hs, ← scaled] at digits
  have positive : 0 < y.coeff * tenTo (-shift).toNat := by
    rw [tenTo_eq]
    positivity
  generalize x.coeff * tenTo shift.toNat = a at scaled digits
  generalize y.coeff * tenTo (-shift).toNat = b at scaled digits positive
  have positive' : (0 : ℚ) < b := by exact_mod_cast positive
  rw [toRat_div_toRat x y shift, ← scaled, roundRat_sign_mul, roundRat_sign_mul]
  split
  · next inexact =>
    have parts : (a : ℚ) = b * (a / b : ℕ) + (a % b : ℕ) := by
      exact_mod_cast (Nat.div_add_mod a b).symm
    have low : ((a / b : ℕ) : ℚ) < a / b := by
      have rest : (0 : ℚ) < (a % b : ℕ) := by exact_mod_cast Nat.pos_of_ne_zero inexact
      rw [lt_div_iff₀ positive']
      linarith
    have high : (a : ℚ) / b < (a / b : ℕ) + 1 := by
      have rest : ((a % b : ℕ) : ℚ) < b := by exact_mod_cast Nat.mod_lt a positive
      rw [div_lt_iff₀ positive']
      linarith
    rw [← roundRat_cut (x.exp - y.exp - shift) low high digits, toRat, sign_xor, mul_assoc,
      roundRat_sign_mul, roundRat_sign_mul]
    rfl
  · next exact =>
    have whole : ((a / b : ℕ) : ℚ) = a / b :=
      Nat.cast_div (Nat.dvd_of_mod_eq_zero (not_not.mp exact)) positive'.ne'
    have strip := stripZeros_mul (a / b) shift.toNat
    generalize stripZeros (a / b) shift.toNat = stripped at strip ⊢
    rw [← whole, ← strip, toRat, sign_xor, mul_assoc, roundRat_sign_mul, roundRat_sign_mul]
    dsimp only
    rw [← ten_zpow_mul]
    push_cast
    rw [mul_assoc]

/-- The rounded quotient by a number other than zero is the rounding of the quotient. -/
theorem divide_toRat (p : Precision) (x : Decimal) {y : Decimal} (hy : y.coeff ≠ 0) :
    (divide p x y).map toRat = rounding p (x.toRat / y.toRat) := by
  unfold divide
  rw [if_neg hy]
  split
  · next hx =>
    have zero : x.toRat = 0 := toRat_eq_zero_iff.mpr hx
    rw [round_toRat, zero, zero_div, toRat_eq_zero_iff.mpr rfl]
  · next hx => rw [round_toRat, rounding, rounding, roundRat_longQuotient hx hy]

end DecimalLisp.Decimal
