import DecimalLisp.Proofs.Decimal.Notation
import DecimalLisp.Proofs.Decimal.Order

/-!
# One plain text for one value

Digits at their places show the value of a number and not its form. Two numbers of one value differ
by zeros after the digits, which are left out, and by the sign of a zero, which is not shown. So
numbers of one value have one plain text as long as all digits are shown. Below that they need not:
how many digits are rounded away is counted from the digits of the form at hand.
-/

namespace DecimalLisp.Decimal

/-- Zeros after the digits of a natural number multiply it by a power of ten. -/
theorem toDigits_mul_pow {n : ℕ} (positive : 0 < n) (k : ℕ) :
    Nat.toDigits 10 (n * 10 ^ k) = Nat.toDigits 10 n ++ List.replicate k '0' := by
  induction k with
  | zero => rw [Nat.pow_zero, Nat.mul_one, List.replicate_zero, List.append_nil]
  | succ k ih =>
    have above : 0 < n * 10 ^ k := by positivity
    have last := Nat.toDigits_append_toDigits (by omega : 1 < 10) above (by omega : 0 < 10)
    have zero : Nat.toDigits 10 0 = ['0'] := rfl
    rw [ih, zero] at last
    rw [Nat.pow_succ, ← Nat.mul_assoc, Nat.mul_comm _ 10, ← Nat.add_zero (10 * _), ← last,
      List.append_assoc, List.replicate_succ']

/-- Zeros at the end are not significant. -/
theorem significant_append_zeros (digits : List Char) (k : ℕ) :
    significant (digits ++ List.replicate k '0') = significant digits := by
  unfold significant
  rw [List.reverse_append, List.reverse_replicate, List.dropWhile_append_of_pos]
  intro c hc
  rw [(List.mem_replicate.mp hc).2]
  exact beq_self_eq_true '0'

/-- Numbers of one value have their first digits at one place. -/
theorem adjusted_congr {x y : Decimal} (hx : x.coeff ≠ 0) (h : x.toRat = y.toRat) :
    x.adjusted = y.adjusted := by
  have hy : y.coeff ≠ 0 := by rwa [ne_eq, ← toRat_eq_zero_iff, ← h, toRat_eq_zero_iff]
  rw [← log_abs_toRat hx, h, log_abs_toRat hy]

/-- Zeros that are written after the digits while the exponent is lowered by their number do
not show in the positional text. -/
theorem positional_padded (negative : Bool) {n : ℕ} (h : n ≠ 0) (k : ℕ) (e : ℤ) :
    positional ⟨negative, n * 10 ^ k, e⟩ = positional ⟨negative, n, e + k⟩ := by
  have digits : (⟨negative, n * 10 ^ k, e⟩ : Decimal).digits =
      (⟨negative, n, e + k⟩ : Decimal).digits ++ List.replicate k '0' :=
    toDigits_mul_pow (Nat.pos_of_ne_zero h) k
  have parts := congrArg List.length
    (significant_append (⟨negative, n, e + k⟩ : Decimal).digits)
  rw [List.length_append] at parts
  unfold positional
  rw [digits, significant_append_zeros, List.length_append, List.length_replicate]
  generalize (⟨negative, n, e + k⟩ : Decimal).digits = written at parts ⊢
  have shift : e + ((written.length + k - (significant written).length : ℕ) : ℤ) =
      e + k + ((written.length - (significant written).length : ℕ) : ℤ) := by omega
  dsimp only
  rw [shift]
  rfl

/-- A number of the same value whose last digit stands no higher has the same digits and zeros
after them. -/
theorem coeff_eq_of_toRat_eq {x y : Decimal} (h : x.toRat = y.toRat) (order : x.exp ≤ y.exp) :
    x.coeff = y.coeff * 10 ^ (y.exp - x.exp).toNat := by
  have hp := ten_zpow_pos x.exp
  have sizes := congrArg abs h
  rw [abs_toRat, abs_toRat_eq_tenTo order, tenTo_eq] at sizes
  exact_mod_cast mul_right_cancel₀ hp.ne' sizes

/-- Numbers of one value have one positional text. -/
theorem positional_congr {x y : Decimal} (hx : x.coeff ≠ 0) (h : x.toRat = y.toRat) :
    x.positional = y.positional := by
  have hy : y.coeff ≠ 0 := by rwa [ne_eq, ← toRat_eq_zero_iff, ← h, toRat_eq_zero_iff]
  wlog order : x.exp ≤ y.exp generalizing x y
  · exact (this hy h.symm hx (le_of_not_ge order)).symm
  have coeff := coeff_eq_of_toRat_eq h order
  have exp : x.exp + ((y.exp - x.exp).toNat : ℤ) = y.exp := by omega
  calc x.positional = positional ⟨y.negative, y.coeff * 10 ^ (y.exp - x.exp).toNat, x.exp⟩ := by
        rw [← negative_congr hx hy h, ← coeff]
    _ = positional ⟨y.negative, y.coeff, x.exp + ((y.exp - x.exp).toNat : ℤ)⟩ :=
        positional_padded y.negative hy _ _
    _ = y.positional := by rw [exp]

/-- Numbers of one value have one plain text if their first digit stands high enough. -/
theorem plainText_congr {x y : Decimal} (printed : x.Printed) (h : x.toRat = y.toRat) :
    x.plainText = y.plainText := by
  have zeros : x.coeff = 0 ↔ y.coeff = 0 := by
    rw [← toRat_eq_zero_iff, h, toRat_eq_zero_iff]
  by_cases hx : x.coeff = 0
  · rw [plainText, plainText, if_pos hx, if_pos (zeros.mp hx)]
  · have high := printed.resolve_left hx
    have high' : leastPrinted ≤ y.adjusted := adjusted_congr hx h ▸ high
    rw [plainText_of_le hx high, plainText_of_le (fun hy => hx (zeros.mpr hy)) high',
      positional_congr hx h]

/-- Numbers of one value have one plain text if their last digit does not stand too low. Should
the first digit stand too low to be shown, it is the only digit, and the two numbers are one. -/
theorem plainText_congr_of_le_exp {x y : Decimal} (hx : leastPrinted ≤ x.exp + 1)
    (hy : leastPrinted ≤ y.exp + 1) (h : x.toRat = y.toRat) : x.plainText = y.plainText := by
  by_cases printed : x.Printed
  · exact plainText_congr printed h
  · obtain ⟨nonzero, low⟩ := not_or.mp printed
    have first := adjusted_congr nonzero h
    have digit := one_le_digitCount x.coeff
    have digit' := one_le_digitCount y.coeff
    have exp : x.exp = y.exp := by
      unfold adjusted at first low
      omega
    have nonzero' : y.coeff ≠ 0 := by rwa [ne_eq, ← toRat_eq_zero_iff, ← h, toRat_eq_zero_iff]
    have coeff := coeff_eq_of_toRat_eq h exp.le
    have sign := negative_congr nonzero nonzero' h
    rw [exp, sub_self, Int.toNat_zero, Nat.pow_zero, Nat.mul_one] at coeff
    have same : x = y := by
      cases x
      cases y
      congr
    rw [same]

end DecimalLisp.Decimal
