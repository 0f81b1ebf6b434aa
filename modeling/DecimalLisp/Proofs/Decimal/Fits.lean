import DecimalLisp.Proofs.Decimal.Arithmetic

/-!
# Numbers that fit a precision

A number fits a precision if it has no more digits, its last digit does not stand below the smallest
exponent of a result, and its first digit does not stand above the largest. Rounding gives such a
number, and it leaves such a number exactly as it is: sign, digits and exponent. So every result of
arithmetic fits, and to multiply it by one or to add it to zero changes nothing in its value.
-/

namespace DecimalLisp.Decimal

variable {p : Precision} {x y z : Decimal}

/-- What a number is like that a precision and the range of exponents have room for. -/
structure Fits (p : Precision) (x : Decimal) : Prop where
  /-- It has no more digits than the precision. -/
  digits : x.coeff < 10 ^ p.digits
  /-- Its last digit does not stand below the smallest exponent. -/
  least : leastExp p ≤ x.exp
  /-- Its first digit does not stand above the largest exponent. -/
  first : x.coeff ≠ 0 → x.adjusted ≤ maxAdjusted
  /-- A zero has no first digit; its exponent is bounded itself. -/
  zero : x.coeff = 0 → x.exp ≤ maxAdjusted

/-! ## Rounded numbers fit -/

/-- No digits are lost if there are few enough of them and the last one stands high enough. -/
theorem excessDigits_eq_zero_iff :
    x.excessDigits p = 0 ↔ x.coeff < 10 ^ p.digits ∧ leastExp p ≤ x.exp := by
  rw [← digitCount_le_iff p.one_le]
  unfold excessDigits
  omega

/-- Of a number without its excess digits no more are left than the precision has. -/
theorem coeff_dropDigits_lt {k : ℕ} (enough : digitCount x.coeff ≤ p.digits + k) :
    (x.dropDigits p k).coeff < 10 ^ p.digits := by
  have upper := roundQuotient_le (d := p.digits)
    ((lt_pow_digitCount x.coeff).trans_le (Nat.pow_le_pow_right (by omega) enough))
  have positive : 0 < 10 ^ p.digits := by positivity
  unfold dropDigits
  dsimp only
  split
  · change roundQuotient x.coeff k / 10 < 10 ^ p.digits
    omega
  · next few => exact (digitCount_le_iff p.one_le).mp (not_lt.mp few)

/-- Dropping digits raises the exponent at least by their number. -/
theorem add_le_exp_dropDigits (k : ℕ) : x.exp + k ≤ (x.dropDigits p k).exp := by
  unfold dropDigits
  dsimp only
  split
  · exact (lt_add_one _).le
  · exact le_rfl

/-- With its excess digits rounded away a number has few enough of them, none too low. -/
theorem fitted_spec : (x.fitted p).coeff < 10 ^ p.digits ∧ leastExp p ≤ (x.fitted p).exp := by
  unfold fitted
  split
  · next none => exact excessDigits_eq_zero_iff.mp none
  · have raised := add_le_exp_dropDigits (p := p) (x := x) (x.excessDigits p)
    refine ⟨coeff_dropDigits_lt ?_, ?_⟩ <;> unfold excessDigits at *
    · omega
    · omega

/-- A number that was rounded fits. -/
theorem fits_of_round (h : x.round p = .ok y) : y.Fits p := by
  have range := leastExp_le p
  unfold round at h
  split at h
  · next hz =>
    cases h
    have positive : 0 < 10 ^ p.digits := by positivity
    refine ⟨?_, ?_, fun nonzero => absurd hz nonzero, fun _ => ?_⟩ <;> dsimp only <;> omega
  · next hz =>
    split at h
    · cases h
    · change (if maxAdjusted < (x.fitted p).adjusted then .error ArithmeticFault.overflow
        else .ok (x.fitted p)) = Except.ok y at h
      split at h
      · cases h
      · next low =>
        cases h
        exact ⟨fitted_spec.1, fitted_spec.2, fun _ => not_lt.mp low,
          fitted_exp_of_coeff_eq_zero hz⟩

/-- A number that fits is left as it is. -/
theorem Fits.round_eq (h : x.Fits p) : x.round p = .ok x := by
  have least := h.least
  unfold round
  split
  · next hz =>
    have high := h.zero hz
    have exp : min (max x.exp (leastExp p)) maxAdjusted = x.exp := by omega
    rw [exp]
  · next hz =>
    have low := not_lt.mpr (h.first hz)
    have none := excessDigits_eq_zero_iff.mpr ⟨h.digits, least⟩
    rw [if_neg low, if_pos none]
    exact if_neg low

/-- Rounding on rationals leaves the value of a number that fits. -/
theorem Fits.rounding_eq (h : x.Fits p) : rounding p x.toRat = .ok x.toRat := by
  rw [← round_toRat, h.round_eq]
  rfl

/-- A number of exponent zero fits if its digits have room in the precision and in the range of
exponents. -/
theorem fits_of_exp_eq_zero {x : Decimal} (exp : x.exp = 0)
    (room : x.coeff < 10 ^ min p.digits 999999) : x.Fits p := by
  have one := p.one_le
  have count := (digitCount_le_iff (by omega)).mpr room
  have first : x.adjusted = x.exp + digitCount x.coeff - 1 := rfl
  refine ⟨room.trans_le (Nat.pow_le_pow_right (by omega) (min_le_left _ _)), ?_, fun _ => ?_,
    fun _ => ?_⟩
  · unfold leastExp minAdjusted
    omega
  · unfold maxAdjusted
    omega
  · unfold maxAdjusted
    omega

/-- A number of one digit and exponent zero fits every precision. -/
theorem fits_ofNat {n : ℕ} (h : n < 10) : (ofNat n).Fits p := by
  have one := p.one_le
  have digit : n < 10 ^ 1 := h
  exact fits_of_exp_eq_zero rfl (digit.trans_le (Nat.pow_le_pow_right (by omega) (by omega)))

/-! ## Results of the operations fit -/

/-- A sum fits, whatever was added. -/
theorem fits_of_add (h : add p x y = .ok z) : z.Fits p := by
  unfold add at h
  split at h <;> exact fits_of_round h

/-- A quotient fits, whatever was divided. -/
theorem fits_of_divide (h : divide p x y = .ok z) : z.Fits p := by
  unfold divide at h
  split at h
  · cases h
  · split at h <;> exact fits_of_round h

/-- A number that fits is left as it is when one is multiplied by it. -/
theorem Fits.multiply_one (h : x.Fits p) : multiply p (ofNat 1) x = .ok x := by
  have same : exactProduct (ofNat 1) x = x := by
    simp [exactProduct, ofNat]
  rw [multiply, same, h.round_eq]

/-- A number that fits keeps its value when it is added to zero, though not always its exponent. -/
theorem Fits.add_zero (h : x.Fits p) : (add p (ofNat 0) x).map toRat = .ok x.toRat := by
  rw [add_toRat, toRat_ofNat, Nat.cast_zero, zero_add, h.rounding_eq]

end DecimalLisp.Decimal
