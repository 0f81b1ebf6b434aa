import DecimalLisp.Decimal.Basic
import Mathlib.Algebra.Order.Ring.Nat
import Mathlib.Data.Nat.Log

/-!
# Counts of digits

A natural number has at most so many digits as the power of ten that it stays below. The
count takes a start from the binary logarithm, and this is where that start is justified.
-/

namespace DecimalLisp.Decimal

/-- Powers of ten are powers of ten. -/
theorem tenTo_eq (k : ℕ) : tenTo k = 10 ^ k := rfl

/-- Padding multiplies by a power of ten. -/
theorem padded_eq (n k : ℕ) : padded n k = n * 10 ^ k := by
  unfold padded
  split
  · next h => rw [h, Nat.zero_mul]
  · rfl

/-- A count that starts low enough and may go high enough is the least one. -/
theorem countDigits_le_iff {n steps count : ℕ} (low : 10 ^ (count - 1) ≤ n ∨ count = 1)
    (high : n < 10 ^ (count + steps)) {k : ℕ} (hk : 0 < k) :
    countDigits n steps count (10 ^ count) ≤ k ↔ n < 10 ^ k := by
  -- A count that is at least the first one below which the number stays is no too low.
  have least : n < 10 ^ k → count ≤ k := by
    intro h
    rcases low with low | rfl
    · have hlt := (Nat.pow_lt_pow_iff_right (by omega : 1 < 10)).mp (low.trans_lt h)
      omega
    · omega
  induction steps generalizing count with
  | zero =>
    rw [countDigits]
    exact ⟨fun h => high.trans_le (Nat.pow_le_pow_right (by omega) h), least⟩
  | succ steps ih =>
    rw [countDigits]
    split
    · next inside =>
      exact ⟨fun h => inside.trans_le (Nat.pow_le_pow_right (by omega) h), least⟩
    · next outside =>
      have step : 10 * 10 ^ count = 10 ^ (count + 1) := (Nat.pow_succ').symm
      have above : 10 ^ count ≤ n := Nat.le_of_not_lt outside
      have higher : n < 10 ^ (count + 1 + steps) := by rwa [Nat.add_assoc, Nat.add_comm 1]
      rw [step]
      refine ih (Or.inl above) higher fun h => ?_
      have hlt := (Nat.pow_lt_pow_iff_right (by omega : 1 < 10)).mp (above.trans_lt h)
      omega

/-- Fifty-nine digits are fewer than a hundred and ninety-six bits, so a share of the bits
never counts too many digits. -/
theorem pow_log2_le {n : ℕ} (positive : n ≠ 0) : 10 ^ (n.log2 * 59 / 196) ≤ n := by
  refine le_trans ?_ (Nat.log2_self_le positive)
  refine (Nat.pow_le_pow_iff_left (n := 196) (by omega)).mp ?_
  calc (10 ^ (n.log2 * 59 / 196)) ^ 196 = 10 ^ (n.log2 * 59 / 196 * 196) := (pow_mul ..).symm
    _ ≤ 10 ^ (59 * n.log2) := by
      refine Nat.pow_le_pow_right (by omega) ?_
      rw [Nat.mul_comm 59]
      exact Nat.div_mul_le_self _ _
    _ = (10 ^ 59) ^ n.log2 := pow_mul ..
    _ ≤ (2 ^ 196) ^ n.log2 := Nat.pow_le_pow_left (by decide) _
    _ = (2 ^ n.log2) ^ 196 := by rw [← pow_mul, ← pow_mul, Nat.mul_comm]

/-- A number has at most `k` digits exactly when it is below ten to the `k`. -/
theorem digitCount_le_iff {n k : ℕ} (hk : 0 < k) : digitCount n ≤ k ↔ n < 10 ^ k := by
  rw [digitCount]
  refine countDigits_le_iff ?_ ?_ hk
  · rcases Nat.eq_zero_or_pos n with rfl | positive
    · exact Or.inr (by decide)
    · exact Or.inl (pow_log2_le positive.ne')
  · calc n < 2 ^ (n.log2 + 1) := Nat.lt_log2_self
      _ ≤ 10 ^ (n.log2 + 1) := Nat.pow_le_pow_left (by omega) _
      _ ≤ _ := Nat.pow_le_pow_right (by omega) (Nat.le_add_left _ _)

/-- A number is below the power of ten of its count of digits. -/
theorem lt_pow_digitCount (n : ℕ) : n < 10 ^ digitCount n :=
  (digitCount_le_iff (one_le_digitCount n)).mp le_rfl

/-- A number other than zero reaches the power of ten of its first digit. -/
theorem pow_digitCount_le {n : ℕ} (positive : n ≠ 0) : 10 ^ (digitCount n - 1) ≤ n := by
  by_contra below
  rcases Nat.eq_zero_or_pos (digitCount n - 1) with hz | hp
  · rw [hz] at below
    omega
  · have hle := (digitCount_le_iff hp).mpr (Nat.lt_of_not_le below)
    omega

end DecimalLisp.Decimal
