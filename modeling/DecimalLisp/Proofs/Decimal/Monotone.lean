import DecimalLisp.Proofs.Decimal.Rounding

/-!
# Rounding keeps order

A smaller rational is never rounded to more than a larger one. While both have one unit this is so
of the integers that they are rounded to. Where the unit of the larger is coarser, the power of ten
of its first digit lies between them. It is a multiple of both units, and rounding goes past no
multiple of its own unit. The smallest exponent does not disturb this: below it there is one unit.
-/

namespace DecimalLisp

open Decimal

/-- Half-even rounding keeps order. Were the smaller rational rounded to more, both would be the
half between the two integers. -/
theorem roundHalfEven_mono {q r : ℚ} (h : q ≤ r) : roundHalfEven q ≤ roundHalfEven r := by
  by_contra past
  have apart : (roundHalfEven r : ℚ) + 1 ≤ roundHalfEven q := by exact_mod_cast not_le.mp past
  have low := (abs_le.mp (roundHalfEven_spec q).1).1
  have high := (abs_le.mp (roundHalfEven_spec r).1).2
  have same : q = r := by linarith
  exact past (same ▸ le_rfl)

section Units

variable {p : Precision} {q r : ℚ}

/-- The unit of a larger size is the same or coarser. -/
theorem unitExp_le_unitExp (hq : 0 < q) (h : q ≤ r) : unitExp p q ≤ unitExp p r := by
  have logs := Int.log_mono_right (b := 10) hq h
  unfold unitExp
  rw [abs_of_pos hq, abs_of_pos (hq.trans_le h)]
  omega

/-- A coarser unit of a larger size is one that is counted from its first digit, and the power of
ten of that digit is more than the smaller size and a multiple of its unit. -/
theorem exists_between_units (hq : 0 < q) (h : q ≤ r) (apart : unitExp p q < unitExp p r) :
    ∃ e, unitExp p q ≤ e ∧ unitExp p r ≤ e ∧ q ≤ 10 ^ e ∧ 10 ^ e ≤ r := by
  have hr := hq.trans_le h
  have one := p.one_le
  refine ⟨Int.log 10 r, ?_, ?_, ?_, (le_log_iff hr).mp le_rfl⟩
  all_goals
    unfold unitExp at *
    rw [abs_of_pos hq, abs_of_pos hr] at *
  · omega
  · omega
  · have lower : ¬ Int.log 10 r ≤ Int.log 10 q := by omega
    rw [le_log_iff hq] at lower
    exact (not_le.mp lower).le

/-- Rounding keeps the order of sizes. -/
theorem roundRat_le_roundRat (hq : 0 ≤ q) (h : q ≤ r) : roundRat p q ≤ roundRat p r := by
  rcases hq.eq_or_lt with rfl | hq
  · rw [roundRat_zero]
    exact roundRat_nonneg h
  rcases (unitExp_le_unitExp (p := p) hq h).eq_or_lt with same | apart
  · have hp := ten_zpow_pos (unitExp p r)
    have scaled := roundHalfEven_mono (div_le_div_of_nonneg_right h hp.le)
    rw [roundRat, roundRat, same]
    exact mul_le_mul_of_nonneg_right (by exact_mod_cast scaled) hp.le
  · obtain ⟨e, fine, coarse, above, below⟩ := exists_between_units hq h apart
    rw [← one_mul ((10 : ℚ) ^ e), ← Int.cast_one] at above below
    exact (roundRat_le_of_multiple fine above).trans (le_roundRat_of_multiple coarse below)

end Units

/-- Rounding keeps order. -/
theorem roundRat_mono (p : Precision) : Monotone (roundRat p) := by
  intro q r h
  rcases le_total 0 q with hq | hq
  · exact roundRat_le_roundRat hq h
  · have mirror : ∀ s : ℚ, roundRat p s = -roundRat p (-s) := fun s => by
      rw [roundRat_neg, neg_neg]
    rcases le_total 0 r with hr | hr
    · -- Zero lies between them.
      have low : 0 ≤ roundRat p (-q) := roundRat_nonneg (by linarith)
      have high : 0 ≤ roundRat p r := roundRat_nonneg hr
      rw [mirror q]
      linarith
    · have sizes := roundRat_le_roundRat (p := p) (by linarith : 0 ≤ -r) (neg_le_neg h)
      rw [mirror q, mirror r]
      exact neg_le_neg sizes

end DecimalLisp
