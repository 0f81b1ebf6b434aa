import DecimalLisp.Proofs.Decimal.Rational

/-!
# Half-even rounding of rationals

A rational is rounded to a precision by rounding it to a multiple of a unit: the power of
ten of the last digit that the precision keeps, or that of the smallest exponent if that is
higher. A half goes to the even multiple. Two rationals that lie between the same two
neighbouring multiples of half a unit are rounded alike; that is what makes it safe to
replace digits far below the unit by a single one.
-/

namespace DecimalLisp

/-- The nearest integer, the even one of two that are equally near. -/
def roundHalfEven (q : ℚ) : ℤ :=
  if q - ⌊q⌋ < 1 / 2 then ⌊q⌋
  else if 1 / 2 < q - ⌊q⌋ then ⌊q⌋ + 1
  else if ⌊q⌋ % 2 = 0 then ⌊q⌋ else ⌊q⌋ + 1

/-- The rounded integer is no farther than a half, and even if it is as far. -/
theorem roundHalfEven_spec (q : ℚ) :
    |q - roundHalfEven q| ≤ 1 / 2 ∧
      (|q - roundHalfEven q| = 1 / 2 → roundHalfEven q % 2 = 0) := by
  have low := Int.floor_le q
  have high := Int.lt_floor_add_one q
  unfold roundHalfEven
  split
  · next below =>
    rw [abs_of_nonneg (by linarith)]
    exact ⟨by linarith, fun h => by linarith⟩
  · split
    · next above =>
      push_cast
      rw [abs_of_nonpos (by linarith)]
      exact ⟨by linarith, fun h => by linarith⟩
    · next notBelow notAbove =>
      have half : q - ⌊q⌋ = 1 / 2 := by linarith
      split
      · next even =>
        rw [half, abs_of_pos (by norm_num)]
        exact ⟨le_rfl, fun _ => even⟩
      · next odd =>
        push_cast
        rw [abs_of_nonpos (by linarith)]
        exact ⟨by linarith, fun _ => by omega⟩

/-- An integer within a half, even if it is just a half away, is the rounded one. -/
theorem eq_roundHalfEven {q : ℚ} {n : ℤ} (near : |q - n| ≤ 1 / 2)
    (tie : |q - n| = 1 / 2 → n % 2 = 0) : roundHalfEven q = n := by
  obtain ⟨near', tie'⟩ := roundHalfEven_spec q
  generalize roundHalfEven q = m at near' tie'
  rw [abs_le] at near near'
  have lower : (m : ℚ) - n ≤ 1 := by linarith
  have upper : (n : ℚ) - m ≤ 1 := by linarith
  have hm : m ≤ n + 1 := by
    have : (m : ℚ) ≤ (n + 1 : ℤ) := by push_cast; linarith
    exact_mod_cast this
  have hn : n ≤ m + 1 := by
    have : (n : ℚ) ≤ (m + 1 : ℤ) := by push_cast; linarith
    exact_mod_cast this
  by_contra apart
  -- Two integers a half away on either side are neighbours, and cannot both be even.
  rcases (by omega : m = n + 1 ∨ n = m + 1) with rfl | rfl
  · push_cast at near'
    have half : |q - n| = 1 / 2 := by rw [abs_of_nonneg] <;> linarith
    have half' : |q - (n + 1 : ℤ)| = 1 / 2 := by
      push_cast
      rw [abs_of_nonpos] <;> linarith
    have even := tie half
    have even' := tie' half'
    omega
  · push_cast at near
    have half : |q - (m + 1 : ℤ)| = 1 / 2 := by
      push_cast
      rw [abs_of_nonpos] <;> linarith
    have half' : |q - m| = 1 / 2 := by rw [abs_of_nonneg] <;> linarith
    have even := tie half
    have even' := tie' half'
    omega

/-- An integer is its own rounding. -/
theorem roundHalfEven_intCast (n : ℤ) : roundHalfEven n = n := by
  refine eq_roundHalfEven ?_ fun h => ?_
  · simp
  · rw [sub_self, abs_zero] at h
    norm_num at h

/-- Rounding does not depend on the sign. -/
theorem roundHalfEven_neg (q : ℚ) : roundHalfEven (-q) = -roundHalfEven q := by
  obtain ⟨near, tie⟩ := roundHalfEven_spec q
  have mirror : |(-q) - ((-roundHalfEven q : ℤ) : ℚ)| = |q - roundHalfEven q| := by
    rw [Int.cast_neg, sub_neg_eq_add, neg_add_eq_sub, abs_sub_comm]
  refine eq_roundHalfEven (by rwa [mirror]) fun h => ?_
  have even := tie (by rwa [mirror] at h)
  omega

/-- Rounding stays above the integers that the rational is above. -/
theorem le_roundHalfEven {q : ℚ} {n : ℤ} (h : (n : ℚ) ≤ q) : n ≤ roundHalfEven q := by
  have near := (abs_le.mp (roundHalfEven_spec q).1).2
  have close : (n : ℚ) < (roundHalfEven q + 1 : ℤ) := by
    push_cast
    linarith
  have hlt : n < roundHalfEven q + 1 := by exact_mod_cast close
  omega

open Decimal

/-- The exponent of the unit that a rational is rounded to in a precision. -/
def unitExp (p : Precision) (q : ℚ) : ℤ :=
  max (leastExp p) (Int.log 10 |q| - p.digits + 1)

/-- A rational rounded half-even to a multiple of its unit. -/
def roundRat (p : Precision) (q : ℚ) : ℚ :=
  roundHalfEven (q / 10 ^ unitExp p q) * 10 ^ unitExp p q

/-- The unit does not depend on the sign. -/
theorem unitExp_neg (p : Precision) (q : ℚ) : unitExp p (-q) = unitExp p q := by
  rw [unitExp, unitExp, abs_neg]

/-- Rounding to a precision does not depend on the sign. -/
theorem roundRat_neg (p : Precision) (q : ℚ) : roundRat p (-q) = -roundRat p q := by
  rw [roundRat, roundRat, unitExp_neg, neg_div, roundHalfEven_neg, Int.cast_neg, neg_mul]

/-- A multiple of a unit that is not below its own unit is left as it is. -/
theorem roundRat_of_multiple (p : Precision) {q : ℚ} {n e : ℤ} (h : q = n * 10 ^ e)
    (unit : unitExp p q ≤ e) : roundRat p q = q := by
  have hp := ten_zpow_pos (unitExp p q)
  have whole : q / 10 ^ unitExp p q = ((n * 10 ^ (e - unitExp p q).toNat : ℤ) : ℚ) := by
    rw [div_eq_iff hp.ne', h, ← mul_ten_zpow_eq n (h ▸ unit)]
  rw [roundRat, whole, roundHalfEven_intCast, ← whole, div_mul_cancel₀ _ hp.ne']

theorem roundRat_zero (p : Precision) : roundRat p 0 = 0 :=
  roundRat_of_multiple p (n := 0) (e := unitExp p 0) (by simp) le_rfl

/-! ## Cells of half a unit -/

/-- Half a unit of an exponent. -/
def halfUnit (g : ℤ) : ℚ := 5 * 10 ^ (g - 1)

/-- A rational strictly between two neighbouring multiples of half a unit. -/
structure InCell (g j : ℤ) (q : ℚ) : Prop where
  /-- Above the lower multiple. -/
  above : j * halfUnit g < q
  /-- Below the upper one. -/
  below : q < (j + 1) * halfUnit g

theorem halfUnit_pos (g : ℤ) : 0 < halfUnit g := by
  have hp := ten_zpow_pos (g - 1)
  unfold halfUnit
  positivity

/-- Half of a higher unit is a multiple of half a unit. -/
theorem halfUnit_eq {g u : ℤ} (h : g ≤ u) :
    halfUnit u = ((10 ^ (u - g).toNat : ℤ) : ℚ) * halfUnit g := by
  have hu : g - 1 + ((u - g).toNat : ℤ) = u - 1 := by omega
  have hm := ten_zpow_mul (u - g).toNat (g - 1)
  rw [hu] at hm
  unfold halfUnit
  rw [← hm]
  push_cast
  ring

/-- A unit is twice its half. -/
theorem zpow_eq_halfUnit (u : ℤ) : (10 : ℚ) ^ u = 2 * halfUnit u := by
  have hu : u = (u - 1) + 1 := by ring
  rw [halfUnit]
  nth_rewrite 1 [hu]
  rw [zpow_add_one₀ (by norm_num)]
  ring

namespace InCell

variable {p : Precision} {g j : ℤ} {q q' : ℚ}

/-- A multiple of half a unit is below a cell exactly when its number says so. -/
theorem mul_lt_iff (h : InCell g j q) (n : ℤ) : n * halfUnit g < q ↔ n ≤ j := by
  have hd := halfUnit_pos g
  constructor
  · intro hn
    have hlt := lt_of_mul_lt_mul_right (hn.trans h.below) hd.le
    have : n < j + 1 := by exact_mod_cast hlt
    omega
  · intro hn
    have hle : (n : ℚ) ≤ j := by exact_mod_cast hn
    exact (mul_le_mul_of_nonneg_right hle hd.le).trans_lt h.above

/-- No rational in a cell is a multiple of half a unit. -/
theorem ne_mul (h : InCell g j q) (n : ℤ) : q ≠ n * halfUnit g := by
  rintro rfl
  have hn : ¬ n ≤ j := fun hn => lt_irrefl _ ((h.mul_lt_iff n).mpr hn)
  have hlt := lt_of_mul_lt_mul_right h.below (halfUnit_pos g).le
  have : n < j + 1 := by exact_mod_cast hlt
  omega

theorem mul_le_iff (h : InCell g j q) (n : ℤ) : n * halfUnit g ≤ q ↔ n ≤ j := by
  rw [← h.mul_lt_iff n]
  exact ⟨fun hle => lt_of_le_of_ne hle (h.ne_mul n).symm, le_of_lt⟩

theorem pos (h : InCell g j q) (hj : 0 ≤ j) : 0 < q := by
  have := (h.mul_lt_iff 0).mpr hj
  simpa using this

/-- Rationals in one cell reach the same powers of ten from its unit upwards. -/
theorem zpow_le_iff (h : InCell g j q) (h' : InCell g j q') {e : ℤ} (he : g ≤ e) :
    10 ^ e ≤ q ↔ 10 ^ e ≤ q' := by
  have multiple : (10 : ℚ) ^ e = ((2 * 10 ^ (e - g).toNat : ℤ) : ℚ) * halfUnit g := by
    rw [zpow_eq_halfUnit, halfUnit_eq he]
    push_cast
    ring
  rw [multiple, h.mul_le_iff, h'.mul_le_iff]

/-- Rationals in one cell have the same unit, if it is not below that of the cell. -/
theorem unitExp_eq (h : InCell g j q) (h' : InCell g j q') (hj : 0 ≤ j)
    (unit : g ≤ unitExp p q) : unitExp p q' = unitExp p q := by
  have hq := h.pos hj
  have hq' := h'.pos hj
  have same : ∀ e, g ≤ e → (e ≤ Int.log 10 q ↔ e ≤ Int.log 10 q') := by
    intro e he
    rw [le_log_iff hq, le_log_iff hq', h.zpow_le_iff h' he]
  have one := p.one_le
  unfold unitExp at unit ⊢
  rw [abs_of_pos hq] at unit ⊢
  rw [abs_of_pos hq']
  by_cases hg : g ≤ Int.log 10 q
  · have up := (same _ hg).mp le_rfl
    have down := (same _ (hg.trans up)).mpr le_rfl
    rw [le_antisymm down up]
  · -- Below the unit of the cell only the smallest exponent can be the unit.
    have hg' : ¬ g ≤ Int.log 10 q' := fun hle => hg ((same g le_rfl).mpr hle)
    omega

/-- Rationals in one cell are rounded alike, if the unit is not below that of the cell. -/
theorem roundRat_eq (h : InCell g j q) (h' : InCell g j q') (hj : 0 ≤ j)
    (unit : g ≤ unitExp p q) : roundRat p q' = roundRat p q := by
  have hu := h.unitExp_eq h' hj unit
  rw [roundRat, roundRat, hu]
  generalize unitExp p q = u at unit
  have hp := ten_zpow_pos u
  obtain ⟨near, -⟩ := roundHalfEven_spec (q / 10 ^ u)
  generalize roundHalfEven (q / 10 ^ u) = n at near
  -- The rational lies between the halves around its rounding, which are multiples of half
  -- the unit of the cell; so the whole cell lies between them.
  set m : ℤ := 10 ^ (u - g).toNat with hm
  have half : (10 : ℚ) ^ u = 2 * (m * halfUnit g) := by
    rw [zpow_eq_halfUnit, halfUnit_eq unit]
  have scaled : ∀ r : ℚ, r / 10 ^ u - n = (r - n * 10 ^ u) / 10 ^ u := by
    intro r
    field_simp
  rw [scaled, abs_div, abs_of_pos hp, div_le_iff₀ hp, abs_le] at near
  have low : ((2 * n - 1) * m : ℤ) * halfUnit g ≤ q := by
    push_cast
    rw [half] at near
    linarith [near.1]
  have high : q ≤ ((2 * n + 1) * m : ℤ) * halfUnit g := by
    push_cast
    rw [half] at near
    linarith [near.2]
  have hlow := (h.mul_le_iff _).mp low
  have hhigh : ¬ (2 * n + 1) * m ≤ j := by
    rw [← h.mul_lt_iff]
    exact not_lt.mpr high
  have low' := (h'.mul_lt_iff _).mpr hlow
  have high' : q' < ((2 * n + 1) * m : ℤ) * halfUnit g := by
    refine lt_of_not_ge fun hle => hhigh ((h'.mul_le_iff _).mp hle)
  have inside : |q' / 10 ^ u - n| < 1 / 2 := by
    rw [scaled, abs_div, abs_of_pos hp, div_lt_iff₀ hp, abs_lt, half]
    push_cast at low' high'
    constructor <;> linarith
  rw [eq_roundHalfEven inside.le fun tie => absurd tie inside.ne]

end InCell

end DecimalLisp
