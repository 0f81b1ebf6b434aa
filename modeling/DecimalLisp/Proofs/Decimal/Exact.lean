import DecimalLisp.Proofs.Decimal.PlainText
import Mathlib.Algebra.BigOperators.Group.List.Basic
import Mathlib.Algebra.Group.Nat.Even
import Mathlib.Data.List.Perm.Basic

/-!
# Exact sums and products of lists

What numbers add up to and multiply to before anything is rounded. An exact sum that starts from
zero is determined by its value and by the least exponent, since no zero comes out with a minus; so
the order of the numbers does not matter. Of an exact product every part is found from the parts of
the factors.
-/

namespace DecimalLisp.Decimal

/-- Numbers of one value and one exponent are the same unless they are zeros of different signs. -/
theorem eq_of_toRat_eq {x y : Decimal} (value : x.toRat = y.toRat) (exp : x.exp = y.exp)
    (hx : x.coeff = 0 → x.negative = false) (hy : y.coeff = 0 → y.negative = false) : x = y := by
  have coeff : x.coeff = y.coeff := by
    have padded := coeff_eq_of_toRat_eq value exp.le
    rwa [exp, sub_self, Int.toNat_zero, Nat.pow_zero, Nat.mul_one] at padded
  have negative : x.negative = y.negative := by
    by_cases hz : x.coeff = 0
    · rw [hx hz, hy (coeff ▸ hz)]
    · exact negative_congr hz (coeff ▸ hz) value
  cases x
  cases y
  cases coeff
  cases exp
  cases negative
  rfl

/-! ## Sums -/

/-- The exponent of a sum that starts from zero: the least of zero and of all exponents. -/
def leastExponent (xs : List Decimal) : ℤ :=
  (xs.map (·.exp)).foldr min 0

theorem leastExponent_cons (x : Decimal) (xs : List Decimal) :
    leastExponent (x :: xs) = min x.exp (leastExponent xs) := rfl

theorem leastExponent_le_zero (xs : List Decimal) : leastExponent xs ≤ 0 := by
  induction xs with
  | nil => exact le_rfl
  | cons x xs ih =>
    rw [leastExponent_cons]
    omega

theorem leastExponent_le {x : Decimal} {xs : List Decimal} (h : x ∈ xs) :
    leastExponent xs ≤ x.exp := by
  induction xs with
  | nil => cases h
  | cons y xs ih =>
    rw [leastExponent_cons]
    rcases List.mem_cons.mp h with rfl | h
    · exact min_le_left _ _
    · exact (min_le_right _ _).trans (ih h)

theorem leastExponent_perm {xs ys : List Decimal} (h : ys.Perm xs) :
    leastExponent ys = leastExponent xs :=
  (h.map _).foldr_eq 0

/-- The exponent of an exact sum is the smaller of the two. -/
theorem exp_exactSum (x y : Decimal) : (exactSum x y).exp = min x.exp y.exp := by
  unfold exactSum
  dsimp only
  split
  · rfl
  · split
    · rfl
    · split <;> rfl

/-- A zero that an exact sum comes to is positive if the first operand is no negative zero. -/
theorem exactSum_positive {x y : Decimal} (h : x.coeff = 0 → x.negative = false)
    (hz : (exactSum x y).coeff = 0) : (exactSum x y).negative = false := by
  unfold exactSum at hz ⊢
  dsimp only at hz ⊢
  split at hz
  · next same =>
    rw [if_pos same]
    have none := Nat.eq_zero_of_add_eq_zero_right hz
    rw [padded_eq, Nat.mul_eq_zero] at none
    exact h (none.resolve_right (by positivity))
  · next apart =>
    rw [if_neg apart]
    split at hz
    · next equal => rw [if_pos equal]
    · split at hz
      · next less => exact absurd hz (Nat.sub_ne_zero_of_lt less)
      · next unequal more =>
        have less := lt_of_le_of_ne (not_lt.mp more) unequal
        exact absurd hz (Nat.sub_ne_zero_of_lt less)

/-- The exact sum of a list of numbers, from left to right and started from zero. -/
def exactTotal (xs : List Decimal) : Decimal :=
  xs.foldl exactSum (ofNat 0)

/-- Adding on to an exponent that is not positive lowers it to the least. -/
theorem exp_foldl_exactSum {t : Decimal} (xs : List Decimal) (start : t.exp ≤ 0) :
    (xs.foldl exactSum t).exp = min t.exp (leastExponent xs) := by
  induction xs generalizing t with
  | nil => exact (min_eq_left start).symm
  | cons x xs ih =>
    have next := exp_exactSum t x
    rw [List.foldl_cons, ih (by omega), next, leastExponent_cons, min_assoc]

/-- The exact sum of a list adds up the values. -/
theorem toRat_foldl_exactSum (t : Decimal) (xs : List Decimal) :
    (xs.foldl exactSum t).toRat = t.toRat + (xs.map toRat).sum := by
  induction xs generalizing t with
  | nil => rw [List.map_nil, List.sum_nil, add_zero, List.foldl_nil]
  | cons x xs ih =>
    rw [List.foldl_cons, ih, toRat_exactSum, List.map_cons, List.sum_cons, add_assoc]

/-- No zero with a minus comes out of a sum that does not start from one. -/
theorem foldl_exactSum_positive {t : Decimal} (xs : List Decimal)
    (start : t.coeff = 0 → t.negative = false) :
    (xs.foldl exactSum t).coeff = 0 → (xs.foldl exactSum t).negative = false := by
  induction xs generalizing t with
  | nil => exact start
  | cons x xs ih => exact ih (exactSum_positive start)

theorem toRat_exactTotal (xs : List Decimal) : (exactTotal xs).toRat = (xs.map toRat).sum := by
  rw [exactTotal, toRat_foldl_exactSum, toRat_ofNat, Nat.cast_zero, zero_add]

theorem exp_exactTotal (xs : List Decimal) : (exactTotal xs).exp = leastExponent xs :=
  (exp_foldl_exactSum xs le_rfl).trans (min_eq_right (leastExponent_le_zero xs))

theorem exactTotal_positive (xs : List Decimal) :
    (exactTotal xs).coeff = 0 → (exactTotal xs).negative = false :=
  foldl_exactSum_positive xs fun _ => rfl

/-- The order of the summands does not matter. -/
theorem exactTotal_perm {xs ys : List Decimal} (h : ys.Perm xs) :
    exactTotal ys = exactTotal xs := by
  refine eq_of_toRat_eq ?_ ?_ (exactTotal_positive ys) (exactTotal_positive xs)
  · rw [toRat_exactTotal, toRat_exactTotal, (h.map toRat).sum_eq]
  · rw [exp_exactTotal, exp_exactTotal, leastExponent_perm h]

/-- The sizes of numbers add up in units of any exponent that is no larger than theirs. -/
theorem sum_abs_toRat {m : ℤ} {xs : List Decimal} (h : ∀ x ∈ xs, m ≤ x.exp) :
    (xs.map fun x => |x.toRat|).sum =
      ((xs.map fun x => x.coeff * 10 ^ (x.exp - m).toNat).sum : ℕ) * 10 ^ m := by
  induction xs with
  | nil => rw [List.map_nil, List.map_nil, List.sum_nil, List.sum_nil, Nat.cast_zero, zero_mul]
  | cons x xs ih =>
    obtain ⟨first, others⟩ := List.forall_mem_cons.mp h
    have size := padded_zpow x.coeff first
    rw [padded_eq, ← abs_toRat] at size
    rw [List.map_cons, List.map_cons, List.sum_cons, List.sum_cons, ih others, Nat.cast_add,
      add_mul, size]

theorem sum_abs_toRat_nonneg (xs : List Decimal) : 0 ≤ (xs.map fun x => |x.toRat|).sum := by
  refine List.sum_nonneg fun q hq => ?_
  obtain ⟨x, -, rfl⟩ := List.mem_map.mp hq
  exact abs_nonneg _

/-! ## Products -/

/-- The exact product of a list of numbers: it has a minus if an odd number of them have one. -/
def exactProductOf (xs : List Decimal) : Decimal :=
  ⟨decide (Odd (xs.countP (·.negative))), (xs.map (·.coeff)).prod, (xs.map (·.exp)).sum⟩

/-- Coefficients that count as one at least have a product of one at least. -/
theorem one_le_prod_coeff (xs : List Decimal) : 1 ≤ (xs.map fun x => max 1 x.coeff).prod := by
  refine List.one_le_prod_of_one_le fun n hn => ?_
  obtain ⟨x, -, rfl⟩ := List.mem_map.mp hn
  exact le_max_left _ _

/-- Each minus changes whether their number is odd. -/
theorem odd_countP_cons (x : Decimal) (xs : List Decimal) :
    decide (Odd ((x :: xs).countP (·.negative))) =
      (x.negative ^^ decide (Odd (xs.countP (·.negative)))) := by
  rw [List.countP_cons]
  cases x.negative with
  | false => simp
  | true =>
    rw [if_pos rfl, Bool.true_xor, ← decide_not]
    exact decide_eq_decide.mpr Nat.odd_add_one

/-- The parts of an exact product are found from the parts of the factors. -/
theorem foldl_exactProduct (t : Decimal) (xs : List Decimal) :
    xs.foldl exactProduct t = exactProduct t (exactProductOf xs) := by
  induction xs generalizing t with
  | nil => simp [exactProduct, exactProductOf]
  | cons x xs ih =>
    rw [List.foldl_cons, ih]
    unfold exactProduct exactProductOf
    rw [odd_countP_cons, List.map_cons, List.map_cons, List.prod_cons, List.sum_cons]
    dsimp only
    rw [Bool.xor_assoc, Nat.mul_assoc, Int.add_assoc]

/-- The order of the factors does not matter. -/
theorem exactProductOf_perm {xs ys : List Decimal} (h : ys.Perm xs) :
    exactProductOf ys = exactProductOf xs := by
  unfold exactProductOf
  rw [h.countP_eq, (h.map _).prod_eq, (h.map _).sum_eq]

end DecimalLisp.Decimal
