import DecimalLisp.Proofs.Calculation
import DecimalLisp.Proofs.Decimal.Exact
import DecimalLisp.Proofs.Decimal.Fits

/-!
# Calculations that do not round

While there is room for all digits, each step of a fold gives the exact result in its own form:
sign, digits and exponent. For a sum there is room if the sizes of all summands, counted in units of
the least exponent, add up to few enough digits; then every partial sum has no more. The order of
the arguments does not matter, though the partial results depend on it.
-/

namespace DecimalLisp

open Decimal

namespace Decimal

variable {p : Precision} {x y z : Decimal}

/-- The first digit of a number stands below any power of ten that its size does not reach. -/
theorem adjusted_lt {k : ℤ} (hz : x.coeff ≠ 0) (small : |x.toRat| < 10 ^ k) : x.adjusted < k :=
  (zpow_lt_zpow_iff_right₀ (by norm_num)).mp ((zpow_adjusted_le hz).trans_lt small)

/-- A number whose size needs no more digits than the precision has, counted from a unit that its
last digit reaches, fits. -/
theorem fits_of_abs_lt {m : ℤ} (small : |z.toRat| < 10 ^ (p.digits + m)) (above : m ≤ z.exp)
    (least : leastExp p ≤ m) (top : p.digits + m ≤ maxAdjusted) (high : z.exp ≤ maxAdjusted) :
    z.Fits p := by
  refine ⟨?_, least.trans above, fun hz => ?_, fun _ => high⟩
  · have hp := ten_zpow_pos z.exp
    have room : (z.coeff : ℚ) * 10 ^ z.exp < ((10 ^ p.digits : ℕ) : ℚ) * 10 ^ z.exp := by
      calc (z.coeff : ℚ) * 10 ^ z.exp = |z.toRat| := (abs_toRat z).symm
        _ < 10 ^ (p.digits + m) := small
        _ ≤ 10 ^ (z.exp + p.digits) := zpow_le_zpow_right₀ (by norm_num) (by omega)
        _ = ((10 ^ p.digits : ℕ) : ℚ) * 10 ^ z.exp := by
          rw [← ten_zpow_mul]
          push_cast
          rfl
    exact_mod_cast lt_of_mul_lt_mul_right room hp.le
  · exact (adjusted_lt hz small).le.trans top

/-- No stand-in is needed for a number that is not far below the other. -/
theorem standIn_eq_self {large small : Decimal}
    (near : large.coeff ≠ 0 → large.adjusted ≤ p.digits + small.exp) :
    standIn p large small = small := by
  have digit := one_le_digitCount small.coeff
  have last : small.exp ≤ small.adjusted := by
    unfold adjusted
    omega
  unfold standIn
  dsimp only
  refine if_neg fun far => ?_
  have distance := near far.1
  have place := far.2
  omega

/-- An exact sum takes no more room than both operands. -/
theorem abs_exactSum_le (x y : Decimal) : |(exactSum x y).toRat| ≤ |x.toRat| + |y.toRat| := by
  rw [toRat_exactSum]
  exact abs_add_le _ _

/-- An exact sum fits if there is room for the sizes of both operands. -/
theorem fits_exactSum {m : ℤ} (least : minAdjusted ≤ m) (few : p.digits ≤ maxAdjusted)
    (hx : m ≤ x.exp ∧ x.exp ≤ 0) (hy : m ≤ y.exp)
    (room : |x.toRat| + |y.toRat| < 10 ^ (p.digits + m)) : (exactSum x y).Fits p := by
  have one := p.one_le
  have exp := exp_exactSum x y
  refine fits_of_abs_lt ((abs_exactSum_le x y).trans_lt room) (by omega) ?_ (by omega) ?_
  · unfold leastExp
    omega
  · unfold maxAdjusted
    omega

/-- A sum that has room for the sizes of both operands is exact. -/
theorem add_eq_exactSum {m : ℤ} (least : minAdjusted ≤ m) (few : p.digits ≤ maxAdjusted)
    (hx : m ≤ x.exp ∧ x.exp ≤ 0) (hy : m ≤ y.exp)
    (room : |x.toRat| + |y.toRat| < 10 ^ (p.digits + m)) : add p x y = .ok (exactSum x y) := by
  have fits := fits_exactSum least few hx hy room
  have near : ∀ {large small : Decimal}, |large.toRat| < 10 ^ (p.digits + m) → m ≤ small.exp →
      standIn p large small = small := by
    intro large small size above
    refine standIn_eq_self fun hz => ?_
    have first := adjusted_lt hz size
    omega
  have sizes : |x.toRat| < 10 ^ (p.digits + m) ∧ |y.toRat| < 10 ^ (p.digits + m) := by
    have nonneg := abs_nonneg x.toRat
    have nonneg' := abs_nonneg y.toRat
    constructor <;> linarith
  unfold add
  split
  · rw [near sizes.1 hy, fits.round_eq]
  · rw [near sizes.2 hx.1, fits.round_eq]

/-- A sum of numbers of exponent zero is exact if they and it have room. -/
theorem add_of_exp_eq_zero (hx : x.exp = 0) (hy : y.exp = 0)
    (room : x.coeff < 10 ^ min p.digits 999999) (room' : y.coeff < 10 ^ min p.digits 999999)
    (sum : (exactSum x y).coeff < 10 ^ min p.digits 999999) : add p x y = .ok (exactSum x y) := by
  -- The precision may have more digits than the range of exponents goes, so `add_eq_exactSum` says
  -- nothing here.
  have one := p.one_le
  have exp : (exactSum x y).exp = 0 := by rw [exp_exactSum, hx, hy, min_self]
  have near : ∀ {large small : Decimal}, large.exp = 0 → small.exp = 0 →
      large.coeff < 10 ^ min p.digits 999999 → standIn p large small = small := by
    intro large small exp exp' room
    have count := (digitCount_le_iff (by omega)).mpr room
    have first : large.adjusted = large.exp + digitCount large.coeff - 1 := rfl
    refine standIn_eq_self fun _ => ?_
    omega
  unfold add
  split
  · rw [near hx hy room, (fits_of_exp_eq_zero exp sum).round_eq]
  · rw [near hy hx room', (fits_of_exp_eq_zero exp sum).round_eq]

theorem add_ofNat {m n : ℕ} (room : m + n < 10 ^ min p.digits 999999) :
    add p (ofNat m) (ofNat n) = .ok (ofNat (m + n)) := by
  have sum : exactSum (ofNat m) (ofNat n) = ofNat (m + n) := by
    simp [exactSum, ofNat, padded_eq]
  rw [add_of_exp_eq_zero rfl rfl (lt_of_le_of_lt (Nat.le_add_right m n) room)
    (lt_of_le_of_lt (Nat.le_add_left n m) room) (by rwa [sum]), sum]

/-- Counting down by one is exact. -/
theorem subtract_ofNat_one {n : ℕ} (room : n + 1 < 10 ^ min p.digits 999999) :
    subtract p (ofNat (n + 1)) (ofNat 1) = .ok (ofNat n) := by
  have difference : exactSum (ofNat (n + 1)) (ofNat 1).negate = ofNat n := by
    cases n <;> simp [exactSum, ofNat, negate, padded_eq]
  rw [subtract, add_of_exp_eq_zero rfl rfl room (lt_of_le_of_lt (Nat.le_add_left 1 n) room)
    (by rw [difference]; exact lt_of_le_of_lt (Nat.le_succ n) room), difference]

/-- A product of few enough digits is exact if its exponent leaves room for them. -/
theorem multiply_eq_exactProduct (digits : x.coeff * y.coeff < 10 ^ p.digits)
    (range : (x.exp + y.exp).natAbs + p.digits ≤ maxAdjusted) :
    multiply p x y = .ok (exactProduct x y) := by
  have exp : (exactProduct x y).exp = x.exp + y.exp := rfl
  have one := p.one_le
  have fits : (exactProduct x y).Fits p := by
    refine ⟨digits, ?_, fun _ => ?_, fun _ => ?_⟩
    · unfold leastExp minAdjusted
      unfold maxAdjusted at range
      omega
    · have count := (digitCount_le_iff one).mpr digits
      have first : (exactProduct x y).adjusted =
          x.exp + y.exp + digitCount (x.coeff * y.coeff) - 1 := rfl
      omega
    · omega
  exact fits.round_eq

end Decimal

namespace Operation

variable {p : Precision}

/-- A fold of sums is exact if there is room for the sizes of all that is added. Its partial sums
never get an exponent above zero, so none of them is too large. -/
theorem fold_add_eq {m : ℤ} {t : Decimal} {xs : List Decimal} (least : minAdjusted ≤ m)
    (few : p.digits ≤ maxAdjusted) (start : m ≤ t.exp ∧ t.exp ≤ 0) (others : ∀ x ∈ xs, m ≤ x.exp)
    (room : |t.toRat| + (xs.map fun x => |x.toRat|).sum < 10 ^ (p.digits + m)) :
    add.fold p t xs = .ok (xs.foldl exactSum t) := by
  induction xs generalizing t with
  | nil => rfl
  | cons x xs ih =>
    obtain ⟨first, others⟩ := List.forall_mem_cons.mp others
    rw [List.map_cons, List.sum_cons] at room
    -- The partial sum takes no more of the room than what was added, and leaves that of the rest.
    have size := abs_exactSum_le t x
    have rest := sum_abs_toRat_nonneg xs
    have exp := exp_exactSum t x
    have step : add.run p t x = .ok (exactSum t x) :=
      add_eq_exactSum least few start first (by linarith)
    rw [fold, step]
    exact ih (by omega) others (by linarith)

/-- A fold of products is exact if there is room for the digits and the exponents of all that is
multiplied. Zeros count as one digit, so that they make no room for others. -/
theorem fold_multiply_eq {t : Decimal} {xs : List Decimal}
    (digits : max 1 t.coeff * (xs.map fun x => max 1 x.coeff).prod < 10 ^ p.digits)
    (range : t.exp.natAbs + (xs.map fun x => x.exp.natAbs).sum + p.digits ≤ maxAdjusted) :
    multiply.fold p t xs = .ok (xs.foldl exactProduct t) := by
  induction xs generalizing t with
  | nil => rfl
  | cons x xs ih =>
    rw [List.map_cons, List.prod_cons, ← Nat.mul_assoc] at digits
    rw [List.map_cons, List.sum_cons] at range
    -- The rest of the factors only takes room, so both operands have it alone.
    have both : max 1 t.coeff * max 1 x.coeff < 10 ^ p.digits :=
      (Nat.le_mul_of_pos_right _ (one_le_prod_coeff xs)).trans_lt digits
    have product : t.coeff * x.coeff ≤ max 1 t.coeff * max 1 x.coeff :=
      Nat.mul_le_mul (le_max_right _ _) (le_max_right _ _)
    have next : max 1 (exactProduct t x).coeff ≤ max 1 t.coeff * max 1 x.coeff :=
      max_le (Nat.mul_pos (by omega) (by omega)) product
    have exp : (exactProduct t x).exp = t.exp + x.exp := rfl
    have step : multiply.run p t x = .ok (exactProduct t x) :=
      multiply_eq_exactProduct (product.trans_lt both) (by omega)
    rw [fold, step]
    exact ih ((Nat.mul_le_mul_right _ next).trans_lt digits) (by omega)

/-- A sum that has room for all its summands is the exact total. -/
theorem calculate_add_eq {xs : List Decimal} (few : p.digits ≤ 999999)
    (least : -999999 ≤ leastExponent xs)
    (room : (xs.map fun x => x.coeff * 10 ^ (x.exp - leastExponent xs).toNat).sum < 10 ^ p.digits) :
    add.calculate p xs = .ok (exactTotal xs) := by
  have others : ∀ x ∈ xs, leastExponent xs ≤ x.exp := fun _ => leastExponent_le
  have sizes : |(Decimal.ofNat 0).toRat| + (xs.map fun x => |x.toRat|).sum <
      10 ^ (p.digits + leastExponent xs) := by
    have room' : (((xs.map fun x => x.coeff * 10 ^ (x.exp - leastExponent xs).toNat).sum : ℕ) : ℚ) <
        10 ^ p.digits := by exact_mod_cast room
    rw [toRat_ofNat, Nat.cast_zero, abs_zero, zero_add, sum_abs_toRat others,
      add_comm _ (leastExponent xs), ← ten_zpow_mul]
    exact mul_lt_mul_of_pos_right room' (ten_zpow_pos _)
  have few' : (p.digits : ℤ) ≤ maxAdjusted := by
    unfold maxAdjusted
    omega
  rw [calculate_eq rfl,
    fold_add_eq least few' ⟨leastExponent_le_zero xs, le_rfl⟩ others sizes]
  rfl

/-- A product that has room for the digits and exponents of all its factors is exact. -/
theorem calculate_multiply_eq {xs : List Decimal}
    (digits : (xs.map fun x => max 1 x.coeff).prod < 10 ^ p.digits)
    (range : (xs.map fun x => x.exp.natAbs).sum + p.digits ≤ 999999) :
    multiply.calculate p xs = .ok (exactProductOf xs) := by
  have same : exactProduct (Decimal.ofNat 1) (exactProductOf xs) = exactProductOf xs := by
    simp [exactProduct, Decimal.ofNat]
  have digits' : max 1 (Decimal.ofNat 1).coeff * (xs.map fun x => max 1 x.coeff).prod <
      10 ^ p.digits := by
    rwa [Decimal.ofNat, max_self, Nat.one_mul]
  have range' : ((Decimal.ofNat 1).exp.natAbs + (xs.map fun x => x.exp.natAbs).sum + p.digits : ℤ) ≤
      maxAdjusted := by
    have none : (Decimal.ofNat 1).exp = 0 := rfl
    unfold maxAdjusted
    omega
  rw [calculate_eq rfl, fold_multiply_eq digits' range', foldl_exactProduct, same]
  rfl

end Operation

/-- Values that are numbers are so in any order. -/
theorem numbers_of_perm {vs ws : List Value} {xs : List Decimal} (h : ws.Perm vs)
    (numbers : vs.map Value.number? = xs.map some) :
    ∃ ys : List Decimal, ws.map Value.number? = ys.map some ∧ ys.Perm xs := by
  have order := h.map Value.number?
  rw [numbers] at order
  have split : Relation.Comp (· = List.map some ·) List.Perm (ws.map Value.number?) xs := by
    rw [List.eq_map_comp_perm]
    exact order
  exact split

/-- With no more digits than the range of exponents goes, sums and products that have room for all
their digits are exact, and they are the same number in any order of the arguments. A sum has the
least exponent, and if it is zero it is positive; a product has the product of the coefficients, the
sum of the exponents, and a minus if an odd number of arguments have one. -/
theorem sums_and_products_exact {p : Precision} {vs : List Value} {xs : List Decimal}
    (few : p.digits ≤ 999999) (numbers : vs.map Value.number? = xs.map some) :
    (-999999 ≤ leastExponent xs →
      (xs.map fun x => x.coeff * 10 ^ (x.exp - leastExponent xs).toNat).sum < 10 ^ p.digits →
      ∃ r : Decimal, r.toRat = (xs.map toRat).sum ∧ r.exp = leastExponent xs ∧
        (r.coeff = 0 → r.negative = false) ∧
        ∀ ws : List Value, ws.Perm vs → (Builtin.arithmetic .add).apply p ws = .ok (.number r)) ∧
    ((xs.map fun x => max 1 x.coeff).prod < 10 ^ p.digits →
      (xs.map fun x => x.exp.natAbs).sum + p.digits ≤ 999999 →
      ∀ ws : List Value, ws.Perm vs → (Builtin.arithmetic .multiply).apply p ws =
        .ok (.number ⟨decide (Odd (xs.countP (·.negative))), (xs.map (·.coeff)).prod,
          (xs.map (·.exp)).sum⟩)) := by
  constructor
  · intro least room
    refine ⟨exactTotal xs, toRat_exactTotal xs, exp_exactTotal xs, exactTotal_positive xs, ?_⟩
    intro ws order
    obtain ⟨ys, others, perm⟩ := numbers_of_perm order numbers
    rw [← leastExponent_perm perm] at least room
    rw [← (perm.map _).sum_eq] at room
    rw [Builtin.apply_arithmetic _ _ others, Operation.calculate_add_eq few least room,
      exactTotal_perm perm]
    rfl
  · intro digits range ws order
    obtain ⟨ys, others, perm⟩ := numbers_of_perm order numbers
    rw [← (perm.map _).prod_eq] at digits
    rw [← (perm.map _).sum_eq] at range
    rw [Builtin.apply_arithmetic _ _ others, Operation.calculate_multiply_eq digits range,
      exactProductOf_perm perm]
    rfl

/-- A thousand and minus five hundredths. -/
theorem sums_and_products_exact_thousand :
    Precision.standard.digits ≤ 999999 ∧
      [Value.number ⟨false, 1, 3⟩, .number ⟨true, 5, -2⟩].map Value.number? =
        [⟨false, 1, 3⟩, ⟨true, 5, -2⟩].map some ∧
      (∃ r : Decimal, r.toRat = 99995 / 100 ∧ r.exp = -2 ∧
        (Builtin.arithmetic .add).apply .standard
          [.number ⟨true, 5, -2⟩, .number ⟨false, 1, 3⟩] = .ok (.number r)) ∧
      (Builtin.arithmetic .multiply).apply .standard
        [.number ⟨true, 5, -2⟩, .number ⟨false, 1, 3⟩] = .ok (.number ⟨true, 5, 1⟩) := by
  have few : Precision.standard.digits ≤ 999999 := by decide
  have numbers : [Value.number ⟨false, 1, 3⟩, .number ⟨true, 5, -2⟩].map Value.number? =
      [⟨false, 1, 3⟩, ⟨true, 5, -2⟩].map some := rfl
  have swapped := List.Perm.swap (Value.number ⟨false, 1, 3⟩) (.number ⟨true, 5, -2⟩) []
  obtain ⟨sum, product⟩ := sums_and_products_exact few numbers
  obtain ⟨r, value, exp, -, results⟩ := sum (by decide) (by decide)
  refine ⟨few, numbers, ⟨r, ?_, exp, results _ swapped⟩, product (by decide) (by decide) _ swapped⟩
  rw [value]
  norm_num [toRat, sign]

end DecimalLisp
