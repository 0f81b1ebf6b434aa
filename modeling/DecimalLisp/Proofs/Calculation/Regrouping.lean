import DecimalLisp.Proofs.Calculation.Results

/-!
# Regrouped calculations

A call can be split after its first arguments: their result is the first argument of a second call.
For differences and quotients the second fold goes on where the first has ended. For sums and
products it takes one more step, from the number that changes nothing to that result. The result
fits, so this step gives it back: exactly for a product, and with the same value for a sum, which
may have another exponent then. From there on only values matter.
-/

namespace DecimalLisp

open Decimal

namespace Operation

variable {p : Precision} {operation : Operation}

/-! ## Folds -/

/-- A fold over two lists goes on over the second from where it has ended over the first. -/
theorem fold_append (p : Precision) (operation : Operation) (t : Decimal) (xs ys : List Decimal) :
    operation.fold p t (xs ++ ys) =
      (operation.fold p t xs).bind fun r => operation.fold p r ys := by
  induction xs generalizing t with
  | nil => rfl
  | cons x xs ih =>
    rw [List.cons_append, fold, fold]
    cases operation.run p t x with
    | ok next => exact ih next
    | error cause => rfl

/-- A product that starts from one with a number that fits goes on from that number. -/
theorem fold_multiply_one {r : Decimal} (fits : r.Fits p) (ys : List Decimal) :
    multiply.fold p (.ofNat 1) (r :: ys) = multiply.fold p r ys := by
  have step : multiply.run p (.ofNat 1) r = .ok r := fits.multiply_one
  rw [fold, step]

/-- A sum that starts from zero with a number that fits comes to the value of one that starts from
that number. -/
theorem fold_add_zero {r : Decimal} (fits : r.Fits p) (ys : List Decimal) :
    (add.fold p (.ofNat 0) (r :: ys)).map toRat = (add.fold p r ys).map toRat := by
  have step : add.exactStep p (Decimal.ofNat 0).toRat r.toRat = .ok r.toRat :=
    (run_toRat p add (.ofNat 0) r).symm.trans fits.add_zero
  rw [fold_toRat, fold_toRat, List.map_cons, List.foldlM_cons, step]
  rfl

/-! ## Calculations -/

/-- The value of a calculation is that of the fold over its operands. -/
theorem calculate_toRat {xs rest : List Decimal} {start : Decimal}
    (taken : operation.operands? xs = some (start, rest)) :
    (operation.calculate p xs).map toRat =
      ((operation.fold p start rest).map toRat).mapError .arithmetic := by
  rw [calculate_eq taken]
  cases operation.fold p start rest <;> rfl

/-- The first of several numbers is where differences and quotients start. -/
theorem operands?_cons (given : operation = subtract ∨ operation = divide) (x : Decimal)
    {xs : List Decimal} (several : xs ≠ []) : operation.operands? (x :: xs) = some (x, xs) := by
  cases xs with
  | nil => exact absurd rfl several
  | cons y xs => rcases given with rfl | rfl <;> rfl

/-- A calculation that has its operands fails by arithmetic alone. -/
theorem kind_of_calculate {xs : List Decimal} {fault : Fault}
    (given : operation = subtract ∨ operation = divide → xs ≠ [])
    (h : operation.calculate p xs = .error fault) : fault.kind = .arithmetic := by
  obtain ⟨start, rest, taken, -⟩ := operands?_toRat given
  rw [calculate, taken] at h
  dsimp only at h
  split at h
  · cases h
  · cases h
    rfl

/-- The result of a product is the first of further factors as if the product went on. -/
theorem calculate_multiply_append (p : Precision) (xs ys : List Decimal) :
    multiply.calculate p (xs ++ ys) =
      (multiply.calculate p xs).bind fun r => multiply.calculate p (r :: ys) := by
  rw [calculate_eq rfl, calculate_eq rfl, fold_append]
  cases result : multiply.fold p (.ofNat 1) xs with
  | error cause => rfl
  | ok r =>
    have fits := fits_of_fold (.inl (fits_ofNat (by omega))) result
    change (multiply.fold p r ys).mapError Fault.arithmetic = multiply.calculate p (r :: ys)
    rw [calculate_eq rfl, fold_multiply_one fits]

/-- The result of a difference or quotient of several numbers is the first of others as if the fold
went on. -/
theorem calculate_first_append (given : operation = subtract ∨ operation = divide)
    {xs ys : List Decimal} (several : 2 ≤ xs.length) (more : ys ≠ []) :
    operation.calculate p (xs ++ ys) =
      (operation.calculate p xs).bind fun r => operation.calculate p (r :: ys) := by
  cases xs with
  | nil => cases several
  | cons x rest =>
    have others : rest ≠ [] := List.ne_nil_of_length_pos (Nat.le_of_succ_le_succ several)
    have joined := operands?_cons given x (List.append_ne_nil_of_left_ne_nil others ys)
    rw [List.cons_append, calculate_eq joined, calculate_eq (operands?_cons given x others),
      fold_append]
    cases operation.fold p x rest with
    | error cause => rfl
    | ok r => exact (calculate_eq (operands?_cons given r more)).symm

/-- The result of anything but a sum is the first of further operands as if the fold went on. -/
theorem calculate_append (other : operation ≠ add) {xs ys : List Decimal}
    (given : operation = subtract ∨ operation = divide → 2 ≤ xs.length ∧ ys ≠ []) :
    operation.calculate p (xs ++ ys) =
      (operation.calculate p xs).bind fun r => operation.calculate p (r :: ys) := by
  by_cases product : operation = multiply
  · rw [product, calculate_multiply_append]
  · have first : operation = subtract ∨ operation = divide := by
      cases operation with
      | add => exact absurd rfl other
      | multiply => exact absurd rfl product
      | subtract => exact .inl rfl
      | divide => exact .inr rfl
    exact calculate_first_append first (given first).1 (given first).2

/-- The result of a sum is the first of further summands as if the sum went on, up to the form of
the numbers. -/
theorem calculate_add_append (p : Precision) (xs ys : List Decimal) :
    (add.calculate p (xs ++ ys)).map toRat =
      ((add.calculate p xs).bind fun r => add.calculate p (r :: ys)).map toRat := by
  rw [calculate_toRat rfl, calculate_eq rfl, fold_append]
  cases result : add.fold p (.ofNat 0) xs with
  | error cause => rfl
  | ok r =>
    have fits := fits_of_fold (.inl (fits_ofNat (by omega))) result
    change ((add.fold p r ys).map toRat).mapError Fault.arithmetic =
      (add.calculate p (r :: ys)).map toRat
    rw [calculate_toRat rfl, fold_add_zero fits]

end Operation

/-- The rational that a value stands for if it is a number. -/
def Value.toRat? (v : Value) : Option ℚ :=
  v.number?.map toRat

/-- Values that stand for rationals are numbers of these values. -/
theorem Value.exists_numbers {vs : List Value} {qs : List ℚ}
    (h : vs.map Value.toRat? = qs.map some) :
    ∃ xs : List Decimal, vs.map Value.number? = xs.map some ∧ xs.map toRat = qs := by
  induction vs generalizing qs with
  | nil =>
    cases qs with
    | nil => exact ⟨[], rfl, rfl⟩
    | cons => cases h
  | cons v rest ih =>
    cases qs with
    | nil => cases h
    | cons q qs =>
      rw [List.map_cons, List.map_cons, List.cons.injEq] at h
      obtain ⟨x, number, rfl⟩ := Option.map_eq_some_iff.mp h.1
      obtain ⟨xs, numbers, rfl⟩ := ih h.2
      exact ⟨x :: xs, by rw [List.map_cons, List.map_cons, number, numbers], rfl⟩

namespace Builtin

variable {p : Precision} {operation : Operation}

/-- The builtin called on the first arguments, and then on its result and the others. -/
def regrouped (builtin : Builtin) (p : Precision) (vs ws : List Value) : Except Fault Value :=
  (builtin.apply p vs).bind fun r => builtin.apply p (r :: ws)

/-- The two calls calculate with the result of the first. -/
theorem regrouped_arithmetic (p : Precision) (operation : Operation) {vs ws : List Value}
    {xs ys : List Decimal} (left : vs.map Value.number? = xs.map some)
    (right : ws.map Value.number? = ys.map some) :
    (arithmetic operation).regrouped p vs ws =
      ((operation.calculate p xs).bind fun r => operation.calculate p (r :: ys)).map .number := by
  rw [regrouped, apply_arithmetic p operation left]
  cases operation.calculate p xs with
  | error fault => rfl
  | ok r =>
    have numbers : (Value.number r :: ws).map Value.number? = (r :: ys).map some :=
      congrArg (some r :: ·) right
    exact apply_arithmetic p operation numbers

/-- A call on numbers, enough of them, fails by arithmetic alone. -/
theorem kind_of_apply {vs : List Value} {xs : List Decimal} {fault : Fault}
    (numbers : vs.map Value.number? = xs.map some)
    (given : operation = .subtract ∨ operation = .divide → xs ≠ [])
    (h : (arithmetic operation).apply p vs = .error fault) : fault.kind = .arithmetic := by
  rw [apply, numbers_of_map numbers] at h
  dsimp only at h
  split at h
  · cases h
  · next failed =>
    cases h
    exact Operation.kind_of_calculate given failed

/-- The value of a call is that of the number that it calculates. -/
theorem map_toRat? (result : Except Fault Decimal) :
    (result.map Value.number).map Value.toRat? = (result.map toRat).map some := by
  cases result <;> rfl

/-- A result keeps its value when it is added up alone, and it is the same number when it is
multiplied alone. -/
theorem apply_result {vs : List Value} {r : Value}
    (called : (arithmetic operation).apply p vs = .ok r) :
    ((arithmetic .add).apply p [r]).map Value.toRat? = .ok r.toRat? ∧
      (arithmetic .multiply).apply p [r] = .ok r := by
  obtain ⟨xs, x, result, rfl⟩ := calculate_of_apply called
  have fits := Operation.fits_of_calculate result
  have alone : [Value.number x].map Value.number? = [x].map some := rfl
  constructor
  · rw [apply_arithmetic p .add alone, map_toRat?, Operation.calculate_toRat rfl,
      Operation.fold_add_zero fits]
    rfl
  · rw [apply_arithmetic p .multiply alone, Operation.calculate_eq rfl,
      Operation.fold_multiply_one fits]
    rfl

end Builtin

/-- A call of an arithmetic builtin on numbers can be regrouped on the left: it succeeds or fails,
with the same fault, as the call on the first arguments followed by the call on its result and the
others. The values are the same, and unless it is a sum, so are the numbers. The result of any
arithmetic keeps its value when it is added up alone and is the same number when it is multiplied
alone. -/
theorem arithmetic_regroups {p : Precision} {operation : Operation} {vs ws : List Value}
    {xs ys : List Decimal} (left : vs.map Value.number? = xs.map some)
    (right : ws.map Value.number? = ys.map some)
    (given : operation = .subtract ∨ operation = .divide → 2 ≤ xs.length ∧ ys ≠ []) :
    ((Builtin.arithmetic operation).apply p (vs ++ ws)).map Value.toRat? =
        ((Builtin.arithmetic operation).regrouped p vs ws).map Value.toRat? ∧
      (operation ≠ .add → (Builtin.arithmetic operation).apply p (vs ++ ws) =
        (Builtin.arithmetic operation).regrouped p vs ws) ∧
      (∀ fault, (Builtin.arithmetic operation).apply p (vs ++ ws) = .error fault →
        fault.kind = .arithmetic) ∧
      ∀ (other : Operation) (us : List Value) (r : Value),
        (Builtin.arithmetic other).apply p us = .ok r →
          ((Builtin.arithmetic .add).apply p [r]).map Value.toRat? = .ok r.toRat? ∧
          (Builtin.arithmetic .multiply).apply p [r] = .ok r := by
  have joined : (vs ++ ws).map Value.number? = (xs ++ ys).map some := by
    rw [List.map_append, List.map_append, left, right]
  have once := Builtin.apply_arithmetic p operation joined
  have twice := Builtin.regrouped_arithmetic p operation left right
  refine ⟨?_, fun other => ?_, fun fault failed => ?_, fun _ _ _ => Builtin.apply_result⟩
  · rw [once, twice, Builtin.map_toRat?, Builtin.map_toRat?]
    by_cases sum : operation = .add
    · rw [sum, Operation.calculate_add_append]
    · rw [Operation.calculate_append sum given]
  · rw [once, twice, Operation.calculate_append other given]
  · refine Builtin.kind_of_apply joined (fun several => ?_) failed
    exact List.append_ne_nil_of_right_ne_nil xs (given several).2

/-- A third of a third at once and in two calls. -/
theorem arithmetic_regroups_third :
    [Value.number (.ofNat 1), .number (.ofNat 3)].map Value.number? =
        [Decimal.ofNat 1, .ofNat 3].map some ∧
      [Value.number (.ofNat 3)].map Value.number? = [Decimal.ofNat 3].map some ∧
      2 ≤ [Decimal.ofNat 1, .ofNat 3].length ∧ [Decimal.ofNat 3] ≠ [] ∧
      (Builtin.arithmetic .divide).apply .standard
          [.number (.ofNat 1), .number (.ofNat 3), .number (.ofNat 3)] =
        (Builtin.arithmetic .divide).regrouped .standard
          [.number (.ofNat 1), .number (.ofNat 3)] [.number (.ofNat 3)] := by
  have left : [Value.number (.ofNat 1), .number (.ofNat 3)].map Value.number? =
      [Decimal.ofNat 1, .ofNat 3].map some := rfl
  have right : [Value.number (.ofNat 3)].map Value.number? = [Decimal.ofNat 3].map some := rfl
  have several : 2 ≤ [Decimal.ofNat 1, .ofNat 3].length := by decide
  have more : [Decimal.ofNat 3] ≠ [] := List.cons_ne_nil _ _
  have regroups := @arithmetic_regroups .standard .divide _ _ _ _ left right
    fun _ => ⟨several, more⟩
  exact ⟨left, right, several, more, regroups.2.1 nofun⟩

/-- A sum of one number has its value, though not always its exponent. -/
example : (Builtin.arithmetic .add).apply .standard [.number ⟨false, 1, 2⟩] =
    .ok (.number ⟨false, 100, 0⟩) := rfl

end DecimalLisp
