import DecimalLisp.Calculation
import DecimalLisp.Proofs.Decimal.Arithmetic

/-!
# Correct rounding of calculations

A call of an arithmetic builtin is a fold over rationals: each step replaces the total by
the rounded exact result, and the first step that fails ends the call. Digits, exponents and
signs of zeros do not occur in that description.
-/

namespace DecimalLisp

open Decimal

namespace Operation

/-- The operation on rationals. -/
def exact : Operation → ℚ → ℚ → ℚ
  | add, q, r => q + r
  | subtract, q, r => q - r
  | multiply, q, r => q * r
  | divide, q, r => q / r

/-- One step of a fold over rationals. Division by zero fails, and so does a result that is
too large once it is rounded. -/
def exactStep (p : Precision) (operation : Operation) (q r : ℚ) : Except ArithmeticFault ℚ :=
  if operation = divide ∧ r = 0 then .error (if q = 0 then .undefinedQuotient else .divisionByZero)
  else rounding p (operation.exact q r)

/-- Where a fold over rationals starts and what it runs over. -/
def exactOperands : Operation → List ℚ → ℚ × List ℚ
  | subtract, q :: r :: rest => (q, r :: rest)
  | divide, q :: r :: rest => (q, r :: rest)
  | add, qs => (0, qs)
  | subtract, qs => (0, qs)
  | multiply, qs => (1, qs)
  | divide, qs => (1, qs)

/-- The fold over rationals, up to the first step that fails. -/
def exactFold (p : Precision) (operation : Operation) (qs : List ℚ) : Except ArithmeticFault ℚ :=
  (operation.exactOperands qs).2.foldlM (operation.exactStep p) (operation.exactOperands qs).1

/-- The fold over rationals succeeds on some of them and fails at the next. -/
def FailsFirst (p : Precision) (operation : Operation) (qs : List ℚ) (cause : ArithmeticFault) :
    Prop :=
  ∃ before r after q, (operation.exactOperands qs).2 = before ++ r :: after ∧
    before.foldlM (operation.exactStep p) (operation.exactOperands qs).1 = .ok q ∧
    operation.exactStep p q r = .error cause

/-- One step on numbers is the step on their values. -/
theorem run_toRat (p : Precision) (operation : Operation) (x y : Decimal) :
    (operation.run p x y).map toRat = operation.exactStep p x.toRat y.toRat := by
  cases operation with
  | add => exact add_toRat p x y
  | subtract => exact subtract_toRat p x y
  | multiply => exact multiply_toRat p x y
  | divide =>
    unfold exactStep
    by_cases hy : y.coeff = 0
    · rw [if_pos ⟨rfl, toRat_eq_zero_iff.mpr hy⟩, if_congr toRat_eq_zero_iff rfl rfl]
      change (Decimal.divide p x y).map toRat = _
      rw [Decimal.divide, if_pos hy]
      rfl
    · rw [if_neg fun h => hy (toRat_eq_zero_iff.mp h.2)]
      exact divide_toRat p x hy

/-- The fold over numbers is the fold over their values. -/
theorem fold_toRat (p : Precision) (operation : Operation) (x : Decimal) (xs : List Decimal) :
    (operation.fold p x xs).map toRat =
      (xs.map toRat).foldlM (operation.exactStep p) x.toRat := by
  induction xs generalizing x with
  | nil => rfl
  | cons y rest ih =>
    have step := run_toRat p operation x y
    rw [fold, List.map_cons, List.foldlM_cons, ← step]
    cases operation.run p x y with
    | ok next => exact ih next
    | error cause => rfl

/-- The operands of a call have the values of the operands of the fold over rationals. -/
theorem operands?_toRat {operation : Operation} {xs : List Decimal}
    (given : operation = subtract ∨ operation = divide → xs ≠ []) :
    ∃ start rest, operation.operands? xs = some (start, rest) ∧
      operation.exactOperands (xs.map toRat) = (start.toRat, rest.map toRat) := by
  cases operation with
  | add => exact ⟨_, _, rfl, by rw [toRat_ofNat]; rfl⟩
  | multiply => exact ⟨_, _, rfl, by rw [toRat_ofNat]; rfl⟩
  | subtract =>
    rcases xs with _ | ⟨x, _ | ⟨y, rest⟩⟩
    · exact absurd rfl (given (Or.inl rfl))
    · exact ⟨_, _, rfl, by rw [toRat_ofNat]; rfl⟩
    · exact ⟨_, _, rfl, rfl⟩
  | divide =>
    rcases xs with _ | ⟨x, _ | ⟨y, rest⟩⟩
    · exact absurd rfl (given (Or.inr rfl))
    · exact ⟨_, _, rfl, by rw [toRat_ofNat]; rfl⟩
    · exact ⟨_, _, rfl, rfl⟩

/-- A calculation is the fold over its operands. -/
theorem calculate_eq {p : Precision} {operation : Operation} {xs rest : List Decimal}
    {start : Decimal} (taken : operation.operands? xs = some (start, rest)) :
    operation.calculate p xs = (operation.fold p start rest).mapError .arithmetic := by
  rw [calculate, taken]
  dsimp only
  cases operation.fold p start rest <;> rfl

/-- A fold that may fail fails at the first step that does. -/
theorem exactFold_eq_error_iff {p : Precision} {operation : Operation} {qs : List ℚ}
    {cause : ArithmeticFault} :
    operation.exactFold p qs = .error cause ↔ operation.FailsFirst p qs cause := by
  unfold exactFold FailsFirst
  generalize (operation.exactOperands qs).1 = start
  generalize (operation.exactOperands qs).2 = rest
  constructor
  · intro h
    induction rest generalizing start with
    | nil => cases h
    | cons r rest ih =>
      rw [List.foldlM_cons] at h
      cases hs : operation.exactStep p start r with
      | error cause' =>
        rw [hs] at h
        cases h
        exact ⟨[], r, rest, start, rfl, rfl, hs⟩
      | ok next =>
        rw [hs] at h
        obtain ⟨before, r', after, q, rfl, hq, hr⟩ := ih next h
        refine ⟨r :: before, r', after, q, rfl, ?_, hr⟩
        rw [List.foldlM_cons, hs]
        exact hq
  · rintro ⟨before, r, after, q, rfl, hq, hr⟩
    rw [List.foldlM_append, hq]
    change (r :: after).foldlM (operation.exactStep p) q = _
    rw [List.foldlM_cons, hr]
    rfl

end Operation

namespace Builtin

/-- Values that are numbers are taken as those numbers. -/
theorem numbers_of_map {vs : List Value} {xs : List Decimal}
    (h : vs.map Value.number? = xs.map some) : numbers vs = .ok xs := by
  induction vs generalizing xs with
  | nil =>
    cases xs with
    | nil => rfl
    | cons => cases h
  | cons v rest ih =>
    cases xs with
    | nil => cases h
    | cons x xs =>
      rw [List.map_cons, List.map_cons, List.cons.injEq] at h
      rw [numbers, h.1]
      dsimp only
      rw [ih h.2]

/-- A call on values that are numbers calculates with them. -/
theorem apply_arithmetic (p : Precision) (operation : Operation) {vs : List Value}
    {xs : List Decimal} (h : vs.map Value.number? = xs.map some) :
    (arithmetic operation).apply p vs = (operation.calculate p xs).map .number := by
  rw [apply, numbers_of_map h]
  dsimp only
  cases operation.calculate p xs <;> rfl

/-- A call that succeeds has calculated with numbers, and its result is a number. -/
theorem calculate_of_apply {p : Precision} {operation : Operation} {vs : List Value} {r : Value}
    (h : (arithmetic operation).apply p vs = .ok r) :
    ∃ xs x, operation.calculate p xs = .ok x ∧ r = .number x := by
  rw [apply] at h
  split at h
  · cases h
  · split at h
    · next result =>
      cases h
      exact ⟨_, _, result, rfl⟩
    · cases h

end Builtin

/-- A call of an arithmetic builtin on numbers gives a number of the value to which the fold
over rationals comes, and it fails just where that fold fails first. -/
theorem arithmetic_correctly_rounded (p : Precision) (operation : Operation) {vs : List Value}
    {xs : List Decimal} (numbers : vs.map Value.number? = xs.map some)
    (given : operation = .subtract ∨ operation = .divide → xs ≠ []) :
    (∀ q, (∃ x, (Builtin.arithmetic operation).apply p vs = .ok (.number x) ∧ x.toRat = q) ↔
      operation.exactFold p (xs.map toRat) = .ok q) ∧
    (∀ fault, (Builtin.arithmetic operation).apply p vs = .error fault ↔
      ∃ cause, fault = .arithmetic cause ∧ operation.FailsFirst p (xs.map toRat) cause) := by
  obtain ⟨start, rest, taken, values⟩ := Operation.operands?_toRat given
  have value : operation.exactFold p (xs.map toRat) = (operation.fold p start rest).map toRat := by
    rw [Operation.fold_toRat, Operation.exactFold, values]
  have call : (Builtin.arithmetic operation).apply p vs =
      ((operation.fold p start rest).map Value.number).mapError .arithmetic := by
    rw [Builtin.apply, Builtin.numbers_of_map numbers]
    dsimp only
    rw [Operation.calculate, taken]
    dsimp only
    cases operation.fold p start rest <;> rfl
  simp only [← Operation.exactFold_eq_error_iff]
  rw [value, call]
  cases operation.fold p start rest with
  | ok x => simp [Except.map, Except.mapError]
  | error cause => simp [Except.map, Except.mapError, eq_comm]

/-- One divided by four is a quarter on rationals too. -/
theorem arithmetic_correctly_rounded_quarter :
    [Value.number (.ofNat 1), .constant (.ofNat 4)].map Value.number? =
        [Decimal.ofNat 1, .ofNat 4].map some ∧
      [Decimal.ofNat 1, .ofNat 4] ≠ [] ∧
      Operation.divide.exactFold .standard ([.ofNat 1, .ofNat 4].map toRat) = .ok (1 / 4) := by
  have numbers : [Value.number (.ofNat 1), .constant (.ofNat 4)].map Value.number? =
      [Decimal.ofNat 1, .ofNat 4].map some := rfl
  have given : [Decimal.ofNat 1, .ofNat 4] ≠ [] := List.cons_ne_nil _ _
  have values := (arithmetic_correctly_rounded .standard .divide numbers fun _ => given).1 (1 / 4)
  refine ⟨numbers, given, values.mp ⟨⟨false, 25, -2⟩, rfl, ?_⟩⟩
  norm_num [toRat, sign]

/-- Division by zero is not all that fails: a product of two numbers within the range of
exponents may be too large for it. -/
theorem product_overflows :
    ¬ ∀ (p : Precision) (operation : Operation) (xs : List Decimal) (cause : ArithmeticFault),
      (∀ x ∈ xs, x.exp.natAbs ≤ 999999999999999999 ∧ x.adjusted.natAbs ≤ 999999999999999999) →
      (Builtin.arithmetic operation).apply p (xs.map .number) = .error (.arithmetic cause) →
      operation = .divide ∧ ∃ y ∈ xs, y.toRat = 0 := by
  intro claim
  have failing := claim .standard .multiply [⟨false, 1, 999999⟩, .ofNat 10] .overflow
    (by decide) rfl
  cases failing.1

end DecimalLisp
