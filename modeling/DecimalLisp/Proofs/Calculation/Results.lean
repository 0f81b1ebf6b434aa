import DecimalLisp.Proofs.Calculation
import DecimalLisp.Proofs.Decimal.Canonical
import DecimalLisp.Proofs.Decimal.Fits
import DecimalLisp.Proofs.Reader

/-!
# Results of calculations

Whatever the arguments of a call are, its result fits the precision: the last step of the fold has
rounded it. The reader admits a narrower range of numerals than the range of results. It has the
same upper end, but results go on below its lower end, where they lose digits. So a printed result
can be read back unless it is one of those.
-/

namespace DecimalLisp

open Decimal

/-- The largest precision in which numbers of one value are printed alike whatever results they are.
In higher ones a result can be too small to be shown and still have several forms. -/
def Precision.mostShown : ℕ := 999999999999000002

namespace Decimal

/-- The numbers other than zero that are smaller than a result with all its digits. -/
def Subnormal (x : Decimal) : Prop :=
  x.coeff ≠ 0 ∧ x.adjusted < minAdjusted

end Decimal

namespace Operation

variable {p : Precision} {operation : Operation}

/-- The result of a step fits, whatever the operands. -/
theorem fits_of_run {x y z : Decimal} (h : operation.run p x y = .ok z) : z.Fits p := by
  cases operation with
  | add => exact fits_of_add h
  | subtract => exact fits_of_add h
  | multiply => exact fits_of_round h
  | divide => exact fits_of_divide h

/-- The result of a fold fits if the fold starts from a number that does or takes a step. -/
theorem fits_of_fold {start x : Decimal} {rest : List Decimal} (given : start.Fits p ∨ rest ≠ [])
    (h : operation.fold p start rest = .ok x) : x.Fits p := by
  induction rest generalizing start with
  | nil =>
    cases h
    exact given.resolve_right (not_not_intro rfl)
  | cons y rest ih =>
    rw [fold] at h
    split at h
    · next step => exact ih (.inl (fits_of_run step)) h
    · cases h

/-- A fold starts from zero or one, or from the first of several numbers and takes a step. -/
theorem fits_of_operands? {xs rest : List Decimal} {start : Decimal}
    (taken : operation.operands? xs = some (start, rest)) : start.Fits p ∨ rest ≠ [] := by
  have zero : (Decimal.ofNat 0).Fits p := fits_ofNat (by omega)
  have one : (Decimal.ofNat 1).Fits p := fits_ofNat (by omega)
  cases operation with
  | add =>
    cases taken
    exact .inl zero
  | multiply =>
    cases taken
    exact .inl one
  | subtract =>
    rcases xs with _ | ⟨x, _ | ⟨y, more⟩⟩ <;> cases taken
    · exact .inl zero
    · exact .inr (List.cons_ne_nil _ _)
  | divide =>
    rcases xs with _ | ⟨x, _ | ⟨y, more⟩⟩ <;> cases taken
    · exact .inl one
    · exact .inr (List.cons_ne_nil _ _)

/-- Every result of a calculation fits the precision. -/
theorem fits_of_calculate {xs : List Decimal} {x : Decimal}
    (h : operation.calculate p xs = .ok x) : x.Fits p := by
  rw [calculate] at h
  split at h
  · cases h
  · next taken =>
    split at h
    · next result =>
      cases h
      exact fits_of_fold (fits_of_operands? taken) result
    · cases h

end Operation

namespace Decimal

variable {p : Precision} {x : Decimal}

/-- A number that fits a precision below the largest by the range of exponents is printed. -/
theorem Fits.printed (h : x.Fits p) (few : p.digits ≤ 999999999999000001) : x.Printed := by
  have least := h.least
  have digit := one_le_digitCount x.coeff
  right
  unfold leastExp minAdjusted at least
  unfold leastPrinted adjusted
  omega

/-- In one precision more the last digit of a number that fits stands at most one place too low to
be shown. So numbers of one value that fit have one plain text. -/
theorem Fits.plainText_congr {p' : Precision} {y : Decimal} (hx : x.Fits p) (hy : y.Fits p')
    (few : p.digits ≤ Precision.mostShown) (few' : p'.digits ≤ Precision.mostShown)
    (h : x.toRat = y.toRat) : x.plainText = y.plainText := by
  have least := hx.least
  have least' := hy.least
  unfold leastExp minAdjusted at least least'
  unfold Precision.mostShown at few few'
  refine plainText_congr_of_le_exp ?_ ?_ h <;> unfold leastPrinted <;> omega

/-- The printed text of a number that fits is read as a number of the same value, or it is out of
range because the number is subnormal. -/
theorem Fits.atom_plainText (h : x.Fits p) (precision : p.digits ≤ Precision.most)
    (printed : x.Printed) :
    (x.Subnormal →
      Reader.atom (String.ofList x.plainText) = .error (.outOfRange (String.ofList x.plainText))) ∧
    (¬ x.Subnormal → ∃ y,
      Reader.atom (String.ofList x.plainText) = .ok (.number y) ∧ y.toRat = x.toRat) := by
  by_cases hz : x.coeff = 0
  · refine ⟨fun small => absurd hz small.1, fun _ => ⟨_, Reader.atom_plainText_zero hz, ?_⟩⟩
    rw [toRat_eq_zero_iff.mpr hz, toRat_eq_zero_iff.mpr rfl]
  · have least := h.least
    have first := h.first hz
    have carried : minExponent ≤ x.exp := by
      unfold leastExp minAdjusted at least
      unfold Precision.most at precision
      unfold minExponent
      omega
    have range : maxAdjusted ≤ maxExponent := by decide
    have mirror : minAdjusted = -maxAdjusted := rfl
    obtain ⟨y, value, read⟩ :=
      Reader.atom_plainText_eq hz (printed.resolve_left hz) carried (by omega)
    rw [read]
    unfold Subnormal
    constructor
    · intro small
      exact if_pos (by omega)
    · intro normal
      have near : ¬ x.adjusted < minAdjusted := fun low => normal ⟨hz, low⟩
      exact ⟨y, if_neg (by omega), value⟩

end Decimal

/-- Every result of arithmetic fits the precision, whatever the arguments. A result that is printed
can be read back as a number of the same value unless it is subnormal, and just the subnormal ones
are out of range. Below the largest precisions every result is printed. -/
theorem result_fits {p : Precision} {operation : Operation} {vs : List Value} {r : Value}
    (called : (Builtin.arithmetic operation).apply p vs = .ok r) :
    ∃ x : Decimal, r = .number x ∧ x.Fits p ∧
      (p.digits ≤ 999999999999000001 → x.Printed) ∧
      (p.digits ≤ Precision.most → x.Printed →
        ((∃ y, Reader.atom r.print = .ok (.number y) ∧ y.toRat = x.toRat) ↔ ¬ x.Subnormal) ∧
        ((∃ fault, Reader.atom r.print = .error fault ∧ fault.kind = .malformed ∧
          fault.message = "numeral out of range: " ++ r.print) ↔ x.Subnormal)) := by
  obtain ⟨xs, x, result, rfl⟩ := Builtin.calculate_of_apply called
  have fits := Operation.fits_of_calculate result
  refine ⟨x, rfl, fits, fits.printed, fun precision printed => ?_⟩
  obtain ⟨small, normal⟩ := fits.atom_plainText precision printed
  rw [Value.print_of_number rfl]
  by_cases h : x.Subnormal
  · have read := small h
    refine ⟨iff_of_false ?_ (not_not_intro h), iff_of_true ⟨_, read, rfl, rfl⟩ h⟩
    rintro ⟨y, other, _⟩
    rw [read] at other
    cases other
  · obtain ⟨y, read, value⟩ := normal h
    refine ⟨iff_of_true ⟨y, read, value⟩ h, iff_of_false ?_ h⟩
    rintro ⟨fault, other, _⟩
    rw [read] at other
    cases other

/-- A third of the smallest number with all its digits loses a digit, and then it is out of range
for the reader. -/
theorem result_fits_third :
    (Builtin.arithmetic .divide).apply ⟨2, by decide⟩
        [.number ⟨false, 1, -999999⟩, .number (.ofNat 3)] =
      .ok (.number ⟨false, 3, -1000000⟩) ∧
    (⟨false, 3, -1000000⟩ : Decimal).Fits ⟨2, by decide⟩ ∧
    (⟨false, 3, -1000000⟩ : Decimal).Subnormal ∧
    ∃ fault, Reader.atom (Value.number ⟨false, 3, -1000000⟩).print = .error fault ∧
      fault.kind = .malformed := by
  have called : (Builtin.arithmetic .divide).apply ⟨2, by decide⟩
      [.number ⟨false, 1, -999999⟩, .number (.ofNat 3)] =
      .ok (.number ⟨false, 3, -1000000⟩) := rfl
  have small : (⟨false, 3, -1000000⟩ : Decimal).Subnormal := ⟨nofun, by decide⟩
  obtain ⟨x, result, fits, printed, back⟩ := result_fits called
  cases result
  obtain ⟨fault, read, kind, _⟩ := (back (by decide) (printed (by decide))).2.mpr small
  exact ⟨called, fits, small, fault, read, kind⟩

/-- At the largest precision a product can be so small that only a zero is printed of it. That zero
is read back, though the product is subnormal. -/
theorem tiny_result_read_as_zero :
    (Builtin.arithmetic .multiply).apply ⟨Precision.most, by decide⟩
        [.number ⟨false, 1, -999999999999999999⟩, .number ⟨false, 1, -1⟩] =
      .ok (.number ⟨false, 1, -1000000000000000000⟩) ∧
    (⟨false, 1, -1000000000000000000⟩ : Decimal).Subnormal ∧
    Reader.atom (Value.number ⟨false, 1, -1000000000000000000⟩).print =
      .ok (.number ⟨false, 0, 0⟩) := by
  have numbers : [Value.number ⟨false, 1, -999999999999999999⟩, .number ⟨false, 1, -1⟩].map
      Value.number? = [⟨false, 1, -999999999999999999⟩, ⟨false, 1, -1⟩].map some := rfl
  have product : Operation.multiply.fold ⟨Precision.most, by decide⟩ (.ofNat 1)
      [⟨false, 1, -999999999999999999⟩, ⟨false, 1, -1⟩] =
      .ok ⟨false, 1, -1000000000000000000⟩ := by decide +kernel
  refine ⟨?_, ⟨nofun, by decide⟩, rfl⟩
  rw [Builtin.apply_arithmetic _ _ numbers, Operation.calculate_eq rfl, product]
  rfl

end DecimalLisp
