import DecimalLisp.Proofs.Likeness.Calculation

/-!
# Exact likeness

Two runs are exactly alike when even the forms of their numbers agree, so that they differ in the
numbers of frames and in hidden names only.
-/

namespace DecimalLisp

namespace Likeness

/-- Numbers are alike if they are the same. -/
def exact (hidden : String → Bool) (shared extra : ℕ) : Likeness where
  literal := Eq
  number := Eq
  hidden := hidden
  shared := shared
  extra := extra
  number_of_literal same := same
  refl _ := rfl
  plainText same := same ▸ rfl
  compare same same' := same ▸ same' ▸ rfl

variable {hidden : String → Bool} {shared extra : ℕ}

/-- Arithmetic on the same numbers in one precision is the same. -/
theorem exact_agrees (p : Precision) (operation : Operation) (x y : Decimal) :
    (exact hidden shared extra).Agrees p p operation x y := by
  rintro x' y' rfl rfl
  cases operation.run p x y with
  | ok z => exact .ok rfl
  | error cause => exact .error rfl

/-- Pieces of code that are exactly alike are the same. -/
theorem exact_code_eq {v w : Value} (h : (exact hidden shared extra).Code v w) : v = w :=
  h.eq fun same => same

end Likeness

end DecimalLisp
