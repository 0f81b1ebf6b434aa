import DecimalLisp.Decimal.Basic

/-!
# Rounding to a precision

Every result of arithmetic is rounded once: to at most as many digits as the
precision allows, half going to the even neighbour, and to a range of exponents.
Above the range the result overflows. Below it digits are lost gradually, down to
zero, and nothing is reported. A number that fits is left exactly as it is.
-/

namespace DecimalLisp

/-- The number of significant digits that results are rounded to. -/
structure Precision where
  /-- How many digits. -/
  digits : Nat
  /-- A result has at least one digit. -/
  one_le : 1 ≤ digits
deriving DecidableEq, Repr

namespace Precision

/-- The largest precision. -/
def most : Nat := 999999999999999999

/-- The precision in use where none is asked for. -/
def standard : Precision := ⟨38, by decide⟩

/-- An integer as a precision, when it lies between one and the largest. -/
def ofInt? (n : Int) : Option Precision :=
  if h : 1 ≤ n ∧ n ≤ (most : Int) then some ⟨n.toNat, by omega⟩ else none

end Precision

/-- What makes arithmetic fail. -/
inductive ArithmeticFault where
  /-- A number other than zero was divided by zero. -/
  | divisionByZero
  /-- Zero was divided by zero. -/
  | undefinedQuotient
  /-- The rounded result is too large. -/
  | overflow
deriving DecidableEq, Repr

namespace Decimal

/-- The largest exponent that the first digit of a result may have. -/
def maxAdjusted : Int := 999999

/-- The smallest exponent that the first digit of a result has without losing digits. -/
def minAdjusted : Int := -999999

/-- The smallest exponent of a result: that of the last of `p` digits of the smallest
number that keeps them all. -/
def leastExp (p : Precision) : Int :=
  minAdjusted - (p.digits - 1)

/-- The quotient `n / 10 ^ k` rounded to the nearest natural number, half to even. -/
def roundQuotient (n k : Nat) : Nat :=
  if digitCount n < k then 0
  else
    let unit := tenTo k
    let quotient := n / unit
    let twice := 2 * (n % unit)
    if unit < twice ∨ (twice = unit ∧ quotient % 2 = 1) then quotient + 1 else quotient

/-- How many digits a nonzero number loses: those beyond the precision and those
below the smallest exponent, whichever are more. -/
def excessDigits (p : Precision) (x : Decimal) : Nat :=
  max (digitCount x.coeff - p.digits) (leastExp p - x.exp).toNat

/-- The number with its last `k` digits rounded away. Should that leave one digit more
than the precision has, all of them but the first are zeros and the last is dropped. -/
def dropDigits (p : Precision) (x : Decimal) (k : Nat) : Decimal :=
  let coeff := roundQuotient x.coeff k
  if p.digits < digitCount coeff then ⟨x.negative, coeff / 10, x.exp + k + 1⟩
  else ⟨x.negative, coeff, x.exp + k⟩

/-- The number rounded to the precision and to the range of exponents. -/
def round (p : Precision) (x : Decimal) : Except ArithmeticFault Decimal :=
  if x.coeff = 0 then
    .ok { x with exp := min (max x.exp (leastExp p)) maxAdjusted }
  else if maxAdjusted < x.adjusted then .error .overflow
  else
    let rounded := if x.excessDigits p = 0 then x else x.dropDigits p (x.excessDigits p)
    if maxAdjusted < rounded.adjusted then .error .overflow else .ok rounded

end Decimal

end DecimalLisp
