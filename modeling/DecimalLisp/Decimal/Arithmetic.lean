import DecimalLisp.Decimal.Rounding

/-!
# Sums, products and quotients

Each operation works on its operands exactly, however many digits they have, and
rounds once. The exponent of an exact result is the ideal one of the operation: the
smaller exponent for a sum, the sum of the exponents for a product, and their
difference for a quotient, as far as the digits allow.
-/

namespace DecimalLisp.Decimal

/-- The exact sum. Its exponent is the smaller of the two. An exact zero is positive
unless both operands are negative. -/
def exactSum (x y : Decimal) : Decimal :=
  let exp := min x.exp y.exp
  let m := padded x.coeff (x.exp - exp).toNat
  let n := padded y.coeff (y.exp - exp).toNat
  if x.negative = y.negative then ⟨x.negative, m + n, exp⟩
  else if m = n then ⟨false, 0, exp⟩
  else if n < m then ⟨x.negative, m - n, exp⟩
  else ⟨y.negative, n - m, exp⟩

/-- A stand-in for `small` in its sum with `large`. When every digit of `small` lies so
far below the digits of `large` that the rounded sum can only tell whether it is zero
and which sign it has, the least number in its place gives the same sum. -/
def standIn (p : Precision) (large small : Decimal) : Decimal :=
  let place := min large.exp (large.adjusted - p.digits) - 1
  if large.coeff ≠ 0 ∧ small.adjusted < place then
    ⟨small.negative, min 1 small.coeff, place⟩
  else small

/-- The rounded sum. -/
def add (p : Precision) (x y : Decimal) : Except ArithmeticFault Decimal :=
  if y.exp ≤ x.exp then (exactSum x (standIn p x y)).round p
  else (exactSum (standIn p y x) y).round p

/-- The rounded difference. -/
def subtract (p : Precision) (x y : Decimal) : Except ArithmeticFault Decimal :=
  add p x y.negate

/-- The exact product. Its sign is minus when just one operand is negative. -/
def exactProduct (x y : Decimal) : Decimal :=
  ⟨x.negative ^^ y.negative, x.coeff * y.coeff, x.exp + y.exp⟩

/-- The rounded product. -/
def multiply (p : Precision) (x y : Decimal) : Except ArithmeticFault Decimal :=
  (exactProduct x y).round p

/-- A coefficient without its last zeros, at most `most` of them, and how many went. -/
def stripZeros (n : Nat) : Nat → Nat × Nat
  | 0 => (n, 0)
  | most + 1 =>
    if n % 10 = 0 then
      let (stripped, count) := stripZeros (n / 10) most
      (stripped, count + 1)
    else (n, 0)

/-- A quotient of two nonzero numbers, carried to more digits than the precision has.
If the division does not end there, the last digit is made to show it: a quotient that
looks exact or halfway is raised by one in its last place. If it ends, zeros are
taken off the end until the exponent is the ideal one. -/
def longQuotient (p : Precision) (x y : Decimal) : Decimal :=
  let shift : Int := (digitCount y.coeff : Int) - digitCount x.coeff + p.digits + 1
  let dividend := x.coeff * tenTo shift.toNat
  let divisor := y.coeff * tenTo (-shift).toNat
  let quotient := dividend / divisor
  let exp := x.exp - y.exp - shift
  let negative := x.negative ^^ y.negative
  if dividend % divisor ≠ 0 then
    ⟨negative, if quotient % 5 = 0 then quotient + 1 else quotient, exp⟩
  else
    let (stripped, count) := stripZeros quotient shift.toNat
    ⟨negative, stripped, exp + count⟩

/-- The rounded quotient. -/
def divide (p : Precision) (x y : Decimal) : Except ArithmeticFault Decimal :=
  if y.coeff = 0 then
    .error (if x.coeff = 0 then .undefinedQuotient else .divisionByZero)
  else if x.coeff = 0 then
    round p ⟨x.negative ^^ y.negative, 0, x.exp - y.exp⟩
  else (longQuotient p x y).round p

end DecimalLisp.Decimal
