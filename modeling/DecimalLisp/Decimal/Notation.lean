import DecimalLisp.Decimal.Rounding

/-!
# Written numbers

A number has two texts. The plain text shows its value alone, without exponent or
needless zeros, so numbers of one value share it as long as the first digit stands high
enough for all digits to be shown. Of a number below that the last digits are rounded
away first, and how many depends on its form. The exact text shows sign, digits and
exponent, so no two numbers share it; it is positional for numbers that are not too
small and scientific for the others.
-/

namespace DecimalLisp.Decimal

/-- The digits of the coefficient. -/
def digits (x : Decimal) : List Char :=
  Nat.toDigits 10 x.coeff

/-- The written sign: nothing for plus. -/
def signText (x : Decimal) : List Char :=
  if x.negative then ['-'] else []

/-- Digits with a point before the last `places` of them. Zeros are put in front so that
a digit stands before the point; without places there is no point. -/
def pointed (digits : List Char) (places : Nat) : List Char :=
  if places = 0 then digits
  else
    let filled := List.replicate (places + 1 - digits.length) '0' ++ digits
    filled.take (filled.length - places) ++ '.' :: filled.drop (filled.length - places)

/-- Digits without the zeros at their end. -/
def significant (digits : List Char) : List Char :=
  (digits.reverse.dropWhile (· == '0')).reverse

/-- The smallest exponent of a first digit that stands high enough for all digits to be shown.
Numbers can be carried whose first digit stands lower. -/
def leastPrinted : Int := -999999999999999999

/-- The number that is shown of a number. As many digits are rounded away at its end as the
first one stands below that exponent, half going to the even neighbour. So of one value
a form with zeros at its end can keep what another form loses. -/
def shown (x : Decimal) : Decimal :=
  let lost := (leastPrinted - x.adjusted).toNat
  ⟨x.negative, roundQuotient x.coeff lost, x.exp + lost⟩

/-- Sign and digits in positional notation without a needless zero. -/
def positional (x : Decimal) : List Char :=
  let kept := significant x.digits
  let exp := x.exp + (x.digits.length - kept.length : Nat)
  x.signText ++
    if 0 ≤ exp then kept ++ List.replicate exp.toNat '0' else pointed kept (-exp).toNat

/-- The value that is shown, in positional notation; every zero is `0`. A number other than
zero of which no digit is shown leaves its sign before a zero. -/
def plainText (x : Decimal) : List Char :=
  if x.coeff = 0 then ['0']
  else if x.shown.coeff = 0 then x.signText ++ ['0']
  else x.shown.positional

/-- The smallest exponent of a first digit that is written without an exponent. -/
def leastPositional : Int := -6

/-- A digit, the others after a point if there are any, and the exponent of the first. -/
def scientific (digits : List Char) (exponent : Int) : List Char :=
  digits.take 1 ++ (if digits.length = 1 then [] else '.' :: digits.drop 1) ++
    ['E', if exponent < 0 then '-' else '+'] ++ Nat.toDigits 10 exponent.natAbs

/-- Sign, digits and exponent. Digits alone or with a point show an exponent that is
not positive, as long as the first digit does not stand too far behind the point. -/
def exactText (x : Decimal) : List Char :=
  x.signText ++
    if x.exp ≤ 0 ∧ leastPositional ≤ x.adjusted then pointed x.digits (-x.exp).toNat
    else scientific x.digits x.adjusted

end DecimalLisp.Decimal
