import DecimalLisp.Decimal.Basic

/-!
# Order of values

Numbers are compared by their exact values, whatever their digits and exponents.
Two zeros are equal whatever their signs. Numbers whose first digits stand at
different exponents are told apart without forming either value.
-/

namespace DecimalLisp.Decimal

/-- The order of the sizes of two nonzero numbers. -/
def compareSize (x y : Decimal) : Ordering :=
  match compare x.adjusted y.adjusted with
  | .eq =>
    let exp := min x.exp y.exp
    compare (x.coeff * tenTo (x.exp - exp).toNat) (y.coeff * tenTo (y.exp - exp).toNat)
  | apart => apart

/-- The order of the values of two numbers. -/
def compareValue (x y : Decimal) : Ordering :=
  match x.isZero, y.isZero with
  | true, true => .eq
  | true, false => if y.negative then .gt else .lt
  | false, true => if x.negative then .lt else .gt
  | false, false =>
    match x.negative, y.negative with
    | false, true => .gt
    | true, false => .lt
    | false, false => compareSize x y
    | true, true => compareSize y x

end DecimalLisp.Decimal
