/-!
# Decimal numbers

A number is a sign, a coefficient and a power of ten. Several of them have the same
value: `1`, `1.0` and `1.00` differ in coefficient and exponent, and zero has a sign
and an exponent too. Arithmetic keeps that difference, so it belongs to the number
and not to its text.
-/

namespace DecimalLisp

/-- The number `± coeff * 10 ^ exp`. -/
structure Decimal where
  /-- Whether the sign is minus, also for zero. -/
  negative : Bool
  /-- The digits, read as a natural number. -/
  coeff : Nat
  /-- The power of ten that the last digit counts. -/
  exp : Int
deriving DecidableEq, Repr

namespace Decimal

/-- Ten to a power. -/
def tenTo (k : Nat) : Nat :=
  Nat.pow 10 k

/-- Counts digits upwards from `count`, where `power` is ten to the `count`. -/
def countDigits (n : Nat) : Nat → Nat → Nat → Nat
  | 0, count, _ => count
  | steps + 1, count, power =>
    if n < power then count else countDigits n steps (count + 1) (10 * power)

/-- The number of decimal digits of a natural number; zero has one. The fraction
`59 / 196` is just below the decimal logarithm of two, so a count that starts at that
part of the binary logarithm starts low enough and ends within a few steps. -/
def digitCount (n : Nat) : Nat :=
  let least := n.log2 * 59 / 196
  countDigits n (n.log2 + 1) (least + 1) (tenTo (least + 1))

/-- The exponent of the first digit. -/
def adjusted (x : Decimal) : Int :=
  x.exp + (digitCount x.coeff : Int) - 1

/-- The number with coefficient zero, whatever its sign and exponent. -/
def isZero (x : Decimal) : Bool :=
  x.coeff == 0

/-- The number with the other sign; a zero changes its sign too. -/
def negate (x : Decimal) : Decimal :=
  { x with negative := !x.negative }

/-- A natural number as a decimal of exponent zero. -/
def ofNat (n : Nat) : Decimal :=
  ⟨false, n, 0⟩

/-- The coefficient with `k` zeros written after it. No power of ten is formed for zero. -/
def padded (n k : Nat) : Nat :=
  if n = 0 then 0 else n * tenTo k

/-- Every number has a digit. -/
theorem one_le_digitCount (n : Nat) : 1 ≤ digitCount n := by
  rw [digitCount]
  suffices h : ∀ steps count power, count ≤ countDigits n steps count power from
    Nat.le_trans (Nat.le_add_left _ _) (h _ _ _)
  intro steps
  induction steps with
  | zero => exact fun _ _ => Nat.le_refl _
  | succ steps ih =>
    intro count power
    rw [countDigits]
    split
    · exact Nat.le_refl _
    · exact Nat.le_trans (Nat.le_succ _) (ih _ _)

end Decimal

end DecimalLisp
