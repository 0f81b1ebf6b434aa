import DecimalLisp.Decimal.Basic
import DecimalLisp.Text.DecimalDigit

/-!
# Numerals

The written form of a number: a sign or none, digits with at most one point among or
around them, and an exponent or none. A numeral says exactly which number it means:
its digits are the coefficient, and the digits after the point lower the exponent.
-/

namespace DecimalLisp

/-- The parts of a written number. -/
structure Numeral where
  /-- Whether a minus stands in front. -/
  negative : Bool
  /-- The digits before the point. -/
  whole : List Nat
  /-- The digits after the point. -/
  fraction : List Nat
  /-- The written exponent, zero if there is none. -/
  exponent : Int
deriving DecidableEq, Repr

namespace Numeral

open Text

/-- The sign at the front of a text, and what follows it. -/
def takeSign : List Char → Bool × List Char
  | '-' :: rest => (true, rest)
  | '+' :: rest => (false, rest)
  | text => (false, text)

/-- The digits before the point, those after it, and what follows both. -/
def takePointed (text : List Char) : List Nat × List Nat × List Char :=
  let (whole, rest) := takeDigits text
  match rest with
  | '.' :: rest => (whole, takeDigits rest)
  | rest => (whole, [], rest)

/-- The exponent that a whole text writes; an empty text writes none. -/
def exponent? : List Char → Option Int
  | [] => some 0
  | mark :: rest =>
    if mark = 'e' ∨ mark = 'E' then
      let (negative, rest) := takeSign rest
      match takeDigits rest with
      | ([], _) => none
      | (digits, []) => some (if negative then -(ofDigits digits : Int) else ofDigits digits)
      | (_, _ :: _) => none
    else none

/-- The parts of a text that is a numeral from its first character to its last. -/
def ofText? (text : List Char) : Option Numeral :=
  let (negative, rest) := takeSign text
  let (whole, fraction, rest) := takePointed rest
  if whole = [] ∧ fraction = [] then none
  else (exponent? rest).map fun exponent => ⟨negative, whole, fraction, exponent⟩

/-- The number that a numeral means, with every digit kept. -/
def number (n : Numeral) : Decimal :=
  ⟨n.negative, ofDigits (n.whole ++ n.fraction), n.exponent - n.fraction.length⟩

end Numeral

namespace Decimal

/-- The largest exponent of a first digit that a number can carry. -/
def maxExponent : Int := 999999999999999999

/-- The smallest exponent of a last digit that a number can carry. -/
def minExponent : Int := -1999999999999999997

/-- Whether a number can be carried at all. For a zero only its exponent counts. -/
def representable (x : Decimal) : Bool :=
  minExponent ≤ x.exp && (if x.isZero then x.exp else x.adjusted) ≤ maxExponent

end Decimal

end DecimalLisp
