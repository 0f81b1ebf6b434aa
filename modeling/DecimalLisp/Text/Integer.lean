import DecimalLisp.Text.Blank
import DecimalLisp.Text.DecimalDigit

/-!
# Written integers

The integers that settings and options give: blanks, a sign or none, then decimal
digits of any script. Single underscores may group the digits. An integer of more
than 4300 digits is refused.
-/

namespace DecimalLisp.Text

/-- The blanks that may surround an integer: all but the four information separators. -/
def isIntegerBlank (c : Char) : Bool :=
  isBlank c && !(0x1C ≤ c.toNat && c.toNat ≤ 0x1F)

/-- The digits of a text in which one underscore may stand between two digits. -/
def groupedDigits? : List Char → Option (List Nat)
  | [] => none
  | [c] => (digitValue? c).map ([·])
  | c :: '_' :: rest => do return (← digitValue? c) :: (← groupedDigits? rest)
  | c :: rest => do return (← digitValue? c) :: (← groupedDigits? rest)

/-- The most digits that a written integer may have. -/
def integerDigitLimit : Nat := 4300

/-- The value of unsigned digits, when there are not too many of them. -/
def natural? (text : List Char) : Option Nat := do
  let digits ← groupedDigits? text
  if digits.length ≤ integerDigitLimit then return ofDigits digits else none

/-- The value of a written integer, if the text is one. -/
def integer? (text : List Char) : Option Int :=
  match ((text.dropWhile isIntegerBlank).reverse.dropWhile isIntegerBlank).reverse with
  | '-' :: digits => (natural? digits).map fun n => -(n : Int)
  | '+' :: digits => (natural? digits).map Int.ofNat
  | digits => (natural? digits).map Int.ofNat

end DecimalLisp.Text
