/-!
# Blank characters

The characters that separate words. A run of them, of any length and mixture,
means the same as one space. The set is the Unicode white space together with
the four information separators; zero width characters are not in it.
-/

namespace DecimalLisp.Text

/-- The blank characters, each range given by its first and last code point. -/
def blankRanges : List (Nat × Nat) :=
  [(0x09, 0x0D), (0x1C, 0x20), (0x85, 0x85), (0xA0, 0xA0), (0x1680, 0x1680), (0x2000, 0x200A),
   (0x2028, 0x2029), (0x202F, 0x202F), (0x205F, 0x205F), (0x3000, 0x3000)]

/-- A character is blank when its code point lies in one of the ranges. -/
def isBlank (c : Char) : Bool :=
  blankRanges.any fun (first, last) => first ≤ c.toNat && c.toNat ≤ last

/-- A text without the blanks at its two ends. -/
def trim (text : List Char) : List Char :=
  ((text.dropWhile isBlank).reverse.dropWhile isBlank).reverse

/-- Neither parenthesis is blank. -/
theorem isBlank_parentheses : isBlank '(' = false ∧ isBlank ')' = false := by
  decide

end DecimalLisp.Text
