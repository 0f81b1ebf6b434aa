/-!
# Capital letters

Words are matched without regard to case by writing them in capitals. Only the
letters whose capitals are plain letters matter for that; any other character stays
as it is and so matches no plain word.
-/

namespace DecimalLisp.Text

/-- The capitals of a letter. A ligature and the sharp s have more than one. -/
def capitalOf (c : Char) : List Char :=
  if c.isLower then [c.toUpper] else
  match c with
  | 'ß' => ['S', 'S']
  | 'ı' => ['I']
  | 'ſ' => ['S']
  | 'ﬀ' => ['F', 'F']
  | 'ﬁ' => ['F', 'I']
  | 'ﬂ' => ['F', 'L']
  | 'ﬃ' => ['F', 'F', 'I']
  | 'ﬄ' => ['F', 'F', 'L']
  | 'ﬅ' => ['S', 'T']
  | 'ﬆ' => ['S', 'T']
  | other => [other]

/-- A text with every letter in capitals. -/
def capitals (text : List Char) : List Char :=
  text.flatMap capitalOf

end DecimalLisp.Text
