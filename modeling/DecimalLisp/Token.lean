import DecimalLisp.Text.Blank

/-!
# Tokens

A text is cut into tokens: each parenthesis by itself, and each longest run of other
characters that are not blank. Nothing else separates or joins.
-/

namespace DecimalLisp

namespace Token

open Text

/-- The tokens found so far, the last one first, and the characters of the word that is
being read, the last one first. -/
structure Scan where
  /-- The finished tokens. -/
  tokens : List String
  /-- The unfinished word. -/
  word : List Char
deriving DecidableEq, Repr

namespace Scan

/-- Before the first character. -/
def start : Scan := ⟨[], []⟩

/-- Ends the word, if there is one. -/
def endWord (scan : Scan) : Scan :=
  if scan.word = [] then scan else ⟨String.ofList scan.word.reverse :: scan.tokens, []⟩

/-- Goes past one character. -/
def step (scan : Scan) (c : Char) : Scan :=
  if c = '(' ∨ c = ')' then ⟨String.singleton c :: scan.endWord.tokens, []⟩
  else if isBlank c then scan.endWord
  else { scan with word := c :: scan.word }

/-- The tokens in their order, once the text has ended. -/
def result (scan : Scan) : List String :=
  scan.endWord.tokens.reverse

end Scan

/-- The tokens of a text. -/
def ofText (text : String) : List String :=
  (text.toList.foldl Scan.step Scan.start).result

end Token

end DecimalLisp
