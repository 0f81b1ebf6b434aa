import DecimalLisp.Decimal.Numeral
import DecimalLisp.Fault
import DecimalLisp.Token

/-!
# Reader

The reader makes one expression of the tokens at the front of a sequence and leaves
the others. An opening parenthesis begins a list, a closing one ends the innermost
list that is open; any other token is a number if it is a numeral and a symbol if not.
-/

namespace DecimalLisp.Reader

/-- The value of a token that stands for itself. -/
def atom (token : String) : Except ReadFault Value :=
  match Numeral.ofText? token.toList with
  | none => .ok (.symbol token)
  | some numeral =>
    let x := numeral.number
    if !x.representable then .error (.unrepresentable token)
    else if !x.isZero && Decimal.maxAdjusted < x.adjusted.natAbs then .error (.outOfRange token)
    else .ok (.number x)

/-- What reading gives: an expression or a fault, and the tokens that are left. -/
structure Reading where
  /-- The expression, or why there is none. -/
  result : Except ReadFault Value
  /-- The tokens that were not taken. -/
  rest : List String

/-- Reads on inside lists that are open. Each is given by its items so far, the last one
first; the innermost list comes first. A value goes into the innermost list, and it is
the expression itself if no list is open. -/
def readInside : List (List Value) → List String → Reading
  | _, [] => ⟨.error .unexpectedEnd, []⟩
  | opened, token :: rest =>
    if token = "(" then readInside ([] :: opened) rest
    else if token = ")" then
      match opened with
      | [] => ⟨.error .unexpectedClose, rest⟩
      | [items] => ⟨.ok (.list items.reverse), rest⟩
      | items :: outer :: others =>
        readInside ((.list items.reverse :: outer) :: others) rest
    else
      match atom token, opened with
      | .error fault, _ => ⟨.error fault, rest⟩
      | .ok value, [] => ⟨.ok value, rest⟩
      | .ok value, items :: others => readInside ((value :: items) :: others) rest

/-- Reads one expression from the front of the tokens. -/
def read (tokens : List String) : Reading :=
  readInside [] tokens

/-- Reads one expression from a text; tokens after it are ignored. -/
def parse (text : String) : Except ReadFault Value :=
  (read (Token.ofText text)).result

end DecimalLisp.Reader
