import DecimalLisp.Builtin
import DecimalLisp.Decimal.Basic

/-!
# Values

Programs and the values they compute are of one kind. The empty list is the only
false value. A value that is a list is code once it is evaluated, and data until then.
-/

namespace DecimalLisp

/-- Frames are numbered in the order in which they are made. -/
abbrev FrameId := Nat

/-- A value, which is also an expression. -/
inductive Value where
  /-- A number that a program wrote or computed. -/
  | number (x : Decimal)
  /-- A number that the root frame had from the start. Programs pass it on and calculate
  with it as with any other number, but no program can make one. -/
  | constant (x : Decimal)
  /-- An identifier. -/
  | symbol (name : String)
  /-- A list of values. -/
  | list (items : List Value)
  /-- A procedure of the standard environment. -/
  | builtin (procedure : Builtin)
  /-- A procedure made by a `lambda` form: its formal parameters, its body and the frame
  it was made in. -/
  | lambda (formals : List Value) (body : Value) (frame : FrameId)
  /-- A text that the embedding program put among the values. No program can make one. -/
  | text (content : String)
deriving Inhabited

namespace Value

/-- The empty list, which is false. -/
def nil : Value := .list []

/-- Only the empty list is false; zero is not. -/
def isFalse : Value → Bool
  | .list [] => true
  | _ => false

/-- Whether a value can be applied. -/
def isProcedure : Value → Bool
  | .builtin _ => true
  | .lambda _ _ _ => true
  | _ => false

/-- The name of a symbol. -/
def symbolName? : Value → Option String
  | .symbol name => some name
  | _ => none

/-- A list names nothing, and nothing can be asked for it. -/
def isList : Value → Bool
  | .list _ => true
  | _ => false

/-- The number that a value is. -/
def number? : Value → Option Decimal
  | .number x => some x
  | .constant x => some x
  | _ => none

end Value

end DecimalLisp
