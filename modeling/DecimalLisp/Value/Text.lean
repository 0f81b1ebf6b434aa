import DecimalLisp.Decimal.Notation
import DecimalLisp.Text.Quoted
import DecimalLisp.Value.Basic

/-!
# Texts of values

A value has three texts. The printed text is what a program's user reads, and it can
be read back when no procedure is in it. The brief text names a value inside a message
and shows numbers exactly. The inspected text also tells the kinds of values apart.
-/

namespace DecimalLisp.Value

/-- What stands for a procedure in printed and brief text. -/
def procedureText : String := "proc"

mutual

/-- The text that tells the kind of every part of a value. -/
def inspect : Value → String
  | .number x => "Decimal('" ++ String.ofList x.exactText ++ "')"
  | .constant x => "Decimal('" ++ String.ofList x.exactText ++ "')"
  | .symbol name => "Symbol(" ++ Text.quoted name ++ ")"
  | .list items => "[" ++ ", ".intercalate (inspectAll items) ++ "]"
  | .builtin procedure => "<native " ++ procedure.name ++ ">"
  | .lambda formals _ _ => "<lambda (" ++ " ".intercalate (briefAll formals) ++ ")>"
  | .text content => Text.quoted content

/-- The inspected texts of several values. -/
def inspectAll : List Value → List String
  | [] => []
  | v :: rest => inspect v :: inspectAll rest

/-- The text that names a value inside a message. -/
def brief : Value → String
  | .number x => String.ofList x.exactText
  | .constant x => String.ofList x.exactText
  | .symbol name => name
  | .list items => "[" ++ ", ".intercalate (inspectAll items) ++ "]"
  | .builtin _ => procedureText
  | .lambda _ _ _ => procedureText
  | .text content => content

/-- The brief texts of several values. -/
def briefAll : List Value → List String
  | [] => []
  | v :: rest => brief v :: briefAll rest

end

mutual

/-- The text that a user reads. -/
def print : Value → String
  | .number x => String.ofList x.plainText
  | .constant x => String.ofList x.plainText
  | .symbol name => name
  | .list items => "(" ++ " ".intercalate (printAll items) ++ ")"
  | .builtin _ => procedureText
  | .lambda _ _ _ => procedureText
  | .text content => content

/-- The printed texts of several values. -/
def printAll : List Value → List String
  | [] => []
  | v :: rest => print v :: printAll rest

end

end DecimalLisp.Value
