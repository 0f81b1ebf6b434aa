import DecimalLisp.Decimal.Rounding
import DecimalLisp.Value.Text

/-!
# Faults

Everything that can go wrong while a program is read and run, by its cause. A cause
carries the values that its message shows; the wording is in one place. That a host
limits how deeply reading, evaluation and printing may nest is none of these causes: the
limit belongs to the host and not to the program, and here there is none.
-/

namespace DecimalLisp

/-- Why a text cannot be read. -/
inductive ReadFault where
  /-- The text ends before an expression does. -/
  | unexpectedEnd
  /-- An expression begins with a closing parenthesis. -/
  | unexpectedClose
  /-- A numeral whose first digit stands too far from the point. -/
  | outOfRange (numeral : String)
  /-- A numeral whose exponent no number can carry. -/
  | unrepresentable (numeral : String)
deriving DecidableEq, Repr

/-- Why a special form is malformed. -/
inductive FormFault where
  /-- A conditional without exactly a test and two branches. -/
  | conditionalParts
  /-- A definition without exactly a name and a value. -/
  | definitionParts
  /-- A definition of something that is no symbol. -/
  | definitionName (name : Value)
  /-- An assignment without exactly a name and a value. -/
  | assignmentParts
  /-- An assignment, which is refused once it is done. -/
  | assignment
  /-- A procedure without a list of parameters. -/
  | parameterList
  /-- A procedure without a body. -/
  | emptyBody

/-- What goes wrong in reading and running a program. -/
inductive Fault where
  /-- The text cannot be read. -/
  | unreadable (cause : ReadFault)
  /-- A special form is malformed. -/
  | malformed (cause : FormFault)
  /-- The head of an application is no procedure. -/
  | notProcedure (head : Value)
  /-- An argument is no number. -/
  | notNumber (argument : Value)
  /-- A parameter is no symbol. -/
  | notParameter (parameter : Value)
  /-- A name to be bound is no symbol. -/
  | notBindable (name : Value)
  /-- A list stands where a name is bound or asked for. -/
  | listAsName (name : Value)
  /-- A builtin procedure has fewer arguments than it takes. -/
  | tooFew (procedure : Builtin) (least : Nat)
  /-- A procedure has another number of arguments than of parameters. -/
  | argumentCount (expected given : Nat)
  /-- No frame binds the name. -/
  | undefined (name : Value)
  /-- Arithmetic fails. -/
  | arithmetic (cause : ArithmeticFault)

/-- The kinds of faults that a user is told apart. -/
inductive FaultKind where
  /-- Malformed input or a malformed special form. -/
  | malformed
  /-- The application of something that is no procedure. -/
  | application
  /-- A value of the wrong kind. -/
  | type
  /-- The wrong number of arguments. -/
  | arity
  /-- A name without a binding. -/
  | undefined
  /-- Failing arithmetic. -/
  | arithmetic
  /-- A numeral that no number can carry. -/
  | unrepresentable
  /-- A list in the place of a name, which only an embedding program can put there. -/
  | listAsName
deriving DecidableEq, Repr

namespace ReadFault

/-- The message that a reader of the text gets. -/
def message : ReadFault → String
  | unexpectedEnd => "unexpected EOF while reading"
  | unexpectedClose => "unexpected )"
  | outOfRange numeral => "numeral out of range: " ++ numeral
  | unrepresentable numeral => "numeral without a number: " ++ numeral

/-- The kind of the fault. -/
def kind : ReadFault → FaultKind
  | unrepresentable _ => .unrepresentable
  | _ => .malformed

end ReadFault

namespace FormFault

/-- The message that the form's writer gets. -/
def message : FormFault → String
  | conditionalParts => "if requires a test, a consequent and an alternative"
  | definitionParts => "define requires exactly 2 arguments: (define name value)"
  | definitionName name => "define first argument must be a symbol, got " ++ name.brief
  | assignmentParts => "set! requires exactly 2 arguments: (set! name value)"
  | assignment => "Bad syntax: set!"
  | parameterList => "lambda requires a parameter list"
  | emptyBody => "lambda requires a body"

end FormFault

namespace ArithmeticFault

/-- The name of the condition that arithmetic signals. -/
def name : ArithmeticFault → String
  | divisionByZero => "DivisionByZero"
  | undefinedQuotient => "InvalidOperation"
  | overflow => "Overflow"

end ArithmeticFault

namespace Fault

/-- A count of things in words. -/
def counted (n : Nat) (thing : String) : String :=
  toString n ++ " " ++ thing ++ if n = 1 then "" else "s"

/-- The message that a user gets. -/
def message : Fault → String
  | unreadable cause => cause.message
  | malformed cause => cause.message
  | notProcedure head => "Not a procedure: " ++ head.print
  | notNumber argument => "Expected a number but got " ++ argument.print
  | notParameter parameter => "Expected a symbol but got " ++ parameter.print
  | notBindable name => "Cannot bind " ++ name.inspect ++ ": not a symbol"
  | listAsName name => "A list is no name: " ++ name.inspect
  | tooFew procedure least =>
    procedure.name ++ " expected at least " ++ counted least "argument"
  | argumentCount expected given =>
    "Expected " ++ toString expected ++ " argument(s) but got " ++ toString given
  | undefined name => "Undefined identifier: " ++ name.brief
  | arithmetic cause => "Arithmetic error: " ++ cause.name

/-- The kind of a fault. -/
def kind : Fault → FaultKind
  | unreadable cause => cause.kind
  | malformed _ => .malformed
  | notProcedure _ => .application
  | notNumber _ => .type
  | notParameter _ => .type
  | notBindable _ => .type
  | listAsName _ => .listAsName
  | tooFew _ _ => .arity
  | argumentCount _ _ => .arity
  | undefined _ => .undefined
  | arithmetic _ => .arithmetic

/-- Whether a fault is reported and the program goes on. Among the faults of a program
only a numeral that no number can carry stops it. -/
def reported (fault : Fault) : Bool :=
  match fault.kind with
  | .unrepresentable => false
  | .listAsName => false
  | _ => true

end Fault

end DecimalLisp
