import DecimalLisp.Calculation
import DecimalLisp.Evaluation.Action

/-!
# One step of evaluation

A step takes an expression in a frame either to its value or to another expression in
another frame, whose value is the value of the first. What has to be known on the way,
such as the arguments of an application, is evaluated in full by a procedure that the
step is given. An expression that is left over is never needed on the way, so whoever
takes steps one after the other can forget all earlier ones.
-/

namespace DecimalLisp

/-- Where a step leads. -/
inductive Next where
  /-- To a value. -/
  | value (value : Value)
  /-- To an expression that is to be evaluated in a frame. -/
  | tail (expression : Value) (frame : FrameId)

/-- The text of an expression that is left over. -/
def leftOverText (expression : Value) : String :=
  "TailCall(" ++ expression.inspect ++ ")"

/-- How a part of an expression is evaluated in full. -/
abbrev Evaluator := Value → FrameId → Action Value

/-- The forms that do not evaluate all their parts. -/
inductive SpecialForm where
  /-- The parts as they are written. -/
  | quote
  /-- One of two branches. -/
  | conditional
  /-- Binds a name. -/
  | define
  /-- Binds a name and then refuses to have done so. -/
  | assign
  /-- A procedure. -/
  | lambda
deriving DecidableEq, Repr

namespace SpecialForm

/-- The word that a form begins with. -/
def name : SpecialForm → String
  | quote => "quote"
  | conditional => "if"
  | define => "define"
  | assign => "set!"
  | lambda => "lambda"

/-- All special forms. -/
def all : List SpecialForm := [quote, conditional, define, assign, lambda]

/-- The form that begins with a value. What the frames bind is of no account. -/
def ofHead? : Value → Option SpecialForm
  | .symbol word => all.find? (·.name == word)
  | _ => none

/-- The first value that is no symbol. -/
def firstNonSymbol? (values : List Value) : Option Value :=
  values.find? fun v => v.symbolName?.isNone

/-- A step of a form with its parts, in a frame. A definition gives its value's expression
as it is written. -/
def step (evaluate : Evaluator) (frame : FrameId) : SpecialForm → List Value → Action Next
  | quote, [.list []] => pure (.value .nil)
  | quote, parts => pure (.value (.list parts))
  | conditional, [test, consequent, alternative] => do
    let truth ← evaluate test frame
    pure (.tail (if truth.isFalse then alternative else consequent) frame)
  | conditional, _ => Action.fail (.malformed .conditionalParts)
  | define, [.symbol name, expression] => do
    Action.write frame name (← evaluate expression frame)
    pure (.value expression)
  | define, [other, _] => Action.fail (.malformed (.definitionName other))
  | define, _ => Action.fail (.malformed .definitionParts)
  | assign, [.symbol name, expression] => do
    Action.write frame name (← evaluate expression frame)
    Action.fail (.malformed .assignment)
  | assign, [_, _] => Action.fail (.malformed .assignment)
  | assign, _ => Action.fail (.malformed .assignmentParts)
  | lambda, .list formals :: bodies =>
    match firstNonSymbol? formals, bodies with
    | some other, _ => Action.fail (.notParameter other)
    | none, [] => Action.fail (.malformed .emptyBody)
    | none, [body] => pure (.value (.lambda formals body frame))
    | none, body :: _ :: _ => do
      Action.note (.unusedBodies bodies.length)
      pure (.value (.lambda formals body frame))
  | lambda, _ => Action.fail (.malformed .parameterList)

/-- Parts that are evaluated alike lead to steps that end alike. -/
theorem step_approximates {evaluate other : Evaluator} {frame : FrameId}
    (alike : ∀ expression frame,
      Action.Approximates (evaluate expression frame) (other expression frame))
    (form : SpecialForm) (parts : List Value) :
    Action.Approximates (form.step evaluate frame parts) (form.step other frame parts) := by
  unfold step
  split
  case h_3 | h_5 | h_8 => exact (alike _ _).bind fun _ => Action.Approximates.refl _
  all_goals exact Action.Approximates.refl _

end SpecialForm

/-- Applies a procedure to arguments. A builtin gives its value at once; a procedure that
was made by a form leads to its body, in a new frame. -/
def applyProcedure (p : Precision) : Value → List Value → Action Next
  | .builtin procedure, arguments => do
    return .value (← Action.ofResult (procedure.apply p arguments))
  | .lambda formals body outer, arguments => do
    let frame ← Action.push (← Action.ofResult (Frame.ofCall formals outer arguments))
    return .tail body frame
  | other, _ => Action.fail (.notProcedure other)

/-- Evaluates expressions from left to right. -/
def evaluateAll (evaluate : Evaluator) (frame : FrameId) : List Value → Action (List Value)
  | [] => pure []
  | expression :: rest => do
    let value ← evaluate expression frame
    let values ← evaluateAll evaluate frame rest
    pure (value :: values)

/-- A step of an expression in a frame. The head of an application is evaluated first
and has to be a procedure before any argument is looked at. -/
def step (p : Precision) (evaluate : Evaluator) (expression : Value) (frame : FrameId) :
    Action Next :=
  match expression with
  | .symbol _ => do return .value (← Action.lookup frame expression)
  | .list [] => Action.fail (.notProcedure expression)
  | .list (head :: parts) =>
    match SpecialForm.ofHead? head with
    | some form => form.step evaluate frame parts
    | none => do
      let procedure ← evaluate head frame
      if procedure.isProcedure then
        applyProcedure p procedure (← evaluateAll evaluate frame parts)
      else Action.fail (.notProcedure head)
  | other => pure (.value other)

/-- Expressions that are evaluated alike one by one are evaluated alike together. -/
theorem evaluateAll_approximates {evaluate other : Evaluator} {frame : FrameId}
    (alike : ∀ expression frame,
      Action.Approximates (evaluate expression frame) (other expression frame))
    (expressions : List Value) :
    Action.Approximates (evaluateAll evaluate frame expressions)
      (evaluateAll other frame expressions) := by
  induction expressions with
  | nil => exact Action.Approximates.refl _
  | cons expression rest ih =>
    exact (alike expression frame).bind fun _ => ih.bind fun _ => Action.Approximates.refl _

/-- Parts that are evaluated alike lead to steps that end alike. -/
theorem step_approximates (p : Precision) {evaluate other : Evaluator}
    (alike : ∀ expression frame,
      Action.Approximates (evaluate expression frame) (other expression frame))
    (expression : Value) (frame : FrameId) :
    Action.Approximates (step p evaluate expression frame) (step p other expression frame) := by
  unfold step
  split
  · exact Action.Approximates.refl _
  · exact Action.Approximates.refl _
  · next head parts =>
    split
    · exact SpecialForm.step_approximates alike _ parts
    · refine (alike head frame).bind fun procedure => ?_
      split
      · exact (evaluateAll_approximates alike parts).bind fun _ => Action.Approximates.refl _
      · exact Action.Approximates.refl _
  · exact Action.Approximates.refl _

end DecimalLisp
