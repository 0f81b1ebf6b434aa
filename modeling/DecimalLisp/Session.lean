import DecimalLisp.Evaluation.Basic
import DecimalLisp.Reader

/-!
# Sessions

A session keeps a root frame in which one text after the other is evaluated. What one
text defines is there for the next, also when evaluation failed on the way. A fresh
root frame binds the builtin procedures and the number pi.
-/

namespace DecimalLisp

/-- A precision and frames that grow from a root frame. -/
structure Session where
  /-- The precision of all arithmetic. -/
  precision : Precision
  /-- The frames; the root frame is the first one. -/
  frames : Frames

namespace Session

/-- The number of the root frame. -/
def root : FrameId := 0

/-- Pi, to more digits than most precisions ask for. -/
def piDigits : Decimal :=
  ⟨false, 314159265358979323846264338327950288419716939937510582097494, -59⟩

/-- Pi in a precision. -/
def pi (p : Precision) : Decimal :=
  match piDigits.round p with
  | .ok x => x
  | .error _ => piDigits

/-- What a fresh root frame binds. -/
def standardBindings (p : Precision) : Bindings :=
  (Builtin.all.map fun b => (b.name, .builtin b)) ++ [("pi", .constant (pi p))]

/-- A session with a fresh root frame. -/
def standard (p : Precision) : Session :=
  ⟨p, Frames.empty.push ⟨standardBindings p, none⟩⟩

/-- A session whose root frame binds nothing. -/
def bare (p : Precision) : Session :=
  ⟨p, Frames.empty.push ⟨[], none⟩⟩

/-- More steps than any evaluation that ends will take. -/
def stepBound : Nat := 1000000000000000000

/-- The state in which the next text is evaluated. -/
def state (session : Session) : State :=
  ⟨session.frames, #[]⟩

/-- The session after evaluation came to a state. -/
def resume (session : Session) (state : State) : Session :=
  { session with frames := state.frames }

/-- Evaluates an expression in the root frame. -/
def evaluate (session : Session) (bound : Nat) (expression : Value) : Outcome Value :=
  DecimalLisp.evaluate session.precision bound expression root session.state

/-- Reads one expression from a text and evaluates it in the root frame. -/
def run (session : Session) (bound : Nat) (code : String) : Outcome Value :=
  match Reader.parse code with
  | .error fault => .failed (.unreadable fault) session.state
  | .ok expression =>
    DecimalLisp.evaluate session.precision bound expression root
      { session.state with log := #[.evaluating code] }

/-- Reads one expression from a text and takes a single step of it in the root frame. -/
def step (session : Session) (bound : Nat) (code : String) : Outcome Next :=
  match Reader.parse code with
  | .error fault => .failed (.unreadable fault) session.state
  | .ok expression =>
    DecimalLisp.step session.precision (DecimalLisp.evaluate session.precision bound) expression
      root session.state

/-- Applies a value to arguments. -/
def apply (session : Session) (head : Value) (arguments : List Value) : Outcome Next :=
  applyProcedure session.precision head arguments session.state

/-- The frames from a frame outward, without the root frame. -/
def inner (session : Session) (frame : FrameId) : List Bindings :=
  ((session.frames.outward frame).filter (· != root)).map session.frames.bindings

/-- Whether a value is the builtin procedure or the constant that was there before. A
number that a program made is not the constant, though it may be equal to it. -/
def isKept : Option Value → Value → Bool
  | some (.builtin a), .builtin b => a == b
  | some (.constant x), .constant y => x == y
  | _, _ => false

/-- What the root frame binds, apart from the builtin procedures and constants that it
bound alike in an earlier session. -/
def definitionsSince (earlier session : Session) : Bindings :=
  (session.frames.bindings root).filter fun (name, value) =>
    !isKept ((earlier.frames.bindings root).value? name) value

end Session

end DecimalLisp
