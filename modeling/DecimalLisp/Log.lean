import DecimalLisp.Text.Quoted

/-!
# Log

What an interpreter notes on the side while it works: each text that it evaluates, and
the bodies of procedures that it will never look at. Each note has a level, and only
notes of some level and above are shown.
-/

namespace DecimalLisp

/-- The weight of a note; heavier notes have higher levels. -/
abbrev Level := Nat

namespace Level

/-- For those who look for mistakes. -/
def debug : Level := 10

/-- For those who watch the work. -/
def info : Level := 20

/-- Something looks wrong. -/
def warning : Level := 30

/-- Something failed. -/
def error : Level := 40

/-- Nothing can go on. -/
def critical : Level := 50

end Level

/-- A note. -/
inductive LogEntry where
  /-- A text was read and is about to be evaluated. -/
  | evaluating (code : String)
  /-- A procedure has several bodies, and only the first will be evaluated. -/
  | unusedBodies (count : Nat)
deriving DecidableEq, Repr

namespace LogEntry

/-- The level of a note. -/
def level : LogEntry → Level
  | evaluating _ => Level.debug
  | unusedBodies _ => Level.warning

/-- The line that shows a note: its level, where it comes from, and what it says. -/
def line : LogEntry → String
  | evaluating code => "DEBUG swisp.interpreter: evaluating " ++ Text.quoted code
  | unusedBodies count =>
    "WARNING swisp.evaluation.special_forms.lambda_form: lambda body has " ++ toString count ++
      " forms; only the first is evaluated"

/-- The lines of the notes of a level and above. -/
def linesFrom (least : Level) (log : Array LogEntry) : List String :=
  (log.toList.filter fun entry => least ≤ entry.level).map line

end LogEntry

end DecimalLisp
