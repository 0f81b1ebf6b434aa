import DecimalLisp.Session
import DecimalLisp.Text.Line

/-!
# Conversation

A conversation is a session that is held line by line. Each line is asked for with a
prompt and answered with the value that it gives, or with what went wrong in it. Blank
lines are not answered. It ends with the input, or when a line holds a numeral that no
number can carry.

Two things are left out. A host may limit how deeply evaluation, reading and printing
nest, and report a line that exceeds the limit like a fault; here nothing is limited, so
no such report exists. And a reported fault may be recorded for debugging, with the place
where it arose; here it leaves no note.
-/

namespace DecimalLisp.Repl

/-- The answer to one line. -/
inductive Reply where
  /-- The line is blank. -/
  | silence
  /-- A text to be shown, and the session and the notes after the line. -/
  | answer (text : String) (session : Session) (log : Array LogEntry)
  /-- A fault that ends the conversation. -/
  | stop (fault : Fault) (session : Session) (log : Array LogEntry)
  /-- The line was not evaluated within the bound. -/
  | unfinished

/-- The line that reports a fault. -/
def report (fault : Fault) : String :=
  "swisp error: " ++ fault.message ++ "\n"

/-- Answers one line. -/
def reply (session : Session) (bound : Nat) (line : String) : Reply :=
  if line.toList.all Text.isBlank then .silence
  else match session.run bound line with
    | .done value state => .answer (value.print ++ "\n") (session.resume state) state.log
    | .failed fault state =>
      if fault.reported then .answer (report fault) (session.resume state) state.log
      else .stop fault (session.resume state) state.log
    | .unfinished => .unfinished

/-- What has been shown and noted in a conversation. -/
structure Transcript where
  /-- The session as it is now. -/
  session : Session
  /-- What was shown. -/
  output : String
  /-- The notes. -/
  log : Array LogEntry

/-- How a conversation ends. -/
inductive Ending where
  /-- With the input. -/
  | endOfInput
  /-- With a fault that is not answered. -/
  | stopped (fault : Fault)
  /-- With a line that was not evaluated within the bound. -/
  | unfinished

/-- Holds a conversation over lines that are still to come. -/
def converse (bound : Nat) (prompt : String) : List String → Transcript → Transcript × Ending
  | [], now => ({ now with output := now.output ++ prompt ++ "\n" }, .endOfInput)
  | line :: rest, now =>
    let output := now.output ++ prompt
    match reply now.session bound line with
    | .silence => converse bound prompt rest { now with output := output }
    | .answer text session log =>
      converse bound prompt rest ⟨session, output ++ text, now.log ++ log⟩
    | .stop fault session log => (⟨session, output, now.log ++ log⟩, .stopped fault)
    | .unfinished => ({ now with output := output }, .unfinished)

/-- Holds a conversation over a whole input. -/
def run (session : Session) (bound : Nat) (prompt input : String) : Transcript × Ending :=
  converse bound prompt ((Text.lines input.toList).map String.ofList) ⟨session, "", #[]⟩

end DecimalLisp.Repl
