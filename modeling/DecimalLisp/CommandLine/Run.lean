import DecimalLisp.CommandLine.Options
import DecimalLisp.Repl
import DecimalLisp.Settings

/-!
# The command

The command evaluates one text and prints its value, or holds a conversation over its
input. What it notes and what went wrong go to the error output. As in a conversation,
the limit of a host on nesting is left out, and with it the report that a text exceeds
it; so are records for debugging of the faults that a conversation reports.
-/

namespace DecimalLisp.CommandLine

/-- What ends the command without an exit code of its own. -/
inductive Escape where
  /-- A setting cannot be used. -/
  | settings (fault : SettingsFault)
  /-- The value of an option is needed and was dropped. -/
  | valueless (flag : Flag)
  /-- A numeral that no number can carry. -/
  | program (fault : Fault)
  /-- Evaluation did not end within the bound. -/
  | unfinished

/-- What the command leaves behind. -/
structure Result where
  /-- The exit code, or what happened instead. -/
  ending : Except Escape Nat
  /-- The output. -/
  output : String
  /-- The error output. -/
  errors : String

namespace Result

/-- The command ends before it does anything. -/
def escape (cause : Escape) : Result :=
  ⟨.error cause, "", ""⟩

/-- The arguments cannot be used. -/
def misuse (fault : UsageFault) : Result :=
  ⟨.ok 2, "", usageText ++ "swisp: error: " ++ fault.message ++ "\n"⟩

end Result

/-- The lines that show the notes of a level and above. -/
def logText (least : Level) (log : Array LogEntry) : String :=
  String.join ((LogEntry.linesFrom least log).map (· ++ "\n"))

/-- The level from which notes are shown. A level without a value counts as not given. -/
def level (surroundings : Variables) (options : Options) : Level :=
  match options.logLevel with
  | .written word => (Settings.levelNames.lookup word).getD Settings.defaultLevel
  | _ => Settings.level surroundings

/-- An integer as the precision of all arithmetic. -/
def precisionOf (n : Int) : Except Escape Precision :=
  match Settings.checkPrecision n with
  | .ok p => .ok p
  | .error fault => .error (.settings fault)

/-- The precision of all arithmetic. -/
def precision (surroundings : Variables) (options : Options) : Except Escape Precision :=
  match options.precision with
  | .written n => precisionOf n
  | .hollow => .error (.valueless .precision)
  | .absent =>
    match Settings.precision surroundings with
    | .ok n => precisionOf n
    | .error fault => .error (.settings fault)

/-- The prompt of a conversation. -/
def prompt (surroundings : Variables) (options : Options) : Except Escape String :=
  match options.prompt with
  | .written text => .ok text
  | .hollow => .error (.valueless .prompt)
  | .absent => .ok (Settings.prompt surroundings)

/-- Evaluates one text and prints its value. -/
def evaluateOnce (bound : Nat) (least : Level) (session : Session) (code : String) : Result :=
  match session.run bound code with
  | .done value state => ⟨.ok 0, value.print ++ "\n", logText least state.log⟩
  | .failed fault state =>
    let notes := logText least state.log
    if fault.reported then ⟨.ok 1, "", notes ++ Repl.report fault⟩
    else ⟨.error (.program fault), "", notes⟩
  | .unfinished => ⟨.error .unfinished, "", ""⟩

/-- Holds a conversation over the input. -/
def converse (bound : Nat) (least : Level) (session : Session) (prompt input : String) : Result :=
  match Repl.run session bound prompt input with
  | (transcript, ending) =>
    let notes := logText least transcript.log
    match ending with
    | .endOfInput => ⟨.ok 0, transcript.output, notes⟩
    | .stopped fault => ⟨.error (.program fault), transcript.output, notes⟩
    | .unfinished => ⟨.error .unfinished, transcript.output, notes⟩

/-- Works with some options, within a bound on all evaluation. The prompt matters only where there
is a conversation. -/
def workWithin (bound : Nat) (surroundings : Variables) (options : Options) (input : String) :
    Result :=
  match precision surroundings options with
  | .error cause => .escape cause
  | .ok p =>
    let session := Session.standard p
    let least := level surroundings options
    match options.expression with
    | .written code => evaluateOnce bound least session code
    | .hollow => .escape (.valueless .expression)
    | .absent =>
      match prompt surroundings options with
      | .ok text => converse bound least session text input
      | .error cause => .escape cause

/-- Works with some options. -/
def work (surroundings : Variables) (options : Options) (input : String) : Result :=
  workWithin Session.stepBound surroundings options input

/-- What the command does with its arguments, in some surroundings, on some input, within a bound on
all evaluation. -/
def runWithin (bound : Nat) (surroundings : Variables) (arguments : List String)
    (input : String) : Result :=
  match Request.ofArguments arguments with
  | .error fault => .misuse fault
  | .ok .help => ⟨.ok 0, helpText, ""⟩
  | .ok .version => ⟨.ok 0, versionText, ""⟩
  | .ok (.work options) => workWithin bound surroundings options input

/-- What the command does with its arguments, in some surroundings, on some input. -/
def run (surroundings : Variables) (arguments : List String) (input : String) : Result :=
  runWithin Session.stepBound surroundings arguments input

end DecimalLisp.CommandLine
