import DecimalLisp.CommandLine.Run

/-!
# The program

The program reads the settings from the environment and the arguments from the command
line. A conversation is held while its input comes in, so that each prompt is shown
before its line is read; all that it says is decided by the library.
-/

namespace DecimalLisp

/-- The settings that the environment holds. -/
def environmentVariables : IO Variables := do
  let names :=
    [Settings.promptVariable, Settings.precisionVariable, Settings.levelVariable]
  let found ← names.mapM fun name => do return (name, ← IO.getEnv name)
  return fun name => (found.lookup name).join

/-- Shows the notes of a level and above. -/
def showLog (least : Level) (log : Array LogEntry) : IO Unit := do
  (← IO.getStderr).putStr (CommandLine.logText least log)

/-- Says what ended the program, and gives its exit code. -/
def giveUp (message : String) : IO UInt32 := do
  (← IO.getStderr).putStrLn message
  return 1

/-- Says what ended the program without an exit code of its own. -/
def giveUpFor : CommandLine.Escape → IO UInt32
  | .settings fault => giveUp fault.message
  | .valueless flag => giveUp (CommandLine.UsageFault.missingValue flag).message
  | .program fault => giveUp fault.message
  | .unfinished => giveUp "evaluation did not end"

/-- Holds a conversation with whoever writes the input. -/
partial def talk (least : Level) (prompt : String) (session : Session) : IO UInt32 := do
  let output ← IO.getStdout
  output.putStr prompt
  output.flush
  let line ← (← IO.getStdin).getLine
  if line.isEmpty then
    output.putStr "\n"
    return 0
  match Repl.reply session Session.stepBound line with
  | .silence => talk least prompt session
  | .answer text session log =>
    showLog least log
    output.putStr text
    talk least prompt session
  | .stop fault _ log =>
    showLog least log
    giveUpFor (.program fault)
  | .unfinished => giveUpFor .unfinished

/-- Shows what the command left behind. -/
def finish (result : CommandLine.Result) : IO UInt32 := do
  (← IO.getStdout).putStr result.output
  (← IO.getStderr).putStr result.errors
  match result.ending with
  | .ok code => return code.toUInt32
  | .error escape => giveUpFor escape

end DecimalLisp

open DecimalLisp in
/-- The program. -/
def main (arguments : List String) : IO UInt32 := do
  let surroundings ← environmentVariables
  match CommandLine.Request.ofArguments arguments with
  | .ok (.work options) =>
    match options.expression, CommandLine.precision surroundings options,
      CommandLine.prompt surroundings options with
    | .absent, .ok p, .ok prompt =>
      talk (CommandLine.level surroundings options) prompt (Session.standard p)
    | _, _, _ => finish (CommandLine.work surroundings options "")
  | _ => finish (CommandLine.run surroundings arguments "")
