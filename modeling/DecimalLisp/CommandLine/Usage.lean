import DecimalLisp.Text.Quoted

/-!
# Usage

The options of the command, how they are spelt, the texts that explain them, and what
can be wrong with the arguments that a user writes.
-/

namespace DecimalLisp.CommandLine

/-- An option of the command. -/
inductive Flag where
  | help
  | version
  | prompt
  | precision
  | logLevel
  | expression
deriving DecidableEq, Repr

namespace Flag

/-- The spellings of an option, the short one first. -/
def spellings : Flag → List String
  | help => ["-h", "--help"]
  | version => ["--version"]
  | prompt => ["--prompt"]
  | precision => ["--precision"]
  | logLevel => ["--log-level"]
  | expression => ["-e", "--eval"]

/-- All options, in the order in which they are listed. -/
def all : List Flag := [help, version, prompt, precision, logLevel, expression]

/-- Whether a value belongs to an option. -/
def takesValue : Flag → Bool
  | help => false
  | version => false
  | _ => true

/-- All spellings with their options. -/
def spelt : List (String × Flag) :=
  all.flatMap fun flag => flag.spellings.map fun spelling => (spelling, flag)

/-- The option of a spelling. -/
def ofSpelling? (spelling : String) : Option Flag :=
  spelt.lookup spelling

/-- An option with all its spellings. -/
def title (flag : Flag) : String :=
  "/".intercalate flag.spellings

end Flag

/-- The words that a level may be given by. -/
def levelWords : List String := ["DEBUG", "INFO", "WARNING", "ERROR"]

/-- What is wrong with the arguments. -/
inductive UsageFault where
  /-- An abbreviation of several options. -/
  | ambiguous (argument : String) (candidates : List String)
  /-- An option without its value. -/
  | missingValue (flag : Flag)
  /-- An option with a value that it does not take. -/
  | unwantedValue (flag : Flag) (value : String)
  /-- A precision that is no integer. -/
  | notInteger (value : String)
  /-- A level that is none of the words. -/
  | unknownLevel (value : String)
  /-- Arguments that mean nothing. -/
  | unrecognized (arguments : List String)
deriving DecidableEq, Repr

namespace UsageFault

/-- A message about one option. -/
def about (flag : Flag) (message : String) : String :=
  "argument " ++ flag.title ++ ": " ++ message

/-- The message that a user gets. -/
def message : UsageFault → String
  | ambiguous argument candidates =>
    "ambiguous option: " ++ argument ++ " could match " ++ ", ".intercalate candidates
  | missingValue flag => about flag "expected one argument"
  | unwantedValue flag value => about flag ("ignored explicit argument " ++ Text.quoted value)
  | notInteger value => about .precision ("invalid int value: " ++ Text.quoted value)
  | unknownLevel value =>
    about .logLevel ("invalid choice: " ++ Text.quoted value ++ " (choose from " ++
      ", ".intercalate (levelWords.map Text.quoted) ++ ")")
  | unrecognized arguments => "unrecognized arguments: " ++ " ".intercalate arguments

end UsageFault

/-- How the command is used, in two lines. -/
def usageText : String :=
  "usage: swisp [-h] [--version] [--prompt PROMPT] [--precision PRECISION]\n" ++
  "             [--log-level \x7bDEBUG,INFO,WARNING,ERROR\x7d] [-e EXPR]\n"

/-- The whole explanation of the command. -/
def helpText : String :=
  usageText ++
  "\n" ++
  "A minimal Lisp read-eval-print loop\n" ++
  "\n" ++
  "options:\n" ++
  "  -h, --help            show this help message and exit\n" ++
  "  --version             show program's version number and exit\n" ++
  "  --prompt PROMPT       REPL prompt (env: SWISP_PROMPT)\n" ++
  "  --precision PRECISION\n" ++
  "                        significant digits for decimal arithmetic (env:\n" ++
  "                        SWISP_DECIMAL_PRECISION)\n" ++
  "  --log-level \x7bDEBUG,INFO,WARNING,ERROR\x7d\n" ++
  "                        logging level (env: SWISP_LOG_LEVEL)\n" ++
  "  -e EXPR, --eval EXPR  evaluate one form, print it and exit\n"

/-- The name and the version of the program. -/
def versionText : String := "swisp 0.1.0\n"

end DecimalLisp.CommandLine
