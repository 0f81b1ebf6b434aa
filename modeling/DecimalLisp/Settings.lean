import DecimalLisp.Decimal.Rounding
import DecimalLisp.Log
import DecimalLisp.Text.Capital
import DecimalLisp.Text.Integer

/-!
# Settings

Three variables of the surroundings set the prompt, the precision and the level from
which notes are shown. Each has a default. A precision that is set has to be a positive
integer; a level that is no known word is the default.
-/

namespace DecimalLisp

/-- Why a setting cannot be used. -/
inductive SettingsFault where
  /-- The precision is set to something that is no integer. -/
  | notInteger (written : String)
  /-- The precision is set below one. -/
  | notPositive (n : Int)
  /-- There is no such precision. -/
  | noPrecision
  /-- A precision does not even fit in a machine word. -/
  | noWord
deriving DecidableEq, Repr

namespace SettingsFault

/-- The message that a user gets. -/
def message : SettingsFault → String
  | notInteger written =>
    "SWISP_DECIMAL_PRECISION must be an integer, got " ++ Text.quoted written
  | notPositive n => "SWISP_DECIMAL_PRECISION must be positive, got " ++ toString n
  | noPrecision => "valid range for prec is [1, MAX_PREC]"
  | noWord => "precision too large for a machine word"

end SettingsFault

/-- Variables that are set, by name. -/
abbrev Variables := String → Option String

namespace Settings

/-- The variable that sets the prompt. -/
def promptVariable : String := "SWISP_PROMPT"

/-- The variable that sets the precision. -/
def precisionVariable : String := "SWISP_DECIMAL_PRECISION"

/-- The variable that sets the level. -/
def levelVariable : String := "SWISP_LOG_LEVEL"

/-- The prompt where none is set. -/
def defaultPrompt : String := "swisp> "

/-- The precision where none is set. -/
def defaultPrecision : Int := 38

/-- The level where none is set. -/
def defaultLevel : Level := Level.warning

/-- The prompt; it may be empty. -/
def prompt (surroundings : Variables) : String :=
  (surroundings promptVariable).getD defaultPrompt

/-- The precision. It is not set if the variable is empty. -/
def precision (surroundings : Variables) : Except SettingsFault Int :=
  match surroundings precisionVariable with
  | none => .ok defaultPrecision
  | some written =>
    if written = "" then .ok defaultPrecision
    else match Text.integer? (Text.trim written.toList) with
      | none => .error (.notInteger written)
      | some n => if n < 1 then .error (.notPositive n) else .ok n

/-- Whether an integer fits in a machine word of 64 bits with a sign. -/
def fitsWord (n : Int) : Bool :=
  -9223372036854775808 ≤ n && n < 9223372036854775808

/-- An integer as a precision, or what is wrong with it. -/
def checkPrecision (n : Int) : Except SettingsFault Precision :=
  match Precision.ofInt? n with
  | some p => .ok p
  | none => .error (if fitsWord n then .noPrecision else .noWord)

/-- The levels by their names; some have two. -/
def levelNames : List (String × Level) :=
  [("CRITICAL", Level.critical), ("FATAL", Level.critical), ("ERROR", Level.error),
   ("WARNING", Level.warning), ("WARN", Level.warning), ("INFO", Level.info),
   ("DEBUG", Level.debug), ("NOTSET", 0)]

/-- The level from which notes are shown. Case and surrounding blanks do not matter. -/
def level (surroundings : Variables) : Level :=
  match surroundings levelVariable with
  | none => defaultLevel
  | some written =>
    let word := String.ofList (Text.capitals (Text.trim written.toList))
    (levelNames.lookup word).getD defaultLevel

end Settings

end DecimalLisp
