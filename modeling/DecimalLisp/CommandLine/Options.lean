import DecimalLisp.CommandLine.Usage
import DecimalLisp.Text.DecimalDigit
import DecimalLisp.Text.Integer

/-!
# Options

The arguments of the command say what it shall do. Each argument is first looked at by
itself: it is an option, perhaps abbreviated and perhaps with a value in it, or a row of
short options, or something that looks like an option and is none, or a plain word. Then
they are taken from left to right. A plain word counts only as the value of the option
before it, and of several values of one option the last counts. Two dashes that are
written as a value are dropped, and the option is left with none.
-/

namespace DecimalLisp.CommandLine

/-- What an argument is by itself. -/
inductive Shape where
  /-- A word without meaning of its own. -/
  | plain
  /-- Two dashes, after which all arguments are plain. -/
  | separator
  /-- An option, and the value that follows a long one after an equals sign. -/
  | flag (flag : Flag) (value : Option String)
  /-- A short option, and what is written on to it; an equals sign between both may stand
  or be left out. -/
  | row (flag : Flag) (rest : String)
  /-- What looks like an option but is none. -/
  | unknown
deriving DecidableEq, Repr

/-- A text before its first equals sign and after it. -/
def splitAtEquals (text : List Char) : List Char × Option (List Char) :=
  match text.dropWhile (· != '=') with
  | [] => (text, none)
  | _ :: after => (text.takeWhile (· != '='), some after)

/-- Whether a text is a negative number: a minus and digits, or digits around a point
with some after it. One line feed may follow. -/
def isNegativeNumber : List Char → Bool
  | '-' :: text =>
    match Text.takeDigits text with
    | (whole, []) => whole != []
    | (whole, ['\n']) => whole != []
    | (_, '.' :: rest) =>
      match Text.takeDigits rest with
      | (fraction, []) => fraction != []
      | (fraction, ['\n']) => fraction != []
      | _ => false
    | _ => false
  | _ => false

/-- The options that a text with two dashes may abbreviate, with their spellings. -/
def abbreviated (text : List Char) : List (String × Shape) :=
  let (start, value) := splitAtEquals text
  (Flag.spelt.filter fun (spelling, _) => start.isPrefixOf spelling.toList).map
    fun (spelling, flag) => (spelling, .flag flag (value.map String.ofList))

/-- The options that a text with one dash may begin with, with their spellings: a short
one with something written on to it, or one that the text abbreviates. -/
def shortened (text : List Char) : List (String × Shape) :=
  Flag.spelt.filterMap fun (spelling, flag) =>
    if spelling.toList = text.take 2 then
      some (spelling, .row flag (String.ofList (text.drop 2)))
    else if text.isPrefixOf spelling.toList then some (spelling, .flag flag none)
    else none

/-- What an argument that is no option by its spelling may be. -/
def guess (argument : String) (text : List Char) : Except UsageFault Shape :=
  let long := (text.drop 1).head? == some '-'
  match if long then abbreviated text else shortened text with
  | [(_, shape)] => .ok shape
  | [] =>
    if isNegativeNumber text || text.contains ' ' then .ok .plain else .ok .unknown
  | several => .error (.ambiguous argument (several.map Prod.fst))

/-- What an argument is by itself. -/
def shape (argument : String) : Except UsageFault Shape :=
  match argument.toList with
  | '-' :: rest =>
    match Flag.ofSpelling? argument, rest with
    | some flag, _ => .ok (.flag flag none)
    | none, [] => .ok .plain
    | none, _ =>
      match splitAtEquals ('-' :: rest) with
      | (start, some value) =>
        match Flag.ofSpelling? (String.ofList start) with
        | some flag =>
          let written := String.ofList value
          .ok (if start.length = 2 then .row flag written else .flag flag (some written))
        | none => guess argument ('-' :: rest)
      | (_, none) => guess argument ('-' :: rest)
  | _ => .ok .plain

/-- The arguments with what each is by itself. -/
def shapes : List String → Except UsageFault (List (String × Shape))
  | [] => .ok []
  | argument :: rest =>
    if argument = "--" then .ok ((argument, .separator) :: rest.map fun word => (word, .plain))
    else do
      let first ← shape argument
      return (argument, first) :: (← shapes rest)

/-- What the arguments say about an option that takes a value. -/
inductive Entry (α : Type) where
  /-- It does not occur. -/
  | absent
  /-- It occurs, but its value was dropped. -/
  | hollow
  /-- It has a value. -/
  | written (value : α)
deriving DecidableEq, Repr

/-- What the user set. -/
structure Options where
  /-- The prompt. -/
  prompt : Entry String
  /-- The precision. -/
  precision : Entry Int
  /-- The word for the level. -/
  logLevel : Entry String
  /-- The text to be evaluated. -/
  expression : Entry String
deriving DecidableEq, Repr

/-- What the user asks for. -/
inductive Request where
  /-- The explanation of the command. -/
  | help
  /-- The version of the program. -/
  | version
  /-- Work with some options. -/
  | work (options : Options)
deriving DecidableEq, Repr

namespace Options

/-- Nothing is set. -/
def none : Options := ⟨.absent, .absent, .absent, .absent⟩

/-- Sets an option to a value that is kept. -/
def setTo (options : Options) (value : String) : Flag → Except UsageFault Options
  | .prompt => .ok { options with prompt := .written value }
  | .precision =>
    match Text.integer? value.toList with
    | some n => .ok { options with precision := .written n }
    | .none => .error (.notInteger value)
  | .logLevel =>
    if value ∈ levelWords then .ok { options with logLevel := .written value }
    else .error (.unknownLevel value)
  | .expression => .ok { options with expression := .written value }
  | .help => .ok options
  | .version => .ok options

/-- Leaves an option without a value. What it was set to before is forgotten. -/
def hollow (options : Options) : Flag → Options
  | .prompt => { options with prompt := .hollow }
  | .precision => { options with precision := .hollow }
  | .logLevel => { options with logLevel := .hollow }
  | .expression => { options with expression := .hollow }
  | .help => options
  | .version => options

/-- Sets an option to a written value. Two dashes are dropped before anyone looks at the
value. -/
def set (options : Options) (value : String) (flag : Flag) : Except UsageFault Options :=
  if value = "--" then .ok (options.hollow flag) else options.setTo value flag

end Options

/-- The option at the end of a row of short options that still lacks its value, if there
is one. The letters after an option that takes no value are options too, up to one that
takes a value; what follows that one is its value. -/
def lackingInRow (flag : Flag) : List Char → Except UsageFault (Option Flag)
  | [] => .ok (if flag.takesValue then some flag else none)
  | letter :: rest =>
    if flag.takesValue then .ok none
    else match Flag.ofSpelling? (String.ofList ['-', letter]) with
      | some next => lackingInRow next rest
      | none => .error (.unwantedValue flag (String.ofList (letter :: rest)))

/-- What an option asks for that takes no value. -/
def Request.ofFlag (flag : Flag) : Request :=
  if flag = .version then .version else .help

/-- Takes the arguments from left to right. Those that mean nothing are put aside, the
last one first, and reported when all others are done. -/
def request (aside : List String) (options : Options) :
    List (String × Shape) → Except UsageFault Request
  | [] => if aside = [] then .ok (.work options) else .error (.unrecognized aside.reverse)
  | (argument, .plain) :: rest => request (argument :: aside) options rest
  | (argument, .separator) :: rest => request (argument :: aside) options rest
  | (argument, .unknown) :: rest => request (argument :: aside) options rest
  | (_, .flag flag none) :: (value, .plain) :: rest =>
    if flag.takesValue then do request aside (← options.set value flag) rest
    else .ok (.ofFlag flag)
  | (_, .flag flag none) :: _ =>
    if flag.takesValue then .error (.missingValue flag) else .ok (.ofFlag flag)
  | (_, .flag flag (some value)) :: rest =>
    if flag.takesValue then do request aside (← options.set value flag) rest
    else .error (.unwantedValue flag value)
  | (_, .row flag value) :: rest =>
    if flag.takesValue then do request aside (← options.set value flag) rest
    else if value = "" then .error (.unwantedValue flag value)
    else match lackingInRow flag value.toList, rest with
      | .error fault, _ => .error fault
      | .ok none, _ => .ok (.ofFlag flag)
      | .ok (some _), (_, .plain) :: _ => .ok (.ofFlag flag)
      | .ok (some last), _ => .error (.missingValue last)

/-- What the arguments ask for. -/
def Request.ofArguments (arguments : List String) : Except UsageFault Request := do
  request [] .none (← shapes arguments)

end DecimalLisp.CommandLine
