import HackComputer.CommandLine.Parameter
import HackComputer.CommandLine.Value
import HackComputer.Text.ControlSequence

/-!
# Settings

The parameters that have been set, each of them at most once except for the
words to store before a run.
-/

namespace HackComputer.CommandLine

/-- Why arguments form no command. -/
inductive UsageError where
  | noSubcommand
  | unknownSubcommand (name : String)
  /-- A name of a subcommand where only other arguments may follow. -/
  | lateSubcommand (name : String)
  /-- An argument that fits nowhere. -/
  | unexpected (argument : String)
  /-- An argument that looks like an option and could be meant as a path. -/
  | maybePath (argument : String)
  /-- An argument that looks like an option and could be meant as another
  one. -/
  | maybeOption (argument : String) (meant : Parameter)
  /-- An option without values that was given one. -/
  | unexpectedValue (option value : String)
  | missingValue (parameter : Parameter)
  /-- A parameter that is set for a second time. -/
  | repeated (parameter : Parameter)
  | invalidValue (parameter : Parameter) (value : String) (cause : ValueError)
  | missingProgram
  deriving DecidableEq, Repr

namespace UsageError

/-- An argument that looks like an option, to a subcommand that does not know
it. -/
def ofOption (subcommand : Subcommand) (argument : String) : UsageError :=
  if subcommand.takesProgram then .maybePath argument else .unexpected argument

/-- A long name that a subcommand does not know. -/
def ofLongName (subcommand : Subcommand) (name : List Char) : UsageError :=
  let argument := String.ofList ('-' :: '-' :: name)
  match subcommand.likeName? name with
  | some meant => .maybeOption argument meant
  | none => .ofOption subcommand argument

/-- A text between quotes, as far as it can be shown. -/
def quoted (text : String) : String :=
  "'" ++ Text.withoutControls text ++ "'"

/-- The text that reports an argument in a place where it fits nowhere. -/
def unexpectedText (argument : String) : String :=
  "error: unexpected argument " ++ quoted argument ++ " found"

/-- The text that reports a failure to form a command. -/
def message : UsageError → String
  | .noSubcommand => "error: no subcommand given"
  | .unknownSubcommand name => "error: unrecognized subcommand " ++ quoted name
  | .lateSubcommand name =>
    "error: subcommand " ++ quoted name ++ " exists; to use it, remove the '--' before it"
  | .unexpected argument => unexpectedText argument
  | .maybePath argument =>
    unexpectedText argument ++ "\n\n  tip: to pass " ++ quoted argument ++ " as a value, use " ++
      quoted ("-- " ++ argument)
  | .maybeOption argument meant =>
    unexpectedText argument ++ "\n\n  tip: a similar argument exists: " ++
      quoted ("--" ++ meant.longName)
  | .unexpectedValue option value =>
    "error: unexpected value " ++ quoted value ++ " for " ++ quoted option ++
      " found; no more were expected"
  | .missingValue parameter =>
    "error: a value is required for " ++ quoted parameter.display ++ " but none was supplied"
  | .repeated parameter =>
    "error: the argument " ++ quoted parameter.display ++ " cannot be used multiple times"
  | .invalidValue parameter value cause =>
    "error: invalid value " ++ quoted value ++ " for " ++ quoted parameter.display ++ ": " ++
      cause.message
  | .missingProgram => "error: the following required arguments were not provided:\n  <PROGRAM>"

end UsageError

/-- What has been set. -/
structure Settings where
  program : Option String := none
  maxCycles : Option Nat := none
  trace : Bool := false
  assignments : List Assignment := []
  keyboard : Option Word := none
  dump : Option CellRange := none
  screen : Bool := false
  config : Option String := none
  help : Bool := false
  deriving DecidableEq, Repr

namespace Settings

/-- Sets a parameter that has not been set before. -/
def once {α : Type} (parameter : Parameter) (isSet : Bool) (value : Except UsageError α) :
    Except UsageError α :=
  if isSet then .error (.repeated parameter) else value

/-- Reads a path, which may not be empty. -/
def readPath (parameter : Parameter) (text : String) : Except UsageError String :=
  if text.isEmpty then .error (.missingValue parameter) else .ok text

/-- Reads the value of a parameter with one of the readers of values. -/
def readValue {α : Type} (parameter : Parameter) (read : List Char → Except ValueError α)
    (text : String) : Except UsageError α :=
  match read text.toList with
  | .ok value => .ok value
  | .error cause => .error (.invalidValue parameter text cause)

/-- Sets a parameter to the value that `text` denotes. -/
def assign (settings : Settings) (parameter : Parameter) (text : String) :
    Except UsageError Settings := do
  match parameter with
  | .program =>
    let path ← once parameter settings.program.isSome (readPath parameter text)
    return { settings with program := some path }
  | .maxCycles =>
    let cycles ← once parameter settings.maxCycles.isSome (readValue parameter readCycles text)
    return { settings with maxCycles := some cycles }
  | .set =>
    let assignment ← readValue parameter readAssignment text
    return { settings with assignments := settings.assignments ++ [assignment] }
  | .keyboard =>
    let code ← once parameter settings.keyboard.isSome (readValue parameter readKeyCode text)
    return { settings with keyboard := some code }
  | .dump =>
    let range ← once parameter settings.dump.isSome (readValue parameter readCellRange text)
    return { settings with dump := some range }
  | .config =>
    let path ← once parameter settings.config.isSome (readPath parameter text)
    return { settings with config := some path }
  | .trace | .screen | .help => throw (.unexpectedValue parameter.display text)

/-- Switches on a parameter without a value. -/
def switch (settings : Settings) (parameter : Parameter) : Except UsageError Settings := do
  match parameter with
  | .trace => once parameter settings.trace (.ok { settings with trace := true })
  | .screen => once parameter settings.screen (.ok { settings with screen := true })
  | .help => return { settings with help := true }
  | _ => throw (.missingValue parameter)

end Settings

end HackComputer.CommandLine
