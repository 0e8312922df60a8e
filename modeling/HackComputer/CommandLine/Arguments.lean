import HackComputer.CommandLine.Settings

/-!
# Arguments

The arguments of a subcommand are taken from left to right.  A value that is
attached to its option is read at once; a value in an argument of its own, like
the program path, is read when the next option or path arrives or the arguments
end.  So the error that is reported for several faults is the first one in this
order, except that an argument which fits nowhere is reported before a value
that is still waiting.
-/

namespace HackComputer.CommandLine

/-- The long name of an option, and the value behind an equals sign, if there
is one. -/
def nameAndValue (body : List Char) : List Char × Option String :=
  match splitAtFirst? '=' body with
  | none => (body, none)
  | some (name, value) => (name, some (String.ofList value))

/-- The state of reading arguments. -/
structure Reading where
  settings : Settings := {}
  /-- A parameter that waits to be set, with its value if that has been
  given. -/
  pending : Option (Parameter × Option String) := none
  /-- Has the path of the program been given? -/
  hasProgram : Bool := false
  /-- Are all further arguments paths? -/
  pathsOnly : Bool := false
  deriving DecidableEq, Repr

namespace Reading

/-- Sets the parameter that waits. -/
def settle (reading : Reading) : Except UsageError Reading := do
  match reading.pending with
  | none => return reading
  | some (parameter, none) => throw (.missingValue parameter)
  | some (parameter, some text) =>
    return { reading with settings := ← reading.settings.assign parameter text, pending := none }

/-- Takes an option with a value attached. -/
def attached (reading : Reading) (parameter : Parameter) (text : String) :
    Except UsageError Reading := do
  let reading ← reading.settle
  return { reading with settings := ← reading.settings.assign parameter text }

/-- Takes an option whose value is an argument of its own. -/
def detached (reading : Reading) (parameter : Parameter) : Except UsageError Reading := do
  let reading ← reading.settle
  return { reading with pending := some (parameter, none) }

/-- Takes an option without a value. -/
def switch (reading : Reading) (parameter : Parameter) : Except UsageError Reading := do
  let reading ← reading.settle
  return { reading with settings := ← reading.settings.switch parameter }

/-- Takes an option with its long name and perhaps a value. -/
def long (subcommand : Subcommand) (reading : Reading) (body : List Char) :
    Except UsageError Reading := do
  let (name, value?) := nameAndValue body
  match subcommand.byName? name with
  | none => throw (.ofLongName subcommand name)
  | some parameter =>
    match parameter.valueName?, value? with
    | some _, some value => reading.attached parameter value
    | some _, none => reading.detached parameter
    | none, some value => throw (.unexpectedValue parameter.display value)
    | none, none => reading.switch parameter

/-- Takes the letters of options.  What follows the letter of an option that
takes a value is its value, without an equals sign in front of it. -/
def letters (subcommand : Subcommand) (reading : Reading) : List Char → Except UsageError Reading
  | [] => .ok reading
  | letter :: rest => do
    -- A request for help ends the reading.
    if reading.settings.help then return reading
    match subcommand.byLetter? letter with
    | none => throw (.ofOption subcommand (String.ofList ['-', letter]))
    | some parameter =>
      match parameter.valueName?, rest with
      | none, _ => letters subcommand (← reading.switch parameter) rest
      | some _, [] => reading.detached parameter
      | some _, '=' :: value => reading.attached parameter (String.ofList value)
      | some _, value => reading.attached parameter (String.ofList value)

/-- Takes the path of the program. -/
def path (subcommand : Subcommand) (reading : Reading) (text : String) :
    Except UsageError Reading := do
  if subcommand.takesProgram && !reading.hasProgram then
    let reading ← reading.settle
    return { reading with pending := some (.program, some text), hasProgram := true }
  else throw (.unexpected text)

/-- Takes an argument that is no option: the value that is waited for, or else
a path. -/
def plain (subcommand : Subcommand) (reading : Reading) (text : String) :
    Except UsageError Reading :=
  match reading.pending with
  | some (parameter, none) => .ok { reading with pending := some (parameter, some text) }
  | _ => reading.path subcommand text

/-- Takes one argument. -/
def step (subcommand : Subcommand) (reading : Reading) (argument : String) :
    Except UsageError Reading :=
  if reading.settings.help then .ok reading
  else if reading.pathsOnly then reading.path subcommand argument
  else
    match argument.toList with
    | ['-', '-'] => .ok { reading with pathsOnly := true }
    | '-' :: '-' :: body => reading.long subcommand body
    | '-' :: letter :: rest => reading.letters subcommand (letter :: rest)
    | _ => reading.plain subcommand argument

end Reading

/-- The settings that a list of arguments makes for a subcommand. -/
def readSettings (subcommand : Subcommand) (arguments : List String) :
    Except UsageError Settings := do
  let reading ← arguments.foldlM (Reading.step subcommand) {}
  if reading.settings.help then return reading.settings
  let reading ← reading.settle
  return reading.settings

end HackComputer.CommandLine
