import HackComputer.CommandLine.Arguments

/-!
# Commands

The first argument names a subcommand, and the others set its parameters.  What
has been set makes a complete command, with a standard value for all that may
be left out.
-/

namespace HackComputer.CommandLine

/-- The settings of a run. -/
structure RunOptions where
  maxCycles : Nat
  trace : Bool
  assignments : List Assignment
  keyboard : Word
  dump : Option CellRange
  screen : Bool
  config : Option String
  deriving DecidableEq, Repr

/-- A complete command. -/
inductive Command where
  | run (program : String) (options : RunOptions)
  | debug (program : String) (config : Option String)
  | disasm (program : String)
  | config
  | version
  | help
  deriving DecidableEq, Repr

/-- The number of cycles after which a run ends if nothing else is asked for. -/
def standardMaxCycles : Nat := 1000000

namespace Command

/-- The command that a subcommand and its settings make. -/
def ofSettings (subcommand : Subcommand) (settings : Settings) : Except UsageError Command :=
  if settings.help then .ok .help
  else
    match subcommand, settings.program with
    | .config, _ => .ok .config
    | _, none => .error .missingProgram
    | .run, some program =>
      .ok <| .run program
        { maxCycles := settings.maxCycles.getD standardMaxCycles
          trace := settings.trace
          assignments := settings.assignments
          keyboard := settings.keyboard.getD 0
          dump := settings.dump
          screen := settings.screen
          config := settings.config }
    | .debug, some program => .ok (.debug program settings.config)
    | .disasm, some program => .ok (.disasm program)

/-- The command for the help on subcommands: names may follow. -/
def ofHelp : List String → Except UsageError Command
  | [] => .ok .help
  | name :: rest =>
    if (Subcommand.ofName? name).isNone && name != "help" then .error (.unknownSubcommand name)
    else
      match rest with
      | [] => .ok .help
      | name :: _ => .error (.unknownSubcommand name)

/-- The command for an option, with its long name, in front of all
subcommands. -/
def ofLongName (body : List Char) : Except UsageError Command :=
  let (name, value?) := nameAndValue body
  let option := String.ofList ('-' :: '-' :: name)
  let command? : Option Command :=
    if option = "--version" then some .version
    else if option = "--help" then some .help
    else none
  match command?, value? with
  | some command, none => .ok command
  | some _, some value => .error (.unexpectedValue option value)
  | none, _ => .error (.unexpected option)

/-- The command for the letter of an option in front of all subcommands. -/
def ofLetter : Char → Except UsageError Command
  | 'V' => .ok .version
  | 'h' => .ok .help
  | letter => .error (.unexpected (String.ofList ['-', letter]))

/-- The failure of arguments that are no options and follow on no
subcommand. -/
def ofRest : List String → Except UsageError Command
  | [] => .error .noSubcommand
  | name :: _ =>
    if (Subcommand.ofName? name).isSome || name = "help" then .error (.lateSubcommand name)
    else .error (.unknownSubcommand name)

/-- The command that the arguments of the program form. -/
def ofArguments : List String → Except UsageError Command
  | [] => .error .noSubcommand
  | "help" :: rest => ofHelp rest
  | first :: rest =>
    match Subcommand.ofName? first with
    | some subcommand => do ofSettings subcommand (← readSettings subcommand rest)
    | none =>
      match first.toList with
      | ['-', '-'] => ofRest rest
      | '-' :: '-' :: body => ofLongName body
      | '-' :: letter :: _ => ofLetter letter
      | _ => .error (.unknownSubcommand first)

/-- The files that a command reads. -/
def files : Command → List String
  | .run program options => options.config.toList ++ [program]
  | .debug program configPath => configPath.toList ++ [program]
  | .disasm program => [program]
  | .config | .version | .help => []

end Command

end HackComputer.CommandLine
