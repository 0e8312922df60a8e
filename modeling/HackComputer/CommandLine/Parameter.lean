import HackComputer.Text.Similarity

/-!
# Parameters and subcommands

What the arguments of the command line can set, under which names, and for
which subcommand.
-/

namespace HackComputer.CommandLine

/-- What an argument can set. -/
inductive Parameter where
  /-- The path of the program file. -/
  | program
  | maxCycles
  | trace
  | set
  | keyboard
  | dump
  | screen
  | config
  | help
  deriving DecidableEq, Repr

namespace Parameter

/-- The parameters that are set by an option. -/
def options : List Parameter :=
  [.maxCycles, .trace, .set, .keyboard, .dump, .screen, .config, .help]

/-- The long name of an option. -/
def longName : Parameter → String
  | .program => "program"
  | .maxCycles => "max-cycles"
  | .trace => "trace"
  | .set => "set"
  | .keyboard => "keyboard"
  | .dump => "dump"
  | .screen => "screen"
  | .config => "config"
  | .help => "help"

/-- The letter of an option, if it has one. -/
def letter? : Parameter → Option Char
  | .program => none
  | .maxCycles => some 'm'
  | .trace => some 't'
  | .set => some 's'
  | .keyboard => some 'k'
  | .dump => some 'd'
  | .screen => none
  | .config => some 'c'
  | .help => some 'h'

/-- The name of the value, for a parameter that takes one. -/
def valueName? : Parameter → Option String
  | .program => some "PROGRAM"
  | .maxCycles => some "MAX_CYCLES"
  | .set => some "ADDR=VALUE"
  | .keyboard => some "KEYBOARD"
  | .dump => some "START:COUNT"
  | .config => some "CONFIG"
  | .trace | .screen | .help => none

/-- The parameter as messages show it. -/
def display (parameter : Parameter) : String :=
  match parameter, parameter.valueName? with
  | .program, _ => "<PROGRAM>"
  | _, some valueName => "--" ++ parameter.longName ++ " <" ++ valueName ++ ">"
  | _, none => "--" ++ parameter.longName

end Parameter

/-- What the program can be asked to do. -/
inductive Subcommand where
  | run
  | debug
  | disasm
  | config
  deriving DecidableEq, Repr

namespace Subcommand

/-- The subcommand with a name. -/
def ofName? : String → Option Subcommand
  | "run" => some .run
  | "debug" => some .debug
  | "disasm" => some .disasm
  | "config" => some .config
  | _ => none

/-- The options of a subcommand. -/
def options : Subcommand → List Parameter
  | .run => Parameter.options
  | .debug => [.config, .help]
  | .disasm | .config => [.help]

/-- Does the subcommand work on a program file? -/
def takesProgram : Subcommand → Bool
  | .run | .debug | .disasm => true
  | .config => false

/-- The option with a long name. -/
def byName? (subcommand : Subcommand) (name : List Char) : Option Parameter :=
  subcommand.options.find? fun option => option.longName.toList == name

/-- An option whose long name is like a given one. -/
def likeName? (subcommand : Subcommand) (name : List Char) : Option Parameter :=
  subcommand.options.find? fun option => Text.areAlike name option.longName.toList

/-- The option with a letter. -/
def byLetter? (subcommand : Subcommand) (letter : Char) : Option Parameter :=
  subcommand.options.find? fun option => option.letter? == some letter

end Subcommand

end HackComputer.CommandLine
