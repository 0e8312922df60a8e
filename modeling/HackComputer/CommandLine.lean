import HackComputer.CommandLine.Command
import HackComputer.Inspect
import HackComputer.Machine.ConfigFile
import HackComputer.Machine.Event
import HackComputer.ProgramFile

/-!
# The command line program

Commands read files, which are given as a function from paths to places, and
leave an exit code, the text on the standard output and the lines on the
standard error output.
-/

namespace HackComputer.CommandLine

/-- What a command leaves. -/
structure Outcome where
  code : Nat
  output : String
  errors : List String
  deriving DecidableEq, Repr

namespace Outcome

/-- Success with some output. -/
def success (output : String) : Outcome :=
  ⟨0, output, []⟩

/-- A reported failure, after some output. -/
def failure (output : String) (errors : List String) (message : String) : Outcome :=
  ⟨1, output, errors ++ ["❌ " ++ message]⟩

end Outcome

/-- Reads the configuration that is asked for, or gives the standard one. -/
def loadConfig (places : String → Place) : Option String → Except String Config
  | none => .ok {}
  | some path =>
    match Config.load (places path) with
    | .ok config => .ok config
    | .error cause => .error ("Failed to load config " ++ path ++ ": " ++ cause.message)

/-- Reads a program with at least one instruction. -/
def loadProgram (places : String → Place) (path : String) : Except String ProgramFile :=
  match ProgramFile.load (places path) with
  | .error cause => .error ("Failed to load " ++ path ++ ": " ++ cause.message)
  | .ok file => if file.size = 0 then .error "No instructions to execute" else .ok file

/-- A log record as a line. -/
def recordLine (event : Event) : String :=
  "[" ++ event.level.name ++ " " ++ event.origin ++ "] " ++ event.text

/-! ## Runs -/

/-- A register with its bits and its signed value. -/
def registerText (value : Word) : String :=
  value.toBinary ++ s!" ({value.toInt})"

/-- The report on a finished run. -/
def resultText (machine : Machine) (cycles : Nat) : String :=
  "\n━━━ Result ━━━\n" ++
    s!"Cycles: {cycles}\n" ++
    s!"State:  {inspect machine.state}\n" ++
    s!"A:      {registerText machine.cpu.a}\n" ++
    s!"D:      {registerText machine.cpu.d}\n" ++
    s!"PC:     {machine.cpu.pc.toNat}\n"

/-- The RAM cells of a range. -/
def dumpText (machine : Machine) (range : CellRange) : String :=
  let line (entry : Nat × Word) : String :=
    Text.zeroPadded 5 entry.1 ++ ": " ++ Text.alignRight 6 (toString entry.2.toInt) ++ "  " ++
      entry.2.toBinary ++ "\n"
  "\n━━━ RAM ━━━\n" ++
    String.join ((machine.memory.ram.dump range.start range.count).map line)

/-- The screen as text. -/
def screenText (machine : Machine) : String :=
  "\n━━━ Screen ━━━\n" ++
    String.join ((machine.memory.screen.render 128 64).map (· ++ "\n"))

/-- The remark on a run that its budget ended. -/
def limitText (limit : Nat) : String :=
  s!"\n⚠️  Reached max cycles limit ({limit}). Use --max-cycles to increase.\n"

/-- The report on a finished run, with all that was asked for. -/
def reportText (machine : Machine) (cycles : Nat) (options : RunOptions) : String :=
  resultText machine cycles ++
    (match options.dump with
      | none => ""
      | some range => dumpText machine range) ++
    (if options.screen then screenText machine else "") ++
    (if machine.state = .running ∧ options.maxCycles ≤ cycles then limitText options.maxCycles
      else "")

/-- Stores words one after the other, up to the first that is refused. -/
def store (machine : Machine) : List Assignment → Except String Machine
  | [] => .ok machine
  | assignment :: rest =>
    match machine.poke assignment.address assignment.value with
    | (.ok (), machine) => store machine rest
    | (.error cause, _) =>
      .error (s!"--set {assignment.address.toNat}={assignment.value.toInt}: " ++ cause.message)

/-- The report on a fault, with the line of the program file that the faulting
instruction stands on. -/
def faultText (file : ProgramFile) (pc : Word) (error : MachineError) : String :=
  let place := match file.sourceLine? pc with
    | some line => s!"PC={pc.toNat} (line {line})"
    | none => s!"PC={pc.toNat}"
  "Machine error at " ++ place ++ ": " ++ error.message

/-- Runs a machine, and gives the log lines if they are asked for. -/
def runMachine (machine : Machine) (options : RunOptions) :
    List String × Except MachineError Nat × Machine :=
  if options.trace then
    let (events, result) := machine.runLogged options.maxCycles
    (events.map recordLine, result)
  else ([], machine.run options.maxCycles)

/-- Runs a program in a new machine. -/
def runProgram (file : ProgramFile) (path : String) (config : Config) (options : RunOptions) :
    Outcome :=
  let heading := s!"🔧 Running: {path} ({file.size} instructions)\n"
  match (Machine.ofConfig config).load file.instructions with
  | (.error cause, _) => .failure heading [] ("Failed to load program: " ++ cause.message)
  | (.ok (), machine) =>
    let loaded := if options.trace then [recordLine (.loaded file.size)] else []
    match store machine options.assignments with
    | .error message => .failure heading loaded message
    | .ok machine =>
      let (records, result, machine) := runMachine (machine.setKeyboard options.keyboard) options
      match result with
      | .error error =>
        .failure heading (loaded ++ records) (faultText file machine.cpu.pc error)
      | .ok cycles => ⟨0, heading ++ reportText machine cycles options, loaded ++ records⟩

/-! ## Commands -/

/-- The name and version of the program. -/
def versionText : String :=
  "hack-emu 0.1.0\n"

/-- A summary of the commands. -/
def helpText : String :=
  "Usage: hack-emu <run|debug|disasm> <PROGRAM>\n       hack-emu config\n"

/-- Reports a failed part of a command, or goes on with its value. -/
def orFail {α : Type} (result : Except String α) (next : α → Outcome) : Outcome :=
  match result with
  | .error message => .failure "" [] message
  | .ok value => next value

/-- Executes a command. -/
def execute (places : String → Place) : Command → Outcome
  | .run path options =>
    orFail (loadConfig places options.config) fun config =>
      orFail (loadProgram places path) fun file => runProgram file path config options
  | .debug path config =>
    orFail (loadConfig places config) fun _ =>
      orFail (loadProgram places path) fun file =>
        .success s!"🔍 Loaded {file.size} instructions, launching debugger...\n"
  | .disasm path =>
    orFail (loadProgram places path) fun file => .success (Assembly.listing file.instructions)
  | .config => .success (({} : Config).fileText ++ "\n")
  | .version => .success versionText
  | .help => .success helpText

/-- Executes the command that the arguments form. -/
def perform (places : String → Place) (arguments : List String) : Outcome :=
  match Command.ofArguments arguments with
  | .error cause => ⟨2, "", [cause.message]⟩
  | .ok command => execute places command

end HackComputer.CommandLine
