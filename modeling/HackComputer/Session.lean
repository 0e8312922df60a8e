import HackComputer.Json.Components
import HackComputer.Machine.Event
import HackComputer.ProgramFile

/-!
# Sessions

One machine in the standard configuration, behind the operations that a page
around it needs.  Loading starts from a new machine; a program text that cannot
be read leaves the old one.
-/

namespace HackComputer

/-- A machine for a page to drive. -/
structure Session where
  machine : Machine
  deriving DecidableEq, Repr

/-- Why an operation of a session failed. -/
inductive SessionError where
  | program (cause : ProgramFileError)
  | machine (cause : MachineError)
  | memory (cause : MemoryError)
  deriving DecidableEq, Repr

/-- The text that reports a failed operation of a session. -/
def SessionError.message : SessionError → String
  | .program cause => cause.message
  | .machine cause => cause.message
  | .memory cause => cause.message

namespace Session

/-- A session with a new machine. -/
def new : Session :=
  ⟨.ofConfig {}⟩

/-- A new machine with a program, and the number of its instructions. -/
def start (program : List Word) : Except SessionError Nat × Session :=
  match (Machine.ofConfig {}).load program with
  | (.ok (), machine) => (.ok program.length, ⟨machine⟩)
  | (.error cause, machine) => (.error (.machine cause), ⟨machine⟩)

/-- Loads the instructions of a program text. -/
def loadText (session : Session) (text : String) : Except SessionError Nat × Session :=
  match ProgramFile.ofText text with
  | .error cause => (.error (.program cause), session)
  | .ok file => start file.instructions

/-- Loads a list of words.  The old machine is gone even if the program is too
large. -/
def loadWords (_session : Session) (program : List Word) : Except SessionError Nat × Session :=
  start program

/-- Executes one cycle and gives the instruction in symbolic form. -/
def step (session : Session) : Except SessionError String × Session :=
  match session.machine.step with
  | (.ok info, machine) => (.ok (Assembly.disassemble info.word), ⟨machine⟩)
  | (.error cause, machine) => (.error (.machine cause), ⟨machine⟩)

/-- Runs until halted, at most `budget` cycles, and gives the number of cycles
since the program was loaded. -/
def run (session : Session) (budget : Nat) : Except SessionError Nat × Session :=
  match session.machine.run budget with
  | (.ok _, machine) => (.ok machine.cycles, ⟨machine⟩)
  | (.error cause, machine) => (.error (.machine cause), ⟨machine⟩)

/-- Restarts the program.  Memory keeps its contents. -/
def reset (session : Session) : Session :=
  ⟨session.machine.reset⟩

/-- Is the machine in an idle loop? -/
def isHalted (session : Session) : Bool :=
  session.machine.state == .halted

/-- Sets the key that is held down. -/
def setKeyboard (session : Session) (key : Word) : Session :=
  ⟨session.machine.setKeyboard key⟩

/-- The RAM or screen word at an address, zero elsewhere. -/
def peek (session : Session) (address : Word) : Word :=
  match session.machine.peek address with
  | .ok value => value
  | .error _ => 0

/-- Stores a RAM or screen word. -/
def poke (session : Session) (address value : Word) : Except SessionError Unit × Session :=
  match session.machine.poke address value with
  | (.ok (), machine) => (.ok (), ⟨machine⟩)
  | (.error cause, machine) => (.error (.memory cause), ⟨machine⟩)

/-- The registers as compact JSON text, the names in alphabetical order. -/
def registersJson (session : Session) : String :=
  let machine := session.machine
  (Json.record
    [("a", .integer machine.cpu.a.toInt), ("cycles", .integer machine.cycles),
      ("d", .integer machine.cpu.d.toInt), ("pc", toJson machine.cpu.pc),
      ("state", toJson machine.state)]).render .compact

end Session

end HackComputer
