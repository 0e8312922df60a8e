import HackComputer.Assembly
import HackComputer.Machine

/-!
# Debugger

A machine under observation: single steps, continuous execution in batches,
breakpoints at program addresses, a window on the program and a window on RAM.
-/

namespace HackComputer

/-- What the debugger reports about its last action. -/
inductive DebugStatus where
  /-- A program of `count` words is loaded. -/
  | loaded (count : Nat)
  | failed (cause : MachineError)
  /-- The word at `pc` was executed. -/
  | stepped (pc word : Word)
  | running
  | halted (cycles : Nat)
  /-- Execution stopped at a breakpoint. -/
  | stopped (pc : Word)
  | breakpointSet (pc : Word)
  | breakpointRemoved (pc : Word)
  | reset
  deriving DecidableEq, Repr

/-- The text that shows a status. -/
def DebugStatus.text : DebugStatus → String
  | .loaded count => s!"Loaded {count} words. Press 's' to step, 'r' to run, 'q' to quit."
  | .failed cause => "Error: " ++ cause.message
  | .stepped pc word => "PC=" ++ Text.zeroPadded 5 pc.toNat ++ ": " ++ Assembly.disassemble word
  | .running => "Running..."
  | .halted cycles => s!"Halted after {cycles} cycles"
  | .stopped pc => s!"Breakpoint at PC={pc.toNat}"
  | .breakpointSet pc => s!"Set breakpoint at PC={pc.toNat}"
  | .breakpointRemoved pc => s!"Removed breakpoint at PC={pc.toNat}"
  | .reset => "Reset. Ready."

/-- A machine under observation. -/
structure Debugger where
  machine : Machine
  /-- The addresses at which continuous execution stops, in ascending order. -/
  breakpoints : List Word
  /-- Is the machine executing continuously? -/
  running : Bool
  /-- Has the user asked to leave? -/
  quitting : Bool
  status : DebugStatus
  /-- The first RAM cell in view. -/
  scroll : Fin ramSize
  /-- The most cycles of one batch. -/
  cyclesPerTick : Nat
  deriving DecidableEq, Repr

/-- One line of the window on the program. -/
structure CodeLine where
  address : Nat
  text : String
  /-- Is this the next instruction? -/
  current : Bool
  deriving DecidableEq, Repr

namespace Debugger

/-- A debugger for a new machine with `program`. -/
def ofProgram (program : List Word) (config : Config) : Debugger :=
  let (outcome, machine) := (Machine.ofConfig config).load program
  { machine
    breakpoints := []
    running := false
    quitting := false
    status := match outcome with
      | .ok () => .loaded machine.rom.loaded
      | .error cause => .failed cause
    scroll := ⟨0, by decide⟩
    cyclesPerTick := 1000 }

/-- Executes one cycle.  A failure ends continuous execution. -/
def step (debugger : Debugger) : Debugger :=
  match debugger.machine.step with
  | (.ok info, machine) => { debugger with machine, status := .stepped info.pc info.word }
  | (.error cause, machine) => { debugger with machine, status := .failed cause, running := false }

/-- Starts continuous execution. -/
def run (debugger : Debugger) : Debugger :=
  { debugger with running := true, status := .running }

/-- Executes at most `count` cycles.  Execution stops in front of a halted
machine, and after a cycle that leaves the program counter at a breakpoint. -/
def tickFor : Nat → Debugger → Debugger
  | 0, debugger => debugger
  | count + 1, debugger =>
    if !debugger.running then debugger
    else if debugger.machine.state = .halted then
      { debugger with running := false, status := .halted debugger.machine.cycles }
    else
      let after := debugger.step
      let pc := after.machine.cpu.pc
      if after.breakpoints.contains pc then
        { after with running := false, status := .stopped pc }
      else tickFor count after

/-- Executes one batch. -/
def tick (debugger : Debugger) : Debugger :=
  tickFor debugger.cyclesPerTick debugger

/-- Puts an address into an ascending list. -/
def insertAddress (address : Word) : List Word → List Word
  | [] => [address]
  | first :: rest =>
    if address < first then address :: first :: rest
    else if address = first then first :: rest
    else first :: insertAddress address rest

/-- Sets a breakpoint, and says whether it is new. -/
def addBreakpoint (debugger : Debugger) (pc : Word) : Bool × Debugger :=
  (!debugger.breakpoints.contains pc,
    { debugger with breakpoints := insertAddress pc debugger.breakpoints })

/-- Sets or removes the breakpoint at the program counter. -/
def toggleBreakpoint (debugger : Debugger) : Debugger :=
  let pc := debugger.machine.cpu.pc
  if debugger.breakpoints.contains pc then
    { debugger with
      breakpoints := debugger.breakpoints.filter (· != pc)
      status := .breakpointRemoved pc }
  else
    { debugger with
      breakpoints := insertAddress pc debugger.breakpoints
      status := .breakpointSet pc }

/-- Restarts the program.  Memory, A and D keep their values. -/
def reset (debugger : Debugger) : Debugger :=
  { debugger with machine := debugger.machine.reset, running := false, status := .reset }

/-- Sets the key that the machine sees. -/
def pressKey (debugger : Debugger) (key : Word) : Debugger :=
  { debugger with machine := debugger.machine.setKeyboard key }

/-- Overrides the program counter. -/
def setPc (debugger : Debugger) (value : Word) : Debugger :=
  { debugger with machine := debugger.machine.setPc value }

/-- Stores a RAM or screen word. -/
def poke (debugger : Debugger) (address value : Word) : Except MemoryError Unit × Debugger :=
  match debugger.machine.poke address value with
  | (outcome, machine) => (outcome, { debugger with machine })

/-- Moves the window on RAM, as far as there are cells. -/
def scrollBy (debugger : Debugger) (delta : Int) : Debugger :=
  { debugger with
    scroll := ⟨min (debugger.scroll.val + delta).toNat (ramSize - 1), by
      simp only [ramSize]
      omega⟩ }

/-- The window on the program: `lines` lines, counted modulo `2 ^ 16`, with the
program counter in the middle as far as there is program memory above and below
it. -/
def codeWindow (debugger : Debugger) (lines : Nat) : List CodeLine :=
  let count := lines % 0x10000
  let pc := debugger.machine.cpu.pc
  let start := pc.toNat - count / 2
  (List.range' start (min count (romSize - start))).map fun address =>
    { address
      text := Assembly.disassemble (debugger.machine.rom.fetch (.ofNat 16 address))
      current := address == pc.toNat }

/-- The window on RAM: the cells in view, of which `rows` are wanted. -/
def memoryWindow (debugger : Debugger) (rows : Nat) : List (Nat × Word) :=
  let start : Nat := debugger.scroll
  debugger.machine.memory.ram.dump start (min rows (ramSize - start))

end Debugger

end HackComputer
