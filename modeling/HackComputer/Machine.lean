import HackComputer.Cpu
import HackComputer.Machine.Config

/-!
# The machine

A processor, program memory and data memory, advanced one clock cycle by
`step`.  Operations that can fail return the machine beside their outcome, so
that what a failure leaves behind is part of their meaning.

The platform has no halt instruction: a finished program idles in a tight
loop.  `StepInfo.entersIdleLoop` recognises such a loop from the cycle that
closes it, and `run` stops there.
-/

namespace HackComputer

/-- Whether a machine is known to idle. -/
inductive RunState where
  /-- Executing normally. -/
  | running
  /-- In an idle loop.  Steps are still possible and go round the loop. -/
  | halted
  deriving DecidableEq, Repr

/-- What happened in one cycle. -/
structure StepInfo where
  /-- The program counter that the instruction was fetched at. -/
  pc : Word
  /-- The instruction word. -/
  word : Word
  instruction : Instruction
  outputs : CpuOutputs
  deriving DecidableEq, Repr

namespace StepInfo

/-- Did the cycle take a jump? -/
def jumps (info : StepInfo) : Bool :=
  match info.instruction with
  | .address _ => false
  | .compute fields => fields.jump.isTaken (info.outputs.outM == 0) info.outputs.outM.msb

/-- Does the cycle's instruction store nothing? -/
def storesNothing (info : StepInfo) : Bool :=
  match info.instruction with
  | .address _ => false
  | .compute fields => fields.dest.isEmpty

/-- Did the cycle look at the keyboard?  A loop that does waits for input. -/
def readsKeyboard (info : StepInfo) : Bool :=
  info.instruction.readsMemory && Location.decode info.outputs.addressM == .keyboard

/-- Did the cycle close an idle loop of this program memory: a taken jump that
stores nothing, does not look at the keyboard, and lands on itself or on an
instruction just before it that loads this very target? -/
def entersIdleLoop (info : StepInfo) (rom : Rom) : Bool :=
  let target := info.outputs.addressM
  info.jumps && info.storesNothing && !info.readsKeyboard &&
    (target == info.pc ||
      (Word.low15 (target + 1) == info.pc &&
        Instruction.decode (rom.fetch target) == .address target))

end StepInfo

/-- The state after the cycle `info`.  A cycle under reset goes on at address 0,
so no loop is closed and none is left idle. -/
def RunState.next (state : RunState) (resetLine haltDetection : Bool) (rom : Rom)
    (info : StepInfo) : RunState :=
  if resetLine then .running
  else if haltDetection && info.entersIdleLoop rom then .halted
  else state

/-- A complete computer. -/
structure Machine where
  cpu : Cpu
  rom : Rom
  memory : Memory
  state : RunState
  /-- The cycles executed since the program was loaded. -/
  cycles : Nat
  /-- The synchronous reset input. -/
  resetLine : Bool
  /-- The most recent cycle since the last load or reset. -/
  lastStep : Option StepInfo
  haltDetection : Bool
  deriving DecidableEq, Repr

/-- Why an operation of the machine failed. -/
inductive MachineError where
  | memory (cause : MemoryError)
  deriving DecidableEq, Repr

/-- The text that reports a failed operation of the machine. -/
def MachineError.message : MachineError → String
  | .memory cause => "memory error: " ++ cause.message

/-- The cycle counter counts up to this value. -/
def maxCycles : Nat := 0xFFFFFFFFFFFFFFFF

namespace Machine

/-- A machine with clear storage and no program. -/
def ofConfig (config : Config) : Machine where
  cpu := .zero
  rom := .zero
  memory := .zero config.unmapped
  state := .running
  cycles := 0
  resetLine := false
  lastStep := none
  haltDetection := config.haltDetection

/-- The settings that the machine was built with. -/
def config (machine : Machine) : Config where
  unmapped := machine.memory.unmapped
  haltDetection := machine.haltDetection

/-- Replaces the program and starts it at address 0.  Data memory, A, D and the
reset line keep their values. -/
def load (machine : Machine) (program : List Word) : Except MachineError Unit × Machine :=
  match Rom.ofProgram program with
  | .error cause => (.error (.memory cause), machine)
  | .ok rom =>
    (.ok (),
      { machine with
        cpu := machine.cpu.setPc 0
        rom
        state := .running
        cycles := 0
        lastStep := none })

/-- The memory word that an instruction takes as its operand, zero if it takes
none.  Memory is only read for an instruction that uses it. -/
def operand (machine : Machine) (instruction : Instruction) : Except MemoryError Word :=
  if instruction.readsMemory then machine.memory.read machine.cpu.addressM else .ok 0

/-- One clock cycle: fetch, read the operand, evaluate, and at the clock edge
write memory and latch the registers. -/
def step (machine : Machine) : Except MachineError StepInfo × Machine :=
  let pc := machine.cpu.pc
  let word := machine.rom.fetch pc
  let instruction := Instruction.decode word
  match machine.operand instruction with
  | .error cause => (.error (.memory cause), machine)
  | .ok inM =>
    let evaluation := machine.cpu.evaluate word inM
    match machine.memory.write evaluation.addressM evaluation.outM evaluation.writeM with
    | (.error cause, memory) => (.error (.memory cause), { machine with memory })
    | (.ok (), memory) =>
      let cpu := machine.cpu.commit evaluation machine.resetLine
      let info : StepInfo :=
        { pc, word, instruction, outputs := Cpu.outputs evaluation cpu.pc }
      (.ok info,
        { machine with
          cpu
          memory
          state := machine.state.next machine.resetLine machine.haltDetection machine.rom info
          cycles := machine.cycles + 1
          lastStep := some info })

/-- Every cycle counts. -/
theorem cycles_of_step {machine after : Machine} {info : StepInfo}
    (stepped : machine.step = (.ok info, after)) : after.cycles = machine.cycles + 1 := by
  rw [step] at stepped
  dsimp only at stepped
  split at stepped
  · cases stepped
  · split at stepped
    · cases stepped
    · cases stepped
      rfl

/-- A cycle, and what is made of its failure or of the machine after it, on which
the counter has advanced. -/
def stepThen {Result : Type} (machine : Machine) (failed : MachineError → Machine → Result)
    (advanced : StepInfo → (after : Machine) → after.cycles = machine.cycles + 1 → Result) :
    Result :=
  match stepped : machine.step with
  | (.error error, after) => failed error after
  | (.ok info, after) => advanced info after (cycles_of_step stepped)

/-- Steps while the machine is running and its counter is below `limit`, unless a
step fails. -/
def runUntil (limit : Nat) (machine : Machine) : Except MachineError Unit × Machine :=
  if machine.state = .running ∧ machine.cycles < limit then
    machine.stepThen (fun error after => (.error error, after))
      fun _ after _ => runUntil limit after
  else (.ok (), machine)
termination_by limit - machine.cycles

section StepThen

variable {Result : Type} {machine after : Machine} {failed : MachineError → Machine → Result}
  {advanced : StepInfo → (after : Machine) → after.cycles = machine.cycles + 1 → Result}

theorem stepThen_of_error {error : MachineError} (stepped : machine.step = (.error error, after)) :
    machine.stepThen failed advanced = failed error after := by
  rw [stepThen]
  split
  · rename_i stepped'
    cases stepped.symm.trans stepped'
    rfl
  · rename_i stepped'
    cases stepped.symm.trans stepped'

theorem stepThen_of_ok {info : StepInfo} (stepped : machine.step = (.ok info, after)) :
    machine.stepThen failed advanced = advanced info after (cycles_of_step stepped) := by
  rw [stepThen]
  split
  · rename_i stepped'
    cases stepped.symm.trans stepped'
  · rename_i stepped'
    cases stepped.symm.trans stepped'
    rfl

end StepThen

/-- Where the counter stands after `budget` more cycles.  The sum saturates. -/
def cycleLimit (machine : Machine) (budget : Nat) : Nat :=
  min (machine.cycles + budget) maxCycles

/-- Runs until halted or out of budget, and gives the number of cycles. -/
def run (machine : Machine) (budget : Nat) : Except MachineError Nat × Machine :=
  let start := machine.cycles
  match runUntil (machine.cycleLimit budget) machine with
  | (.error error, after) => (.error error, after)
  | (.ok (), after) => (.ok (after.cycles - start), after)

/-- Restarts the program and releases the reset line.  Storage, A and D keep
their values. -/
def reset (machine : Machine) : Machine :=
  { machine with
    cpu := machine.cpu.setPc 0
    resetLine := false
    state := .running
    lastStep := none }

/-- Drives the synchronous reset input.  While it is asserted, every cycle ends
at address 0. -/
def setReset (machine : Machine) (asserted : Bool) : Machine :=
  { machine with resetLine := asserted }

/-- The RAM or screen word at an address. -/
def peek (machine : Machine) (address : Word) : Except MemoryError Word :=
  machine.memory.peek address

/-- Stores a RAM or screen word, outside the clock. -/
def poke (machine : Machine) (address value : Word) : Except MemoryError Unit × Machine :=
  match machine.memory.poke address value with
  | (outcome, memory) => (outcome, { machine with memory })

/-- Sets the key that is held down. -/
def setKeyboard (machine : Machine) (key : Word) : Machine :=
  { machine with memory := machine.memory.setKeyboard key }

/-- Overrides the program counter, outside the clock. -/
def setPc (machine : Machine) (value : Word) : Machine :=
  { machine with cpu := machine.cpu.setPc value }

end Machine

end HackComputer
