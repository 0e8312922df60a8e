import HackComputer.Assembly
import HackComputer.Machine

/-!
# Log records

The records that the machine's operations leave.  They are a view of the
operations and not a part of their state: the records of a cycle follow from
its `StepInfo` and the machine after it.
-/

namespace HackComputer

/-- How detailed a record is. -/
inductive LogLevel where
  | debug
  | trace
  deriving DecidableEq, Repr

/-- The name of a level. -/
def LogLevel.name : LogLevel → String
  | .debug => "DEBUG"
  | .trace => "TRACE"

/-- Is a record of level `record` kept when the log is as detailed as `level`? -/
def LogLevel.keeps (level record : LogLevel) : Bool :=
  level == .trace || record == .debug

/-- A log record. -/
inductive Event where
  /-- A program of `count` words was loaded. -/
  | loaded (count : Nat)
  /-- The program was restarted after `cycles` cycles. -/
  | reset (cycles : Nat)
  /-- The cycle at `pc` closed an idle loop. -/
  | halted (pc : Word) (cycles : Nat)
  /-- A cycle read zero from an address without storage. -/
  | unmappedRead (address : Word)
  /-- A cycle wrote to an address without storage. -/
  | droppedWrite (address value : Word)
  /-- A cycle, with the counter and the registers A and D after it. -/
  | cycle (info : StepInfo) (cycles : Nat) (a d : Word)
  deriving DecidableEq, Repr

namespace Event

/-- The level of a record. -/
def level : Event → LogLevel
  | .cycle .. => .trace
  | _ => .debug

/-- The part of the computer that a record comes from. -/
def origin : Event → String
  | .unmappedRead _ | .droppedWrite .. => "hack::cpu::memory"
  | _ => "hack::machine"

/-- The text of a record. -/
def text : Event → String
  | .loaded count => s!"loaded {count} instruction words"
  | .reset cycles => s!"reset after {cycles} cycles"
  | .halted pc cycles => s!"halted in idle loop at {pc.toNat} after {cycles} cycles"
  | .unmappedRead address => "read from unmapped address " ++ address.hex
  | .droppedWrite address value =>
    s!"dropped write of {value.toInt} to unmapped address " ++ address.hex
  | .cycle info cycles a d =>
    Text.alignRight 6 (toString cycles) ++ " " ++ Text.zeroPadded 5 info.pc.toNat ++ ": " ++
      Text.alignLeft 16 (Assembly.disassemble info.word) ++
      s!" A={a.toInt} D={d.toInt} PC={info.outputs.pc.toNat}"

end Event

namespace Memory

/-- The records of a read at an address. -/
def readEvents (memory : Memory) (address : Word) : List Event :=
  match Location.decode address, memory.unmapped with
  | .unmapped low, .ignore => [.unmappedRead low]
  | _, _ => []

/-- The records of a write of `value` at an address. -/
def writeEvents (memory : Memory) (address value : Word) (load : Bool) : List Event :=
  match load, Location.decode address, memory.unmapped with
  | true, .unmapped low, .ignore => [.droppedWrite low value]
  | _, _, _ => []

end Memory

namespace Machine

/-- The records of the cycle `info`, after which the machine is `after`. -/
def cycleEvents (after : Machine) (info : StepInfo) : List Event :=
  (if info.instruction.readsMemory then after.memory.readEvents info.outputs.addressM else []) ++
    after.memory.writeEvents info.outputs.addressM info.outputs.outM info.outputs.writeM ++
    [.cycle info after.cycles after.cpu.a after.cpu.d] ++
    (if !after.resetLine && after.haltDetection && info.entersIdleLoop after.rom then
      [.halted info.pc after.cycles]
    else [])

/-- `runUntil` with the records of its cycles, the latest first, in front of
`log`. -/
def runUntilLogged (limit : Nat) (log : List Event) (machine : Machine) :
    List Event × Except MachineError Unit × Machine :=
  if machine.state = .running ∧ machine.cycles < limit then
    machine.stepThen (fun error after => (log, .error error, after))
      fun info after _ => runUntilLogged limit ((after.cycleEvents info).reverse ++ log) after
  else (log, .ok (), machine)
termination_by limit - machine.cycles

/-- `run` with the records of its cycles, in order. -/
def runLogged (machine : Machine) (budget : Nat) :
    List Event × Except MachineError Nat × Machine :=
  let start := machine.cycles
  match runUntilLogged (machine.cycleLimit budget) [] machine with
  | (log, .error error, after) => (log.reverse, .error error, after)
  | (log, .ok (), after) => (log.reverse, .ok (after.cycles - start), after)

/-- Logging does not change a run. -/
theorem runUntilLogged_snd (limit : Nat) (log : List Event) (machine : Machine) :
    (runUntilLogged limit log machine).2 = runUntil limit machine := by
  induction log, machine using runUntilLogged.induct limit with
  | case1 log machine goesOn inductionHypothesis =>
    rw [runUntilLogged, runUntil, if_pos goesOn, if_pos goesOn]
    rcases stepped : machine.step with ⟨error | info, after⟩
    · rw [stepThen_of_error stepped, stepThen_of_error stepped]
    · rw [stepThen_of_ok stepped, stepThen_of_ok stepped]
      exact inductionHypothesis info after (cycles_of_step stepped)
  | case2 log machine ended =>
    rw [runUntilLogged, runUntil, if_neg ended, if_neg ended]

end Machine

end HackComputer
